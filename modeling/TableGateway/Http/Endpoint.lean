import TableGateway.Text.Form

/-!
# Endpoints

What a request asks for by its method and path. A `Route` is a method with a pattern of paths; the
first route that fits a request counts. The routes of tables begin with the base path of the
settings and go on with a table and perhaps a key. Section 10.7 of the specification.

In the service, the routes are set up by `configure`.
-/
namespace TableGateway.Http

inductive Endpoint where
  | health
  | invalidate
  | list (table : String)
  | create (table : String)
  | upsert (table : String)
  | get (table key : String)
  | update (table key : String)
  | delete (table key : String)
  deriving DecidableEq, Repr

/-- A part of a pattern of paths. -/
inductive PathPart where
  /-- A text that stands in the path as it is. -/
  | text (cs : List Char)
  /-- Any characters but slashes, at least one. -/
  | variable
  deriving DecidableEq, Repr

namespace PathPart

/-- The parts of a text in which variables are names in braces. Of a brace that is not closed
nothing is read. -/
def ofText : Nat → List Char → List PathPart
  | 0, _ => []
  | fuel + 1, cs =>
    match Text.cut? '\x7b' cs with
    | none => [.text cs]
    | some (front, rest) =>
      match Text.cut? '\x7d' rest with
      | none => [.text front]
      | some (_, rest) => .text front :: .variable :: ofText fuel rest

/-- What the variables stand for in a path, each being as long as it can be, earlier ones first. -/
def values? : List PathPart → List Char → Option (List (List Char))
  | [], path => if path.isEmpty then some [] else none
  | .text cs :: parts, path => (Text.dropLead? cs path).bind (values? parts)
  | .variable :: parts, path =>
    (List.range (path.takeWhile (· != '/')).length).reverse.findSome? fun n =>
      (values? parts (path.drop (n + 1))).map (path.take (n + 1) :: ·)

end PathPart

/-- A method and a pattern of paths, with the endpoint for the values of the variables. -/
structure Route where
  method : String
  pattern : List PathPart
  endpoint? : List String → Option Endpoint

namespace Route

/-- The pattern that the paths of tables begin with: the base path between single slashes. -/
def root (basePath : String) : List PathPart :=
  let base := (basePath.toList.reverse.dropWhile (· == '/')).reverse
  let base := if base.isEmpty || base.head? = some '/' then base else '/' :: base
  PathPart.ofText (base.length + 1) base ++ [.text ['/']]

/-- An endpoint of one variable, for a path that has no more. -/
def ofTable (endpoint : String → Endpoint) : List String → Option Endpoint
  | [table] => some (endpoint table)
  | _ => none

/-- An endpoint of two variables, which are the first of the path. -/
def ofKey (endpoint : String → String → Endpoint) : List String → Option Endpoint
  | table :: key :: _ => some (endpoint table key)
  | _ => none

/-- All routes; the first that fits a request counts. -/
def all (basePath : String) : List Route :=
  let table := root basePath ++ [.variable]
  let key := table ++ [.text ['/'], .variable]
  [ ⟨"GET", [.text "/health".toList], fun _ => some .health⟩,
    ⟨"POST", [.text "/admin/schema/invalidate".toList], fun _ => some .invalidate⟩,
    ⟨"POST", table ++ [.text "/upsert".toList], ofTable .upsert⟩,
    ⟨"GET", table, ofTable .list⟩,
    ⟨"POST", table, ofTable .create⟩,
    ⟨"GET", key, ofKey .get⟩,
    ⟨"PATCH", key, ofKey .update⟩,
    ⟨"PUT", key, ofKey .update⟩,
    ⟨"DELETE", key, ofKey .delete⟩ ]

end Route

/-- The endpoint of a method and a path, which are decoded after they are told apart. -/
def Endpoint.resolve? (basePath method : String) (path : List Char) : Option Endpoint :=
  let path := Text.Form.decodePath path
  let found := (Route.all basePath).findSome? fun route =>
    if route.method = method then (PathPart.values? route.pattern path).map fun values => (route, values)
    else none
  found.bind fun (route, values) => route.endpoint? (values.map Text.Form.decodeText)

end TableGateway.Http
