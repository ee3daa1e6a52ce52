import TableGateway.Fault
import TableGateway.Http.MediaType
import TableGateway.Json.Printer
import TableGateway.Json.Reader

/-!
# Messages

The parts of HTTP requests and responses that matter to the gateway.
Section 10.7 of the specification.

In the service, a fault becomes a response by `ApiError.from` and `error_response`.
-/
namespace TableGateway.Http

structure Request where
  method : String
  /-- The path and the query as they stand in the request. -/
  target : String
  origin : Option String := none
  contentType : Option String := none
  body : String := ""
  deriving DecidableEq, Repr

namespace Request

/-- The target from its path on: a scheme and an authority may stand before the path, which is then
`/` if it is empty. -/
def afterAuthority (cs : List Char) : List Char :=
  match Text.cut? ':' cs with
  | some (scheme, '/' :: '/' :: rest) =>
    if scheme.isEmpty || !scheme.all fun c => c.isAlphanum || "+-.".toList.contains c then cs
    else
      let rest := rest.dropWhile fun c => !"/?#".toList.contains c
      if rest.head? = some '/' then rest else '/' :: rest
  | _ => cs

/-- The path and, after the first question mark, the query. A fragment is no part of them. -/
def parts (r : Request) : List Char × String :=
  let cs := (afterAuthority r.target.toList).takeWhile (· != '#')
  match Text.cut? '?' cs with
  | some (path, query) => (path, String.ofList query)
  | none => (cs, "")

/-- The document in the body, if it is said to be one and is one. -/
def document? (r : Request) : Option Json :=
  if r.contentType.any MediaType.isJson then Json.read? r.body else none

end Request

structure Response where
  status : Nat
  /-- The header `Content-Range`. -/
  contentRange : Option String := none
  /-- The header `X-Deleted-Count`. -/
  deletedCount : Option Nat := none
  /-- The header `Access-Control-Allow-Origin`. -/
  allowOrigin : Option String := none
  body : Option Json := none
  deriving Repr

/-- What a client is told of a fault. -/
structure Problem where
  code : String
  message : String
  details : Option Json := none
  hint : Option String := none
  deriving Repr

namespace Problem

def ofFault (f : Fault) : Problem := { code := f.code, message := f.message }

def json (p : Problem) : Json :=
  .object ([("code", .str p.code), ("message", .str p.message)] ++
    (p.details.toList.map fun v => ("details", v)) ++
    (p.hint.toList.map fun s => ("hint", .str s)))

end Problem

def Response.ofFault (f : Fault) : Response :=
  { status := f.status, body := some (Problem.ofFault f).json }

def Response.ofJson (status : Nat) (v : Json) : Response := { status, body := some v }

end TableGateway.Http
