import TableGateway.Query.Params

/-!
# Select lists

`id,title,author:authors(id,name),comments(*)` is a forest of `Field`s, in which relations have
fields of their own. Relations are nested at most `maxNesting` deep.
Section 4.2 of the specification.

| here | in the service |
| --- | --- |
| `Field.output` | `SelectField.output_name` |
| `Field.children` | `SelectField.children` |
| `Field.isWildcard` | `SelectField.is_wildcard` |
| `Field.isRelation` | `SelectField.is_embedded` |
| `Field.columns?` | `SelectField.column_names` |
| `Select.splitTopLevel` | `split_top_level` |
| `Select.checkBalanced` | `check_balanced` |
| `Select.token` | `parse_token` |
| `Select.parse` | `parse_select` |
| `Select.parseExpand` | `parse_expand` |
| `Select.attach` | `attach` |
| `Select.attachFilters` | `attach_embedded_filters` |
-/
namespace TableGateway

inductive Field where
  /-- All columns, `*`. -/
  | wildcard
  /-- A column. -/
  | column (name : String)
  /-- A relation with the fields of its rows, the conditions on them by column, and the name under
  which they are shown, if it is another one. -/
  | relation (name : String) (label : Option String) (children : List Field)
      (filters : Entries String)
  deriving Repr, Inhabited

namespace Field

/-- What the field refers to. -/
def name : Field → String
  | wildcard => "*"
  | column name => name
  | relation name .. => name

/-- The other name of the field. -/
def label? : Field → Option String
  | relation _ label _ _ => label
  | _ => none

/-- The name under which the field is shown. -/
def output (f : Field) : String := f.label?.getD f.name

def children : Field → List Field
  | relation _ _ children _ => children
  | _ => []

def filters : Field → Entries String
  | relation _ _ _ filters => filters
  | _ => []

def isWildcard : Field → Bool
  | wildcard => true
  | _ => false

def isRelation : Field → Bool
  | relation .. => true
  | _ => false

/-- The columns that are named in a list; `none` if it selects all columns, by a wildcard or by
naming none. -/
def columns? (fields : List Field) : Option (List String) :=
  if fields.any isWildcard then none
  else
    let names := fields.filterMap fun
      | column name => some name
      | _ => none
    if names.isEmpty then none else some names

end Field

namespace Select

def maxNesting : Nat := 32

/-! ## Splitting -/

/-- Split at the commas outside parentheses; a closing one without its opening one does not
count. -/
def splitRaw : Nat → List Char → List (List Char)
  | _, [] => [[]]
  | depth, c :: cs =>
    if c = ',' && depth = 0 then [] :: splitRaw 0 cs
    else
      let depth := if c = '(' then depth + 1 else if c = ')' then depth - 1 else depth
      match splitRaw depth cs with
      | part :: parts => (c :: part) :: parts
      | [] => [[c]]

/-- The parts between the commas outside parentheses, trimmed, without the empty ones. -/
def splitTopLevel (cs : List Char) : List (List Char) :=
  ((splitRaw 0 cs).map Text.trim).filter (!·.isEmpty)

def split (s : String) : List String := (splitTopLevel s.toList).map String.ofList

/-! ## Balance -/

/-- The depth at the end of a text and the greatest depth on the way, both from `depth` on. A closing
parenthesis without its opening one ends the walk at a depth of `none`. -/
def depths (depth deepest : Nat) : List Char → Option Nat × Nat
  | [] => (some depth, deepest)
  | c :: cs =>
    if c = '(' then depths (depth + 1) (max deepest (depth + 1)) cs
    else if c = ')' then
      match depth with
      | 0 => (none, deepest)
      | depth + 1 => depths depth deepest cs
    else depths depth deepest cs

/-- Refuse a text that nests too deep, and then one whose parentheses do not match. -/
def checkBalanced (cs : List Char) : Except Fault Unit :=
  let (depth, deepest) := depths 0 0 cs
  if maxNesting < deepest then
    .error (.tooComplex ("select nests " ++ toString deepest ++ " levels, maximum is " ++
      toString maxNesting))
  else if depth = some 0 then .ok ()
  else .error (.invalidParam ("unbalanced parentheses in select '" ++ String.ofList cs ++ "'"))

/-! ## Reading -/

/-- The label and the name of a relation, with white space around both. -/
def head (cs : List Char) : Option (List Char) × List Char :=
  match Text.cut? ':' (Text.trim cs) with
  | some (label, name) => (some (Text.trim label), Text.trim name)
  | none => (none, Text.trim cs)

mutual

/-- A select list, whose nesting is bounded by `fuel`. A blank one selects all columns. -/
def list : Nat → List Char → Except Fault (List Field)
  | 0, _ => .error (.tooComplex "select nests too deep")
  | fuel + 1, cs =>
    if cs.all Text.isBlank then .ok [.wildcard]
    else
      match checkBalanced cs with
      | .error e => .error e
      | .ok () => (splitTopLevel cs).mapM (token fuel)

def token : Nat → List Char → Except Fault Field
  | fuel, cs =>
    if cs = ['*'] then .ok .wildcard
    else
      match Text.cut? '(' cs with
      | none => .ok (.column (String.ofList cs))
      | some (front, back) =>
        match Text.dropTail? [')'] back with
        | none =>
          .error (.invalidParam ("malformed select token '" ++ String.ofList cs ++ "'"))
        | some inner =>
          let (label, name) := head front
          if name.isEmpty || label.any List.isEmpty then
            .error (.invalidParam ("missing relation name in '" ++ String.ofList cs ++ "'"))
          else
            match fuel with
            | 0 => .error (.tooComplex "select nests too deep")
            | fuel + 1 =>
              (list fuel inner).map fun children =>
                .relation (String.ofList name) (label.map String.ofList) children []

end

def parse (s : String) : Except Fault (List Field) := list (2 * s.length + 2) s.toList

/-- The fields of a list of relations. A name alone selects all columns of its relation. -/
def parseExpand (s : String) : Except Fault (List Field) :=
  if Text.isBlankText s then .ok []
  else (parse s).map fun fields =>
    (fields.filter fun f => !f.isWildcard).map fun
      | .column name => .relation name none [.wildcard] []
      | f => f

/-! ## Conditions on relations -/

def isNamed (name : String) (f : Field) : Bool :=
  f.isRelation && (f.output = name || f.name = name)

mutual

/-- Set a condition at the relation that a path of names leads to. The first field of a name is
taken, and a condition that is there already stays. -/
def attach (path : List String) (column value : String) : List Field → List Field
  | [] => []
  | f :: rest =>
    match path with
    | [] => f :: rest
    | name :: path =>
      if isNamed name f then attachTo path column value f :: rest
      else f :: attach (name :: path) column value rest

/-- Set a condition at a field, or at one within it. -/
def attachTo (path : List String) (column value : String) : Field → Field
  | .relation name label children filters =>
    match path with
    | [] =>
      .relation name label children
        (if filters.has column then filters else filters.insert column value)
    | path => .relation name label (attach path column value children) filters
  | f => f

end

/-- The names between the points of a text. -/
def segments (s : String) : List String := (s.toList.splitOn '.').map String.ofList

/-- Set the conditions that the parameters put on relations: all but the last of the names in a
parameter lead to a relation, and the last one is the column. -/
def attachFilters (fields : List Field) (params : Params) : List Field :=
  params.embedded.foldl
    (fun fields (relation, rest, values) =>
      match values with
      | [] => fields
      | value :: _ =>
        let names := relation :: segments rest
        attach names.dropLast (names.getLastD "") value fields)
    fields

end Select
end TableGateway
