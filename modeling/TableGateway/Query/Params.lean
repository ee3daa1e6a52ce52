import TableGateway.Entries
import TableGateway.Fault
import TableGateway.Number.Integer
import TableGateway.Text.Form

/-!
# Query parameters

The parameters of a request, each with all its values, in the order of their names. Those that are
not reserved are filters: of the table itself, or, with a point in the name, of a relation.
Section 6 of the specification.

| here | in the service |
| --- | --- |
| `Params.isReserved` | `QueryParams.is_reserved` |
| `Params.values` | `QueryParams.get_all` |
| `Params.first?` | `QueryParams.get` |
| `Params.add` | `QueryParams.insert` |
| `Params.ofPairs` | `QueryParams.from_pairs` |
| `Params.ofQuery` | `QueryParams.parse` |
| `Params.filters` | `QueryParams.filters` |
| `Params.embedded` | `QueryParams.embedded_filters` |
| `Params.hasCursor` | `QueryParams.has_cursor_params` |
| `Params.size?` | `QueryParams.usize_param` |
-/
namespace TableGateway

/-- The values of each parameter, by name. -/
abbrev Params := Entries (List String)

namespace Params

/-- The parameters that control a request and are no filters. -/
def reserved : List String :=
  ["select", "order", "orderBy", "orderDirection", "limit", "offset", "page", "size", "expand",
    "first", "after", "last", "before", "count"]

def isReserved (name : String) : Bool := reserved.contains name

def values (params : Params) (name : String) : List String := (Entries.get? name params).getD []

def first? (params : Params) (name : String) : Option String := (params.values name).head?

def add (params : Params) (name value : String) : Params :=
  Entries.insert name (params.values name ++ [value]) params

def ofPairs (pairs : List (String × String)) : Params :=
  pairs.foldl (fun params (name, value) => params.add name value) []

def ofQuery (query : String) : Params := ofPairs (Text.Form.pairs query)

/-- The filters of the table itself; `or` is one of them. -/
def filters (params : Params) : Params :=
  params.filter fun (name, _) => !isReserved name && !name.toList.contains '.'

/-- The filters of relations: the relation, the rest of the name after its first point, and the
values. -/
def embedded (params : Params) : List (String × String × List String) :=
  params.filterMap fun (name, values) =>
    if isReserved name then none
    else (Text.cutString? '.' name).map fun (relation, column) => (relation, column, values)

/-- The request asks for a window of cursors. -/
def hasCursor (params : Params) : Bool :=
  ["first", "after", "last", "before"].any fun name => Entries.has name params

/-- The number from zero on in a parameter, if it is there. -/
def size? (params : Params) (name : String) : Except Fault (Option Nat) :=
  match params.first? name with
  | none => .ok none
  | some s =>
    match Number.readNat? Number.maxSize (Text.trim s.toList) with
    | some n => .ok (some n)
    | none => .error (.invalidParam (name ++ " must be a non-negative integer"))

end Params
end TableGateway
