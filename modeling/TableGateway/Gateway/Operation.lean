import TableGateway.Gateway.Read
import TableGateway.Gateway.Write

/-!
# Operations

What a client may ask of a gateway, as data: to read a page, a window or a row of a table, or to
write its rows. Section 10.6 of the specification.
-/
namespace TableGateway

/-- Something that a client asks for. -/
inductive Operation where
  | list (table : String) (params : Params)
  | window (table : String) (params : Params)
  | get (table key : String) (params : Params)
  | create (table : String) (body : Json)
  | update (table key : String) (body : Json)
  | upsert (table : String) (body : Json)
  | delete (table key : String)
  deriving Repr

namespace Operation

/-- The query parameters of the request; a request to write has none. -/
def params : Operation → Params
  | list _ params | window _ params | get _ _ params => params
  | create .. | update .. | upsert .. | delete .. => []

def perform {σ δ : Type} (g : Gateway σ δ) : Operation → Action σ δ Json
  | list table params => return (← g.list table params).json
  | window table params => return (← g.window table params).json
  | get table key params => return .obj (← g.get table key params)
  | create table body => g.create table body
  | update table key body => return .obj (← g.update table key body)
  | upsert table body => g.upsert table body
  | delete table key => return .nat (← g.delete table key)

end Operation
end TableGateway
