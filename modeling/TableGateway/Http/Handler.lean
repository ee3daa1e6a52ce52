import TableGateway.Gateway.Read
import TableGateway.Gateway.Write
import TableGateway.Http.Endpoint
import TableGateway.Http.Message

/-!
# Handling requests

Every request is answered: by what its endpoint does with the gateway, with a fault of that, or
without a body if it has no endpoint or no document where one is needed.
Section 10.7 of the specification.

| here | in the service |
| --- | --- |
| `Http.healthy` | `health_handler` |
| `Http.allowedOrigin` | `cors` |
| `Http.handle` | `select_handler` and the other handlers |
-/
namespace TableGateway.Http

def version : String := "0.1.0"

def healthy : Json :=
  .object [("status", .str "healthy"), ("service", .str "rest"), ("version", .str version)]

/-- The origin that may read an answer: any one if the settings name none or a star, and else one
that they name. -/
def allowedOrigin (origins : List String) (origin : Option String) : Option String :=
  if origins.isEmpty || origins.contains "*" then origin else origin.filter origins.contains

variable {σ δ : Type} (g : Gateway σ δ)

/-- The response to what a listing or a window gives. -/
def ofAnswer : Answer → Response
  | .listing l => { status := 200, contentRange := some l.range, body := some l.json }
  | .connection c => .ofJson 200 c.json

/-- What an endpoint does, with the query and the document of the request. -/
def perform (params : Params) (document? : Option Json) : Endpoint → Action σ δ Response
  | .health => return .ofJson 200 healthy
  | .invalidate => do
    let _ ← ExceptT.lift g.invalidate
    return .ofJson 200 (.object [("status", .str "invalidated")])
  | .list table => return ofAnswer (← g.read table params)
  | .get table key => return .ofJson 200 (.obj (← g.get table key params))
  | .delete table key => return { status := 204, deletedCount := some (← g.delete table key) }
  | .create table => withDocument fun v => return .ofJson 201 (← g.create table v)
  | .upsert table => withDocument fun v => return .ofJson 200 (← g.upsert table v)
  | .update table key => withDocument fun v => return .ofJson 200 (.obj (← g.update table key v))
where
  /-- Go on with the document, which must be there. -/
  withDocument (next : Json → Action σ δ Response) : Action σ δ Response :=
    match document? with
    | some v => next v
    | none => return { status := 400 }

def handle (r : Request) : StateM (Session σ δ) Response := do
  let (path, query) := r.parts
  let response ← match Endpoint.resolve? g.config.rest.basePath r.method path with
    | none => pure { status := 404 }
    | some endpoint =>
      match ← (perform g (.ofQuery query) r.document? endpoint).run with
      | .ok response => pure response
      | .error f => pure (.ofFault f)
  return { response with allowOrigin := allowedOrigin g.config.rest.corsOrigins r.origin }

end TableGateway.Http
