import TableGateway.Schema.Source

/-!
# The schema cache

A source that keeps the last snapshot loaded. It loads when it has none, and before every reading
if snapshots have no lifetime; a load that fails leaves the cache as it was.
Section 10.4 of the specification.

| here | in the service |
| --- | --- |
| `Lifetime.ofSeconds` | `DatabaseConfig.schema_ttl` |
| `Cache.lastRefresh` | `SchemaCache.last_refresh` |
| `Cache.fresh?` | `SchemaCache.fresh` |
| `Cache.read` | `SchemaCache.snapshot` |
| `Cache.invalidate` | `SchemaCache.invalidate` |
| `Cache.source` | `PgRestServer.with_loader` |
-/
namespace TableGateway

inductive Lifetime where
  /-- For one reading only. -/
  | zero
  /-- Until it is invalidated. -/
  | endless
  deriving DecidableEq, Repr

/-- The lifetime for a number of seconds, where all but zero outlast the run. -/
def Lifetime.ofSeconds (n : Nat) : Lifetime := if n = 0 then .zero else .endless

structure Cache where
  kept : Option Snapshot := none
  /-- The number of loads so far. -/
  loads : Nat := 0
  /-- The load that gave a snapshot last. The loads are counted from zero. -/
  lastRefresh : Option Nat := none
  deriving DecidableEq, Repr

/-- The outcomes of the first, second, … load. -/
abbrev Loader := Nat → Except Fault Snapshot

/-- The outcomes in a list, of which the last repeats. -/
def Loader.ofList (outcomes : List (Except Fault Snapshot)) : Loader := fun n =>
  (outcomes[min n (outcomes.length - 1)]?).getD (.ok {})

namespace Cache

/-- The snapshot that may still be served. -/
def fresh? (lifetime : Lifetime) (c : Cache) : Option Snapshot :=
  match lifetime with
  | .zero => none
  | .endless => c.kept

/-- Some load has succeeded. -/
def refreshed (c : Cache) : Bool := c.lastRefresh.isSome

/-- Load, and keep the snapshot if there is one. -/
def load (loader : Loader) (c : Cache) : Except Fault Snapshot × Cache :=
  match loader c.loads with
  | .ok s => (.ok s, { kept := some s, loads := c.loads + 1, lastRefresh := some c.loads })
  | .error e => (.error e, { c with loads := c.loads + 1 })

/-- The snapshot kept, or a new one. -/
def read (loader : Loader) (lifetime : Lifetime) (c : Cache) : Except Fault Snapshot × Cache :=
  match c.fresh? lifetime with
  | some s => (.ok s, c)
  | none => c.load loader

def invalidate (c : Cache) : Cache := { c with kept := none }

def source (loader : Loader) (lifetime : Lifetime) : SchemaSource Cache :=
  ⟨read loader lifetime, invalidate⟩

end Cache
end TableGateway
