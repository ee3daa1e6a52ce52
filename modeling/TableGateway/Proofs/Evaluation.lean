import TableGateway.Gateway.Read
import TableGateway.Proofs.Trace

/-!
# Evaluation

What a part of a request gives from one session, and the session it leaves. `Action.Gives` is told
apart along the steps of the part. Main statement: `Action.gives_bind`.
-/
namespace TableGateway

variable {σ δ α β : Type}

namespace Action

/-- From the one session, the part ends in the value and in the other session. -/
def Gives (x : Action σ δ α) (s : Session σ δ) (a : α) (t : Session σ δ) : Prop :=
  x.run s = (.ok a, t)

variable {s t u : Session σ δ} {a : α} {b : β}

/-- A part of two steps goes on in the session that the first leaves, unless that fails. -/
theorem run_bind (x : Action σ δ α) (f : α → Action σ δ β) (s : Session σ δ) :
    (x >>= f).run s =
      match (x.run s).1 with
      | .ok a => (f a).run (x.run s).2
      | .error e => (.error e, (x.run s).2) := by
  show ExceptT.bindCont f (x.run s).1 (x.run s).2 = _
  cases x.run s with
  | mk r t => cases r <;> rfl

/-- A part of two steps gives what the second gives from where the first ends. -/
theorem gives_bind {x : Action σ δ α} {f : α → Action σ δ β} :
    (x >>= f).Gives s b u ↔ ∃ a t, x.Gives s a t ∧ (f a).Gives t b u := by
  unfold Gives
  rw [run_bind]
  constructor
  · intro h
    cases hx : (x.run s).1 with
    | ok a =>
      rw [hx] at h
      exact ⟨a, _, Prod.ext hx rfl, h⟩
    | error e =>
      rw [hx] at h
      cases h
  · rintro ⟨a, t, hx, hf⟩
    rw [hx]
    exact hf

/-- A part of whose value something is known gives a value. -/
theorem gives_of_map {x : Action σ δ α} {f : α → β} {b : β}
    (h : (x.run s).1.toOption.map f = some b) : ∃ a, x.Gives s a (x.run s).2 ∧ f a = b := by
  cases hx : (x.run s).1 with
  | ok a =>
    rw [hx] at h
    exact ⟨a, Prod.ext hx rfl, Option.some.inj h⟩
  | error e =>
    rw [hx] at h
    cases h

theorem gives_unique {x : Action σ δ α} {a' : α} (h : x.Gives s a t) (h' : x.Gives s a' u) :
    a = a' ∧ t = u := by
  cases h.symm.trans h'
  exact ⟨rfl, rfl⟩

theorem gives_pure {a' : α} : (pure a : Action σ δ α).Gives s a' t ↔ a' = a ∧ t = s := by
  show ((Except.ok a, s) : Except Fault α × Session σ δ) = (.ok a', t) ↔ _
  simp [eq_comm]

theorem gives_known {r : Except Fault α} :
    Gives (known r : Action σ δ α) s a t ↔ r = .ok a ∧ t = s := by
  show ((r, s) : Except Fault α × Session σ δ) = (.ok a, t) ↔ _
  simp [eq_comm]

theorem gives_look {x : Lookup σ α} : Gives (Session.look x : Action σ δ α) s a t ↔
    (x.run s.schema).1 = .ok a ∧ t = { s with schema := (x.run s.schema).2 } := by
  show (((x.run s.schema).1, { s with schema := (x.run s.schema).2 }) :
    Except Fault α × Session σ δ) = (.ok a, t) ↔ _
  simp [eq_comm]

theorem gives_lift {x : StateM (Session σ δ) α} :
    Gives (ExceptT.lift x : Action σ δ α) s a t ↔ x s = (a, t) := by
  show ((Except.ok (x s).1, (x s).2) : Except Fault α × Session σ δ) = (.ok a, t) ↔ _
  rw [Prod.mk.injEq, Except.ok.injEq]
  constructor
  · rintro ⟨value, session⟩
    exact Prod.ext value session
  · intro h
    rw [h]
    exact ⟨rfl, rfl⟩

theorem gives_ask {db : Database δ} {st : Statement} {rows : List Row} :
    Gives (db.ask st : Action σ δ _) s rows t ↔ (db.query st s.database).1 = .ok rows ∧
      t = { s with database := (db.query st s.database).2, sent := s.sent ++ [st] } := by
  let next : Session σ δ :=
    { s with database := (db.query st s.database).2, sent := s.sent ++ [st] }
  show (((db.query st s.database).1, next) : Except Fault _ × Session σ δ) = (.ok rows, t) ↔ _
  simp [next, eq_comm]

theorem gives_classified {x : Action σ δ α} : (Gateway.classified x).Gives s a t ↔ x.Gives s a t := by
  show (((x.run s).1.mapError Fault.classified, (x.run s).2) : Except Fault α × Session σ δ) =
    (.ok a, t) ↔ x.run s = (.ok a, t)
  cases x.run s with
  | mk r u =>
    cases r with
    | ok a => exact Iff.rfl
    | error e => exact ⟨nofun, nofun⟩

end Action

/-! ## The parts of a gateway -/

namespace Gateway

variable {g : Gateway σ δ} {snapshot : Snapshot} {s t : Session σ δ}

/-- The snapshot of a request is the one that the source supplies. -/
theorem snapshot_gives (supplied : g.source.Supplies (· = snapshot)) {found : Snapshot}
    (h : g.snapshot.Gives s found t) : found = snapshot :=
  supplied s.schema found (Action.gives_look.mp h).1

theorem readable_gives {name : String} {table : Table}
    (h : (g.readable snapshot name).Gives s table t) : snapshot.resolve name = .ok table := by
  unfold readable at h
  rw [Action.gives_bind] at h
  obtain ⟨found, _, hfound, h⟩ := h
  rw [Action.gives_bind] at h
  obtain ⟨_, _, -, h⟩ := h
  obtain ⟨rfl, -⟩ := Action.gives_pure.mp h
  exact (Action.gives_known.mp hfound).1

theorem fetch_gives {st : Statement} {rows : List Row} (h : (g.fetch st).Gives s rows t) :
    (g.db.query st s.database).1 = .ok rows ∧ t.sent.getLast? = some st := by
  obtain ⟨answer, rfl⟩ := Action.gives_ask.mp (Action.gives_classified.mp h)
  exact ⟨answer, by simp⟩

end Gateway
end TableGateway
