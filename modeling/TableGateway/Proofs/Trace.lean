import TableGateway.Gateway.Read
import TableGateway.Gateway.Write
import TableGateway.Proofs.Outcome

/-!
# Traces

What is known of the statements that a part of a request sends, and of its outcome, whatever the
states of the source and of the database. `Session.Runs` relates the outcome to the statements;
`Action.Sends` says that each statement has a property and that the outcome is as expected. Both are
put together along the steps of a request. Main statements: `Runs.bind`, `Sends.bind`.
-/
namespace TableGateway

variable {σ δ α β : Type}

namespace Session

/-- From every state, the part sends some statements that are related to its result. -/
def Runs (x : StateM (Session σ δ) α) (R : α → List Statement → Prop) : Prop :=
  ∀ s, ∃ new, (x s).2.sent = s.sent ++ new ∧ R (x s).1 new

/-- Each statement that the part sends has the one property, and its result the other. -/
def Sends (x : StateM (Session σ δ) α) (P : Statement → Prop) (Q : α → Prop) : Prop :=
  Runs x fun a new => (∀ st ∈ new, P st) ∧ Q a

theorem Runs.mono {x : StateM (Session σ δ) α} {R S : α → List Statement → Prop} (h : Runs x R)
    (hRS : ∀ a new, R a new → S a new) : Runs x S := by
  intro s
  obtain ⟨new, hnew, hR⟩ := h s
  exact ⟨new, hnew, hRS _ _ hR⟩

/-- In a session that begins, the statements sent are those of the part. -/
theorem Runs.fresh {x : StateM (Session σ δ) α} {R : α → List Statement → Prop} (h : Runs x R)
    (schema : σ) (database : δ) :
    R (x { schema, database }).1 (x { schema, database }).2.sent := by
  obtain ⟨new, hnew, hR⟩ := h { schema, database }
  rw [List.nil_append] at hnew
  rwa [hnew]

theorem Runs.pure {a : α} {R : α → List Statement → Prop} (h : R a []) :
    Runs (pure a : StateM (Session σ δ) α) R := fun s => ⟨[], (List.append_nil s.sent).symm, h⟩

/-- The statements of two steps are those of the first, and then those of the second. -/
theorem Runs.bind {x : StateM (Session σ δ) α} {f : α → StateM (Session σ δ) β}
    {R : α → List Statement → Prop} {S : α → β → List Statement → Prop}
    (hx : Runs x R) (hf : ∀ a new, R a new → Runs (f a) (S a)) :
    Runs (x >>= f) fun b new => ∃ a first last, new = first ++ last ∧ R a first ∧ S a b last := by
  intro s
  obtain ⟨first, hfirst, hR⟩ := hx s
  obtain ⟨last, hlast, hS⟩ := hf _ _ hR (x s).2
  refine ⟨first ++ last, ?_, (x s).1, first, last, rfl, hR, hS⟩
  show (f (x s).1 (x s).2).2.sent = _
  rw [hlast, hfirst, List.append_assoc]

variable {P P' : Statement → Prop} {Q Q' : α → Prop}

theorem Sends.mono {x : StateM (Session σ δ) α} (h : Sends x P Q) (hP : ∀ st, P st → P' st)
    (hQ : ∀ a, Q a → Q' a) : Sends x P' Q' :=
  Runs.mono h fun a _ h => ⟨fun st hst => hP st (h.1 st hst), hQ a h.2⟩

theorem Sends.fresh {x : StateM (Session σ δ) α} (h : Sends x P Q) (schema : σ) (database : δ) :
    (∀ st ∈ (x { schema, database }).2.sent, P st) ∧ Q (x { schema, database }).1 :=
  Runs.fresh h schema database

theorem Sends.pure {a : α} (h : Q a) : Sends (Pure.pure a : StateM (Session σ δ) α) P Q :=
  Runs.pure ⟨by simp, h⟩

theorem Sends.bind {x : StateM (Session σ δ) α} {f : α → StateM (Session σ δ) β} {R : β → Prop}
    (hx : Sends x P Q) (hf : ∀ a, Q a → Sends (f a) P R) : Sends (x >>= f) P R := by
  refine (Runs.bind (S := fun _ b new => (∀ st ∈ new, P st) ∧ R b) hx fun a _ h => hf a h.2).mono ?_
  rintro b _ ⟨a, first, last, rfl, ⟨hfirst, -⟩, hlast, hR⟩
  refine ⟨fun st hst => ?_, hR⟩
  rcases List.mem_append.mp hst with hst | hst
  · exact hfirst st hst
  · exact hlast st hst

/-- Reading the schema sends nothing. -/
theorem Sends.read {x : StateM σ α} (h : ∀ t, Q (x t).1) :
    Sends (read x : StateM (Session σ δ) α) P Q :=
  fun s => ⟨[], (List.append_nil _).symm, by simp, h s.schema⟩

end Session

namespace Action

/-- Each statement that the part sends has a property; its value, if there is one, has another, and
its fault, if it fails, a third. -/
def Sends (x : Action σ δ α) (P : Statement → Prop) (Q : α → Prop) (E : Fault → Prop) : Prop :=
  Session.Sends x.run P (Outcome Q E)

variable {P P' : Statement → Prop} {Q Q' : α → Prop} {R : β → Prop} {E E' : Fault → Prop}

theorem Sends.mono {x : Action σ δ α} (h : x.Sends P Q E) (hP : ∀ st, P st → P' st)
    (hQ : ∀ a, Q a → Q' a) (hE : ∀ e, E e → E' e) : x.Sends P' Q' E' :=
  Session.Sends.mono h hP fun _ h => h.mono hQ hE

theorem Sends.fresh {x : Action σ δ α} (h : x.Sends P Q E) (schema : σ) (database : δ) :
    (∀ st ∈ (x.run { schema, database }).2.sent, P st) ∧
      Outcome Q E (x.run { schema, database }).1 := Session.Sends.fresh h schema database

theorem Sends.pure {a : α} (h : Q a) : (pure a : Action σ δ α).Sends P Q E :=
  Session.Sends.pure (Q := Outcome Q E) (.ok h)

theorem Sends.throw {e : Fault} (h : E e) : (throw e : Action σ δ α).Sends P Q E :=
  Session.Sends.pure (Q := Outcome Q E) (.error h)

theorem Sends.known {r : Except Fault α} (h : Outcome Q E r) :
    Sends (known r : Action σ δ α) P Q E := Session.Sends.pure (Q := Outcome Q E) h

/-- The second step is taken only from a value of the first. -/
theorem Sends.bind {x : Action σ δ α} {f : α → Action σ δ β} (hx : x.Sends P Q E)
    (hf : ∀ a, Q a → (f a).Sends P R E) : (x >>= f).Sends P R E := by
  show Session.Sends (x.run >>= ExceptT.bindCont f) P (Outcome R E)
  refine Session.Sends.bind hx fun r hr => ?_
  cases hr with
  | ok h => exact hf _ h
  | error h => exact Session.Sends.pure (Q := Outcome R E) (.error h)

theorem Sends.look {x : Lookup σ α} (h : x.Ends Q E) :
    (Session.look x : Action σ δ α).Sends P Q E := Session.Sends.read (Q := Outcome Q E) h

theorem Sends.lift {x : StateM (Session σ δ) α} (h : Session.Sends x P Q) :
    Sends (ExceptT.lift x : Action σ δ α) P Q E := by
  show Session.Sends (x >>= fun a => Pure.pure (.ok a)) P (Outcome Q E)
  exact Session.Sends.bind h fun _ ha => Session.Sends.pure (Q := Outcome Q E) (.ok ha)

theorem Sends.attempt {x : Action σ δ α} (h : x.Sends P Q E) :
    x.attempt.Sends P (Outcome Q E) E' := .lift h

theorem Sends.classified {x : Action σ δ α} (h : x.Sends P Q E)
    (hE : ∀ e, E e → E' e.classified) : (Gateway.classified x).Sends P Q E' := by
  show Session.Sends (x.run >>= fun r => Pure.pure (r.mapError Fault.classified)) P (Outcome Q E')
  refine Session.Sends.bind h fun r hr => Session.Sends.pure (Q := Outcome Q E') ?_
  cases hr with
  | ok h => exact .ok h
  | error h => exact .error (hE _ h)

theorem Sends.ask {db : Database δ} {st : Statement} {Q : List Row → Prop} (h : P st)
    (hdb : ∀ d, Outcome Q E (db.query st d).1) : (db.ask st : Action σ δ _).Sends P Q E :=
  fun s => ⟨[st], rfl, by simpa using h, hdb s.database⟩

theorem Sends.apply {db : Database δ} {st : Statement} {Q : Nat → Prop} (h : P st)
    (hdb : ∀ d, Outcome Q E (db.execute st d).1) : (db.apply st : Action σ δ _).Sends P Q E :=
  fun s => ⟨[st], rfl, by simpa using h, hdb s.database⟩

/-- A step for each item, one after the other. -/
theorem Sends.mapM {f : α → Action σ δ β} : ∀ {l : List α},
    (∀ a ∈ l, (f a).Sends P R E) → (l.mapM f).Sends P (fun bs => ∀ b ∈ bs, R b) E
  | [], _ => by
    rw [List.mapM_nil]
    exact .pure (by simp)
  | a :: l, h => by
    rw [List.mapM_cons]
    refine .bind (h a (by simp)) fun b hb => ?_
    refine .bind (Sends.mapM fun a' ha' => h a' (by simp [ha'])) fun bs hbs => ?_
    exact .pure (by simpa using ⟨hb, hbs⟩)

/-- If one of the steps always fails, so do they all together. -/
theorem Sends.mapM_fails {f : α → Action σ δ β} : ∀ {l : List α},
    (∀ a ∈ l, (f a).Sends P (fun _ => True) E) → (∃ a ∈ l, (f a).Sends P (fun _ => False) E) →
      (l.mapM f).Sends P (fun _ => False) E
  | [], _, ⟨_, hmem, _⟩ => nomatch hmem
  | a :: l, h, ⟨b, hmem, fails⟩ => by
    rw [List.mapM_cons]
    rcases List.mem_cons.mp hmem with rfl | hmem
    · exact .bind fails fun _ h => h.elim
    · refine .bind (h a (by simp)) fun _ _ => ?_
      refine .bind (Q := fun _ => False) (Sends.mapM_fails (fun a ha => h a (by simp [ha])) ?_)
        fun _ h => h.elim
      exact ⟨b, hmem, fails⟩

/-- A step for each item that gives nothing. -/
theorem Sends.forIn {f : α → Action σ δ Unit} : ∀ {l : List α},
    (∀ a ∈ l, (f a).Sends P (fun _ => True) E) →
      Sends (forIn l PUnit.unit fun a _ => do f a; Pure.pure (ForInStep.yield PUnit.unit) :
        Action σ δ PUnit) P (fun _ => True) E
  | [], _ => by
    rw [List.forIn_nil]
    exact .pure trivial
  | a :: l, h => by
    rw [List.forIn_cons, bind_assoc]
    refine .bind (h a (by simp)) fun _ _ => ?_
    rw [pure_bind]
    exact Sends.forIn fun a' ha' => h a' (by simp [ha'])

theorem Sends.any {x : Action σ δ α} (h : x.Sends P Q E) :
    x.Sends P (fun _ => True) (fun _ => True) :=
  h.mono (fun _ => id) (fun _ _ => trivial) fun _ _ => trivial

/-- What `Sends` says, from one session on. -/
def SendsFrom (x : Action σ δ α) (s : Session σ δ) (P : Statement → Prop) (Q : α → Prop)
    (E : Fault → Prop) : Prop :=
  ∃ new, (x.run s).2.sent = s.sent ++ new ∧ (∀ st ∈ new, P st) ∧ Outcome Q E (x.run s).1

theorem SendsFrom.mono {x : Action σ δ α} {s : Session σ δ} (h : x.SendsFrom s P Q E)
    (hP : ∀ st, P st → P' st) (hQ : ∀ a, Q a → Q' a) (hE : ∀ e, E e → E' e) :
    x.SendsFrom s P' Q' E' := by
  obtain ⟨new, hnew, sent, outcome⟩ := h
  exact ⟨new, hnew, fun st hst => hP st (sent st hst), outcome.mono hQ hE⟩

theorem SendsFrom.fresh {x : Action σ δ α} {schema : σ} {database : δ}
    (h : x.SendsFrom { schema, database } P Q E) :
    (∀ st ∈ (x.run { schema, database }).2.sent, P st) ∧
      Outcome Q E (x.run { schema, database }).1 := by
  obtain ⟨new, hnew, sent, outcome⟩ := h
  rw [List.nil_append] at hnew
  rw [hnew]
  exact ⟨sent, outcome⟩

/-- The second step starts from a session of which nothing is known. -/
theorem SendsFrom.bind {x : Action σ δ α} {f : α → Action σ δ β} {s : Session σ δ}
    (hx : x.SendsFrom s P Q E) (hf : ∀ a, Q a → (f a).Sends P R E) :
    (x >>= f).SendsFrom s P R E := by
  obtain ⟨first, hfirst, sent, outcome⟩ := hx
  show ∃ new, (ExceptT.bindCont f (x.run s).1 (x.run s).2).2.sent = s.sent ++ new ∧ _ ∧
    Outcome R E (ExceptT.bindCont f (x.run s).1 (x.run s).2).1
  cases hr : (x.run s).1 with
  | ok a =>
    rw [hr] at outcome
    obtain ⟨last, hlast, more, outcome⟩ := hf a outcome.of_ok (x.run s).2
    refine ⟨first ++ last, ?_, fun st hst => ?_, outcome⟩
    · rw [← List.append_assoc, ← hfirst]
      exact hlast
    · rcases List.mem_append.mp hst with hst | hst
      · exact sent st hst
      · exact more st hst
  | error e =>
    rw [hr] at outcome
    exact ⟨first, hfirst, sent, .error outcome.of_error⟩

end Action

/-! ## The parts of a gateway -/

/-- Every snapshot that the source supplies has the property. -/
def SchemaSource.Supplies (source : SchemaSource σ) (S : Snapshot → Prop) : Prop :=
  ∀ t s, (source.snapshot t).1 = .ok s → S s

/-- A database without rows, in which each statement changes one. -/
def Database.empty : Database Unit := ⟨fun _ d => (.ok [], d), fun _ d => (.ok 1, d)⟩

namespace Gateway

variable {g : Gateway σ δ} {P : Statement → Prop}

/-- The snapshot of a request is what the source supplies in the session. -/
theorem snapshot_sends_from (s : Session σ δ) :
    g.snapshot.SendsFrom s P (fun snapshot => (g.source.snapshot s.schema).1 = .ok snapshot)
      (fun _ => True) :=
  ⟨[], (List.append_nil _).symm, by simp, .self _⟩

theorem snapshot_sends {S : Snapshot → Prop} (h : g.source.Supplies S) :
    g.snapshot.Sends P S (fun _ => True) :=
  fun s => (snapshot_sends_from s).mono (fun _ => id) (h s.schema) fun _ => id

theorem fetch_sends {st : Statement} (h : P st) :
    (g.fetch st).Sends P (fun _ => True) (fun _ => True) :=
  .classified (.ask h fun _ => .any _) fun _ _ => trivial

theorem apply_sends {st : Statement} (h : P st) :
    (g.apply st).Sends P (fun _ => True) (fun _ => True) :=
  .classified (.apply h fun _ => .any _) fun _ _ => trivial

theorem count_sends {table : Table} {filter : Where} (h : P (.count table.name filter)) :
    (g.count table filter).Sends P (fun _ => True) (fun _ => True) :=
  .bind (fetch_sends h) fun _ _ => .pure trivial

/-- Reading the records of rows sends nothing and cannot fail. -/
theorem records_sends {E : Fault → Prop} (table : Table) (rows : List Row) :
    (g.records table rows).Sends P (fun _ => True) E := .lift (.read fun _ => trivial)

theorem authorize_sends {table : Table} {p : Privilege} (h : P (p.question table)) :
    (g.authorize table p).Sends P (fun _ => True) (fun _ => True) := by
  unfold authorize
  split
  · refine .bind (.attempt (.ask h fun _ => .any _)) fun answer _ => ?_
    split
    · exact .throw trivial
    · exact .pure trivial
  · exact .pure trivial

/-- A record that was looked for sends nothing more, nor does the fault that there is none. -/
theorem found_sends {Q : Record → Prop} {E : Fault → Prop} (r : Option Record) (hQ : ∀ record, Q record)
    (hE : E .notFound) :
    Action.Sends (match r with | some record => pure record | none => throw .notFound :
      Action σ δ Record) P Q E := by
  cases r with
  | some record => exact .pure (hQ record)
  | none => exact .throw hE

/-- A request to read asks for a privilege at most, and is about a table of the snapshot. -/
theorem readable_sends (h : ∀ table, P (Privilege.select.question table)) (snapshot : Snapshot)
    (name : String) :
    (g.readable snapshot name).Sends P (fun table => snapshot.resolve name = .ok table)
      (fun _ => True) := by
  unfold readable
  refine .bind (.known (.self _)) fun table htable => ?_
  exact .bind (authorize_sends (h table)) fun _ _ => .pure htable

/-- So does a request to write. -/
theorem writable_sends_from (s : Session σ δ) (h : ∀ table p, P (Privilege.question p table))
    (name : String) (privileges : List Privilege) :
    (g.writable name privileges).SendsFrom s P
      (fun table => ∃ snapshot, (g.source.snapshot s.schema).1 = .ok snapshot ∧
        snapshot.resolve name = .ok table)
      (fun _ => True) := by
  unfold writable
  refine .bind (snapshot_sends_from s) fun snapshot hsnapshot => ?_
  refine .bind (.known (.self _)) fun table htable => ?_
  have ask : Action.Sends (do
      for p in privileges do g.authorize table p
      return table : Action σ δ Table) P
      (fun table => ∃ snapshot, (g.source.snapshot s.schema).1 = .ok snapshot ∧
        snapshot.resolve name = .ok table) (fun _ => True) :=
    .bind (.forIn fun p _ => authorize_sends (h table p)) fun _ _ =>
      .pure ⟨snapshot, hsnapshot, htable⟩
  simp only
  split
  · exact .bind (.throw (Q := fun _ => False) trivial) fun _ h => h.elim
  · exact ask

theorem writable_sends {S : Snapshot → Prop} (hs : g.source.Supplies S)
    (h : ∀ table p, P (Privilege.question p table)) (name : String) (privileges : List Privilege) :
    (g.writable name privileges).Sends P
      (fun table => ∃ snapshot, S snapshot ∧ snapshot.resolve name = .ok table)
      (fun _ => True) := by
  refine fun s => (writable_sends_from s h name privileges).mono (fun _ => id) ?_ fun _ => id
  rintro table ⟨snapshot, supplied, resolved⟩
  exact ⟨snapshot, hs _ _ supplied, resolved⟩

end Gateway
end TableGateway
