import TableGateway.Gateway.Operation
import TableGateway.Proofs.Provenance
import TableGateway.Proofs.Steadiness
import TableGateway.Proofs.Trace

/-!
# Writes that are rejected

A request that is rejected as a fault of the client has changed nothing yet, as long as the database
returns the rows that it wrote. Where it does not, they are read again by the keys in their records, and a
record may have a key that is refused as one: then the request is rejected although it was carried out.
There is no other way. Main statement: `Operation.rejected_after_write`.
-/
namespace TableGateway

variable {σ δ α β : Type}

def Statement.isWrite : Statement → Bool
  | insertDefaults .. | insert _ | update .. | delete .. => true
  | privilege .. | select _ | count .. => false

/-- The database answers every statement, and each one changes some row. -/
structure Database.Willing (db : Database δ) : Prop where
  query : ∀ st d, ∃ rows, (db.query st d).1 = .ok rows
  execute : ∀ st d, ∃ n, (db.execute st d).1 = .ok n ∧ n ≠ 0

/-! ## Parts that write -/

namespace Action

/-- If the part sends a statement that changes rows, then its value, if there is one, has a property,
and its fault, if it fails, has another. -/
def Writes (x : Action σ δ α) (Q : α → Prop) (E : Fault → Prop) : Prop :=
  Session.Runs x.run fun r new => (∃ st ∈ new, st.isWrite = true) → Outcome Q E r

variable {P : Statement → Prop} {Q Q' : α → Prop} {R : β → Prop} {E E' : Fault → Prop}

/-- What is known of the outcome anyway. -/
theorem Writes.of_sends {x : Action σ δ α} (h : x.Sends P Q E) : x.Writes Q E := by
  intro s
  obtain ⟨new, hnew, -, outcome⟩ := h s
  exact ⟨new, hnew, fun _ => outcome⟩

/-- A part that only reads has no outcome that matters. -/
theorem Writes.quiet {x : Action σ δ α} (h : x.Sends (·.isWrite = false) Q E) : x.Writes Q' E' := by
  intro s
  obtain ⟨new, hnew, quiet, -⟩ := h s
  refine ⟨new, hnew, ?_⟩
  rintro ⟨st, hst, write⟩
  rw [quiet st hst] at write
  cases write

/-- After a part that only reads, the rest decides: if the first fails, nothing was written. -/
theorem Writes.bind {x : Action σ δ α} {f : α → Action σ δ β}
    (hx : x.Sends (·.isWrite = false) Q E) (hf : ∀ a, Q a → (f a).Writes R E') :
    (x >>= f).Writes R E' := by
  have rest : ∀ r, Outcome Q E r → Session.Runs (ExceptT.bindCont f r)
      fun r new => (∃ st ∈ new, st.isWrite = true) → Outcome R E' r := by
    intro r hr
    cases hr with
    | ok ha => exact hf _ ha
    | error _ => exact Session.Runs.pure (by rintro ⟨_, ⟨⟩, -⟩)
  intro s
  obtain ⟨new, hnew, -, first, last, rfl, ⟨quiet, -⟩, hlast⟩ :=
    Session.Runs.bind (R := fun r new => (∀ st ∈ new, st.isWrite = false) ∧ Outcome Q E r) hx
      (fun r _ hr => rest r hr.2) s
  refine ⟨first ++ last, hnew, ?_⟩
  rintro ⟨st, hst, write⟩
  rcases List.mem_append.mp hst with hst | hst
  · rw [quiet st hst] at write
    cases write
  · exact hlast ⟨st, hst, write⟩

/-- What is made of the value changes nothing. -/
theorem Writes.map {x : Action σ δ α} {f : α → β} {p : Prop} (h : x.Writes (fun _ => p) E) :
    Writes (do return f (← x) : Action σ δ β) (fun _ => p) E := by
  have last : ∀ r : Except Fault α, Session.Runs
      (ExceptT.bindCont (fun a => pure (f a)) r : StateM (Session σ δ) (Except Fault β))
      fun r' new => new = [] ∧ (Outcome (fun _ => p) E r → Outcome (fun _ => p) E r') := by
    intro r
    cases r with
    | ok a => exact Session.Runs.pure ⟨rfl, fun h => .ok h.of_ok⟩
    | error e => exact Session.Runs.pure ⟨rfl, fun h => .error h.of_error⟩
  refine Session.Runs.mono (Session.Runs.bind
    (R := fun r new => (∃ st ∈ new, st.isWrite = true) → Outcome (fun _ => p) E r) h
    fun r _ _ => last r) ?_
  rintro r' _ ⟨r, first, _, rfl, outcome, rfl, same⟩ wrote
  rw [List.append_nil] at wrote
  exact same (outcome wrote)

theorem Writes.fresh {x : Action σ δ α} (h : x.Writes Q E) (schema : σ) (database : δ)
    (wrote : ∃ st ∈ (x.run { schema, database }).2.sent, st.isWrite = true) :
    Outcome Q E (x.run { schema, database }).1 := Session.Runs.fresh h schema database wrote

end Action

/-! ## Keys that are refused -/

/-- The text is refused as a key of the table, in some state of the source. -/
def SchemaSource.Refuses (source : SchemaSource σ) (table : Table) (key : String) : Prop :=
  ∃ t e, ((Build.keyFilter source table key).run t).1 = .error e

namespace Gateway

variable {g : Gateway σ δ} (hdb : g.db.Willing) {p : Prop} {E : Fault → Prop}
include hdb

theorem fetch_willing (st : Statement) :
    (g.fetch st).Sends (fun _ => True) (fun _ => True) E := by
  refine .classified (E := fun _ => False) (.ask trivial fun d => ?_) fun _ => False.elim
  obtain ⟨rows, h⟩ := hdb.query st d
  rw [h]
  exact .ok trivial

theorem apply_willing (st : Statement) :
    (g.apply st).Sends (fun _ => True) (· ≠ 0) E := by
  refine .classified (E := fun _ => False) (.apply trivial fun d => ?_) fun _ => False.elim
  obtain ⟨n, h, hn⟩ := hdb.execute st d
  rw [h]
  exact .ok hn

theorem find?_sends_of {table : Table} {key : String}
    (h : (Build.keyFilter g.source table key).Ends (fun _ => p) E) :
    (g.find? table key).Sends (fun _ => True) (fun _ => p) E := by
  unfold find? first?
  refine .bind (.look h) fun filter hp => ?_
  refine .bind (fetch_willing hdb _) fun rows _ => ?_
  exact .bind (records_sends table rows) fun _ _ => .pure hp

theorem reread_sends_of {table : Table} {record : Record}
    (unkeyed : Key.ofRecord? table record = none → p) (h : ∀ key, Key.ofRecord? table record = some key →
      (Build.keyFilter g.source table key).Ends (fun _ => p) E) :
    (g.reread table record).Sends (fun _ => True) (fun _ => p) E := by
  unfold reread
  split
  · rename_i none
    exact .pure (unkeyed none)
  · rename_i key found
    exact .bind (find?_sends_of hdb (h key found)) fun _ hp => .pure hp

/-! ## Operations -/

variable {S : Snapshot → Prop} (hs : g.source.Supplies S)
include hs

theorem create_writes (name : String) (body : Json)
    (returned : g.config.database.supportsReturning = true → p)
    (reread : g.config.database.supportsReturning = false → ∀ s table payload, S s →
      s.resolve name = .ok table → Payload.ofBody body = .ok payload →
        (payload.records.mapM (g.reread table)).Sends (fun _ => True) (fun _ => p) E) :
    (g.create name body).Writes (fun _ => p) E := by
  unfold create
  refine .bind (writable_sends hs (fun _ _ => rfl) name _) fun table htable => ?_
  obtain ⟨s, hS, resolved⟩ := htable
  refine .bind (.known (.self _)) fun payload hpayload => ?_
  refine .bind (.look (.any _)) fun st _ => ?_
  split
  · rename_i returning
    refine .of_sends (.bind (fetch_willing hdb st) fun rows _ => ?_)
    exact .bind (records_sends table rows) fun _ _ => .pure (returned returning)
  · rename_i unreturned
    refine .of_sends (.bind (apply_willing hdb st) fun n _ => ?_)
    have again := reread (by simpa using unreturned) s table payload hS resolved hpayload
    exact .bind again fun _ hp => .pure hp

theorem update_writes (name key : String) (body : Json) (missing : p → E .notFound)
    (returned : g.config.database.supportsReturning = true → p)
    (reread : g.config.database.supportsReturning = false → ∀ s table record, S s →
      s.resolve name = .ok table → body = .obj record →
        (Build.keyFilter g.source table ((Key.ofRecord? table record).getD key)).Ends
          (fun _ => p) E) :
    (g.update name key body).Writes (fun _ => p) E := by
  unfold update
  refine .bind (writable_sends hs (fun _ _ => rfl) name _) fun table htable => ?_
  obtain ⟨s, hS, resolved⟩ := htable
  split
  · rename_i record
    refine .bind (.look (.any _)) fun filter _ => ?_
    refine .bind (.look (.any _)) fun st _ => ?_
    have found := fun r (hp : p) =>
      found_sends (P := fun _ => True) (σ := σ) (δ := δ) r (fun _ => hp) (missing hp)
    simp only
    split
    · rename_i returning
      refine .of_sends (.bind (Q := fun _ => p) ?_ found)
      unfold first?
      refine .bind (fetch_willing hdb st) fun rows _ => ?_
      exact .bind (records_sends table rows) fun _ _ => .pure (returned returning)
    · rename_i unreturned
      refine .of_sends (.bind (Q := fun _ => p) ?_ found)
      unfold changed?
      refine .bind (apply_willing hdb st) fun n hn => ?_
      rw [if_neg hn]
      exact find?_sends_of hdb (reread (by simpa using unreturned) s table record hS resolved rfl)
  · exact .quiet (.throw (Q := fun _ => True) (E := fun _ => True) trivial)

theorem delete_writes (name key : String) :
    (g.delete name key).Writes (fun _ => True) E := by
  unfold delete
  refine .bind (writable_sends hs (fun _ _ => rfl) name _) fun table _ => ?_
  refine .bind (.look (.any _)) fun filter _ => ?_
  refine .of_sends (.bind (apply_willing hdb _) fun n hn => ?_)
  simp only
  rw [if_neg hn]
  exact .pure trivial

theorem upsert_writes (name : String) (body : Json) :
    (g.upsert name body).Writes (fun _ => True) E := by
  unfold upsert
  refine .bind (writable_sends hs (fun _ _ => rfl) name _) fun table _ => ?_
  refine .bind (.known (.any _)) fun payload _ => ?_
  refine .bind (.look (.any _)) fun st _ => ?_
  refine .of_sends (.bind (fetch_willing hdb st) fun rows _ => ?_)
  exact .bind (records_sends table rows) fun _ _ => .pure trivial

end Gateway

namespace Operation

def isWriting : Operation → Bool
  | create .. | update .. | upsert .. | delete .. => true
  | list .. | window .. | get .. => false

def target : Operation → String
  | list table _ | window table _ | get table _ _ | create table _ | update table _ _
  | upsert table _ | delete table _ => table

/-- The name in the request is that of the table, when the source is in the state. -/
def IsAbout (op : Operation) (source : SchemaSource σ) (schema : σ) (table : Table) : Prop :=
  ∃ snapshot, (source.snapshot schema).1 = .ok snapshot ∧ snapshot.resolve op.target = .ok table

theorem IsAbout.unique {op : Operation} {source : SchemaSource σ} {schema : σ} {table other : Table}
    (h : op.IsAbout source schema table) (h' : op.IsAbout source schema other) : table = other := by
  obtain ⟨snapshot, supplied, resolved⟩ := h
  obtain ⟨snapshot', supplied', resolved'⟩ := h'
  cases supplied.symm.trans supplied'
  cases resolved.symm.trans resolved'
  rfl

/-- The keys by which rows are read again after they were written. -/
def rereadKeys (table : Table) : Operation → List String
  | create _ body =>
    match Payload.ofBody body with
    | .ok payload => payload.records.filterMap (Key.ofRecord? table)
    | .error _ => []
  | update _ key (.obj record) => [(Key.ofRecord? table record).getD key]
  | _ => []

/-- The database does not return rows, and one of those that are written is read again by a key that is
refused. -/
def Strands (op : Operation) (g : Gateway σ δ) : Prop :=
  g.config.database.supportsReturning = false ∧
    ∃ t s table, (g.source.snapshot t).1 = .ok s ∧ s.resolve op.target = .ok table ∧
      ∃ key ∈ op.rereadKeys table, g.source.Refuses table key

variable {g : Gateway σ δ} (hdb : g.db.Willing)
include hdb

/-- Nothing but a key that is refused makes a request that has written fail as a fault of the client. -/
theorem perform_writes (op : Operation) (writing : op.isWriting = true) :
    (op.perform g).Writes (fun _ => True) (fun e => e.isValidation = true → op.Strands g) := by
  have hs : g.source.Supplies fun s => ∃ t, (g.source.snapshot t).1 = .ok s := fun t s h => ⟨t, h⟩
  -- A key that is refused in some state is what the fault tells of.
  have refused : ∀ table key, (Build.keyFilter g.source table key).Ends (fun _ => True)
      (fun _ => g.source.Refuses table key) := by
    intro table key t
    cases run : ((Build.keyFilter g.source table key).run t).1 with
    | ok w => exact .ok trivial
    | error e => exact .error ⟨t, e, run⟩
  cases op with
  | list | window | get => cases writing
  | create name body =>
    refine Gateway.create_writes hdb hs name body (fun _ => trivial) ?_
    rintro unreturned s table payload ⟨t, ht⟩ resolved hbody
    refine .mono (.mapM (R := fun _ => True) fun record hrecord => ?_) (fun _ => id)
      (fun _ _ => trivial) fun _ => id
    refine Gateway.reread_sends_of hdb (fun _ => trivial) fun key hkey => ?_
    refine (refused table key).mono (fun _ => id) fun e h _ => ?_
    refine ⟨unreturned, t, s, table, ht, resolved, key, ?_, h⟩
    simp only [rereadKeys, hbody]
    exact List.mem_filterMap.mpr ⟨record, hrecord, hkey⟩
  | update name key body =>
    refine .map (Gateway.update_writes hdb hs name key body (fun _ => nofun) (fun _ => trivial) ?_)
    rintro unreturned s table record ⟨t, ht⟩ resolved rfl
    refine (refused table _).mono (fun _ => id) fun e h _ => ?_
    exact ⟨unreturned, t, s, table, ht, resolved, _, List.mem_singleton.mpr rfl, h⟩
  | upsert name body => exact Gateway.upsert_writes hdb hs name body
  | delete name key => exact .map (Gateway.delete_writes hdb hs name key)

/-- With a steady source, a key that is refused makes every request fail that has written its row. -/
theorem Strands.perform_writes {op : Operation} (h : op.Strands g) (steady : g.source.current.Steady) :
    (op.perform g).Writes (fun _ => False) (·.isValidation = true) := by
  obtain ⟨unreturned, t, s, table, ht, resolved, key, hkey, u, e, refused⟩ := h
  have hs : g.source.Supplies (· = s) := by
    intro t' s' h
    have same : (g.source.snapshot t').1 = (g.source.snapshot t).1 := steady t' t
    rw [h, ht] at same
    cases same
    rfl
  have returned : g.config.database.supportsReturning = true → False := by simp [unreturned]
  have ends : ∀ table key, (Build.keyFilter g.source table key).Ends
      (Where.IsOf table fun _ => True) (·.isValidation = true) := fun table key =>
    Build.keyFilter_ends g.source key
  have fails : (Build.keyFilter g.source table key).Ends (fun _ => False) (·.isValidation = true) := by
    rcases (Build.keyFilter_steady steady table key).fails_or_not (ends table key) with h | h
    · exact h
    · exact absurd (refused ▸ h u).of_error id
  cases op with
  | create name body =>
    refine Gateway.create_writes hdb hs name body returned ?_
    rintro - _ _ payload rfl resolved' hbody
    cases resolved.symm.trans resolved'
    simp only [rereadKeys, hbody, List.mem_filterMap] at hkey
    obtain ⟨record, hrecord, found⟩ := hkey
    refine .mapM_fails (fun record _ => ?_) ⟨record, hrecord, ?_⟩
    · exact Gateway.reread_sends_of hdb (fun _ => trivial) fun key _ =>
        (ends table key).mono (fun _ _ => trivial) fun _ => id
    · refine Gateway.reread_sends_of hdb (fun h => ?_) fun key' h => ?_
      · rw [h] at found
        cases found
      · cases h.symm.trans found
        exact fails
  | update name key' body =>
    refine .map (Gateway.update_writes hdb hs name key' body False.elim returned ?_)
    rintro - _ _ record rfl resolved' rfl
    cases resolved.symm.trans resolved'
    rw [List.mem_singleton.mp hkey] at fails
    exact fails
  | list | window | get | upsert | delete => cases hkey

/-- If the database carries out every statement, a request that has written rows is rejected as a fault
of the client only where the database does not return rows, and a row is read again by a key that is
refused. As long as the schema does not change meanwhile, it is rejected in all of these cases. -/
theorem rejected_after_write (op : Operation) (writing : op.isWriting = true) (schema : σ)
    (database : δ)
    (wrote : ∃ st ∈ ((op.perform g).run { schema, database }).2.sent, st.isWrite = true) :
    ((∃ e, ((op.perform g).run { schema, database }).1 = .error e ∧ e.isValidation = true) →
      op.Strands g) ∧
    (g.source.current.Steady → op.Strands g →
      ∃ e, ((op.perform g).run { schema, database }).1 = .error e ∧ e.isValidation = true) := by
  constructor
  · rintro ⟨e, run, valid⟩
    have outcome := (perform_writes hdb op writing).fresh schema database wrote
    rw [run] at outcome
    exact outcome.of_error valid
  · intro steady h
    exact ((h.perform_writes hdb steady).fresh schema database wrote).exists_error

end Operation

/-- A gateway to codes, with a database that does not return rows. -/
def codesGateway : Gateway Unit Unit :=
  { config := { database := { supportsReturning := false } }
    source := .fixed { tables := [("codes", { name := "codes", columns := [
      { name := "code", tag := "text", type := .scalar .text, isKey := true }] })] }
    db := .empty }

def blankCode : Operation := .create "codes" (.obj [("code", .str "  ")])

theorem codesGateway_willing : codesGateway.db.Willing :=
  ⟨fun _ _ => ⟨[], rfl⟩, fun _ _ => ⟨1, rfl, by decide⟩⟩

theorem blankCode_wrote :
    ∃ st ∈ ((blankCode.perform codesGateway).run { schema := (), database := () }).2.sent,
      st.isWrite = true := by
  decide +kernel

theorem rejected_after_write_blankCode :
    codesGateway.db.Willing ∧ blankCode.isWriting = true ∧
    (∃ st ∈ ((blankCode.perform codesGateway).run { schema := (), database := () }).2.sent,
      st.isWrite = true) ∧
    ((∃ e, ((blankCode.perform codesGateway).run { schema := (), database := () }).1 = .error e ∧
      e.isValidation = true) → blankCode.Strands codesGateway) ∧
    (codesGateway.source.current.Steady → blankCode.Strands codesGateway →
      ∃ e, ((blankCode.perform codesGateway).run { schema := (), database := () }).1 = .error e ∧
        e.isValidation = true) :=
  ⟨codesGateway_willing, rfl, blankCode_wrote,
    Operation.rejected_after_write codesGateway_willing blankCode rfl () () blankCode_wrote⟩

/-- The row of a blank code has been inserted when it is rejected. -/
theorem blankCode_rejected_too_late :
    ((blankCode.perform codesGateway).run { schema := (), database := () }).1 =
        .error (.validation "Invalid key: part 1 (code) is empty") ∧
      ((blankCode.perform codesGateway).run { schema := (), database := () }).2.sent.map Statement.sql =
        ["INSERT INTO codes (code) VALUES (?)"] := by
  constructor
  · rfl
  · decide +kernel

end TableGateway
