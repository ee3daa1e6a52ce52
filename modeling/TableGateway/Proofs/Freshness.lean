import TableGateway.Proofs.Outcome
import TableGateway.Schema.Cache

/-!
# Freshness of the schema cache

A cache is asked for parts of the schema and told to forget it, in any order, while its loads succeed or
fail. When it loads and what it answers is told by the calls before, without a look into the cache: it
answers from the last load that succeeded, and loads if there is none since it was last told to forget.
Main statement: `Cache.run_fresh`.
-/
namespace TableGateway.Cache

/-! ## Runs -/

inductive Call where
  | snapshot
  | hasTable (name : String)
  | table (name : String)
  | tables
  | labels (name : String)
  | fields (name : String)
  | invalidate
  deriving DecidableEq, Repr

inductive Reply where
  | snapshot (r : Except Fault Snapshot)
  | hasTable (b : Bool)
  | table (r : Except Fault (Option Table))
  | tables (r : Except Fault (Entries Table))
  | labels (r : Except Fault (Option (List String)))
  | fields (r : Except Fault (Option (List (String × String))))
  | done

/-- What a call answers in a state of the source, and the state that it leaves. -/
def Call.perform {σ : Type} (source : SchemaSource σ) (t : σ) : Call → Reply × σ
  | snapshot => (source.current.run t).map .snapshot id
  | hasTable name => (source.hasTable name t).map .hasTable id
  | table name => ((source.table? name).run t).map .table id
  | tables => (source.tables.run t).map .tables id
  | labels name => ((source.labels? name).run t).map .labels id
  | fields name => ((source.fields? name).run t).map .fields id
  | invalidate => (.done, source.invalidate t)

/-- What the call answers from the outcome of a load. -/
def Call.replyTo (r : Except Fault Snapshot) : Call → Reply
  | snapshot => .snapshot r
  | hasTable name => .hasTable (match r with | .ok s => s.tables.has name | .error _ => false)
  | table name => .table (r.map (·.table? name))
  | tables => .tables (r.map (·.tables))
  | labels name => .labels (r.map (·.enums.get? name))
  | fields name => .fields (r.map (·.composites.get? name))
  | invalidate => .done

structure Step where
  call : Call
  /-- The outcomes of the loads that were made for it. -/
  loads : List (Except Fault Snapshot)
  reply : Reply
  /-- The cache that it left. -/
  after : Cache

variable (loader : Loader) (lifetime : Lifetime)

def step (c : Cache) (call : Call) : Step :=
  let (reply, after) := call.perform (source loader lifetime) c
  { call, loads := (List.range' c.loads (after.loads - c.loads)).map loader, reply, after }

def run (c : Cache) : List Call → List Step
  | [] => []
  | call :: rest =>
    let first := c.step loader lifetime call
    first :: run first.after rest

def afterAll (history : List Step) : Cache := (history.getLast?.map Step.after).getD {}

def loadsOf (history : List Step) : List (Except Fault Snapshot) := history.flatMap Step.loads

/-- The last load that succeeded gave the snapshot, and the cache was not told to forget it since. -/
def Latest (history : List Step) (s : Snapshot) : Prop :=
  ∃ earlier step later, history = earlier ++ step :: later ∧ .ok s ∈ step.loads ∧
    ∀ other ∈ later, other.call ≠ .invalidate ∧ ∀ s', .ok s' ∉ other.loads

/-- The step loads and answers as it should after a history, and so does what comes later. -/
structure Step.Fresh (history : List Step) (step : Step) (later : List Step) : Prop where
  /-- A snapshot that was loaded is served until it is forgotten. -/
  endless : lifetime = .endless → step.call ≠ .invalidate →
    (∃ s, Latest history s ∧ step.loads = [] ∧ step.reply = step.call.replyTo (.ok s)) ∨
    ((∀ s, ¬ Latest history s) ∧ step.loads = [loader (loadsOf history).length] ∧
      step.reply = step.call.replyTo (loader (loadsOf history).length))
  /-- A snapshot is loaded for each reading. -/
  zero : lifetime = .zero → step.call ≠ .invalidate →
    step.loads = [loader (loadsOf history).length] ∧
      step.reply = step.call.replyTo (loader (loadsOf history).length)
  /-- Forgetting loads nothing. -/
  invalidate : step.call = .invalidate → step.loads = [] ∧ ∀ s, ¬ Latest (history ++ [step]) s
  /-- A load that fails leaves no trace, and the next reading loads again. -/
  failed : ∀ e, .error e ∈ step.loads → step.after.kept = (afterAll history).kept ∧
    step.after.lastRefresh = (afterAll history).lastRefresh ∧
    ∀ next ∈ later.head?, next.call ≠ .invalidate → next.loads ≠ []
  /-- A load that succeeds is marked. -/
  loaded : ∀ s, .ok s ∈ step.loads → step.after.lastRefresh = some (loadsOf history).length
  refreshed : step.after.refreshed = true ↔ ∃ s, .ok s ∈ loadsOf (history ++ [step])

/-! ## The most recent load -/

variable {loader lifetime} {history : List Step} {s : Snapshot}

theorem not_latest_nil : ¬ Latest [] s := by
  rintro ⟨earlier, step, later, split, -⟩
  simp at split

/-- After one more step, the last load is its own if that succeeded; forgetting has the last word. -/
theorem latest_append {step : Step} :
    Latest (history ++ [step]) s ↔ .ok s ∈ step.loads ∨
      (Latest history s ∧ step.call ≠ .invalidate ∧ ∀ s', .ok s' ∉ step.loads) := by
  constructor
  · rintro ⟨earlier, found, later, split, hfound, rest⟩
    rcases List.eq_nil_or_concat later with rfl | ⟨later, last, rfl⟩
    · obtain ⟨-, same⟩ := List.append_inj' split rfl
      cases same
      exact .inl hfound
    · rw [List.concat_eq_append, ← List.cons_append, ← List.append_assoc] at split
      obtain ⟨rfl, same⟩ := List.append_inj' split rfl
      cases same
      exact .inr ⟨⟨earlier, found, later, rfl, hfound, fun other h => rest other (by simp [h])⟩,
        rest step (by simp)⟩
  · rintro (own | ⟨⟨earlier, found, later, rfl, hfound, rest⟩, kept, failed⟩)
    · exact ⟨history, step, [], rfl, own, by simp⟩
    · refine ⟨earlier, found, later ++ [step], by simp, hfound, fun other hother => ?_⟩
      rcases List.mem_append.mp hother with hother | hother
      · exact rest other hother
      · rw [List.mem_singleton.mp hother]
        exact ⟨kept, failed⟩

/-! ## One call -/

/-- A reading answers from what the cache reads. -/
theorem perform_reading {call : Call} (reading : call ≠ .invalidate) (c : Cache) :
    call.perform (source loader lifetime) c =
      (call.replyTo (read loader lifetime c).1, (read loader lifetime c).2) := by
  cases call with
  | invalidate => exact absurd rfl reading
  | snapshot => rfl
  | hasTable name =>
    show (((match (read loader lifetime c).1 with
        | .ok s => pure (s.tables.has name)
        | .error _ => pure false : StateM Cache Bool) (read loader lifetime c).2).map
      Reply.hasTable id : Reply × Cache) = _
    simp only [Call.replyTo]
    cases (read loader lifetime c).1 <;> rfl
  | table name =>
    rw [Call.perform, SchemaSource.table?, SchemaSource.run_current_map]
    rfl
  | tables =>
    rw [Call.perform, SchemaSource.tables, SchemaSource.run_current_map]
    rfl
  | labels name =>
    rw [Call.perform, SchemaSource.labels?, SchemaSource.run_current_map]
    rfl
  | fields name =>
    rw [Call.perform, SchemaSource.fields?, SchemaSource.run_current_map]
    rfl

variable (loader lifetime) in
/-- A cache serves what it has kept, or loads. -/
theorem read_cases (c : Cache) :
    (lifetime = .endless ∧ ∃ s, c.kept = some s ∧ read loader lifetime c = (.ok s, c)) ∨
    ((lifetime = .endless → c.kept = none) ∧ read loader lifetime c = c.load loader) := by
  unfold read fresh?
  cases lifetime with
  | zero => exact .inr ⟨nofun, rfl⟩
  | endless =>
    cases kept : c.kept with
    | some s => exact .inl ⟨rfl, s, rfl, rfl⟩
    | none => exact .inr ⟨fun _ => rfl, rfl⟩

variable (loader lifetime) in
/-- A reading is served from what is kept, or it is answered from one more load, which is kept if it
succeeds. -/
theorem step_reading {call : Call} (reading : call ≠ .invalidate) (c : Cache) :
    (lifetime = .endless ∧ ∃ s, c.kept = some s ∧
      c.step loader lifetime call = ⟨call, [], call.replyTo (.ok s), c⟩) ∨
    ((lifetime = .endless → c.kept = none) ∧
      c.step loader lifetime call =
        ⟨call, [loader c.loads], call.replyTo (loader c.loads), (c.load loader).2⟩) := by
  unfold step
  simp only [perform_reading reading]
  rcases read_cases loader lifetime c with ⟨long, s, kept, served⟩ | ⟨none, loaded⟩
  · rw [served]
    refine .inl ⟨long, s, kept, ?_⟩
    simp
  · rw [loaded]
    refine .inr ⟨none, ?_⟩
    unfold load
    cases outcome : loader c.loads with
    | ok s => simp [outcome]
    | error e => simp [outcome]

/-- A cache that may not serve what it has kept loads. -/
theorem step_loads {call : Call} (reading : call ≠ .invalidate) {c : Cache}
    (none : lifetime = .endless → c.kept = none) : (c.step loader lifetime call).loads ≠ [] := by
  rcases step_reading loader lifetime reading c with
    ⟨long, s, kept, -⟩ | ⟨-, loaded⟩
  · rw [none long] at kept
    cases kept
  · rw [loaded]
    exact List.cons_ne_nil _ _

/-- Forgetting loads nothing. -/
theorem step_invalidate (c : Cache) :
    c.step loader lifetime .invalidate = ⟨.invalidate, [], .done, { c with kept := none }⟩ := by
  simp [step, Call.perform, source, Cache.invalidate]

/-! ## Whole runs -/

@[simp]
theorem afterAll_append (history : List Step) (step : Step) :
    afterAll (history ++ [step]) = step.after := by
  simp [afterAll]

theorem loadsOf_append (history : List Step) (step : Step) :
    loadsOf (history ++ [step]) = loadsOf history ++ step.loads := by
  simp [loadsOf]

/-- The cache that the history left is as the history tells. -/
structure Standing (history : List Step) : Prop where
  kept : ∀ s, (afterAll history).kept = some s ↔ Latest history s
  loads : (afterAll history).loads = (loadsOf history).length
  refreshed : (afterAll history).refreshed = true ↔ ∃ s, .ok s ∈ loadsOf history

theorem Standing.start : Standing [] where
  kept s := by simp [afterAll, not_latest_nil]
  loads := rfl
  refreshed := by simp [afterAll, loadsOf, Cache.refreshed]

variable (loader lifetime) in
/-- What stands before a call stands after it. -/
theorem Standing.step (h : Standing history) (call : Call) :
    Standing (history ++ [(afterAll history).step loader lifetime call]) := by
  by_cases forget : call = .invalidate
  · subst forget
    rw [step_invalidate]
    refine ⟨fun s => ?_, ?_, ?_⟩
    · simp [latest_append]
    · simp [loadsOf_append, h.loads]
    · simpa [loadsOf_append, Cache.refreshed] using h.refreshed
  · rcases step_reading loader lifetime forget (afterAll history) with
      ⟨-, s, kept, served⟩ | ⟨-, loaded⟩
    · rw [served]
      refine ⟨fun s => ?_, ?_, ?_⟩
      · simp [latest_append, h.kept, forget]
      · simp [loadsOf_append, h.loads]
      · simp [loadsOf_append, h.refreshed]
    · rw [loaded]
      unfold load
      cases outcome : loader (afterAll history).loads with
      | ok s =>
        refine ⟨fun s => ?_, ?_, ?_⟩
        · simp [latest_append, eq_comm]
        · simp [loadsOf_append, h.loads]
        · simp [loadsOf_append, Cache.refreshed]
      | error e =>
        refine ⟨fun s => ?_, ?_, ?_⟩
        · simp [latest_append, h.kept, forget]
        · simp [loadsOf_append, h.loads]
        · simpa [loadsOf_append, Cache.refreshed] using h.refreshed

/-- Each step of a run is a call of the cache that the steps before it left. -/
theorem run_split : ∀ {calls : List Call} {done history later : List Step} {step : Step},
    Standing done → run loader lifetime (afterAll done) calls = history ++ step :: later →
      ∃ call rest, Standing (done ++ history) ∧
        step = (afterAll (done ++ history)).step loader lifetime call ∧
        later = run loader lifetime step.after rest
  | [], _, _, _, _, _, h => by simp [run] at h
  | call :: rest, done, [], later, step, standing, h => by
    rw [run, List.nil_append, List.cons.injEq] at h
    obtain ⟨rfl, rfl⟩ := h
    exact ⟨call, rest, by simpa using standing, by simp, rfl⟩
  | call :: rest, done, first :: history, later, step, standing, h => by
    rw [run, List.cons_append, List.cons.injEq] at h
    obtain ⟨rfl, h⟩ := h
    rw [← afterAll_append done] at h
    simpa using run_split (standing.step loader lifetime call) h

/-- A call after a history is answered freshly. -/
theorem Standing.fresh (h : Standing history) (call : Call) (rest : List Call) :
    ((afterAll history).step loader lifetime call).Fresh loader lifetime history
      (run loader lifetime ((afterAll history).step loader lifetime call).after rest) := by
  have again := h.step loader lifetime call
  by_cases forget : call = .invalidate
  · subst forget
    have refreshed := again.refreshed
    rw [step_invalidate] at refreshed ⊢
    rw [afterAll_append] at refreshed
    refine ⟨fun _ h => absurd rfl h, fun _ h => absurd rfl h, fun _ => ⟨rfl, fun s => ?_⟩,
      by simp, by simp, refreshed⟩
    simp [latest_append]
  · have refreshed := again.refreshed
    rw [afterAll_append] at refreshed
    rcases step_reading loader lifetime forget (afterAll history) with
      ⟨long, s, kept, served⟩ | ⟨none, loaded⟩
    · rw [served] at refreshed ⊢
      exact ⟨fun _ _ => .inl ⟨s, (h.kept s).mp kept, rfl, rfl⟩, fun zero => absurd (long.symm.trans zero) nofun,
        fun same => absurd same forget, by simp, by simp, refreshed⟩
    · have missed : lifetime = .endless → ∀ s, ¬ Latest history s := by
        intro long s latest
        have := (h.kept s).mpr latest
        rw [none long] at this
        cases this
      rw [loaded] at refreshed ⊢
      refine ⟨fun long _ => .inr ⟨missed long, ?_, ?_⟩, fun _ _ => ⟨?_, ?_⟩,
        fun same => absurd same forget, fun e he => ?_, fun s hs => ?_, refreshed⟩
      · rw [h.loads]
      · rw [h.loads]
      · rw [h.loads]
      · rw [h.loads]
      · have outcome : loader (afterAll history).loads = .error e := by simpa [eq_comm] using he
        unfold load
        rw [outcome]
        refine ⟨rfl, rfl, fun next hnext reading => ?_⟩
        cases rest with
        | nil => cases hnext
        | cons call rest =>
          cases hnext
          exact step_loads reading none
      · have outcome : loader (afterAll history).loads = .ok s := by simpa [eq_comm] using hs
        rw [← h.loads, load, outcome]

/-- However a cache is asked, and whatever its loads give, each call loads and answers as it should. -/
theorem run_fresh (loader : Loader) (lifetime : Lifetime) {calls : List Call}
    {history later : List Step} {step : Step}
    (h : run loader lifetime {} calls = history ++ step :: later) :
    step.Fresh loader lifetime history later := by
  obtain ⟨call, rest, standing, rfl, rfl⟩ := run_split Standing.start h
  exact Standing.fresh standing call rest

/-- A loader that fails at first, and whose moods change then. -/
def moodsLoader : Loader := .ofList
  [.error (.io "no catalog"), .ok { enums := [("mood", ["sad"])] },
    .ok { enums := [("mood", ["sad", "happy"])] }]

/-- The moods are asked for until they are there, and once more after they were forgotten. -/
def moodsCalls : List Call :=
  [.hasTable "posts", .labels "mood", .labels "mood", .invalidate, .labels "mood"]

theorem run_fresh_moods : ∃ history step,
    run moodsLoader .endless {} moodsCalls = history ++ [step] ∧
      (history.map fun step => step.loads.length) = [1, 1, 0, 0] ∧
      step.reply = .labels (.ok (some ["sad", "happy"])) ∧
      step.Fresh moodsLoader .endless history [] := by
  have split : run moodsLoader .endless {} moodsCalls =
      (run moodsLoader .endless {} moodsCalls).take 4 ++
        [(afterAll ((run moodsLoader .endless {} moodsCalls).take 4)).step moodsLoader .endless
          (.labels "mood")] := rfl
  exact ⟨_, _, split, rfl, rfl, run_fresh moodsLoader .endless split⟩

end TableGateway.Cache
