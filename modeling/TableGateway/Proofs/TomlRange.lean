import TableGateway.Main
import TableGateway.Proofs.ParamOrder

/-!
# Integers of settings

The integers of a TOML document have 64 bits, wherever they stand in it: each number is read so, and
headers, dotted keys and inline tables put together what was read without a change to it. So no bound in
the settings of a file is beyond these integers. Main statement: `Main.configOf_limits`.
-/
namespace TableGateway

/-- All integers in the document have 64 bits. -/
inductive Json.Ranged : Json → Prop where
  | null : Ranged .null
  | bool (b : Bool) : Ranged (.bool b)
  | int {n : Int} (h : Number.minInt ≤ n ∧ n ≤ Number.maxInt) : Ranged (.int n)
  | double (d : Number.Double) : Ranged (.double d)
  | str (s : String) : Ranged (.str s)
  | arr {items : List Json} (h : ∀ v ∈ items, Ranged v) : Ranged (.arr items)
  | obj {members : List (String × Json)} (h : ∀ e ∈ members, Ranged e.2) : Ranged (.obj members)

theorem Entries.mem_ofList {α : Type} {pairs : List (String × α)} {e : String × α}
    (h : e ∈ ofList pairs) : e ∈ pairs := by
  have grown : ∀ (pairs : List (String × α)) (entries : Entries α),
      e ∈ pairs.foldl (fun entries p => insert p.1 p.2 entries) entries → e ∈ entries ∨ e ∈ pairs := by
    intro pairs
    induction pairs with
    | nil => exact fun entries h => .inl h
    | cons first rest ih =>
      intro entries h
      rcases ih _ h with h | h
      · rcases mem_insert h with rfl | h
        · exact .inr List.mem_cons_self
        · exact .inl h
      · exact .inr (List.mem_cons_of_mem first h)
  rcases grown pairs [] h with h | h
  · cases h
  · exact h

theorem Json.Ranged.object {members : List (String × Json)} (h : ∀ e ∈ members, e.2.Ranged) :
    (Json.object members).Ranged :=
  .obj fun e he => h e (Entries.mem_ofList he)

namespace Toml

/-! ## Tables -/

/-- All integers below the node have 64 bits. -/
inductive Node.Ranged : Node → Prop where
  | value {v : Json} (h : v.Ranged) : Ranged (.value v)
  | table (origin : Origin) {members : Members} (h : ∀ e ∈ members, Ranged e.2) :
    Ranged (.table origin members)
  | tables {items : List Members} (h : ∀ members ∈ items, ∀ e ∈ members, Ranged e.2) :
    Ranged (.tables items)

/-- All integers below the members have 64 bits. -/
def AllRanged (members : Members) : Prop := ∀ e ∈ members, e.2.Ranged

/-- A change to members brings in no other integers. -/
def Keeps (change : Members → Option Members) : Prop :=
  ∀ members changed, AllRanged members → change members = some changed → AllRanged changed

variable {members : Members} {key : String} {node : Node}

theorem allRanged_nil : AllRanged [] := fun _ he => absurd he List.not_mem_nil

theorem AllRanged.lookup (h : AllRanged members) (found : members.lookup key = some node) :
    node.Ranged := by
  induction members with
  | nil => cases found
  | cons e rest ih =>
    rw [List.lookup_cons] at found
    split at found
    · cases found
      exact h e List.mem_cons_self
    · exact ih (fun e he => h e (List.mem_cons_of_mem _ he)) found

theorem AllRanged.put (h : AllRanged members) (hn : node.Ranged) (key : String) :
    AllRanged (put key node members) := by
  induction members with
  | nil => exact List.forall_mem_singleton.mpr hn
  | cons e rest ih =>
    obtain ⟨first, later⟩ := List.forall_mem_cons.mp h
    rw [Toml.put]
    split
    · exact List.forall_mem_cons.mpr ⟨hn, later⟩
    · exact List.forall_mem_cons.mpr ⟨first, ih later⟩

theorem AllRanged.inner (h : AllRanged members) {origin : Origin} {inner : Members}
    (found : members.lookup key = some (.table origin inner)) : AllRanged inner := by
  cases h.lookup found with
  | table _ below => exact below

theorem AllRanged.items (h : AllRanged members) {items : List Members}
    (found : members.lookup key = some (.tables items)) : ∀ inner ∈ items, AllRanged inner := by
  cases h.lookup found with
  | tables below => exact below

/-- What changes a table so may change it where it stands. -/
theorem Keeps.table {change : Members → Option Members} (keeps : Keeps change) (h : AllRanged members)
    {inner changed : Members} (below : AllRanged inner) {origin : Origin}
    (changes : ((change inner).map fun inner => put key (.table origin inner) members) = some changed) :
    AllRanged changed := by
  obtain ⟨inner', made, rfl⟩ := Option.map_eq_some_iff.mp changes
  exact h.put (.table origin (keeps _ _ below made)) key

theorem Keeps.last {change : Members → Option Members} (keeps : Keeps change) (h : AllRanged members)
    {last changed : Members} {before : List Members} (below : ∀ inner ∈ last :: before, AllRanged inner)
    (changes : ((change last).map fun last => put key (.tables (last :: before)) members) = some changed) :
    AllRanged changed := by
  obtain ⟨last', made, rfl⟩ := Option.map_eq_some_iff.mp changes
  obtain ⟨first, earlier⟩ := List.forall_mem_cons.mp below
  have kept := keeps _ _ first made
  exact h.put (.tables (List.forall_mem_cons.mpr ⟨kept, earlier⟩)) key

theorem define_keeps (key : String) : Keeps (define key) := by
  intro members changed h changes
  unfold define at changes
  split at changes
  · cases changes
    exact h.put (.table _ allRanged_nil) key
  · rename_i inner found
    cases changes
    exact h.put (.table _ (h.inner found)) key
  · cases changes

theorem extend_keeps (key : String) : Keeps (extend key) := by
  intro members changed h changes
  unfold extend at changes
  split at changes
  · cases changes
    exact h.put (.tables (List.forall_mem_singleton.mpr allRanged_nil)) key
  · rename_i items found
    cases changes
    exact h.put (.tables (List.forall_mem_cons.mpr ⟨allRanged_nil, h.items found⟩)) key
  · cases changes

theorem within_keeps {change : Members → Option Members} (keeps : Keeps change) :
    ∀ path : List String, Keeps (within change path)
  | [] => keeps
  | key :: path => by
    intro members changed h changes
    have inner := within_keeps keeps path
    unfold within at changes
    split at changes
    · exact inner.table h allRanged_nil changes
    · rename_i found
      exact inner.table h (h.inner found) changes
    · rename_i found
      exact inner.last h (h.items found) changes
    · cases changes

theorem assign_keeps (last : String) {v : Json} (hv : v.Ranged) :
    ∀ keys : List String, Keeps (assign last v keys)
  | [] => by
    intro members changed h changes
    unfold assign at changes
    split at changes
    · cases changes
    · cases changes
      exact h.put (.value hv) last
  | key :: keys => by
    intro members changed h changes
    have inner := assign_keeps last hv keys
    unfold assign at changes
    split at changes
    · exact inner.table h allRanged_nil changes
    · rename_i found
      exact inner.table h (h.inner found) changes
    · rename_i found
      split at changes
      · cases changes
      · exact inner.table h (h.inner found) changes
    · rename_i found
      split at changes
      · cases changes
      · exact inner.last h (h.items found) changes
    · cases changes

mutual

theorem Node.Ranged.json : ∀ {node : Node}, node.Ranged → node.json.Ranged
  | .value _, h => by
    cases h with
    | value h => exact h
  | .table _ members, h => by
    cases h with
    | table _ h => exact .object (membersJson_ranged members h)
  | .tables items, h => by
    cases h with
    | tables h => exact .arr fun v hv => tablesJson_ranged items h v (List.mem_reverse.mp hv)

theorem membersJson_ranged : ∀ members : Members, AllRanged members →
    ∀ e ∈ membersJson members, e.2.Ranged
  | [], _ => fun _ he => absurd he List.not_mem_nil
  | (key, node) :: rest, h => by
    obtain ⟨first, later⟩ := List.forall_mem_cons.mp h
    exact List.forall_mem_cons.mpr ⟨Node.Ranged.json first, membersJson_ranged rest later⟩

theorem tablesJson_ranged : ∀ items : List Members, (∀ members ∈ items, AllRanged members) →
    ∀ v ∈ tablesJson items, v.Ranged
  | [], _ => fun _ hv => absurd hv List.not_mem_nil
  | members :: rest, h => by
    obtain ⟨first, later⟩ := List.forall_mem_cons.mp h
    refine List.forall_mem_cons.mpr ⟨?_, tablesJson_ranged rest later⟩
    exact .object (membersJson_ranged members first)

end

/-! ## Values -/

theorem ranged?_ranged {n : Int} {v : Json} (h : ranged? n = some v) : v.Ranged := by
  unfold ranged? at h
  split at h
  · rename_i bounds
    cases h
    exact .int bounds
  · cases h

theorem integer?_ranged {cs : List Char} {v : Json} (h : integer? cs = some v) : v.Ranged := by
  unfold integer? at h
  split at h <;>
  · obtain ⟨_, -, ranged⟩ := Option.bind_eq_some_iff.mp h
    exact ranged?_ranged ranged

theorem float?_ranged {cs : List Char} {v : Json} (h : float? cs = some v) : v.Ranged := by
  obtain ⟨d, rfl⟩ : ∃ d, v = .double d := by
    unfold float? at h
    simp only at h
    split_ifs at h
    · exact ⟨_, (Option.some.inj h).symm⟩
    · exact ⟨_, (Option.some.inj h).symm⟩
    · obtain ⟨whole, -, h⟩ := Option.bind_eq_some_iff.mp h
      split at h <;>
      · obtain ⟨fraction, -, h⟩ := Option.bind_eq_some_iff.mp h
        split at h <;>
        · obtain ⟨power, -, h⟩ := Option.bind_eq_some_iff.mp h
          split at h
          · cases h
          · exact ⟨_, (Option.some.inj h).symm⟩
  exact .double d

theorem dateTime?_ranged {cs : List Char} {v : Json} (h : dateTime? cs = some v) : v.Ranged := by
  unfold dateTime? at h
  split at h
  · cases h
    exact .obj (List.forall_mem_singleton.mpr (.str _))
  · cases h

theorem scalar?_ranged {cs : List Char} {v : Json} (h : scalar? cs = some v) : v.Ranged := by
  unfold scalar? at h
  split_ifs at h
  · cases h
    exact .bool true
  · cases h
    exact .bool false
  · rcases Option.or_eq_some_iff.mp h with h | ⟨-, h⟩
    · rcases Option.or_eq_some_iff.mp h with h | ⟨-, h⟩
      · exact integer?_ranged h
      · exact float?_ranged h
    · exact dateTime?_ranged h

mutual

theorem value?_ranged : ∀ (fuel depth : Nat) {cs rest : List Char} {v : Json},
    value? fuel depth cs = some (v, rest) → v.Ranged
  | 0, _, _, _, _, h => by simp [value?] at h
  | fuel + 1, depth, cs, rest, v, h => by
    unfold value? at h
    split at h
    · obtain ⟨_, -, made⟩ := Option.map_eq_some_iff.mp h
      cases made
      exact .str _
    · obtain ⟨_, -, made⟩ := Option.map_eq_some_iff.mp h
      cases made
      exact .str _
    · cases h
    · cases h
    · obtain ⟨⟨items, _⟩, found, made⟩ := Option.map_eq_some_iff.mp h
      cases made
      exact .arr (items?_ranged fuel _ found)
    · split at h
      · cases h
        exact .obj fun _ he => absurd he List.not_mem_nil
      · obtain ⟨⟨members, _⟩, found, made⟩ := Option.map_eq_some_iff.mp h
        cases made
        exact .object (membersJson_ranged members (inline?_ranged fuel _ allRanged_nil found))
    · obtain ⟨v, found, made⟩ := Option.map_eq_some_iff.mp h
      cases made
      exact scalar?_ranged found

theorem items?_ranged : ∀ (fuel depth : Nat) {cs rest : List Char} {items : List Json},
    items? fuel depth cs = some (items, rest) → ∀ v ∈ items, v.Ranged
  | 0, _, _, _, _, h => by simp [items?] at h
  | fuel + 1, depth, cs, rest, items, h => by
    unfold items? at h
    obtain ⟨_, -, h⟩ := Option.bind_eq_some_iff.mp h
    split at h
    · cases h
      exact fun _ hv => absurd hv List.not_mem_nil
    · obtain ⟨⟨v, _⟩, found, h⟩ := Option.bind_eq_some_iff.mp h
      have first := value?_ranged fuel depth found
      obtain ⟨_, -, h⟩ := Option.bind_eq_some_iff.mp h
      split at h
      · obtain ⟨⟨items, _⟩, more, made⟩ := Option.map_eq_some_iff.mp h
        cases made
        exact List.forall_mem_cons.mpr ⟨first, items?_ranged fuel depth more⟩
      · cases h
        exact List.forall_mem_singleton.mpr first
      · cases h

theorem inline?_ranged : ∀ (fuel depth : Nat) {cs rest : List Char} {members found : Members},
    AllRanged members → inline? fuel depth members cs = some (found, rest) → AllRanged found
  | 0, _, _, _, _, _, _, h => by simp [inline?] at h
  | fuel + 1, depth, cs, rest, members, found, ranged, h => by
    unfold inline? at h
    obtain ⟨⟨keys, _⟩, -, h⟩ := Option.bind_eq_some_iff.mp h
    dsimp only at h
    split at h
    · obtain ⟨⟨v, _⟩, valued, h⟩ := Option.bind_eq_some_iff.mp h
      obtain ⟨longer, assigned, h⟩ := Option.bind_eq_some_iff.mp h
      have kept := assign_keeps _ (value?_ranged fuel depth valued) _ _ _ ranged assigned
      split at h
      · exact inline?_ranged fuel depth kept h
      · cases h
        exact kept
      · cases h
    · cases h

end

/-! ## Documents -/

theorem lines?_ranged : ∀ (fuel : Nat) {current : List String} {root found : Members} {cs : List Char},
    AllRanged root → lines? fuel current root cs = some found → AllRanged found
  | 0, _, _, _, _, _, h => by simp [lines?] at h
  | fuel + 1, current, root, found, cs, ranged, h => by
    unfold lines? at h
    obtain ⟨_, -, h⟩ := Option.bind_eq_some_iff.mp h
    split at h
    · cases h
      exact ranged
    · obtain ⟨⟨keys, _⟩, -, h⟩ := Option.bind_eq_some_iff.mp h
      obtain ⟨longer, extended, h⟩ := Option.bind_eq_some_iff.mp h
      exact lines?_ranged fuel (within_keeps (extend_keeps _) _ _ _ ranged extended) h
    · obtain ⟨⟨keys, _⟩, -, h⟩ := Option.bind_eq_some_iff.mp h
      obtain ⟨longer, defined, h⟩ := Option.bind_eq_some_iff.mp h
      exact lines?_ranged fuel (within_keeps (define_keeps _) _ _ _ ranged defined) h
    · obtain ⟨⟨keys, _⟩, -, h⟩ := Option.bind_eq_some_iff.mp h
      dsimp only at h
      split at h
      · obtain ⟨⟨v, _⟩, valued, h⟩ := Option.bind_eq_some_iff.mp h
        obtain ⟨_, -, h⟩ := Option.bind_eq_some_iff.mp h
        obtain ⟨longer, assigned, h⟩ := Option.bind_eq_some_iff.mp h
        have keeps := assign_keeps (keys.getLastD "") (value?_ranged _ _ valued) keys.dropLast
        exact lines?_ranged fuel (within_keeps keeps current _ _ ranged assigned) h
      · cases h

/-- The integers of a document have 64 bits. -/
theorem read_ranged {s : String} {v : Json} (h : read s = .ok v) : v.Ranged := by
  unfold read at h
  cases found : read? s with
  | none =>
    rw [found] at h
    cases h
  | some w =>
    rw [found] at h
    cases h
    obtain ⟨root, made, rfl⟩ := Option.map_eq_some_iff.mp found
    exact .object (membersJson_ranged root (lines?_ranged _ allRanged_nil made))

end Toml

/-! ## Settings -/

namespace Json

variable {members : Record}

theorem Ranged.fields? {v : Json} (h : v.Ranged) {surplus : Surplus} {names : List String}
    (found : v.fields? surplus names = some members) : ∀ e ∈ members, e.2.Ranged := by
  unfold Json.fields? at found
  split at found
  · cases found
    cases h with
    | obj h => exact h
  · split at found
    · cases found
      cases h with
      | arr h => exact fun e he => h e.2 (List.of_mem_zip (Entries.mem_ofList he)).2
    · cases found
  · cases found

/-- A number among such members, or its default, is an integer of 64 bits. -/
theorem field_asNat_le (h : ∀ e ∈ members, e.2.Ranged) {name : String} {most default n : Nat}
    (fallback : default ≤ Number.maxInt) (found : field members name (asNat most) default = some n) :
    n ≤ Number.maxInt := by
  unfold field at found
  split at found
  · rename_i v at_
    have ranged := h _ (Entries.mem_of_get? at_)
    unfold asNat at found
    split at found
    · split at found
      · cases found
        cases ranged with
        | int bounds => omega
      · cases found
    · cases found
  · cases found
    exact fallback

end Json

/-- No bound of pages is beyond the integers of 64 bits. -/
structure Limits.Ranged (limits : Limits) : Prop where
  defaultLimit : limits.defaultLimit ≤ Number.maxInt
  maxLimit : limits.maxLimit ≤ Number.maxInt
  maxOffset : limits.maxOffset ≤ Number.maxInt

theorem Limits.ranged_default : ({} : Limits).Ranged := ⟨by decide, by decide, by decide⟩

theorem Limits.ofJson?_ranged {surplus : Json.Surplus} {v : Json} {limits : Limits} (h : v.Ranged)
    (found : ofJson? surplus v = some limits) : limits.Ranged := by
  unfold ofJson? at found
  obtain ⟨members, fields, found⟩ := Option.bind_eq_some_iff.mp found
  have below := h.fields? fields
  obtain ⟨defaultLimit, first, found⟩ := Option.bind_eq_some_iff.mp found
  obtain ⟨maxLimit, second, found⟩ := Option.bind_eq_some_iff.mp found
  obtain ⟨maxOffset, third, found⟩ := Option.bind_eq_some_iff.mp found
  cases found
  exact ⟨Json.field_asNat_le below ranged_default.defaultLimit first,
    Json.field_asNat_le below ranged_default.maxLimit second,
    Json.field_asNat_le below ranged_default.maxOffset third⟩

theorem Config.ofJson_limits {surplus : Json.Surplus} {v : Json} {config : Config} (h : v.Ranged)
    (found : ofJson surplus v = .ok config) : config.limits.Ranged := by
  unfold ofJson at found
  split at found
  · rename_i made
    cases found
    unfold ofJson? at made
    obtain ⟨members, fields, made⟩ := Option.bind_eq_some_iff.mp made
    obtain ⟨rest, -, made⟩ := Option.bind_eq_some_iff.mp made
    obtain ⟨limits, read, made⟩ := Option.bind_eq_some_iff.mp made
    obtain ⟨complexity, -, made⟩ := Option.bind_eq_some_iff.mp made
    obtain ⟨database, -, made⟩ := Option.bind_eq_some_iff.mp made
    cases made
    unfold Json.field at read
    split at read
    · rename_i w at_
      exact Limits.ofJson?_ranged (h.fields? fields _ (Entries.mem_of_get? at_)) read
    · cases read
      exact Limits.ranged_default
  · cases found

/-- The bounds of pages in the settings of a file, or without one, are integers of 64 bits. -/
theorem Main.configOf_limits {file : Option String} {config : Config}
    (h : configOf file = .ok config) : config.limits.Ranged := by
  cases file with
  | none =>
    cases h
    exact Limits.ranged_default
  | some text =>
    change (Toml.read text >>= Config.ofJson .ignored) = .ok config at h
    cases read : Toml.read text with
    | error e =>
      rw [read] at h
      cases h
    | ok v =>
      rw [read] at h
      exact Config.ofJson_limits (Toml.read_ranged read) h

end TableGateway
