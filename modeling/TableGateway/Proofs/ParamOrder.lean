import TableGateway.Proofs.Filters
import TableGateway.Proofs.NameOrder

/-!
# The order of parameters

Parameters are kept by their names, and the values of one name in the order in which they came. So the
filters of a request are the pairs that it was made of, sorted by name, where pairs of the same name stay
in order. Main statement: `Params.pairs_ofPairs`.
-/
namespace TableGateway

/-! ## Rising names -/

namespace Entries

variable {α : Type} {entries : Entries α}

def Rising (entries : Entries α) : Prop := entries.Pairwise fun a b => a.1 < b.1

theorem mem_insert {key : String} {value : α} {e : String × α} (h : e ∈ insert key value entries) :
    e = (key, value) ∨ e ∈ entries := by
  induction entries with
  | nil => exact .inl (List.mem_singleton.mp h)
  | cons first rest ih =>
    rw [insert] at h
    split at h
    · exact List.mem_cons.mp h
    · split at h
      · exact (List.mem_cons.mp h).imp_right (List.mem_cons_of_mem first)
      · rcases List.mem_cons.mp h with rfl | h
        · exact .inr List.mem_cons_self
        · exact (ih h).imp_right (List.mem_cons_of_mem first)

theorem Rising.insert (h : Rising entries) (key : String) (value : α) :
    Rising (insert key value entries) := by
  induction entries with
  | nil => exact List.pairwise_singleton ..
  | cons first rest ih =>
    obtain ⟨before, rising⟩ := List.pairwise_cons.mp h
    rw [Entries.insert]
    split
    · rename_i lower
      refine List.pairwise_cons.mpr ⟨fun e he => ?_, h⟩
      rcases List.mem_cons.mp he with rfl | he
      · exact lower
      · exact String.lt_trans lower (before e he)
    · split
      · rename_i same
        exact List.pairwise_cons.mpr ⟨same ▸ before, rising⟩
      · rename_i notLower different
        have higher : first.1 < key :=
          String.not_le.mp fun le => different (String.le_antisymm (String.not_lt.mp notLower) le)
        refine List.pairwise_cons.mpr ⟨fun e he => ?_, ih rising⟩
        rcases mem_insert he with rfl | he
        · exact higher
        · exact before e he

end Entries

namespace Params

open Entries (Rising)

/-! ## Values with their names -/

/-- All values, each with its name. -/
def flat (params : Params) : List (String × String) :=
  params.flatMap fun (name, values) => values.map (name, ·)

theorem values_cons (name other : String) (values : List String) (params : Params) :
    Params.values ((name, values) :: params) other =
      if name = other then values else params.values other := by
  rw [Params.values, Entries.get?]
  split <;> rfl

theorem values_add (params : Params) (name value other : String) :
    (params.add name value).values other =
      params.values other ++ if name = other then [value] else [] := by
  rw [Params.values, add, Entries.get?_insert]
  by_cases same : name = other
  · rw [if_pos same, if_pos same, same]
    rfl
  · rw [if_neg same, if_neg same, List.append_nil]
    rfl

theorem flat_sorted {params : Params} (h : Rising params) :
    params.flat.Pairwise fun a b => a.1 ≤ b.1 := by
  refine List.pairwise_flatMap.mpr ⟨fun entry _ => ?_, h.imp fun lower a ha b hb => ?_⟩
  · exact List.pairwise_map.mpr (List.pairwise_of_forall fun _ _ => String.le_refl _)
  · obtain ⟨_, -, rfl⟩ := List.mem_map.mp ha
    obtain ⟨_, -, rfl⟩ := List.mem_map.mp hb
    exact String.not_lt.mp (String.lt_asymm lower)

/-- The pairs of one name are those of its values. -/
theorem filter_flat {params : Params} (h : Rising params) (name : String) :
    params.flat.filter (·.1 = name) = (params.values name).map (name, ·) := by
  induction params with
  | nil => rfl
  | cons entry params ih =>
    obtain ⟨other, values⟩ := entry
    obtain ⟨before, rising⟩ := List.pairwise_cons.mp h
    have split : flat ((other, values) :: params) = values.map (other, ·) ++ flat params := rfl
    rw [split, List.filter_append, ih rising, values_cons]
    by_cases same : other = name
    · subst same
      -- All later names are greater ones.
      have none : Params.values params other = [] := by
        have passed := ih rising
        rw [List.filter_eq_nil_iff.mpr] at passed
        · exact List.map_eq_nil_iff.mp passed.symm
        · intro pair hpair
          obtain ⟨later, hlater, inLater⟩ := List.mem_flatMap.mp hpair
          obtain ⟨_, -, rfl⟩ := List.mem_map.mp inLater
          simpa using (String.ne_of_lt (before later hlater)).symm
      rw [none, if_pos rfl, List.map_nil, List.append_nil]
      exact List.filter_eq_self.mpr (by simp)
    · rw [if_neg same, List.filter_eq_nil_iff.mpr (by simp [same]), List.nil_append]

theorem foldl_add_rising (pairs : List (String × String)) {params : Params} (h : Rising params) :
    Rising (pairs.foldl (fun params pair => add params pair.1 pair.2) params) := by
  induction pairs generalizing params with
  | nil => exact h
  | cons pair pairs ih => exact ih (h.insert _ _)

theorem values_foldl_add (pairs : List (String × String)) (params : Params) (name : String) :
    Params.values (pairs.foldl (fun params pair => add params pair.1 pair.2) params) name =
      params.values name ++ (pairs.filter (·.1 = name)).map (·.2) := by
  induction pairs generalizing params with
  | nil => simp
  | cons pair pairs ih =>
    rw [List.foldl_cons, ih, values_add, List.append_assoc, List.filter_cons]
    split <;> simp_all

theorem ofPairs_rising (pairs : List (String × String)) : Rising (ofPairs pairs) :=
  foldl_add_rising pairs .nil

/-- The pairs of one name are kept in order. -/
theorem filter_ofPairs (pairs : List (String × String)) (name : String) :
    (ofPairs pairs).flat.filter (·.1 = name) = pairs.filter (·.1 = name) := by
  have values : (ofPairs pairs).values name = (pairs.filter (·.1 = name)).map (·.2) :=
    values_foldl_add pairs [] name
  rw [filter_flat (ofPairs_rising pairs), values, List.map_map]
  have named : ∀ pair ∈ pairs.filter (·.1 = name), (name, pair.2) = pair := by
    intro pair hpair
    have same : pair.1 = name := by simpa using (List.mem_filter.mp hpair).2
    rw [← same]
  exact (List.map_congr_left named).trans (List.map_id' _)

/-! ## Sorted pairs -/

def nameLe (a b : String × String) : Bool := decide (a.1 ≤ b.1)

variable {pairs : List (String × String)}

theorem flat_ofPairs (pairs : List (String × String)) : (ofPairs pairs).flat = pairs.mergeSort nameLe := by
  refine eq_of_filter_eq (flat_sorted (ofPairs_rising pairs)) (mergeSort_sorted pairs) fun name => ?_
  rw [filter_ofPairs]
  exact (filter_mergeSort pairs name).symm

/-! ## Filters -/

/-- A parameter of the name is a filter of the table. -/
def isFilter (name : String) : Bool := !isReserved name && !name.toList.contains '.'

theorem pairs_eq_filter (params : Params) : params.pairs = params.flat.filter (isFilter ·.1) := by
  induction params with
  | nil => rfl
  | cons entry params ih =>
    obtain ⟨name, values⟩ := entry
    have first : filters ((name, values) :: params) =
        if isFilter name then (name, values) :: filters params else filters params := List.filter_cons
    have own : (values.map (name, ·)).filter (isFilter ·.1) =
        if isFilter name then values.map (name, ·) else [] := by
      rw [List.filter_map]
      show (values.filter fun _ => isFilter name).map (name, ·) = _
      cases isFilter name <;> simp
    rw [flat, List.flatMap_cons, List.filter_append, own]
    rw [flat] at ih
    rw [← ih, pairs, first]
    cases isFilter name <;> rfl

/-- The filters of a request are the pairs that it was made of, in a stable order of their names. -/
theorem pairs_ofPairs (h : ∀ pair ∈ pairs, isFilter pair.1 = true) :
    (ofPairs pairs).pairs = pairs.mergeSort nameLe := by
  rw [pairs_eq_filter, flat_ofPairs]
  exact List.filter_eq_self.mpr fun pair hpair => h pair (List.mem_mergeSort.mp hpair)

end Params
end TableGateway
