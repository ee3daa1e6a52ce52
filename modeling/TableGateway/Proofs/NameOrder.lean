import Mathlib.Data.List.Basic

/-!
# The order of names

What has a name is sorted by it, and what has the same name stays in order. So a list in the order of its
names is known from what it holds under each of them. Main statements: `filter_mergeSort`,
`eq_of_filter_eq`.
-/
namespace TableGateway

variable {α : Type} (name : α → String)

def leByName (a b : α) : Bool := decide (name a ≤ name b)

variable {name}

theorem leByName_trans (a b c : α) (hab : leByName name a b = true) (hbc : leByName name b c = true) :
    leByName name a c = true := by
  simp only [leByName, decide_eq_true_eq] at *
  exact String.le_trans hab hbc

theorem leByName_total (a b : α) : (leByName name a b || leByName name b a) = true := by
  simpa [leByName] using String.le_total (name a) (name b)

theorem mergeSort_sorted (xs : List α) :
    (xs.mergeSort (leByName name)).Pairwise fun a b => name a ≤ name b :=
  (List.pairwise_mergeSort leByName_trans leByName_total xs).imp fun h => by simpa [leByName] using h

/-- Sorting keeps what has one name in order. -/
theorem filter_mergeSort (xs : List α) (n : String) :
    (xs.mergeSort (leByName name)).filter (name · = n) = xs.filter (name · = n) := by
  have alike : (xs.filter (name · = n)).Pairwise fun a b => leByName name a b = true := by
    refine List.pairwise_filter.mpr (List.pairwise_of_forall fun a b ha hb => ?_)
    rw [decide_eq_true_eq] at ha hb
    rw [leByName, ha, hb, decide_eq_true (String.le_refl n)]
  have kept := (List.sublist_mergeSort leByName_trans leByName_total alike List.filter_sublist).filter
    fun a => decide (name a = n)
  rw [List.filter_filter] at kept
  simp only [Bool.and_self] at kept
  exact (kept.eq_of_length ((List.mergeSort_perm xs _).filter _).length_eq.symm).symm

/-- Lists in the order of names are the same, if what they hold under each name is the same. -/
theorem eq_of_filter_eq : ∀ {xs ys : List α},
    xs.Pairwise (fun a b => name a ≤ name b) → ys.Pairwise (fun a b => name a ≤ name b) →
    (∀ n, xs.filter (name · = n) = ys.filter (name · = n)) → xs = ys
  | [], [], _, _, _ => rfl
  | [], b :: ys, _, _, same => by simpa using same (name b)
  | a :: xs, [], _, _, same => by simpa using same (name a)
  | a :: xs, b :: ys, sorted, sorted', same => by
    obtain ⟨before, rest⟩ := List.pairwise_cons.mp sorted
    obtain ⟨before', rest'⟩ := List.pairwise_cons.mp sorted'
    -- Each of the two first members stands somewhere in the other list, so their names are the same.
    have names : name a = name b := by
      have ha : a ∈ (b :: ys).filter (name · = name a) := by simp [← same]
      have hb : b ∈ (a :: xs).filter (name · = name b) := by simp [same]
      refine String.le_antisymm ?_ ?_
      · rcases List.mem_cons.mp (List.mem_filter.mp hb).1 with rfl | hb
        · exact String.le_refl _
        · exact before b hb
      · rcases List.mem_cons.mp (List.mem_filter.mp ha).1 with rfl | ha
        · exact String.le_refl _
        · exact before' a ha
    have first := same (name a)
    rw [List.filter_cons_of_pos (by simp), List.filter_cons_of_pos (by simp [names])] at first
    obtain ⟨rfl, behind⟩ := List.cons.inj first
    congr 1
    refine eq_of_filter_eq rest rest' fun n => ?_
    have here := same n
    by_cases named : name a = n
    · rw [← named, behind]
    · rwa [List.filter_cons_of_neg (by simp [named]), List.filter_cons_of_neg (by simp [named])] at here

end TableGateway
