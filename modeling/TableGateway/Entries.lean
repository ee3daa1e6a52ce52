/-!
# Keyed entries

Finite maps from names to values, as lists in rising order of the names. All that is shown to a
client in the order of its keys is kept this way. Main statement: `get?_insert`.
-/
namespace TableGateway

/-- Values under names, in rising order of the names. -/
abbrev Entries (α : Type) := List (String × α)

namespace Entries

variable {α : Type}

def get? (key : String) : Entries α → Option α
  | [] => none
  | (k, v) :: rest => if k = key then some v else get? key rest

def has (key : String) (entries : Entries α) : Bool := (get? key entries).isSome

/-- Put a value under a name, in place of the one that is there. -/
def insert (key : String) (value : α) : Entries α → Entries α
  | [] => [(key, value)]
  | (k, v) :: rest =>
    if key < k then (key, value) :: (k, v) :: rest
    else if k = key then (key, value) :: rest
    else (k, v) :: insert key value rest

def erase (key : String) (entries : Entries α) : Entries α :=
  entries.filter fun (k, _) => k ≠ key

/-- The entries of a list of pairs; of two pairs with one name the later counts. -/
def ofList (pairs : List (String × α)) : Entries α :=
  pairs.foldl (fun entries (k, v) => insert k v entries) []

def keys (entries : Entries α) : List String := entries.map (·.1)

theorem get?_insert (key key' : String) (value : α) (entries : Entries α) :
    get? key' (insert key value entries) = if key = key' then some value else get? key' entries := by
  induction entries with
  | nil => simp [insert, get?]
  | cons e rest ih =>
    obtain ⟨k, v⟩ := e
    by_cases h : key < k
    · simp [insert, h, get?]
    · by_cases hk : k = key
      · subst hk
        simp only [insert, h, get?, if_true, if_false]
        split <;> rfl
      · simp only [insert, h, hk, get?, if_false, ih]
        by_cases h' : key = key'
        · subst h'; simp [hk]
        · simp [h']

theorem get?_erase (key key' : String) (entries : Entries α) :
    get? key' (erase key entries) = if key = key' then none else get? key' entries := by
  induction entries with
  | nil => simp [erase, get?]
  | cons e rest ih =>
    obtain ⟨k, v⟩ := e
    by_cases hk : k = key
    · subst hk
      simp only [erase, ne_eq, not_true_eq_false, decide_false, Bool.false_eq_true,
        not_false_eq_true, List.filter_cons_of_neg, get?] at ih ⊢
      rw [ih]; split <;> simp_all
    · have : erase key ((k, v) :: rest) = (k, v) :: erase key rest := by simp [erase, hk]
      rw [this, get?, get?, ih]
      by_cases h' : key = key'
      · subst h'; simp [hk]
      · simp [h']

end Entries
end TableGateway
