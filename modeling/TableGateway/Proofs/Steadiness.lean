import TableGateway.Proofs.Agreement

/-!
# Steady sources

A source is steady if it supplies the same snapshot in all of its states. What is looked up in it has the
same outcome each time: texts that were converted once are converted again, and a key that was refused is
refused again. Main statements: `Build.keyFilter_steady`, `Filter.conditions_steady`.
-/
namespace TableGateway

variable {σ α β : Type}

namespace Lookup

/-- The outcome of the lookup does not depend on the state of the source. -/
def Steady (x : Lookup σ α) : Prop := ∀ t u, (x.run t).1 = (x.run u).1

theorem Steady.pure (a : α) : (pure a : Lookup σ α).Steady := fun _ _ => rfl

theorem Steady.known (r : Except Fault α) : Steady (known r : Lookup σ α) := fun _ _ => rfl

theorem Steady.bind {x : Lookup σ α} {f : α → Lookup σ β} (hx : x.Steady)
    (hf : ∀ a, (f a).Steady) : (x >>= f).Steady := by
  intro t u
  rw [run_bind, run_bind, hx t u]
  cases (x.run u).1 with
  | ok a => exact hf a _ _
  | error e => rfl

/-- What a steady lookup gives once it gives in every state. -/
theorem Steady.gives {x : Lookup σ α} (h : x.Steady) {t u : σ} {a : α} (given : x.Gives t a u) (v : σ) :
    ∃ w, x.Gives v a w := by
  refine ⟨_, Prod.ext ?_ rfl⟩
  rw [h v t, given]

/-- Steady lookups that succeed one by one succeed in turn. -/
theorem Steady.gives_mapM {f : α → Lookup σ β} (hf : ∀ a, (f a).Steady) : ∀ {l : List α} {t : σ},
    (∀ a ∈ l, ∃ b u, (f a).Gives t b u) → ∃ bs u, (l.mapM f).Gives t bs u
  | [], t, _ => ⟨[], t, by rw [List.mapM_nil, gives_pure]; exact ⟨rfl, rfl⟩⟩
  | a :: l, t, h => by
    obtain ⟨b, v, hb⟩ := h a (by simp)
    have later : ∀ a' ∈ l, ∃ b u, (f a').Gives v b u := by
      intro a' ha'
      obtain ⟨b', w, hb'⟩ := h a' (by simp [ha'])
      exact ⟨b', (hf a').gives hb' v⟩
    obtain ⟨bs, u, hbs⟩ := Steady.gives_mapM hf later
    refine ⟨b :: bs, u, ?_⟩
    simp only [List.mapM_cons, gives_bind, gives_pure]
    exact ⟨b, v, hb, bs, u, hbs, rfl, rfl⟩

/-- A steady lookup fails always or never. -/
theorem Steady.fails_or_not {x : Lookup σ α} (h : x.Steady) {Q : α → Prop} {E : Fault → Prop}
    (ends : x.Ends Q E) : x.Ends (fun _ => False) E ∨ x.Ends Q (fun _ => False) := by
  by_cases fails : ∃ t e, (x.run t).1 = .error e
  · obtain ⟨t, e, run⟩ := fails
    have valid := ends t
    rw [run] at valid
    refine .inl fun u => ?_
    rw [h u t, run]
    exact .error valid.of_error
  · refine .inr fun t => ?_
    have valid := ends t
    cases run : (x.run t).1 with
    | ok a =>
      rw [run] at valid
      exact .ok valid.of_ok
    | error e => exact absurd ⟨t, e, run⟩ fails

/-- A lookup that is like itself from any two states is steady. -/
theorem Steady.of_alike {x : Lookup σ α} (h : Alike (fun _ _ => True) x x) : x.Steady :=
  fun t u => (h t u trivial).1

end Lookup

variable {source : SchemaSource σ}

/-- In any two states, a steady source tells the same about all types. -/
theorem SchemaSource.agree_self (hs : source.current.Steady) :
    source.Agree source (fun _ _ => True) (fun _ => True) (fun _ => True) := by
  intro t u _
  have same : (source.snapshot t).1 = (source.snapshot u).1 := hs t u
  rw [same]
  exact ⟨.refl _, trivial⟩

open Lookup (Steady)
open SchemaSource (agree_self)

theorem Convert.ofText_steady (hs : source.current.Steady) (type : ColumnType) (text : String) :
    (ofText source type text).Steady :=
  .of_alike (ofText_alike (agree_self hs) (fun _ _ => trivial) text)

theorem Convert.parameter_steady (hs : source.current.Steady) (type : ColumnType) (v : Json) :
    (parameter source type v).Steady :=
  .of_alike (parameter_alike (agree_self hs) (fun _ _ => trivial) (fun _ _ => trivial) v)

/-- A key chooses rows in all states of a steady source or in none. -/
theorem Build.keyFilter_steady (hs : source.current.Steady) (table : Table) (key : String) :
    (keyFilter source table key).Steady :=
  .of_alike (keyFilter_alike (agree_self hs) (fun _ _ _ _ => trivial) key)

theorem Build.insert_steady (hs : source.current.Steady) (table : Table) (record : Record)
    (returning : Bool) : (insert source table record returning).Steady :=
  .of_alike (insert_alike (agree_self hs) (fun _ _ _ _ => trivial) (fun _ _ _ _ => trivial) record
    returning)

theorem Filter.condition_steady (hs : source.current.Steady) (table : Table) (column raw : String) :
    (condition source table column raw).Steady :=
  .of_alike (condition_alike (agree_self hs) (fun _ _ _ _ => trivial) column raw)

/-- Filters become the same conditions each time. -/
theorem Filter.conditions_steady (hs : source.current.Steady) (table : Table) (params : Params) :
    (conditions source table params).Steady :=
  .of_alike (conditions_alike (agree_self hs) (fun _ _ _ _ => trivial) params)

theorem cursorCondition_steady (hs : source.current.Steady) (column : Column) (comparison : Comparison)
    (cursor : Option String) : (cursorCondition source column comparison cursor).Steady :=
  .of_alike (cursorCondition_alike (agree_self hs) (fun _ _ => trivial) comparison cursor)

end TableGateway
