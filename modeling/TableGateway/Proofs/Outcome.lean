import Mathlib.Data.List.Forall2
import TableGateway.Schema.Source

/-!
# Outcomes

What is known of the outcome of a lookup, whatever the state of its source: a property of its value
if there is one, and a property of the fault if it fails. Such knowledge is put together along the
steps of the lookup; what it gives from one state is told apart along them. Main statements: `Ends.bind`,
`Ends.mapM`, `gives_bind`.
-/
namespace TableGateway

variable {σ α β : Type}

/-- The outcome is a value with the one property, or a fault with the other. -/
inductive Outcome (Q : α → Prop) (E : Fault → Prop) : Except Fault α → Prop where
  | ok {a : α} (h : Q a) : Outcome Q E (.ok a)
  | error {e : Fault} (h : E e) : Outcome Q E (.error e)

theorem Outcome.of_ok {Q : α → Prop} {E : Fault → Prop} {a : α} (h : Outcome Q E (.ok a)) : Q a := by
  cases h with
  | ok h => exact h

theorem Outcome.of_error {Q : α → Prop} {E : Fault → Prop} {e : Fault}
    (h : Outcome Q E (.error e : Except Fault α)) : E e := by
  cases h with
  | error h => exact h

/-- Every outcome is some value or some fault. -/
theorem Outcome.any (r : Except Fault α) : Outcome (fun _ => True) (fun _ => True) r := by
  cases r with
  | ok a => exact .ok trivial
  | error e => exact .error trivial

/-- A value is the value. -/
theorem Outcome.self (r : Except Fault α) : Outcome (r = .ok ·) (fun _ => True) r := by
  cases r with
  | ok a => exact .ok rfl
  | error e => exact .error trivial

theorem Outcome.mono {Q Q' : α → Prop} {E E' : Fault → Prop} {r : Except Fault α}
    (h : Outcome Q E r) (hQ : ∀ a, Q a → Q' a) (hE : ∀ e, E e → E' e) : Outcome Q' E' r := by
  cases h with
  | ok h => exact .ok (hQ _ h)
  | error h => exact .error (hE _ h)

theorem Outcome.ite {Q : α → Prop} {E : Fault → Prop} {c : Prop} [Decidable c]
    {x y : Except Fault α} (hx : c → Outcome Q E x) (hy : ¬c → Outcome Q E y) :
    Outcome Q E (if c then x else y) := by
  by_cases h : c
  · rw [if_pos h]
    exact hx h
  · rw [if_neg h]
    exact hy h

/-- Where no value is possible, there is a fault. -/
theorem Outcome.exists_error {E : Fault → Prop} {r : Except Fault α}
    (h : Outcome (fun _ => False) E r) : ∃ e, r = .error e ∧ E e := by
  cases h with
  | ok h => exact h.elim
  | error h => exact ⟨_, rfl, h⟩

theorem Outcome.fails {Q : α → Prop} {E : Fault → Prop} {r : Except Fault α} (h : Outcome Q E r)
    (hr : ∀ a, r ≠ .ok a) : Outcome (fun _ => False) E r := by
  cases h with
  | ok _ => exact absurd rfl (hr _)
  | error h => exact .error h

theorem Outcome.bind {Q : α → Prop} {R : β → Prop} {E : Fault → Prop} {x : Except Fault α}
    {f : α → Except Fault β} (hx : Outcome Q E x) (hf : ∀ a, Q a → Outcome R E (f a)) :
    Outcome R E (x >>= f) := by
  cases hx with
  | ok h => exact hf _ h
  | error h => exact .error h

theorem Outcome.map {Q : α → Prop} {R : β → Prop} {E : Fault → Prop} {x : Except Fault α} {f : α → β}
    (hx : Outcome Q E x) (hf : ∀ a, Q a → R (f a)) : Outcome R E (x.map f) := by
  cases hx with
  | ok h => exact .ok (hf _ h)
  | error h => exact .error h

/-- Item by item, each value belongs to its item. -/
theorem Outcome.mapM {S : α → β → Prop} {E : Fault → Prop} {f : α → Except Fault β} :
    ∀ {l : List α}, (∀ a ∈ l, Outcome (S a) E (f a)) → Outcome (List.Forall₂ S l) E (l.mapM f)
  | [], _ => .ok .nil
  | a :: l, h => by
    rw [List.mapM_cons]
    refine Outcome.bind (h a (by simp)) fun b hb => ?_
    refine Outcome.bind (Outcome.mapM fun a' ha' => h a' (by simp [ha'])) fun bs hbs => ?_
    exact .ok (.cons hb hbs)

/-- The values are those of the items, one by one. -/
theorem mapM_eq_ok_iff {f : α → Except Fault β} {l : List α} {bs : List β} :
    l.mapM f = .ok bs ↔ List.Forall₂ (fun a b => f a = .ok b) l bs := by
  constructor
  · intro h
    have values := Outcome.mapM fun a (_ : a ∈ l) => Outcome.self (f a)
    rw [h] at values
    exact values.of_ok
  · intro h
    induction h with
    | nil => rfl
    | cons ha _ ih =>
      rw [List.mapM_cons, ha, ih]
      rfl

/-- What every step keeps holds after all of them. -/
theorem Outcome.foldlM {Q : β → Prop} {E : Fault → Prop} {f : β → α → Except Fault β}
    (hf : ∀ b a, Q b → Outcome Q E (f b a)) : ∀ (l : List α) (b : β), Q b → Outcome Q E (l.foldlM f b)
  | [], _, hb => .ok hb
  | a :: l, b, hb => by
    rw [List.foldlM_cons]
    exact Outcome.bind (hf b a hb) fun b' hb' => Outcome.foldlM hf l b' hb'

/-- Each value of a list that belongs to another one item by item belongs to an item. -/
theorem exists_of_forall₂ {S : α → β → Prop} {l : List α} {bs : List β} (h : List.Forall₂ S l bs) :
    ∀ b ∈ bs, ∃ a ∈ l, S a b := by
  induction h with
  | nil => simp
  | cons hb _ ih =>
    intro b' hb'
    rcases List.mem_cons.mp hb' with rfl | hb'
    · exact ⟨_, by simp, hb⟩
    · obtain ⟨a, ha, hab⟩ := ih b' hb'
      exact ⟨a, by simp [ha], hab⟩

namespace Lookup

/-- A lookup of two steps goes on in the state that the first leaves, unless that fails. -/
theorem run_bind (x : Lookup σ α) (f : α → Lookup σ β) (s : σ) :
    (x >>= f).run s =
      match (x.run s).1 with
      | .ok a => (f a).run (x.run s).2
      | .error e => (.error e, (x.run s).2) := by
  show ExceptT.bindCont f (x.run s).1 (x.run s).2 = _
  cases x.run s with
  | mk r t => cases r <;> rfl

/-- Lookups that are the same for each item are the same in turn. -/
theorem mapM_congr {f g : α → Lookup σ β} {l : List α} (h : ∀ a ∈ l, f a = g a) :
    l.mapM f = l.mapM g := by
  induction l with
  | nil => rfl
  | cons a l ih =>
    rw [List.mapM_cons, List.mapM_cons, h a List.mem_cons_self,
      ih fun a' ha' => h a' (List.mem_cons_of_mem a ha')]

/-- In every state of the source, the lookup ends in a value with the one property or in a fault with
the other. -/
def Ends (x : Lookup σ α) (Q : α → Prop) (E : Fault → Prop) : Prop :=
  ∀ s, Outcome Q E (x.run s).1

variable {Q Q' : α → Prop} {R : β → Prop} {E E' : Fault → Prop}

theorem Ends.mono {x : Lookup σ α} (h : x.Ends Q E) (hQ : ∀ a, Q a → Q' a)
    (hE : ∀ e, E e → E' e) : x.Ends Q' E' := fun s => (h s).mono hQ hE

/-- Every lookup ends somehow. -/
theorem Ends.any (x : Lookup σ α) : x.Ends (fun _ => True) (fun _ => True) := fun _ => .any _

/-- What is known of the values alone. -/
theorem Ends.values {x : Lookup σ α} (h : x.Ends Q E) : x.Ends Q (fun _ => True) :=
  h.mono (fun _ => id) fun _ _ => trivial

theorem Ends.pure {a : α} (h : Q a) : (pure a : Lookup σ α).Ends Q E := fun _ => .ok h

theorem Ends.throw {e : Fault} (h : E e) : (throw e : Lookup σ α).Ends Q E := fun _ => .error h

theorem Ends.known {r : Except Fault α} (h : Outcome Q E r) :
    Ends (known r : Lookup σ α) Q E := fun _ => h

/-- The second step starts from a value that the first may end in. -/
theorem Ends.bind {x : Lookup σ α} {f : α → Lookup σ β} (hx : x.Ends Q E)
    (hf : ∀ a, Q a → (f a).Ends R E) : (x >>= f).Ends R E := by
  intro s
  have h := hx s
  rw [run_bind]
  cases hr : (x.run s).1 with
  | ok a =>
    rw [hr] at h
    exact hf a h.of_ok _
  | error e =>
    rw [hr] at h
    exact .error h.of_error

/-- The outcome of a lookup is a value in its own right. -/
theorem Ends.attempt {x : Lookup σ α} (h : x.Ends Q E) : x.attempt.Ends (Outcome Q E) E' :=
  fun s => .ok (h s)

/-- Item by item, each value belongs to its item. -/
theorem Ends.mapM {S : α → β → Prop} {f : α → Lookup σ β} : ∀ {l : List α},
    (∀ a ∈ l, (f a).Ends (S a) E) → (l.mapM f).Ends (List.Forall₂ S l) E
  | [], _ => by
    rw [List.mapM_nil]
    exact .pure .nil
  | a :: l, h => by
    rw [List.mapM_cons]
    refine .bind (h a (by simp)) fun b hb => ?_
    refine .bind (Ends.mapM fun a' ha' => h a' (by simp [ha'])) fun bs hbs => ?_
    exact .pure (.cons hb hbs)

/-- Item by item, where the values have a property that does not depend on the items. -/
theorem Ends.mapM_all {f : α → Lookup σ β} {l : List α} (h : ∀ a ∈ l, (f a).Ends R E) :
    (l.mapM f).Ends (fun bs => ∀ b ∈ bs, R b) E := by
  refine (Ends.mapM (S := fun _ => R) h).mono (fun bs hbs b hb => ?_) fun _ => id
  obtain ⟨_, -, hR⟩ := exists_of_forall₂ hbs b hb
  exact hR

/-- Where no value belongs to one of the items, the lookup fails. -/
theorem Ends.mapM_fails {S : α → β → Prop} {f : α → Lookup σ β} {l : List α}
    (h : ∀ a ∈ l, (f a).Ends (S a) E) {a : α} (ha : a ∈ l)
    (fails : (f a).Ends (fun _ => False) E) : (l.mapM f).Ends (fun _ => False) E := by
  refine (Ends.mapM (S := fun b _ => b ≠ a) fun b hb => ?_).mono (fun bs hbs => ?_) fun _ => id
  · by_cases same : b = a
    · subst same
      exact fails.mono (fun _ => False.elim) fun _ => id
    · exact (h b hb).mono (fun _ _ => same) fun _ => id
  · clear h
    induction hbs with
    | nil => cases ha
    | cons other _ ih =>
      rcases List.mem_cons.mp ha with rfl | ha
      · exact other rfl
      · exact ih ha

/-! ## Values of one run -/

/-- From the one state of the source, the lookup ends in the value and in the other state. -/
def Gives (x : Lookup σ α) (t : σ) (a : α) (u : σ) : Prop := x.run t = (.ok a, u)

/-- From the state of the source, the lookup ends in a fault. -/
def Fails (x : Lookup σ α) (t : σ) : Prop := ∃ e, (x.run t).1 = .error e

variable {γ : Type} {t u v : σ} {a : α} {b : β}

/-- A lookup gives a value or fails. -/
theorem gives_or_fails (x : Lookup σ α) (t : σ) : (∃ a u, x.Gives t a u) ∨ x.Fails t := by
  cases h : (x.run t).1 with
  | ok a => exact .inl ⟨a, _, Prod.ext h rfl⟩
  | error e => exact .inr ⟨e, h⟩

theorem Fails.not_gives {x : Lookup σ α} (h : x.Fails t) : ¬ x.Gives t a u := by
  obtain ⟨e, h⟩ := h
  intro gives
  rw [gives] at h
  cases h

/-- A lookup of two steps gives what the second gives from where the first ends. -/
theorem gives_bind {x : Lookup σ α} {f : α → Lookup σ β} :
    (x >>= f).Gives t b v ↔ ∃ a u, x.Gives t a u ∧ (f a).Gives u b v := by
  unfold Gives
  rw [run_bind]
  constructor
  · intro h
    cases hx : (x.run t).1 with
    | ok a =>
      rw [hx] at h
      exact ⟨a, _, Prod.ext hx rfl, h⟩
    | error e =>
      rw [hx] at h
      cases h
  · rintro ⟨a, u, hx, hf⟩
    rw [hx]
    exact hf

theorem gives_pure {a' : α} : (pure a : Lookup σ α).Gives t a' u ↔ a' = a ∧ u = t := by
  show ((Except.ok a, t) : Except Fault α × σ) = (.ok a', u) ↔ _
  simp [eq_comm]

theorem gives_known {r : Except Fault α} :
    Gives (known r : Lookup σ α) t a u ↔ r = .ok a ∧ u = t := by
  show ((r, t) : Except Fault α × σ) = (.ok a, u) ↔ _
  simp [eq_comm]

theorem gives_throw {e : Fault} :
    Gives (throw e : Lookup σ α) t a u ↔ False := by
  refine ⟨fun h => ?_, False.elim⟩
  cases h

theorem gives_unique {x : Lookup σ α} {a' : α} (h : x.Gives t a u)
    (h' : x.Gives t a' v) : a = a' ∧ u = v := by
  cases h.symm.trans h'
  exact ⟨rfl, rfl⟩

/-- What one lookup gives for each item, another gives with a related value. -/
theorem gives_mapM {f : α → Lookup σ β} {g : α → Lookup σ γ} {S : β → γ → Prop} : ∀ {l : List α}
    (_ : ∀ a ∈ l, ∀ t b u, (f a).Gives t b u → ∃ c, (g a).Gives t c u ∧ S b c) {t u : σ}
    {bs : List β}, (l.mapM f).Gives t bs u →
      ∃ cs, (l.mapM g).Gives t cs u ∧ List.Forall₂ S bs cs
  | [], _, t, u, bs, h => by
    rw [List.mapM_nil, gives_pure] at h
    obtain ⟨rfl, rfl⟩ := h
    exact ⟨[], by rw [List.mapM_nil, gives_pure]; exact ⟨rfl, rfl⟩, .nil⟩
  | a :: l, step, t, u, bs, h => by
    simp only [List.mapM_cons, gives_bind, gives_pure] at h ⊢
    obtain ⟨b, v, hb, bs, w, hbs, rfl, rfl⟩ := h
    obtain ⟨c, hc, hS⟩ := step a (by simp) t b v hb
    obtain ⟨cs, hcs, rest⟩ := gives_mapM (fun a' ha' => step a' (by simp [ha'])) hbs
    exact ⟨c :: cs, ⟨c, v, hc, cs, _, hcs, rfl, rfl⟩, .cons hS rest⟩

/-- What one lookup gives for each item, another gives in another form. -/
theorem gives_mapM_map {f : α → Lookup σ β} {g : α → Lookup σ γ} {form : β → γ} {l : List α}
    (step : ∀ a ∈ l, ∀ t b u, (f a).Gives t b u → (g a).Gives t (form b) u)
    {bs : List β} (h : (l.mapM f).Gives t bs u) : (l.mapM g).Gives t (bs.map form) u := by
  obtain ⟨cs, hcs, same⟩ := gives_mapM (S := fun b c => form b = c)
    (fun a ha t b u hb => ⟨_, step a ha t b u hb, rfl⟩) h
  rw [← List.forall₂_map_left_iff (R := Eq), List.forall₂_eq_eq_eq] at same
  rwa [same]

/-- What is made of each item and its value is made of the values that are given in turn. -/
theorem gives_mapM_zipWith {f : α → Lookup σ β} {form : α → β → γ} : ∀ {l : List α} {t u : σ}
    {cs : List γ}, (l.mapM fun a => do return form a (← f a)).Gives t cs u ↔
      ∃ bs, (l.mapM f).Gives t bs u ∧ cs = List.zipWith form l bs
  | [], t, u, cs => by
    simp only [List.mapM_nil, gives_pure, List.zipWith_nil_left]
    exact ⟨fun h => ⟨[], ⟨rfl, h.2⟩, h.1⟩, fun ⟨_, h, same⟩ => ⟨same, h.2⟩⟩
  | a :: l, t, u, cs => by
    simp only [List.mapM_cons, gives_bind, gives_pure, gives_mapM_zipWith]
    constructor
    · rintro ⟨_, _, ⟨b, v, hb, rfl, rfl⟩, _, w, ⟨bs, hbs, rfl⟩, rfl, rfl⟩
      exact ⟨b :: bs, ⟨b, _, hb, bs, _, hbs, rfl, rfl⟩, rfl⟩
    · rintro ⟨_, ⟨b, v, hb, bs, w, hbs, rfl, rfl⟩, rfl⟩
      exact ⟨_, _, ⟨b, v, hb, rfl, rfl⟩, _, _, ⟨bs, hbs, rfl⟩, rfl, rfl⟩

/-- If a lookup gives a value for each item in turn, it gives one for each of them. -/
theorem exists_gives_of_mapM {f : α → Lookup σ β} : ∀ {l : List α} {t u : σ} {bs : List β},
    (l.mapM f).Gives t bs u → ∀ a ∈ l, ∃ t b u, (f a).Gives t b u
  | [], _, _, _, _, a, ha => by simp at ha
  | a :: l, t, u, bs, h, a', ha' => by
    simp only [List.mapM_cons, gives_bind] at h
    obtain ⟨b, v, hb, bs, w, hbs, -⟩ := h
    rcases List.mem_cons.mp ha' with rfl | ha'
    · exact ⟨t, b, v, hb⟩
    · exact exists_gives_of_mapM hbs a' ha'

/-- The value of a lookup is one that it gives. -/
theorem Ends.gives (x : Lookup σ α) : x.Ends (fun a => ∃ t u, x.Gives t a u) fun _ => True := by
  intro t
  cases h : (x.run t).1 with
  | ok a => exact .ok ⟨t, _, Prod.ext h rfl⟩
  | error e => exact .error trivial

theorem Ends.of_gives {x : Lookup σ α} (h : x.Ends Q E) (given : x.Gives t a u) : Q a := by
  have outcome := h t
  rw [given] at outcome
  exact outcome.of_ok

end Lookup

/-- What is looked up in the snapshot of a source is looked up in the outcome of its reading. -/
theorem SchemaSource.run_current_map (source : SchemaSource σ) (f : Snapshot → α) (t : σ) :
    (do return f (← source.current) : Lookup σ α).run t =
      ((source.snapshot t).1.map f, (source.snapshot t).2) := by
  rw [Lookup.run_bind, show (SchemaSource.current source).run t = source.snapshot t from rfl]
  cases (source.snapshot t).1 <;> rfl

end TableGateway
