import TableGateway.Proofs.CursorParams
import TableGateway.Proofs.TomlRange

/-!
# Bounds of pages

A page of a request has a size within the bounds of the settings, also if that is the default, and its
offset is the exact product of a page's number and size. A window of cursors has a size within the bounds
if the request names it; the default is taken as it is. Main statement: `Limits.pages_bounded`.
-/
namespace TableGateway

/-- The bounds allow pages of the size. -/
def Limits.Allows (limits : Limits) (n : Nat) : Prop := 1 ≤ n ∧ n ≤ limits.maxLimit

instance (limits : Limits) (n : Nat) : Decidable (limits.Allows n) :=
  inferInstanceAs (Decidable (1 ≤ n ∧ n ≤ limits.maxLimit))

/-! ## Pages -/

/-- The number is the one in a parameter, or else what is made of another parameter. -/
def Params.Names (params : Params) (name other : String) (make : Option Nat → Nat) (m : Nat) : Prop :=
  params.size? name = .ok (some m) ∨
    params.size? name = .ok none ∧ ∃ n, params.size? other = .ok n ∧ m = make n

/-- The page is the one that the request asks for: its size is the limit, or else the size, or else the
default; and its offset is the one named, or else the product of the page's number and its size. -/
structure Page.Asked (params : Params) (limits : Limits) (p : Page) : Prop where
  limit : params.Names "limit" "size" (·.getD limits.defaultLimit) p.limit
  offset : params.Names "offset" "page" (·.getD 0 * p.limit) p.offset

/-- Read such a number. -/
def Params.sizeOr (params : Params) (name other : String) (make : Option Nat → Nat) : Except Fault Nat := do
  match ← params.size? name with
  | some n => pure n
  | none => pure (make (← params.size? other))

theorem bind_eq_ok_iff {α β : Type} {x : Except Fault α} {f : α → Except Fault β} {b : β} :
    x >>= f = .ok b ↔ ∃ a, x = .ok a ∧ f a = .ok b := by
  cases x with
  | error e => simp [bind, Except.bind]
  | ok a => simp [bind, Except.bind]

variable {params : Params} {limits : Limits}

theorem Params.sizeOr_eq_ok {name other : String} {make : Option Nat → Nat} {m : Nat} :
    params.sizeOr name other make = .ok m ↔ params.Names name other make m := by
  unfold sizeOr Names
  cases params.size? name with
  | error e => simp [bind, Except.bind]
  | ok n =>
    cases n with
    | some n => simp [bind, Except.bind, pure, Except.pure]
    | none =>
      cases params.size? other with
      | error e => simp [bind, Except.bind]
      | ok n => simp [bind, Except.bind, pure, Except.pure, eq_comm]

namespace Page

variable {p : Page}

def limitOf (params : Params) (limits : Limits) : Except Fault Nat :=
  params.sizeOr "limit" "size" (·.getD limits.defaultLimit)

/-- The offset of the page of a request with a size. -/
def offsetOf (params : Params) (limit : Nat) : Except Fault Nat :=
  params.sizeOr "offset" "page" fun number => min (number.getD 0 * limit) Number.maxSize

/-- A page is settled in two steps, each of which is followed by the check of its bound. -/
theorem ofParams_eq (params : Params) (limits : Limits) : ofParams params limits = (do
    let limit ← limitOf params limits
    if limit = 0 || limits.maxLimit < limit then
      .error (.validation ("limit must be between 1 and " ++ toString limits.maxLimit))
    else do
      let offset ← offsetOf params limit
      if limits.maxOffset < offset then
        .error (.validation ("offset must not exceed " ++ toString limits.maxOffset))
      else .ok { offset, limit }) := by
  unfold ofParams limitOf offsetOf Params.sizeOr
  rcases params.size? "limit" with e | _ | n
  · rfl
  · rcases params.size? "size" with e | size
    · rfl
    · rcases params.size? "offset" with e | _ | m
      · rfl
      · rcases params.size? "page" with e | number <;> rfl
      · rfl
  · rcases params.size? "offset" with e | _ | m
    · rfl
    · rcases params.size? "page" with e | number <;> rfl
    · rfl

theorem ofParams_eq_ok : ofParams params limits = .ok p ↔
    limitOf params limits = .ok p.limit ∧ limits.Allows p.limit ∧
      offsetOf params p.limit = .ok p.offset ∧ p.offset ≤ limits.maxOffset := by
  obtain ⟨offset, limit⟩ := p
  rw [ofParams_eq]
  dsimp only
  constructor
  · intro h
    obtain ⟨limit', size, h⟩ := bind_eq_ok_iff.mp h
    split_ifs at h with outside
    obtain ⟨offset', place, h⟩ := bind_eq_ok_iff.mp h
    split_ifs at h with beyond
    cases h
    simp only [Bool.or_eq_true, decide_eq_true_eq, not_or] at outside
    refine ⟨size, ⟨?_, ?_⟩, place, ?_⟩ <;> omega
  · rintro ⟨size, ⟨positive, most⟩, place, near⟩
    have inside : ¬ ((limit = 0 || limits.maxLimit < limit) = true) := by
      simp only [Bool.or_eq_true, decide_eq_true_eq]
      omega
    refine bind_eq_ok_iff.mpr ⟨limit, size, ?_⟩
    rw [if_neg inside]
    refine bind_eq_ok_iff.mpr ⟨offset, place, ?_⟩
    rw [if_neg (by omega)]

end Page

theorem Params.names_congr {name other : String} {make make' : Option Nat → Nat} {m : Nat}
    (h : ∀ n, m = make n ↔ m = make' n) :
    params.Names name other make m ↔ params.Names name other make' m := by
  unfold Names
  simp only [h]

/-- Under bounds of 64 bits a page is accepted if and only if it is the one asked for and lies within
the bounds. A product that is too great for a word is beyond such bounds. -/
theorem Limits.page_iff (h : limits.Ranged) {p : Page} : Page.ofParams params limits = .ok p ↔
    p.Asked params limits ∧ limits.Allows p.limit ∧ p.offset ≤ limits.maxOffset := by
  have same (near : p.offset ≤ limits.maxOffset) (number : Option Nat) :
      p.offset = min (number.getD 0 * p.limit) Number.maxSize ↔ p.offset = number.getD 0 * p.limit := by
    have := h.maxOffset
    unfold Number.maxInt at this
    unfold Number.maxSize
    omega
  rw [Page.ofParams_eq_ok, Page.limitOf, Page.offsetOf, Params.sizeOr_eq_ok, Params.sizeOr_eq_ok]
  constructor
  · rintro ⟨size, allowed, place, near⟩
    exact ⟨⟨size, (Params.names_congr (same near)).mp place⟩, allowed, near⟩
  · rintro ⟨⟨size, place⟩, allowed, near⟩
    exact ⟨size, allowed, (Params.names_congr (same near)).mpr place, near⟩

/-! ## Windows -/

theorem Params.size?_isSome {name : String} {n : Option Nat} (h : params.size? name = .ok n) :
    n.isSome = (params.first? name).isSome := by
  unfold size? at h
  split at h
  · rename_i absent
    cases h
    rw [absent]
    rfl
  · rename_i given
    split at h
    · cases h
      rw [given]
      rfl
    · cases h

theorem CursorWindow.checkSize_eq_ok {n : Nat} : checkSize limits n = .ok () ↔ limits.Allows n := by
  unfold checkSize Limits.Allows
  by_cases outside : (n = 0 || limits.maxLimit < n) = true
  · rw [if_pos outside]
    simp only [Bool.or_eq_true, decide_eq_true_eq] at outside
    constructor
    · intro h
      cases h
    · intro allowed
      omega
  · rw [if_neg outside]
    simp only [Bool.or_eq_true, decide_eq_true_eq, not_or] at outside
    constructor
    · intro _
      omega
    · intro _
      rfl

/-- A window has an allowed size if and only if the request names one, or the default is allowed. -/
theorem CursorWindow.allows_size_iff {w : CursorWindow} (h : ofParams params limits = .ok w) :
    limits.Allows (w.size limits) ↔
      (params.first? "first").isSome ∨ (params.first? "last").isSome ∨ limits.Allows limits.defaultLimit := by
  obtain ⟨first, last, -, bound, -⟩ := ofParams_eq_ok.mp h
  rw [← Params.size?_isSome first, ← Params.size?_isSome last]
  unfold size
  cases hf : w.first with
  | some n =>
    have allowed := checkSize_eq_ok.mp (bound n (.inl hf))
    simpa using allowed
  | none =>
    cases hl : w.last with
    | some n =>
      have allowed := checkSize_eq_ok.mp (bound n (.inr hl))
      simpa using allowed
    | none => simp

/-! ## Settings -/

/-- With the settings of a file, or the defaults, pages respect all bounds, and so do windows whose size
is named. A window of the default size respects them if and only if that size does. -/
theorem Limits.pages_bounded {file : Option String} {config : Config}
    (loaded : Main.configOf file = .ok config) (params : Params) :
    (∀ p, Page.ofParams params config.limits = .ok p ↔
      p.Asked params config.limits ∧ config.limits.Allows p.limit ∧
        p.offset ≤ config.limits.maxOffset) ∧
    ∀ w, CursorWindow.ofParams params config.limits = .ok w →
      (config.limits.Allows (w.size config.limits) ↔
        (params.first? "first").isSome ∨ (params.first? "last").isSome ∨
          config.limits.Allows config.limits.defaultLimit) := by
  have ranged := Main.configOf_limits loaded
  constructor
  · intro p
    exact page_iff ranged
  · intro w settled
    exact CursorWindow.allows_size_iff settled

/-- Settings that only lower the greatest size of a page. -/
def loweredConfig : Config := { limits := { maxLimit := 10 } }

/-- The fourth page of five rows, or a window of the first four. -/
def pageOrWindow : Params := [("first", ["4"]), ("limit", ["5"]), ("page", ["3"])]

theorem pages_bounded_lowered :
    Main.configOf (some "[limits]\nmax_limit = 10\n") = .ok loweredConfig ∧
    (⟨15, 5⟩ : Page).Asked pageOrWindow loweredConfig.limits ∧ loweredConfig.limits.Allows 5 ∧
    ∃ w, CursorWindow.ofParams pageOrWindow loweredConfig.limits = .ok w ∧
      loweredConfig.limits.Allows (w.size loweredConfig.limits) := by
  have loaded : Main.configOf (some "[limits]\nmax_limit = 10\n") = .ok loweredConfig := by decide +kernel
  obtain ⟨pages, windows⟩ := Limits.pages_bounded loaded pageOrWindow
  obtain ⟨asked, allowed, -⟩ := (pages ⟨15, 5⟩).mp (by decide +kernel)
  have settled : CursorWindow.ofParams pageOrWindow loweredConfig.limits =
      .ok ⟨some 4, none, none, none⟩ := by decide +kernel
  exact ⟨loaded, asked, allowed, _, settled, (windows _ settled).mpr (.inl rfl)⟩

/-- A window that names no size has one that is not allowed. -/
theorem lowered_window_exceeds :
    Main.configOf (some "[limits]\nmax_limit = 10\n") = .ok loweredConfig ∧
    CursorWindow.ofParams [("after", ["MQ=="])] loweredConfig.limits =
      .ok ⟨none, some "MQ==", none, none⟩ ∧
    CursorWindow.size ⟨none, some "MQ==", none, none⟩ loweredConfig.limits = 20 ∧
    ¬ loweredConfig.limits.Allows 20 :=
  ⟨by decide +kernel, by decide +kernel, rfl, by decide⟩

end TableGateway
