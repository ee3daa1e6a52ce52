import TableGateway.Proofs.Encoding

/-!
# White space around texts

A text is its trimmed form with white space on either side, and white space that is put there changes
nothing of it. Main statements: `Text.trim_eq_self_iff`, `Text.trim_append_blank`.
-/
namespace TableGateway.Text

def Blank (ws : List Char) : Prop := ∀ c ∈ ws, isBlank c = true

variable {ws cs : List Char}

theorem Blank.nil : Blank [] := nofun

theorem Blank.append {vs : List Char} (hv : Blank vs) (hw : Blank ws) : Blank (vs ++ ws) :=
  fun c hc => (List.mem_append.mp hc).elim (hv c) (hw c)

theorem blank_reverse : Blank ws.reverse ↔ Blank ws := by
  simp [Blank]

/-! ## Before a text -/

theorem trimStart_blank_append (h : Blank ws) (cs : List Char) : trimStart (ws ++ cs) = trimStart cs := by
  rw [trimStart, List.dropWhile_append_of_pos h]
  rfl

theorem trimStart_cons {c : Char} (h : isBlank c = false) (cs : List Char) :
    trimStart (c :: cs) = c :: cs := by
  simp [trimStart, h]

/-- White space is dropped as far as the first character that is none. -/
theorem trimStart_append_cons {c : Char} (h : isBlank c = false) (as bs : List Char) :
    trimStart (as ++ c :: bs) = trimStart as ++ c :: bs := by
  induction as with
  | nil => exact trimStart_cons h bs
  | cons a as ih =>
    by_cases blank : isBlank a = true
    · simpa [trimStart, blank] using ih
    · simp [trimStart, blank]

theorem exists_trimStart (cs : List Char) : ∃ ws, Blank ws ∧ cs = ws ++ trimStart cs :=
  ⟨cs.takeWhile isBlank, fun _ hc => List.all_eq_true.mp List.all_takeWhile _ hc,
    List.takeWhile_append_dropWhile.symm⟩

/-- What is left begins with no white space. -/
theorem head?_trimStart (cs : List Char) {c : Char} (h : (trimStart cs).head? = some c) : isBlank c = false := by
  have first := List.head?_dropWhile_not isBlank cs
  rw [trimStart] at h
  rw [h] at first
  simpa using first

theorem trimStart_eq_self_iff : trimStart cs = cs ↔ ∀ c, cs.head? = some c → isBlank c = false := by
  constructor
  · intro h c hc
    exact head?_trimStart cs (by rwa [h])
  · intro h
    cases cs with
    | nil => rfl
    | cons c cs => exact trimStart_cons (h c rfl) cs

theorem trimStart_trimStart (cs : List Char) : trimStart (trimStart cs) = trimStart cs :=
  trimStart_eq_self_iff.mpr fun _ => head?_trimStart cs

/-! ## Behind a text -/

theorem trimEnd_append_blank (h : Blank ws) (cs : List Char) : trimEnd (cs ++ ws) = trimEnd cs := by
  rw [trimEnd, List.reverse_append, List.dropWhile_append_of_pos (blank_reverse.mpr h)]
  rfl

theorem trimEnd_append_cons {c : Char} (h : isBlank c = false) (as bs : List Char) :
    trimEnd (as ++ c :: bs) = as ++ c :: trimEnd bs := by
  have turned := trimStart_append_cons h bs.reverse as.reverse
  rw [trimEnd, trimEnd, List.reverse_append, List.reverse_cons, List.append_assoc, List.singleton_append]
  rw [trimStart, trimStart] at turned
  rw [turned]
  simp

theorem exists_trimEnd (cs : List Char) : ∃ ws, Blank ws ∧ cs = trimEnd cs ++ ws := by
  obtain ⟨ws, blank, split⟩ := exists_trimStart cs.reverse
  refine ⟨ws.reverse, blank_reverse.mpr blank, ?_⟩
  have reversed := congrArg List.reverse split
  rw [List.reverse_reverse, List.reverse_append] at reversed
  exact reversed

theorem trimEnd_eq_self_iff : trimEnd cs = cs ↔ ∀ c, cs.getLast? = some c → isBlank c = false := by
  have turned : trimEnd cs = cs ↔ trimStart cs.reverse = cs.reverse := by
    rw [trimEnd, List.reverse_eq_iff]
    exact Iff.rfl
  rw [turned, trimStart_eq_self_iff]
  simp [List.head?_reverse]

/-! ## Around a text -/

theorem trim_blank_append (h : Blank ws) (cs : List Char) : trim (ws ++ cs) = trim cs := by
  rw [trim, trimStart_blank_append h, trim]

theorem trim_blank (h : Blank ws) : trim ws = [] := by
  have := trim_blank_append h []
  rwa [List.append_nil] at this

theorem trim_append_blank (h : Blank ws) (cs : List Char) : trim (cs ++ ws) = trim cs := by
  obtain ⟨vs, blank, split⟩ := exists_trimStart cs
  cases rest : trimStart cs with
  | nil =>
    rw [rest, List.append_nil] at split
    rw [split, trim_blank (blank.append h), trim_blank blank]
  | cons c rest' =>
    have first : isBlank c = false := head?_trimStart cs (by rw [rest]; rfl)
    rw [rest] at split
    rw [split, List.append_assoc, trim_blank_append blank, trim_blank_append blank, trim,
      List.cons_append, trimStart_cons first, ← List.cons_append, trimEnd_append_blank h, trim,
      trimStart_cons first]

theorem exists_trim (cs : List Char) :
    ∃ vs ws, Blank vs ∧ Blank ws ∧ cs = vs ++ trim cs ++ ws := by
  obtain ⟨vs, before, start⟩ := exists_trimStart cs
  obtain ⟨ws, behind, rest⟩ := exists_trimEnd (trimStart cs)
  refine ⟨vs, ws, before, behind, ?_⟩
  rw [trim, List.append_assoc, ← rest]
  exact start

theorem trim_eq_nil_iff : trim cs = [] ↔ Blank cs := by
  refine ⟨fun h => ?_, trim_blank⟩
  obtain ⟨vs, ws, before, behind, split⟩ := exists_trim cs
  rw [h, List.append_nil] at split
  exact split ▸ before.append behind

theorem mem_of_mem_trim {c : Char} (h : c ∈ trim cs) : c ∈ cs := by
  obtain ⟨vs, ws, -, -, split⟩ := exists_trim cs
  rw [split]
  simp [h]

/-- A text that begins with no white space begins the same when trimmed. -/
theorem head?_trim {c : Char} (h : cs.head? = some c) (hc : isBlank c = false) :
    (trim cs).head? = some c := by
  obtain ⟨ds, rfl⟩ := List.head?_eq_some_iff.mp h
  obtain ⟨ws, blank, split⟩ := exists_trimEnd (c :: ds)
  rw [trim, trimStart_cons hc]
  cases kept : trimEnd (c :: ds) with
  | nil =>
    rw [kept, List.nil_append] at split
    have := blank c (split ▸ List.mem_cons_self)
    rw [hc] at this
    cases this
  | cons d rest =>
    rw [kept, List.cons_append] at split
    rw [(List.cons.inj split).1]
    rfl

theorem trim_eq_self_iff : trim cs = cs ↔
    (∀ c, cs.head? = some c → isBlank c = false) ∧ ∀ c, cs.getLast? = some c → isBlank c = false := by
  rw [← trimStart_eq_self_iff, ← trimEnd_eq_self_iff]
  constructor
  · intro h
    -- Trimming drops nothing on one side if it drops nothing in all.
    have start : trimStart cs = cs := by
      refine (List.dropWhile_suffix isBlank).eq_of_length (Nat.le_antisymm (length_trimStart_le cs) ?_)
      have shorter := length_trimEnd_le (trimStart cs)
      rwa [← trim, h] at shorter
    refine ⟨start, ?_⟩
    rwa [trim, start] at h
  · rintro ⟨start, rest⟩
    rw [trim, start, rest]

/-- Around a character that is no white space, each side is trimmed by itself. -/
theorem trim_append_cons {c : Char} (h : isBlank c = false) (as bs : List Char) :
    trim (as ++ c :: bs) = trimStart as ++ c :: trimEnd bs := by
  rw [trim, trimStart_append_cons h, trimEnd_append_cons h]

theorem trim_trimStart (cs : List Char) : trim (trimStart cs) = trim cs := by
  rw [trim, trimStart_trimStart, trim]

theorem trim_trimEnd (cs : List Char) : trim (trimEnd cs) = trim cs := by
  obtain ⟨ws, blank, split⟩ := exists_trimEnd cs
  conv_rhs => rw [split, trim_append_blank blank]

/-- A text between two characters that are no white space has none around it. -/
theorem trim_enclosed {opening closing : Char} (first : isBlank opening = false)
    (last : isBlank closing = false) (cs : List Char) :
    trim (opening :: cs ++ [closing]) = opening :: cs ++ [closing] := by
  have front : trimStart (opening :: cs) = opening :: cs := trimStart_cons first cs
  rw [trim_append_cons last, front]
  rfl

theorem trim_trim (cs : List Char) : trim (trim cs) = trim cs := by
  obtain ⟨vs, ws, before, behind, split⟩ := exists_trim cs
  conv_rhs => rw [split, List.append_assoc, trim_blank_append before, trim_append_blank behind]

end TableGateway.Text
