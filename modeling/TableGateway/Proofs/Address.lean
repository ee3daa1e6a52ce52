import TableGateway.Network
import TableGateway.Proofs.ReadBack

/-!
# Addresses hold no white space

Every character of a valid network address is a digit in base ten or sixteen or one of the signs between
the digits, so that trimming leaves the address as it is. Main statement: `Network.trimmed_of_isValid`.
-/
namespace TableGateway

theorem Text.Hex.not_isBlank_of_value? {c : Char} (h : (value? c).isSome = true) :
    isBlank c = false := by
  have range : 48 ≤ c.toNat ∧ c.toNat ≤ 57 ∨ 97 ≤ c.toNat ∧ c.toNat ≤ 102 ∨
      65 ≤ c.toNat ∧ c.toNat ≤ 70 := by
    simp only [value?, Bool.and_eq_true, decide_eq_true_eq, Char.le_def, UInt32.le_iff_toNat_le] at h
    split at h
    · exact .inl ‹_›
    · split at h
      · exact .inr (.inl ‹_›)
      · split at h
        · exact .inr (.inr ‹_›)
        · cases h
  simp [isBlank]
  omega

namespace Network

open Text (isBlank)

/-- What holds of a separator and of all the parts between it holds of the text. -/
theorem forall_of_splitOn {P : Char → Prop} {sep : Char} {cs : List Char} (hsep : P sep)
    (h : ∀ part ∈ cs.splitOn sep, ∀ c ∈ part, P c) : ∀ c ∈ cs, P c := by
  have joined : ∀ parts : List (List Char), (∀ part ∈ parts, ∀ c ∈ part, P c) →
      ∀ c ∈ [sep].intercalate parts, P c := by
    intro parts
    induction parts with
    | nil => simp
    | cons part parts ih =>
      intro h c hc
      cases parts with
      | nil => exact h part (by simp) c (by simpa using hc)
      | cons next parts =>
        rw [List.intercalate_cons_cons, List.append_assoc, List.mem_append, List.mem_append,
          List.mem_singleton] at hc
        rcases hc with hc | rfl | hc
        · exact h part (by simp) c hc
        · exact hsep
        · exact ih (fun other hother => h other (by simp [hother])) c hc
  have rejoined := joined (cs.splitOn sep) h
  rwa [List.intercalate_splitOn] at rejoined

theorem digits?_not_isBlank {cs : List Char} {n : Nat} (h : Number.digits? cs = some n) :
    ∀ c ∈ cs, isBlank c = false := by
  unfold Number.digits? at h
  split at h
  · cases h
  · rename_i digits
    simp only [Bool.or_eq_true, Bool.not_eq_true', not_or, Bool.not_eq_false, List.all_eq_true] at digits
    exact fun c hc => Number.not_isBlank_of_isDigit (digits.2 c hc)

theorem readNat?_not_isBlank {most : Nat} {cs : List Char} (h : (Number.readNat? most cs).isSome = true) :
    ∀ c ∈ cs, isBlank c = false := by
  unfold Number.readNat? at h
  simp only at h
  split at h
  · rename_i rest
    obtain ⟨n, hn⟩ := Option.isSome_iff_exists.mp h
    obtain ⟨m, digits, -⟩ := Option.bind_eq_some_iff.mp hn
    simpa using ⟨by decide, digits?_not_isBlank digits⟩
  · obtain ⟨n, hn⟩ := Option.isSome_iff_exists.mp h
    obtain ⟨m, digits, -⟩ := Option.bind_eq_some_iff.mp hn
    exact digits?_not_isBlank digits

theorem isV4_not_isBlank {cs : List Char} (h : isV4 cs = true) : ∀ c ∈ cs, isBlank c = false := by
  simp only [isV4, Bool.and_eq_true, List.all_eq_true] at h
  have dot : isBlank '.' = false := by decide
  refine forall_of_splitOn dot fun part hpart => ?_
  have octet := h.2 part hpart
  simp only [isOctet, Bool.and_eq_true, Option.any_eq_true] at octet
  obtain ⟨n, digits, -⟩ := octet.2
  exact digits?_not_isBlank digits

theorem isGroup_not_isBlank {cs : List Char} (h : isGroup cs = true) :
    ∀ c ∈ cs, isBlank c = false := by
  simp only [isGroup, Bool.and_eq_true, List.all_eq_true] at h
  exact fun c hc => Text.Hex.not_isBlank_of_value? (h.2 c hc)

theorem groups?_not_isBlank {dotted : Bool} : ∀ {parts : List (List Char)} {n : Nat},
    groups? dotted parts = some n → ∀ part ∈ parts, ∀ c ∈ part, isBlank c = false
  | [], _, _ => by simp
  | [last], n, h => by
    rw [groups?] at h
    intro part hpart
    rw [List.mem_singleton.mp hpart]
    split at h
    · exact isGroup_not_isBlank ‹_›
    · split at h
      · rename_i v4
        exact isV4_not_isBlank (Bool.and_eq_true_iff.mp v4).2
      · cases h
  | part :: next :: rest, n, h => by
    rw [groups?] at h
    · split at h
      · obtain ⟨m, hm, -⟩ := Option.map_eq_some_iff.mp h
        intro other hother
        rcases List.mem_cons.mp hother with rfl | hother
        · exact isGroup_not_isBlank ‹_›
        · exact groups?_not_isBlank hm other hother
      · cases h
    · simp

theorem groupsOf?_not_isBlank {dotted : Bool} {cs : List Char} {n : Nat}
    (h : groupsOf? dotted cs = some n) : ∀ c ∈ cs, isBlank c = false := by
  unfold groupsOf? at h
  split at h
  · rename_i nil
    simp [List.isEmpty_iff.mp nil]
  · exact forall_of_splitOn (by decide) (groups?_not_isBlank h)

/-- The two parts of a text stand before and after its first double colon. -/
theorem cutGap?_eq_some : ∀ {cs a b : List Char}, cutGap? cs = some (a, b) → cs = a ++ ':' :: ':' :: b
  | [], _, _, h => by simp [cutGap?] at h
  | c :: cs, a, b, h => by
    unfold cutGap? at h
    split at h
    · rename_i heq
      cases h
      simp [heq]
    · rename_i heq
      obtain ⟨rfl, rfl⟩ := List.cons.inj heq
      obtain ⟨⟨front, back⟩, cut, same⟩ := Option.map_eq_some_iff.mp h
      cases same
      rw [cutGap?_eq_some cut, List.cons_append]
    · cases h

theorem isV6_not_isBlank {cs : List Char} (h : isV6 cs = true) : ∀ c ∈ cs, isBlank c = false := by
  unfold isV6 at h
  split at h
  · exact groupsOf?_not_isBlank (beq_iff_eq.mp h)
  · rename_i front back cut
    split at h
    · rename_i m n hfront hback
      rw [cutGap?_eq_some cut]
      intro c hc
      simp only [List.mem_append, List.mem_cons] at hc
      rcases hc with hc | rfl | rfl | hc
      · exact groupsOf?_not_isBlank hfront c hc
      · decide
      · decide
      · exact groupsOf?_not_isBlank hback c hc
    · cases h

theorem isInternet_not_isBlank {cs : List Char} (h : isInternet cs = true) :
    ∀ c ∈ cs, isBlank c = false := by
  unfold isInternet at h
  split at h
  rename_i address mask found
  dsimp only at h
  have parts : (∀ c ∈ address, isBlank c = false) ∧
      ∀ m, mask = some m → ∀ c ∈ m, isBlank c = false := by
    split at h
    · refine ⟨isV4_not_isBlank ‹_›, ?_⟩
      rintro m rfl
      exact readNat?_not_isBlank h
    · rw [Bool.and_eq_true] at h
      refine ⟨isV6_not_isBlank h.1, ?_⟩
      rintro m rfl
      exact readNat?_not_isBlank h.2
  split at found
  · rename_i a b cut
    cases found
    rw [(Text.cut?_eq_some cut).1]
    intro c hc
    rw [List.mem_append, List.mem_cons] at hc
    rcases hc with hc | rfl | hc
    · exact parts.1 c hc
    · decide
    · exact parts.2 _ rfl c hc
  · cases found
    exact parts.1

theorem isPairs_not_isBlank : ∀ {count : Nat} {cs : List Char}, isPairs count cs = true →
    ∀ c ∈ cs, isBlank c = false
  | 0, _, h => by simp [isPairs] at h
  | count + 1, cs, h => by
    unfold isPairs at h
    split at h
    · cases h
    · simp only [Bool.and_eq_true] at h
      simpa using ⟨Text.Hex.not_isBlank_of_value? h.1, Text.Hex.not_isBlank_of_value? h.2⟩
    · rename_i a b sign rest same
      simp only [Bool.and_eq_true, Bool.or_eq_true, beq_iff_eq] at h
      obtain ⟨⟨⟨ha, hb⟩, hsign⟩, hrest⟩ := h
      rw [← Nat.succ.inj same] at hrest
      intro c hc
      simp only [List.mem_cons] at hc
      rcases hc with rfl | rfl | rfl | hc
      · exact Text.Hex.not_isBlank_of_value? ha
      · exact Text.Hex.not_isBlank_of_value? hb
      · rcases hsign with rfl | rfl <;> decide
      · exact isPairs_not_isBlank hrest c hc
    · cases h

/-- An address is not trimmed. -/
theorem trimmed_of_isValid {kind : Kind} {s : String} (h : isValid kind s = true) :
    Text.trimmed s = s := by
  have solid : ∀ c ∈ s.toList, isBlank c = false := by
    cases kind with
    | inet => exact isInternet_not_isBlank h
    | cidr => exact isInternet_not_isBlank h
    | macaddr => exact isPairs_not_isBlank h
    | macaddr8 =>
      rcases Bool.or_eq_true_iff.mp h with h | h
      · exact isPairs_not_isBlank h
      · exact isPairs_not_isBlank h
  rw [Text.trimmed, Text.trim_eq_self solid, String.ofList_toList]

end Network
end TableGateway
