import Mathlib.Tactic.Common
import TableGateway.Statement.Key

/-!
# Encodings

Text is read back from its bytes, bytes are read back from their base64, and the text of a cursor is
read back from the cursor. Main statements: `Text.Utf8.decode_encode`, `Text.Base64.decode_encode`,
`Cursor.decode_encode`.
-/
namespace TableGateway

namespace Text

/-! ## White space -/

theorem trimStart_eq_self {cs : List Char} (h : ∀ c ∈ cs, isBlank c = false) : trimStart cs = cs := by
  cases cs with
  | nil => rfl
  | cons c cs => simp [trimStart, List.dropWhile, h c (by simp)]

/-- A text without white space is not trimmed. -/
theorem trim_eq_self {cs : List Char} (h : ∀ c ∈ cs, isBlank c = false) : trim cs = cs := by
  have reversed : trimStart cs.reverse = cs.reverse :=
    trimStart_eq_self fun c hc => h c (List.mem_reverse.mp hc)
  rw [trim, trimStart_eq_self h, trimEnd]
  show (trimStart cs.reverse).reverse = cs
  rw [reversed, List.reverse_reverse]

/-! ## UTF-8 -/

namespace Utf8

theorem encode_cons (c : Char) (cs : List Char) :
    encode (c :: cs) = String.utf8EncodeChar c ++ encode cs := by
  simp [Utf8.encode]

theorem isTail_iff {b : UInt8} : isTail b = true ↔ 0x80 ≤ b.toNat ∧ b.toNat ≤ 0xBF := by
  simp [isTail, UInt8.le_iff_toNat_le]

/-- A second byte is one that continues a character, within the range that the first byte leaves. -/
theorem isSecond_iff {a b : UInt8} : isSecond a b = true ↔
    0x80 ≤ b.toNat ∧ b.toNat ≤ 0xBF ∧ (a.toNat = 0xE0 → 0xA0 ≤ b.toNat) ∧
      (a.toNat = 0xED → b.toNat ≤ 0x9F) ∧ (a.toNat = 0xF0 → 0x90 ≤ b.toNat) ∧
      (a.toNat = 0xF4 → b.toNat ≤ 0x8F) := by
  simp only [isSecond, beq_iff_eq, ← UInt8.toNat_inj]
  by_cases h : a.toNat = 0xE0
  · simp [h, UInt8.le_iff_toNat_le]
    omega
  by_cases h : a.toNat = 0xED
  · simp [h, UInt8.le_iff_toNat_le]
    omega
  by_cases h : a.toNat = 0xF0
  · simp [h, UInt8.le_iff_toNat_le]
    omega
  by_cases h : a.toNat = 0xF4
  · simp [h, UInt8.le_iff_toNat_le]
    omega
  simp [*, isTail_iff]

theorem pieces_one {a : UInt8} (ha : a.toNat < 0x80) (bs : List UInt8) :
    pieces (a :: bs) = .char (Char.ofNat a.toNat) 1 :: pieces bs := by
  rw [pieces.eq_def]
  simp only [if_pos (show a < 0x80 from UInt8.lt_iff_toNat_lt.mpr ha)]

theorem pieces_two {a b : UInt8} (ha : 0xC2 ≤ a.toNat ∧ a.toNat ≤ 0xDF) (hb : isTail b = true)
    (bs : List UInt8) :
    pieces (a :: b :: bs) = .char (Char.ofNat (a.toNat % 32 * 64 + low b)) 2 :: pieces bs := by
  have notOne : ¬ a < 0x80 := by
    rw [UInt8.lt_iff_toNat_lt]
    show ¬ a.toNat < 0x80
    omega
  have two : (decide (0xC2 ≤ a) && decide (a ≤ 0xDF)) = true := by
    simpa [UInt8.le_iff_toNat_le] using ha
  rw [pieces.eq_def]
  simp only [if_neg notOne, two, hb, if_true]

theorem pieces_three {a b c : UInt8} (ha : 0xE0 ≤ a.toNat ∧ a.toNat ≤ 0xEF)
    (hb : isSecond a b = true) (hc : isTail c = true) (bs : List UInt8) :
    pieces (a :: b :: c :: bs) =
      .char (Char.ofNat ((a.toNat % 16 * 64 + low b) * 64 + low c)) 3 :: pieces bs := by
  have notOne : ¬ a < 0x80 := by
    rw [UInt8.lt_iff_toNat_lt]
    show ¬ a.toNat < 0x80
    omega
  have notTwo : ¬ (decide (0xC2 ≤ a) && decide (a ≤ 0xDF)) = true := by
    simp [UInt8.le_iff_toNat_le]
    omega
  have three : (decide (0xE0 ≤ a) && decide (a ≤ 0xEF)) = true := by
    simpa [UInt8.le_iff_toNat_le] using ha
  rw [pieces.eq_def]
  simp only [if_neg notOne, if_neg notTwo, three, hb, hc, if_true]

theorem pieces_four {a b c d : UInt8} (ha : 0xF0 ≤ a.toNat ∧ a.toNat ≤ 0xF4)
    (hb : isSecond a b = true) (hc : isTail c = true) (hd : isTail d = true) (bs : List UInt8) :
    pieces (a :: b :: c :: d :: bs) =
      .char (Char.ofNat (((a.toNat % 8 * 64 + low b) * 64 + low c) * 64 + low d)) 4
        :: pieces bs := by
  have notOne : ¬ a < 0x80 := by
    rw [UInt8.lt_iff_toNat_lt]
    show ¬ a.toNat < 0x80
    omega
  have notTwo : ¬ (decide (0xC2 ≤ a) && decide (a ≤ 0xDF)) = true := by
    simp [UInt8.le_iff_toNat_le]
    omega
  have notThree : ¬ (decide (0xE0 ≤ a) && decide (a ≤ 0xEF)) = true := by
    simp [UInt8.le_iff_toNat_le]
    omega
  have four : (decide (0xF0 ≤ a) && decide (a ≤ 0xF4)) = true := by
    simpa [UInt8.le_iff_toNat_le] using ha
  rw [pieces.eq_def]
  simp only [if_neg notOne, if_neg notTwo, if_neg notThree, four, hb, hc, hd, if_true]

theorem toNat_byte {n : Nat} (h : n < 256) : (UInt8.ofNat n).toNat = n := by
  simpa using h

/-- The bytes of a character are read as the character. -/
theorem pieces_encodeChar (c : Char) (bs : List UInt8) :
    ∃ size, pieces (String.utf8EncodeChar c ++ bs) = .char c size :: pieces bs := by
  have valid : c.toNat < 0xD800 ∨ 0xDFFF < c.toNat ∧ c.toNat < 0x110000 := c.valid
  have same : Char.ofNat c.toNat = c := Char.ofNat_toNat c
  simp only [String.utf8EncodeChar, show c.val.toNat = c.toNat from rfl]
  generalize c.toNat = v at valid same
  by_cases one : v ≤ 127
  · have ha := toNat_byte (show v < 256 by omega)
    rw [if_pos one, List.singleton_append, pieces_one (by omega), ha, same]
    exact ⟨1, rfl⟩
  by_cases two : v ≤ 2047
  · have ha := toNat_byte (show v / 64 % 32 + 192 < 256 by omega)
    have hb := toNat_byte (show v % 64 + 128 < 256 by omega)
    rw [if_neg one, if_pos two, List.cons_append, List.singleton_append,
      pieces_two (by omega) (isTail_iff.mpr (by omega)), low, ha, hb,
      show (v / 64 % 32 + 192) % 32 * 64 + (v % 64 + 128) % 64 = v by omega, same]
    exact ⟨2, rfl⟩
  by_cases three : v ≤ 65535
  · have ha := toNat_byte (show v / 4096 % 16 + 224 < 256 by omega)
    have hb := toNat_byte (show v / 64 % 64 + 128 < 256 by omega)
    have hc := toNat_byte (show v % 64 + 128 < 256 by omega)
    rw [if_neg one, if_neg two, if_pos three, List.cons_append, List.cons_append,
      List.singleton_append, pieces_three (by omega) (isSecond_iff.mpr (by omega))
        (isTail_iff.mpr (by omega)), low, low, ha, hb, hc,
      show ((v / 4096 % 16 + 224) % 16 * 64 + (v / 64 % 64 + 128) % 64) * 64 +
        (v % 64 + 128) % 64 = v by omega, same]
    exact ⟨3, rfl⟩
  · have ha := toNat_byte (show v / 262144 % 8 + 240 < 256 by omega)
    have hb := toNat_byte (show v / 4096 % 64 + 128 < 256 by omega)
    have hc := toNat_byte (show v / 64 % 64 + 128 < 256 by omega)
    have hd := toNat_byte (show v % 64 + 128 < 256 by omega)
    rw [if_neg one, if_neg two, if_neg three, List.cons_append, List.cons_append,
      List.cons_append, List.singleton_append, pieces_four (by omega) (isSecond_iff.mpr (by omega))
        (isTail_iff.mpr (by omega)) (isTail_iff.mpr (by omega)), low, low, low, ha, hb, hc, hd,
      show (((v / 262144 % 8 + 240) % 8 * 64 + (v / 4096 % 64 + 128) % 64) * 64 +
        (v / 64 % 64 + 128) % 64) * 64 + (v % 64 + 128) % 64 = v by omega, same]
    exact ⟨4, rfl⟩

/-- The bytes of a text are read as the text. -/
theorem decode_encode (cs : List Char) : decode (encode cs) = .ok cs := by
  have join : ∀ index, join index (pieces (encode cs)) = .ok cs := by
    induction cs with
    | nil => exact fun _ => rfl
    | cons c cs ih =>
      intro index
      obtain ⟨size, h⟩ := pieces_encodeChar c (encode cs)
      show Utf8.join index (pieces (String.utf8EncodeChar c ++ encode cs)) = _
      rw [h, Utf8.join, ih]
      rfl
  exact join 0

end Utf8

/-! ## Base64 -/

namespace Base64

def code (n : Nat) : UInt8 := UInt8.ofNat (symbol n).toNat

theorem encode_symbol : ∀ n < 64, String.utf8EncodeChar (symbol n) = [code n] := by
  decide

theorem value?_code : ∀ n < 64, value? (code n) = some n := by
  decide

theorem code_ne_pad : ∀ n < 64, code n ≠ pad := by
  decide

theorem not_isBlank_symbol : ∀ n < 64, isBlank (symbol n) = false := by
  decide

/-- The numbers of the symbols that stand for some bytes. -/
def sextets : List UInt8 → List Nat
  | [] => []
  | [a] => [a.toNat * 65536 / 262144, a.toNat * 65536 / 4096 % 64]
  | [a, b] =>
    let n := a.toNat * 65536 + b.toNat * 256
    [n / 262144, n / 4096 % 64, n / 64 % 64]
  | a :: b :: c :: rest =>
    let n := a.toNat * 65536 + b.toNat * 256 + c.toNat
    n / 262144 :: n / 4096 % 64 :: n / 64 % 64 :: n % 64 :: sextets rest

/-- The number of padding bytes behind the symbols. -/
def paddingOf (bs : List UInt8) : Nat := (3 - bs.length % 3) % 3

theorem sextets_lt : ∀ {bs : List UInt8}, ∀ n ∈ sextets bs, n < 64
  | [] => by simp [sextets]
  | [a] => by
    have := a.toNat_lt
    simp [sextets]
    omega
  | [a, b] => by
    have := a.toNat_lt
    have := b.toNat_lt
    simp [sextets]
    omega
  | a :: b :: c :: rest => by
    have := a.toNat_lt
    have := b.toNat_lt
    have := c.toNat_lt
    simp only [sextets, List.mem_cons]
    rintro n (rfl | rfl | rfl | rfl | hn)
    · omega
    · omega
    · omega
    · omega
    · exact sextets_lt n hn

theorem length_sextets : ∀ bs : List UInt8, ((sextets bs).length + paddingOf bs) % 4 = 0
  | [] => rfl
  | [_] => by simp [sextets, paddingOf]
  | [_, _] => by simp [sextets, paddingOf]
  | _ :: _ :: _ :: rest => by
    have := length_sextets rest
    simp only [sextets, paddingOf, List.length_cons] at this ⊢
    omega

theorem encode_eq : ∀ bs : List UInt8,
    encode bs = (sextets bs).map symbol ++ List.replicate (paddingOf bs) '='
  | [] => rfl
  | [_] => by simp [encode, sextets, paddingOf, List.replicate]
  | [_, _] => by simp [encode, sextets, paddingOf]
  | a :: b :: c :: rest => by
    have same : paddingOf (a :: b :: c :: rest) = paddingOf rest := by
      simp only [paddingOf, List.length_cons]
      omega
    rw [encode, sextets, encode_eq rest, same]
    simp

/-- The bytes of an encoded text. -/
theorem encode_bytes (bs : List UInt8) :
    Utf8.encode (encode bs) = (sextets bs).map code ++ List.replicate (paddingOf bs) pad := by
  have symbols : ∀ ns : List Nat, (∀ n ∈ ns, n < 64) →
      Utf8.encode (ns.map symbol) = ns.map code := by
    intro ns h
    induction ns with
    | nil => rfl
    | cons n ns ih =>
      rw [List.map_cons, Utf8.encode_cons, encode_symbol n (h n (by simp)),
        ih fun m hm => h m (by simp [hm])]
      rfl
  have padding : Utf8.encode (List.replicate (paddingOf bs) '=') =
      List.replicate (paddingOf bs) pad := by
    simp only [Utf8.encode, List.flatMap_replicate, show String.utf8EncodeChar '=' = [pad] from rfl]
    simp
  rw [encode_eq, Utf8.encode, List.flatMap_append]
  exact congrArg₂ _ (symbols _ sextets_lt) padding

/-- Symbols are read with their values. -/
theorem symbols_codes (bs : List UInt8) : ∀ {ns : List Nat} {offset : Nat}, (∀ n ∈ ns, n < 64) →
    symbols offset (ns.map code ++ bs) =
      (symbols (offset + ns.length) bs).map fun (vs, m) => (ns.map (fun n => (code n, n)) ++ vs, m)
  | [], offset, _ => by
    cases h : symbols offset bs <;> simp [h, Except.map]
  | n :: ns, offset, h => by
    have hn : n < 64 := h n (by simp)
    rw [List.map_cons, List.cons_append, symbols, if_neg (code_ne_pad n hn), value?_code n hn,
      symbols_codes bs fun m hm => h m (by simp [hm]), List.length_cons,
      Nat.add_right_comm, Nat.add_assoc]
    cases symbols (offset + (ns.length + 1)) bs <;> rfl

/-- Padding that completes a group is read as such. -/
theorem symbols_pads {offset padding : Nat} (h : (offset + padding) % 4 = 0) (le : padding ≤ 2) :
    symbols offset (List.replicate padding pad) = .ok ([], padding) := by
  match padding, le with
  | 0, _ => rfl
  | 1, _ => simp [symbols, show offset % 4 = 3 by omega]
  | 2, _ => simp [symbols, show offset % 4 = 2 by omega]

theorem unpack_sextets : ∀ bs : List UInt8, unpack (sextets bs) = bs
  | [] => rfl
  | [a] => by
    have ha := a.toNat_lt
    have first : (a.toNat * 65536 / 262144 * 64 + a.toNat * 65536 / 4096 % 64) / 16 = a.toNat := by
      omega
    simp only [sextets, unpack, first, UInt8.ofNat_toNat]
  | [a, b] => by
    have ha := a.toNat_lt
    have hb := b.toNat_lt
    generalize hn : a.toNat * 65536 + b.toNat * 256 = n
    have first : ((n / 262144 * 64 + n / 4096 % 64) * 64 + n / 64 % 64) / 1024 = a.toNat := by omega
    have second : ((n / 262144 * 64 + n / 4096 % 64) * 64 + n / 64 % 64) / 4 % 256 = b.toNat := by
      omega
    simp only [sextets, hn, unpack, first, second, UInt8.ofNat_toNat]
  | a :: b :: c :: rest => by
    have ha := a.toNat_lt
    have hb := b.toNat_lt
    have hc := c.toNat_lt
    generalize hn : a.toNat * 65536 + b.toNat * 256 + c.toNat = n
    have whole : ((n / 262144 * 64 + n / 4096 % 64) * 64 + n / 64 % 64) * 64 + n % 64 = n := by omega
    have first : n / 65536 = a.toNat := by omega
    have second : n / 256 % 256 = b.toNat := by omega
    have third : n % 256 = c.toNat := by omega
    simp only [sextets, hn, unpack, whole, first, second, third, UInt8.ofNat_toNat,
      unpack_sextets rest]

/-- The symbols of some bytes hold nothing beyond the bytes. -/
theorem spare_sextets : ∀ (bs : List UInt8) (n : Nat), (sextets bs).getLast? = some n →
    spare (sextets bs).length n = 0
  | [], _, h => by simp [sextets] at h
  | [a], n, h => by
    have last : ∀ k m : Nat, [k, m].getLast? = some n → m = n := by simp
    have two : spare (sextets [a]).length n = n % 16 := by simp [sextets, spare]
    rw [sextets] at h
    have := last _ _ h
    omega
  | [a, b], n, h => by
    have last : ∀ k l m : Nat, [k, l, m].getLast? = some n → m = n := by simp
    have three : spare (sextets [a, b]).length n = n % 4 := by simp [sextets, spare]
    rw [sextets] at h
    have := last _ _ _ h
    omega
  | a :: b :: c :: rest, n, h => by
    have size : (sextets (a :: b :: c :: rest)).length % 4 = (sextets rest).length % 4 := by
      simp only [sextets, List.length_cons]
      omega
    cases hs : sextets rest with
    | nil => simp [sextets, spare, hs]
    | cons m ms =>
      have last : (sextets rest).getLast? = some n := by
        simpa only [sextets, hs, List.getLast?_cons_cons] using h
      have := spare_sextets rest n last
      simpa only [spare, size] using this

/-- An encoded text decodes to the bytes that were encoded. -/
theorem decode_encode (bs : List UInt8) : decode (Utf8.encode (encode bs)) = .ok bs := by
  have whole := length_sextets bs
  have le : paddingOf bs ≤ 2 := by
    unfold paddingOf
    omega
  have length : (Utf8.encode (encode bs)).length % 4 ≠ 1 := by
    rw [encode_bytes]
    simp
    omega
  have read : symbols 0 (Utf8.encode (encode bs)) =
      .ok ((sextets bs).map (fun n => (code n, n)), paddingOf bs) := by
    rw [encode_bytes, symbols_codes _ sextets_lt, symbols_pads (by omega) le]
    simp [Except.map]
  have values : ((sextets bs).map fun n => (code n, n)).map (·.2) = sextets bs := by
    simp [Function.comp_def]
  unfold decode
  rw [if_neg length, read]
  simp only [List.length_map, ne_eq, whole, not_true_eq_false, if_false, List.getLast?_map, values,
    unpack_sextets]
  cases hs : (sextets bs).getLast? with
  | none =>
    have none : bs = [] := by
      rw [← unpack_sextets bs, List.getLast?_eq_none_iff.mp hs]
      rfl
    simp [none]
  | some n => simp [spare_sextets bs n hs]

/-- There is no white space in base64. -/
theorem encode_not_isBlank (bs : List UInt8) : ∀ c ∈ encode bs, isBlank c = false := by
  intro c hc
  rw [encode_eq, List.mem_append, List.mem_map, List.mem_replicate] at hc
  rcases hc with ⟨n, hn, rfl⟩ | ⟨-, rfl⟩
  · exact not_isBlank_symbol n (sextets_lt n hn)
  · decide

end Base64

end Text

/-! ## Cursors -/

/-- The text of a cursor is the one that was encoded. -/
theorem Cursor.decode_encode (raw : String) : decode (encode raw) = .ok raw := by
  simp only [decode, encode, String.toList_ofList,
    Text.trim_eq_self (Text.Base64.encode_not_isBlank _), Text.Base64.decode_encode, Text.Utf8.bytes,
    Text.Utf8.decode_encode, String.ofList_toList]

end TableGateway
