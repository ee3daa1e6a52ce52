import Mathlib.Algebra.Ring.Nat
import Mathlib.Data.List.TakeWhile
import TableGateway.Proofs.ReadBack
import TableGateway.Proofs.Trimming

/-!
# Dates and times read back from their texts

What a printer writes is read field by field: each reader takes its digits and leaves what comes next, if that
does not begin with a digit. A whole text is then read by the one pattern that it was written by, and every
pattern that is tried before it stops short of the end, or before a field that is not there.

Leap seconds are told by their texts only at the end of a minute, where the second is the sixtieth. Any other
one is written like the second after it, and read as that: a text gives a time in its normal form. Main
statements: `Clock.read?_chars`, `Timestamp.read?_date`, `Timestamp.read?_chars`,
`Timestamp.read?_zonedChars`, `Timestamp.readZoned?_zonedChars`.
-/
namespace TableGateway

namespace Number

/-! ## Numbers of fixed width -/

theorem padded_digits {width n : Nat} : ∀ c ∈ padded width n, isDigit c = true := by
  intro c hc
  rcases List.mem_append.mp hc with zero | digit
  · rw [(List.mem_replicate.mp zero).2]
    decide
  · exact natText_digits c digit

theorem padded_ne_nil (width n : Nat) : padded width n ≠ [] := by
  simp [padded, natText, Nat.toDigits_ne_nil]

/-- Leading zeros do not count. -/
theorem ofDigits_padded (width n : Nat) : ofDigits (padded width n) = n := by
  have value : Nat.ofDigitChars 10 (natText n) 0 = n := Nat.ofDigitChars_ten_toDigits
  rw [ofDigits, padded, Nat.ofDigitChars_append, Nat.ofDigitChars_replicate_zero, Nat.mul_zero, value]

theorem length_padded {width n : Nat} (positive : 0 < width) (fits : n < 10 ^ width) :
    (padded width n).length = width := by
  have short : (natText n).length ≤ width :=
    (Nat.length_toDigits_le_iff (by decide) positive).mpr fits
  simp [padded]
  omega

end Number

namespace Calendar

open Number (isDigit ofDigits padded padded_digits padded_ne_nil ofDigits_padded length_padded)
open Text (trimStart)

/-- The text does not begin with a digit. -/
def NoDigit (rest : List Char) : Prop := ∀ c, rest.head? = some c → isDigit c = false

@[simp] theorem noDigit_nil : NoDigit [] := nofun

@[simp] theorem noDigit_cons {c : Char} {rest : List Char} : NoDigit (c :: rest) ↔ isDigit c = false := by
  simp [NoDigit]

variable {ds rest : List Char} {most width n : Nat}

theorem NoDigit.takeWhile (h : NoDigit rest) (n : Nat) : (rest.take n).takeWhile isDigit = [] := by
  cases rest with
  | nil => simp
  | cons c rest => cases n <;> simp [noDigit_cons.mp h]

theorem NoDigit.dropWhile (h : NoDigit rest) : rest.dropWhile isDigit = rest := by
  cases rest with
  | nil => rfl
  | cons c rest => simp [noDigit_cons.mp h]

/-- Digits are read up to where they end, or as many as are allowed. -/
theorem digitsUpTo_append (digits : ∀ c ∈ ds, isDigit c = true) (any : ds ≠ [])
    (ends : ds.length = most ∨ ds.length ≤ most ∧ NoDigit rest) :
    digitsUpTo most (ds ++ rest) = some (ofDigits ds, rest) := by
  have read : ((ds ++ rest).take most).takeWhile isDigit = ds := by
    rcases ends with rfl | ⟨short, stops⟩
    · rw [List.take_left' rfl]
      exact List.takeWhile_eq_self_iff.mpr digits
    · rw [List.take_append, List.take_of_length_le short, List.takeWhile_append_of_pos digits,
        stops.takeWhile, List.append_nil]
  simp [digitsUpTo, read, any]

theorem digitsUpTo_padded (positive : 0 < width) (fits : n < 10 ^ width) (rest : List Char) :
    digitsUpTo width (padded width n ++ rest) = some (n, rest) := by
  rw [digitsUpTo_append padded_digits (padded_ne_nil _ _) (.inl (length_padded positive fits)),
    ofDigits_padded]

theorem digitsExactly_padded (positive : 0 < width) (fits : n < 10 ^ width) (rest : List Char) :
    digitsExactly width (padded width n ++ rest) = some (n, rest) := by
  have length := length_padded positive fits
  have digits : (padded width n).all isDigit = true := List.all_eq_true.mpr padded_digits
  simp [digitsExactly, List.take_left' length, List.drop_left' length, length, digits, ofDigits_padded]

theorem exists_padded_cons (width n : Nat) : ∃ c cs, padded width n = c :: cs ∧ isDigit c = true := by
  obtain ⟨c, cs, split⟩ := List.exists_cons_of_ne_nil (padded_ne_nil width n)
  exact ⟨c, cs, split, padded_digits c (split ▸ List.mem_cons_self)⟩

theorem trimStart_padded (width n : Nat) (rest : List Char) :
    trimStart (padded width n ++ rest) = padded width n ++ rest := by
  obtain ⟨c, cs, split, digit⟩ := exists_padded_cons width n
  simp [split, trimStart, Number.not_isBlank_of_isDigit digit]

/-! ## Years -/

/-- The year is written with four digits and no sign. -/
def isPlainYear (year : Int) : Bool := 0 ≤ year && year ≤ 9999

theorem isPlainYear_iff {year : Int} : isPlainYear year = true ↔ 0 ≤ year ∧ year ≤ 9999 := by
  simp [isPlainYear]

theorem yearText_of_plain {year : Int} (plain : isPlainYear year = true) :
    yearText year = padded 4 year.toNat :=
  if_pos plain

theorem yearText_of_signed {year : Int} (signed : isPlainYear year = false) :
    yearText year = (if year < 0 then '-' else '+') :: padded 4 year.natAbs :=
  if_neg (by rw [← isPlainYear, signed]; decide)

theorem readYear_of_digit {c : Char} (digit : isDigit c = true) (cs : List Char) :
    readYear (c :: cs) = (digitsUpTo 4 (c :: cs)).map fun (n, rest) => ((n : Int), rest) := by
  unfold readYear
  split
  · rename_i h
    cases h
    cases digit
  · rename_i h
    cases h
    cases digit
  · rfl

theorem readYear_yearText (year : Int) (stops : NoDigit rest) :
    readYear (yearText year ++ rest) = some (year, rest) := by
  cases plain : isPlainYear year with
  | true =>
    have bounds := isPlainYear_iff.mp plain
    obtain ⟨c, cs, split, digit⟩ := exists_padded_cons 4 year.toNat
    have read : digitsUpTo 4 (padded 4 year.toNat ++ rest) = some (year.toNat, rest) :=
      digitsUpTo_padded (by decide) (by omega) rest
    rw [yearText_of_plain plain]
    rw [split] at read ⊢
    rw [List.cons_append, readYear_of_digit digit, ← List.cons_append, read]
    simp
    omega
  | false =>
    have read : digitsUpTo (padded 4 year.natAbs ++ rest).length (padded 4 year.natAbs ++ rest) =
        some (year.natAbs, rest) := by
      rw [digitsUpTo_append padded_digits (padded_ne_nil _ _) (.inr ⟨by simp, stops⟩), ofDigits_padded]
    rw [yearText_of_signed plain, List.cons_append]
    by_cases negative : year < 0
    · have same : -(year.natAbs : Int) = year := by omega
      rw [if_pos negative, readYear, read, Option.map_some]
      exact congrArg (fun n => some (n, rest)) same
    · have same : (year.natAbs : Int) = year := by omega
      rw [if_neg negative, readYear, read, Option.map_some]
      exact congrArg (fun n => some (n, rest)) same

/-! ## Fractions -/

/-- The digits of a fraction are read, whatever their number. -/
theorem readFraction_padded (positive : 0 < width) (most : width ≤ 9) (fits : n < 10 ^ width)
    (stops : NoDigit rest) :
    readFraction (padded width n ++ rest) = some (n * 10 ^ (9 - width), rest) := by
  have length := length_padded positive fits
  have read : digitsUpTo 9 (padded width n ++ rest) = some (n, rest) := by
    rw [digitsUpTo_append padded_digits (padded_ne_nil _ _) (.inr ⟨by omega, stops⟩), ofDigits_padded]
  simp [readFraction, read, length, stops.dropWhile]

/-- A fraction is written as nothing, or as a point and digits from which it is read. -/
theorem fractionText_cases {nano : Nat} (small : nano < 1000000000) :
    nano = 0 ∧ fractionText nano = [] ∨
      ∃ ds, fractionText nano = '.' :: ds ∧
        ∀ rest, NoDigit rest → readFraction (ds ++ rest) = some (nano, rest) := by
  unfold fractionText
  split
  · rename_i none
    exact .inl ⟨none, rfl⟩
  split
  · rename_i millis
    refine .inr ⟨_, rfl, fun rest stops => ?_⟩
    rw [readFraction_padded (by decide) (by decide) (by omega) stops]
    simp
    omega
  split
  · rename_i micros
    refine .inr ⟨_, rfl, fun rest stops => ?_⟩
    rw [readFraction_padded (by decide) (by decide) (by omega) stops]
    simp
    omega
  · refine .inr ⟨_, rfl, fun rest stops => ?_⟩
    rw [readFraction_padded (by decide) (by decide) (by omega) stops]
    simp

/-! ## Patterns -/

theorem readPieces_append (ps qs : List Piece) (numbers : Numbers) (cs : List Char) :
    readPieces (ps ++ qs) numbers cs =
      (readPieces ps numbers cs).bind fun (numbers, rest) => readPieces qs numbers rest := by
  induction ps generalizing numbers cs with
  | nil => rfl
  | cons p ps ih =>
    simp only [List.cons_append, readPieces]
    cases p.read numbers cs with
    | none => rfl
    | some read => exact ih _ _

theorem trimStart_yearText (year : Int) (rest : List Char) :
    trimStart (yearText year ++ rest) = yearText year ++ rest := by
  cases plain : isPlainYear year with
  | true => rw [yearText_of_plain plain, trimStart_padded]
  | false =>
    rw [yearText_of_signed plain, List.cons_append]
    split <;> rfl

/-- One of two digits is read as two. -/
theorem twoDigits (fits : n < 100) (rest : List Char) :
    digitsUpTo 2 (trimStart (padded 2 n ++ rest)) = some (n, rest) := by
  rw [trimStart_padded, digitsUpTo_padded (by decide) fits]

theorem Date.bounds (d : Date) : d.month < 100 ∧ d.day < 100 := by
  have valid := d.valid
  have days : daysInMonth d.year d.month ≤ 31 := by
    unfold daysInMonth
    split
    · split <;> omega
    · split <;> omega
  simp [isDate] at valid
  omega

theorem Clock.bounds (t : Clock) :
    t.hour < 24 ∧ t.minute < 60 ∧ t.second < 60 ∧ t.nano < 2000000000 := by
  have valid := t.valid
  simp [isClock] at valid
  omega

theorem Clock.shownSecond_lt (t : Clock) : t.shownSecond < 100 := by
  obtain ⟨-, -, second, nano⟩ := t.bounds
  unfold shownSecond
  omega

theorem Clock.shownNano_lt (t : Clock) : t.shownNano < 1000000000 := Nat.mod_lt _ (by decide)

/-- A date is read to its end, whatever comes next. -/
theorem readPieces_date (d : Date) (numbers : Numbers) (rest : List Char) :
    readPieces datePattern numbers (d.chars ++ rest) =
      some ({ numbers with year := d.year, month := d.month, day := d.day }, rest) := by
  obtain ⟨month, day⟩ := d.bounds
  have hyphen (cs : List Char) : NoDigit ('-' :: cs) := noDigit_cons.mpr rfl
  simp [datePattern, readPieces, Piece.read, Date.chars, trimStart_yearText,
    readYear_yearText _ (hyphen _), twoDigits month, twoDigits day]

theorem readPieces_minute (t : Clock) (numbers : Numbers) (rest : List Char) :
    readPieces minutePattern numbers (padded 2 t.hour ++ ':' :: padded 2 t.minute ++ rest) =
      some ({ numbers with hour := t.hour, minute := t.minute }, rest) := by
  obtain ⟨hour, minute, -, -⟩ := t.bounds
  have hour := twoDigits (n := t.hour) (by omega)
  have minute := twoDigits (n := t.minute) (by omega)
  simp [minutePattern, readPieces, Piece.read, hour, minute]

/-- The text does not go on with a fraction, or with a digit of one. -/
structure EndsTime (rest : List Char) : Prop where
  noDigit : NoDigit rest
  noPoint : rest.head? ≠ some '.'

theorem endsTime_nil : EndsTime [] := ⟨noDigit_nil, nofun⟩

theorem Piece.read_literal (c : Char) (numbers : Numbers) (cs : List Char) :
    (literal c).read numbers (c :: cs) = some (numbers, cs) :=
  if_pos rfl

theorem Piece.read_second (fits : n < 100) (numbers : Numbers) (rest : List Char) :
    second.read numbers (padded 2 n ++ rest) = some ({ numbers with second := n }, rest) := by
  simp [read, twoDigits fits]

theorem Piece.read_fraction_none (numbers : Numbers) (noPoint : rest.head? ≠ some '.') :
    fraction.read numbers rest = some (numbers, rest) := by
  simp only [read]
  split
  · exact absurd rfl noPoint
  · rfl

theorem Piece.read_fraction (t : Clock) {numbers : Numbers} (fresh : numbers.nano = 0)
    (ends : EndsTime rest) :
    fraction.read numbers (fractionText t.shownNano ++ rest) =
      some ({ numbers with nano := t.shownNano }, rest) := by
  rcases fractionText_cases t.shownNano_lt with ⟨none, text⟩ | ⟨ds, text, digits⟩
  · rw [text, List.nil_append, read_fraction_none numbers ends.noPoint, none, ← fresh]
  · simp [text, read, digits rest ends.noDigit]

/-- A time is read to its end, where that is an end. -/
theorem readPieces_second (t : Clock) {numbers : Numbers} (fresh : numbers.nano = 0) (ends : EndsTime rest) :
    readPieces secondPattern numbers (t.chars ++ rest) =
      some ({ numbers with
        hour := t.hour, minute := t.minute, second := t.shownSecond, nano := t.shownNano }, rest) := by
  have text : t.chars ++ rest = padded 2 t.hour ++ ':' :: padded 2 t.minute ++
      (':' :: (padded 2 t.shownSecond ++ (fractionText t.shownNano ++ rest))) := by
    simp [Clock.chars]
  rw [text, secondPattern, readPieces_append, readPieces_minute, Option.bind_some]
  simp only [readPieces, Piece.read_literal, Piece.read_second t.shownSecond_lt]
  rw [Piece.read_fraction t (by exact fresh) ends]

/-! ## Leap seconds -/

/-- A leap second stands at the end of its minute only. -/
def Clock.IsNormal (t : Clock) : Prop := t.nano < 1000000000 ∨ t.second = 59

instance : DecidablePred Clock.IsNormal := fun t =>
  inferInstanceAs (Decidable (t.nano < 1000000000 ∨ t.second = 59))

/-- A leap second within a minute gives way to the second after it. -/
def Clock.normal (t : Clock) : Clock :=
  if h : t.IsNormal then t
  else
    { t with
      second := t.second + 1
      nano := t.nano - 1000000000
      valid := by
        obtain ⟨leap, within⟩ := not_or.mp h
        obtain ⟨hour, minute, second, nano⟩ := t.bounds
        simp [isClock]
        omega }

theorem Clock.normal_of_isNormal {t : Clock} (h : t.IsNormal) : t.normal = t := dif_pos h

theorem Clock.normal_eq_iff {t : Clock} : t.normal = t ↔ t.IsNormal := by
  refine ⟨fun same => ?_, normal_of_isNormal⟩
  by_contra stray
  have second := congrArg Clock.second same
  rw [normal, dif_neg stray] at second
  exact absurd second (Nat.succ_ne_self t.second)

/-- The normal form of a time is written in the same way. -/
theorem Clock.chars_normal (t : Clock) : t.normal.chars = t.chars := by
  by_cases h : t.IsNormal
  · rw [normal_of_isNormal h]
  · have nano := t.bounds.2.2.2
    have leap := (not_or.mp h).1
    have second : t.second + 1 + (t.nano - 1000000000) / 1000000000 = t.second + t.nano / 1000000000 := by
      omega
    have rest : (t.nano - 1000000000) % 1000000000 = t.nano % 1000000000 := by omega
    simp only [normal, dif_neg h, chars, shownSecond, shownNano, second, rest]

/-- The numbers that are written for a time name its normal form. -/
theorem Clock.of?_shown (t : Clock) :
    Clock.of? t.hour t.minute t.shownSecond t.shownNano = some t.normal := by
  obtain ⟨hour, minute, second, nano, valid⟩ := t
  obtain ⟨hours, minutes, seconds, nanos⟩ : hour < 24 ∧ minute < 60 ∧ second < 60 ∧ nano < 2000000000 :=
    Clock.bounds ⟨hour, minute, second, nano, valid⟩
  by_cases leap : nano < 1000000000
  · have ordinary : second ≠ 60 := by omega
    have shown : second + nano / 1000000000 = second ∧ nano % 1000000000 = nano := by omega
    rw [normal_of_isNormal (.inl leap)]
    simp [of?, shownSecond, shownNano, shown, ordinary, leap, valid]
  · have shown : second + nano / 1000000000 = second + 1 ∧ nano % 1000000000 = nano - 1000000000 := by
      omega
    have rest : nano - 1000000000 < 1000000000 := by omega
    by_cases last : second = 59
    · subst last
      have whole : nano - 1000000000 + 1000000000 = nano := by omega
      rw [normal_of_isNormal (.inr rfl)]
      simp [of?, shownSecond, shownNano, shown, rest, whole, valid]
    · have stray : ¬ IsNormal ⟨hour, minute, second, nano, valid⟩ := not_or.mpr ⟨leap, last⟩
      have next : isClock hour minute (second + 1) (nano - 1000000000) = true := by
        simp [isClock]
        omega
      rw [normal, dif_neg stray]
      simp [of?, shownSecond, shownNano, shown, last, rest, next]

/-- The point in time with its time in normal form. -/
def Timestamp.normal (t : Timestamp) : Timestamp := { t with time := t.time.normal }

theorem Timestamp.normal_eq_iff {t : Timestamp} : t.normal = t ↔ t.time.IsNormal := by
  rw [← Clock.normal_eq_iff]
  exact ⟨congrArg Timestamp.time, fun same => congrArg (Timestamp.mk t.date) same⟩

theorem Timestamp.chars_normal (t : Timestamp) : t.normal.chars = t.chars := by
  simp only [chars, normal, Clock.chars_normal]

/-! ## Dates, times and points in time -/

/-- The numbers of a point in time, as they are written. -/
def Timestamp.numbers (t : Timestamp) : Numbers :=
  ⟨t.date.year, t.date.month, t.date.day, t.time.hour, t.time.minute, t.time.shownSecond, t.time.shownNano⟩

theorem Date.of?_self (d : Date) : Date.of? d.year d.month d.day = some d := dif_pos d.valid

theorem Timestamp.timestamp?_numbers (t : Timestamp) : t.numbers.timestamp? = some t.normal := by
  simp [numbers, normal, Numbers.timestamp?, Numbers.date?, Numbers.clock?, Date.of?_self, Clock.of?_shown]

/-- A pattern that goes on behind a date. -/
theorem readPieces_date_append (ps : List Piece) (d : Date) (rest : List Char) :
    readPieces (datePattern ++ ps) {} (d.chars ++ rest) =
      readPieces ps { year := d.year, month := d.month, day := d.day } rest := by
  rw [readPieces_append, readPieces_date, Option.bind_some]

theorem numbers?_of_rest {pattern : List Piece} {cs : List Char} {numbers : Numbers} {c : Char}
    (read : readPieces pattern {} cs = some (numbers, c :: rest)) : numbers? pattern cs = none := by
  rw [numbers?, read]

theorem numbers?_of_none {pattern : List Piece} {cs : List Char}
    (read : readPieces pattern {} cs = none) : numbers? pattern cs = none := by
  rw [numbers?, read]

/-- A character of a date, of a time or of an offset. -/
def isStampChar (c : Char) : Bool := isDigit c || c ∈ ['-', '+', ':', '.', 'T']

theorem stampChar_not_isBlank {c : Char} (h : isStampChar c = true) : Text.isBlank c = false := by
  simp only [isStampChar, Bool.or_eq_true, decide_eq_true_eq, List.mem_cons, List.not_mem_nil, or_false] at h
  rcases h with digit | rfl | rfl | rfl | rfl | rfl
  · exact Number.not_isBlank_of_isDigit digit
  all_goals decide

theorem padded_stamp (width n : Nat) : ∀ c ∈ padded width n, isStampChar c = true := by
  intro c hc
  simp [isStampChar, padded_digits c hc]

theorem yearText_stamp (year : Int) : ∀ c ∈ yearText year, isStampChar c = true := by
  unfold yearText
  split
  · exact padded_stamp _ _
  · rw [List.forall_mem_cons]
    refine ⟨?_, padded_stamp _ _⟩
    split <;> decide

theorem fractionText_stamp (nano : Nat) : ∀ c ∈ fractionText nano, isStampChar c = true := by
  unfold fractionText
  split
  · simp
  split
  · exact List.forall_mem_cons.mpr ⟨by decide, padded_stamp _ _⟩
  split
  · exact List.forall_mem_cons.mpr ⟨by decide, padded_stamp _ _⟩
  · exact List.forall_mem_cons.mpr ⟨by decide, padded_stamp _ _⟩

theorem Date.chars_stamp (d : Date) : ∀ c ∈ d.chars, isStampChar c = true := by
  have hyphen : isStampChar '-' = true := by decide
  simp only [chars, List.forall_mem_append, List.forall_mem_cons]
  exact ⟨⟨yearText_stamp _, hyphen, padded_stamp _ _⟩, hyphen, padded_stamp _ _⟩

theorem Clock.chars_stamp (t : Clock) : ∀ c ∈ t.chars, isStampChar c = true := by
  have colon : isStampChar ':' = true := by decide
  simp only [chars, List.forall_mem_append, List.forall_mem_cons]
  exact ⟨⟨⟨padded_stamp _ _, colon, padded_stamp _ _⟩, colon, padded_stamp _ _⟩, fractionText_stamp _⟩

theorem Timestamp.chars_stamp (t : Timestamp) : ∀ c ∈ t.chars, isStampChar c = true := by
  simp only [chars, List.forall_mem_append, List.forall_mem_cons]
  exact ⟨t.date.chars_stamp, by decide, t.time.chars_stamp⟩

theorem Timestamp.zonedChars_stamp (t : Timestamp) : ∀ c ∈ t.zonedChars, isStampChar c = true := by
  have offset : "+00:00".toList.all isStampChar = true := by decide
  simp only [zonedChars, List.forall_mem_append]
  exact ⟨t.chars_stamp, List.all_eq_true.mp offset⟩

/-- A text of such characters has no `Z` that is not looked at. -/
theorem Timestamp.read?_of_stamp {cs : List Char} (stamp : ∀ c ∈ cs, isStampChar c = true) :
    Timestamp.read? cs =
      (timestampPatterns.findSome? fun p => (numbers? p cs).bind Numbers.timestamp?).or
        (((numbers? datePattern cs).bind Numbers.date?).map fun date => ⟨date, .midnight⟩) := by
  have zoneless : cs.getLast? ≠ some 'Z' := by
    intro last
    have := stamp 'Z' (List.mem_of_getLast? last)
    cases this
  rw [Timestamp.read?, if_neg zoneless]

theorem Clock.read?_chars (t : Clock) : Clock.read? t.chars = some t.normal := by
  have pieces : readPieces secondPattern {} (t.chars ++ []) =
      some ({ hour := t.hour, minute := t.minute, second := t.shownSecond, nano := t.shownNano }, []) :=
    readPieces_second t rfl endsTime_nil
  rw [List.append_nil] at pieces
  simp [Clock.read?, numbers?, pieces, Numbers.clock?, of?_shown]

/-- No hour begins with the text. -/
theorem readPieces_hour_none {cs : List Char} (none : digitsUpTo 2 (trimStart cs) = .none) (ps : List Piece)
    (numbers : Numbers) : readPieces (.blank :: .hour :: ps) numbers cs = .none := by
  simp [readPieces, Piece.read, Text.trimStart_trimStart, none]

/-- A date alone is read as its midnight: all patterns with a time go on behind it. -/
theorem Timestamp.read?_date (d : Date) : Timestamp.read? d.chars = some ⟨d, .midnight⟩ := by
  have date := readPieces_date d {} []
  have further (ps : List Piece) := readPieces_date_append ps d []
  simp only [List.append_nil] at date further
  have behind (ps : List Piece) (numbers : Numbers) : readPieces (.literal 'T' :: ps) numbers [] = none := rfl
  have blank (ps : List Piece) (numbers : Numbers) : readPieces (.blank :: .hour :: ps) numbers [] = none :=
    readPieces_hour_none rfl ps numbers
  rw [read?_of_stamp d.chars_stamp]
  simp [timestampPatterns, numbers?, further, secondPattern, minutePattern, behind, blank, date,
    Numbers.date?, Date.of?_self]

/-- A point in time is read by the first pattern. -/
theorem Timestamp.readPieces_chars (t : Timestamp) (ends : EndsTime rest) :
    readPieces (datePattern ++ .literal 'T' :: secondPattern) {} (t.chars ++ rest) =
      some (t.numbers, rest) := by
  have text : t.chars ++ rest = t.date.chars ++ 'T' :: (t.time.chars ++ rest) := by
    simp [chars]
  rw [text, readPieces_date_append]
  simp only [readPieces, Piece.read_literal]
  rw [readPieces_second t.time (by rfl) ends]
  rfl

theorem Timestamp.read?_chars (t : Timestamp) : Timestamp.read? t.chars = some t.normal := by
  have pieces := t.readPieces_chars endsTime_nil
  rw [List.append_nil] at pieces
  rw [read?_of_stamp t.chars_stamp]
  simp [timestampPatterns, numbers?, pieces, t.timestamp?_numbers]

/-! ## Points in time of the prime meridian -/

theorem endsTime_offset : EndsTime "+00:00".toList := ⟨by simp [NoDigit]; rfl, by decide⟩

/-- The offset is left over by every pattern that comes so far. -/
theorem Timestamp.read?_zonedChars (t : Timestamp) : Timestamp.read? t.zonedChars = none := by
  have text : t.zonedChars = t.date.chars ++ 'T' :: (t.time.chars ++ "+00:00".toList) := by
    simp [zonedChars, chars]
  have timed : numbers? (datePattern ++ .literal 'T' :: secondPattern) t.zonedChars = none :=
    numbers?_of_rest (t.readPieces_chars endsTime_offset)
  have blank (ps : List Piece) : numbers? (datePattern ++ .blank :: .hour :: ps) t.zonedChars = none := by
    apply numbers?_of_none
    rw [text, readPieces_date_append]
    exact readPieces_hour_none rfl _ _
  have blankTimed : numbers? (datePattern ++ .blank :: secondPattern) t.zonedChars = none := blank _
  have blankMinutes : numbers? (datePattern ++ .blank :: minutePattern) t.zonedChars = none := blank _
  have minutes : numbers? (datePattern ++ .literal 'T' :: minutePattern) t.zonedChars = none := by
    have split : t.time.chars ++ "+00:00".toList = padded 2 t.time.hour ++ ':' :: padded 2 t.time.minute ++
        (':' :: (padded 2 t.time.shownSecond ++ (fractionText t.time.shownNano ++ "+00:00".toList))) := by
      simp [Clock.chars]
    apply numbers?_of_rest
    rw [text, readPieces_date_append]
    simp only [readPieces, Piece.read_literal]
    rw [split, readPieces_minute]
  have date : numbers? datePattern t.zonedChars = none := by
    apply numbers?_of_rest
    rw [text, readPieces_date]
  rw [read?_of_stamp t.zonedChars_stamp]
  simp [timestampPatterns, timed, blankTimed, minutes, blankMinutes, date]

theorem twoAfter_padded (fits : n < 100) (lead : Char) (rest : List Char) :
    twoAfter lead (lead :: (padded 2 n ++ rest)) = some (n, rest) := by
  have read : digitsExactly 2 (padded 2 n ++ rest) = some (n, rest) := digitsExactly_padded (by decide) fits rest
  simp [twoAfter, read]

/-- The text of a point in time with a plain year has fixed widths. -/
theorem Timestamp.readFixed_chars {t : Timestamp} (plain : isPlainYear t.date.year = true)
    (ends : EndsTime rest) : readFixed (t.chars ++ rest) = some (t.numbers, rest) := by
  have years := isPlainYear_iff.mp plain
  obtain ⟨month, day⟩ := t.date.bounds
  obtain ⟨hour, minute, -, -⟩ := t.time.bounds
  have year (rest : List Char) : digitsExactly 4 (padded 4 t.date.year.toNat ++ rest) =
      some (t.date.year.toNat, rest) := digitsExactly_padded (by decide) (by omega) rest
  have month := twoAfter_padded month '-'
  have day := twoAfter_padded day '-'
  have hour (rest : List Char) : digitsExactly 2 (padded 2 t.time.hour ++ rest) =
      some (t.time.hour, rest) := digitsExactly_padded (by decide) (by omega) rest
  have minute := twoAfter_padded (n := t.time.minute) (by omega) ':'
  have second := twoAfter_padded t.time.shownSecond_lt ':'
  have text : t.chars ++ rest = padded 4 t.date.year.toNat ++ ('-' :: (padded 2 t.date.month ++
      ('-' :: (padded 2 t.date.day ++ ('T' :: (padded 2 t.time.hour ++ (':' :: (padded 2 t.time.minute ++
        (':' :: (padded 2 t.time.shownSecond ++ (fractionText t.time.shownNano ++ rest))))))))))) := by
    simp [chars, Date.chars, Clock.chars, yearText_of_plain plain]
  rw [text]
  rcases fractionText_cases t.time.shownNano_lt with ⟨none, fraction⟩ | ⟨ds, fraction, digits⟩
  · rw [fraction, List.nil_append]
    cases rest with
    | nil =>
      have last : twoAfter ':' (':' :: padded 2 t.time.shownSecond) = some (t.time.shownSecond, []) := by
        simpa using second []
      simp [readFixed, year, month, day, hour, minute, last, numbers, none]
      omega
    | cons c cs =>
      have noPoint : c ≠ '.' := by simpa using ends.noPoint
      simp [readFixed, year, month, day, hour, minute, second, numbers, none, noPoint]
      omega
  · simp [readFixed, year, month, day, hour, minute, second, fraction, digits rest ends.noDigit, numbers]
    omega

/-- A signed year is no year of four digits. -/
theorem Timestamp.readFixed_signed {t : Timestamp} (signed : isPlainYear t.date.year = false)
    (rest : List Char) : readFixed (t.chars ++ rest) = none := by
  have start : ∃ sign cs, isDigit sign = false ∧ t.chars ++ rest = sign :: cs := by
    simp only [chars, Date.chars, yearText_of_signed signed, List.cons_append]
    refine ⟨_, _, ?_, rfl⟩
    split <;> rfl
  obtain ⟨sign, cs, noDigit, text⟩ := start
  have refused : digitsExactly 4 (sign :: cs) = none := by
    simp [digitsExactly, noDigit]
  rw [text, readFixed, refused]
  rfl

theorem Timestamp.minusMinutes?_zero (t : Timestamp) : t.minusMinutes? 0 = some t := by
  obtain ⟨hour, minute, -, -⟩ := t.time.bounds
  have bounds : ¬ ((t.time.hour * 60 + t.time.minute : Nat) : Int) - 0 < 0 ∧
      ¬ 1440 ≤ ((t.time.hour * 60 + t.time.minute : Nat) : Int) - 0 := by
    omega
  have hours : (((t.time.hour * 60 + t.time.minute : Nat) - 0 : Int) % 1440).toNat / 60 = t.time.hour := by
    omega
  have minutes : (((t.time.hour * 60 + t.time.minute : Nat) - 0 : Int) % 1440).toNat % 60 =
      t.time.minute := by
    omega
  simp only [minusMinutes?, if_neg bounds.1, if_neg bounds.2, Option.map_some, Clock.inMinute, hours,
    minutes]

/-- The strict reading takes exactly the texts of the plain years. -/
theorem Timestamp.readZoned?_zonedChars (t : Timestamp) :
    Timestamp.readZoned? t.zonedChars = if isPlainYear t.date.year then some t.normal else none := by
  cases plain : isPlainYear t.date.year with
  | true =>
    have offset : readOffset ['+', '0', '0', ':', '0', '0'] = some 0 := by decide
    rw [readZoned?, zonedChars, readFixed_chars plain endsTime_offset]
    simp [offset, t.timestamp?_numbers, t.normal.minusMinutes?_zero]
  | false =>
    rw [readZoned?, zonedChars, readFixed_signed plain]
    rfl

end Calendar
end TableGateway
