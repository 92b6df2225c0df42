/-
Strings and whole numbers are read back from the way they are written.

A string ends at its closing quote, so what follows does not matter. A number has no end of its
own: more digits, a point or a power of ten behind it would belong to it, so it is read back
only before a text that starts with none of these.
-/
import CodeAtlas.Json.Printer
import CodeAtlas.Json.Reader

namespace CodeAtlas.Json

/-! ### Strings -/

theorem hexValue?_digitChar : ∀ digit < 16, hexValue? (Nat.digitChar digit) = some digit := by
  decide

/-- Four digits are read as the code that they write. -/
theorem takeHex_digitChar {code : Nat} (small : code < 256) (input : Input) :
    takeHex ('0' :: '0' :: Nat.digitChar (code / 16) :: Nat.digitChar (code % 16) :: input) =
      .ok code := by
  have high := hexValue?_digitChar (code / 16) (by omega)
  have low := hexValue?_digitChar (code % 16) (by omega)
  have zero : hexValue? '0' = some 0 := by decide
  have highSize := Char.utf8Size_pos (Nat.digitChar (code / 16))
  have lowSize := Char.utf8Size_pos (Nat.digitChar (code % 16))
  have long : ¬ '0'.utf8Size + '0'.utf8Size + (Nat.digitChar (code / 16)).utf8Size +
      (Nat.digitChar (code % 16)).utf8Size < 4 := by
    have one : '0'.utf8Size = 1 := by decide
    omega
  simp only [takeHex, List.take_succ_cons, List.take_zero, List.foldl_cons, List.foldl_nil,
    Nat.zero_add, long, if_false, List.mapM_cons, List.mapM_nil, zero, high, low]
  show Except.ok ((((0 * 16 + 0) * 16 + 0) * 16 + code / 16) * 16 + code % 16) = .ok code
  congr 1
  omega

/-- A character below the blank is read back from its code. -/
theorem takeEscape_control {char : Char} (control : char.toNat < 0x20) (input : Input) :
    takeEscape ('u' :: '0' :: '0' :: Nat.digitChar (char.toNat / 16) ::
      Nat.digitChar (char.toNat % 16) :: input) = .ok (char, 5) := by
  have code := takeHex_digitChar (show char.toNat < 256 by omega) input
  have notTrailing : isTrailing char.toNat = false := by
    rw [isTrailing, Bool.and_eq_false_iff, decide_eq_false_iff_not]
    omega
  have notLeading : isLeading char.toNat = false := by
    rw [isLeading, Bool.and_eq_false_iff, decide_eq_false_iff_not]
    omega
  simp [takeEscape, takeCode, code, notTrailing, notLeading, Char.ofNat_toNat, bind, Except.bind,
    pure, Except.pure]

/-- What is read behind a written character is read behind the character. -/
theorem takeString_escape {char : Char} {written input : Input}
    (escape : takeEscape (written ++ input) = .ok (char, written.length)) :
    takeString ('\\' :: (written ++ input)) =
      (takeString input).map fun taken => (char :: taken.1, taken.2) := by
  rw [takeString, escape]
  simp only [List.drop_left]
  cases takeString input <;> rfl

theorem takeString_plain {char : Char} (quote : char ≠ '"') (backslash : char ≠ '\\')
    (printable : ¬ char.toNat < 0x20) (input : Input) :
    takeString (char :: input) =
      (takeString input).map fun taken => (char :: taken.1, taken.2) := by
  rw [takeString, if_neg printable]
  · cases takeString input <;> rfl
  · exact quote
  · exact backslash

theorem takeString_escapeChar (char : Char) (input : Input) :
    takeString (escapeChar char ++ input) =
      (takeString input).map fun taken => (char :: taken.1, taken.2) := by
  have byLetter {letter : Char} (means : escapeLetter? letter = some char) :
      takeString ('\\' :: ([letter] ++ input)) =
        (takeString input).map fun taken => (char :: taken.1, taken.2) := by
    have notCode : letter ≠ 'u' := by
      rintro rfl
      cases means
    exact takeString_escape (by simp [takeEscape, means])
  fun_cases escapeChar char
  case case8 control => exact takeString_escape (takeEscape_control control input)
  case case9 quote backslash _ _ _ _ _ printable =>
    exact takeString_plain (by simpa using quote) (by simpa using backslash) printable input
  -- All other characters have a letter.
  all_goals
    rename_i same
    exact byLetter (by rw [eq_of_beq same]; rfl)

/-- A text is read back from between its quotes. -/
theorem takeString_write (text : List Char) (rest : Input) :
    takeString (text.flatMap escapeChar ++ '"' :: rest) = .ok (text, rest) := by
  induction text with
  | nil => rw [List.flatMap_nil, List.nil_append, takeString]
  | cons char text inductionHypothesis =>
    rw [List.flatMap_cons, List.append_assoc, takeString_escapeChar, inductionHypothesis]
    rfl

/-! ### Numbers -/

/-- A text that does not go on with a number in front of it. -/
def EndsNumber (rest : Input) : Prop :=
  seesDigit rest = false ∧ rest.head? ≠ some '.' ∧ seesPower rest = false

theorem le_ofDigitChars (digits : List Char) (significand : Nat) :
    significand ≤ Nat.ofDigitChars 10 digits significand := by
  induction digits generalizing significand with
  | nil => exact Nat.le_refl _
  | cons char digits inductionHypothesis =>
    rw [Nat.ofDigitChars_cons]
    exact Nat.le_trans (by omega) (inductionHypothesis _)

/-- Digits are taken as long as there are any, if their number fits. -/
theorem takeDigits_append {digits rest : Input}
    (areDigits : ∀ char ∈ digits, isDigit char = true) (ends : seesDigit rest = false)
    (significand count : Nat)
    (fits : Nat.ofDigitChars 10 digits significand < UInt64.size) :
    takeDigits significand count (digits ++ rest) =
      (Nat.ofDigitChars 10 digits significand, count + digits.length, rest) := by
  induction digits generalizing significand count with
  | nil =>
    cases rest with
    | nil => rfl
    | cons char rest =>
      have notDigit : isDigit char = false := by simpa [seesDigit] using ends
      simp [takeDigits, notDigit]
  | cons char digits inductionHypothesis =>
    obtain ⟨digit, areDigits⟩ := List.forall_mem_cons.mp areDigits
    rw [Nat.ofDigitChars_cons, Nat.mul_comm] at fits ⊢
    have next : significand * 10 + (char.toNat - '0'.toNat) < UInt64.size :=
      Nat.lt_of_le_of_lt (le_ofDigitChars digits _) fits
    rw [List.cons_append, takeDigits, if_pos ⟨digit, next⟩, inductionHypothesis areDigits _ _ fits,
      List.length_cons, Nat.add_right_comm, Nat.add_assoc]

theorem isDigit_of_mem_toDigits {value : Nat} {char : Char}
    (member : char ∈ Nat.toDigits 10 value) : isDigit char = true := by
  have digit := Nat.isDigit_of_mem_toDigits (by decide) (by decide) member
  simpa [isDigit, Char.isDigit, Char.le_def] using digit

/-- Only zero is written with a zero in front. -/
theorem eq_zero_of_toDigits {value : Nat} {digits : List Char}
    (written : Nat.toDigits 10 value = '0' :: digits) : value = 0 := by
  induction value using Nat.strongRecOn generalizing digits with
  | ind value inductionHypothesis =>
    rcases Nat.lt_or_ge value 10 with small | large
    · rw [Nat.toDigits_of_lt_base small] at written
      exact Nat.digitChar_eq_zero.mp (List.cons.inj written).1
    · rw [Nat.toDigits_of_base_le (by decide) large] at written
      rcases List.append_eq_cons_iff.mp written with ⟨empty, _⟩ | ⟨front, higher, _⟩
      · exact absurd empty Nat.toDigits_ne_nil
      · have := inductionHypothesis (value / 10) (by omega) higher
        omega

/-- A whole number is read back in front of a text that does not go on with it. -/
theorem takeNumber_toDigits {value : Nat} (fits : value < UInt64.size) {rest : Input}
    (ends : EndsNumber rest) :
    takeNumber false (Nat.toDigits 10 value ++ rest) = .ok (.natural value, rest) := by
  obtain ⟨noDigit, noPoint, noPower⟩ := ends
  have same : Nat.ofDigitChars 10 (Nat.toDigits 10 value) 0 = value :=
    Nat.ofDigitChars_ten_toDigits
  have taken := takeDigits_append (fun _ => isDigit_of_mem_toDigits) noDigit 0 0
    (Nat.lt_of_le_of_lt (Nat.le_of_eq same) fits)
  rw [same] at taken
  cases written : Nat.toDigits 10 value with
  | nil => exact absurd written Nat.toDigits_ne_nil
  | cons first more =>
    have isFirst : first ∈ Nat.toDigits 10 value := by simp [written]
    have digit : isDigit first = true := isDigit_of_mem_toDigits isFirst
    have noZero : ¬ (first = '0' ∧ seesDigit (more ++ rest) = true) := by
      rintro ⟨rfl, further⟩
      obtain rfl := eq_zero_of_toDigits written
      obtain rfl : more = [] := (List.cons.inj written).2.symm
      simp [noDigit] at further
    rw [written, List.cons_append] at taken
    simp [takeNumber, digit, noZero, taken, noDigit, noPoint, noPower, pure, Except.pure]

end CodeAtlas.Json
