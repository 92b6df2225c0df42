/-
The texts that are JSON.

The grammar speaks of texts only and gives them no value: `IsValue` holds of every word, number,
string, list and object, with blanks wherever they may stand. Lists and objects are laid out in
the same way, as items between brackets with commas between them, so `Enclosed` describes both; an
item of an object is a key with its value.

`Spells` says which text a string stands for, in any of the ways to write its characters. Not
every string of the grammar stands for one: a code of four digits may be half of a pair whose
other half is missing. Such a string is refused where its text is wanted, and that is the only
reason why one is.
-/
import Mathlib.Data.List.Forall2
import CodeAtlas.Proofs.Json.RoundTrip

namespace CodeAtlas.Json

/-! ### Strings -/

/-- Four hexadecimal digits that write a code. -/
def WritesCode (digits : Input) (code : Nat) : Prop :=
  digits.length = 4 ∧ ∃ values, digits.mapM hexValue? = some values ∧
    values.foldl (fun total digit => total * 16 + digit) 0 = code

/-- What may stand between the quotes of a string. -/
inductive IsBody : Input → Prop where
  | nil : IsBody []
  | plain {char : Char} {rest : Input} : char ≠ '"' → char ≠ '\\' → ¬ char.toNat < 0x20 →
      IsBody rest → IsBody (char :: rest)
  | letter {letter : Char} {rest : Input} : (escapeLetter? letter).isSome = true →
      IsBody rest → IsBody ('\\' :: letter :: rest)
  | code {digits rest : Input} {code : Nat} : WritesCode digits code →
      IsBody rest → IsBody ('\\' :: 'u' :: (digits ++ rest))

/-- The ways to write a character behind a backslash: by a letter, by its code, or as a pair of
codes. -/
inductive Escape : Char → Input → Prop where
  | letter {letter char : Char} : escapeLetter? letter = some char → Escape char [letter]
  | code {digits : Input} {code : Nat} : WritesCode digits code → isLeading code = false →
      isTrailing code = false → Escape (Char.ofNat code) ('u' :: digits)
  | pair {digits further : Input} {high low : Nat} : WritesCode digits high →
      WritesCode further low → isLeading high = true → isTrailing low = true →
      Escape (Char.ofNat ((high - 0xD800) * 1024 + (low - 0xDC00) + 0x10000))
        ('u' :: (digits ++ '\\' :: 'u' :: further))

/-- The ways to write a text between quotes. -/
inductive Spells : List Char → Input → Prop where
  | nil : Spells [] []
  | plain {char : Char} {text : List Char} {rest : Input} : char ≠ '"' → char ≠ '\\' →
      ¬ char.toNat < 0x20 → Spells text rest → Spells (char :: text) (char :: rest)
  | escape {char : Char} {written : Input} {text : List Char} {rest : Input} :
      Escape char written → Spells text rest → Spells (char :: text) ('\\' :: (written ++ rest))

theorem Escape.isBody {char : Char} {written rest : Input} (escape : Escape char written)
    (isBody : IsBody rest) : IsBody ('\\' :: (written ++ rest)) := by
  cases escape with
  | letter means => exact .letter (Option.isSome_of_mem means) isBody
  | code writes _ _ => exact .code writes isBody
  | pair writes writesLow _ _ =>
    rw [List.cons_append, List.append_assoc]
    exact .code writes (.code writesLow isBody)

theorem Spells.isBody {text : List Char} {body : Input} (spells : Spells text body) :
    IsBody body := by
  induction spells with
  | nil => exact .nil
  | plain quote backslash printable _ inductionHypothesis =>
    exact .plain quote backslash printable inductionHypothesis
  | escape escape _ inductionHypothesis => exact escape.isBody inductionHypothesis

/-- Characters that may stand for themselves in a string. -/
def isPlain (char : Char) : Bool := char != '"' && char != '\\' && !decide (char.toNat < 0x20)

/-- A text is written as it is if it needs no escapes. -/
theorem spells_self {text : List Char} (plain : text.all isPlain = true) : Spells text text := by
  induction text with
  | nil => exact .nil
  | cons char text inductionHypothesis =>
    rw [List.all_cons, Bool.and_eq_true] at plain
    obtain ⟨isPlain, plain⟩ := plain
    simp only [Json.isPlain, Bool.and_eq_true, bne_iff_ne, Bool.not_eq_true',
      decide_eq_false_iff_not] at isPlain
    obtain ⟨⟨quote, backslash⟩, printable⟩ := isPlain
    exact .plain quote backslash printable (inductionHypothesis plain)

/-- Four digits are read as the code that they write. -/
theorem WritesCode.takeHex {digits : Input} {code : Nat} (writes : WritesCode digits code)
    (rest : Input) : takeHex (digits ++ rest) = .ok code := by
  obtain ⟨four, values, means, rfl⟩ := writes
  have front : (digits ++ rest).take 4 = digits := four ▸ List.take_left
  have long : ¬ digits.foldl (fun total char => total + char.utf8Size) 0 < 4 := by
    match digits, four with
    | [first, second, third, fourth], _ =>
      have := first.utf8Size_pos
      have := second.utf8Size_pos
      have := third.utf8Size_pos
      have := fourth.utf8Size_pos
      simp only [List.foldl_cons, List.foldl_nil]
      omega
  simp only [Json.takeHex, front, long, if_false, means]

theorem WritesCode.drop {digits : Input} {code : Nat} (writes : WritesCode digits code)
    (rest : Input) : (digits ++ rest).drop 4 = rest := writes.1 ▸ List.drop_left

theorem escapeLetter?_ne {letter : Char} (known : (escapeLetter? letter).isSome = true) :
    letter ≠ 'u' := by
  rintro rfl
  cases known

theorem isTrailing_of_isLeading {code : Nat} (leading : isLeading code = true) :
    isTrailing code = false := by
  simp only [isLeading, isTrailing, Bool.and_eq_true, decide_eq_true_eq, Bool.and_eq_false_iff,
    decide_eq_false_iff_not] at leading ⊢
  omega

/-- An escape is taken as a whole. -/
theorem Escape.takeEscape {char : Char} {written : Input} (escape : Escape char written)
    (rest : Input) : takeEscape (written ++ rest) = .ok (char, written.length) := by
  cases escape with
  | letter means =>
    have notCode := escapeLetter?_ne (Option.isSome_of_mem means)
    simp [Json.takeEscape, means]
  | code writes whole notTrailing =>
    simp [Json.takeEscape, takeCode, writes.takeHex, whole, notTrailing, writes.1, bind,
      Except.bind, pure, Except.pure]
  | pair writes writesLow leading trailing =>
    simp [Json.takeEscape, takeCode, writes.takeHex, writes.drop, isTrailing_of_isLeading leading,
      leading, writesLow.takeHex, trailing, writes.1, writesLow.1, bind, Except.bind, pure,
      Except.pure]

/-- A string is read as the text that it stands for. -/
theorem Spells.takeString {text : List Char} {body : Input} (spells : Spells text body)
    (rest : Input) : takeString (body ++ '"' :: rest) = .ok (text, rest) := by
  induction spells with
  | nil => rw [List.nil_append, Json.takeString]
  | plain quote backslash printable _ inductionHypothesis =>
    rw [List.cons_append, takeString_plain quote backslash printable, inductionHypothesis]
    rfl
  | escape escape _ inductionHypothesis =>
    rw [List.cons_append, List.append_assoc, takeString_escape (escape.takeEscape _),
      inductionHypothesis]
    rfl

/-- A first half of a pair is refused where the second half does not follow. -/
theorem takeEscape_unpaired {digits rest : Input} {high : Nat} (writes : WritesCode digits high)
    (leading : isLeading high = true) (alone : ∀ further, rest ≠ '\\' :: 'u' :: further) :
    ∃ fault, takeEscape ('u' :: (digits ++ rest)) = .error fault := by
  have refused : ∃ fault, takeCode (digits ++ rest) = .error fault := by
    simp only [takeCode, writes.takeHex, writes.drop, isTrailing_of_isLeading leading, leading,
      bind, Except.bind, Bool.false_eq_true, if_false, Bool.not_true]
    split
    · exact ⟨_, rfl⟩
    · exact ⟨_, rfl⟩
    · exact absurd rfl (alone _)
    · exact ⟨_, rfl⟩
  obtain ⟨fault, refused⟩ := refused
  exact ⟨fault, by simp only [takeEscape, refused]⟩

/-- A second half of a pair is refused where no first half is before it. -/
theorem takeEscape_trailing {digits : Input} {low : Nat} (writes : WritesCode digits low)
    (trailing : isTrailing low = true) (rest : Input) :
    takeEscape ('u' :: (digits ++ rest)) = .error (.malformed .loneSurrogate) := by
  simp [takeEscape, takeCode, writes.takeHex, trailing, bind, Except.bind, throw, throwThe,
    MonadExceptOf.throw]

/-- Two codes of which only the first is a half of a pair are refused. -/
theorem takeEscape_mismatched {digits further : Input} {high low : Nat}
    (writes : WritesCode digits high) (writesLow : WritesCode further low)
    (leading : isLeading high = true) (notTrailing : isTrailing low = false) (rest : Input) :
    takeEscape ('u' :: (digits ++ '\\' :: 'u' :: (further ++ rest))) =
      .error (.malformed .loneSurrogate) := by
  simp [takeEscape, takeCode, writes.takeHex, writes.drop, isTrailing_of_isLeading leading,
    leading, writesLow.takeHex, notTrailing, bind, Except.bind, throw, throwThe,
    MonadExceptOf.throw]

/-- No text is read from between the quotes. -/
def HasNoText (body : Input) : Prop :=
  ∀ rest, ∃ fault, takeString (body ++ '"' :: rest) = .error fault

theorem HasNoText.escape {char : Char} {written body : Input} (escape : Escape char written)
    (noText : HasNoText body) : HasNoText ('\\' :: (written ++ body)) := by
  intro rest
  obtain ⟨fault, refused⟩ := noText rest
  rw [List.cons_append, List.append_assoc, takeString_escape (escape.takeEscape _), refused]
  exact ⟨fault, rfl⟩

theorem hasNoText_of_takeEscape {body : Input}
    (refused : ∀ rest, ∃ fault, takeEscape (body ++ '"' :: rest) = .error fault) :
    HasNoText ('\\' :: body) := by
  intro rest
  obtain ⟨fault, refused⟩ := refused rest
  exact ⟨fault, by rw [List.cons_append, takeString, refused]⟩

/-- A string stands for a text, or a half of a pair in it lacks the other half. -/
theorem IsBody.spells_or_hasNoText {body : Input} (isBody : IsBody body) :
    (∃ text, Spells text body) ∨ HasNoText body := by
  have behind {char : Char} {written body : Input} (escape : Escape char written)
      (either : (∃ text, Spells text body) ∨ HasNoText body) :
      (∃ text, Spells text ('\\' :: (written ++ body))) ∨
        HasNoText ('\\' :: (written ++ body)) :=
    either.imp (fun ⟨_, spells⟩ => ⟨_, .escape escape spells⟩) (.escape escape)
  cases isBody with
  | nil => exact .inl ⟨[], .nil⟩
  | plain quote backslash printable isBody =>
    rcases isBody.spells_or_hasNoText with ⟨text, spells⟩ | noText
    · exact .inl ⟨_, .plain quote backslash printable spells⟩
    · refine .inr fun rest => ?_
      obtain ⟨fault, refused⟩ := noText rest
      rw [List.cons_append, takeString_plain quote backslash printable, refused]
      exact ⟨fault, rfl⟩
  | letter known isBody =>
    obtain ⟨char, means⟩ := Option.isSome_iff_exists.mp known
    exact behind (.letter means) isBody.spells_or_hasNoText
  | @code digits body high writes isBody =>
    have refusedBy (refused : ∀ rest, ∃ fault,
        takeEscape ('u' :: (digits ++ (body ++ '"' :: rest))) = .error fault) :
        HasNoText ('\\' :: 'u' :: (digits ++ body)) :=
      hasNoText_of_takeEscape fun rest => by
        rw [List.cons_append, List.append_assoc]
        exact refused rest
    by_cases trailing : isTrailing high = true
    · exact .inr (refusedBy fun rest => ⟨_, takeEscape_trailing writes trailing _⟩)
    by_cases leading : isLeading high = true
    · -- A second half must come next.
      have unpaired (alone : ∀ rest further, body ++ '"' :: rest ≠ '\\' :: 'u' :: further) :
          HasNoText ('\\' :: 'u' :: (digits ++ body)) :=
        refusedBy fun rest => takeEscape_unpaired writes leading (alone rest)
      cases isBody with
      | nil => exact .inr (unpaired fun _ _ => by simp)
      | plain _ backslash _ _ => exact .inr (unpaired fun _ _ => by simp [backslash])
      | letter known _ => exact .inr (unpaired fun _ _ => by simp [escapeLetter?_ne known])
      | @code further body low writesLow isBody =>
        by_cases paired : isTrailing low = true
        · have either := behind (.pair writes writesLow leading paired) isBody.spells_or_hasNoText
          simpa using either
        · refine .inr (refusedBy fun rest => ⟨.malformed .loneSurrogate, ?_⟩)
          have refused := takeEscape_mismatched writes writesLow leading
            (Bool.eq_false_iff.mpr paired) (body ++ '"' :: rest)
          simpa using refused
    · exact behind (.code writes (Bool.eq_false_iff.mpr leading) (Bool.eq_false_iff.mpr trailing))
        isBody.spells_or_hasNoText
termination_by body.length

/-! ### Numbers -/

/-- One digit or more. -/
def AreDigits (text : Input) : Prop := text ≠ [] ∧ ∀ char ∈ text, isDigit char = true

/-- The digits of a whole number, of which only zero starts with a zero. -/
def IsWhole (text : Input) : Prop := AreDigits text ∧ (text.head? = some '0' → text = ['0'])

/-- Nothing, or digits behind a point. -/
inductive IsPlaces : Input → Prop where
  | nil : IsPlaces []
  | point {digits : Input} : AreDigits digits → IsPlaces ('.' :: digits)

/-- Nothing, or digits behind the mark of a power of ten. -/
inductive IsPower : Input → Prop where
  | nil : IsPower []
  | mark {mark : Char} {sign digits : Input} : mark = 'e' ∨ mark = 'E' →
      sign = [] ∨ sign = ['+'] ∨ sign = ['-'] → AreDigits digits →
      IsPower (mark :: (sign ++ digits))

/-- A number behind its sign. -/
inductive IsNumber : Input → Prop where
  | parts {whole places power : Input} : IsWhole whole → IsPlaces places → IsPower power →
      IsNumber (whole ++ (places ++ power))

theorem IsNumber.starts {text : Input} (isNumber : IsNumber text) :
    ∃ digit rest, text = digit :: rest ∧ isDigit digit = true := by
  obtain @⟨whole, places, power, ⟨⟨nonempty, areDigits⟩, _⟩, _, _⟩ := isNumber
  obtain ⟨digit, more, rfl⟩ := List.exists_cons_of_ne_nil nonempty
  exact ⟨digit, _, rfl, areDigits digit List.mem_cons_self⟩

theorem isBlank_of_isDigit {char : Char} (digit : isDigit char = true) : isBlank char = false := by
  refine Bool.eq_false_iff.mpr fun blank => ?_
  simpa [seesDigit, digit] using (endsNumber_of_isBlank blank []).1

/-! ### Values -/

/-- What follows an item up to the closing bracket: other items, each behind a comma. -/
inductive Separated (bracket : Bracket) : List Input → Input → Prop where
  | close {blanks : Input} : AreBlank blanks → Separated bracket [] (blanks ++ [bracket.closing])
  | next {before behind item text : Input} {items : List Input} : AreBlank before →
      AreBlank behind → Separated bracket items text →
      Separated bracket (item :: items) (before ++ ',' :: (behind ++ (item ++ text)))

/-- Items with commas between them, up to the closing bracket. -/
inductive Enclosed (bracket : Bracket) : List Input → Input → Prop where
  | empty {blanks : Input} : AreBlank blanks → Enclosed bracket [] (blanks ++ [bracket.closing])
  | items {blanks item text : Input} {items : List Input} : AreBlank blanks →
      Separated bracket items text → Enclosed bracket (item :: items) (blanks ++ (item ++ text))

/-- A key between quotes with its value. -/
def IsMember (body value item : Input) : Prop :=
  ∃ before behind, AreBlank before ∧ AreBlank behind ∧
    item = '"' :: (body ++ '"' :: (before ++ ':' :: (behind ++ value)))

/-- A JSON value, with no blanks around it. -/
inductive IsValue : Input → Prop where
  | word {text : Input} :
      text ∈ [['n', 'u', 'l', 'l'], ['t', 'r', 'u', 'e'], ['f', 'a', 'l', 's', 'e']] → IsValue text
  | number {text : Input} : IsNumber text → IsValue text
  | negative {text : Input} : IsNumber text → IsValue ('-' :: text)
  | string {body : Input} : IsBody body → IsValue ('"' :: (body ++ ['"']))
  | list {items : List Input} {text : Input} : (∀ item ∈ items, IsValue item) →
      Enclosed .list items text → IsValue ('[' :: text)
  | object {members : List (Input × Input)} {items : List Input} {text : Input} :
      (∀ member ∈ members, IsBody member.1) → (∀ member ∈ members, IsValue member.2) →
      List.Forall₂ (fun member item => IsMember member.1 member.2 item) members items →
      Enclosed .object items text → IsValue ('\x7b' :: text)

/-- Every item is written for a member. -/
theorem exists_mem_of_forall₂ {α β : Type} {writes : α → β → Prop} {members : List α}
    {items : List β} (written : List.Forall₂ writes members items) {item : β}
    (inItems : item ∈ items) : ∃ member ∈ members, writes member item := by
  induction written with
  | nil => cases inItems
  | cons writesItem _ inductionHypothesis =>
    rcases List.mem_cons.mp inItems with rfl | inItems
    · exact ⟨_, List.mem_cons_self, writesItem⟩
    · obtain ⟨member, inMembers, writes⟩ := inductionHypothesis inItems
      exact ⟨member, List.mem_cons_of_mem _ inMembers, writes⟩

theorem AreBlank.endsNumber_append {blanks rest : Input} (blank : AreBlank blanks)
    (ends : EndsNumber rest) : EndsNumber (blanks ++ rest) := by
  cases blanks with
  | nil => exact ends
  | cons char blanks => exact endsNumber_of_isBlank (blank char List.mem_cons_self) _

/-- No number goes on behind an item. -/
theorem Separated.endsNumber {bracket : Bracket} {items : List Input} {text : Input}
    (separated : Separated bracket items text) (rest : Input) : EndsNumber (text ++ rest) := by
  cases separated with
  | close blank =>
    rw [List.append_assoc]
    refine blank.endsNumber_append ?_
    cases bracket <;> exact ⟨rfl, by simp [Bracket.closing], rfl⟩
  | next before _ _ =>
    rw [List.append_assoc]
    exact before.endsNumber_append ⟨rfl, by simp, rfl⟩

/-- The first character of a value is no blank and closes no list. -/
theorem IsValue.starts {text : Input} (isValue : IsValue text) :
    ∃ char rest, text = char :: rest ∧ isBlank char = false ∧ char ≠ ']' := by
  cases isValue with
  | word isWord =>
    simp only [List.mem_cons, List.not_mem_nil, or_false] at isWord
    rcases isWord with rfl | rfl | rfl <;> exact ⟨_, _, rfl, rfl, by decide⟩
  | number isNumber =>
    obtain ⟨digit, rest, rfl, isDigit⟩ := isNumber.starts
    refine ⟨digit, rest, rfl, isBlank_of_isDigit isDigit, ?_⟩
    rintro rfl
    cases isDigit
  | negative _ => exact ⟨'-', _, rfl, rfl, by decide⟩
  | string _ => exact ⟨'"', _, rfl, rfl, by decide⟩
  | list _ _ => exact ⟨'[', _, rfl, rfl, by decide⟩
  | object _ _ _ _ => exact ⟨'\x7b', _, rfl, rfl, by decide⟩

end CodeAtlas.Json
