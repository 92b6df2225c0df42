/-
A value that is passed over is passed over as a whole, whatever it holds.

The reader keeps the brackets that are open on a stack and goes on from value to value until none
is left, so no part of a run belongs to one value alone. What is said of a value is therefore what
it does to a run: `skipBehind` is the run behind a value, and a value takes a run in front of it
to the run behind it, under the same brackets. For a list or an object this follows from its
items, one by one, and a run under no brackets ends where the value does. How much fuel a run
still has never matters, as long as it is more than there is to read.
-/
import CodeAtlas.Proofs.Json.Grammar

namespace CodeAtlas.Json

/-! ### Scalars -/

theorem skipString_plain {char : Char} (quote : char ≠ '"') (backslash : char ≠ '\\')
    (printable : ¬ char.toNat < 0x20) (rest : Input) :
    skipString (char :: rest) = skipString rest := by
  rw [skipString, if_neg printable]
  · exact quote
  · rintro rfl
    exact absurd rfl backslash
  · rintro _ rfl
    exact absurd rfl backslash
  · rintro _ _ rfl
    exact absurd rfl backslash

theorem IsBody.skipString {body : Input} (isBody : IsBody body) (rest : Input) :
    skipString (body ++ '"' :: rest) = .ok rest := by
  induction isBody with
  | nil => rw [List.nil_append, Json.skipString]
  | plain quote backslash printable _ inductionHypothesis =>
    rw [List.cons_append, skipString_plain quote backslash printable, inductionHypothesis]
  | letter known _ inductionHypothesis =>
    rw [List.cons_append, List.cons_append, Json.skipString, if_pos known, inductionHypothesis]
    exact escapeLetter?_ne known
  | code writes _ inductionHypothesis =>
    rw [List.cons_append, List.cons_append, List.append_assoc, Json.skipString, writes.takeHex]
    dsimp only
    rw [writes.drop, inductionHypothesis]

theorem skipDigits_append {digits rest : Input} (areDigits : ∀ char ∈ digits, isDigit char = true)
    (ends : seesDigit rest = false) : skipDigits (digits ++ rest) = rest := by
  rw [skipDigits, List.dropWhile_append_of_pos areDigits]
  cases rest with
  | nil => rfl
  | cons char rest => exact List.dropWhile_cons_of_neg (by simpa [seesDigit] using ends)

theorem AreDigits.seesDigit {digits : Input} (areDigits : AreDigits digits) (rest : Input) :
    seesDigit (digits ++ rest) = true := by
  obtain ⟨nonempty, areDigits⟩ := areDigits
  obtain ⟨digit, more, rfl⟩ := List.exists_cons_of_ne_nil nonempty
  simp [Json.seesDigit, areDigits digit List.mem_cons_self]

theorem AreDigits.skipPower {sign digits rest : Input} (areDigits : AreDigits digits)
    (isSign : sign = [] ∨ sign = ['+'] ∨ sign = ['-']) (ends : Json.seesDigit rest = false) :
    skipNumber.skipPower (sign ++ (digits ++ rest)) = .ok rest := by
  have sees := areDigits.seesDigit rest
  have skipped := skipDigits_append areDigits.2 ends
  rcases isSign with rfl | rfl | rfl
  · obtain ⟨digit, more, rfl⟩ := List.exists_cons_of_ne_nil areDigits.1
    have isDigit : isDigit digit = true := areDigits.2 digit List.mem_cons_self
    have notPlus : digit ≠ '+' := by
      rintro rfl
      cases isDigit
    have notMinus : digit ≠ '-' := by
      rintro rfl
      cases isDigit
    simp only [skipNumber.skipPower, List.nil_append, List.cons_append] at sees skipped ⊢
    split
    next same => exact absurd (List.cons.inj same).1 notPlus
    next same => exact absurd (List.cons.inj same).1 notMinus
    next => rw [if_pos sees, skipped]
  · simp [skipNumber.skipPower, sees, skipped]
  · simp [skipNumber.skipPower, sees, skipped]

theorem IsPower.seesDigit {power rest : Input} (isPower : IsPower power) (ends : EndsNumber rest) :
    seesDigit (power ++ rest) = false ∧ (power ++ rest).head? ≠ some '.' := by
  cases isPower with
  | nil => exact ⟨ends.1, ends.2.1⟩
  | mark isMark _ _ => rcases isMark with rfl | rfl <;> exact ⟨rfl, by simp⟩

/-- A power of ten is passed over if there is one. -/
theorem IsPower.skip {power rest : Input} (isPower : IsPower power) (ends : EndsNumber rest) :
    (if seesPower (power ++ rest) then skipNumber.skipPower (power ++ rest).tail
      else .ok (power ++ rest)) = .ok rest := by
  cases isPower with
  | nil => rw [List.nil_append, ends.2.2, if_neg Bool.false_ne_true]
  | mark isMark isSign areDigits =>
    rw [if_pos (by rcases isMark with rfl | rfl <;> rfl), List.cons_append, List.tail_cons,
      List.append_assoc, areDigits.skipPower isSign ends.1]

theorem IsPlaces.seesDigit {places power rest : Input} (isPlaces : IsPlaces places)
    (isPower : IsPower power) (ends : EndsNumber rest) :
    seesDigit (places ++ (power ++ rest)) = false := by
  cases isPlaces with
  | nil => exact (isPower.seesDigit ends).1
  | point _ => rfl

/-- A number is passed over in front of a text that does not go on with it. -/
theorem IsNumber.skipNumber {text rest : Input} (isNumber : IsNumber text)
    (ends : EndsNumber rest) : skipNumber (text ++ rest) = .ok rest := by
  obtain @⟨whole, places, power, ⟨⟨nonempty, areDigits⟩, zero⟩, isPlaces, isPower⟩ := isNumber
  obtain ⟨first, more, rfl⟩ := List.exists_cons_of_ne_nil nonempty
  obtain ⟨digit, moreDigits⟩ := List.forall_mem_cons.mp areDigits
  have noDigit := isPlaces.seesDigit isPower ends
  have skipped := skipDigits_append moreDigits noDigit
  have legal : ¬ ((!isDigit first) = true ∨
      (first = '0' ∧ Json.seesDigit (more ++ (places ++ (power ++ rest))) = true)) := by
    rintro (notDigit | ⟨rfl, further⟩)
    · simp [digit] at notDigit
    · obtain rfl : more = [] := (List.cons.inj (zero rfl)).2
      simp [noDigit] at further
  rw [List.append_assoc, List.append_assoc, List.cons_append, Json.skipNumber, if_neg legal,
    skipped]
  cases isPlaces with
  | nil =>
    rw [List.nil_append]
    split
    next behind => exact absurd (by rw [behind, List.head?_cons]) (isPower.seesDigit ends).2
    next => exact isPower.skip ends
  | point places =>
    simp only [List.cons_append, places.seesDigit, Bool.not_true, Bool.false_eq_true, if_false,
      skipDigits_append places.2 (isPower.seesDigit ends).1]
    exact isPower.skip ends

theorem skipKey_isMember {body value item : Input} (isMember : IsMember body value item)
    (isBody : IsBody body) {blanks : Input} (blank : AreBlank blanks) (rest : Input) :
    ∃ behind, AreBlank behind ∧
      skipKey (blanks ++ (item ++ rest)) = .ok (behind ++ (value ++ rest)) := by
  obtain ⟨before, behind, blankBefore, blankBehind, rfl⟩ := isMember
  refine ⟨behind, blankBehind, ?_⟩
  have key := isBody.skipString (before ++ ':' :: (behind ++ (value ++ rest)))
  simp [skipKey, skipBlanks_append blank, skipBlanks_cons '"' rfl, key,
    skipBlanks_append blankBefore, skipBlanks_cons ':' rfl, bind, Except.bind, pure, Except.pure]

/-! ### Runs -/

/-- The run inside of brackets: at a value of a list, or at a key of an object. -/
def skipInside (fuel : Nat) : List Bracket × Input → Except Fault Input
  | ([], input) => .ok input
  | (.list :: outer, input) => skipValues fuel (.list :: outer) input
  | (.object :: outer, input) => do skipValues fuel (.object :: outer) (← skipKey input)

/-- The run behind a value. -/
def skipBehind (fuel : Nat) (brackets : List Bracket) (input : Input) : Except Fault Input :=
  skipClosing (fuel + 1) true brackets input >>= skipInside fuel

/-- The character that opens a bracket. -/
def Bracket.opening : Bracket → Char
  | .list => '['
  | .object => '\x7b'

theorem skipValues_scalar {fuel : Nat} {brackets : List Bracket} {input rest : Input}
    (scalar : skipScalar? (skipBlanks input) = .ok (some rest)) :
    skipValues (fuel + 1) brackets input = skipBehind fuel brackets rest := by
  simp only [skipValues, scalar, skipBehind, bind, Except.bind]
  cases skipClosing (fuel + 1) true brackets rest with
  | error fault => rfl
  | ok closed =>
    obtain ⟨_ | ⟨_ | _, outer⟩, input⟩ := closed <;> rfl

theorem skipValues_open {fuel : Nat} {bracket : Bracket} {brackets : List Bracket}
    {blanks : Input} (blank : AreBlank blanks) (rest : Input) :
    skipValues (fuel + 1) brackets (blanks ++ bracket.opening :: rest) =
      skipClosing (fuel + 1) false (bracket :: brackets) rest >>= skipInside fuel := by
  have opens : skipBlanks (blanks ++ bracket.opening :: rest) = bracket.opening :: rest := by
    rw [skipBlanks_append blank, skipBlanks_cons _ (by cases bracket <;> rfl)]
  have notScalar : skipScalar? (bracket.opening :: rest) = .ok none := by cases bracket <;> rfl
  have isBracket : (if (bracket.opening :: rest).head? = some '[' then Bracket.list
      else Bracket.object) = bracket := by cases bracket <;> rfl
  simp only [skipValues, opens, notScalar, isBracket, List.tail_cons, bind, Except.bind]
  cases skipClosing (fuel + 1) false (bracket :: brackets) rest with
  | error fault => rfl
  | ok closed =>
    obtain ⟨_ | ⟨_ | _, outer⟩, input⟩ := closed <;> rfl

theorem length_skipBlanks_le (input : Input) : (skipBlanks input).length ≤ input.length :=
  (List.dropWhile_suffix isBlank).length_le

/-- More fuel than there is to read is enough. -/
theorem skipClosing_fuel {input : Input} {fuel other : Nat} (enough : input.length < fuel)
    (alsoEnough : input.length < other) (behindValue : Bool) (brackets : List Bracket) :
    skipClosing fuel behindValue brackets input = skipClosing other behindValue brackets input := by
  induction fuel generalizing input other behindValue brackets with
  | zero => omega
  | succ fuel inductionHypothesis =>
    obtain ⟨other, rfl⟩ := Nat.exists_eq_succ_of_ne_zero (Nat.ne_zero_of_lt alsoEnough)
    cases brackets with
    | nil => rfl
    | cons bracket outer =>
      have shorter := length_skipBlanks_le input
      simp only [skipClosing]
      split
      · rfl
      next char rest behind =>
        rw [behind, List.length_cons] at shorter
        have same : skipClosing fuel true outer rest = skipClosing other true outer rest :=
          inductionHypothesis (by omega) (by omega) true outer
        rw [same]

/-- At the closing bracket, what is behind it is behind a value. -/
theorem skipClosing_close {fuel : Nat} {behindValue : Bool} {bracket : Bracket}
    {brackets : List Bracket} {blanks rest : Input} (blank : AreBlank blanks)
    (enough : rest.length < fuel) :
    skipClosing (fuel + 1) behindValue (bracket :: brackets)
        (blanks ++ [bracket.closing] ++ rest) >>= skipInside fuel =
      skipBehind fuel brackets rest := by
  have closes : skipBlanks (blanks ++ [bracket.closing] ++ rest) = bracket.closing :: rest := by
    rw [List.append_assoc, skipBlanks_append blank, List.singleton_append,
      skipBlanks_cons _ (by cases bracket <;> rfl)]
  have noComma : (bracket.closing == ',') = false := by cases bracket <;> rfl
  rw [skipClosing, closes]
  simp only [noComma, Bool.and_false, Bool.false_eq_true, if_false, beq_self_eq_true, if_true]
  rw [skipBehind, skipClosing_fuel enough (Nat.lt_succ_of_lt enough)]

/-! ### Values -/

/-- An item inside of brackets takes a run at it to the run behind it. -/
structure Passes (bracket : Bracket) (item : Input) : Prop where
  starts : ∃ char rest, item = char :: rest ∧ isBlank char = false ∧ char ≠ bracket.closing
  passes : ∀ (fuel : Nat) (brackets : List Bracket) (blanks rest : Input), AreBlank blanks →
    EndsNumber rest → (item ++ rest).length ≤ fuel →
    ∃ left, rest.length ≤ left ∧
      skipInside (fuel + 1) (bracket :: brackets, blanks ++ (item ++ rest)) =
        skipBehind left (bracket :: brackets) rest

/-- The items behind the first are passed one by one. -/
theorem Separated.skipBehind {bracket : Bracket} {items : List Input} {text : Input}
    (separated : Separated bracket items text) (passes : ∀ item ∈ items, Passes bracket item)
    {fuel : Nat} {brackets : List Bracket} {rest : Input} (enough : (text ++ rest).length ≤ fuel) :
    ∃ left, rest.length ≤ left ∧
      skipBehind fuel (bracket :: brackets) (text ++ rest) = skipBehind left brackets rest := by
  induction separated generalizing fuel with
  | close blank =>
    simp only [List.length_append, List.length_singleton] at enough
    exact ⟨fuel, by omega, skipClosing_close blank (by omega)⟩
  | @next before behind item text items blankBefore blankBehind separated inductionHypothesis =>
    obtain ⟨passesItem, passesItems⟩ := List.forall_mem_cons.mp passes
    simp only [List.append_assoc, List.cons_append] at enough ⊢
    have comma : skipClosing (fuel + 1) true (bracket :: brackets)
        (before ++ ',' :: (behind ++ (item ++ (text ++ rest)))) =
          .ok (bracket :: brackets, behind ++ (item ++ (text ++ rest))) := by
      simp [skipClosing, skipBlanks_append blankBefore, skipBlanks_cons ',' rfl]
    obtain ⟨fuel, rfl⟩ := exists_eq_succ enough
    simp only [List.length_append, List.length_cons] at enough
    obtain ⟨left, more, passed⟩ := passesItem.passes fuel brackets behind (text ++ rest)
      blankBehind (separated.endsNumber rest) (by simp only [List.length_append]; omega)
    obtain ⟨last, evenMore, ended⟩ := inductionHypothesis passesItems more
    exact ⟨last, evenMore, by rw [Json.skipBehind, comma]; exact passed.trans ended⟩

/-- Items between brackets are passed together with the brackets. -/
theorem Enclosed.skipValues {bracket : Bracket} {items : List Input} {text : Input}
    (enclosed : Enclosed bracket items text) (passes : ∀ item ∈ items, Passes bracket item)
    {fuel : Nat} {brackets : List Bracket} {blanks rest : Input} (blank : AreBlank blanks)
    (enough : (bracket.opening :: text ++ rest).length ≤ fuel) :
    ∃ left, rest.length ≤ left ∧
      skipValues (fuel + 1) brackets (blanks ++ (bracket.opening :: text ++ rest)) =
        Json.skipBehind left brackets rest := by
  rw [List.cons_append] at enough ⊢
  rw [skipValues_open blank]
  cases enclosed with
  | empty blank =>
    simp only [List.length_cons, List.length_append] at enough
    exact ⟨fuel, by omega, skipClosing_close blank (by omega)⟩
  | @items blanks item text items blank separated =>
    obtain ⟨passesItem, passesItems⟩ := List.forall_mem_cons.mp passes
    obtain ⟨fuel, rfl⟩ := Nat.exists_eq_succ_of_ne_zero (Nat.ne_zero_of_lt enough)
    simp only [List.append_assoc, List.length_cons, List.length_append] at enough ⊢
    obtain ⟨left, more, passed⟩ := passesItem.passes fuel brackets [] (text ++ rest) areBlank_nil
      (separated.endsNumber rest) (by simp only [List.length_append]; omega)
    obtain ⟨last, evenMore, ended⟩ := separated.skipBehind passesItems more
    refine ⟨last, evenMore, (Eq.trans ?_ passed).trans ended⟩
    obtain ⟨char, written, rfl, solid, notClosing⟩ := passesItem.starts
    simp [skipClosing, skipBlanks_append blank, skipBlanks_cons char solid, notClosing, bind,
      Except.bind]

/-- A value takes a run at it to the run behind it. -/
def Skips (text : Input) : Prop :=
  ∀ (fuel : Nat) (brackets : List Bracket) (blanks rest : Input), AreBlank blanks →
    EndsNumber rest → (text ++ rest).length ≤ fuel →
    ∃ left, rest.length ≤ left ∧
      skipValues (fuel + 1) brackets (blanks ++ (text ++ rest)) = skipBehind left brackets rest

theorem Skips.inList {text : Input} (skips : Skips text) (isValue : IsValue text) :
    Passes .list text :=
  ⟨isValue.starts, fun fuel brackets => skips fuel (.list :: brackets)⟩

theorem Skips.inObject {body value item : Input} (skips : Skips value) (isBody : IsBody body)
    (isMember : IsMember body value item) : Passes .object item where
  starts := by
    obtain ⟨before, behind, -, -, rfl⟩ := isMember
    exact ⟨'"', _, rfl, rfl, by decide⟩
  passes fuel brackets blanks rest blank ends enough := by
    obtain ⟨behind, blankBehind, key⟩ := skipKey_isMember isMember isBody blank rest
    have shorter : (value ++ rest).length ≤ fuel := by
      obtain ⟨before, behind, -, -, rfl⟩ := isMember
      simp only [List.length_append, List.length_cons] at enough ⊢
      omega
    obtain ⟨left, more, passed⟩ := skips fuel (.object :: brackets) behind rest blankBehind ends
      shorter
    exact ⟨left, more, by rw [skipInside, key]; exact passed⟩

theorem skips_of_skipScalar? {char : Char} {text : Input} (solid : isBlank char = false)
    (scalar : ∀ rest, EndsNumber rest → skipScalar? (char :: text ++ rest) = .ok (some rest)) :
    Skips (char :: text) := by
  intro fuel brackets blanks rest blank ends enough
  rw [List.length_append] at enough
  refine ⟨fuel, by omega, skipValues_scalar ?_⟩
  rw [skipBlanks_append blank, List.cons_append, skipBlanks_cons char solid]
  exact scalar rest ends

theorem skipScalar?_digit {char : Char} (digit : isDigit char = true) (rest : Input) :
    skipScalar? (char :: rest) = (skipNumber (char :: rest)).map some := by
  rw [skipScalar?, if_pos digit]
  -- No value of another form starts with a digit.
  all_goals
    rintro rfl
    cases digit

/-- Every value is passed over. -/
theorem IsValue.skips {text : Input} (isValue : IsValue text) : Skips text := by
  induction isValue with
  | word isWord =>
    simp only [List.mem_cons, List.not_mem_nil, or_false] at isWord
    rcases isWord with rfl | rfl | rfl <;> exact skips_of_skipScalar? rfl fun rest _ => rfl
  | number isNumber =>
    obtain ⟨digit, more, rfl, isDigit⟩ := isNumber.starts
    refine skips_of_skipScalar? (isBlank_of_isDigit isDigit) fun rest ends => ?_
    have skipped := isNumber.skipNumber ends
    rw [List.cons_append] at skipped ⊢
    rw [skipScalar?_digit isDigit, skipped]
    rfl
  | negative isNumber =>
    refine skips_of_skipScalar? rfl fun rest ends => ?_
    rw [List.cons_append, skipScalar?, isNumber.skipNumber ends]
    rfl
  | string isBody =>
    refine skips_of_skipScalar? rfl fun rest _ => ?_
    rw [List.cons_append, List.append_assoc, skipScalar?, List.singleton_append, isBody.skipString]
    rfl
  | list areValues enclosed inductionHypothesis =>
    intro fuel brackets blanks rest blank _ enough
    refine enclosed.skipValues (fun item inItems => ?_) blank enough
    exact (inductionHypothesis item inItems).inList (areValues item inItems)
  | object areBodies areValues areMembers enclosed inductionHypothesis =>
    intro fuel brackets blanks rest blank _ enough
    refine enclosed.skipValues (fun item inItems => ?_) blank enough
    obtain ⟨member, inMembers, isMember⟩ := exists_mem_of_forall₂ areMembers inItems
    exact (inductionHypothesis member inMembers).inObject (areBodies member inMembers) isMember

/-- A run under no brackets ends where the value does. -/
theorem IsValue.skipValue {text : Input} (isValue : IsValue text) {blanks rest : Input}
    (blank : AreBlank blanks) (ends : EndsNumber rest) :
    skipValue (blanks ++ (text ++ rest)) = .ok rest := by
  have enough : (text ++ rest).length ≤ (blanks ++ (text ++ rest)).length := by simp
  obtain ⟨left, -, skipped⟩ := isValue.skips _ [] blanks rest blank ends enough
  rw [Json.skipValue, skipped]
  rfl

end CodeAtlas.Json
