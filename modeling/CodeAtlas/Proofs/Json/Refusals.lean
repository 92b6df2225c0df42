/-
A record whose keys are not all there once is refused, however deep it stands in a text.

A reader gives up at the first fault it meets, and one fault may hide another. So nothing is said
here about which fault is found, only that a text with one is not read. For this it has to be
known that a reader does not lose its place in what it reads before: `Exact` says that what it
takes from a value is the value and nothing else, if it takes it at all. It holds of strings,
whole numbers and names, and passes to lists and records.

A run over an object that ends well has met every key of a field once and has read a value behind
it; this is `Accepts`. A text in which some key is missing or repeated, or in which a value is
refused, therefore has no such run.
-/
import CodeAtlas.Proofs.Json.Layouts

namespace CodeAtlas.Json

variable {α β : Type}

/-- What ends well behind a step ends well in both. -/
theorem exists_of_bind_eq_ok {step : Except Fault α} {next : α → Except Fault β} {result : β}
    (ended : step >>= next = .ok result) : ∃ taken, step = .ok taken ∧ next taken = .ok result := by
  cases step with
  | error fault => cases ended
  | ok taken => exact ⟨taken, rfl, ended⟩

/-! ### What may be read from a value -/

/-- What is read from a value is the whole value. -/
def Exact (read : Reader α) : Prop :=
  ∀ text, IsValue text → ∀ blanks rest, AreBlank blanks → EndsNumber rest → ∀ value left,
    read (blanks ++ (text ++ rest)) = .ok (value, left) → left = rest

/-- Nothing is read from a text. -/
def Refuses (read : Reader α) (text : Input) : Prop :=
  ∀ blanks rest, AreBlank blanks → EndsNumber rest → ∀ result,
    read (blanks ++ (text ++ rest)) ≠ .ok result

/-! ### Values told by their first character -/

theorem not_isNumber_cons {char : Char} {rest : Input} (notDigit : isDigit char = false) :
    ¬ IsNumber (char :: rest) := by
  intro isNumber
  obtain ⟨digit, _, same, isDigit⟩ := isNumber.starts
  obtain ⟨rfl, -⟩ := List.cons.inj same
  exact absurd isDigit (by simp [notDigit])

namespace IsValue

variable {rest : Input}

theorem string_of_quote (isValue : IsValue ('"' :: rest)) :
    ∃ body, IsBody body ∧ rest = body ++ ['"'] := by
  cases isValue with
  | word isWord => simp at isWord
  | number isNumber => exact absurd isNumber (not_isNumber_cons rfl)
  | string isBody => exact ⟨_, isBody, rfl⟩

theorem items_of_bracket (isValue : IsValue ('[' :: rest)) :
    ∃ items, (∀ item ∈ items, IsValue item) ∧ Enclosed .list items rest := by
  cases isValue with
  | word isWord => simp at isWord
  | number isNumber => exact absurd isNumber (not_isNumber_cons rfl)
  | list areValues enclosed => exact ⟨_, areValues, enclosed⟩

theorem items_of_brace (isValue : IsValue ('\x7b' :: rest)) :
    ∃ items, (∀ item ∈ items, ∃ body value, IsBody body ∧ IsValue value ∧
      IsMember body value item) ∧ Enclosed .object items rest := by
  cases isValue with
  | word isWord => simp at isWord
  | number isNumber => exact absurd isNumber (not_isNumber_cons rfl)
  | object areBodies areValues areMembers enclosed =>
    refine ⟨_, fun item inItems => ?_, enclosed⟩
    obtain ⟨member, inMembers, isMember⟩ := exists_mem_of_forall₂ areMembers inItems
    exact ⟨_, _, areBodies member inMembers, areValues member inMembers, isMember⟩

theorem number_of_minus (isValue : IsValue ('-' :: rest)) : IsNumber rest := by
  cases isValue with
  | word isWord => simp at isWord
  | number isNumber => exact absurd isNumber (not_isNumber_cons rfl)
  | negative isNumber => exact isNumber

theorem null_of_letter (isValue : IsValue ('n' :: rest)) : rest = ['u', 'l', 'l'] := by
  cases isValue with
  | word isWord => simpa using isWord
  | number isNumber => exact absurd isNumber (not_isNumber_cons rfl)

theorem number_of_digit {digit : Char} (isDigit : isDigit digit = true)
    (isValue : IsValue (digit :: rest)) : IsNumber (digit :: rest) := by
  cases isValue with
  | number isNumber => exact isNumber
  | word isWord =>
    simp only [List.mem_cons, List.not_mem_nil, or_false, List.cons.injEq] at isWord
    rcases isWord with ⟨rfl, -⟩ | ⟨rfl, -⟩ | ⟨rfl, -⟩ <;> cases isDigit
  | _ => cases isDigit

end IsValue

/-! ### Strings and names -/

/-- A string that is read is read to its closing quote. -/
theorem IsBody.eq_of_takeString {body rest left : Input} {text : List Char} (isBody : IsBody body)
    (taken : takeString (body ++ '"' :: rest) = .ok (text, left)) :
    Spells text body ∧ left = rest := by
  rcases isBody.spells_or_hasNoText with ⟨other, spells⟩ | noText
  · rw [spells.takeString] at taken
    obtain ⟨rfl, rfl⟩ := Prod.mk.inj (Except.ok.inj taken)
    exact ⟨spells, rfl⟩
  · obtain ⟨fault, refused⟩ := noText rest
    rw [refused] at taken
    cases taken

theorem exact_readText : Exact readText := by
  intro text isValue blanks rest blank _ value left taken
  obtain ⟨char, more, rfl, solid, -⟩ := isValue.starts
  rw [readText, readString, skipBlanks_append blank, List.cons_append, skipBlanks_cons char solid]
    at taken
  by_cases quote : char = '"'
  · subst quote
    obtain ⟨body, isBody, rfl⟩ := isValue.string_of_quote
    rw [List.append_assoc, List.singleton_append] at taken
    split at taken
    next => cases taken
    next string =>
      cases taken
      exact (isBody.eq_of_takeString string).2
  · simp [quote] at taken

theorem IsValue.eq_of_takeNull {value : Input} (isValue : IsValue value) {blanks rest left : Input}
    (blank : AreBlank blanks) (taken : takeNull (blanks ++ (value ++ rest)) = .ok left) :
    left = rest := by
  obtain ⟨char, more, rfl, solid, -⟩ := isValue.starts
  rw [takeNull, skipBlanks_append blank, List.cons_append, skipBlanks_cons char solid] at taken
  by_cases letter : char = 'n'
  · subst letter
    obtain rfl := isValue.null_of_letter
    cases taken
    rfl
  · simp [letter] at taken

/-- A choice is read from a string, or from an object with one key and null behind it. -/
theorem exact_readChoice (choices : List String) (find? : String → Option α) :
    Exact (readChoice choices find?) := by
  intro text isValue blanks rest blank _ value left taken
  obtain ⟨char, more, rfl, solid, -⟩ := isValue.starts
  simp only [readChoice, skipBlanks_append blank, List.cons_append, skipBlanks_cons char solid]
    at taken
  by_cases quote : char = '"'
  · subst quote
    obtain ⟨body, isBody, rfl⟩ := isValue.string_of_quote
    rw [List.append_assoc, List.singleton_append] at taken
    obtain ⟨⟨name, behind⟩, string, taken⟩ := exists_of_bind_eq_ok taken
    obtain ⟨choice, -, taken⟩ := exists_of_bind_eq_ok taken
    cases taken
    exact (isBody.eq_of_takeString string).2
  by_cases brace : char = '\x7b'
  · subst brace
    obtain ⟨items, areItems, enclosed⟩ := isValue.items_of_brace
    obtain ⟨⟨name, behindKey⟩, string, taken⟩ := exists_of_bind_eq_ok taken
    obtain ⟨choice, -, taken⟩ := exists_of_bind_eq_ok taken
    obtain ⟨behindColon, colon, taken⟩ := exists_of_bind_eq_ok taken
    obtain ⟨behindNull, null, taken⟩ := exists_of_bind_eq_ok taken
    cases enclosed with
    | empty blank =>
      rw [List.append_assoc, readString, skipBlanks_append blank] at string
      cases string
    | @items _ item more items blank separated =>
      obtain ⟨body, written, isBody, isWritten, before, behind, blankBefore, blankBehind, rfl⟩ :=
        areItems item List.mem_cons_self
      simp only [readString, List.append_assoc, List.cons_append, skipBlanks_append blank,
        skipBlanks_cons '"' rfl] at string
      obtain ⟨-, rfl⟩ := isBody.eq_of_takeString string
      rw [takeColon_append blankBefore] at colon
      cases colon
      obtain rfl := isWritten.eq_of_takeNull blankBehind null
      cases separated with
      | close blank =>
        rw [List.append_assoc, skipBlanks_append blank] at taken
        cases taken
        rfl
      | next blank _ _ =>
        simp [skipBlanks_append blank, skipBlanks_cons ',' rfl] at taken
  · simp [quote, brace] at taken

/-! ### Numbers -/

/-- Digits that are taken are those that come next, if no other digit follows them. -/
theorem takeDigits_rest (significand count : Nat) (input : Input)
    (ends : seesDigit (takeDigits significand count input).2.2 = false) :
    (takeDigits significand count input).2.2 = skipDigits input := by
  fun_induction takeDigits significand count input with
  | case1 => rfl
  | case2 significand count char rest next taken inductionHypothesis =>
    rw [inductionHypothesis ends, skipDigits, skipDigits, List.dropWhile_cons_of_pos taken.1]
  | case3 significand count char rest next notTaken =>
    exact (List.dropWhile_cons_of_neg (by simpa [seesDigit] using ends)).symm

theorem fit_eq_ok {limit value : Nat} {wanted : String} {number : Numeral}
    (fits : number.fit limit wanted = .ok value) : ∃ whole, number = .natural whole := by
  cases number with
  | natural whole => exact ⟨whole, rfl⟩
  | opposite _ => cases fits
  | real _ => cases fits

/-- A number that is read as a whole one is read to its end. -/
theorem IsNumber.eq_of_takeNumber {text rest left : Input} {negative : Bool} {value : Nat}
    (isNumber : IsNumber text) (ends : EndsNumber rest)
    (taken : takeNumber negative (text ++ rest) = .ok (.natural value, left)) : left = rest := by
  obtain @⟨whole, places, power, ⟨⟨nonempty, areDigits⟩, -⟩, isPlaces, isPower⟩ := isNumber
  have skipped : skipDigits (whole ++ (places ++ power) ++ rest) = places ++ (power ++ rest) := by
    rw [List.append_assoc, List.append_assoc]
    exact skipDigits_append areDigits (isPlaces.seesDigit isPower ends)
  obtain ⟨first, more, rfl⟩ := List.exists_cons_of_ne_nil nonempty
  rw [List.cons_append, List.cons_append, takeNumber] at taken
  rw [List.cons_append, List.cons_append] at skipped
  have digits := takeDigits_rest 0 0 (first :: (more ++ (places ++ power) ++ rest))
  generalize takeDigits 0 0 (first :: (more ++ (places ++ power) ++ rest)) = parts at taken digits
  obtain ⟨significand, count, tail⟩ := parts
  split at taken
  · cases taken
  split at taken
  · cases taken
  dsimp only at taken digits
  split at taken
  · obtain ⟨_, -, taken⟩ := exists_of_bind_eq_ok taken
    cases taken
  next noDigit =>
    obtain rfl := (digits (Bool.eq_false_iff.mpr noDigit)).trans skipped
    split at taken
    · obtain ⟨_, -, taken⟩ := exists_of_bind_eq_ok taken
      cases taken
    next notReal =>
      obtain ⟨noPoint, noPower⟩ := not_or.mp notReal
      cases isPlaces with
      | point _ => simp at noPoint
      | nil =>
        cases isPower with
        | mark isMark _ _ => rcases isMark with rfl | rfl <;> simp [seesPower] at noPower
        | nil =>
          split at taken
          · cases taken
            rfl
          · split at taken <;> cases taken

theorem exact_readNatural (limit : Nat) (wanted : String) : Exact (readNatural limit wanted) := by
  intro text isValue blanks rest blank ends value left taken
  obtain ⟨char, more, rfl, solid, -⟩ := isValue.starts
  simp only [readNatural, skipBlanks_append blank, List.cons_append, skipBlanks_cons char solid]
    at taken
  have whole {negative : Bool} {text tail : Input} {number : Numeral} (isNumber : IsNumber text)
      (digits : takeNumber negative (text ++ rest) = .ok (number, tail))
      (fits : number.fit limit wanted = .ok value) : tail = rest := by
    obtain ⟨natural, rfl⟩ := fit_eq_ok fits
    exact isNumber.eq_of_takeNumber ends digits
  split at taken
  · cases taken
  next same =>
    obtain ⟨rfl, rfl⟩ := List.cons.inj same
    split at taken
    · cases taken
    next digits =>
      split at taken
      · cases taken
      next fits =>
        cases taken
        exact whole isValue.number_of_minus digits fits
  next same =>
    obtain ⟨rfl, rfl⟩ := List.cons.inj same
    split at taken
    next digit =>
      split at taken
      · cases taken
      next digits =>
        split at taken
        · cases taken
        next fits =>
          cases taken
          exact whole (isValue.number_of_digit digit) digits fits
    · cases taken

/-! ### Lists -/

/-- A value that is read is not refused, and what is left is what is behind it. -/
theorem Exact.eq_of_ok {read : Reader α} (exact : Exact read) {text blanks rest left : Input}
    (isValue : IsValue text) (blank : AreBlank blanks) (ends : EndsNumber rest) {value : α}
    (taken : read (blanks ++ (text ++ rest)) = .ok (value, left)) :
    left = rest ∧ ¬ Refuses read text :=
  ⟨exact text isValue blanks rest blank ends value left taken,
    fun refuses => refuses blanks rest blank ends _ taken⟩

/-- A run over elements that ends well ends behind the list and has read every element. -/
theorem eq_of_readElements {read : Reader α} (exact : Exact read) {items : List Input}
    (areValues : ∀ item ∈ items, IsValue item) {first : Bool} {text : Input}
    (ahead : Ahead .list first items text) {fuel : Nat} {rest left : Input} {values : List α}
    (ended : readElements read fuel first (text ++ rest) = .ok (values, left)) :
    left = rest ∧ ∀ item ∈ items, ¬ Refuses read item := by
  induction items generalizing first text fuel values with
  | nil =>
    obtain ⟨blanks, blank, rfl⟩ := ahead.close
    cases fuel with
    | zero => cases ended
    | succ fuel =>
      rw [List.append_assoc] at ended
      cases (readElements_close blank rest).symm.trans ended
      exact ⟨rfl, by simp⟩
  | cons item items inductionHypothesis =>
    cases fuel with
    | zero => cases ended
    | succ fuel =>
      obtain ⟨isValue, areValues⟩ := List.forall_mem_cons.mp areValues
      obtain ⟨more, separated, -, element⟩ := ahead.nextElement? isValue.starts rest
      rw [readElements] at ended
      obtain ⟨found, next, ended⟩ := exists_of_bind_eq_ok ended
      cases element.symm.trans next
      obtain ⟨⟨value, behind⟩, taken, ended⟩ := exists_of_bind_eq_ok ended
      have ends := separated.endsNumber rest
      obtain ⟨rfl, accepted⟩ := exact.eq_of_ok isValue areBlank_nil ends taken
      obtain ⟨⟨values, last⟩, later, ended⟩ := exists_of_bind_eq_ok ended
      cases ended
      obtain ⟨rfl, allAccepted⟩ := inductionHypothesis areValues separated.ahead later
      exact ⟨rfl, List.forall_mem_cons.mpr ⟨accepted, allAccepted⟩⟩

/-- A list with an element that has a fault. -/
inductive FaultyList (faulty : Input → Prop) : Input → Prop where
  | list {items : List Input} {text item : Input} : (∀ item ∈ items, IsValue item) →
      Enclosed .list items text → item ∈ items → faulty item → FaultyList faulty ('[' :: text)

theorem readList_bracket (read : Reader α) {blanks : Input} (blank : AreBlank blanks)
    (input : Input) : readList read (blanks ++ '[' :: input) =
      readElements read (input.length + 1) true input := by
  rw [readList, skipBlanks_append blank, skipBlanks_cons '[' rfl]
  rfl

theorem exact_readList {read : Reader α} (exact : Exact read) : Exact (readList read) := by
  intro text isValue blanks rest blank _ value left taken
  obtain ⟨char, more, rfl, solid, -⟩ := isValue.starts
  by_cases bracket : char = '['
  · subst bracket
    obtain ⟨items, areValues, enclosed⟩ := isValue.items_of_bracket
    rw [List.cons_append, readList_bracket read blank] at taken
    exact (eq_of_readElements exact areValues enclosed.ahead taken).1
  · rw [readList, skipBlanks_append blank, List.cons_append, skipBlanks_cons char solid] at taken
    simp [bracket] at taken

theorem FaultyList.refuses {read : Reader α} (exact : Exact read) {faulty : Input → Prop}
    (refuses : ∀ item, faulty item → Refuses read item) {text : Input}
    (list : FaultyList faulty text) : Refuses (readList read) text := by
  obtain ⟨areValues, enclosed, inItems, isFaulty⟩ := list
  rintro blanks rest blank _ ⟨values, left⟩ taken
  rw [List.cons_append, readList_bracket read blank] at taken
  obtain ⟨-, accepted⟩ := eq_of_readElements exact areValues enclosed.ahead taken
  exact accepted _ inItems (refuses _ isFaulty)

/-! ### Records -/

theorem Exact.field {read : Reader β} (exact : Exact read) (name : String) (set : α → β → α)
    (record : α) : Exact ((Field.of name read set).read record) := by
  intro text isValue blanks rest blank ends value left taken
  simp only [Field.of] at taken
  split at taken
  · cases taken
  next read =>
    cases taken
    exact exact text isValue blanks rest blank ends _ _ read

theorem Refuses.field {read : Reader β} {text : Input} (refuses : Refuses read text) (name : String)
    (set : α → β → α) (record : α) : Refuses ((Field.of name read set).read record) text := by
  intro blanks rest blank ends result taken
  simp only [Field.of] at taken
  split at taken
  · cases taken
  next read => exact refuses blanks rest blank ends _ read

/-- What a run over the members of an object has met if it ended well. -/
inductive Accepts (shape : Shape α) : List String → List (String × Input) → Prop where
  | done {seen : List String} : shape.missing? seen = none → Accepts shape seen []
  | field {seen : List String} {key : String} {value : Input} {members : List (String × Input)}
      {field : Field α} {record : α} : shape.fields.find? (·.name == key) = some field →
      key ∉ seen → ¬ Refuses (field.read record) value →
      Accepts shape (key :: seen) members → Accepts shape seen ((key, value) :: members)
  | other {seen : List String} {key : String} {value : Input} {members : List (String × Input)} :
      shape.fields.find? (·.name == key) = none →
      Accepts shape (key :: seen) members → Accepts shape seen ((key, value) :: members)

namespace Accepts

variable {shape : Shape α} {seen : List String} {members : List (String × Input)}

/-- Every field has one key: it was seen before, or it was met. -/
theorem count_key (accepts : Accepts shape seen members) {field : Field α}
    (inFields : field ∈ shape.fields) :
    (members.map (·.1)).count field.name + (if field.name ∈ seen then 1 else 0) = 1 := by
  induction accepts with
  | @done seen complete =>
    have named : field.name ∈ shape.fields.map (·.name) := List.mem_map_of_mem inFields
    have isSeen : field.name ∈ seen := by
      simpa using List.find?_eq_none.mp complete field.name named
    simp [isSeen]
  | @field seen key _ _ _ _ _ unseen _ _ inductionHypothesis =>
    by_cases same : key = field.name
    · simp only [same, List.mem_cons_self, if_true] at inductionHypothesis unseen
      simp only [List.map_cons, same, List.count_cons_self, unseen, if_false]
      omega
    · simpa [List.count_cons, same, Ne.symm same] using inductionHypothesis
  | @other seen key _ _ isOther _ inductionHypothesis =>
    have different : key ≠ field.name := fun same =>
      absurd (List.find?_eq_none.mp isOther field inFields) (by simp [same])
    simpa [List.count_cons, different, Ne.symm different] using inductionHypothesis

/-- Every value behind a key of a field was read. -/
theorem exists_not_refuses (accepts : Accepts shape seen members) {member : String × Input}
    (inMembers : member ∈ members) {field : Field α}
    (isField : shape.fields.find? (·.name == member.1) = some field) :
    ∃ record, ¬ Refuses (field.read record) member.2 := by
  induction accepts with
  | done _ => cases inMembers
  | @field _ _ _ _ _ record isFirst _ accepted _ inductionHypothesis =>
    rcases List.mem_cons.mp inMembers with rfl | inMembers
    · cases isFirst.symm.trans isField
      exact ⟨record, accepted⟩
    · exact inductionHypothesis inMembers
  | other isOther _ inductionHypothesis =>
    rcases List.mem_cons.mp inMembers with rfl | inMembers
    · cases isOther.symm.trans isField
    · exact inductionHypothesis inMembers

end Accepts

theorem IsValue.skipBlanks_append {text blanks : Input} (isValue : IsValue text)
    (blank : AreBlank blanks) : skipBlanks (blanks ++ text) = text := by
  obtain ⟨char, more, rfl, solid, -⟩ := isValue.starts
  rw [Json.skipBlanks_append blank, skipBlanks_cons char solid]

/-- A member can be told from its text. -/
theorem writesMember_leftUnique :
    Relator.LeftUnique fun member item => IsValue member.2 ∧ WritesMember member item := by
  rintro ⟨key, value⟩ ⟨other, otherValue⟩ item ⟨isValue, writes⟩ ⟨isOtherValue, writesOther⟩
  obtain ⟨body, spells, before, behind, blankBefore, blankBehind, rfl⟩ := writes
  obtain ⟨body', spells', before', behind', blankBefore', blankBehind', same⟩ := writesOther
  have taken := spells.takeString (before ++ ':' :: (behind ++ value))
  rw [(List.cons.inj same).2, spells'.takeString] at taken
  obtain ⟨name, colon⟩ := Prod.mk.inj (Except.ok.inj taken)
  have behindColon := congrArg skipBlanks colon
  rw [skipBlanks_append blankBefore, skipBlanks_append blankBefore', skipBlanks_cons ':' rfl,
    skipBlanks_cons ':' rfl] at behindColon
  have values := congrArg skipBlanks (List.cons.inj behindColon).2
  rw [isValue.skipBlanks_append blankBehind, isOtherValue.skipBlanks_append blankBehind'] at values
  exact Prod.ext (String.toList_inj.mp name.symm) values.symm

section Runs

variable {shape : Shape α} (exact : ∀ field ∈ shape.fields, ∀ record, Exact (field.read record))

theorem Shape.readMembers_missing {fuel : Nat} {first : Bool} {seen : List String} {record : α}
    {blanks : Input} (blank : AreBlank blanks) {name : String}
    (missing : shape.missing? seen = some name) (rest : Input) :
    shape.readMembers (fuel + 1) first seen record (blanks ++ '\x7d' :: rest) =
      .error (.unfit (.missingField name)) := by
  have closed : skipBlanks (blanks ++ '\x7d' :: rest) = '\x7d' :: rest := by
    rw [skipBlanks_append blank, skipBlanks_cons '\x7d' rfl]
  simp [Shape.readMembers, Shape.nextKey?, closed, missing, bind, Except.bind, throw, throwThe,
    MonadExceptOf.throw]

include exact in
/-- One step of such a run: the value behind a key is read or passed over as a whole. -/
theorem eq_of_readMember {key : String} {seen : List String} {record next : α}
    {before behind value rest left : Input} (blankBefore : AreBlank before)
    (blankBehind : AreBlank behind) (isValue : IsValue value) (ends : EndsNumber rest)
    (ended : shape.readMember key seen record (before ++ ':' :: (behind ++ (value ++ rest))) =
      .ok (next, left)) :
    left = rest ∧ ∀ members, Accepts shape (key :: seen) members →
      Accepts shape seen ((key, value) :: members) := by
  cases found : shape.fields.find? (·.name == key) with
  | none =>
    rw [Shape.readMember_other found blankBefore, isValue.skipValue blankBehind ends] at ended
    cases ended
    exact ⟨rfl, fun _ => .other found⟩
  | some field =>
    by_cases isSeen : key ∈ seen
    · simp [Shape.readMember, found, isSeen, throw, throwThe, MonadExceptOf.throw] at ended
    · rw [Shape.readMember_field found isSeen blankBefore] at ended
      have exactField := exact field (List.mem_of_find?_eq_some found) record
      obtain ⟨rfl, accepted⟩ := exactField.eq_of_ok isValue blankBehind ends ended
      exact ⟨rfl, fun _ => .field found isSeen accepted⟩

include exact in
/-- A run over members that ends well ends behind the object and has met every member. -/
theorem eq_of_readMembers {items : List Input}
    (areItems : ∀ item ∈ items, ∃ body value, IsBody body ∧ IsValue value ∧
      IsMember body value item)
    {first : Bool} {text : Input} (ahead : Ahead .object first items text) {fuel : Nat}
    {seen : List String} {record last : α} {rest left : Input}
    (ended : shape.readMembers fuel first seen record (text ++ rest) = .ok (last, left)) :
    left = rest ∧ ∃ members,
      List.Forall₂ (fun member item => IsValue member.2 ∧ WritesMember member item) members items ∧
        Accepts shape seen members := by
  induction items generalizing first text fuel seen record with
  | nil =>
    obtain ⟨blanks, blank, rfl⟩ := ahead.close
    cases fuel with
    | zero => cases ended
    | succ fuel =>
      rw [List.append_assoc] at ended
      cases complete : shape.missing? seen with
      | none =>
        cases (Shape.readMembers_close blank complete rest).symm.trans ended
        exact ⟨rfl, [], .nil, .done complete⟩
      | some name => cases (Shape.readMembers_missing blank complete rest).symm.trans ended
  | cons item items inductionHypothesis =>
    cases fuel with
    | zero => cases ended
    | succ fuel =>
      obtain ⟨isItem, areMore⟩ := List.forall_mem_cons.mp areItems
      obtain ⟨body, value, isBody, isValue, before, behind, blankBefore, blankBehind, rfl⟩ := isItem
      obtain ⟨more, separated, -, next⟩ := ahead.nextKey? rest
      have ends := separated.endsNumber rest
      simp only [List.append_assoc, List.cons_append] at next
      rw [Shape.readMembers] at ended
      obtain ⟨found, isNext, ended⟩ := exists_of_bind_eq_ok ended
      cases next.symm.trans isNext
      obtain ⟨⟨name, behindKey⟩, string, ended⟩ := exists_of_bind_eq_ok ended
      obtain ⟨spells, rfl⟩ := isBody.eq_of_takeString string
      obtain ⟨⟨record, behindValue⟩, member, ended⟩ := exists_of_bind_eq_ok ended
      obtain ⟨rfl, accepts⟩ := eq_of_readMember exact blankBefore blankBehind isValue ends member
      obtain ⟨rfl, members, written, later⟩ := inductionHypothesis areMore separated.ahead ended
      refine ⟨rfl, (String.ofList name, value) :: members, .cons ⟨isValue, body, ?_, ?_⟩ written,
        accepts members later⟩
      · rwa [String.toList_ofList]
      · exact ⟨before, behind, blankBefore, blankBehind, rfl⟩

/-- No list is closed in front of an element. -/
theorem endList_ne_ok {first : Bool} {item : Input} {items : List Input} {text : Input}
    (ahead : Ahead .list first (item :: items) text) (isValue : IsValue item)
    (rest left : Input) : endList (text ++ rest) ≠ .ok left := by
  have front : ∃ char more, skipBlanks (text ++ rest) = char :: more ∧ char ≠ ']' := by
    cases first with
    | true =>
      obtain ⟨char, more, rfl, solid, notClosing⟩ := isValue.starts
      obtain _ | ⟨blank, _⟩ := ahead
      rw [List.append_assoc, skipBlanks_append blank]
      exact ⟨char, _, skipBlanks_cons char solid _, notClosing⟩
    | false =>
      obtain _ | ⟨blank, _, _⟩ := ahead
      rw [List.append_assoc, skipBlanks_append blank]
      exact ⟨',', _, rfl, by decide⟩
  obtain ⟨char, more, front, notClosing⟩ := front
  rw [endList, front]
  intro closed
  split at closed
  next same => cases same
  next same => exact notClosing (List.cons.inj same).1
  next => split at closed <;> cases closed
  next => cases closed

/-- A run over values that ends well ends behind the list and has read every value. -/
theorem eq_of_readValues {fields : List (Field α)}
    (exact : ∀ field ∈ fields, ∀ record, Exact (field.read record)) {items : List Input}
    (areValues : ∀ item ∈ items, IsValue item) {position : Nat} {text : Input}
    (ahead : Ahead .list (position == 0) items text) {record last : α} {rest behind left : Input}
    (ended : shape.readValues fields position record (text ++ rest) = .ok (last, behind))
    (closed : endList behind = .ok left) :
    left = rest ∧ ∀ pair ∈ fields.zip items, ∃ record, ¬ Refuses (pair.1.read record) pair.2 := by
  induction fields generalizing items position text record with
  | nil =>
    cases ended
    cases items with
    | nil =>
      obtain ⟨blanks, blank, rfl⟩ := ahead.close
      rw [List.append_assoc, endList, skipBlanks_append blank] at closed
      cases closed
      exact ⟨rfl, by simp⟩
    | cons item items =>
      exact absurd closed (endList_ne_ok ahead (areValues item List.mem_cons_self) rest left)
  | cons field fields inductionHypothesis =>
    obtain ⟨exactField, exactMore⟩ := List.forall_mem_cons.mp exact
    rw [Shape.readValues] at ended
    obtain ⟨found, isNext, ended⟩ := exists_of_bind_eq_ok ended
    cases items with
    | nil =>
      obtain ⟨blanks, blank, rfl⟩ := ahead.close
      rw [List.append_assoc, nextElement?, skipBlanks_append blank] at isNext
      cases isNext
      cases ended
    | cons item items =>
      obtain ⟨isValue, areMore⟩ := List.forall_mem_cons.mp areValues
      obtain ⟨more, separated, -, next⟩ := ahead.nextElement? isValue.starts rest
      cases next.symm.trans isNext
      obtain ⟨⟨record', behindValue⟩, taken, ended⟩ := exists_of_bind_eq_ok ended
      obtain ⟨rfl, accepted⟩ := (exactField record).eq_of_ok isValue areBlank_nil
        (separated.endsNumber rest) taken
      have aheadMore : Ahead .list (position + 1 == 0) items more := separated
      obtain ⟨rfl, later⟩ := inductionHypothesis exactMore areMore aheadMore ended
      exact ⟨rfl, List.forall_mem_cons.mpr ⟨⟨record, accepted⟩, later⟩⟩

include exact in
/-- What is read from a value as a record is the whole value. -/
theorem Shape.exact_read : Exact shape.read := by
  intro text isValue blanks rest blank _ value left taken
  obtain ⟨char, more, rfl, solid, -⟩ := isValue.starts
  rw [Shape.read, skipBlanks_append blank, List.cons_append, skipBlanks_cons char solid] at taken
  by_cases bracket : char = '['
  · subst bracket
    obtain ⟨items, areValues, enclosed⟩ := isValue.items_of_bracket
    obtain ⟨⟨record, behind⟩, ended, taken⟩ := exists_of_bind_eq_ok taken
    obtain ⟨behindList, closed, taken⟩ := exists_of_bind_eq_ok taken
    cases taken
    have ahead : Ahead .list (0 == 0) items more := enclosed
    exact (eq_of_readValues exact areValues ahead ended closed).1
  by_cases brace : char = '\x7b'
  · subst brace
    obtain ⟨items, areItems, enclosed⟩ := isValue.items_of_brace
    exact (eq_of_readMembers exact areItems enclosed.ahead taken).1
  · simp [bracket, brace, throw, throwThe, MonadExceptOf.throw] at taken

end Runs

/-! ### Records with a fault -/

/-- A record with a fault: a key of a place that is missing or repeated, or a text with a fault in
a place of it. -/
inductive FaultyRecord (slots : List Slot) : Input → Prop where
  | keys {members : List (String × Input)} {items : List Input} {text : Input} {slot : Slot} :
      List.Forall₂ WritesMember members items → (∀ member ∈ members, IsValue member.2) →
      Enclosed .object items text → slot ∈ slots →
      (members.map (·.1)).count slot.name ≠ 1 → FaultyRecord slots ('\x7b' :: text)
  | member {members : List (String × Input)} {items : List Input} {text : Input} {slot : Slot}
      {member : String × Input} :
      List.Forall₂ WritesMember members items → (∀ member ∈ members, IsValue member.2) →
      Enclosed .object items text → slot ∈ slots → member ∈ members → slot.name = member.1 →
      slot.texts member.2 → FaultyRecord slots ('\x7b' :: text)
  | element {items : List Input} {text : Input} {slot : Slot} {item : Input} :
      (∀ item ∈ items, IsValue item) → Enclosed .list items text → (slot, item) ∈ slots.zip items →
      slot.texts item → FaultyRecord slots ('[' :: text)

/-- Objects that are read have met their members. -/
theorem Shape.accepts_of_read {shape : Shape α}
    (exact : ∀ field ∈ shape.fields, ∀ record, Exact (field.read record))
    {members : List (String × Input)} {items : List Input}
    (written : List.Forall₂ WritesMember members items)
    (areValues : ∀ member ∈ members, IsValue member.2) {text blanks rest : Input}
    (enclosed : Enclosed .object items text) (blank : AreBlank blanks) {result : α × Input}
    (taken : shape.read (blanks ++ ('\x7b' :: text ++ rest)) = .ok result) :
    Accepts shape [] members := by
  have areItems : ∀ item ∈ items, ∃ body value, IsBody body ∧ IsValue value ∧
      IsMember body value item := by
    intro item inItems
    obtain ⟨member, inMembers, body, spells, isMember⟩ := exists_mem_of_forall₂ written inItems
    exact ⟨body, member.2, spells.isBody, areValues member inMembers, isMember⟩
  rw [Shape.read, skipBlanks_append blank, List.cons_append, skipBlanks_cons '\x7b' rfl] at taken
  obtain ⟨-, met, writtenToo, accepts⟩ := eq_of_readMembers exact areItems enclosed.ahead taken
  have pairs := (List.forall₂_and_left members items).mpr ⟨areValues, written⟩
  rwa [List.left_unique_forall₂' writesMember_leftUnique pairs writtenToo]

/-- A field is read from values as they are, and not from texts with a fault in its place. -/
def Guards (field : Field α) (slot : Slot) : Prop :=
  field.name = slot.name ∧ ∀ record, Exact (field.read record) ∧
    ∀ text, slot.texts text → Refuses (field.read record) text

theorem exact_of_guards {shape : Shape α} {slots : List Slot}
    (guards : List.Forall₂ Guards shape.fields slots) :
    ∀ field ∈ shape.fields, ∀ record, Exact (field.read record) := by
  intro field inFields record
  have flipped : List.Forall₂ (flip Guards) slots shape.fields := List.Forall₂.flip guards
  obtain ⟨slot, -, guard⟩ := exists_mem_of_forall₂ flipped inFields
  exact (guard.2 record).1

/-- What stands at the place of a slot stands at the place of its field. -/
theorem exists_mem_zip_of_forall₂ {γ : Type} {related : α → β → Prop} {fields : List α}
    {slots : List β} (pairs : List.Forall₂ related fields slots) {items : List γ} {slot : β}
    {item : γ} (inZip : (slot, item) ∈ slots.zip items) :
    ∃ field, (field, item) ∈ fields.zip items ∧ related field slot := by
  induction pairs generalizing items with
  | nil => cases inZip
  | cons isRelated _ inductionHypothesis =>
    cases items with
    | nil => cases inZip
    | cons first items =>
      rcases List.mem_cons.mp inZip with same | inZip
      · cases same
        exact ⟨_, List.mem_cons_self, isRelated⟩
      · obtain ⟨field, inFields, isRelated⟩ := inductionHypothesis inZip
        exact ⟨field, List.mem_cons_of_mem _ inFields, isRelated⟩

/-- A record of which some place has a fault is refused. -/
theorem FaultyRecord.refuses {shape : Shape α} {slots : List Slot}
    (guards : List.Forall₂ Guards shape.fields slots)
    (distinct : (shape.fields.map (·.name)).Nodup) {text : Input}
    (faulty : FaultyRecord slots text) : Refuses shape.read text := by
  have exact := exact_of_guards guards
  have fieldOf {slot : Slot} (inSlots : slot ∈ slots) :=
    find?_of_forall₂ guards (fun _ _ guard => guard.1) distinct inSlots
  rintro blanks rest blank _ result taken
  cases faulty with
  | keys written areValues enclosed inSlots wrong =>
    have accepts := Shape.accepts_of_read exact written areValues enclosed blank taken
    obtain ⟨field, inFields, -, name, -⟩ := fieldOf inSlots
    have once := accepts.count_key inFields
    simp [name, wrong] at once
  | @member _ _ _ slot member written areValues enclosed inSlots inMembers sameName isFaulty =>
    have accepts := Shape.accepts_of_read exact written areValues enclosed blank taken
    obtain ⟨field, -, isField, -, guard⟩ := fieldOf inSlots
    rw [sameName] at isField
    obtain ⟨record, accepted⟩ := accepts.exists_not_refuses inMembers isField
    exact accepted ((guard record).2 _ isFaulty)
  | @element items text slot item areValues enclosed inZip isFaulty =>
    rw [Shape.read, skipBlanks_append blank, List.cons_append, skipBlanks_cons '[' rfl] at taken
    obtain ⟨⟨record, behind⟩, ended, taken⟩ := exists_of_bind_eq_ok taken
    obtain ⟨behindList, closed, -⟩ := exists_of_bind_eq_ok taken
    have ahead : Ahead .list (0 == 0) items text := enclosed
    obtain ⟨-, accepted⟩ := eq_of_readValues exact areValues ahead ended closed
    obtain ⟨field, inFieldZip, guard⟩ := exists_mem_zip_of_forall₂ guards inZip
    obtain ⟨record, accepted⟩ := accepted _ inFieldZip
    exact accepted ((guard.2 record).2 _ isFaulty)

/-- A document is refused if its text is. -/
theorem IsDocument.parse_eq_error {texts : Input → Prop} {document : String}
    (isDocument : IsDocument texts document) {read : Reader α}
    (refuses : ∀ written, texts written → Refuses read written) :
    ∃ fault, Json.parse read document.toList = .error fault := by
  obtain ⟨before, written, behind, blankBefore, blankBehind, isText, split⟩ := isDocument
  have refused := refuses written isText before behind blankBefore blankBehind.endsNumber
  rw [split, Json.parse]
  cases taken : read (before ++ (written ++ behind)) with
  | error fault => exact ⟨fault, rfl⟩
  | ok result => exact absurd taken (refused result)

end CodeAtlas.Json
