/-
Values are read from every layout of their text.

A text, a list or a record may be written in many ways: characters as escapes, blanks between any
two pieces, and a record as an object with its members in any order and others among them, or as a
list of its values. `WritesText`, `WritesList` and `WritesRecord` describe these ways, and from
each of them the value is read.

Since the members of an object may come in any order, a reader has set some fields and not others
in the middle of it. `Fillable` describes this by the record after the keys that were seen: a key
of a field adds its value, another key adds nothing, and after all keys of fields the record is
the one that was written. What carries a run over an object is that every field has one key, among
those that were seen or among those that are ahead.
-/
import CodeAtlas.Proofs.Json.Skipping

namespace CodeAtlas.Json

variable {α : Type}

/-! ### Layouts -/

/-- The ways to write a text. -/
inductive WritesText (text : String) : Input → Prop where
  | quoted {body : Input} : Spells text.toList body → WritesText text ('"' :: (body ++ ['"']))

/-- The ways to write a list, from the ways to write its elements. -/
inductive WritesList (writes : α → Input → Prop) (values : List α) : Input → Prop where
  | list {items : List Input} {text : Input} : List.Forall₂ writes values items →
      Enclosed .list items text → WritesList writes values ('[' :: text)

/-- The ways to write a key with its value. -/
def WritesMember (member : String × Input) (item : Input) : Prop :=
  ∃ body, Spells member.1.toList body ∧ IsMember body member.2 item

/-- A place in a record: its key, and the texts that may stand there. -/
structure Slot where
  name : String
  texts : Input → Prop

/-- The ways to write a record: an object that has the key of every place once, in any order and
among other keys with any values, or a list with a text for every place. -/
inductive WritesRecord (slots : List Slot) : Input → Prop where
  | object {members : List (String × Input)} {items : List Input} {text : Input} :
      List.Forall₂ WritesMember members items → Enclosed .object items text →
      (∀ slot ∈ slots, (members.map (·.1)).count slot.name = 1) →
      (∀ member ∈ members, ∀ slot ∈ slots, slot.name = member.1 → slot.texts member.2) →
      (∀ member ∈ members, (∀ slot ∈ slots, slot.name ≠ member.1) → IsValue member.2) →
      WritesRecord slots ('\x7b' :: text)
  | list {items : List Input} {text : Input} :
      List.Forall₂ (fun slot item => slot.texts item) slots items →
      Enclosed .list items text → WritesRecord slots ('[' :: text)

/-! ### Texts without escapes and blanks -/

theorem writesText_self (text : String) (plain : text.toList.all isPlain = true) :
    WritesText text ('"' :: (text.toList ++ ['"'])) := .quoted (spells_self plain)

theorem writesMember_self (key : String) (value : Input)
    (plain : key.toList.all isPlain = true) :
    WritesMember (key, value) ('"' :: (key.toList ++ '"' :: ':' :: value)) :=
  ⟨_, spells_self plain, [], [], areBlank_nil, areBlank_nil, rfl⟩

/-- The text of items without blanks, behind one of them. -/
def compact (bracket : Bracket) : List Input → Input
  | [] => [bracket.closing]
  | item :: items => ',' :: (item ++ compact bracket items)

theorem separated_compact (bracket : Bracket) (items : List Input) :
    Separated bracket items (compact bracket items) := by
  induction items with
  | nil => exact .close areBlank_nil
  | cons item items inductionHypothesis =>
    exact .next areBlank_nil areBlank_nil inductionHypothesis

theorem enclosed_compact (bracket : Bracket) (item : Input) (items : List Input) :
    Enclosed bracket (item :: items) (item ++ compact bracket items) :=
  .items areBlank_nil (separated_compact bracket items)

/-! ### Layouts are JSON -/

theorem WritesText.isValue {text : String} {written : Input} (writes : WritesText text written) :
    IsValue written := by
  obtain ⟨spells⟩ := writes
  exact .string spells.isBody

theorem WritesList.isValue {writes : α → Input → Prop} {values : List α} {written : Input}
    (list : WritesList writes values written)
    (areValues : ∀ value ∈ values, ∀ item, writes value item → IsValue item) :
    IsValue written := by
  obtain ⟨elements, enclosed⟩ := list
  refine .list (fun item inItems => ?_) enclosed
  obtain ⟨value, inValues, writesItem⟩ := exists_mem_of_forall₂ elements inItems
  exact areValues value inValues item writesItem

/-- Keys in some spelling are strings of the grammar. -/
theorem exists_isMember {members : List (String × Input)} {items : List Input}
    (written : List.Forall₂ WritesMember members items) :
    ∃ spelled : List (Input × Input),
      List.Forall₂ (fun member item => IsMember member.1 member.2 item) spelled items ∧
        (∀ member ∈ spelled, IsBody member.1) ∧
        spelled.map (·.2) = members.map (·.2) := by
  induction written with
  | nil => exact ⟨[], .nil, by simp, rfl⟩
  | @cons member _ _ _ writesItem _ inductionHypothesis =>
    obtain ⟨body, spells, isMember⟩ := writesItem
    obtain ⟨spelled, areMembers, areBodies, values⟩ := inductionHypothesis
    refine ⟨(body, member.2) :: spelled, .cons isMember areMembers, ?_, ?_⟩
    · exact List.forall_mem_cons.mpr ⟨spells.isBody, areBodies⟩
    · rw [List.map_cons, List.map_cons, values]

theorem isValue_object {members : List (String × Input)} {items : List Input} {text : Input}
    (written : List.Forall₂ WritesMember members items)
    (areValues : ∀ member ∈ members, IsValue member.2) (enclosed : Enclosed .object items text) :
    IsValue ('\x7b' :: text) := by
  obtain ⟨spelled, areMembers, areBodies, values⟩ := exists_isMember written
  refine .object areBodies (fun member inSpelled => ?_) areMembers enclosed
  have inValues : member.2 ∈ spelled.map (·.2) := List.mem_map_of_mem inSpelled
  rw [values] at inValues
  obtain ⟨other, inMembers, same⟩ := List.mem_map.mp inValues
  exact same ▸ areValues other inMembers

/-- A record is written as a JSON value if its places are. -/
theorem WritesRecord.isValue {slots : List Slot} {written : Input}
    (record : WritesRecord slots written)
    (areTexts : ∀ slot ∈ slots, ∀ text, slot.texts text → IsValue text) : IsValue written := by
  cases record with
  | object members enclosed _ fits areValues =>
    refine isValue_object members (fun member inMembers => ?_) enclosed
    by_cases isSlot : ∃ slot ∈ slots, slot.name = member.1
    · obtain ⟨slot, inSlots, name⟩ := isSlot
      exact areTexts slot inSlots _ (fits member inMembers slot inSlots name)
    · exact areValues member inMembers fun slot inSlots name => isSlot ⟨slot, inSlots, name⟩
  | list values enclosed =>
    refine .list (fun item inItems => ?_) enclosed
    obtain ⟨slot, inSlots, isText⟩ := exists_mem_of_forall₂ values inItems
    exact areTexts slot inSlots item isText

/-! ### Texts and names -/

theorem WritesText.reads {text : String} {written : Input} (writes : WritesText text written) :
    Reads readText written text := by
  obtain @⟨body, spells⟩ := writes
  refine ⟨⟨'"', _, rfl, rfl, by decide⟩, fun blanks rest blank _ => ?_⟩
  have taken := spells.takeString rest
  rw [List.cons_append, List.append_assoc, readText, readString, skipBlanks_append blank,
    skipBlanks_cons '"' rfl]
  simp [taken]

theorem WritesText.reads_choice {choices : List String} {find? : String → Option α} {name : String}
    {value : α} {written : Input} (writes : WritesText name written)
    (found : find? name = some value) : Reads (readChoice choices find?) written value := by
  obtain @⟨body, spells⟩ := writes
  refine ⟨⟨'"', _, rfl, rfl, by decide⟩, fun blanks rest blank _ => ?_⟩
  have taken := spells.takeString rest
  simp only [List.cons_append, List.append_assoc, readChoice, skipBlanks_append blank,
    skipBlanks_cons '"' rfl]
  simp [taken, found, bind, Except.bind, pure, Except.pure]

/-! ### Items that are ahead -/

/-- Items that are ahead: behind the opening bracket, or behind another item. -/
def Ahead (bracket : Bracket) (first : Bool) (items : List Input) (text : Input) : Prop :=
  if first then Enclosed bracket items text else Separated bracket items text

theorem Ahead.close {bracket : Bracket} {first : Bool} {text : Input}
    (ahead : Ahead bracket first [] text) :
    ∃ blanks, AreBlank blanks ∧ text = blanks ++ [bracket.closing] := by
  cases first with
  | true =>
    obtain ⟨blank⟩ := ahead
    exact ⟨_, blank, rfl⟩
  | false =>
    obtain ⟨blank⟩ := ahead
    exact ⟨_, blank, rfl⟩

theorem Enclosed.ahead {bracket : Bracket} {items : List Input} {text : Input}
    (enclosed : Enclosed bracket items text) : Ahead bracket true items text := enclosed

theorem Separated.ahead {bracket : Bracket} {items : List Input} {text : Input}
    (separated : Separated bracket items text) : Ahead bracket false items text := separated

/-- The next item of a list is found, and the others are ahead behind it. -/
theorem Ahead.nextElement? {first : Bool} {item : Input} {items : List Input} {text : Input}
    (ahead : Ahead .list first (item :: items) text)
    (starts : ∃ char rest, item = char :: rest ∧ isBlank char = false ∧ char ≠ ']')
    (rest : Input) :
    ∃ more, Separated .list items more ∧ (more ++ rest).length < (text ++ rest).length ∧
      nextElement? first (text ++ rest) = .ok (some (item ++ (more ++ rest))) := by
  obtain ⟨char, written, rfl, solid, notClosing⟩ := starts
  cases first with
  | true =>
    obtain _ | @⟨blanks, _, more, _, blank, separated⟩ := ahead
    refine ⟨more, separated, ?_, ?_⟩
    · simp only [List.length_append, List.length_cons]
      omega
    · simp [Json.nextElement?, skipBlanks_append blank, skipBlanks_cons char solid]
  | false =>
    obtain _ | @⟨before, behind, _, more, _, blankBefore, blankBehind, separated⟩ := ahead
    refine ⟨more, separated, ?_, ?_⟩
    · simp only [List.length_append, List.length_cons]
      omega
    · simp [Json.nextElement?, skipBlanks_append blankBefore, skipBlanks_cons ',' rfl,
        skipBlanks_append blankBehind, skipBlanks_cons char solid, notClosing]

/-- The next key of an object is found, and the other members are ahead behind it. -/
theorem Ahead.nextKey? {first : Bool} {key : Input} {items : List Input} {text : Input}
    (ahead : Ahead .object first (('"' :: key) :: items) text) (rest : Input) :
    ∃ more, Separated .object items more ∧ (more ++ rest).length < (text ++ rest).length ∧
      Shape.nextKey? first (text ++ rest) = .ok (some (key ++ (more ++ rest))) := by
  cases first with
  | true =>
    obtain _ | @⟨blanks, _, more, _, blank, separated⟩ := ahead
    refine ⟨more, separated, ?_, ?_⟩
    · simp only [List.length_append, List.length_cons]
      omega
    · simp [Shape.nextKey?, skipBlanks_append blank, skipBlanks_cons '"' rfl]
  | false =>
    obtain _ | @⟨before, behind, _, more, _, blankBefore, blankBehind, separated⟩ := ahead
    refine ⟨more, separated, ?_, ?_⟩
    · simp only [List.length_append, List.length_cons]
      omega
    · simp [Shape.nextKey?, skipBlanks_append blankBefore, skipBlanks_cons ',' rfl,
        skipBlanks_append blankBehind, skipBlanks_cons '"' rfl]

/-! ### Lists -/

/-- The elements that are ahead are read one by one. -/
theorem readElements_ahead {read : Reader α} {writes : α → Input → Prop} {values : List α}
    {items : List Input} (written : List.Forall₂ writes values items)
    (reads : ∀ value ∈ values, ∀ item, writes value item → Reads read item value) {first : Bool}
    {text : Input} (ahead : Ahead .list first items text) {fuel : Nat} {rest : Input}
    (enough : (text ++ rest).length ≤ fuel) :
    readElements read fuel first (text ++ rest) = .ok (values, rest) := by
  induction written generalizing first text fuel with
  | nil =>
    obtain ⟨blanks, blank, rfl⟩ := ahead.close
    rw [List.append_assoc, List.singleton_append] at enough ⊢
    obtain ⟨fuel, rfl⟩ := exists_eq_succ enough
    exact readElements_close blank rest
  | cons writesItem _ inductionHypothesis =>
    obtain ⟨readsFirst, readsMore⟩ := List.forall_mem_cons.mp reads
    have readsItem := readsFirst _ writesItem
    obtain ⟨more, separated, shorter, element⟩ := ahead.nextElement? readsItem.starts rest
    obtain ⟨fuel, rfl⟩ := Nat.exists_eq_succ_of_ne_zero (show fuel ≠ 0 by omega)
    rw [readsItem.readElements (separated.endsNumber rest) element,
      inductionHypothesis readsMore separated.ahead (by omega)]
    rfl

/-- A list is read from every layout if its elements are. -/
theorem WritesList.reads {read : Reader α} {writes : α → Input → Prop} {values : List α}
    {written : Input} (list : WritesList writes values written)
    (reads : ∀ value ∈ values, ∀ item, writes value item → Reads read item value) :
    Reads (readList read) written values := by
  obtain ⟨elements, enclosed⟩ := list
  refine ⟨⟨'[', _, rfl, rfl, by decide⟩, fun blanks rest blank _ => ?_⟩
  rw [List.cons_append, readList, skipBlanks_append blank, skipBlanks_cons '[' rfl]
  exact readElements_ahead elements reads enclosed.ahead (Nat.le_succ _)

/-! ### Single members -/

theorem takeColon_append {before : Input} (blank : AreBlank before) (rest : Input) :
    takeColon (before ++ ':' :: rest) = .ok rest := by
  simp [takeColon, skipBlanks_append blank, skipBlanks_cons ':' rfl]

namespace Shape

variable {shape : Shape α} {key : String} {seen : List String} {record : α}

/-- One step of reading an object: a key, and the value behind it. -/
theorem readMembers_member {fuel : Nat} {first : Bool} {input body rest : Input}
    (spells : Spells key.toList body)
    (next : nextKey? first input = .ok (some (body ++ '"' :: rest))) :
    shape.readMembers (fuel + 1) first seen record input =
      (do
        let (record, input) ← shape.readMember key seen record rest
        shape.readMembers fuel false (key :: seen) record input) := by
  have name := spells.takeString rest
  simp only [readMembers, next, name, bind, Except.bind, String.ofList_toList]

theorem readMember_field {field : Field α}
    (isField : shape.fields.find? (·.name == key) = some field) (unseen : key ∉ seen)
    {before : Input} (blank : AreBlank before) (rest : Input) :
    shape.readMember key seen record (before ++ ':' :: rest) = field.read record rest := by
  simp [readMember, isField, unseen, takeColon_append blank, bind, Except.bind]

theorem readMember_other (isOther : shape.fields.find? (·.name == key) = none)
    {before : Input} (blank : AreBlank before) (rest : Input) :
    shape.readMember key seen record (before ++ ':' :: rest) =
      (skipValue rest).map fun rest => (record, rest) := by
  simp only [readMember, isOther, takeColon_append blank, bind, Except.bind]
  cases skipValue rest <;> rfl

end Shape

/-- Where fields and places have the same names, the field of a place is found by its name. -/
theorem find?_of_forall₂ {fields : List (Field α)} {slots : List Slot}
    {related : Field α → Slot → Prop} (pairs : List.Forall₂ related fields slots)
    (named : ∀ field slot, related field slot → field.name = slot.name)
    (distinct : (fields.map (·.name)).Nodup) {slot : Slot} (inSlots : slot ∈ slots) :
    ∃ field ∈ fields, fields.find? (·.name == slot.name) = some field ∧ related field slot := by
  obtain ⟨field, inFields, isRelated⟩ := exists_mem_of_forall₂ pairs inSlots
  obtain ⟨done, more, rfl⟩ := List.append_of_mem inFields
  rw [← named field slot isRelated]
  exact ⟨field, inFields, (find?_name distinct).2, isRelated⟩

/-! ### Records -/

/-- A field is set to what is written in its place, whatever keys have been seen. -/
def Sets (after : List String → α) (field : Field α) (slot : Slot) : Prop :=
  field.name = slot.name ∧ ∀ seen written, slot.texts written →
    Reads (field.read (after seen)) written (after (field.name :: seen))

theorem Reads.sets {β : Type} {read : Reader β} {set : α → β → α} {after : List String → α}
    {name : String} {texts : Input → Prop}
    (reads : ∀ written, texts written → ∃ value, Reads read written value ∧
      ∀ seen, set (after seen) value = after (name :: seen)) :
    Sets after (Field.of name read set) ⟨name, texts⟩ := by
  refine ⟨rfl, fun seen written isText => ?_⟩
  obtain ⟨value, reads, step⟩ := reads written isText
  have field := reads.field name set (after seen)
  rwa [step seen] at field

/-- The record after some keys have been seen, from the blank one to the one that is written. -/
structure Fillable (shape : Shape α) (slots : List Slot) (after : List String → α) (target : α) :
    Prop where
  distinct : (shape.fields.map (·.name)).Nodup
  blank : after [] = shape.blank
  sets : List.Forall₂ (Sets after) shape.fields slots
  /-- Keys of no field set nothing. -/
  ignores : ∀ key seen, (∀ slot ∈ slots, slot.name ≠ key) → after (key :: seen) = after seen
  full : ∀ seen, (∀ slot ∈ slots, slot.name ∈ seen) → after seen = target

namespace Fillable

variable {shape : Shape α} {slots : List Slot} {after : List String → α} {target : α}

theorem names_eq (fillable : Fillable shape slots after target) :
    shape.fields.map (·.name) = slots.map (·.name) := by
  have same := fillable.sets.imp fun _ _ sets => sets.1
  rwa [← List.forall₂_eq_eq_eq, List.forall₂_map_left_iff, List.forall₂_map_right_iff]

theorem find?_other (fillable : Fillable shape slots after target) {key : String}
    (isOther : ∀ slot ∈ slots, slot.name ≠ key) :
    shape.fields.find? (·.name == key) = none := by
  refine List.find?_eq_none.mpr fun field inFields same => ?_
  have named : field.name ∈ shape.fields.map (·.name) := List.mem_map_of_mem inFields
  rw [fillable.names_eq] at named
  obtain ⟨slot, inSlots, name⟩ := List.mem_map.mp named
  exact isOther slot inSlots (name.trans (eq_of_beq same))

theorem missing?_eq_none (fillable : Fillable shape slots after target) {seen : List String}
    (complete : ∀ slot ∈ slots, slot.name ∈ seen) : shape.missing? seen = none := by
  refine List.find?_eq_none.mpr fun name named => ?_
  rw [fillable.names_eq] at named
  obtain ⟨slot, inSlots, rfl⟩ := List.mem_map.mp named
  simpa using complete slot inSlots

/-- The members that are ahead are read one by one. Every place has one key: it was seen, or it
is ahead. -/
theorem readMembers (fillable : Fillable shape slots after target)
    {members : List (String × Input)} {items : List Input}
    (written : List.Forall₂ WritesMember members items)
    (fits : ∀ member ∈ members, ∀ slot ∈ slots, slot.name = member.1 → slot.texts member.2)
    (areValues : ∀ member ∈ members, (∀ slot ∈ slots, slot.name ≠ member.1) → IsValue member.2)
    {first : Bool} {text : Input} (ahead : Ahead .object first items text) {seen : List String}
    (once : ∀ slot ∈ slots, (members.map (·.1)).count slot.name + seen.count slot.name = 1)
    {fuel : Nat} {rest : Input} (enough : (text ++ rest).length ≤ fuel) :
    shape.readMembers fuel first seen (after seen) (text ++ rest) = .ok (target, rest) := by
  induction written generalizing first text seen fuel with
  | nil =>
    obtain ⟨blanks, blank, rfl⟩ := ahead.close
    rw [List.append_assoc, List.singleton_append] at enough ⊢
    obtain ⟨fuel, rfl⟩ := exists_eq_succ enough
    have complete : ∀ slot ∈ slots, slot.name ∈ seen := by
      intro slot inSlots
      have isSeen : seen.count slot.name = 1 := by simpa using once slot inSlots
      exact List.count_pos_iff.mp (by omega)
    rw [← fillable.full seen complete]
    exact Shape.readMembers_close blank (fillable.missing?_eq_none complete) rest
  | @cons member item members items writesItem _ inductionHypothesis =>
    obtain ⟨body, spells, before, behind, blankBefore, blankBehind, rfl⟩ := writesItem
    obtain ⟨more, separated, shorter, next⟩ := ahead.nextKey? rest
    obtain ⟨fuel, rfl⟩ := Nat.exists_eq_succ_of_ne_zero (show fuel ≠ 0 by omega)
    have ends := separated.endsNumber rest
    simp only [List.append_assoc, List.cons_append] at next
    have sameCount : ∀ slot ∈ slots,
        (members.map (·.1)).count slot.name + (member.1 :: seen).count slot.name = 1 := by
      intro slot inSlots
      have := once slot inSlots
      rw [List.map_cons, List.count_cons] at this
      rw [List.count_cons]
      omega
    obtain ⟨fitsFirst, fitsMore⟩ := List.forall_mem_cons.mp fits
    obtain ⟨isValue, areValues⟩ := List.forall_mem_cons.mp areValues
    have later := inductionHypothesis fitsMore areValues separated.ahead sameCount
      (Nat.le_of_lt_succ (Nat.lt_of_lt_of_le shorter enough))
    rw [Shape.readMembers_member spells next]
    by_cases isSlot : ∃ slot ∈ slots, slot.name = member.1
    · obtain ⟨slot, inSlots, name⟩ := isSlot
      obtain ⟨field, -, isField, sameName, reads⟩ :=
        find?_of_forall₂ fillable.sets (fun _ _ sets => sets.1) fillable.distinct inSlots
      have unseen : member.1 ∉ seen := by
        have := once slot inSlots
        rw [name, List.map_cons, List.count_cons_self] at this
        exact List.count_eq_zero.mp (by omega)
      rw [name] at isField sameName
      rw [sameName] at reads
      rw [Shape.readMember_field isField unseen blankBefore,
        (reads seen _ (fitsFirst slot inSlots name)).takes behind _ blankBehind ends]
      exact later
    · have isOther : ∀ slot ∈ slots, slot.name ≠ member.1 := fun slot inSlots name =>
        isSlot ⟨slot, inSlots, name⟩
      rw [Shape.readMember_other (fillable.find?_other isOther) blankBefore,
        (isValue isOther).skipValue blankBehind ends, ← fillable.ignores _ _ isOther]
      exact later

/-- The values that are ahead are read one by one. -/
theorem readValues (shape : Shape α) {fields : List (Field α)} {slots : List Slot}
    (sets : List.Forall₂ (Sets after) fields slots) {items : List Input}
    (written : List.Forall₂ (fun slot item => slot.texts item) slots items) {position : Nat}
    {text : Input} (ahead : Ahead .list (position == 0) items text) (seen : List String)
    (rest : Input) :
    ∃ blanks, AreBlank blanks ∧
      shape.readValues fields position (after seen) (text ++ rest) =
        .ok (after ((fields.map (·.name)).reverse ++ seen), blanks ++ ']' :: rest) := by
  induction sets generalizing items position text seen with
  | nil =>
    cases written
    obtain ⟨blanks, blank, rfl⟩ := ahead.close
    refine ⟨blanks, blank, ?_⟩
    rw [List.append_assoc, List.singleton_append]
    rfl
  | @cons field slot fields slots set _ inductionHypothesis =>
    obtain _ | ⟨fits, written⟩ := written
    have reads := set.2 seen _ fits
    obtain ⟨more, separated, -, element⟩ := ahead.nextElement? reads.starts rest
    have aheadMore : Ahead .list (position + 1 == 0) _ more := separated
    obtain ⟨blanks, blank, later⟩ := inductionHypothesis written aheadMore (field.name :: seen)
    refine ⟨blanks, blank, ?_⟩
    have taken := reads.takes [] (more ++ rest) areBlank_nil (separated.endsNumber rest)
    rw [List.nil_append] at taken
    simp only [Shape.readValues, element, taken, bind, Except.bind]
    rw [later, List.map_cons, List.reverse_cons, List.append_assoc, List.singleton_append]

/-- A record is read from every layout. -/
theorem reads (fillable : Fillable shape slots after target) {written : Input}
    (record : WritesRecord slots written) : Reads shape.read written target := by
  cases record with
  | object members enclosed once fits areValues =>
    refine ⟨⟨'\x7b', _, rfl, rfl, by decide⟩, fun blanks rest blank _ => ?_⟩
    rw [List.cons_append, Shape.read, skipBlanks_append blank, skipBlanks_cons '\x7b' rfl]
    dsimp only
    rw [← fillable.blank]
    refine fillable.readMembers members fits areValues enclosed.ahead (fun slot inSlots => ?_)
      (Nat.le_succ _)
    exact once slot inSlots
  | list values enclosed =>
    refine ⟨⟨'[', _, rfl, rfl, by decide⟩, fun blanks rest blank _ => ?_⟩
    have ahead : Ahead .list (0 == 0) _ _ := enclosed
    obtain ⟨before, blankBefore, run⟩ := readValues shape fillable.sets values ahead [] rest
    have complete : ∀ slot ∈ slots, slot.name ∈ (shape.fields.map (·.name)).reverse ++ [] := by
      intro slot inSlots
      rw [List.append_nil, List.mem_reverse, fillable.names_eq]
      exact List.mem_map_of_mem inSlots
    rw [fillable.blank, fillable.full _ complete] at run
    have closed : endList (before ++ ']' :: rest) = .ok rest := by
      simp [endList, skipBlanks_append blankBefore, skipBlanks_cons ']' rfl]
    rw [List.cons_append, Shape.read, skipBlanks_append blank, skipBlanks_cons '[' rfl]
    simp only [run, closed, bind, Except.bind, pure, Except.pure]

end Fillable

/-! ### Documents -/

/-- A document: one of some texts, with blanks around it. -/
def IsDocument (texts : Input → Prop) (document : String) : Prop :=
  ∃ before written behind, AreBlank before ∧ AreBlank behind ∧ texts written ∧
    document.toList = before ++ (written ++ behind)

theorem IsDocument.imp {texts others : Input → Prop} {document : String}
    (isDocument : IsDocument texts document) (imp : ∀ written, texts written → others written) :
    IsDocument others document := by
  obtain ⟨before, written, behind, blankBefore, blankBehind, isText, split⟩ := isDocument
  exact ⟨before, written, behind, blankBefore, blankBehind, imp written isText, split⟩

/-- A document is read if its text is. -/
theorem IsDocument.parse {texts : Input → Prop} {document : String}
    (isDocument : IsDocument texts document) {read : Reader α} {value : α}
    (reads : ∀ written, texts written → Reads read written value) :
    parse read document.toList = .ok value := by
  obtain ⟨before, written, behind, blankBefore, blankBehind, isText, split⟩ := isDocument
  have taken := (reads written isText).takes before behind blankBefore blankBehind.endsNumber
  have nothing : skipBlanks behind = [] := by
    simpa [skipBlanks] using skipBlanks_append blankBehind []
  rw [split]
  simp [Json.parse, taken, nothing]

end CodeAtlas.Json
