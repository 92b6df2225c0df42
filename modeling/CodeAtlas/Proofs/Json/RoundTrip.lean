/-
Values are read back from the way they are written: strings, numbers, names, lists and records.

A reader takes a value from the front of its input, so what is said about it speaks of all that
may stand around the value. `Reads read written value` is this statement: behind any blanks, and
before anything that does not go on with a number, `read` takes `written` and nothing else, and
gives `value`. It passes from the elements of a list to the list and from the members of an
object to the record; in both, one lemma says what a single step of the reader does, and an
induction along what was written makes the whole run of it. Fuel is never short, since every
step takes at least one character.
-/
import CodeAtlas.Proofs.Json.Scalar

namespace CodeAtlas.Json

/-! ### Blanks -/

/-- A text of blanks. -/
def AreBlank (text : Input) : Prop := ∀ char ∈ text, isBlank char = true

theorem areBlank_nil : AreBlank [] := by simp [AreBlank]

theorem areBlank_blank : AreBlank [' '] := by simp [AreBlank, isBlank]

theorem areBlank_newLine (depth : Nat) : AreBlank (newLine depth) := by
  intro char member
  rcases List.mem_cons.mp member with rfl | member
  · decide
  · rw [List.eq_of_mem_replicate member]
    decide

theorem skipBlanks_append {blanks : Input} (blank : AreBlank blanks) (input : Input) :
    skipBlanks (blanks ++ input) = skipBlanks input :=
  List.dropWhile_append_of_pos blank

theorem skipBlanks_cons (char : Char) (solid : isBlank char = false) (rest : Input) :
    skipBlanks (char :: rest) = char :: rest :=
  List.dropWhile_cons_of_neg (by simp [solid])

theorem endsNumber_of_isBlank {char : Char} (blank : isBlank char = true) (rest : Input) :
    EndsNumber (char :: rest) := by
  simp only [isBlank, Bool.or_eq_true, beq_iff_eq] at blank
  rcases blank with ((rfl | rfl) | rfl) | rfl <;> exact ⟨rfl, by simp, rfl⟩

theorem AreBlank.endsNumber {blanks : Input} (blank : AreBlank blanks) : EndsNumber blanks := by
  cases blanks with
  | nil => exact ⟨rfl, by simp, rfl⟩
  | cons char rest => exact endsNumber_of_isBlank (blank char List.mem_cons_self) rest

/-! ### Reading back -/

section Values

variable {α β : Type}

/-- A reader takes a written text for a value, whatever stands around it. -/
structure Reads (read : Reader α) (written : Input) (value : α) : Prop where
  starts : ∃ char rest, written = char :: rest ∧ isBlank char = false ∧ char ≠ ']'
  takes : ∀ blanks rest : Input, AreBlank blanks → EndsNumber rest →
    read (blanks ++ (written ++ rest)) = .ok (value, rest)

/-- A text that is read back is read back as a whole, also with blanks behind it. -/
theorem Reads.parse {read : Reader α} {written blanks : Input} {value : α}
    (reads : Reads read written value) (blank : AreBlank blanks) :
    parse read (written ++ blanks) = .ok value := by
  have taken : read (written ++ blanks) = .ok (value, blanks) :=
    reads.takes [] blanks areBlank_nil blank.endsNumber
  have nothing : skipBlanks blanks = [] := by
    simpa [skipBlanks] using skipBlanks_append blank []
  simp [Json.parse, taken, nothing]

/-! ### Strings, names and numbers -/

theorem writeString_append (text : List Char) (rest : Input) :
    writeString text ++ rest = '"' :: (text.flatMap escapeChar ++ '"' :: rest) := by
  simp [writeString]

theorem reads_text (text : String) (depth : Nat) :
    Reads readText ((Value.string text.toList).write depth) text := by
  rw [Value.write]
  refine ⟨⟨'"', _, rfl, rfl, by decide⟩, fun blanks rest blank _ => ?_⟩
  have taken := takeString_write text.toList rest
  rw [writeString_append, readText, readString, skipBlanks_append blank, skipBlanks_cons '"' rfl]
  simp [taken]

/-- A name is read back as what has the name. -/
theorem reads_choice {choices : List String} {find? : String → Option α} {name : String}
    {value : α} (found : find? name = some value) (depth : Nat) :
    Reads (readChoice choices find?) ((Value.string name.toList).write depth) value := by
  rw [Value.write]
  refine ⟨⟨'"', _, rfl, rfl, by decide⟩, fun blanks rest blank _ => ?_⟩
  have taken := takeString_write name.toList rest
  simp only [writeString_append, readChoice, skipBlanks_append blank, skipBlanks_cons '"' rfl]
  simp [taken, found, bind, Except.bind, pure, Except.pure]

/-- A number is read back if it is below the limit. -/
theorem reads_natural {limit value : Nat} (small : value < limit) (wide : limit ≤ UInt64.size)
    (wanted : String) (depth : Nat) :
    Reads (readNatural limit wanted) ((Value.natural value).write depth) value := by
  rw [Value.write]
  have nonempty : Nat.toDigits 10 value ≠ [] := Nat.toDigits_ne_nil
  obtain ⟨first, more, written⟩ := List.exists_cons_of_ne_nil nonempty
  have isFirst : first ∈ Nat.toDigits 10 value := by simp [written]
  have digit : isDigit first = true := isDigit_of_mem_toDigits isFirst
  have solid : isBlank first = false := by
    refine Bool.eq_false_iff.mpr fun blank => ?_
    simpa [seesDigit, digit] using (endsNumber_of_isBlank blank []).1
  have notClosing : first ≠ ']' := by
    rintro rfl
    cases digit
  have notMinus : first ≠ '-' := by
    rintro rfl
    cases digit
  refine ⟨⟨first, more, written, solid, notClosing⟩, fun blanks rest blank ends => ?_⟩
  have taken := takeNumber_toDigits (Nat.lt_of_lt_of_le small wide) ends
  rw [written, List.cons_append] at taken ⊢
  rw [readNatural, skipBlanks_append blank, skipBlanks_cons first solid]
  simp [digit, taken, Numeral.fit, small]

/-! ### Lists -/

/-- What is enough for a text up to a closing bracket is not used up before it. -/
theorem exists_eq_succ {text rest : Input} {bracket : Char} {fuel : Nat}
    (enough : (text ++ bracket :: rest).length ≤ fuel) : ∃ less, fuel = less + 1 := by
  rw [List.length_append, List.length_cons] at enough
  exact Nat.exists_eq_succ_of_ne_zero (by omega)

/-- At a value that is read back, a list goes on behind blanks and a comma. -/
theorem Reads.nextElement? {read : Reader α} {written blanks : Input} {value : α}
    (reads : Reads read written value) (blank : AreBlank blanks) (rest : Input) :
    nextElement? false (',' :: (blanks ++ (written ++ rest))) = .ok (some (written ++ rest)) := by
  obtain ⟨char, more, rfl, solid, notClosing⟩ := reads.starts
  simp [Json.nextElement?, skipBlanks_cons ',' rfl, skipBlanks_append blank,
    skipBlanks_cons char solid, notClosing]

/-- The first element needs no comma. -/
theorem Reads.nextElement?_first {read : Reader α} {written blanks : Input} {value : α}
    (reads : Reads read written value) (blank : AreBlank blanks) (rest : Input) :
    Json.nextElement? true (blanks ++ (written ++ rest)) = .ok (some (written ++ rest)) := by
  obtain ⟨char, more, rfl, solid, notClosing⟩ := reads.starts
  simp [Json.nextElement?, skipBlanks_append blank, skipBlanks_cons char solid]

theorem readElements_close {read : Reader α} {fuel : Nat} {first : Bool} {blanks : Input}
    (blank : AreBlank blanks) (rest : Input) :
    readElements read (fuel + 1) first (blanks ++ ']' :: rest) = .ok ([], rest) := by
  have closed : skipBlanks (blanks ++ ']' :: rest) = ']' :: rest := by
    rw [skipBlanks_append blank, skipBlanks_cons ']' rfl]
  simp [readElements, Json.nextElement?, endList, closed, bind, Except.bind, pure, Except.pure]

/-- One step of reading a list. -/
theorem Reads.readElements {read : Reader α} {fuel : Nat} {first : Bool}
    {input written rest : Input} {value : α} (reads : Reads read written value)
    (ends : EndsNumber rest)
    (element : Json.nextElement? first input = .ok (some (written ++ rest))) :
    readElements read (fuel + 1) first input =
      (Json.readElements read fuel false rest).map fun taken => (value :: taken.1, taken.2) := by
  have taken := reads.takes [] rest areBlank_nil ends
  rw [List.nil_append] at taken
  simp only [Json.readElements, element, bind, Except.bind, taken]
  cases Json.readElements read fuel false rest <;> rfl

theorem endsNumber_writeRest (depth : Nat) (values : List Value) (rest : Input) :
    EndsNumber (writeRest depth values ++ rest) := by
  cases values with
  | nil => exact endsNumber_of_isBlank rfl _
  | cons value values => exact ⟨rfl, by simp [writeRest], rfl⟩

/-- The elements behind the first are read back, one by one. -/
theorem readElements_writeRest {read : Reader α} {encode : α → Value} {depth : Nat}
    {values : List α}
    (reads : ∀ value ∈ values, Reads read ((encode value).write (depth + 1)) value)
    {fuel : Nat} {rest : Input}
    (enough : (writeRest depth (values.map encode) ++ ']' :: rest).length ≤ fuel) :
    readElements read fuel false (writeRest depth (values.map encode) ++ ']' :: rest) =
      .ok (values, rest) := by
  induction values generalizing fuel with
  | nil =>
    obtain ⟨fuel, rfl⟩ := exists_eq_succ enough
    exact readElements_close (areBlank_newLine depth) rest
  | cons value values inductionHypothesis =>
    obtain ⟨readsFirst, readsMore⟩ := List.forall_mem_cons.mp reads
    obtain ⟨fuel, rfl⟩ := exists_eq_succ enough
    simp only [List.map_cons, writeRest, List.append_assoc, List.cons_append, List.nil_append]
      at enough ⊢
    rw [readsFirst.readElements (endsNumber_writeRest _ _ _)
      (readsFirst.nextElement? (areBlank_newLine _) _),
      inductionHypothesis readsMore (by simp at enough ⊢; omega)]
    rfl

/-- A list is read back if its elements are. -/
theorem reads_list {read : Reader α} {encode : α → Value} {depth : Nat} {values : List α}
    (reads : ∀ value ∈ values, Reads read ((encode value).write (depth + 1)) value) :
    Reads (readList read) ((Value.list (values.map encode)).write depth) values where
  starts := by cases values <;> exact ⟨'[', _, rfl, rfl, by decide⟩
  takes blanks rest blank _ := by
    cases values with
    | nil =>
      rw [List.map_nil, Value.write, List.cons_append, readList, skipBlanks_append blank,
        skipBlanks_cons '[' rfl]
      exact readElements_close areBlank_nil rest
    | cons value values =>
      obtain ⟨readsFirst, readsMore⟩ := List.forall_mem_cons.mp reads
      simp only [List.map_cons, Value.write, List.append_assoc, List.cons_append, List.nil_append]
      rw [readList, skipBlanks_append blank, skipBlanks_cons '[' rfl]
      show readElements read _ true _ = _
      rw [readsFirst.readElements (endsNumber_writeRest _ _ _)
        (readsFirst.nextElement?_first (areBlank_newLine _) _),
        readElements_writeRest readsMore (by simp; omega)]
      rfl

/-! ### Records -/

/-- A field is set to the value that is read for it. -/
theorem Reads.field {read : Reader β} {written : Input} {value : β}
    (reads : Reads read written value) (name : String) (set : α → β → α) (record : α) :
    Reads ((Field.of name read set).read record) written (set record value) where
  starts := reads.starts
  takes blanks rest blank ends := by
    simp only [Field.of, reads.takes blanks rest blank ends]

/-- Members that are written for fields, one by one in their order, take a record to another. -/
inductive Fills (depth : Nat) : List (Field α) → List (String × Value) → α → α → Prop where
  | nil (record : α) : Fills depth [] [] record record
  | cons {field : Field α} {fields : List (Field α)} {value : Value}
      {members : List (String × Value)} {record next last : α} :
      Reads (field.read record) (value.write depth) next → Fills depth fields members next last →
        Fills depth (field :: fields) ((field.name, value) :: members) record last

theorem Fills.eq_of_nil {depth : Nat} {fields : List (Field α)} {record last : α}
    (fills : Fills depth fields [] record last) : fields = [] ∧ record = last := by
  cases fills
  exact ⟨rfl, rfl⟩

namespace Shape

theorem nextKey?_later {blanks : Input} (blank : AreBlank blanks) (rest : Input) :
    nextKey? false (',' :: (blanks ++ '"' :: rest)) = .ok (some rest) := by
  simp [nextKey?, skipBlanks_cons ',' rfl, skipBlanks_append blank, skipBlanks_cons '"' rfl]

theorem nextKey?_first {blanks : Input} (blank : AreBlank blanks) (rest : Input) :
    nextKey? true (blanks ++ '"' :: rest) = .ok (some rest) := by
  simp [nextKey?, skipBlanks_append blank, skipBlanks_cons '"' rfl]

/-- The first key is read as if there were a comma before it. -/
theorem readMembers_first {shape : Shape α} {fuel : Nat} {seen : List String} {record : α}
    {blanks : Input} (blank : AreBlank blanks) (rest : Input) :
    shape.readMembers fuel true seen record (blanks ++ '"' :: rest) =
      shape.readMembers fuel false seen record (',' :: (blanks ++ '"' :: rest)) := by
  cases fuel with
  | zero => rfl
  | succ fuel =>
    simp only [readMembers, nextKey?_first blank, nextKey?_later blank]
    rfl

theorem readMembers_close {shape : Shape α} {fuel : Nat} {first : Bool} {seen : List String}
    {record : α} {blanks : Input} (blank : AreBlank blanks) (complete : shape.missing? seen = none)
    (rest : Input) :
    shape.readMembers (fuel + 1) first seen record (blanks ++ '\x7d' :: rest) =
      .ok (record, rest) := by
  have closed : skipBlanks (blanks ++ '\x7d' :: rest) = '\x7d' :: rest := by
    rw [skipBlanks_append blank, skipBlanks_cons '\x7d' rfl]
  simp [readMembers, nextKey?, closed, complete, bind, Except.bind, pure, Except.pure]

/-- One step of reading an object: a field that was not yet set is set. -/
theorem readMembers_field {shape : Shape α} {field : Field α} {fuel : Nat} {first : Bool}
    {seen : List String} {record next : α} {input written blanks rest : Input}
    (isField : shape.fields.find? (·.name == field.name) = some field)
    (unseen : field.name ∉ seen) (reads : Reads (field.read record) written next)
    (blank : AreBlank blanks) (ends : EndsNumber rest)
    (key : nextKey? first input =
      .ok (some (field.name.toList.flatMap escapeChar ++
        '"' :: ':' :: (blanks ++ (written ++ rest))))) :
    shape.readMembers (fuel + 1) first seen record input =
      shape.readMembers fuel false (field.name :: seen) next rest := by
  have name := takeString_write field.name.toList (':' :: (blanks ++ (written ++ rest)))
  have value := reads.takes blanks rest blank ends
  simp [readMembers, key, name, readMember, isField, unseen, takeColon, skipBlanks_cons ':' rfl,
    value, bind, Except.bind]

end Shape

theorem endsNumber_writeMembers (depth : Nat) (members : List (String × Value)) (rest : Input) :
    EndsNumber (writeMembers depth members ++ rest) := by
  cases members with
  | nil => exact endsNumber_of_isBlank rfl _
  | cons member members => exact ⟨rfl, by simp [writeMembers], rfl⟩

/-- Among fields with different names, each is found by its name. -/
theorem find?_name {done fields : List (Field α)} {field : Field α}
    (distinct : ((done ++ field :: fields).map (·.name)).Nodup) :
    field.name ∉ done.map (·.name) ∧
      (done ++ field :: fields).find? (·.name == field.name) = some field := by
  rw [List.map_append, List.map_cons] at distinct
  have unseen : field.name ∉ done.map (·.name) := fun member =>
    (List.nodup_append.mp distinct).2.2 _ member _ List.mem_cons_self rfl
  refine ⟨unseen, ?_⟩
  rw [List.find?_append, List.find?_eq_none.mpr, Option.none_or, List.find?_cons_of_pos (by simp)]
  intro other member same
  exact unseen (List.mem_map.mpr ⟨other, member, by simpa using same⟩)

/-- The members behind the first are read back, one by one. -/
theorem Fills.readMembers {shape : Shape α} (distinct : (shape.fields.map (·.name)).Nodup)
    {depth : Nat} {done fields : List (Field α)} {members : List (String × Value)}
    {record last : α} (fills : Fills (depth + 1) fields members record last)
    (split : shape.fields = done ++ fields) {fuel : Nat} {rest : Input}
    (enough : (writeMembers depth members ++ '\x7d' :: rest).length ≤ fuel) :
    shape.readMembers fuel false (done.map (·.name)).reverse record
      (writeMembers depth members ++ '\x7d' :: rest) = .ok (last, rest) := by
  -- The fields that are done grow along the run: theirs are the names that were seen.
  induction fills generalizing done fuel with
  | nil record =>
    obtain ⟨fuel, rfl⟩ := exists_eq_succ enough
    refine Shape.readMembers_close (areBlank_newLine depth) ?_ rest
    refine List.find?_eq_none.mpr fun name member => ?_
    rw [split, List.append_nil] at member
    simpa using List.mem_map.mp member
  | @cons field fields value members record next last reads _ inductionHypothesis =>
    obtain ⟨unseen, found⟩ := find?_name (split ▸ distinct)
    rw [← split] at found
    obtain ⟨fuel, rfl⟩ := exists_eq_succ enough
    simp only [writeMembers, List.append_assoc, List.cons_append, List.nil_append,
      writeString_append] at enough ⊢
    refine (Shape.readMembers_field found (by rwa [List.mem_reverse]) reads areBlank_blank
      (endsNumber_writeMembers depth members _)
      (Shape.nextKey?_later (areBlank_newLine _) _)).trans ?_
    have later : shape.fields = (done ++ [field]) ++ fields := by simp [split]
    simpa using inductionHypothesis later (by simp at enough ⊢; omega)

/-- A record is read back if the members of its object fill its fields. -/
theorem Fills.reads {shape : Shape α} (distinct : (shape.fields.map (·.name)).Nodup) {depth : Nat}
    {members : List (String × Value)} {value : α}
    (fills : Fills (depth + 1) shape.fields members shape.blank value) :
    Reads shape.read ((Value.object members).write depth) value where
  starts := by
    rcases members with _ | ⟨⟨name, value⟩, members⟩ <;> exact ⟨'\x7b', _, rfl, rfl, by decide⟩
  takes blanks rest blank _ := by
    cases members with
    | nil =>
      obtain ⟨noFields, rfl⟩ := fills.eq_of_nil
      rw [Value.write, List.cons_append, Shape.read, skipBlanks_append blank,
        skipBlanks_cons '\x7b' rfl]
      exact Shape.readMembers_close areBlank_nil (by simp [Shape.missing?, noFields]) rest
    | cons member members =>
      have run := fills.readMembers distinct (List.nil_append _).symm
        (Nat.le_refl (writeMembers depth (member :: members) ++ '\x7d' :: rest).length)
      simp only [writeMembers, Value.write, List.append_assoc, List.cons_append, List.nil_append,
        writeString_append] at run ⊢
      rw [Shape.read, skipBlanks_append blank, skipBlanks_cons '\x7b' rfl]
      show shape.readMembers _ true _ _ _ = _
      -- With a comma before it, the first member is one of those behind the first.
      rw [Shape.readMembers_first (areBlank_newLine _)]
      exact run

end Values

end CodeAtlas.Json
