/-
A cursor over the characters of a YAML text. It keeps the characters that are still unread
together with the position of the first of them, and moves over runs of characters and over
line breaks. The text a cursor starts from holds no forbidden character, and the end of the
text is the end of the list.
-/
import CodeAtlas.Yaml.Mark

namespace CodeAtlas.Yaml

/-! ### Classes of characters -/

/-- The characters that end a line. -/
def isBreak (char : Char) : Bool :=
  char == '\r' || char == '\n' || char == '\u0085' || char == '\u2028' || char == '\u2029'

/-- A space or a tab. -/
def isBlank (char : Char) : Bool := char == ' ' || char == '\t'

/-- The characters of anchors, directive names and tag handles. -/
def isWordChar (char : Char) : Bool :=
  ('0' ≤ char && char ≤ '9') || ('A' ≤ char && char ≤ 'Z') || ('a' ≤ char && char ≤ 'z') ||
    char == '_' || char == '-'

/-- A decimal digit. -/
def isDigit (char : Char) : Bool := '0' ≤ char && char ≤ '9'

/-- The value of a hexadecimal digit. -/
def hexValue? (char : Char) : Option Nat :=
  if '0' ≤ char && char ≤ '9' then some (char.toNat - '0'.toNat)
  else if 'a' ≤ char && char ≤ 'f' then some (char.toNat - 'a'.toNat + 10)
  else if 'A' ≤ char && char ≤ 'F' then some (char.toNat - 'A'.toNat + 10)
  else none

/-- Characters that may stand in a YAML text: the printable ones, tabs and line breaks. A
byte order mark is not among them. -/
def isAllowed (char : Char) : Bool :=
  let code := char.toNat
  code == 0x09 || code == 0x0A || code == 0x0D || (0x20 ≤ code && code ≤ 0x7E) ||
    code == 0x85 || (0xA0 ≤ code && code ≤ 0xD7FF) ||
    (0xE000 ≤ code && code ≤ 0xFFFD && code != 0xFEFF) || 0x10000 ≤ code

/-- The byte offset of the first character that may not stand in a text, counting from a
given offset. -/
def forbiddenOffset? : Nat → List Char → Option Nat
  | _, [] => none
  | offset, char :: rest =>
    if isAllowed char then forbiddenOffset? (offset + char.utf8Size) rest else some offset

/-! ### The cursor -/

/-- What is still unread, and where it begins. -/
structure Cursor where
  rest : List Char
  mark : Mark

namespace Cursor

/-- A cursor at the start of a text. One byte order mark at the very start is passed over
without counting as a character. -/
def ofText (text : List Char) : Except Fault Cursor :=
  let (skipped, body) :=
    match text with
    | '\uFEFF' :: body => (3, body)
    | body => (0, body)
  match forbiddenOffset? skipped body with
  | some offset => .error (.forbidden offset)
  | none => .ok ⟨body, Mark.start⟩

/-- The next character. -/
def next? (cursor : Cursor) : Option Char := cursor.rest.head?

/-- The character at a distance. -/
def peek? (cursor : Cursor) (distance : Nat) : Option Char := cursor.rest[distance]?

/-- Whether the next character is the given one. -/
def sees (cursor : Cursor) (char : Char) : Bool := cursor.next? == some char

/-- Whether the character at a distance is the given one. -/
def seesAt (cursor : Cursor) (distance : Nat) (char : Char) : Bool :=
  cursor.peek? distance == some char

/-- Whether the text has ended. -/
def atEnd (cursor : Cursor) : Bool := cursor.rest.isEmpty

/-- Whether a class holds the next character. -/
def seesAny (cursor : Cursor) (member : Char → Bool) : Bool := cursor.next?.any member

/-- Whether the character at a distance is a blank, a line break or the end of the text. -/
def gapAt (cursor : Cursor) (distance : Nat) : Bool :=
  match cursor.peek? distance with
  | none => true
  | some char => isBlank char || isBreak char

/-- Whether the line ends here. -/
def atLineEnd (cursor : Cursor) : Bool :=
  match cursor.next? with
  | none => true
  | some char => isBreak char

/-- Whether a line starts here with three of the given character and then a gap. -/
def atIndicator (cursor : Cursor) (char : Char) : Bool :=
  cursor.mark.column == 0 && cursor.seesAt 0 char && cursor.seesAt 1 char &&
    cursor.seesAt 2 char && cursor.gapAt 3

/-- Whether a document starts or ends here by an indicator. -/
def atDocumentIndicator (cursor : Cursor) : Bool :=
  cursor.atIndicator '-' || cursor.atIndicator '.'

/-- Past some characters, none of which ends a line. -/
def skip (cursor : Cursor) (count : Nat) : Cursor :=
  ⟨cursor.rest.drop count, cursor.mark.advance count⟩

/-- The longest run of a class that holds no line break, and the cursor behind it. -/
def takeRun (cursor : Cursor) (member : Char → Bool) : List Char × Cursor :=
  let run := cursor.rest.takeWhile member
  (run, cursor.skip run.length)

/-- Past the longest run of a class that holds no line break. -/
def skipRun (cursor : Cursor) (member : Char → Bool) : Cursor := (cursor.takeRun member).2

/-- Past blanks, and past a comment that follows them. -/
def skipComment (cursor : Cursor) : Cursor :=
  let cursor := cursor.skipRun isBlank
  if cursor.sees '#' then cursor.skipRun (fun char => !isBreak char) else cursor

/-- Reads one line break. Carriage return, line feed, the two together and next line are all
read as a line feed; the line and paragraph separators are kept. -/
def takeBreak? (cursor : Cursor) : Option (Char × Cursor) :=
  match cursor.rest with
  | '\r' :: '\n' :: rest => some ('\n', ⟨rest, cursor.mark.nextLine 2⟩)
  | char :: rest =>
    if char == '\u2028' || char == '\u2029' then some (char, ⟨rest, cursor.mark.nextLine 1⟩)
    else if isBreak char then some ('\n', ⟨rest, cursor.mark.nextLine 1⟩)
    else none
  | [] => none

/-- Past one line break, if one comes next. -/
def skipBreak (cursor : Cursor) : Cursor :=
  match cursor.takeBreak? with
  | some (_, cursor) => cursor
  | none => cursor

end Cursor

end CodeAtlas.Yaml
