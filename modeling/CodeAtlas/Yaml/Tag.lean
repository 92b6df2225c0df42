/-
Anchors, tags and directives: the parts of a YAML text that say something about a node or a
document without being content. A tag is a handle and a suffix; the handle stands for the
beginning of a longer name, which a directive may define. An octet that a tag writes as a
percent escape is kept as the character with that number.
-/
import CodeAtlas.Yaml.Cursor

namespace CodeAtlas.Yaml

namespace Cursor

/-! ### Anchors -/

/-- The characters that may follow the name of an anchor, blanks and line breaks apart. -/
def endsAnchor (char : Char) : Bool :=
  char == '?' || char == ':' || char == ',' || char == ']' || char == '\x7d' || char == '%' ||
    char == '@' || char == '\x60'

/-- Reads the name of an anchor, or of a reference to one, behind its indicator. -/
def takeAnchor (cursor : Cursor) (construct : Construct) : Except Fault (List Char × Cursor) :=
  let began := cursor.mark
  let (name, cursor) := (cursor.skip 1).takeRun isWordChar
  if name.isEmpty || !(cursor.gapAt 0 || cursor.seesAny endsAnchor) then
    .error (.inside construct began .missingAnchorName cursor.mark)
  else .ok (name, cursor)

/-! ### Tags -/

/-- The characters of a tag. Between angle brackets, and in a directive, a tag may also hold
commas and square brackets. -/
def isUriChar (wide : Bool) (char : Char) : Bool :=
  isWordChar char || char == ';' || char == '/' || char == '?' || char == ':' || char == '@' ||
    char == '&' || char == '=' || char == '+' || char == '$' || char == '.' || char == '%' ||
    char == '!' || char == '~' || char == '*' || char == '\'' || char == '(' || char == ')' ||
    (wide && (char == ',' || char == '[' || char == ']'))

/-- How many octets an encoded character has, by its first octet. -/
def octetCount? (octet : Nat) : Option Nat :=
  if octet < 0x80 then some 1
  else if 0xC0 ≤ octet && octet < 0xE0 then some 2
  else if 0xE0 ≤ octet && octet < 0xF0 then some 3
  else if 0xF0 ≤ octet && octet < 0xF8 then some 4
  else none

/-- The octet that a percent sign and two hexadecimal digits write. -/
def escapedOctet? (cursor : Cursor) : Option Nat :=
  match cursor.rest with
  | '%' :: high :: low :: _ =>
    match hexValue? high, hexValue? low with
    | some high, some low => some (high * 16 + low)
    | _, _ => none
  | _ => none

/-- Reads the octets that still belong to one escaped character. -/
def takeTrailingOctets (fail : Problem → Mark → Fault) :
    Nat → List Char → Cursor → Except Fault (List Char × Cursor)
  | 0, octets, cursor => .ok (octets, cursor)
  | count + 1, octets, cursor =>
    match cursor.escapedOctet? with
    | none => .error (fail .badUriEscape cursor.mark)
    | some octet =>
      if 0x80 ≤ octet && octet < 0xC0 then
        takeTrailingOctets fail count (octets ++ [Char.ofNat octet]) (cursor.skip 3)
      else .error (fail .badTrailingOctet cursor.mark)

/-- Reads one escaped character of a tag. -/
def takeUriEscape (cursor : Cursor) (fail : Problem → Mark → Fault) :
    Except Fault (List Char × Cursor) :=
  match cursor.escapedOctet? with
  | none => .error (fail .badUriEscape cursor.mark)
  | some octet =>
    match octetCount? octet with
    | none => .error (fail .badLeadingOctet cursor.mark)
    | some count => takeTrailingOctets fail (count - 1) [Char.ofNat octet] (cursor.skip 3)

/-- Reads the characters of a tag. -/
def uriLoop (wide : Bool) (fail : Problem → Mark → Fault) :
    Nat → List Char → Cursor → Except Fault (List Char × Cursor)
  | 0, uri, cursor => .ok (uri, cursor)
  | fuel + 1, uri, cursor =>
    match cursor.next? with
    | none => .ok (uri, cursor)
    | some char =>
      if !isUriChar wide char then .ok (uri, cursor)
      else if char == '%' then
        match cursor.takeUriEscape fail with
        | .error fault => .error fault
        | .ok (octets, cursor) => uriLoop wide fail fuel (uri ++ octets) cursor
      else uriLoop wide fail fuel (uri ++ [char]) (cursor.skip 1)

/-- Reads a tag that continues `head`, of which the first character is left out. A tag with
neither a head nor a character of its own is an error. -/
def takeUri (cursor : Cursor) (wide : Bool) (construct : Construct) (head : List Char)
    (began : Mark) : Except Fault (List Char × Cursor) :=
  match uriLoop wide (.inside construct began) (cursor.rest.length + 1) [] cursor with
  | .error fault => .error fault
  | .ok (uri, cursor) =>
    if head.isEmpty && uri.isEmpty then
      .error (.inside construct began .missingTagUri cursor.mark)
    else .ok (head.drop 1 ++ uri, cursor)

/-- Reads an exclamation mark, the word after it, and a closing exclamation mark if there is
one. In a directive a word has to be closed. -/
def takeHandle (cursor : Cursor) (directive : Bool) (began : Mark) :
    Except Fault (List Char × Cursor) :=
  if !cursor.sees '!' then
    .error (.inside (if directive then .tagDirectiveHandle else .tag) began .missingBang
      cursor.mark)
  else
    let (word, cursor) := (cursor.skip 1).takeRun isWordChar
    if cursor.sees '!' then .ok ('!' :: word ++ ['!'], cursor.skip 1)
    else if directive && !word.isEmpty then
      .error (.inside .tagDirectiveBang began .missingBang cursor.mark)
    else .ok ('!' :: word, cursor)

/-- Whether a text that was read as a handle is one: it has a closing exclamation mark. -/
def isClosedHandle (handle : List Char) : Bool :=
  2 ≤ handle.length && handle.getLast? == some '!'

/-- Reads the handle and the suffix of a tag, in any of its forms: in angle brackets, with a
handle, with a suffix alone, or a lone exclamation mark. -/
def takeTagParts (cursor : Cursor) : Except Fault (List Char × List Char × Cursor) :=
  let began := cursor.mark
  if cursor.seesAt 1 '<' then
    match (cursor.skip 2).takeUri true .tagUri [] began with
    | .error fault => .error fault
    | .ok (suffix, cursor) =>
      if cursor.sees '>' then .ok ([], suffix, cursor.skip 1)
      else .error (.inside .tag began .missingTagEnd cursor.mark)
  else
    match cursor.takeHandle false began with
    | .error fault => .error fault
    | .ok (handle, cursor) =>
      if isClosedHandle handle then
        match cursor.takeUri false .tagUri [] began with
        | .error fault => .error fault
        | .ok (suffix, cursor) => .ok (handle, suffix, cursor)
      else
        match cursor.takeUri false .tagUri handle began with
        | .error fault => .error fault
        | .ok (suffix, cursor) =>
          if suffix.isEmpty then .ok ([], ['!'], cursor) else .ok (['!'], suffix, cursor)

/-- Reads a tag, which ends at a gap or, inside brackets, at a comma. -/
def takeTag (cursor : Cursor) (flow : Bool) : Except Fault (List Char × List Char × Cursor) :=
  let began := cursor.mark
  match cursor.takeTagParts with
  | .error fault => .error fault
  | .ok (handle, suffix, cursor) =>
    if cursor.gapAt 0 || (flow && cursor.sees ',') then .ok (handle, suffix, cursor)
    else .error (.inside .tag began .missingBlankOrBreak cursor.mark)

/-! ### Directives -/

/-- What a directive says. -/
inductive Directive where
  | version (major minor : Nat)
  | handle (name expansion : List Char)
deriving DecidableEq, Repr

/-- The number that decimal digits write. -/
def decimal (digits : List Char) : Nat :=
  digits.foldl (fun value digit => value * 10 + (digit.toNat - '0'.toNat)) 0

/-- Reads one number of a version, of nine digits at most. -/
def takeVersionNumber (cursor : Cursor) (began : Mark) : Except Fault (Nat × Cursor) :=
  let (digits, behind) := cursor.takeRun isDigit
  if 9 < digits.length then
    .error (.inside .versionDirective began .longVersionNumber (cursor.skip 9).mark)
  else if digits.isEmpty then
    .error (.inside .versionDirective began .missingVersionNumber cursor.mark)
  else .ok (decimal digits, behind)

/-- Reads the version of a version directive. -/
def takeVersion (cursor : Cursor) (began : Mark) : Except Fault (Directive × Cursor) :=
  match (cursor.skipRun isBlank).takeVersionNumber began with
  | .error fault => .error fault
  | .ok (major, cursor) =>
    if !cursor.sees '.' then
      .error (.inside .versionDirective began .missingVersionDot cursor.mark)
    else
      match (cursor.skip 1).takeVersionNumber began with
      | .error fault => .error fault
      | .ok (minor, cursor) => .ok (.version major minor, cursor)

/-- Reads the handle of a tag directive and what it stands for. -/
def takeHandleDefinition (cursor : Cursor) (began : Mark) : Except Fault (Directive × Cursor) :=
  match (cursor.skipRun isBlank).takeHandle true began with
  | .error fault => .error fault
  | .ok (handle, cursor) =>
    if !cursor.seesAny isBlank then
      .error (.inside .tagDirective began .missingBlank cursor.mark)
    else
      match (cursor.skipRun isBlank).takeUri true .tagDirectiveUri [] began with
      | .error fault => .error fault
      | .ok (expansion, cursor) =>
        if cursor.gapAt 0 then .ok (.handle handle expansion, cursor)
        else .error (.inside .tagDirective began .missingBlankOrBreak cursor.mark)

/-- Reads a directive with the rest of its line. -/
def takeDirective (cursor : Cursor) : Except Fault (Directive × Cursor) :=
  let began := cursor.mark
  let (name, cursor) := (cursor.skip 1).takeRun isWordChar
  if name.isEmpty then .error (.inside .directive began .missingDirectiveName cursor.mark)
  else if !cursor.gapAt 0 then
    .error (.inside .directive began .directiveNameCharacter cursor.mark)
  else
    let body :=
      if name == "YAML".toList then cursor.takeVersion began
      else if name == "TAG".toList then cursor.takeHandleDefinition began
      else .error (.inside .directive began .unknownDirective cursor.mark)
    match body with
    | .error fault => .error fault
    | .ok (directive, cursor) =>
      let cursor := cursor.skipComment
      if cursor.atLineEnd then .ok (directive, cursor.skipBreak)
      else .error (.inside .directive began .missingCommentOrBreak cursor.mark)

end Cursor

end CodeAtlas.Yaml
