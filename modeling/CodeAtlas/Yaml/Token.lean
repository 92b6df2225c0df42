/-
The tokens of a YAML text. Tokens are produced one at a time, on demand, and wait in a queue.
A key on one line is only recognised by the colon behind it, so every place where a key could
begin is remembered; when the colon arrives, a key token is put into the queue at that place,
and where the indentation grew, the start of a mapping in front of it. A token may leave the
queue only when no remembered place can still put something before it.
-/
import CodeAtlas.Yaml.Scalar
import CodeAtlas.Yaml.Tag

namespace CodeAtlas.Yaml

/-! ### Tokens -/

/-- What a token is. -/
inductive Token.Kind where
  | streamStart
  | streamEnd
  | directive (directive : Cursor.Directive)
  | documentStart
  | documentEnd
  | blockSequenceStart
  | blockMappingStart
  | blockEnd
  | flowSequenceStart
  | flowSequenceEnd
  | flowMappingStart
  | flowMappingEnd
  | blockEntry
  | flowEntry
  | key
  | value
  | reference (name : List Char)
  | anchor (name : List Char)
  | tag (handle suffix : List Char)
  | scalar (text : List Char) (style : Style)
deriving DecidableEq, Repr

/-- A token, where it starts and where it stops. -/
structure Token where
  kind : Token.Kind
  start : Mark
  stop : Mark
deriving DecidableEq, Repr

/-- A place where a key may have begun: the number of the token there, and whether nothing but
a key can stand there. -/
structure KeyPlace where
  required : Bool
  number : Nat
  mark : Mark
deriving DecidableEq, Repr

/-! ### The scanner -/

/-- What is known between two tokens. The list `keys` has one element for every open bracket
and one for the block around them, innermost first. -/
structure Scanner where
  cursor : Cursor
  queue : List Token
  /-- How many tokens have left the queue. -/
  taken : Nat
  /-- Whether the head of the queue is known to be final. -/
  ready : Bool
  started : Bool
  /-- The column of the innermost block collection, or -1 outside all of them. -/
  indent : Int
  indents : List Int
  keyAllowed : Bool
  keys : List (Option KeyPlace)

namespace Scanner

/-- A scanner before the first token. -/
def ofCursor (cursor : Cursor) : Scanner :=
  ⟨cursor, [], 0, false, false, -1, [], false, []⟩

/-- The place of the next character. -/
def mark (scanner : Scanner) : Mark := scanner.cursor.mark

/-- Whether some bracket is open. -/
def inFlow (scanner : Scanner) : Bool := 1 < scanner.keys.length

/-- Puts a token at the end of the queue. -/
def enqueue (scanner : Scanner) (kind : Token.Kind) (start stop : Mark) : Scanner :=
  { scanner with queue := scanner.queue ++ [⟨kind, start, stop⟩] }

/-- Puts a token before the one with the given number. -/
def insertToken (scanner : Scanner) (number : Nat) (kind : Token.Kind) (mark : Mark) : Scanner :=
  let (before, behind) := scanner.queue.splitAt (number - scanner.taken)
  { scanner with queue := before ++ ⟨kind, mark, mark⟩ :: behind }

/-- Reads an indicator of some characters as a token. -/
def takeIndicator (scanner : Scanner) (count : Nat) (kind : Token.Kind) : Scanner :=
  let next := scanner.cursor.skip count
  { scanner with cursor := next }.enqueue kind scanner.mark next.mark

/-! ### Places for keys -/

/-- Forgets the places on earlier lines and those more than 1024 characters back. A place that
has to be a key may not be forgotten. -/
def dropStaleKeys (scanner : Scanner) : Except Fault Scanner :=
  let isStale (place : KeyPlace) : Bool :=
    place.mark.line < scanner.mark.line || place.mark.index + 1024 < scanner.mark.index
  let stale := (scanner.keys.reverse.filterMap id).filter isStale
  match stale.find? (·.required) with
  | some place => .error (.inside .simpleKey place.mark .missingColon scanner.mark)
  | none =>
    .ok { scanner with
      keys := scanner.keys.map fun
        | some place => if isStale place then none else some place
        | none => none }

/-- Forgets the innermost place. -/
def removeKey (scanner : Scanner) : Except Fault Scanner :=
  match scanner.keys with
  | some place :: rest =>
    if place.required then .error (.inside .simpleKey place.mark .missingColon scanner.mark)
    else .ok { scanner with keys := none :: rest }
  | _ => .ok scanner

/-- Remembers that a key may begin here, if one may. -/
def saveKey (scanner : Scanner) : Except Fault Scanner :=
  if !scanner.keyAllowed then .ok scanner
  else
    let place : KeyPlace :=
      ⟨!scanner.inFlow && scanner.indent == scanner.mark.column,
        scanner.taken + scanner.queue.length, scanner.mark⟩
    match scanner.removeKey with
    | .error fault => .error fault
    | .ok scanner => .ok { scanner with keys := some place :: scanner.keys.tail }

/-! ### Indentation -/

/-- Opens a block collection if the column is to the right of the current one. The token goes
before the one with the given number, or to the end of the queue. -/
def rollIndent (scanner : Scanner) (column : Nat) (number : Option Nat) (kind : Token.Kind)
    (mark : Mark) : Scanner :=
  if scanner.inFlow || !(scanner.indent < column) then scanner
  else
    let scanner :=
      { scanner with indents := scanner.indent :: scanner.indents, indent := column }
    match number with
    | some number => scanner.insertToken number kind mark
    | none => scanner.enqueue kind mark mark

/-- Closes the block collections to the right of a column. -/
def closeBlocks (column : Int) : List Int → Scanner → Scanner
  | [], scanner => scanner
  | outer :: rest, scanner =>
    if column < scanner.indent then
      closeBlocks column rest
        ({ scanner with indent := outer, indents := rest }.enqueue .blockEnd scanner.mark
          scanner.mark)
    else scanner

/-- Closes the block collections to the right of a column, outside brackets. -/
def unrollIndent (scanner : Scanner) (column : Int) : Scanner :=
  if scanner.inFlow then scanner else closeBlocks column scanner.indents scanner

/-! ### One token -/

/-- Passes over blanks, comments and line breaks. Outside brackets a line break makes a key
possible, and a tab is passed over only where none is. -/
def skipToToken : Nat → Scanner → Scanner
  | 0, scanner => scanner
  | fuel + 1, scanner =>
    let tabs := scanner.inFlow || !scanner.keyAllowed
    let cursor := scanner.cursor.skipRun fun char => char == ' ' || (tabs && char == '\t')
    let cursor := if cursor.sees '#' then cursor.skipRun (fun char => !isBreak char) else cursor
    match cursor.takeBreak? with
    | some (_, cursor) =>
      skipToToken fuel
        { scanner with cursor := cursor, keyAllowed := scanner.keyAllowed || !scanner.inFlow }
    | none => { scanner with cursor := cursor }

/-- The first token of every stream. -/
def fetchStreamStart (scanner : Scanner) : Scanner :=
  { scanner with indent := -1, keys := [none], keyAllowed := true, started := true }.enqueue
    .streamStart scanner.mark scanner.mark

/-- Closes everything outside brackets, before a token that starts over. -/
def closeAll (scanner : Scanner) : Except Fault Scanner :=
  match (scanner.unrollIndent (-1)).removeKey with
  | .error fault => .error fault
  | .ok scanner => .ok { scanner with keyAllowed := false }

/-- The last token of every stream, which stands at the start of a line. -/
def fetchStreamEnd (scanner : Scanner) : Except Fault Scanner :=
  let mark := scanner.mark
  let place := if mark.column = 0 then mark else ⟨mark.index, mark.line + 1, 0⟩
  let scanner := { scanner with cursor := ⟨scanner.cursor.rest, place⟩ }
  match scanner.closeAll with
  | .error fault => .error fault
  | .ok scanner => .ok (scanner.enqueue .streamEnd place place)

/-- A directive. -/
def fetchDirective (scanner : Scanner) : Except Fault Scanner :=
  match scanner.closeAll with
  | .error fault => .error fault
  | .ok scanner =>
    match scanner.cursor.takeDirective with
    | .error fault => .error fault
    | .ok (directive, cursor) =>
      .ok ({ scanner with cursor := cursor }.enqueue (.directive directive) scanner.mark
        cursor.mark)

/-- The start or the end of a document. -/
def fetchDocumentIndicator (scanner : Scanner) (kind : Token.Kind) : Except Fault Scanner :=
  match scanner.closeAll with
  | .error fault => .error fault
  | .ok scanner => .ok (scanner.takeIndicator 3 kind)

/-- An opening bracket. -/
def fetchFlowStart (scanner : Scanner) (kind : Token.Kind) : Except Fault Scanner :=
  match scanner.saveKey with
  | .error fault => .error fault
  | .ok scanner =>
    .ok ({ scanner with keys := none :: scanner.keys, keyAllowed := true }.takeIndicator 1 kind)

/-- A closing bracket. -/
def fetchFlowEnd (scanner : Scanner) (kind : Token.Kind) : Except Fault Scanner :=
  match scanner.removeKey with
  | .error fault => .error fault
  | .ok scanner =>
    let keys := if scanner.inFlow then scanner.keys.tail else scanner.keys
    .ok ({ scanner with keys := keys, keyAllowed := false }.takeIndicator 1 kind)

/-- A comma between brackets. -/
def fetchFlowEntry (scanner : Scanner) : Except Fault Scanner :=
  match scanner.removeKey with
  | .error fault => .error fault
  | .ok scanner => .ok ({ scanner with keyAllowed := true }.takeIndicator 1 .flowEntry)

/-- A dash before an entry. -/
def fetchBlockEntry (scanner : Scanner) : Except Fault Scanner :=
  if !scanner.inFlow && !scanner.keyAllowed then
    .error (.bare .blockEntryNotAllowed scanner.mark)
  else
    let scanner := scanner.rollIndent scanner.mark.column none .blockSequenceStart scanner.mark
    match scanner.removeKey with
    | .error fault => .error fault
    | .ok scanner => .ok ({ scanner with keyAllowed := true }.takeIndicator 1 .blockEntry)

/-- A question mark before a key. -/
def fetchKey (scanner : Scanner) : Except Fault Scanner :=
  if !scanner.inFlow && !scanner.keyAllowed then .error (.bare .keyNotAllowed scanner.mark)
  else
    let scanner := scanner.rollIndent scanner.mark.column none .blockMappingStart scanner.mark
    match scanner.removeKey with
    | .error fault => .error fault
    | .ok scanner =>
      .ok ({ scanner with keyAllowed := !scanner.inFlow }.takeIndicator 1 .key)

/-- A colon before a value. If a key may have begun at the innermost place, it did. -/
def fetchValue (scanner : Scanner) : Except Fault Scanner :=
  match scanner.keys with
  | some place :: rest =>
    let scanner := scanner.insertToken place.number .key place.mark
    let scanner :=
      scanner.rollIndent place.mark.column (some place.number) .blockMappingStart place.mark
    .ok ({ scanner with keys := none :: rest, keyAllowed := false }.takeIndicator 1 .value)
  | _ =>
    if !scanner.inFlow && !scanner.keyAllowed then .error (.bare .valueNotAllowed scanner.mark)
    else
      let scanner := scanner.rollIndent scanner.mark.column none .blockMappingStart scanner.mark
      .ok ({ scanner with keyAllowed := !scanner.inFlow }.takeIndicator 1 .value)

/-- An anchor, or a reference to one. -/
def fetchAnchor (scanner : Scanner) (construct : Construct)
    (kind : List Char → Token.Kind) : Except Fault Scanner :=
  match scanner.saveKey with
  | .error fault => .error fault
  | .ok scanner =>
    match scanner.cursor.takeAnchor construct with
    | .error fault => .error fault
    | .ok (name, cursor) =>
      .ok ({ scanner with cursor := cursor, keyAllowed := false }.enqueue (kind name)
        scanner.mark cursor.mark)

/-- A tag. -/
def fetchTag (scanner : Scanner) : Except Fault Scanner :=
  match scanner.saveKey with
  | .error fault => .error fault
  | .ok scanner =>
    match scanner.cursor.takeTag scanner.inFlow with
    | .error fault => .error fault
    | .ok (handle, suffix, cursor) =>
      .ok ({ scanner with cursor := cursor, keyAllowed := false }.enqueue (.tag handle suffix)
        scanner.mark cursor.mark)

/-- A block scalar. -/
def fetchBlockScalar (scanner : Scanner) (literal : Bool) : Except Fault Scanner :=
  match scanner.removeKey with
  | .error fault => .error fault
  | .ok scanner =>
    match scanner.cursor.takeBlock literal scanner.indent with
    | .error fault => .error fault
    | .ok (text, cursor) =>
      .ok ({ scanner with cursor := cursor, keyAllowed := true }.enqueue
        (.scalar text (if literal then .literal else .folded)) scanner.mark cursor.mark)

/-- A quoted scalar. -/
def fetchQuoted (scanner : Scanner) (single : Bool) : Except Fault Scanner :=
  match scanner.saveKey with
  | .error fault => .error fault
  | .ok scanner =>
    match scanner.cursor.takeQuoted single with
    | .error fault => .error fault
    | .ok (text, cursor) =>
      .ok ({ scanner with cursor := cursor, keyAllowed := false }.enqueue
        (.scalar text (if single then .singleQuoted else .doubleQuoted)) scanner.mark cursor.mark)

/-- A plain scalar. A line break behind it makes a key possible again. -/
def fetchPlain (scanner : Scanner) : Except Fault Scanner :=
  match scanner.saveKey with
  | .error fault => .error fault
  | .ok scanner =>
    match scanner.cursor.takePlain scanner.inFlow (scanner.indent + 1) with
    | .error fault => .error fault
    | .ok plain =>
      .ok ({ scanner with cursor := plain.cursor, keyAllowed := plain.broken }.enqueue
        (.scalar plain.text .plain) scanner.mark plain.stop)

/-- The characters that mean something at the start of a token. -/
def isIndicator (char : Char) : Bool :=
  char == '-' || char == '?' || char == ':' || char == ',' || char == '[' || char == ']' ||
    char == '\x7b' || char == '\x7d' || char == '#' || char == '&' || char == '*' ||
    char == '!' || char == '|' || char == '>' || char == '\'' || char == '"' || char == '%' ||
    char == '@' || char == '\x60'

/-- Whether a plain scalar starts here. A dash starts one if no blank follows, and outside
brackets so does a question mark or a colon if no gap follows. -/
def startsPlain (scanner : Scanner) : Bool :=
  let cursor := scanner.cursor
  match cursor.next? with
  | none => false
  | some char =>
    (!isBlank char && !isBreak char && !isIndicator char) ||
      (char == '-' && !(cursor.peek? 1).any isBlank) ||
      (!scanner.inFlow && (char == '?' || char == ':') && !cursor.gapAt 1)

/-- Reads the token that the next character begins. -/
def fetchAt (scanner : Scanner) : Except Fault Scanner :=
  let cursor := scanner.cursor
  let flow := scanner.inFlow
  match cursor.next? with
  | none => scanner.fetchStreamEnd
  | some char =>
    if cursor.mark.column == 0 && char == '%' then scanner.fetchDirective
    else if cursor.atIndicator '-' then scanner.fetchDocumentIndicator .documentStart
    else if cursor.atIndicator '.' then scanner.fetchDocumentIndicator .documentEnd
    else if char == '[' then scanner.fetchFlowStart .flowSequenceStart
    else if char == '\x7b' then scanner.fetchFlowStart .flowMappingStart
    else if char == ']' then scanner.fetchFlowEnd .flowSequenceEnd
    else if char == '\x7d' then scanner.fetchFlowEnd .flowMappingEnd
    else if char == ',' then scanner.fetchFlowEntry
    else if char == '-' && cursor.gapAt 1 then scanner.fetchBlockEntry
    else if char == '?' && (flow || cursor.gapAt 1) then scanner.fetchKey
    else if char == ':' && (flow || cursor.gapAt 1) then scanner.fetchValue
    else if char == '*' then scanner.fetchAnchor .reference .reference
    else if char == '&' then scanner.fetchAnchor .anchor .anchor
    else if char == '!' then scanner.fetchTag
    else if char == '|' && !flow then scanner.fetchBlockScalar true
    else if char == '>' && !flow then scanner.fetchBlockScalar false
    else if char == '\'' then scanner.fetchQuoted true
    else if char == '"' then scanner.fetchQuoted false
    else if scanner.startsPlain then scanner.fetchPlain
    else .error (.inside .nextToken scanner.mark .noTokenStart scanner.mark)

/-- Reads one more token into the queue, with the ends of blocks before it. -/
def fetchNext (scanner : Scanner) : Except Fault Scanner :=
  if !scanner.started then .ok scanner.fetchStreamStart
  else
    let scanner := skipToToken (scanner.cursor.rest.length + 1) scanner
    match scanner.dropStaleKeys with
    | .error fault => .error fault
    | .ok scanner => (scanner.unrollIndent scanner.mark.column).fetchAt

/-! ### The head of the queue -/

/-- Whether a key may have begun at the head of the queue. -/
def keyAtHead (scanner : Scanner) : Bool :=
  scanner.keys.any fun place => place.any (·.number == scanner.taken)

/-- Reads tokens until the queue has a head and no key can begin there any more. -/
def fetchMore : Nat → Scanner → Except Fault Scanner
  | 0, scanner => .ok { scanner with ready := true }
  | fuel + 1, scanner => do
    if scanner.queue.isEmpty then
      fetchMore fuel (← scanner.fetchNext)
    else
      let scanner ← scanner.dropStaleKeys
      if scanner.keyAtHead then fetchMore fuel (← scanner.fetchNext)
      else return { scanner with ready := true }

/-- The next token, which stays in the queue. -/
def peek (scanner : Scanner) : Except Fault (Token × Scanner) :=
  let fetched :=
    if scanner.ready then .ok scanner else fetchMore (scanner.cursor.rest.length + 3) scanner
  match fetched with
  | .error fault => .error fault
  | .ok scanner =>
    match scanner.queue with
    | token :: _ => .ok (token, scanner)
    | [] => .ok (⟨.streamEnd, scanner.mark, scanner.mark⟩, scanner)

/-- Takes the next token out of the queue. -/
def drop (scanner : Scanner) : Scanner :=
  { scanner with queue := scanner.queue.tail, taken := scanner.taken + 1, ready := false }

end Scanner

end CodeAtlas.Yaml
