/-
The events of a YAML text: documents, collections and scalars as they begin and end. The
grammar is run one event at a time. What is still expected is kept as a stack, so a text may
be nested as deeply as it likes; an expectation about a collection remembers where the
collection began, for the faults that mention it.
-/
import CodeAtlas.Yaml.Token

namespace CodeAtlas.Yaml

/-! ### Events -/

/-- The anchor and the tag in front of a node. -/
structure Properties where
  anchor : Option (List Char) := none
  tag : Option (List Char) := none
deriving DecidableEq, Repr

/-- What an event says. -/
inductive Event.Kind where
  | streamStart
  | streamEnd
  | documentStart
  | documentEnd
  | reference (name : List Char)
  | scalar (properties : Properties) (text : List Char) (style : Style)
  | sequenceStart (properties : Properties)
  | sequenceEnd
  | mappingStart (properties : Properties)
  | mappingEnd
deriving DecidableEq, Repr

/-- An event and where it starts. -/
structure Event where
  kind : Event.Kind
  mark : Mark
deriving DecidableEq, Repr

/-! ### The grammar -/

/-- What the grammar expects next. -/
inductive Expectation where
  | streamStart
  /-- The first document, which needs no indicator. -/
  | firstDocument
  | document
  | documentContent
  | documentEnd
  | blockNode
  | blockEntry (began : Mark)
  | indentlessEntry
  | blockKey (began : Mark)
  | blockValue (began : Mark)
  | flowEntry (first : Bool) (began : Mark)
  | pairKey (began : Mark)
  | pairValue (began : Mark)
  | pairEnd (began : Mark)
  | flowKey (first : Bool) (began : Mark)
  | flowValue (began : Mark)
  /-- The value of a key that has none. -/
  | noValue (began : Mark)
deriving DecidableEq, Repr

/-- The grammar between two events. -/
structure Grammar where
  scanner : Scanner
  expected : List Expectation
  /-- The handles of the current document, with what they stand for. -/
  handles : List (List Char × List Char)

namespace Grammar

/-- The grammar before the first event of a text. -/
def ofCursor (cursor : Cursor) : Grammar := ⟨.ofCursor cursor, [.streamStart], []⟩

/-- The next token. -/
def peek (grammar : Grammar) : Except Fault (Token × Grammar) := do
  let (token, scanner) ← grammar.scanner.peek
  return (token, { grammar with scanner := scanner })

/-- Past the next token. -/
def drop (grammar : Grammar) : Grammar := { grammar with scanner := grammar.scanner.drop }

/-- Expects one thing more, before all else. -/
def expect (grammar : Grammar) (expectation : Expectation) : Grammar :=
  { grammar with expected := expectation :: grammar.expected }

/-- The event of a node that is not written. -/
def emptyScalar (mark : Mark) : Event := ⟨.scalar {} [] .plain, mark⟩

/-! ### Nodes -/

/-- An anchor and a tag in either order, and the place of the tag. -/
def takeProperties (grammar : Grammar) :
    Except Fault (Option (List Char) × Option (List Char × List Char × Mark) × Grammar) := do
  let (token, grammar) ← grammar.peek
  match token.kind with
  | .anchor name =>
    let (second, grammar) ← grammar.drop.peek
    match second.kind with
    | .tag handle suffix => return (some name, some (handle, suffix, second.start), grammar.drop)
    | _ => return (some name, none, grammar)
  | .tag handle suffix =>
    let (second, grammar) ← grammar.drop.peek
    match second.kind with
    | .anchor name => return (some name, some (handle, suffix, token.start), grammar.drop)
    | _ => return (none, some (handle, suffix, token.start), grammar)
  | _ => return (none, none, grammar)

/-- A tag with its handle spelled out. -/
def resolveTag (grammar : Grammar) (began : Mark) (handle suffix : List Char) (place : Mark) :
    Except Fault (List Char) :=
  if handle.isEmpty then .ok suffix
  else
    match grammar.handles.lookup handle with
    | some expansion => .ok (expansion ++ suffix)
    | none => .error (.inside .node began .undefinedTagHandle place)

/-- A node. Block collections may start it only if `block` is set, and a sequence whose dashes
stand at the column of the mapping around it only if `indentless` is set. -/
def node (grammar : Grammar) (block indentless : Bool) : Except Fault (Event × Grammar) := do
  let (first, grammar) ← grammar.peek
  let began := first.start
  match first.kind with
  | .reference name => return (⟨.reference name, began⟩, grammar.drop)
  | _ =>
    let (anchor, tagParts, grammar) ← grammar.takeProperties
    let (token, grammar) ← grammar.peek
    let tag ←
      match tagParts with
      | none => pure none
      | some (handle, suffix, place) =>
        pure (some (← grammar.resolveTag began handle suffix place))
    let properties : Properties := ⟨anchor, tag⟩
    match token.kind, block, indentless with
    | .blockEntry, _, true =>
      return (⟨.sequenceStart properties, began⟩, grammar.expect .indentlessEntry)
    | .scalar text style, _, _ =>
      let tag := if tag = some ['!'] then none else tag
      return (⟨.scalar ⟨anchor, tag⟩ text style, began⟩, grammar.drop)
    | .flowSequenceStart, _, _ =>
      return (⟨.sequenceStart properties, began⟩,
        grammar.drop.expect (.flowEntry true token.start))
    | .flowMappingStart, _, _ =>
      return (⟨.mappingStart properties, began⟩,
        grammar.drop.expect (.flowKey true token.start))
    | .blockSequenceStart, true, _ =>
      return (⟨.sequenceStart properties, began⟩,
        grammar.drop.expect (.blockEntry token.start))
    | .blockMappingStart, true, _ =>
      return (⟨.mappingStart properties, began⟩, grammar.drop.expect (.blockKey token.start))
    | _, _, _ =>
      if anchor.isSome || tag.isSome then
        return (⟨.scalar properties [] .plain, began⟩, grammar)
      else
        throw (.inside (if block then .blockNode else .flowNode) began .missingNode token.start)

/-! ### Documents -/

/-- The handles that every document has. -/
def standardHandles : List (List Char × List Char) :=
  [("!".toList, "!".toList), ("!!".toList, "tag:yaml.org,2002:".toList)]

/-- Reads the directives in front of a document. -/
def takeDirectives : Nat → Bool → Grammar → Except Fault Grammar
  | 0, _, grammar => .ok grammar
  | fuel + 1, versioned, grammar => do
    let (token, grammar) ← grammar.peek
    match token.kind with
    | .directive (.version major minor) =>
      if versioned then throw (.bare .duplicateVersion token.start)
      else if major != 1 || (minor != 1 && minor != 2) then
        throw (.bare .incompatibleVersion token.start)
      else takeDirectives fuel true grammar.drop
    | .directive (.handle name expansion) =>
      if (grammar.handles.lookup name).isSome then
        throw (.bare .duplicateTagDirective token.start)
      else
        takeDirectives fuel versioned
          { grammar.drop with handles := grammar.handles ++ [(name, expansion)] }
    | _ => return { grammar with handles := grammar.handles ++ standardHandles }

/-- Passes over the ends of documents that have none. -/
def skipDocumentEnds : Nat → Grammar → Except Fault Grammar
  | 0, grammar => .ok grammar
  | fuel + 1, grammar => do
    let (token, grammar) ← grammar.peek
    match token.kind with
    | .documentEnd => skipDocumentEnds fuel grammar.drop
    | _ => return grammar

/-- How many tokens can still come, at most. -/
def supply (grammar : Grammar) : Nat :=
  2 * grammar.scanner.cursor.rest.length + grammar.scanner.queue.length + 4

/-- A document with its indicator, or the end of the stream. -/
def explicitDocument (grammar : Grammar) : Except Fault (Event × Grammar) := do
  let (token, grammar) ← grammar.peek
  match token.kind with
  | .streamEnd => return (⟨.streamEnd, token.start⟩, grammar.drop)
  | _ =>
    let grammar ← takeDirectives grammar.supply false grammar
    let (indicator, grammar) ← grammar.peek
    match indicator.kind with
    | .documentStart =>
      return (⟨.documentStart, token.start⟩,
        (grammar.drop.expect .documentEnd).expect .documentContent)
    | _ => throw (.bare .missingDocumentStart indicator.start)

/-- The first document, whose indicator may be left out. -/
def firstDocument (grammar : Grammar) : Except Fault (Event × Grammar) := do
  let (token, grammar) ← grammar.peek
  match token.kind with
  | .directive _ | .documentStart | .streamEnd => grammar.explicitDocument
  | _ =>
    return (⟨.documentStart, token.start⟩,
      ({ grammar with handles := standardHandles }.expect .documentEnd).expect .blockNode)

/-- The content of a document behind its indicator. -/
def documentContent (grammar : Grammar) : Except Fault (Event × Grammar) := do
  let (token, grammar) ← grammar.peek
  match token.kind with
  | .directive _ | .documentStart | .documentEnd | .streamEnd =>
    return (emptyScalar token.start, grammar)
  | _ => grammar.node true false

/-- The end of a document, with or without its indicator. -/
def documentEnd (grammar : Grammar) : Except Fault (Event × Grammar) := do
  let (token, grammar) ← grammar.peek
  let grammar := { grammar with handles := [] }.expect .document
  match token.kind with
  | .documentEnd => return (⟨.documentEnd, token.start⟩, grammar.drop)
  | _ => return (⟨.documentEnd, token.start⟩, grammar)

/-! ### Block collections -/

/-- An entry of a block sequence, or its end. -/
def blockEntry (grammar : Grammar) (began : Mark) : Except Fault (Event × Grammar) := do
  let (token, grammar) ← grammar.peek
  match token.kind with
  | .blockEntry =>
    let (next, grammar) ← (grammar.drop.expect (.blockEntry began)).peek
    match next.kind with
    | .blockEntry | .blockEnd => return (emptyScalar token.stop, grammar)
    | _ => grammar.node true false
  | .blockEnd => return (⟨.sequenceEnd, token.start⟩, grammar.drop)
  | _ => throw (.inside .blockSequence began .missingDash token.start)

/-- An entry of a sequence that is not indented, or its end. -/
def indentlessEntry (grammar : Grammar) : Except Fault (Event × Grammar) := do
  let (token, grammar) ← grammar.peek
  match token.kind with
  | .blockEntry =>
    let (next, grammar) ← (grammar.drop.expect .indentlessEntry).peek
    match next.kind with
    | .blockEntry | .key | .value | .blockEnd => return (emptyScalar token.stop, grammar)
    | _ => grammar.node true false
  | _ => return (⟨.sequenceEnd, token.start⟩, grammar)

/-- A key of a block mapping, or its end. -/
def blockKey (grammar : Grammar) (began : Mark) : Except Fault (Event × Grammar) := do
  let (token, grammar) ← grammar.peek
  match token.kind with
  | .key =>
    let (next, grammar) ← (grammar.drop.expect (.blockValue began)).peek
    match next.kind with
    | .key | .value | .blockEnd => return (emptyScalar token.stop, grammar)
    | _ => grammar.node true true
  | .blockEnd => return (⟨.mappingEnd, token.start⟩, grammar.drop)
  | _ => throw (.inside .blockMapping began .missingKey token.start)

/-- A value of a block mapping. -/
def blockValue (grammar : Grammar) (began : Mark) : Except Fault (Event × Grammar) := do
  let (token, grammar) ← (grammar.expect (.blockKey began)).peek
  match token.kind with
  | .value =>
    let (next, grammar) ← grammar.drop.peek
    match next.kind with
    | .key | .value | .blockEnd => return (emptyScalar token.stop, grammar)
    | _ => grammar.node true true
  | _ => return (emptyScalar token.start, grammar)

/-! ### Collections in brackets -/

/-- An entry of a sequence in brackets, or its end. -/
def flowEntry (grammar : Grammar) (first : Bool) (began : Mark) :
    Except Fault (Event × Grammar) := do
  let (token, grammar) ← grammar.peek
  match token.kind, first with
  | .flowSequenceEnd, _ => return (⟨.sequenceEnd, token.start⟩, grammar.drop)
  | .flowEntry, false =>
    let (next, grammar) ← grammar.drop.peek
    entry next grammar
  | _, false => throw (.inside .flowSequence began .missingSequenceComma token.start)
  | _, true => entry token grammar
where
  /-- An entry behind the comma, if one is needed. -/
  entry (token : Token) (grammar : Grammar) : Except Fault (Event × Grammar) :=
    match token.kind with
    | .flowSequenceEnd => .ok (⟨.sequenceEnd, token.start⟩, grammar.drop)
    | .key => .ok (⟨.mappingStart {}, token.start⟩, grammar.drop.expect (.pairKey began))
    | _ => (grammar.expect (.flowEntry false began)).node false false

/-- The key of a single pair. If it is not written, the token that shows this is passed over. -/
def pairKey (grammar : Grammar) (began : Mark) : Except Fault (Event × Grammar) := do
  let (token, grammar) ← (grammar.expect (.pairValue began)).peek
  match token.kind with
  | .value | .flowEntry | .flowSequenceEnd => return (emptyScalar token.stop, grammar.drop)
  | _ => grammar.node false false

/-- The value of a single pair. -/
def pairValue (grammar : Grammar) (began : Mark) : Except Fault (Event × Grammar) := do
  let (token, grammar) ← (grammar.expect (.pairEnd began)).peek
  match token.kind with
  | .value =>
    let (next, grammar) ← grammar.drop.peek
    match next.kind with
    | .flowEntry | .flowSequenceEnd => return (emptyScalar next.start, grammar)
    | _ => grammar.node false false
  | _ => return (emptyScalar token.start, grammar)

/-- The end of a single pair. -/
def pairEnd (grammar : Grammar) (began : Mark) : Except Fault (Event × Grammar) := do
  let (token, grammar) ← (grammar.expect (.flowEntry false began)).peek
  return (⟨.mappingEnd, token.start⟩, grammar)

/-- A key of a mapping in brackets, or its end. -/
def flowKey (grammar : Grammar) (first : Bool) (began : Mark) :
    Except Fault (Event × Grammar) := do
  let (token, grammar) ← grammar.peek
  match token.kind, first with
  | .flowMappingEnd, _ => return (⟨.mappingEnd, token.start⟩, grammar.drop)
  | .flowEntry, false =>
    let (next, grammar) ← grammar.drop.peek
    entry next grammar
  | _, false => throw (.inside .flowMapping began .missingMappingComma token.start)
  | _, true => entry token grammar
where
  /-- A pair behind the comma, if one is needed. -/
  entry (token : Token) (grammar : Grammar) : Except Fault (Event × Grammar) :=
    match token.kind with
    | .flowMappingEnd => .ok (⟨.mappingEnd, token.start⟩, grammar.drop)
    | .key => do
      let (next, grammar) ← (grammar.drop.expect (.flowValue began)).peek
      match next.kind with
      | .value | .flowEntry | .flowMappingEnd => return (emptyScalar next.start, grammar)
      | _ => grammar.node false false
    | _ => (grammar.expect (.noValue began)).node false false

/-- A value of a mapping in brackets. -/
def flowValue (grammar : Grammar) (began : Mark) : Except Fault (Event × Grammar) := do
  let (token, grammar) ← (grammar.expect (.flowKey false began)).peek
  match token.kind with
  | .value =>
    let (next, grammar) ← grammar.drop.peek
    match next.kind with
    | .flowEntry | .flowMappingEnd => return (emptyScalar next.start, grammar)
    | _ => grammar.node false false
  | _ => return (emptyScalar token.start, grammar)

/-- The value of a key that has none. -/
def noValue (grammar : Grammar) (began : Mark) : Except Fault (Event × Grammar) := do
  let (token, grammar) ← (grammar.expect (.flowKey false began)).peek
  return (emptyScalar token.start, grammar)

/-! ### One event -/

/-- The start of the stream. -/
def streamStart (grammar : Grammar) : Except Fault (Event × Grammar) := do
  let (token, grammar) ← (grammar.expect .firstDocument).peek
  return (⟨.streamStart, token.start⟩, grammar.drop)

/-- The next event. -/
def next (grammar : Grammar) : Except Fault (Event × Grammar) :=
  match grammar.expected with
  | [] => .ok (⟨.streamEnd, grammar.scanner.mark⟩, grammar)
  | expectation :: rest =>
    let grammar := { grammar with expected := rest }
    match expectation with
    | .streamStart => grammar.streamStart
    | .firstDocument => grammar.firstDocument
    | .document => do explicitDocument (← skipDocumentEnds grammar.supply grammar)
    | .documentContent => grammar.documentContent
    | .documentEnd => grammar.documentEnd
    | .blockNode => grammar.node true false
    | .blockEntry began => grammar.blockEntry began
    | .indentlessEntry => grammar.indentlessEntry
    | .blockKey began => grammar.blockKey began
    | .blockValue began => grammar.blockValue began
    | .flowEntry first began => grammar.flowEntry first began
    | .pairKey began => grammar.pairKey began
    | .pairValue began => grammar.pairValue began
    | .pairEnd began => grammar.pairEnd began
    | .flowKey first began => grammar.flowKey first began
    | .flowValue began => grammar.flowValue began
    | .noValue began => grammar.noValue began

end Grammar

end CodeAtlas.Yaml
