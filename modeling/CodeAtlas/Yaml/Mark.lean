/-
Positions in a YAML text, and what can be wrong at one. A fault names the problem and the
place where it was noticed; most faults also name the construct that was being read and the
place where that construct began. The wording of every fault is in this file and nowhere else.
-/

namespace CodeAtlas.Yaml

/-! ### Positions -/

/-- A place between two characters: how many characters come before it, how many line breaks,
and how many characters since the last line break. -/
structure Mark where
  index : Nat
  line : Nat
  column : Nat
deriving DecidableEq, Repr

namespace Mark

/-- The place before the first character. -/
def start : Mark := ⟨0, 0, 0⟩

/-- Two marks on the same line and column. The index is left out of the comparison. -/
def samePlace (left right : Mark) : Bool :=
  left.line == right.line && left.column == right.column

/-- The first column of the first line, where a position is not worth writing. -/
def isOrigin (mark : Mark) : Bool := mark.samePlace start

/-- Lines and columns are written counting from one. -/
def describe (mark : Mark) : String :=
  s!"line {mark.line + 1} column {mark.column + 1}"

/-- Past some characters of the same line. -/
def advance (mark : Mark) (count : Nat) : Mark :=
  ⟨mark.index + count, mark.line, mark.column + count⟩

/-- Past a line break that is written with so many characters. -/
def nextLine (mark : Mark) (width : Nat) : Mark :=
  ⟨mark.index + width, mark.line + 1, 0⟩

end Mark

/-! ### Faults -/

/-- What was being read when a fault was noticed. -/
inductive Construct where
  | nextToken
  | simpleKey
  | directive
  | versionDirective
  | tagDirective
  | tagDirectiveHandle
  | tagDirectiveBang
  | tagDirectiveUri
  | anchor
  | reference
  | tag
  | tagUri
  | blockScalar
  | quotedScalar
  | quotedEscape
  | plainScalar
  | node
  | blockNode
  | flowNode
  | blockSequence
  | blockMapping
  | flowSequence
  | flowMapping
deriving DecidableEq, Repr

/-- The words for a construct that was being read. -/
def Construct.describe : Construct → String
  | .nextToken => "while scanning for the next token"
  | .simpleKey => "while scanning a simple key"
  | .directive => "while scanning a directive"
  | .versionDirective => "while scanning a %YAML directive"
  | .tagDirective => "while scanning a %TAG directive"
  | .tagDirectiveHandle => "while scanning a tag directive"
  | .tagDirectiveBang => "while parsing a tag directive"
  | .tagDirectiveUri => "while parsing a %TAG directive"
  | .anchor => "while scanning an anchor"
  | .reference => "while scanning an alias"
  | .tag => "while scanning a tag"
  | .tagUri => "while parsing a tag"
  | .blockScalar => "while scanning a block scalar"
  | .quotedScalar => "while scanning a quoted scalar"
  | .quotedEscape => "while parsing a quoted scalar"
  | .plainScalar => "while scanning a plain scalar"
  | .node => "while parsing a node"
  | .blockNode => "while parsing a block node"
  | .flowNode => "while parsing a flow node"
  | .blockSequence => "while parsing a block collection"
  | .blockMapping => "while parsing a block mapping"
  | .flowSequence => "while parsing a flow sequence"
  | .flowMapping => "while parsing a flow mapping"

/-- What is wrong at a place. -/
inductive Problem where
  | noTokenStart
  | missingColon
  | blockEntryNotAllowed
  | keyNotAllowed
  | valueNotAllowed
  | missingDirectiveName
  | directiveNameCharacter
  | unknownDirective
  | missingVersionDot
  | longVersionNumber
  | missingVersionNumber
  | missingBlank
  | missingBlankOrBreak
  | missingCommentOrBreak
  | missingBang
  | missingTagUri
  | missingTagEnd
  | badUriEscape
  | badLeadingOctet
  | badTrailingOctet
  | missingAnchorName
  | zeroIndentation
  | tabInIndentation
  | tabViolatesIndentation
  | documentIndicatorInScalar
  | endOfStreamInScalar
  | unknownEscape
  | missingHexDigit
  | badEscapeCode
  | colonInFlowScalar
  | missingDocumentStart
  | undefinedTagHandle
  | missingNode
  | missingDash
  | missingKey
  | missingSequenceComma
  | missingMappingComma
  | duplicateVersion
  | incompatibleVersion
  | duplicateTagDirective
deriving DecidableEq, Repr

/-- The words for a problem. -/
def Problem.describe : Problem → String
  | .noTokenStart => "found character that cannot start any token"
  | .missingColon => "could not find expected ':'"
  | .blockEntryNotAllowed => "block sequence entries are not allowed in this context"
  | .keyNotAllowed => "mapping keys are not allowed in this context"
  | .valueNotAllowed => "mapping values are not allowed in this context"
  | .missingDirectiveName => "could not find expected directive name"
  | .directiveNameCharacter => "found unexpected non-alphabetical character"
  | .unknownDirective => "found unknown directive name"
  | .missingVersionDot => "did not find expected digit or '.' character"
  | .longVersionNumber => "found extremely long version number"
  | .missingVersionNumber => "did not find expected version number"
  | .missingBlank => "did not find expected whitespace"
  | .missingBlankOrBreak => "did not find expected whitespace or line break"
  | .missingCommentOrBreak => "did not find expected comment or line break"
  | .missingBang => "did not find expected '!'"
  | .missingTagUri => "did not find expected tag URI"
  | .missingTagEnd => "did not find the expected '>'"
  | .badUriEscape => "did not find URI escaped octet"
  | .badLeadingOctet => "found an incorrect leading UTF-8 octet"
  | .badTrailingOctet => "found an incorrect trailing UTF-8 octet"
  | .missingAnchorName => "did not find expected alphabetic or numeric character"
  | .zeroIndentation => "found an indentation indicator equal to 0"
  | .tabInIndentation => "found a tab character where an indentation space is expected"
  | .tabViolatesIndentation => "found a tab character that violates indentation"
  | .documentIndicatorInScalar => "found unexpected document indicator"
  | .endOfStreamInScalar => "found unexpected end of stream"
  | .unknownEscape => "found unknown escape character"
  | .missingHexDigit => "did not find expected hexdecimal number"
  | .badEscapeCode => "found invalid Unicode character escape code"
  | .colonInFlowScalar => "found unexpected ':'"
  | .missingDocumentStart => "did not find expected <document start>"
  | .undefinedTagHandle => "found undefined tag handle"
  | .missingNode => "did not find expected node content"
  | .missingDash => "did not find expected '-' indicator"
  | .missingKey => "did not find expected key"
  | .missingSequenceComma => "did not find expected ',' or ']'"
  | .missingMappingComma => "did not find expected ',' or '\x7d'"
  | .duplicateVersion => "found duplicate %YAML directive"
  | .incompatibleVersion => "found incompatible YAML document"
  | .duplicateTagDirective => "found duplicate %TAG directive"

/-- Why a text is not YAML. -/
inductive Fault where
  /-- A character that may stand nowhere, so many bytes into the text. -/
  | forbidden (offset : Nat)
  /-- A problem at a place, perhaps inside a construct that began at another. -/
  | malformed (problem : Problem) (place : Mark) (construct : Option (Construct × Mark))
deriving DecidableEq, Repr

namespace Fault

/-- A problem noticed while reading a construct. -/
def inside (construct : Construct) (began : Mark) (problem : Problem) (place : Mark) : Fault :=
  .malformed problem place (some (construct, began))

/-- A problem on its own. -/
def bare (problem : Problem) (place : Mark) : Fault :=
  .malformed problem place none

/-- A place is written unless it is the origin; the place where a construct began is written
only if it also differs from the place of the problem. -/
def message : Fault → String
  | .forbidden offset =>
    "control characters are not allowed" ++ (if offset = 0 then "" else s!" at position {offset}")
  | .malformed problem place construct =>
    let whereIs := if place.isOrigin then "" else s!" at {place.describe}"
    let inWhat :=
      match construct with
      | none => ""
      | some (kind, began) =>
        s!", {kind.describe}" ++
          (if began.isOrigin || began.samePlace place then "" else s!" at {began.describe}")
    problem.describe ++ whereIs ++ inWhat

end Fault

end CodeAtlas.Yaml
