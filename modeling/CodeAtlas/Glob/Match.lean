/-
Which paths a pattern matches. A pattern is matched against the whole path, byte by byte: `?`
is one byte, and stars pass over slashes like over any other byte. A part is followed from all
the places at once where it could start, so the work is bounded by the length of the pattern
times the square of the length of the path.
-/
import CodeAtlas.Glob.Pattern
import CodeAtlas.Path

namespace CodeAtlas.Glob

/-- The bytes of a character. -/
def encode (char : Char) : List UInt8 := String.utf8EncodeChar char

/-! ### Places

A place in a path is what is left of the path there. -/

/-- What is left of a path. -/
abbrev Rest := List UInt8

/-- The places behind some bytes. -/
def after (wanted : List UInt8) (places : List Rest) : List Rest :=
  places.filterMap (wanted.isPrefixOf? ·)

/-- The places behind one byte of a class. -/
def afterOne (member : UInt8 → Bool) (places : List Rest) : List Rest :=
  places.filterMap fun
    | byte :: rest => if member byte then some rest else none
    | [] => none

/-- The first of some places. -/
def earliest? (places : List Rest) : Option Rest :=
  places.foldl
    (fun best place =>
      match best with
      | some rest => if rest.length < place.length then some place else best
      | none => some place)
    none

/-- Everything from a place on. -/
def suffixes : Rest → List Rest
  | [] => [[]]
  | byte :: rest => (byte :: rest) :: suffixes rest

/-- The places at or behind some places. -/
def spread (places : List Rest) : List Rest :=
  match earliest? places with
  | some place => suffixes place
  | none => []

/-- Two sets of places of one path, none of them twice. -/
def union (left right : List Rest) : List Rest :=
  left ++ right.filter fun place => !left.any (·.length == place.length)

/-- The slash. -/
def slash : List UInt8 := encode '/'

/-! ### Parts -/

/-- The bytes that a range of a set stands for. Of characters that take several bytes each
byte counts for itself, and the range runs from the last byte of the first character to the
first byte of the last. -/
def rangeMember (byte : UInt8) (first last : Char) : Bool :=
  let low := encode first
  let high := encode last
  if first = last then low.contains byte
  else
    low.dropLast.contains byte || high.tail.contains byte ||
      (low.getLastD 0 ≤ byte && byte ≤ high.headD 0)

/-- Whether a set holds a byte. -/
def setMember (negated : Bool) (ranges : List (Char × Char)) (byte : UInt8) : Bool :=
  ranges.any (fun (first, last) => rangeMember byte first last) != negated

mutual

/-- Whether a part is nothing at all: a choice of nothing. -/
def Part.isVoid : Part → Bool
  | .choice branches => allVoid branches
  | _ => false

/-- Whether all parts are nothing at all. -/
def isVoid : List Part → Bool
  | [] => true
  | part :: parts => part.isVoid && isVoid parts

/-- Whether all branches are nothing at all. -/
def allVoid : List (List Part) → Bool
  | [] => true
  | branch :: branches => isVoid branch && allVoid branches

end

mutual

/-- The places behind a part. A choice whose branches are all empty is nothing; otherwise the
empty branches do not count. -/
def Part.ends (places : List Rest) : Part → List Rest
  | .literal char => after (encode char) places
  | .one => afterOne (fun _ => true) places
  | .many => spread places
  | .leading => union places (after slash (spread places))
  | .underneath => spread (after slash places)
  | .between =>
    let behind := after slash places
    union behind (after slash (spread behind))
  | .set negated ranges => afterOne (setMember negated ranges) places
  | .choice branches => if allVoid branches then places else branchEnds places branches

/-- The places behind some parts. -/
def ends (places : List Rest) : List Part → List Rest
  | [] => places
  | part :: parts => ends (part.ends places) parts

/-- The places behind some branch that is not empty. -/
def branchEnds (places : List Rest) : List (List Part) → List Rest
  | [] => []
  | branch :: branches =>
    union (if isVoid branch then [] else ends places branch) (branchEnds places branches)

end

/-! ### Patterns -/

/-- Whether a part is a certain character. -/
def Part.isChar (char : Char) : Part → Bool
  | .literal other => char == other
  | _ => false

/-- Whether a part is a character. -/
def Part.isLiteral : Part → Bool
  | .literal _ => true
  | _ => false

/-- Whether a part is any bytes. -/
def Part.isMany : Part → Bool
  | .many => true
  | _ => false

/-- Whether a part is leading directories. -/
def Part.isLeading : Part → Bool
  | .leading => true
  | _ => false

/-- Whether a pattern that ends in a dot is decided by the name of the file: by the whole name,
by what follows the last dot of the name, or by a dot at its end and more than a plain ending
of the path. -/
def needsName (parts : List Part) : Bool :=
  let anywhere := parts.head?.any Part.isLeading
  let inner := if anywhere then parts.tail else parts
  let ending := if inner.head?.any Part.isMany then inner.tail else inner
  let isName := anywhere && inner.all fun part => part.isLiteral && !part.isChar '/'
  let isExtension := inner.head?.any Part.isMany && ending.length == 1
  let isPlain := ending.all Part.isLiteral
  (parts.getLast?.any (·.isChar '.')) && (isName || isExtension || !isPlain)

/-- Whether a path ends in the component for the directory above, so that it names no file. -/
def endsAbove (path : Path) : Bool :=
  let up := encode '.' ++ encode '.'
  path == up || (slash ++ up).isSuffixOf path

/-- Whether a pattern matches a path. Any directories alone match everything. -/
def isMatch (parts : List Part) (path : Path) : Bool :=
  match parts with
  | [.leading] => true
  | parts => (ends [path] parts).any (·.isEmpty) && !(endsAbove path && needsName parts)

/-! ### Several patterns -/

/-- The parts of each pattern, or the first pattern that cannot be read. -/
def parseAll (patterns : List String) : Except Invalid (List (List Part)) :=
  patterns.mapM parse

/-- Whether some pattern matches a path. -/
def isMatchAny (patterns : List (List Part)) (path : Path) : Bool :=
  patterns.any (isMatch · path)

end CodeAtlas.Glob
