/-
Patterns for paths. A pattern is a list of parts; the part for a choice between braces holds
patterns again. This file reads the notation: `?` and `*`, sets in square brackets, choices in
braces, two stars for any directories, and a backslash before a character that stands for
itself.
-/

namespace CodeAtlas.Glob

/-! ### Patterns -/

/-- A part of a pattern. -/
inductive Part where
  | literal (char : Char)
  /-- Any one byte. -/
  | one
  /-- Any bytes. -/
  | many
  /-- Any directories, or none, at the start. -/
  | leading
  /-- Anything below, at the end. -/
  | underneath
  /-- Any directories, or none, in between. -/
  | between
  | set (negated : Bool) (ranges : List (Char × Char))
  | choice (branches : List (List Part))
deriving Repr

/-- What is wrong with a pattern. -/
inductive Flaw where
  | unclosedSet
  | invalidRange (first last : Char)
  | unopenedChoice
  | unclosedChoice
  | danglingEscape
deriving DecidableEq, Repr

/-- The words for what is wrong. -/
def Flaw.describe : Flaw → String
  | .unclosedSet => "unclosed character class; missing ']'"
  | .invalidRange first last => s!"invalid range; '{first}' > '{last}'"
  | .unopenedChoice =>
    "unopened alternate group; missing '\x7b' (maybe escape '\x7d' with '[\x7d]'?)"
  | .unclosedChoice =>
    "unclosed alternate group; missing '\x7d' (maybe escape '\x7b' with '[\x7b]'?)"
  | .danglingEscape => "dangling '\\'"

/-- A pattern that cannot be read. -/
structure Invalid where
  pattern : String
  flaw : Flaw
deriving DecidableEq, Repr

/-- The words for a pattern that cannot be read. -/
def Invalid.message (invalid : Invalid) : String :=
  s!"error parsing glob '{invalid.pattern}': {invalid.flaw.describe}"

/-! ### Sets -/

/-- A set while its members are read. -/
structure Members where
  /-- The ranges so far, the last one first. -/
  ranges : List (Char × Char) := []
  /-- Whether a dash waits for the end of a range. -/
  pending : Bool := false

namespace Members

/-- Adds a character, as the end of the last range if a dash waits for one. -/
def add (members : Members) (char : Char) : Except Flaw Members :=
  match members.pending, members.ranges with
  | true, (first, _) :: rest =>
    if char < first then .error (.invalidRange first char) else .ok ⟨(first, char) :: rest, false⟩
  | _, ranges => .ok ⟨(char, char) :: ranges, false⟩

/-- Adds a dash, which waits for the end of a range unless it is that end itself. -/
def addDash (members : Members) : Except Flaw Members :=
  if members.pending then members.add '-' else .ok { members with pending := true }

/-- All ranges in order. A dash that still waits stands for itself. -/
def finish (members : Members) : List (Char × Char) :=
  ((if members.pending then [('-', '-')] else []) ++ members.ranges).reverse

/-- The members behind the first, and how many characters they take with the bracket. -/
def takeRest (members : Members) : List Char → Except Flaw (List (Char × Char) × Nat)
  | [] => .error .unclosedSet
  | ']' :: _ => .ok (members.finish, 1)
  | char :: rest => do
    let members ← if char = '-' then members.addDash else members.add char
    let (ranges, count) ← takeRest members rest
    return (ranges, count + 1)

end Members

/-- A set behind its opening bracket, and how many characters it takes. The first member may
be a bracket or a dash. -/
def takeSet (input : List Char) : Except Flaw (Part × Nat) :=
  let (negated, input) :=
    match input with
    | '!' :: rest | '^' :: rest => (true, rest)
    | rest => (false, rest)
  match input with
  | [] => .error .unclosedSet
  | first :: rest => do
    let (ranges, count) ← Members.takeRest ⟨[(first, first)], false⟩ rest
    return (.set negated ranges, count + (if negated then 2 else 1))

/-! ### The notation -/

/-- The branches of a choice that is being read, or the whole pattern. Branches and parts have
the last one first. -/
structure Frame where
  branches : List (List Part) := []
  parts : List Part := []

/-- The choice being read, and those around it. -/
structure Reading where
  frame : Frame := {}
  outer : List Frame := []

namespace Reading

/-- Adds a part. -/
def push (reading : Reading) (part : Part) : Reading :=
  { reading with frame := { reading.frame with parts := part :: reading.frame.parts } }

/-- Puts a part in the place of the last one. -/
def replaceLast (reading : Reading) (part : Part) : Reading :=
  { reading with frame := { reading.frame with parts := part :: reading.frame.parts.tail } }

/-- Whether a choice is open. -/
def inChoice (reading : Reading) : Bool := !reading.outer.isEmpty

/-- Opens a choice. -/
def openChoice (reading : Reading) : Reading := ⟨{}, reading.frame :: reading.outer⟩

/-- Starts the next branch of a choice. Outside of choices a comma stands for itself. -/
def comma (reading : Reading) : Reading :=
  if reading.inChoice then
    { reading with
      frame := ⟨reading.frame.parts.reverse :: reading.frame.branches, []⟩ }
  else reading.push (.literal ',')

/-- Closes a choice. -/
def closeChoice (reading : Reading) : Except Flaw Reading :=
  match reading.outer with
  | [] => .error .unopenedChoice
  | frame :: outer =>
    let branches := (reading.frame.parts.reverse :: reading.frame.branches).reverse
    .ok ⟨{ frame with parts := .choice branches :: frame.parts }, outer⟩

/-- Two stars that mean no more than one. -/
def twoStars (reading : Reading) : Reading := (reading.push .many).push .many

/-- Two stars behind a slash, or behind what separates branches, take the place of the part
before them, unless that already stands for any directories. -/
def deepStars (reading : Reading) (part : Part) : Reading :=
  match reading.frame.parts with
  | .leading :: _ | .underneath :: _ => reading
  | _ => reading.replaceLast part

/-- Whether two stars behind the given character can stand for directories. -/
def separates (reading : Reading) (before : Option Char) : Bool :=
  before == some '/' || (reading.inChoice && (before == some ',' || before == some '\x7b'))

end Reading

/-- What two stars mean before the rest of a pattern, and how many characters of the rest
belong to them. Where a pattern or a branch starts they stand for leading directories if a
slash or nothing follows. -/
def takeStars (before : Option Char) (reading : Reading) (rest : List Char) : Reading × Nat :=
  if reading.frame.parts.isEmpty then
    match rest with
    | [] => (reading.push .leading, 0)
    | '/' :: _ => (reading.push .leading, 1)
    | _ => (reading.twoStars, 0)
  else if !reading.separates before then (reading.twoStars, 0)
  else
    match rest with
    | [] => (reading.deepStars .underneath, 0)
    | '/' :: _ => (reading.deepStars .between, 1)
    | char :: _ =>
      if reading.inChoice && (char == ',' || char == '\x7d') then
        (reading.deepStars .underneath, 0)
      else (reading.twoStars, 0)

/-- Reads a pattern. The character before the rest is kept, as it decides what two stars
mean. -/
def read (before : Option Char) (reading : Reading) (input : List Char) :
    Except Flaw (List Part) :=
  match input with
  | [] =>
    if reading.inChoice then .error .unclosedChoice else .ok reading.frame.parts.reverse
  | '?' :: rest => read (some '?') (reading.push .one) rest
  | '*' :: '*' :: rest =>
    let (reading, count) := takeStars before reading rest
    read (some (if count = 0 then '*' else '/')) reading (rest.drop count)
  | '*' :: rest => read (some '*') (reading.push .many) rest
  | '[' :: rest =>
    match takeSet rest with
    | .error flaw => .error flaw
    | .ok (part, count) => read (some ']') (reading.push part) (rest.drop count)
  | '\x7b' :: rest => read (some '\x7b') reading.openChoice rest
  | '\x7d' :: rest =>
    match reading.closeChoice with
    | .error flaw => .error flaw
    | .ok reading => read (some '\x7d') reading rest
  | ',' :: rest => read (some ',') reading.comma rest
  | '\\' :: [] => .error .danglingEscape
  | '\\' :: char :: rest => read (some char) (reading.push (.literal char)) rest
  | char :: rest => read (some char) (reading.push (.literal char)) rest
termination_by input.length
decreasing_by all_goals simp only [List.length_cons, List.length_drop]; omega

/-- The parts of a pattern. -/
def parse (pattern : String) : Except Invalid (List Part) :=
  match read none {} pattern.toList with
  | .error flaw => .error ⟨pattern, flaw⟩
  | .ok parts => .ok parts

end CodeAtlas.Glob
