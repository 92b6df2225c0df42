/-
The three ways to write a scalar: plain, quoted, and as a block of indented lines. All three
fold line breaks. A single line feed between two words is read as a space, a longer run of
breaks loses its first line feed, and the line and paragraph separators are always kept. A
quoted scalar can also escape a break, which then leaves nothing behind.
-/
import CodeAtlas.Yaml.Cursor

namespace CodeAtlas.Yaml

/-- How a scalar was written. -/
inductive Style where
  | plain
  | singleQuoted
  | doubleQuoted
  | literal
  | folded
deriving DecidableEq, Repr

/-! ### Gaps between words -/

/-- The blanks and line breaks between two words of a scalar. Before the first break the
blanks are kept; after it they are dropped and the breaks are kept. -/
structure Gap where
  blanks : List Char
  broken : Bool
  leading : List Char
  trailing : List Char

namespace Gap

/-- Nothing between two words. -/
def empty : Gap := ⟨[], false, [], []⟩

/-- The gap after an escaped line break: the break itself is not kept. -/
def escapedBreak : Gap := ⟨[], true, [], []⟩

/-- One more blank. -/
def addBlank (gap : Gap) (char : Char) : Gap :=
  if gap.broken then gap else { gap with blanks := gap.blanks ++ [char] }

/-- One more line break. -/
def addBreak (gap : Gap) (char : Char) : Gap :=
  if gap.broken then { gap with trailing := gap.trailing ++ [char] }
  else ⟨[], true, [char], []⟩

/-- What a gap is read as. -/
def fold (gap : Gap) : List Char :=
  if !gap.broken then gap.blanks
  else if gap.leading == ['\n'] then
    if gap.trailing.isEmpty then [' '] else gap.trailing
  else gap.leading ++ gap.trailing

end Gap

namespace Cursor

/-- Reads a gap to its end. A tab at the start of a line is an error unless `tabFits` allows
its column; the result is then the place of the tab. -/
def gapLoop (tabFits : Nat → Bool) : Nat → Gap → Cursor → Except Mark (Gap × Cursor)
  | 0, gap, cursor => .ok (gap, cursor)
  | fuel + 1, gap, cursor =>
    match cursor.next? with
    | none => .ok (gap, cursor)
    | some char =>
      if isBlank char then
        if gap.broken && char == '\t' && !tabFits cursor.mark.column then .error cursor.mark
        else gapLoop tabFits fuel (gap.addBlank char) (cursor.skip 1)
      else
        match cursor.takeBreak? with
        | some (lineBreak, next) => gapLoop tabFits fuel (gap.addBreak lineBreak) next
        | none => .ok (gap, cursor)

/-- Reads a gap that continues a given one. -/
def takeGap (cursor : Cursor) (tabFits : Nat → Bool) (gap : Gap) : Except Mark (Gap × Cursor) :=
  gapLoop tabFits (cursor.rest.length + 1) gap cursor

/-! ### Plain scalars -/

/-- The characters that end a plain scalar inside brackets. -/
def isFlowIndicator (char : Char) : Bool :=
  char == ',' || char == '[' || char == ']' || char == '\x7b' || char == '\x7d'

/-- Reads one word of a plain scalar: up to a gap, a colon before a gap, or, inside brackets,
an indicator. Inside brackets a colon right before an indicator is an error; the result is
then how many characters come before the colon. -/
def plainWord (flow : Bool) : List Char → List Char → Except Nat (List Char × List Char)
  | word, [] => .ok (word.reverse, [])
  | word, char :: rest =>
    if isBlank char || isBreak char then .ok (word.reverse, char :: rest)
    else if flow && char == ':' && rest.head?.any (fun next => isFlowIndicator next || next == '?')
    then .error word.length
    else if char == ':' && rest.head?.all (fun next => isBlank next || isBreak next) then
      .ok (word.reverse, char :: rest)
    else if flow && isFlowIndicator char then .ok (word.reverse, char :: rest)
    else plainWord flow (char :: word) rest

/-- A plain scalar that was read: its text, whether the gap behind it held a line break, and
where its last word ended. -/
structure Plain where
  text : List Char
  stop : Mark
  broken : Bool
  cursor : Cursor

/-- Reads words and the gaps between them. Outside brackets the scalar also ends where a line
starts to the left of `indent`. -/
def plainLoop (flow : Bool) (indent : Int) (began : Mark) :
    Nat → List Char → Gap → Mark → Cursor → Except Fault Plain
  | 0, text, gap, stop, cursor => .ok ⟨text, stop, gap.broken, cursor⟩
  | fuel + 1, text, gap, stop, cursor =>
    if cursor.atDocumentIndicator || cursor.sees '#' then
      .ok ⟨text, stop, gap.broken, cursor⟩
    else
      match plainWord flow [] cursor.rest with
      | .error count =>
        .error (.inside .plainScalar began .colonInFlowScalar (cursor.mark.advance count))
      | .ok (word, rest) =>
        let (text, gap, stop, cursor) :=
          if word.isEmpty then (text, gap, stop, cursor)
          else
            let mark := cursor.mark.advance word.length
            (text ++ gap.fold ++ word, Gap.empty, mark, (⟨rest, mark⟩ : Cursor))
        if cursor.seesAny (fun char => isBlank char || isBreak char) then
          match cursor.takeGap (fun column => indent ≤ column) gap with
          | .error place => .error (.inside .plainScalar began .tabViolatesIndentation place)
          | .ok (gap, cursor) =>
            if !flow && (cursor.mark.column : Int) < indent then
              .ok ⟨text, stop, gap.broken, cursor⟩
            else plainLoop flow indent began fuel text gap stop cursor
        else .ok ⟨text, stop, gap.broken, cursor⟩

/-- Reads a plain scalar. -/
def takePlain (cursor : Cursor) (flow : Bool) (indent : Int) : Except Fault Plain :=
  plainLoop flow indent cursor.mark (cursor.rest.length + 1) [] Gap.empty cursor.mark cursor

/-! ### Quoted scalars -/

/-- What a letter means after a backslash. -/
def escaped? : Char → Option Char
  | '0' => some '\x00'
  | 'a' => some '\x07'
  | 'b' => some '\x08'
  | 't' => some '\t'
  | '\t' => some '\t'
  | 'n' => some '\n'
  | 'v' => some '\x0b'
  | 'f' => some '\x0c'
  | 'r' => some '\r'
  | 'e' => some '\x1b'
  | ' ' => some ' '
  | '"' => some '"'
  | '/' => some '/'
  | '\\' => some '\\'
  | 'N' => some '\u0085'
  | '_' => some '\u00a0'
  | 'L' => some '\u2028'
  | 'P' => some '\u2029'
  | _ => none

/-- How many hexadecimal digits follow a letter after a backslash. -/
def escapeDigits? : Char → Option Nat
  | 'x' => some 2
  | 'u' => some 4
  | 'U' => some 8
  | _ => none

/-- The number that so many hexadecimal digits write, if all of them are there. -/
def hexNumber? : Nat → Nat → List Char → Option Nat
  | value, 0, _ => some value
  | _, _ + 1, [] => none
  | value, count + 1, char :: rest =>
    match hexValue? char with
    | some digit => hexNumber? (value * 16 + digit) count rest
    | none => none

/-- Reads a quoted scalar up to a gap or the closing quote. The flag in the result says
whether an escaped line break ended the run. -/
def quotedRun (single : Bool) (began : Mark) :
    Nat → List Char → Cursor → Except Fault (List Char × Bool × Cursor)
  | 0, run, cursor => .ok (run.reverse, false, cursor)
  | fuel + 1, run, cursor =>
    match cursor.rest with
    | [] => .ok (run.reverse, false, cursor)
    | char :: rest =>
      if isBlank char || isBreak char then .ok (run.reverse, false, cursor)
      else if single && char == '\'' && rest.head? == some '\'' then
        quotedRun single began fuel ('\'' :: run) (cursor.skip 2)
      else if char == (if single then '\'' else '"') then .ok (run.reverse, false, cursor)
      else if !single && char == '\\' then
        match rest.head? with
        | none => .error (.inside .quotedEscape began .unknownEscape cursor.mark)
        | some letter =>
          if isBreak letter then .ok (run.reverse, true, (cursor.skip 1).skipBreak)
          else
            match escaped? letter, escapeDigits? letter with
            | some meaning, _ => quotedRun single began fuel (meaning :: run) (cursor.skip 2)
            | none, some count =>
              let digits := cursor.skip 2
              match hexNumber? 0 count digits.rest with
              | none => .error (.inside .quotedEscape began .missingHexDigit digits.mark)
              | some code =>
                if code.isValidChar then
                  quotedRun single began fuel (Char.ofNat code :: run) (digits.skip count)
                else .error (.inside .quotedEscape began .badEscapeCode digits.mark)
            | none, none => .error (.inside .quotedEscape began .unknownEscape cursor.mark)
      else quotedRun single began fuel (char :: run) (cursor.skip 1)

/-- Reads runs and the gaps between them up to the closing quote. -/
def quotedLoop (single : Bool) (began : Mark) :
    Nat → List Char → Cursor → Except Fault (List Char × Cursor)
  | 0, _, cursor => .error (.inside .quotedScalar began .endOfStreamInScalar cursor.mark)
  | fuel + 1, text, cursor =>
    if cursor.atDocumentIndicator then
      .error (.inside .quotedScalar began .documentIndicatorInScalar cursor.mark)
    else if cursor.atEnd then
      .error (.inside .quotedScalar began .endOfStreamInScalar cursor.mark)
    else
      match quotedRun single began (cursor.rest.length + 1) [] cursor with
      | .error fault => .error fault
      | .ok (run, brokenByEscape, cursor) =>
        let text := text ++ run
        if cursor.sees (if single then '\'' else '"') then .ok (text, cursor.skip 1)
        else
          match cursor.takeGap (fun _ => true)
              (if brokenByEscape then Gap.escapedBreak else Gap.empty) with
          | .error place => .error (.inside .quotedScalar began .endOfStreamInScalar place)
          | .ok (gap, cursor) => quotedLoop single began fuel (text ++ gap.fold) cursor

/-- Reads a quoted scalar, from its opening quote to its closing one. -/
def takeQuoted (cursor : Cursor) (single : Bool) : Except Fault (List Char × Cursor) :=
  quotedLoop single cursor.mark (cursor.rest.length + 1) [] (cursor.skip 1)

/-! ### Block scalars -/

/-- What happens to the line breaks at the end of a block scalar. -/
inductive Chomp where
  | strip
  | clip
  | keep
deriving DecidableEq, Repr

/-- Reads a chomping indicator. -/
def takeChomp? (cursor : Cursor) : Option (Chomp × Cursor) :=
  match cursor.next? with
  | some '+' => some (.keep, cursor.skip 1)
  | some '-' => some (.strip, cursor.skip 1)
  | _ => none

/-- Reads an indentation indicator, which is a digit other than zero. The result is zero if
there is none. -/
def takeIncrement (cursor : Cursor) (began : Mark) : Except Fault (Nat × Cursor) :=
  match cursor.next? with
  | some char =>
    if !isDigit char then .ok (0, cursor)
    else if char == '0' then .error (.inside .blockScalar began .zeroIndentation cursor.mark)
    else .ok (char.toNat - '0'.toNat, cursor.skip 1)
  | none => .ok (0, cursor)

/-- Reads the two indicators of a block scalar in either order. -/
def takeBlockHeader (cursor : Cursor) (began : Mark) : Except Fault (Chomp × Nat × Cursor) :=
  match cursor.takeChomp? with
  | some (chomp, cursor) =>
    match cursor.takeIncrement began with
    | .error fault => .error fault
    | .ok (increment, cursor) => .ok (chomp, increment, cursor)
  | none =>
    match cursor.takeIncrement began with
    | .error fault => .error fault
    | .ok (increment, cursor) =>
      if increment = 0 then .ok (.clip, 0, cursor)
      else
        match cursor.takeChomp? with
        | some (chomp, cursor) => .ok (chomp, increment, cursor)
        | none => .ok (.clip, increment, cursor)

/-- Reads indentation and empty lines. An `indent` of zero means that it is not known yet, and
all spaces are then indentation. The result holds the widest indentation that was seen. -/
def blockBreaks (began : Mark) (indent : Nat) :
    Nat → Nat → List Char → Cursor → Except Fault (Nat × List Char × Cursor)
  | 0, widest, breaks, cursor => .ok (widest, breaks, cursor)
  | fuel + 1, widest, breaks, cursor =>
    let spaces := (cursor.rest.takeWhile (· == ' ')).length
    let cursor :=
      cursor.skip (if indent = 0 then spaces else min spaces (indent - cursor.mark.column))
    let widest := max widest cursor.mark.column
    if (indent = 0 || cursor.mark.column < indent) && cursor.sees '\t' then
      .error (.inside .blockScalar began .tabInIndentation cursor.mark)
    else
      match cursor.takeBreak? with
      | some (lineBreak, next) => blockBreaks began indent fuel widest (breaks ++ [lineBreak]) next
      | none => .ok (widest, breaks, cursor)

/-- The text of a block scalar so far, and the breaks that are still to be folded or kept. -/
structure BlockText where
  text : List Char
  leading : List Char
  trailing : List Char

/-- Reads the lines of a block scalar. A folded scalar joins two lines by a space, unless one
of them starts with a blank. -/
def blockLines (literal : Bool) (indent : Nat) (began : Mark) :
    Nat → BlockText → Bool → Cursor → Except Fault (BlockText × Cursor)
  | 0, block, _, cursor => .ok (block, cursor)
  | fuel + 1, block, afterBlank, cursor =>
    if cursor.mark.column == indent && !cursor.atEnd then
      let startsBlank := cursor.seesAny isBlank
      let joined :=
        if !literal && block.leading == ['\n'] && !afterBlank && !startsBlank then
          if block.trailing.isEmpty then block.text ++ [' '] else block.text
        else block.text ++ block.leading
      let (line, cursor) := cursor.takeRun (fun char => !isBreak char)
      let (leading, cursor) :=
        match cursor.takeBreak? with
        | some (lineBreak, next) => ([lineBreak], next)
        | none => ([], cursor)
      match blockBreaks began indent (cursor.rest.length + 1) 0 [] cursor with
      | .error fault => .error fault
      | .ok (_, trailing, cursor) =>
        blockLines literal indent began fuel
          ⟨joined ++ block.trailing ++ line, leading, trailing⟩ startsBlank cursor
    else .ok (block, cursor)

/-- Reads a block scalar inside a collection whose indentation is `parent`. -/
def takeBlock (cursor : Cursor) (literal : Bool) (parent : Int) :
    Except Fault (List Char × Cursor) :=
  let began := cursor.mark
  match (cursor.skip 1).takeBlockHeader began with
  | .error fault => .error fault
  | .ok (chomp, increment, cursor) =>
    let cursor := cursor.skipComment
    if !cursor.atLineEnd then
      .error (.inside .blockScalar began .missingCommentOrBreak cursor.mark)
    else
      let cursor := cursor.skipBreak
      let given := if increment = 0 then 0 else (max parent 0).toNat + increment
      match blockBreaks began given (cursor.rest.length + 1) 0 [] cursor with
      | .error fault => .error fault
      | .ok (widest, breaks, cursor) =>
        let indent := if given = 0 then max widest (max (parent + 1).toNat 1) else given
        match blockLines literal indent began (cursor.rest.length + 1) ⟨[], [], breaks⟩ false
            cursor with
        | .error fault => .error fault
        | .ok (block, cursor) =>
          let tail :=
            match chomp with
            | .strip => []
            | .clip => block.leading
            | .keep => block.leading ++ block.trailing
          .ok (block.text ++ tail, cursor)

end Cursor

end CodeAtlas.Yaml
