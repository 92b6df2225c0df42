/-
Settings from YAML. The document is a mapping from names to values; names that are not those
of settings are passed over with their values, and a name may come only once. A document of
nothing, or of one empty value, leaves everything at its default.

What is wrong with a value is reported in the order of the text: a value that does not fit
comes before a fault of the notation further on.
-/
import CodeAtlas.Settings.Basic
import CodeAtlas.Text.Blank
import CodeAtlas.Text.Quoted
import CodeAtlas.Number.Shortest
import CodeAtlas.Yaml.Document
import CodeAtlas.Yaml.Datum

namespace CodeAtlas.Settings

open CodeAtlas.Yaml CodeAtlas.Number

/-! ### What can be wrong -/

/-- Where in the settings a value stands. -/
inductive Place where
  | root
  /-- The value of a setting; its name is unknown if a reference stood for it. -/
  | value (name : Option String)
  | entry (name : Option String) (index : Nat)
deriving DecidableEq, Repr

/-- What was wanted. -/
inductive Wanted where
  | settings
  | name
  | list
  | text
  | count
  | size
  | tagged (kind : Datum.Kind)
deriving DecidableEq, Repr

/-- What was found instead. -/
inductive Found where
  | sequence
  | mapping
  | datum (datum : Datum)
deriving DecidableEq, Repr

/-- What is wrong with a document that is well formed. -/
inductive Complaint where
  | wrongType (found : Found) (wanted : Wanted)
  | wrongValue (text : List Char) (wanted : Wanted)
  | duplicate (field : Field)
deriving DecidableEq, Repr

/-- Why there are no settings. -/
inductive Rejection where
  /-- The document stops short. -/
  | ended (broken : Option Document.Break)
  | unfit (complaint : Complaint) (place : Place) (mark : Mark)
  | severalDocuments
deriving DecidableEq, Repr

/-! ### Wording -/

/-- The path of a value. -/
def Place.describe : Place → String
  | .root => "."
  | .value name => name.getD "?"
  | .entry name index => name.getD "?" ++ s!"[{index}]"

/-- The name of what was wanted. -/
def Wanted.describe : Wanted → String
  | .settings => "struct AnalyzerConfig"
  | .name => "field identifier"
  | .list => "a sequence"
  | .text => "a string"
  | .count => "usize"
  | .size => "u64"
  | .tagged kind => kind.describe

/-- Numbers are written in full, however large or small. -/
def numberStyle : Binary64.NumberStyle := ⟨fun _ => true, 1⟩

/-- The name of what was found. Integers that take more than 64 bits say so. -/
def Found.describe : Found → String
  | .sequence => "sequence"
  | .mapping => "map"
  | .datum .null => "unit value"
  | .datum (.boolean value) => s!"boolean \x60{value}\x60"
  | .datum (.integer value) =>
    s!"integer \x60{value}\x60" ++
      (if (UInt64.size : Int) ≤ value then " as u128"
      else if value < -(Nat.pow 2 63 : Int) then " as i128" else "")
  | .datum (.number value) =>
    s!"floating point \x60{String.ofList (value.write numberStyle)}\x60"
  | .datum (.text value) => s!"string {String.ofList (Text.quote value)}"

/-- The words for a complaint. -/
def Complaint.describe : Complaint → String
  | .wrongType found wanted => s!"invalid type: {found.describe}, expected {wanted.describe}"
  | .wrongValue text wanted =>
    s!"invalid value: string {String.ofList (Text.quote text)}, expected {wanted.describe}"
  | .duplicate field => s!"duplicate field \x60{field.name}\x60"

/-- The words for a rejection. The path is left out at the root, the place at the origin. -/
def Rejection.message : Rejection → String
  | .ended (some broken) => broken.message
  | .ended none => "EOF while parsing a value"
  | .unfit complaint place mark =>
    (if place = .root then "" else s!"{place.describe}: ") ++ complaint.describe ++
      (if mark.isOrigin then "" else s!" at {mark.describe}")
  | .severalDocuments =>
    "deserializing from YAML containing more than one document is not supported"

/-! ### Values -/

/-- A value that is not what was wanted. -/
def reject (wanted : Wanted) (place : Place) (item : Item) (mark : Mark) : Rejection :=
  match item with
  | .sequenceStart => .unfit (.wrongType .sequence wanted) place mark
  | .mappingStart => .unfit (.wrongType .mapping wanted) place mark
  | .scalar tag text style =>
    match Datum.ofScalar tag text style with
    | .ok datum => .unfit (.wrongType (.datum datum) wanted) place mark
    | .error kind => .unfit (.wrongValue text (.tagged kind)) place mark
  | _ => .ended none

/-- Whether an item stands for no value at all. -/
def isAbsent : Item → Bool
  | .nothing => true
  | .scalar _ text style => text.isEmpty && style == .plain
  | _ => false

/-- Any scalar is a text. -/
def readText (document : Document) (wanted : Wanted) (place : Place) (items : Items) :
    Except Rejection (List Char) :=
  match document.resolve items with
  | (.scalar _ text _, _) :: _ => .ok text
  | (item, mark) :: _ => .error (reject wanted place item mark)
  | [] => .error (.ended document.broken)

/-- The texts up to the end of a sequence. -/
def readTexts (document : Document) (name : Option String) :
    Nat → Items → Except Rejection (List String)
  | _, [] => .error (.ended document.broken)
  | _, (.sequenceEnd, _) :: _ => .ok []
  | index, item :: rest => do
    let text ← readText document .text (.entry name index) (item :: rest)
    return String.ofList text :: (← readTexts document name (index + 1) rest)

/-- A sequence of texts. No value is the empty sequence. -/
def readList (document : Document) (name : Option String) (items : Items) :
    Except Rejection (List String) :=
  match document.resolve items with
  | (.sequenceStart, _) :: rest => readTexts document name 0 rest
  | (item, mark) :: _ =>
    if isAbsent item then .ok [] else .error (reject .list (.value name) item mark)
  | [] => .error (.ended document.broken)

/-- A number that fits into 64 bits, or null. A tag that asks for null on something else is a
complaint about the whole mapping, which starts at `root`. -/
def readNumber (document : Document) (root : Mark) (wanted : Wanted) (name : Option String)
    (items : Items) : Except Rejection (Option Nat) :=
  match document.resolve items with
  | (.scalar tag text style, mark) :: _ =>
    let kind := tag.bind Datum.Kind.ofTag?
    if style = .plain ∧ tag = none ∧ (text.isEmpty ∨ Datum.isNull text) then .ok none
    else if style = .plain ∧ kind = some .null then
      if Datum.isNull text then .ok none
      else .error (.unfit (.wrongValue text (.tagged .null)) .root root)
    else
      let readable := style = .plain ∨ (style = .literal ∧ kind = some .integer)
      match if readable then Datum.unsigned? UInt64.size text else none with
      | some value => .ok (some value)
      | none => .error (reject wanted (.value name) (.scalar tag text style) mark)
  | (.nothing, _) :: _ => .ok none
  | (item, mark) :: _ => .error (reject wanted (.value name) item mark)
  | [] => .error (.ended document.broken)

/-! ### The mapping -/

/-- The items behind a node, if the node is complete. The first argument counts the
collections that are open. -/
def skipNode? : Nat → Items → Option Items
  | _, [] => none
  | opened, (item, _) :: rest =>
    match item with
    | .sequenceStart | .mappingStart => skipNode? (opened + 1) rest
    | .sequenceEnd | .mappingEnd => if opened ≤ 1 then some rest else skipNode? (opened - 1) rest
    | _ => if opened = 0 then some rest else skipNode? opened rest

theorem length_skipNode? {opened : Nat} {items rest : Items}
    (skipped : skipNode? opened items = some rest) : rest.length < items.length := by
  induction items generalizing opened with
  | nil => simp [skipNode?] at skipped
  | cons head tail inductionHypothesis =>
    have shorter {opened : Nat} (deeper : skipNode? opened tail = some rest) :
        rest.length < (head :: tail).length :=
      Nat.lt_succ_of_lt (inductionHypothesis deeper)
    have atTail (found : some tail = some rest) : rest.length < (head :: tail).length := by
      cases found
      exact Nat.lt_succ_self _
    unfold skipNode? at skipped
    grind

/-- The settings that were read so far. -/
structure Draft where
  settings : Settings := {}
  seen : List Field := []

/-- Reads the value of a setting. -/
def Draft.read (draft : Draft) (document : Document) (root : Mark) (field : Field)
    (name : Option String) (items : Items) : Except Rejection Draft := do
  let settings := draft.settings
  let settings ←
    match field with
    | .ignoredNames =>
      pure { settings with ignoredNames := ← readList document name items }
    | .excludedPaths =>
      pure { settings with excludedPaths := ← readList document name items }
    | .maxFiles =>
      pure { settings with maxFiles := ← readNumber document root .count name items }
    | .maxFileSize =>
      pure { settings with maxFileSize := ← readNumber document root .size name items }
    | .threads =>
      pure { settings with threads := ← readNumber document root .count name items }
  return ⟨settings, field :: draft.seen⟩

/-- Reads the names and values up to the end of the mapping that starts at `root`. -/
def readFields (document : Document) (root : Mark) (draft : Draft) (items : Items) :
    Except Rejection Settings :=
  match items with
  | [] => .error (.ended document.broken)
  | (.mappingEnd, _) :: _ => .ok draft.settings
  | (item, mark) :: values =>
    match readText document .name .root ((item, mark) :: values) with
    | .error rejection => .error rejection
    | .ok text =>
      let name :=
        match item with
        | .scalar .. => some (String.ofList text)
        | _ => none
      let drafted : Except Rejection Draft :=
        match Field.ofName? (String.ofList text) with
        | none => .ok draft
        | some field =>
          if draft.seen.contains field then .error (.unfit (.duplicate field) .root root)
          else draft.read document root field name values
      match drafted with
      | .error rejection => .error rejection
      | .ok draft =>
        match skipped : skipNode? 0 values with
        | none => .error (.ended document.broken)
        | some rest =>
          have := length_skipNode? skipped
          readFields document root draft rest
termination_by items.length
decreasing_by simp only [List.length_cons]; omega

/-- The settings of a document, which may still stop short behind them. -/
def ofDocument (document : Document) : Except Rejection Settings :=
  match document.items with
  | (.mappingStart, mark) :: items => readFields document mark {} items
  | (item, mark) :: _ =>
    if isAbsent item then .ok {} else .error (reject .settings .root item mark)
  | [] => .error (.ended document.broken)

/-- The settings of a text. A text of blanks leaves everything at its default. -/
def ofText (text : List Char) : Except Rejection Settings :=
  if Text.isBlankText text then .ok {}
  else
    let document := Document.ofText text
    match ofDocument document with
    | .error rejection => .error rejection
    | .ok settings =>
      if document.broken.isSome then .error (.ended document.broken)
      else if document.more then .error .severalDocuments
      else .ok settings

end CodeAtlas.Settings
