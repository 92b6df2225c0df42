/-
The first document of a YAML text, as the list of its events. References to anchors are
resolved by number: an anchor gets the number of different names seen before it, and a
reference leads to the node that was last given the number of its name. What stops a document
short is kept beside the events that came before it, so that a reader who finds something
wrong with those can say so first.
-/
import CodeAtlas.Yaml.Event

namespace CodeAtlas.Yaml

/-- One event of a document. -/
inductive Item where
  /-- All there is in a text that holds no document. -/
  | nothing
  | reference (number : Nat)
  | scalar (tag : Option (List Char)) (text : List Char) (style : Style)
  | sequenceStart
  | sequenceEnd
  | mappingStart
  | mappingEnd
deriving DecidableEq, Repr

/-- Items with the places where they start. -/
abbrev Items := List (Item × Mark)

/-- Why a document stops short. -/
inductive Document.Break where
  | malformed (fault : Fault)
  | unknownAnchor (place : Mark)
deriving DecidableEq, Repr

/-- The words for what stops a document short. -/
def Document.Break.message : Document.Break → String
  | .malformed fault => fault.message
  | .unknownAnchor place =>
    "unknown anchor" ++ (if place.isOrigin then "" else s!" at {place.describe}")

/-- The events of a document. -/
structure Document where
  items : Items
  /-- For the number of an anchor, how many items come before its node; the latest first. -/
  targets : List (Nat × Nat)
  /-- What stopped the document short. -/
  broken : Option Document.Break
  /-- Whether something other than the end of the text follows. -/
  more : Bool

namespace Document

/-- The items from the node on that a reference leads to. -/
def follow (document : Document) (number : Nat) : Items :=
  document.items.drop ((document.targets.lookup number).getD document.items.length)

/-- The items from a node on, behind the reference if there is one. -/
def resolve (document : Document) : Items → Items
  | (.reference number, _) :: _ => document.follow number
  | items => items

/-! ### Loading -/

/-- A document while its events are collected, the last ones first. -/
structure Loading where
  grammar : Grammar
  items : Items
  /-- The number of every name, the latest first. -/
  anchors : List (List Char × Nat)
  targets : List (Nat × Nat)

namespace Loading

/-- How many different names there are. -/
def nameCount (loading : Loading) : Nat := (loading.anchors.map (·.1)).eraseDups.length

/-- Notes the anchor of a node that comes next. -/
def anchor (loading : Loading) : Option (List Char) → Loading
  | none => loading
  | some name =>
    { loading with
      anchors := (name, loading.nameCount) :: loading.anchors
      targets := (loading.nameCount, loading.items.length) :: loading.targets }

/-- Adds an item. -/
def push (loading : Loading) (item : Item) (mark : Mark) : Loading :=
  { loading with items := (item, mark) :: loading.items }

/-- The document that was collected. -/
def finish (loading : Loading) (broken : Option Break) (more : Bool) : Document :=
  ⟨loading.items.reverse, loading.targets, broken, more⟩

/-- Whether something other than the end of the text follows. -/
def hasMore (grammar : Grammar) : Bool :=
  match grammar.next with
  | .ok (⟨.streamEnd, _⟩, _) => false
  | _ => true

/-- Collects events up to the end of the document. -/
def run : Nat → Loading → Document
  | 0, loading => loading.finish none false
  | fuel + 1, loading =>
    match loading.grammar.next with
    | .error fault => loading.finish (some (.malformed fault)) false
    | .ok (event, grammar) =>
      let loading := { loading with grammar := grammar }
      match event.kind with
      | .streamStart | .documentStart => run fuel loading
      | .streamEnd => (loading.push .nothing event.mark).finish none false
      | .documentEnd => loading.finish none (hasMore grammar)
      | .reference name =>
        match loading.anchors.lookup name with
        | some number => run fuel (loading.push (.reference number) event.mark)
        | none => loading.finish (some (.unknownAnchor event.mark)) false
      | .scalar properties text style =>
        run fuel ((loading.anchor properties.anchor).push
          (.scalar properties.tag text style) event.mark)
      | .sequenceStart properties =>
        run fuel ((loading.anchor properties.anchor).push .sequenceStart event.mark)
      | .sequenceEnd => run fuel (loading.push .sequenceEnd event.mark)
      | .mappingStart properties =>
        run fuel ((loading.anchor properties.anchor).push .mappingStart event.mark)
      | .mappingEnd => run fuel (loading.push .mappingEnd event.mark)

end Loading

/-- The first document of a text. -/
def ofText (text : List Char) : Document :=
  match Cursor.ofText text with
  | .error fault => ⟨[], [], some (.malformed fault), false⟩
  | .ok cursor => Loading.run (8 * text.length + 16) ⟨.ofCursor cursor, [], [], []⟩

end Document

end CodeAtlas.Yaml
