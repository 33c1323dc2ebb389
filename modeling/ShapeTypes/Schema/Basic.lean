import ShapeTypes.Schema.Description

/-!
# Schemas

* `Schema` — the slots of the types, and for each shape, in input order, its name and its type with
  cardinality; names are resolved against the curies recorded for all of them;
* `Schema.use?` — the type of a shape;
* `Schema.describe` — a use in a few words;
* `Schema.compact` — a schema with some of its slots.
-/

namespace ShapeTypes

open Rdf

/-- What a schema says of a shape. -/
structure Entry where
  shape : Node
  name : Name
  use : TypeUse
  deriving DecidableEq

/-- Item types in slots, the entries of the shapes, and the curies that names depend on. -/
structure Schema where
  slots : List Content
  entries : List Entry
  record : CurieRecord

namespace Schema

def entry? (s : Schema) (shape : Node) : Option Entry := s.entries.find? fun e => e.shape = shape

/-- The type of a shape with its cardinality. -/
def use? (s : Schema) (shape : Node) : Option TypeUse := (s.entry? shape).map (·.use)

/-- The shapes, in input order. -/
def shapes (s : Schema) : List Node := s.entries.map (·.shape)

/-- What a slot of the schema holds. -/
def content? (s : Schema) (slot : Slot) : Option Content := s.slots[slot]?

/-- The slots that the entries use. -/
def roots (s : Schema) : List Slot := s.entries.map (·.use.item)

/-- A type in a few words. No list of an inferred schema contains itself. -/
def describeSlot (s : Schema) (slot : Slot) : String := (Arena.describe? s.slots s.record slot).getD ""

/-- A use in a few words, such as `Set(min = 0)<Literal <datatype>>`. -/
def describe (s : Schema) (u : TypeUse) : String :=
  u.cardinality.text ++ "<" ++ s.describeSlot u.item ++ ">"

/-- The object types with their names, in slot order. -/
def objects (s : Schema) : List (Name × ObjectBody) :=
  s.slots.filterMap fun c =>
    match c with
    | .type { name, body := .object o, .. } => some (name, o)
    | _ => none

/-- The schema with the given slots only, renumbered in their order. -/
def compact (s : Schema) (keep : List Slot) : Schema where
  slots := Arena.compact s.slots keep
  entries := s.entries.map fun e => { e with use := e.use.mapSlot (Arena.renumber keep) }
  record := s.record

end Schema

end ShapeTypes
