import ShapeTypes.Schema.Reachable

/-!
# Slots in a few words

* `Content.words` — what a slot holds, other than a list;
* `Arena.describe?` — the same with lists followed to their items, which does not end for a list that contains itself.
-/

namespace ShapeTypes

open Rdf

namespace Content

def item? : Content → Option Slot
  | .type { body := .list item, .. } => some item
  | _ => none

/-- In a few words what a slot holds, other than a list. -/
def words (record : CurieRecord) : Content → String
  | .placeholder shape => "Placeholder(" ++ shape.text ++ ")"
  | .type t =>
    match t.body with
    | .literal datatype _ _ _ => "Literal " ++ datatype.text
    | body => body.kind ++ " " ++ t.name.resolved record

end Content

namespace Arena

/-- A slot in a few words, if no more than so many slots have to be looked at. -/
def describeFor? (a : Arena) (record : CurieRecord) : Nat → Slot → Option String
  | 0, _ => none
  | fuel + 1, slot =>
    match a[slot]? with
    | none => some ("<missing " ++ toString slot ++ ">")
    | some c =>
      match c.item? with
      | none => some (c.words record)
      | some item => (a.describeFor? record fuel item).map fun text => "List<" ++ text ++ ">"

/-- A slot in a few words. If lists go on for longer than there are slots, they go on without end. -/
def describe? (a : Arena) (record : CurieRecord) (slot : Slot) : Option String :=
  a.describeFor? record (a.length + 1) slot

end Arena

end ShapeTypes
