import ShapeTypes.Schema.ItemType

/-!
# Aliases

A property shape that refers to a node shape has the type of that shape: its own slot is an alias of the
other one.

* `follow` — the end of a chain of aliases, as far as they are registered;
* `chainEnd` — the same for a complete list of aliases, refusing a chain that comes back to itself;
* `Alias.replacements` — the slot that each alias stands for at last.
-/

namespace ShapeTypes

open Rdf

/-- A slot that stands for another one, and the shape that made it so. -/
structure Alias where
  slot : Slot
  target : Slot
  shape : Node
  deriving DecidableEq

def aliasOf? (aliases : List Alias) (slot : Slot) : Option Alias := aliases.find? fun a => a.slot = slot

/-- Goes along a chain of aliases for at most `steps`. -/
def followFor (aliases : List Alias) : Nat → Slot → Slot
  | 0, slot => slot
  | steps + 1, slot =>
    match aliasOf? aliases slot with
    | some a => followFor aliases steps a.target
    | none => slot

/-- The end of the chain of aliases that begins at a slot. -/
def follow (aliases : List Alias) (slot : Slot) : Slot := followFor aliases (aliases.length + 1) slot

/-- The end of a chain that has passed `seen`, or the shapes of a chain that comes back to itself. Each step
passes another alias, so `fuel` beyond their number is never used up. -/
def chainEnd (aliases : List Alias) : Nat → List Slot → List Node → Slot → Except (List Node) Slot
  | 0, _, shapes, _ => .error shapes
  | fuel + 1, seen, shapes, slot =>
    match aliasOf? aliases slot with
    | none => .ok slot
    | some a =>
      if slot ∈ seen then .error shapes
      else chainEnd aliases fuel (slot :: seen) (shapes ++ [a.shape]) a.target

/-- The slot that an alias stands for at last. -/
def Alias.resolve (aliases : List Alias) (a : Alias) : Except (List Node) Slot :=
  chainEnd aliases (aliases.length + 1) [a.slot] [a.shape] a.target

/-- Every alias slot with the slot that it stands for at last. -/
def Alias.replacements (aliases : List Alias) : Except (List Node) (List (Slot × Slot)) :=
  aliases.mapM fun a => do return (a.slot, ← a.resolve aliases)

/-- The replacement of a slot. -/
def replaceSlot (replacements : List (Slot × Slot)) (slot : Slot) : Slot := (replacements.lookup slot).getD slot

end ShapeTypes
