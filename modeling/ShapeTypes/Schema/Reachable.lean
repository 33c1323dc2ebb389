import ShapeTypes.Schema.ItemType

/-!
# Reachability between slots

* `reachFrom` — a worklist search over a successor function;
* `Arena.successors` — the slots that a slot refers to, within the arena;
* `Arena.reachable` — the slots that can be reached from some roots, in ascending order;
* `Arena.compact` — the arena with the given slots only, renumbered in their order.
-/

namespace ShapeTypes

/-- The slots of a schema while it is made. -/
abbrev Arena := List Content

/-- Adds to `seen` what is reached from `todo`, which `seen` holds already; one step for each of `fuel`. -/
def reachFrom (next : Nat → List Nat) : Nat → List Nat → List Nat → List Nat
  | 0, _, seen => seen
  | _ + 1, [], seen => seen
  | fuel + 1, x :: todo, seen =>
    let fresh := (next x).eraseDups.filter fun y => !seen.contains y
    reachFrom next fuel (fresh ++ todo) (fresh ++ seen)

/-- The numbers below `n` reached from `roots` in any number of steps, none included. -/
def reachedFrom (next : Nat → List Nat) (n : Nat) (roots : List Nat) : List Nat :=
  let start := roots.eraseDups
  reachFrom next n start start

namespace Arena

/-- The slots that a slot refers to, within the arena. -/
def successors (a : Arena) (slot : Slot) : List Slot :=
  match a[slot]? with
  | some c => c.children.filter (· < a.length)
  | none => []

/-- The slots reached from the roots, in ascending order. -/
def reachable (a : Arena) (roots : List Slot) : List Slot :=
  let seen := reachedFrom a.successors a.length (roots.filter (· < a.length))
  (List.range a.length).filter seen.contains

/-- The place of a slot among the kept ones; a slot that is not kept stays as it is. -/
def renumber (keep : List Slot) (slot : Slot) : Slot := (keep.idxOf? slot).getD slot

/-- The kept slots in their order, with every reference renumbered. -/
def compact (a : Arena) (keep : List Slot) : Arena :=
  keep.filterMap fun slot => (a[slot]?).map (·.mapSlots (renumber keep))

end Arena

end ShapeTypes
