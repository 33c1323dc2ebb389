import ShapeTypes.Schema.Reachable

/-!
# Structural cycles

A type may reach itself only across an object property. A structural cycle is a set of types that contain
each other through parents, members and list items alone.

* `Arena.structuralSuccessors` — the references that are not properties, the last one first;
* `finishOrder` — the order in which a depth-first search leaves the slots;
* `Arena.structuralCycle?` — of the strongly connected components with a cycle, the one that the search
  completes first.
-/

namespace ShapeTypes

/-- What a depth-first search has entered, and what it has left, the last one first. -/
structure Traversal where
  entered : List Nat := []
  finished : List Nat := []

/-- Searches from each of a list of numbers, depth first. -/
def Traversal.visit (next : Nat → List Nat) : Nat → List Nat → Traversal → Traversal
  | 0, _, t => t
  | _ + 1, [], t => t
  | fuel + 1, x :: rest, t =>
    if x ∈ t.entered then visit next fuel rest t
    else
      let inner := visit next fuel (next x) { t with entered := x :: t.entered }
      visit next fuel rest { inner with finished := x :: inner.finished }

/-- The numbers below `n` in the order a depth-first search leaves them, started from each in turn. -/
def finishOrder (next : Nat → List Nat) (n : Nat) : List Nat :=
  let all := List.range n
  let edges := (all.flatMap next).length
  (Traversal.visit next (n + edges + 1) all {}).finished.reverse

namespace Arena

/-- The slots that a slot refers to otherwise than by a property, the last one first. -/
def structuralSuccessors (a : Arena) (slot : Slot) : List Slot :=
  match a[slot]? with
  | some c =>
    (c.edges.filterMap fun (kind, target) =>
      if kind ≠ .property ∧ target < a.length then some target else none).reverse
  | none => []

/-- The slots reached from a slot by one structural reference or more. -/
def structurallyBelow (a : Arena) (slot : Slot) : List Slot :=
  reachedFrom a.structuralSuccessors a.length (a.structuralSuccessors slot)

/-- The slots on a structural cycle with the given one, in ascending order. -/
def cycleThrough (a : Arena) (slot : Slot) : List Slot :=
  let below := a.structurallyBelow slot
  if slot ∈ below then
    (List.range a.length).filter fun other =>
      below.contains other && (a.structurallyBelow other).contains slot
  else []

/-- The structural cycle that a depth-first search completes first. -/
def structuralCycle? (a : Arena) : Option (List Slot) :=
  let order := finishOrder a.structuralSuccessors a.length
  order.findSome? fun slot =>
    let cycle := a.cycleThrough slot
    if !cycle.isEmpty && cycle.all (fun other => order.idxOf other ≤ order.idxOf slot) then some cycle
    else none

end Arena

end ShapeTypes
