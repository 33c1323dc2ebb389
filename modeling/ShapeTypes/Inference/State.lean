import ShapeTypes.Inference.Alias
import ShapeTypes.Inference.Error
import ShapeTypes.Schema.Description
import ShapeTypes.Shape.ShapesGraph

/-!
# The state of inference

A shape is not visited yet, being resolved, or resolved. One that is being resolved has a slot already, which
is handed out when the shape is reached again.

* `Progress`, `InferenceState` — what is known of the shapes so far;
* `Infer` — computations over that state that may fail;
* `newSlot`, `writeSlot`, `addAlias`, `detached`, … — the single steps.
-/

namespace ShapeTypes

open Rdf

/-- How far a shape is: being resolved into a slot, with the cardinality known from its bounds alone; or
resolved. -/
inductive Progress where
  | resolving (slot : Slot) (cardinality : Cardinality)
  | resolved (use : TypeUse)

/-- What inference knows so far. Scopes are innermost first; the latest memo entry of a shape counts. -/
structure InferenceState where
  slots : Arena := []
  names : NameBook
  memo : List (Node × Progress) := []
  openObjects : List Slot := []
  handedOut : List Node := []
  scopes : List ConstraintStack := []
  aliases : List Alias := []

/-- Computations over the state of inference. -/
abbrev Infer := StateT InferenceState (Except InferenceError)

/-- The entry of a shape in the graph, with its position. -/
def ShapesGraph.frame? (g : ShapesGraph) (id : Node) : Option Frame := do
  let entry ← g.shapes.index? id
  let shape ← g.shapes.entries[entry]?
  return ⟨entry, shape⟩

namespace InferenceState

/-- How far a shape is. -/
def progress? (s : InferenceState) (id : Node) : Option Progress := s.memo.lookup id

/-- Whether a slot holds an object or a composite of objects, or an object whose properties are still being
resolved, after aliases are followed. -/
def actsAsObject (s : InferenceState) (slot : Slot) : Bool :=
  let slot := follow s.aliases slot
  s.openObjects.contains slot || (s.slots[slot]?).any (·.actsAsObject)

end InferenceState

namespace Infer

def malformed {α : Type} (shape : Node) (cause : Malformed) : Infer α := throw (.malformed shape cause)

def ambiguous {α : Type} (shape : Node) (cause : Ambiguity) : Infer α := throw (.ambiguous shape cause)

/-- Fails because the bookkeeping is broken. -/
def violation {α : Type} (shape : Node) (cause : Violation) : Infer α := throw (.invariant shape cause)

def newSlot (c : Content) : Infer Slot := do
  let s ← get
  set { s with slots := s.slots ++ [c] }
  return s.slots.length

def writeSlot (shape : Node) (slot : Slot) (type : ItemType) : Infer Unit := do
  let s ← get
  if slot < s.slots.length then set { s with slots := s.slots.set slot (.type type) }
  else violation shape (.slotMissing slot)

/-- Makes a slot stand for another one. -/
def addAlias (slot target : Slot) (shape : Node) : Infer Unit :=
  modify fun s => { s with aliases := s.aliases ++ [⟨slot, target, shape⟩] }

/-- Records how far a shape is. -/
def remember (id : Node) (p : Progress) : Infer Unit :=
  modify fun s => { s with memo := (id, p) :: s.memo }

def scope (shape : Node) : Infer ConstraintStack := do
  match (← get).scopes with
  | stack :: _ => return stack
  | [] => violation shape .noScope

def updateScope (shape : Node) (f : ConstraintStack → Option StackError × ConstraintStack) : Infer Unit := do
  let s ← get
  match s.scopes with
  | [] => violation shape .noScope
  | stack :: rest =>
    match f stack with
    | (none, stack) => set { s with scopes := stack :: rest }
    | (some cause, _) => violation shape (.stack cause)

/-- Runs a computation with an empty constraint stack, for a shape that is referred to and not composed. -/
def detached {α : Type} (x : Infer α) : Infer α := do
  modify fun s => { s with scopes := .empty :: s.scopes }
  let a ← x
  modify fun s => { s with scopes := s.scopes.tail }
  return a

def nameShape (s : Shape) : Infer Name :=
  modifyGet fun st =>
    let (name, names) := st.names.nameShape s
    (name, { st with names := names })

def nameIri (i : Iri) : Infer Name :=
  modifyGet fun st =>
    let (name, names) := st.names.nameIri i
    (name, { st with names := names })

end Infer

end ShapeTypes
