import ShapeTypes.Shape.Basic

/-!
# Constraint stacks

The members of `sh:and` and `sh:xone` may leave out constraints that the shape composing them declares.
A constraint stack holds the chain of shapes being composed, innermost first, and answers with the first
value found.

* `Frame` — a shape with the position of its entry in the collection it comes from; two entries may have
  equal identifiers;
* `ConstraintStack.push` refuses a shape whose identifier is on the stack;
* `ConstraintStack.pop` refuses an entry that is not on top; both give the stack afterwards, also if they refuse;
* `hasValues?`, `oneOf?`, `defaultValue?`, `minCount?`, `maxCount?`, `mutable` — the constraints in force.
-/

namespace ShapeTypes

open Rdf

/-- A shape on a stack, known by the position of its entry. -/
structure Frame where
  entry : Nat
  shape : Shape

/-- Why a stack operation is refused. -/
inductive StackError where
  | alreadyOnStack
  | emptyPop
  | notOnTop (top : Node)
  deriving DecidableEq

def StackError.message : StackError → String
  | .alreadyOnStack => "shape is already on the constraint stack"
  | .emptyPop => "pop from an empty constraint stack"
  | .notOnTop top => "constraint stack top is " ++ top.text

/-- The shapes being composed, innermost first. -/
structure ConstraintStack where
  frames : List Frame := []

namespace ConstraintStack

def empty : ConstraintStack := {}

def size (s : ConstraintStack) : Nat := s.frames.length

/-- The innermost frame. -/
def top? (s : ConstraintStack) : Option Frame := s.frames.head?

/-- Puts a frame on top, unless a shape of equal identifier is on the stack. -/
def push (s : ConstraintStack) (f : Frame) : Option StackError × ConstraintStack :=
  if s.frames.any fun g => g.shape.id = f.shape.id then (some .alreadyOnStack, s)
  else (none, { s with frames := f :: s.frames })

/-- Takes the frame off, which must be the entry on top. -/
def pop (s : ConstraintStack) (f : Frame) : Option StackError × ConstraintStack :=
  match s.frames with
  | [] => (some .emptyPop, s)
  | g :: rest =>
    if g.entry = f.entry then (none, { s with frames := rest }) else (some (.notOnTop g.shape.id), s)

theorem pop_of_push {s t : ConstraintStack} {f : Frame} (h : s.push f = (none, t)) : t.pop f = (none, s) := by
  unfold push at h
  split at h
  · cases h
  · cases h; simp [pop]

/-- The first value that a shape gives, innermost first. -/
def find? {α : Type} (s : ConstraintStack) (f : Shape → Option α) : Option α :=
  s.frames.findSome? fun frame => f frame.shape

/-- The values of the innermost shape with an `sh:hasValue`. -/
def hasValues? (s : ConstraintStack) : Option (List Term) :=
  s.find? fun shape =>
    if shape.constraints.hasValues.isEmpty then none else some shape.constraints.hasValues

/-- The list of the innermost shape with an `sh:in` that is not empty. -/
def oneOf? (s : ConstraintStack) : Option (List Term) :=
  s.find? fun shape => shape.constraints.oneOf.filter fun list => !list.isEmpty

/-- The default value of the innermost shape with one. -/
def defaultValue? (s : ConstraintStack) : Option Term := s.find? (·.defaultValue?)

/-- The `sh:minCount` of the innermost shape with one. -/
def minCount? (s : ConstraintStack) : Option Nat := s.find? (·.constraints.minCount)

/-- The `sh:maxCount` of the innermost shape with one. -/
def maxCount? (s : ConstraintStack) : Option Nat := s.find? (·.constraints.maxCount)

/-- The mutability of the innermost shape; it is never inherited. -/
def mutable (s : ConstraintStack) : Bool := s.top?.any (·.shape.isMutable)

end ConstraintStack

end ShapeTypes
