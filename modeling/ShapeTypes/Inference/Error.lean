import ShapeTypes.Cardinality
import ShapeTypes.ConstraintStack

/-!
# Inference errors

* `Malformed` — a construct that no type can be given to; mending the shapes resolves it;
* `Ambiguity` — several candidates where one is required;
* `Violation` — a state that the bookkeeping of inference rules out, or a composite of fewer than two
  members;
* `InferenceError` — one of these with the shape it is found on, or a reference cycle with its shapes;
* `InferenceError.message` — the wording.
-/

namespace ShapeTypes

open Rdf

/-- Why a shape is malformed. -/
inductive Malformed where
  | boundsReversed (bounds : BoundsReversed)
  | pathNotPredicate (path : Path)
  | propertyPathNotPredicate
  | nodeOnValueShape
  | compositeWithParts (feature : String)
  | ancestorNotObject (ancestor : Node)
  | propertyUndefined (property : Node)
  | propertyNotProperty (property : Node)
  | referenceWithValues
  | referenceUndefined (target : Node)
  | lazyNotObject (kind : String)
  | default (cause : DefaultError)

def Malformed.message : Malformed → String
  | .boundsReversed b =>
    "sh:minCount " ++ toString b.min ++ " is greater than sh:maxCount " ++ toString b.max
  | .pathNotPredicate p => "only predicate paths are supported, found " ++ p.kind ++ " " ++ p.text
  | .propertyPathNotPredicate => "only predicate paths are supported"
  | .nodeOnValueShape => "sh:node on a node shape that does not declare an object"
  | .compositeWithParts feature => feature ++ " cannot be combined with sh:node or sh:property"
  | .ancestorNotObject n => "ancestor " ++ n.text ++ " is not an object shape"
  | .propertyUndefined n => "sh:property refers to undefined shape " ++ n.text
  | .propertyNotProperty n => "sh:property " ++ n.text ++ " is not a property shape"
  | .referenceWithValues => "sh:node cannot be combined with sh:datatype or literal sh:in values"
  | .referenceUndefined n => "reference to undefined shape " ++ n.text
  | .lazyNotObject kind => "lazy property must refer to an object type, found " ++ kind
  | .default cause => cause.message

/-- Where a shape is ambiguous. -/
inductive Ambiguity where
  | connectives
  | ancestors (count : Nat)
  | references (count : Nat)

/-- What an ambiguous shape declares too often. -/
def Ambiguity.feature : Ambiguity → String
  | .connectives => "sh:and/sh:xone"
  | .ancestors _ => "sh:node"
  | .references _ => "sh:node"

def Ambiguity.message : Ambiguity → String
  | .connectives => "a shape declares both a conjunction and an exclusive disjunction"
  | .ancestors n => toString n ++ " ancestors declared, an object has at most one parent"
  | .references n => toString n ++ " node shapes referenced, expected exactly one"

/-- What the bookkeeping rules out. `endlessDescription` is not reported: a shape is a list that contains itself, and
describing it in a log does not end. -/
inductive Violation where
  | tooFewMembers (feature : String) (count : Nat)
  | notComposite
  | notInGraph
  | stack (cause : StackError)
  | noScope
  | slotMissing (slot : Nat)
  | defaultSlotMissing (slot : Nat)
  | lazySlotMissing (slot : Nat)
  | neverResolved
  | nestedTooDeep
  | endlessDescription

def Violation.message : Violation → String
  | .tooFewMembers feature n => feature ++ " needs at least two members, found " ++ toString n
  | .notComposite => "not a composite shape"
  | .notInGraph => "shape is not part of the shapes graph"
  | .stack cause => cause.message
  | .noScope => "no open constraint scope"
  | .slotMissing slot => "slot " ++ toString slot ++ " does not exist"
  | .defaultSlotMissing slot => "default value for missing slot " ++ toString slot
  | .lazySlotMissing slot => "lazy property refers to missing slot " ++ toString slot
  | .neverResolved => "property shape was never resolved"
  | .nestedTooDeep => "shapes are nested deeper than there are shapes"
  | .endlessDescription => "description without end"

/-- Why no schema is inferred. -/
inductive InferenceError where
  | malformed (shape : Node) (cause : Malformed)
  | ambiguous (shape : Node) (cause : Ambiguity)
  | invariant (shape : Node) (cause : Violation)
  | unresolvedCycle (shapes : List Node)

/-- Whether the shapes are at fault, or the bookkeeping. -/
inductive Fault where
  | malformedInput
  | invariantViolation
  deriving DecidableEq

def Fault.text : Fault → String
  | .malformedInput => "MalformedInput"
  | .invariantViolation => "InvariantViolation"

namespace InferenceError

/-- Who is at fault; ambiguity counts as malformed input. -/
def fault : InferenceError → Fault
  | malformed .. => .malformedInput
  | ambiguous .. => .malformedInput
  | invariant .. => .invariantViolation
  | unresolvedCycle _ => .invariantViolation

/-- The shapes that the error names. -/
def shapes : InferenceError → List Node
  | malformed s _ => [s]
  | ambiguous s _ => [s]
  | invariant s _ => [s]
  | unresolvedCycle ss => ss

def message : InferenceError → String
  | malformed s cause => "Malformed shape " ++ s.text ++ ": " ++ cause.message
  | ambiguous s cause =>
    "Ambiguous " ++ cause.feature ++ " on shape " ++ s.text ++ ": " ++ cause.message
  | invariant s cause => "Invariant violated while compiling " ++ s.text ++ ": " ++ cause.message
  | unresolvedCycle ss =>
    "Unresolvable reference cycle through " ++ ", ".intercalate (ss.map (·.text))

end InferenceError

end ShapeTypes
