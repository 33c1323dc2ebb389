import ShapeTypes.Numeric.Binary64
import ShapeTypes.Path
import ShapeTypes.Shape.Vocabulary

/-!
# Shapes

A shape declares what a node of a data graph, or the values of one of its properties, look like.

* `NodeKind`, `Visibility`, `Annotations`, `Facets`, `Constraints` — the parts of a declaration;
* `Shape` — what every shape declares, and its `Form`: a node shape with its properties, or a property
  shape with its path;
* `Shape.comment?`, `Shape.defaultValue?`, `Shape.isMutable` — what a shape says for itself;
* `Ontology`, `Group` — what shapes can point to.
-/

namespace ShapeTypes

open Rdf Numeric

/-! ## Node kinds -/

/-- The kinds of term that `sh:nodeKind` allows. -/
structure NodeKind where
  blankNode : Bool
  iri : Bool
  literal : Bool
  deriving DecidableEq

namespace NodeKind

/-- The six node kinds by their IRIs. -/
def named : List (Iri × NodeKind) := [
  (sh "BlankNode", ⟨true, false, false⟩),
  (sh "IRI", ⟨false, true, false⟩),
  (sh "Literal", ⟨false, false, true⟩),
  (sh "BlankNodeOrIRI", ⟨true, true, false⟩),
  (sh "BlankNodeOrLiteral", ⟨true, false, true⟩),
  (sh "IRIOrLiteral", ⟨false, true, true⟩)]

/-- The node kind that an IRI stands for. -/
def ofIri? (i : Iri) : Option NodeKind := named.lookup i

/-- Whether blank nodes or IRIs are allowed, and literals are not. -/
def allowsIdentifiersOnly (k : NodeKind) : Bool := !k.literal && (k.blankNode || k.iri)

end NodeKind

/-! ## Visibility -/

/-- Who may use a property: everyone, the heirs of its owner, or its owner alone. -/
inductive Visibility where
  | everyone
  | heirs
  | owner
  deriving DecidableEq, Inhabited

namespace Visibility

def text : Visibility → String
  | everyone => "public"
  | heirs => "protected"
  | owner => "private"

/-- Reads a visibility; ASCII letters count alike in either case. -/
def read? (s : String) : Option Visibility :=
  [everyone, heirs, owner].find? fun v => v.text.toList = s.toList.map Char.toLower

end Visibility

/-! ## Annotations -/

/-- Hints that inference never reads: a set of features, held in order, and a kind of declaration. -/
structure Annotations where
  features : List String := []
  declaration : Option String := none
  deriving DecidableEq, Inhabited

namespace Annotations

/-- A list of features as an ordered set. -/
def featureSet (features : List String) : List String :=
  features.eraseDups.mergeSort fun a b => a ≤ b

/-- The features of both; the inner declaration wins. -/
def within (inner outer : Annotations) : Annotations where
  features := featureSet (inner.features ++ outer.features)
  declaration := inner.declaration <|> outer.declaration

/-- Whether nothing is annotated. -/
def isEmpty (a : Annotations) : Bool := a.features.isEmpty && a.declaration.isNone

end Annotations

/-! ## Constraints -/

/-- What a shape says about single literals. -/
structure Facets where
  minExclusive : Option Literal := none
  minInclusive : Option Literal := none
  maxExclusive : Option Literal := none
  maxInclusive : Option Literal := none
  minLength : Option Nat := none
  maxLength : Option Nat := none
  pattern : Option String := none
  languageIn : Option (List String) := none
  deriving DecidableEq, Inhabited

/-- The constraints of a shape. `oneOf` is `sh:in`; an empty list differs from none at all, and so it does
in `conjunction` (`sh:and`) and `alternatives` (`sh:xone`). `nodes` is `sh:node`. -/
structure Constraints where
  minCount : Option Nat := none
  maxCount : Option Nat := none
  hasValues : List Term := []
  oneOf : Option (List Term) := none
  closed : Option Bool := none
  ignoredProperties : List Iri := []
  conjunction : Option (List Node) := none
  alternatives : Option (List Node) := none
  nodes : List Node := []
  classes : List Iri := []
  datatype : Option Iri := none
  nodeKind : Option NodeKind := none
  facets : Facets := {}
  deriving DecidableEq, Inhabited

/-- Whether the shape is composed with `sh:and` or `sh:xone`. -/
def Constraints.isComposite (c : Constraints) : Bool :=
  c.conjunction.isSome || c.alternatives.isSome

/-- The shapes that the constraints refer to. -/
def Constraints.references (c : Constraints) : List Node :=
  c.nodes ++ c.conjunction.getD [] ++ c.alternatives.getD []

/-! ## Shapes -/

/-- The texts that name and describe a shape. -/
structure Labels where
  overrideName : Option String := none
  name : Option String := none
  label : Option String := none
  comment : Option String := none
  description : Option String := none
  deriving DecidableEq, Inhabited

/-- What only property shapes declare. -/
structure PropertyForm where
  path : Path
  defaultValue : Option Term := none
  mutable : Bool := false
  visibility : Visibility := .everyone
  order : Option Binary64 := none
  lazy : Bool := false
  list : Bool := false
  group : Option Node := none

/-- A node shape with its properties in order, or a property shape. -/
inductive Form where
  | node (properties : List Node)
  | property (form : PropertyForm)

structure Shape where
  id : Node
  labels : Labels := {}
  constraints : Constraints := {}
  definedBy : Option Iri := none
  annotations : Annotations := {}
  form : Form

namespace Shape

/-- The property form of a property shape. -/
def property? (s : Shape) : Option PropertyForm :=
  match s.form with
  | .node _ => none
  | .property p => some p

/-- The properties of a node shape; a property shape has none. -/
def properties (s : Shape) : List Node :=
  match s.form with
  | .node ps => ps
  | .property _ => []

def isNode (s : Shape) : Bool :=
  match s.form with
  | .node _ => true
  | .property _ => false

/-- `sh:defaultValue`; a node shape has none. -/
def defaultValue? (s : Shape) : Option Term := s.property?.bind (·.defaultValue)

/-- The mutability a shape declares for itself; a node shape is not mutable. -/
def isMutable (s : Shape) : Bool := s.property?.any (·.mutable)

/-- Whether the values form an ordered collection. -/
def isList (s : Shape) : Bool := s.property?.any (·.list)

/-- The comment, or else the description. -/
def comment? (s : Shape) : Option String := s.labels.comment <|> s.labels.description

/-- The shapes that a shape refers to, properties first. -/
def references (s : Shape) : List Node := s.properties ++ s.constraints.references

end Shape

/-! ## Ontologies and groups -/

/-- An ontology that shapes can be defined by. -/
structure Ontology where
  id : Iri
  label : Option String := none
  comment : Option String := none
  annotations : Annotations := {}

structure Group where
  id : Node
  label : Option String := none
  comment : Option String := none
  order : Option Binary64 := none

end ShapeTypes
