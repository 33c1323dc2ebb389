import ShapeTypes.Schema.ItemType

/-!
# What single shapes are

The decisions that need one shape only.

* `identifierKind?` — the identifiers that a node kind, or a class, narrows values to;
* `enumeratedIris?` — the members of an enumeration: a list of IRIs that is not empty;
* `Shape.declaresObject` — whether a shape declares an object.
-/

namespace ShapeTypes

open Rdf

/-- The kind of identifier that a node kind narrows to; without a node kind a class implies an identifier
of any kind. -/
def identifierKind? (nodeKind : Option NodeKind) (hasClass : Bool) : Option IdentifierKind :=
  match nodeKind with
  | some ⟨true, false, false⟩ => some .blankNode
  | some ⟨false, true, false⟩ => some .iri
  | some k => if k.allowsIdentifiersOnly then some .any else none
  | none => if hasClass then some .any else none

def IdentifierKind.text : IdentifierKind → String
  | .any => "Identifier"
  | .blankNode => "BlankNode"
  | .iri => "Iri"

/-- The IRIs of a list of terms that holds at least one and nothing else. -/
def enumeratedIris? (values : List Term) : Option (List Iri) :=
  if values.isEmpty then none else values.mapM (·.iri?)

/-- Whether a shape declares an object: a node shape that is no composite and does not describe a single
value by a datatype, an enumeration, or a node kind without properties and ancestors. -/
def Shape.declaresObject (s : Shape) : Bool :=
  let c := s.constraints
  s.isNode && !(c.isComposite || c.datatype.isSome || c.oneOf.isSome) &&
    match c.nodeKind with
    | none => true
    | some k => !k.literal && (!s.properties.isEmpty || !c.nodes.isEmpty)

/-- The documentation of the type of a shape. -/
def Shape.doc (s : Shape) : Doc := ⟨s.comment?, s.labels.label⟩

def Shape.itemType (s : Shape) (name : Name) (body : Body) : ItemType := ⟨s.id, name, s.doc, body⟩

end ShapeTypes
