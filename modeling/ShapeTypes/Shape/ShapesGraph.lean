import ShapeTypes.Keyed
import ShapeTypes.Shape.Basic

/-!
# Shapes graphs

The shapes, ontologies and property groups that a schema is inferred from, each kind in insertion order
with one entry for each identifier.

* `ShapesGraph.putShape`, `putOntology`, `putGroup` — add an entry, or replace the one of its identifier;
* `ShapesGraph.shape?` — the shape of an identifier;
* `ShapesGraph.annotationsInForce` — the annotations of a shape with those of its ontology.
-/

namespace ShapeTypes

open Rdf

/-- Shapes, ontologies and groups. -/
structure ShapesGraph where
  shapes : Keyed Shape.id := .empty
  ontologies : Keyed Ontology.id := .empty
  groups : Keyed Group.id := .empty

namespace ShapesGraph

/-- Adds a shape, or replaces the one of its identifier. -/
def putShape (g : ShapesGraph) (s : Shape) : ShapesGraph := { g with shapes := g.shapes.put s }

/-- Adds an ontology, or replaces the one of its identifier. -/
def putOntology (g : ShapesGraph) (o : Ontology) : ShapesGraph :=
  { g with ontologies := g.ontologies.put o }

/-- Adds a group, or replaces the one of its identifier. -/
def putGroup (g : ShapesGraph) (x : Group) : ShapesGraph := { g with groups := g.groups.put x }

def shape? (g : ShapesGraph) (id : Node) : Option Shape := g.shapes.get? id

def size (g : ShapesGraph) : Nat := g.shapes.size

/-- The identifiers of the shapes, in insertion order. -/
def ids (g : ShapesGraph) : List Node := g.shapes.keys

/-- The node shapes, in insertion order. -/
def nodeShapes (g : ShapesGraph) : List Shape := g.shapes.entries.filter (·.isNode)

/-- The property shapes, in insertion order. -/
def propertyShapes (g : ShapesGraph) : List Shape := g.shapes.entries.filter fun s => !s.isNode

/-- The annotations of a shape, merged with those of the ontology it is defined by. -/
def annotationsInForce (g : ShapesGraph) (s : Shape) : Annotations :=
  match s.definedBy.bind g.ontologies.get? with
  | some o => s.annotations.within o.annotations
  | none => s.annotations

end ShapesGraph

end ShapeTypes
