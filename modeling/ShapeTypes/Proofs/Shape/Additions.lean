import ShapeTypes.Proofs.Keyed
import ShapeTypes.Shape.ShapesGraph

/-!
# What a shapes graph has of what was added to it

Shapes, ontologies and groups are added in any order, and an identifier may come again: a node shape with the
identifier of a property shape, or a shape with that of a group.

* `Addition`, `ShapesGraph.add`, `ShapesGraph.ofAdditions` — what is added, and the graph of a list of additions;
* `ShapesGraph.foldl_add` — **each kind is added to its own collection**, whatever else is added in between;
* `ShapesGraph.mem_nodeShapes_iff`, `ShapesGraph.mem_propertyShapes_iff`, `ShapesGraph.nodeShapes_append_perm` — the
  two forms of shape;
* `ShapesGraph.builtFrom_ofAdditions` — **all that a shapes graph has after any additions**.
-/

namespace ShapeTypes

open Rdf

/-- What can be added to a shapes graph. -/
inductive Addition where
  | shape (shape : Shape)
  | ontology (ontology : Ontology)
  | group (group : Group)

namespace Addition

/-- The shape that is added, if one is. -/
def shape? : Addition → Option Shape
  | shape s => some s
  | _ => none

/-- The ontology that is added, if one is. -/
def ontology? : Addition → Option Ontology
  | ontology o => some o
  | _ => none

/-- The group that is added, if one is. -/
def group? : Addition → Option Group
  | group x => some x
  | _ => none

end Addition

namespace Shape

variable {s : Shape}

theorem isNode_iff : s.isNode = true ↔ ∃ properties, s.form = .node properties := by
  unfold isNode
  cases s.form with
  | node properties => simp
  | property p => simp

theorem isNode_eq_false_iff : s.isNode = false ↔ ∃ p, s.form = .property p := by
  unfold isNode
  cases s.form with
  | node properties => simp
  | property p => simp

end Shape

namespace ShapesGraph

/-- The graph with one addition. -/
def add (g : ShapesGraph) : Addition → ShapesGraph
  | .shape s => g.putShape s
  | .ontology o => g.putOntology o
  | .group x => g.putGroup x

/-- The graph of additions, made one after the other. -/
def ofAdditions (added : List Addition) : ShapesGraph := added.foldl add {}

variable {g : ShapesGraph} {s : Shape}

theorem foldl_add (g : ShapesGraph) (added : List Addition) :
    added.foldl add g = {
      shapes := (added.filterMap Addition.shape?).foldl .put g.shapes
      ontologies := (added.filterMap Addition.ontology?).foldl .put g.ontologies
      groups := (added.filterMap Addition.group?).foldl .put g.groups } := by
  induction added generalizing g with
  | nil => rfl
  | cons a added ih =>
      rw [List.foldl_cons, ih]
      cases a with
      | shape s => rfl
      | ontology o => rfl
      | group x => rfl

/-! ## The two forms of shape -/

theorem mem_nodeShapes_iff : s ∈ g.nodeShapes ↔ s ∈ g.shapes.entries ∧ ∃ properties, s.form = .node properties := by
  rw [nodeShapes, List.mem_filter, Shape.isNode_iff]

theorem mem_propertyShapes_iff : s ∈ g.propertyShapes ↔ s ∈ g.shapes.entries ∧ ∃ p, s.form = .property p := by
  rw [propertyShapes, List.mem_filter, Bool.not_eq_true', Shape.isNode_eq_false_iff]

theorem nodeShapes_append_perm (g : ShapesGraph) : (g.nodeShapes ++ g.propertyShapes).Perm g.shapes.entries :=
  List.filter_append_perm ..

/-! ## After any additions -/

/-- What a shapes graph has of what was added to it. -/
structure BuiltFrom (added : List Addition) (g : ShapesGraph) : Prop where
  /-- Of each kind, the last with each identifier, at the place of the first: no kind depends on the others. -/
  shapes : g.shapes.HoldsLast (added.filterMap Addition.shape?)
  ontologies : g.ontologies.HoldsLast (added.filterMap Addition.ontology?)
  groups : g.groups.HoldsLast (added.filterMap Addition.group?)
  /-- A shape is found by its identifier exactly if it was added last with it, and none if none was added with it. -/
  shape?_eq_some_iff : ∀ id s, g.shape? id = some s ↔ Keyed.IsLast Shape.id (added.filterMap Addition.shape?) id s
  shape?_eq_none_iff : ∀ id, g.shape? id = none ↔ id ∉ (added.filterMap Addition.shape?).map Shape.id
  /-- Each shape is a node shape or a property shape, and both stand in the order of all shapes. -/
  mem_nodeShapes_iff : ∀ s, s ∈ g.nodeShapes ↔ s ∈ g.shapes.entries ∧ ∃ properties, s.form = .node properties
  mem_propertyShapes_iff : ∀ s, s ∈ g.propertyShapes ↔ s ∈ g.shapes.entries ∧ ∃ p, s.form = .property p
  perm : (g.nodeShapes ++ g.propertyShapes).Perm g.shapes.entries
  nodeShapes_sublist : g.nodeShapes.Sublist g.shapes.entries
  propertyShapes_sublist : g.propertyShapes.Sublist g.shapes.entries

/-- **Any additions leave of each kind the last with each identifier**, in the order of the first, and every shape is
found in one of the two forms. -/
theorem builtFrom_ofAdditions (added : List Addition) : BuiltFrom added (ofAdditions added) := by
  have hshapes : (ofAdditions added).shapes.HoldsLast (added.filterMap Addition.shape?) := by
    rw [ofAdditions, foldl_add]
    exact Keyed.holdsLast_ofList _
  constructor
  case shapes => exact hshapes
  case ontologies =>
    rw [ofAdditions, foldl_add]
    exact Keyed.holdsLast_ofList _
  case groups =>
    rw [ofAdditions, foldl_add]
    exact Keyed.holdsLast_ofList _
  case shape?_eq_some_iff => exact hshapes.get?_iff
  case shape?_eq_none_iff => exact hshapes.get?_none_iff
  case mem_nodeShapes_iff => exact fun s => ShapesGraph.mem_nodeShapes_iff
  case mem_propertyShapes_iff => exact fun s => ShapesGraph.mem_propertyShapes_iff
  case perm => exact nodeShapes_append_perm _
  case nodeShapes_sublist => exact List.filter_sublist
  case propertyShapes_sublist => exact List.filter_sublist

/-- A property shape takes the place of a node shape with its identifier, and a group with it takes none. -/
example :
    let iri (name : String) : Node := .iri ⟨name⟩
    let path : Path := .predicate ⟨"p"⟩
    let g := ofAdditions [
      .shape { id := iri "a", form := .node [] },
      .shape { id := iri "b", form := .node [] },
      .group { id := iri "a" },
      .shape { id := iri "a", form := .property { path } }]
    g.ids = [iri "a", iri "b"] ∧ g.nodeShapes.map (·.id) = [iri "b"] ∧ g.propertyShapes.map (·.id) = [iri "a"] ∧
      g.groups.keys = [iri "a"] := by
  decide

end ShapesGraph

end ShapeTypes
