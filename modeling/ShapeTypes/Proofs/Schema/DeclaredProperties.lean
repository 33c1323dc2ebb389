import ShapeTypes.Proofs.Schema.Described

/-!
# Which node shapes keep their properties

A node shape with properties is meant to be an object with these properties, and a composite with properties is
refused, as is a shape of single values with an ancestor. But a shape of single values with properties is not: its
type is that of the values, and the properties are lost.

* `Shape.DescribesValues` — a shape describes single values by a datatype, a list of values or a node kind;
* `Schema.KeepsProperties` — the type of a shape is an object with the properties of the shape, in order;
* `infer_keepsProperties_iff` — **the properties of a node shape are kept exactly if it describes no single
  values**;
* `badge_loses_owner` — one that does.
-/

namespace ShapeTypes

open Rdf

variable {graph : ShapesGraph} {table : PrefixTable} {strict : Bool} {schema : Schema} {id : Node} {shape : Shape}

/-- A shape describes single values: by a datatype, by the list of them, or by a node kind with literals. -/
def Shape.DescribesValues (shape : Shape) : Prop :=
  shape.constraints.datatype.isSome ∨ shape.constraints.oneOf.isSome ∨
    ∃ kind, shape.constraints.nodeKind = some kind ∧ kind.literal = true

/-- The type of a shape is an object whose properties are those of the shape, in order, each with the predicate
and the entry of its property shape. -/
def Schema.KeepsProperties (s : Schema) (graph : ShapesGraph) (id : Node) (shape : Shape) : Prop :=
  ∃ use t o, s.use? id = some use ∧ s.content? use.item = some (.type t) ∧ t.shape = id ∧ t.body = .object o ∧
    o.properties.map (·.shape) = shape.properties ∧
    List.Forall₂ (s.HasProperty graph) shape.properties o.properties

/-- Only node shapes have properties. -/
theorem Shape.isNode_of_properties (h : shape.properties ≠ []) : shape.isNode = true := by
  unfold properties at h
  unfold isNode
  cases hf : shape.form with
  | node => rfl
  | property form => simp [hf] at h

theorem Shape.isList_of_isNode (h : shape.isNode = true) : shape.isList = false := by
  unfold isNode at h
  unfold isList property?
  cases hf : shape.form with
  | node => rfl
  | property form => simp [hf] at h

/-- **A node shape with properties declares an object unless it is composed or describes single values.** -/
theorem Shape.declaresObject_iff_of_properties (h : shape.properties ≠ []) :
    shape.declaresObject = true ↔ shape.constraints.isComposite = false ∧ ¬ shape.DescribesValues := by
  have hnode := isNode_of_properties h
  have hempty : shape.properties.isEmpty = false := by simpa using h
  unfold declaresObject DescribesValues
  cases hkind : shape.constraints.nodeKind <;> simp [hnode, hempty, hkind, and_assoc]

namespace Schema

variable {s : Schema}

theorem map_shape_of_hasProperty {ids : List Node} {ps : List Property}
    (h : List.Forall₂ (s.HasProperty graph) ids ps) : ps.map (·.shape) = ids := by
  induction h with
  | nil => rfl
  | cons hp _ ih => rw [List.map_cons, hp.1, ih]

theorem not_keepsProperties_of_isValue {use : TypeUse} {t : ItemType} (huse : s.use? id = some use)
    (ht : s.content? use.item = some (.type t)) (hv : t.body.isValue = true) :
    ¬ s.KeepsProperties graph id shape := by
  rintro ⟨use', t', o, huse', ht', -, hobject, -⟩
  cases huse.symm.trans huse'
  cases ht.symm.trans ht'
  rw [hobject] at hv
  cases hv

end Schema

namespace Inferred

variable (i : Inferred graph table strict schema) (hs : graph.shape? id = some shape) (hp : shape.properties ≠ [])

include i hs hp

/-- A composite with properties is refused. -/
theorem isComposite_of_properties : shape.constraints.isComposite = false := by
  obtain ⟨use, slot, next, name, finding, hb, -, -⟩ := i.exists_built hs
  cases hb.fits with
  | composite _ _ _ hnone => exact absurd hnone hp
  | object ho => exact Shape.isComposite_of_declaresObject ho
  | reference hc => exact hc
  | value hc => exact hc

/-- **A node shape that describes no single values keeps its properties.** -/
theorem keepsProperties (hv : ¬ shape.DescribesValues) : schema.KeepsProperties graph id shape := by
  have ho := (Shape.declaresObject_iff_of_properties hp).2 ⟨i.isComposite_of_properties hs hp, hv⟩
  obtain ⟨use, t, o, huse, ht, hid, hbody, -, hprops⟩ := i.coherent_objects hs ho
  exact ⟨use, t, o, huse, ht, hid, hbody, Schema.map_shape_of_hasProperty hprops, hprops⟩

/-- **A node shape that does has a type of single values**, whatever its properties. -/
theorem exists_value (hv : shape.DescribesValues) : ∃ use t, schema.use? id = some use ∧
    schema.content? use.item = some (.type t) ∧ t.shape = id ∧ t.body.isValue = true := by
  have hn := Shape.isNode_of_properties hp
  obtain ⟨use, slot, next, name, finding, hb, huse, hkeep⟩ := i.exists_built hs
  cases hb.fits with
  | composite _ _ _ hnone => exact absurd hnone hp
  | reference _ hproperty => exact absurd (hn.symm.trans hproperty) (by decide)
  | object ho => exact absurd hv ((Shape.declaresObject_iff_of_properties hp).1 ho).2
  | value _ _ _ hbody =>
      obtain ⟨item, t, hitem, ht, hfinished⟩ := i.exists_items hb hkeep
      rw [Shape.isList_of_isNode hn] at hitem
      cases hitem
      have hsame := i.body_of_isValue hfinished hbody
      exact ⟨_, t, huse, ht, (i.finished_eq hfinished).1.trans hb.id_shape, hsame ▸ hbody⟩

end Inferred

/-- **The properties of a node shape are kept exactly if it describes no single values.** If it does, its type is
that of the values, which has none. -/
theorem infer_keepsProperties_iff (h : graph.infer table strict = .ok schema)
    (hs : graph.shape? id = some shape) (hp : shape.properties ≠ []) :
    shape.constraints.isComposite = false ∧
      (schema.KeepsProperties graph id shape ↔ ¬ shape.DescribesValues) ∧
      (shape.DescribesValues → ∃ use t, schema.use? id = some use ∧ schema.content? use.item = some (.type t) ∧
        t.shape = id ∧ t.body.isValue = true) := by
  obtain ⟨i⟩ := exists_inferred h
  refine ⟨i.isComposite_of_properties hs hp, ⟨fun hkeeps hv => ?_, i.keepsProperties hs hp⟩, i.exists_value hs hp⟩
  obtain ⟨use, t, huse, ht, -, hvalue⟩ := i.exists_value hs hp hv
  exact Schema.not_keepsProperties_of_isValue huse ht hvalue hkeeps

/-! ## Properties that are lost -/

namespace ShapesGraph

/-- A badge is a text, and has an owner. -/
def badges : ShapesGraph where
  shapes := .ofList [
    { id := .blank "Badge", form := .node [.blank "owner"]
      constraints := { datatype := some ⟨"http://www.w3.org/2001/XMLSchema#string"⟩ } },
    { id := .blank "owner", form := .property { path := .predicate ⟨"http://example.org/owner"⟩ } }]

theorem exists_schema_badges : ∃ schema, badges.infer default true = .ok schema :=
  exists_of_isSome_toOption (by decide +kernel)

end ShapesGraph

/-- The owner of a badge is accepted, and lost. -/
theorem badge_loses_owner : ∃ schema shape, ShapesGraph.badges.infer default true = .ok schema ∧
    ShapesGraph.badges.shape? (.blank "Badge") = some shape ∧ shape.properties = [.blank "owner"] ∧
      ¬ schema.KeepsProperties ShapesGraph.badges (.blank "Badge") shape := by
  obtain ⟨schema, h⟩ := ShapesGraph.exists_schema_badges
  obtain ⟨i⟩ := exists_inferred h
  have hbadge : ShapesGraph.badges.shape? (.blank "Badge") = some _ := rfl
  refine ⟨schema, _, h, hbadge, rfl, ?_⟩
  obtain ⟨use, t, huse, ht, -, hvalue⟩ := i.exists_value hbadge (by decide) (Or.inl rfl)
  exact Schema.not_keepsProperties_of_isValue huse ht hvalue

/-- Persons keep their properties, and badges do not. -/
theorem person_and_badge_keepsProperties_iff :
    (∃ schema shape, ShapesGraph.people.infer default true = .ok schema ∧
      ShapesGraph.people.shape? (.blank "Person") = some shape ∧
      (schema.KeepsProperties ShapesGraph.people (.blank "Person") shape ↔ ¬ shape.DescribesValues)) ∧
    ∃ schema shape, ShapesGraph.badges.infer default true = .ok schema ∧
      ShapesGraph.badges.shape? (.blank "Badge") = some shape ∧
      (schema.KeepsProperties ShapesGraph.badges (.blank "Badge") shape ↔ ¬ shape.DescribesValues) := by
  obtain ⟨schema, h⟩ := ShapesGraph.exists_schema_people
  obtain ⟨schema', h'⟩ := ShapesGraph.exists_schema_badges
  exact ⟨⟨schema, _, h, rfl, (infer_keepsProperties_iff h rfl (by decide)).2.1⟩,
    schema', _, h', rfl, (infer_keepsProperties_iff h' rfl (by decide)).2.1⟩

end ShapeTypes
