import ShapeTypes.Proofs.Inference.OwnScope
import ShapeTypes.Proofs.Inference.Refusals

/-!
# Graphs without composites and defaults

* `ShapesGraph.SameEntries` — two graphs hold the same shapes, ontologies and groups in maybe different orders;
  `SameEntries.shape?_eq` — **they have the same shapes by their identifiers**;
* `ShapesGraph.IsPlain` — no composites, no defaults, and the ancestors of node shapes are node shapes;
  `IsPlain.isOf` — every shape is resolved in a scope of its own then;
* `ShapesGraph.StandsForObject` — a shape has the type of one that declares an object;
  `Final.actsAsObject_iff` — **the slots that stand for such shapes are those that act as objects.**
-/

namespace ShapeTypes

open Rdf Relation

variable {graph graph' : ShapesGraph} {strict : Bool}

/-! ## Orders of insertion -/

/-- Two graphs hold the same shapes, ontologies and groups, in maybe different orders. -/
structure ShapesGraph.SameEntries (graph graph' : ShapesGraph) : Prop where
  shapes : graph.shapes.entries.Perm graph'.shapes.entries
  ontologies : graph.ontologies.entries.Perm graph'.ontologies.entries
  groups : graph.groups.entries.Perm graph'.groups.entries

namespace ShapesGraph.SameEntries

theorem symm (h : graph.SameEntries graph') : graph'.SameEntries graph :=
  ⟨h.shapes.symm, h.ontologies.symm, h.groups.symm⟩

/-- **The same shapes are found.** -/
theorem shape?_eq (h : graph.SameEntries graph') (id : Node) : graph.shape? id = graph'.shape? id :=
  Keyed.get?_eq_of_perm h.shapes id

theorem mem_ids (h : graph.SameEntries graph') {id : Node} : id ∈ graph.ids ↔ id ∈ graph'.ids :=
  (h.shapes.map _).mem_iff

theorem annotationsInForce_eq (h : graph.SameEntries graph') (shape : Shape) :
    graph.annotationsInForce shape = graph'.annotationsInForce shape := by
  have hget : graph.ontologies.get? = graph'.ontologies.get? := funext (Keyed.get?_eq_of_perm h.ontologies)
  rw [annotationsInForce, annotationsInForce, hget]

theorem standIn?_eq (h : graph.SameEntries graph') (id : Node) : graph.standIn? id = graph'.standIn? id := by
  rw [standIn?, standIn?, h.shape?_eq]

theorem standsInFor_eq (h : graph.SameEntries graph') : graph.StandsInFor = graph'.StandsInFor := by
  funext id target
  rw [StandsInFor, StandsInFor, h.standIn?_eq]

theorem refers_eq (h : graph.SameEntries graph') : graph.Refers = graph'.Refers := by
  funext source target
  simp only [Refers, h.shape?_eq]

theorem declaresObject_eq (h : graph.SameEntries graph') (id : Node) :
    graph.DeclaresObject id = graph'.DeclaresObject id := by
  simp only [DeclaresObject, h.shape?_eq]

end ShapesGraph.SameEntries

/-! ## Plain graphs -/

/-- No shape is composed of others, no property shape has a default, and the ancestors of node shapes are node
shapes of the graph. -/
structure ShapesGraph.IsPlain (graph : ShapesGraph) : Prop where
  notComposite : ∀ shape ∈ graph.shapes.entries, shape.constraints.isComposite = false
  noDefault : ∀ shape ∈ graph.shapes.entries, shape.defaultValue? = none
  ancestors : ∀ shape ∈ graph.shapes.entries, shape.isNode = true → ∀ ancestor ∈ shape.constraints.nodes,
    (graph.shape? ancestor).any (·.isNode) = true

namespace ShapesGraph.IsPlain

theorem congr (h : graph.IsPlain) (same : graph.SameEntries graph') : graph'.IsPlain where
  notComposite := fun shape hs => h.notComposite shape (same.shapes.mem_iff.2 hs)
  noDefault := fun shape hs => h.noDefault shape (same.shapes.mem_iff.2 hs)
  ancestors := fun shape hs => by
    simpa only [same.shape?_eq] using h.ancestors shape (same.shapes.mem_iff.2 hs)

variable {id : Node} {shape : Shape}

theorem isComposite_eq (h : graph.IsPlain) (hs : graph.shape? id = some shape) :
    shape.constraints.isComposite = false :=
  h.notComposite shape (shape?_eq_some hs).1

theorem composition?_eq (h : graph.IsPlain) (hs : graph.shape? id = some shape) :
    shape.constraints.composition? = none :=
  Constraints.composition?_eq_none (h.isComposite_eq hs)

theorem not_composes (h : graph.IsPlain) {composite : Node} : ¬ graph.Composes composite id := by
  rintro ⟨shape, connective, members, hs, hc, -⟩
  rw [h.composition?_eq hs] at hc
  cases hc

/-- **Every shape is resolved in a scope of its own.** -/
theorem isOf (h : graph.IsPlain) {stack : ConstraintStack} (hf : graph.InForce id stack)
    (hs : graph.shape? id = some shape) : stack.IsOf shape :=
  hf.isOf (fun _ => h.not_composes) hs

theorem not_effectiveDefault (h : graph.IsPlain) {term : Term} : ¬ graph.EffectiveDefault id term := by
  intro hd
  cases hd with
  | own hs hterm =>
      rw [h.noDefault _ (shape?_eq_some hs).1] at hterm
      cases hterm
  | inherited _ _ hc => exact h.not_composes hc

end ShapesGraph.IsPlain

/-! ## Objects -/

theorem Body.actsAsObject_of_isValue {body : Body} (h : body.isValue = true) : body.actsAsObject = false := by
  cases body with
  | object => cases h
  | composite => cases h
  | _ => rfl

namespace ShapesGraph

/-- A shape has the type of one that declares an object. -/
def StandsForObject (graph : ShapesGraph) (id : Node) : Prop :=
  ∃ last, ReflTransGen graph.StandsInFor id last ∧ graph.DeclaresObject last

theorem eq_of_standsInFor {id last : Node} (h : graph.standIn? id = none)
    (hpath : ReflTransGen graph.StandsInFor id last) : last = id := by
  rcases ReflTransGen.cases_head hpath with rfl | ⟨next, hnext, -⟩
  · rfl
  · rw [StandsInFor, h] at hnext
    cases hnext

/-- **The last shape that a shape stands in for is determined.** -/
theorem last_unique {id last last' : Node} (h : ReflTransGen graph.StandsInFor id last)
    (h' : ReflTransGen graph.StandsInFor id last') (hlast : graph.standIn? last = none)
    (hlast' : graph.standIn? last' = none) : last = last' := by
  have hunique : Relator.RightUnique graph.StandsInFor := fun _ _ _ hb hc => Option.some.inj (hb.symm.trans hc)
  rcases ReflTransGen.total_of_right_unique hunique h h' with hpath | hpath
  · exact (eq_of_standsInFor hlast hpath).symm
  · exact eq_of_standsInFor hlast' hpath

end ShapesGraph

/-- What a shape is found to be is no list. -/
theorem Fits.ne_list {s : InferenceState} {shape : Shape} {body : Body} (h : Fits graph s shape (.type body))
    (item : Slot) : body ≠ .list item := by
  rintro rfl
  cases h with
  | value _ _ _ hvalue => cases hvalue

theorem Fits.nodes_of_isList {s : InferenceState} {shape : Shape} {body : Body}
    (h : Fits graph s shape (.type body)) (hl : shape.isList = true) : shape.constraints.nodes = [] := by
  cases h with
  | composite _ _ hn => exact hn
  | object ho => cases hl.symm.trans (Shape.isList_of_declaresObject ho)
  | value _ _ hn => exact hn

/-- What a shape is found to be acts as an object exactly if the shape declares one. -/
theorem Fits.actsAsObject_iff (hp : graph.IsPlain) {s : InferenceState} {id : Node} {shape : Shape} {body : Body}
    (hs : graph.shape? id = some shape) (h : Fits graph s shape (.type body)) :
    body.actsAsObject = true ↔ shape.declaresObject = true := by
  cases h with
  | composite hc => cases (hp.composition?_eq hs).symm.trans hc
  | object ho => exact iff_of_true rfl ho
  | value _ hno _ hvalue => simp [Body.actsAsObject_of_isValue hvalue, hno]

/-- **So does the type in the slot of its items.** -/
theorem LaidOut.actsAsObject_iff (hp : graph.IsPlain) {s : InferenceState} {id : Node} {shape : Shape} {name : Name}
    {x : Slot} {finding : Finding} (h : LaidOut graph s shape name x finding) (hs : graph.shape? id = some shape)
    {t : ItemType} (ht : s.slots[x]? = some (.type t)) :
    t.body.actsAsObject = true ↔ shape.declaresObject = true := by
  have hlist : ∀ {item : Slot}, shape.isList = true → t = shape.itemType name (.list item) →
      (t.body.actsAsObject = true ↔ shape.declaresObject = true) := by
    rintro item hl rfl
    refine iff_of_false Bool.false_ne_true fun ho => ?_
    cases hl.symm.trans (Shape.isList_of_declaresObject ho)
  cases h with
  | item _ hfits hx =>
      cases ht.symm.trans hx
      exact hfits.actsAsObject_iff hp hs
  | list hl _ hx =>
      cases ht.symm.trans hx
      exact hlist hl rfl
  | listOf hl _ _ _ hx =>
      cases ht.symm.trans hx
      exact hlist hl rfl

/-- **A slot that stands for a shape has a type at last that acts as an object exactly if the shape has the
type of one that declares an object.** -/
theorem Final.actsAsObject_iff (hp : graph.IsPlain) {s : InferenceState} (h : Final graph s)
    {r : List (Slot × Slot)} (hr : Alias.replacements s.aliases = .ok r) {y : Slot} {id : Node}
    (hy : s.Denotes y id) {t : ItemType} (ht : s.slots[replaceSlot r y]? = some (.type t)) :
    t.body.actsAsObject = true ↔ graph.StandsForObject id := by
  obtain ⟨use, hd⟩ := h.exists_done_of_denotes hy
  obtain ⟨last, use', t', hpath, hnone, hlast, hplace, ht', -⟩ := h.exists_last hr hd
  rw [h.replaceSlot_of_denotes hr hy hd, hplace, ht', Option.some.injEq, Content.type.injEq] at ht
  subst ht
  obtain ⟨slot, next, shape, name, finding, hb⟩ := h.lawful.built last use' hlast
  rw [(hb.laidOut hnone).actsAsObject_iff hp hb.found ht']
  constructor
  · exact fun ho => ⟨last, hpath, shape, hb.found, ho⟩
  · rintro ⟨last', hpath', ho⟩
    obtain rfl := ShapesGraph.last_unique hpath hpath' hnone ho.standIn?_eq
    obtain ⟨shape', hs, ho⟩ := ho
    cases hb.found.symm.trans hs
    exact ho

end ShapeTypes
