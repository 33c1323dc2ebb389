import ShapeTypes.Proofs.Schema.Inferred

/-!
# References between shapes are references between types

* `Schema.itemsAt?` — the slot of the items of a shape, behind the list if there is one;
* `Schema.RefersTo`, `Schema.HasParent`, `Schema.HasProperty` — a slot, a parent and a property are those
  that the entries of the shapes give;
* `Schema.Coherent` — what references, objects and composites have to be in a schema;
* `infer_coherent` — **every inferred schema is coherent**.
-/

namespace ShapeTypes

open Rdf

variable {graph : ShapesGraph} {table : PrefixTable} {strict : Bool} {schema : Schema}

/-! ## Coherent schemas -/

namespace Schema

/-- The slot of the items in a slot: itself, or the one behind the list that it holds. -/
def itemsAt? (s : Schema) (list : Bool) (slot : Slot) : Option Slot :=
  if list then
    match s.content? slot with
    | some (.type { body := .list item, .. }) => some item
    | _ => none
  else some slot

/-- A slot is the one that the entry of a shape gives. -/
def RefersTo (s : Schema) (id : Node) (slot : Slot) : Prop := ∃ use, s.use? id = some use ∧ use.item = slot

/-- An object has the type of the one ancestor of its shape as its parent, and none without. -/
def HasParent (s : Schema) (shape : Shape) (parent : Option Slot) : Prop :=
  (shape.constraints.nodes = [] ∧ parent = none) ∨
    ∃ ancestor slot, shape.constraints.nodes = [ancestor] ∧ parent = some slot ∧ s.RefersTo ancestor slot

/-- A property is that of a property shape, with its predicate as the path and its whole entry, cardinality
included, as the type. -/
def HasProperty (s : Schema) (graph : ShapesGraph) (id : Node) (p : Property) : Prop :=
  p.shape = id ∧ s.use? id = some p.use ∧ ∃ shape form, graph.shape? id = some shape ∧
    shape.property? = some form ∧ form.path.predicate? = some p.path

/-- **References between shapes are references between types.** A property shape that refers to another
shape has its type; an object candidate has an object with the parent and the properties of its shape; a
composite has the types of its members. -/
structure Coherent (s : Schema) (graph : ShapesGraph) : Prop where
  references : ∀ id shape, graph.shape? id = some shape → shape.isNode = false →
    shape.constraints.isComposite = false → ∀ target ∈ shape.constraints.nodes,
      ∃ use item, s.use? id = some use ∧ s.itemsAt? shape.isList use.item = some item ∧
        s.RefersTo target item
  objects : ∀ id shape, graph.shape? id = some shape → shape.declaresObject = true →
    ∃ use t o, s.use? id = some use ∧ s.content? use.item = some (.type t) ∧ t.shape = id ∧
      t.body = .object o ∧ s.HasParent shape o.parent ∧
      List.Forall₂ (s.HasProperty graph) shape.properties o.properties
  composites : ∀ id shape, graph.shape? id = some shape → shape.constraints.isComposite = true →
    ∃ use item t connective members ofObjects slots, s.use? id = some use ∧
      s.itemsAt? shape.isList use.item = some item ∧ s.content? item = some (.type t) ∧
      shape.constraints.composition? = some (connective, members) ∧
      t.body = .composite connective ofObjects slots ∧ List.Forall₂ s.RefersTo members slots

end Schema

namespace Inferred

variable (i : Inferred graph table strict schema)

/-- Where a slot that inference gave ends up in the schema. -/
abbrev located (x : Slot) : Slot := Arena.renumber i.keep (i.place x)

theorem exists_built {id : Node} {shape : Shape} (hs : graph.shape? id = some shape) :
    ∃ use slot next name finding, Built graph i.state id use slot next shape name finding ∧
      schema.use? id = some ⟨use.cardinality, i.located use.item⟩ ∧ i.place use.item ∈ i.keep := by
  have hid : id ∈ graph.ids := ShapesGraph.mem_ids.2 ⟨shape, hs⟩
  obtain ⟨use, hd⟩ := i.final.complete id hid
  obtain ⟨slot, next, shape', name, finding, hb⟩ := i.final.lawful.built id use hd
  cases hb.found.symm.trans hs
  exact ⟨use, slot, next, name, finding, hb, i.use?_eq hid hd, i.mem_keep_of_done hid hd⟩

/-- A slot that stands for a shape has the place of its items. -/
theorem exists_done_of_denotes {x : Slot} {id : Node} (hx : i.state.Denotes x id) :
    ∃ use, i.state.Done id use ∧ id ∈ graph.ids ∧ i.place x = i.place use.item := by
  obtain ⟨use, hd⟩ := i.final.exists_done_of_denotes hx
  obtain ⟨_, _, shape, _, _, hb⟩ := i.final.lawful.built id use hd
  exact ⟨use, hd, ShapesGraph.mem_ids.2 ⟨shape, hb.found⟩,
    i.final.replaceSlot_of_denotes i.replacements hx hd⟩

/-- **Every slot that stands for a shape ends up where the entry of the shape says.** -/
theorem refersTo_of_denotes {x : Slot} {id : Node} (hx : i.state.Denotes x id) :
    schema.RefersTo id (i.located x) := by
  obtain ⟨use, hd, hid, hplace⟩ := i.exists_done_of_denotes hx
  exact ⟨_, i.use?_eq hid hd, congrArg (Arena.renumber i.keep) hplace.symm⟩

theorem place_mem_keep {x y : Slot} {t : ItemType} (hx : i.state.slots[x]? = some (.type t))
    (hk : i.place x ∈ i.keep) (hy : y ∈ (Content.type t).children) : i.place y ∈ i.keep := by
  rw [Settled.place, i.final.replaceSlot_of_type i.replacements hx] at hk
  refine i.closed.links x hk _ ⟨_, by rw [InferenceState.getElem?_arena, hx]; rfl, ?_⟩
  rw [Content.children_mapSlots, Content.children, InferenceState.edges_settleContent]
  exact List.mem_map_of_mem hy

/-- What the slot of a type that is no object holds in the schema. -/
theorem content?_located {x : Slot} {t : ItemType} (hx : i.state.slots[x]? = some (.type t))
    (ho : ∀ o, t.body ≠ .object o) (hk : i.place x ∈ i.keep) : schema.content? (i.located x) =
      some (.type { t with body := (t.body.mapSlots i.place).mapSlots (Arena.renumber i.keep) }) := by
  have hplace : i.place x = x := i.final.replaceSlot_of_type i.replacements hx
  have hsettle : i.state.settleContent (.type t) = .type t := by
    obtain ⟨shape, name, doc, body⟩ := t
    cases body with
    | object o => exact absurd rfl (ho o)
    | _ => rfl
  rw [i.content?_eq hk, hplace, hx, Option.map_some, hsettle]
  rfl

include i in
theorem coherent_references {id : Node} {shape : Shape} (hs : graph.shape? id = some shape)
    (hn : shape.isNode = false) {target : Node}
    (ht : target ∈ shape.constraints.nodes) : ∃ use item, schema.use? id = some use ∧
      schema.itemsAt? shape.isList use.item = some item ∧ schema.RefersTo target item := by
  obtain ⟨use, slot, next, name, finding, hb, huse, hkeep⟩ := i.exists_built hs
  have hitem := hb.item
  have hown := hb.own
  cases hb.fits with
  | composite _ _ hnodes => simp [hnodes] at ht
  | object ho => simp [Shape.declaresObject, hn] at ho
  | value _ _ hnodes => simp [hnodes] at ht
  | @reference target' x _ _ hnodes hd =>
      rw [hnodes, List.mem_singleton] at ht
      subst ht
      refine ⟨_, i.located x, huse, ?_, i.refersTo_of_denotes hd⟩
      cases hl : shape.isList with
      | false =>
          simp only [Finding.item, hl] at hitem
          simp [Schema.itemsAt?, hitem]
      | true =>
          simp only [Finding.item, hl] at hitem
          simp only [Finding.own, hl] at hown
          subst hitem
          have hcontent := i.content?_located hown (by simp [Shape.itemType]) hkeep
          simp [Schema.itemsAt?, hcontent, Shape.itemType, Body.mapSlots]

include i in
theorem coherent_composites {id : Node} {shape : Shape} (hs : graph.shape? id = some shape)
    (hc : shape.constraints.isComposite = true) :
    ∃ use item t connective members ofObjects slots, schema.use? id = some use ∧
      schema.itemsAt? shape.isList use.item = some item ∧ schema.content? item = some (.type t) ∧
      shape.constraints.composition? = some (connective, members) ∧
      t.body = .composite connective ofObjects slots ∧ List.Forall₂ schema.RefersTo members slots := by
  obtain ⟨use, slot, next, name, finding, hb, huse, hkeep⟩ := i.exists_built hs
  have hitem := hb.item
  have hown := hb.own
  cases hb.fits with
  | object ho => simp [Shape.isComposite_of_declaresObject ho] at hc
  | reference hc' => simp [hc'] at hc
  | value hc' => simp [hc'] at hc
  | @composite connective members ofObjects slots hcomp _ _ _ hmembers =>
      have hrefers : List.Forall₂ schema.RefersTo members (slots.map i.located) := by
        rw [List.forall₂_map_right_iff]
        exact List.Forall₂.flip (hmembers.imp fun _ _ => i.refersTo_of_denotes)
      simp only [Finding.item] at hitem
      subst hitem
      cases hl : shape.isList with
      | false =>
          simp only [Finding.own, hl] at hown
          have hcontent := i.content?_located hown (by simp [Shape.itemType]) hkeep
          exact ⟨_, _, _, connective, members, ofObjects, slots.map i.located, huse, rfl, hcontent, hcomp,
            by simp [Shape.itemType, Body.mapSlots], hrefers⟩
      | true =>
          simp only [Finding.own, hl] at hown
          have hinner := hb.inner (.type (shape.itemType name (.composite connective ofObjects slots)))
            (by simp [Finding.inner, hl])
          have hnext : i.place next ∈ i.keep :=
            i.place_mem_keep hown hkeep (by simp [Content.children, Content.edges, Content.type?,
              Shape.itemType, Body.edges])
          have hcontent := i.content?_located hown (by simp [Shape.itemType]) hkeep
          have hcontent' := i.content?_located hinner (by simp [Shape.itemType]) hnext
          refine ⟨_, i.located next, _, connective, members, ofObjects, slots.map i.located, huse, ?_,
            hcontent', hcomp, by simp [Shape.itemType, Body.mapSlots], hrefers⟩
          simp [Schema.itemsAt?, hcontent, Shape.itemType, Body.mapSlots]

/-- **The final use of a property is the entry of its shape**, also if it was handed out early. -/
theorem use?_property {id : Node} {p : Property} (hp : p.shape = id)
    (hans : i.state.Answered ⟨.property, id⟩ p.use) : schema.use? id =
      some (((i.state.settleProperty p).mapSlot i.place).mapSlot (Arena.renumber i.keep)).use := by
  obtain ⟨use, hd, hid, hplace⟩ := i.exists_done_of_denotes hans.denotes
  have hcard : (i.state.settleProperty p).use = ⟨use.cardinality, p.use.item⟩ := by
    unfold InferenceState.settleProperty
    rw [hp, i.use?_state.2 hd]
    split
    · rfl
    · rename_i hout
      rcases hans.current rfl with hmem | hd'
      · exact absurd (List.contains_iff_mem.2 hmem) hout
      · rw [hd.unique hd']
  rw [i.use?_eq hid hd]
  simp only [Property.mapSlot, TypeUse.mapSlot, hcard]
  rw [hplace]

theorem settleProperty_shape {s : InferenceState} {p : Property} :
    (s.settleProperty p).shape = p.shape ∧ (s.settleProperty p).path = p.path := by
  unfold InferenceState.settleProperty
  split
  · split <;> exact ⟨rfl, rfl⟩
  · exact ⟨rfl, rfl⟩

theorem hasParent {shape : Shape} {parent : Option Slot} (h : FitsParent i.state shape parent) :
    schema.HasParent shape ((parent.map i.place).map (Arena.renumber i.keep)) := by
  rcases h with ⟨hn, rfl⟩ | ⟨ancestor, slot, hn, rfl, hd⟩
  · exact Or.inl ⟨hn, rfl⟩
  · exact Or.inr ⟨ancestor, i.located slot, hn, rfl, i.refersTo_of_denotes hd⟩

theorem hasProperty {id : Node} {p : Property} (h : FitsProperty graph i.state id p) :
    schema.HasProperty graph id
      (((i.state.settleProperty p).mapSlot i.place).mapSlot (Arena.renumber i.keep)) := by
  obtain ⟨⟨shape, form, hs, hf, hpath, hid, -⟩, hans⟩ := h
  obtain ⟨hshape, hpath'⟩ := settleProperty_shape (s := i.state) (p := p)
  exact ⟨hshape.trans hid, i.use?_property hid hans, shape, form, hs, hf, hpath.trans (congrArg some hpath'.symm)⟩

include i in
theorem coherent_objects {id : Node} {shape : Shape} (hs : graph.shape? id = some shape)
    (ho : shape.declaresObject = true) : ∃ use t o, schema.use? id = some use ∧
      schema.content? use.item = some (.type t) ∧ t.shape = id ∧ t.body = .object o ∧
      schema.HasParent shape o.parent ∧
      List.Forall₂ (schema.HasProperty graph) shape.properties o.properties := by
  obtain ⟨use, slot, next, name, finding, hb, huse, hkeep⟩ := i.exists_built hs
  obtain ⟨body, rfl, hparent, hprops⟩ := hb.fits.exists_object ho
  have hitem := hb.item
  have hown := hb.own
  simp only [Finding.item] at hitem
  simp only [Finding.own, Shape.isList_of_declaresObject ho] at hown
  subst hitem
  have hplace : i.place use.item = use.item := i.final.replaceSlot_of_type i.replacements hown
  have hcontent := i.content?_eq hkeep
  rw [hplace, hown, Option.map_some] at hcontent
  refine ⟨_, _, _, huse, hplace.symm ▸ hcontent, hb.id_shape, rfl, i.hasParent hparent, ?_⟩
  rw [List.forall₂_map_right_iff, List.forall₂_map_right_iff, List.forall₂_map_right_iff]
  exact hprops.imp fun _ _ => i.hasProperty

end Inferred

/-- **Every inferred schema is coherent.** -/
theorem infer_coherent (h : graph.infer table strict = .ok schema) : schema.Coherent graph := by
  obtain ⟨i⟩ := exists_inferred h
  exact {
    references := fun _ _ hs hn _ _ ht => i.coherent_references hs hn ht
    objects := fun _ _ hs ho => i.coherent_objects hs ho
    composites := fun _ _ hs hc => i.coherent_composites hs hc }

theorem people_coherent : ∃ schema, ShapesGraph.people.infer default true = .ok schema ∧
    schema.Coherent ShapesGraph.people := by
  obtain ⟨schema, h⟩ := ShapesGraph.exists_schema_people
  exact ⟨schema, h, infer_coherent h⟩

end ShapeTypes
