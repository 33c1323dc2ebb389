import ShapeTypes.Proofs.Inference.Naming
import ShapeTypes.Proofs.Inference.Plain
import ShapeTypes.Proofs.Schema.OwnConstraints

/-!
# What a schema of a plain graph is

Without composites and defaults a schema can be described by its graph alone, up to the slots that its types
are in: every slot is that of a shape, or behind the list of one, and every reference is to the entry of a shape.

* `Schema.DescribesBody`, `Schema.Describes` — a type is the one that its shape and the entries of others describe,
  in the slot that the entry of its shape leads to;
* `Schema.Described` — a schema is what the graph and the prefix table describe;
* `Settled.exists_laidOut` — where the types are that inference leaves;
  `Inferred.mem_keep_of_type` — **all of them are kept**;
* `infer_described` — **every inferred schema of a plain graph is described by it.**
-/

namespace ShapeTypes

open Rdf Relation

variable {graph : ShapesGraph} {table : PrefixTable} {strict : Bool} {schema : Schema}

def Body.isList : Body → Bool
  | .list _ => true
  | _ => false

theorem Body.isList_iff {body : Body} : body.isList = true ↔ ∃ item, body = .list item := by
  cases body with
  | list item => exact iff_of_true rfl ⟨item, rfl⟩
  | _ => exact iff_of_false Bool.false_ne_true nofun

theorem Fits.isList_eq {s : InferenceState} {shape : Shape} {body : Body} (h : Fits graph s shape (.type body)) :
    body.isList = false := by
  refine Bool.eq_false_iff.2 fun hl => ?_
  obtain ⟨item, hitem⟩ := Body.isList_iff.1 hl
  exact h.ne_list item hitem

/-- What an object holds is what its shape declares, its parent and properties apart. -/
theorem Finds.object_eq {shape : Shape} {s t t' : InferenceState} {refs props : List TypeUse} {o : ObjectBody}
    (h : Finds graph shape s refs t props (.type (.object o)) t') : o = {
      parent := o.parent, properties := o.properties
      closed := shape.constraints.closed.getD false
      ignoredProperties := shape.constraints.ignoredProperties
      classes := shape.constraints.classes
      annotations := graph.annotationsInForce shape } := by
  cases h with
  | object => rfl
  | value _ _ _ hb => cases (gives_valueBody hb).1

/-- The type of single values that a shape describes in a scope of its own, with the names of a table. -/
def Shape.valueType (table : PrefixTable) (shape : Shape) : Body :=
  let c := shape.constraints
  let oneOf := c.oneOf.getD []
  match c.datatype with
  | some datatype =>
    .literal datatype (c.hasValues.filterMap (·.literal?)) (oneOf.filterMap (·.literal?)) c.facets
  | none =>
    match c.oneOf.bind enumeratedIris? with
    | some iris => .enumeration (iris.map fun i => (i, .ofIri table i))
    | none =>
      match identifierKind? c.nodeKind (!c.classes.isEmpty) with
      | some kind => .identifier kind (c.hasValues.filterMap (·.iri?)) (oneOf.filterMap (·.iri?)) c.classes
      | none => .term c.nodeKind c.hasValues oneOf

theorem Shape.isValue_valueType (shape : Shape) : (shape.valueType table).isValue = true := by
  unfold valueType
  simp only
  split
  · rfl
  · split
    · rfl
    · split <;> rfl

/-- **In a scope of its own a shape has the type of single values that it describes.** -/
theorem ValueOf.eq_valueType {shape : Shape} {stack : ConstraintStack} {body : Body} (h : stack.IsOf shape)
    (hb : ValueOf shape.constraints stack body)
    (hm : body.members = body.iris.map fun i => (i, .ofIri table i)) : body = shape.valueType table := by
  unfold Shape.valueType
  cases hb with
  | literal hd => simp only [hd, h.hasValues?_getD, h.oneOf?_getD]
  | enumeration hd hiris =>
      rw [h.enumerationValues?_eq] at hiris
      simp only [hd, hiris]
      exact congrArg Body.enumeration hm
  | identifier hd hiris hkind =>
      rw [h.enumerationValues?_eq] at hiris
      simp only [hd, hiris, hkind, h.hasValues?_getD, h.oneOf?_getD]
  | term hd hiris hkind =>
      rw [h.enumerationValues?_eq] at hiris
      simp only [hd, hiris, hkind, h.hasValues?_getD, h.oneOf?_getD]

/-! ## Described schemas -/

namespace Schema

/-- The slot of a type by the entry of its shape: that of the entry for a list, that of the items there for any
other type. -/
def slotOf? (s : Schema) (t : ItemType) : Option Slot :=
  (s.use? t.shape).map fun use => if t.body.isList then use.item else s.itemSlot use.item

theorem itemSlot_of_list {s : Schema} {slot item : Slot} {t : ItemType} (h : s.content? slot = some (.type t))
    (hl : t.body = .list item) : s.itemSlot slot = item := by
  obtain ⟨shape, name, doc, body⟩ := t
  cases hl
  rw [itemSlot, h]

theorem itemSlot_of_not_list {s : Schema} {slot : Slot} {t : ItemType} (h : s.content? slot = some (.type t))
    (hl : t.body.isList = false) : s.itemSlot slot = slot := by
  obtain ⟨shape, name, doc, body⟩ := t
  rw [itemSlot, h]
  cases body with
  | list => cases hl
  | _ => rfl

/-- A property has what its property shape declares, with the name of the table and the entry of its shape. -/
structure IsProperty (s : Schema) (graph : ShapesGraph) (table : PrefixTable) (id : Node) (p : Property) :
    Prop where
  declared : DescribesProperty graph id p
  named : ∃ shape, graph.shape? id = some shape ∧ p.name = .ofShape table shape
  used : s.use? id = some p.use

/-- The type of a shape: an object; single values; the items of another shape, as a list; or its own items, as
a list. -/
inductive DescribesBody (s : Schema) (graph : ShapesGraph) (table : PrefixTable) (shape : Shape) : Body → Prop where
  | object {parent properties} : shape.declaresObject = true → s.HasParent shape parent →
      List.Forall₂ (s.IsProperty graph table) shape.properties properties →
      DescribesBody s graph table shape (.object {
        parent, properties
        closed := shape.constraints.closed.getD false
        ignoredProperties := shape.constraints.ignoredProperties
        classes := shape.constraints.classes
        annotations := graph.annotationsInForce shape })
  | value : shape.declaresObject = false → shape.constraints.nodes = [] →
      DescribesBody s graph table shape (shape.valueType table)
  | listOf {target item} : shape.isList = true → shape.constraints.nodes = [target] → s.RefersTo target item →
      DescribesBody s graph table shape (.list item)
  | list {t item} : shape.isList = true → shape.constraints.nodes = [] → s.content? item = some (.type t) →
      t.shape = shape.id → t.body.isList = false → DescribesBody s graph table shape (.list item)

/-- A type in a slot is the one that its shape describes, with the name of the table, in the slot that the entry
of its shape leads to. -/
structure Describes (s : Schema) (graph : ShapesGraph) (table : PrefixTable) (slot : Slot) (t : ItemType) :
    Prop where
  place : s.slotOf? t = some slot
  described : ∃ shape, graph.shape? t.shape = some shape ∧ t.name = .ofShape table shape ∧ t.doc = shape.doc ∧
    s.DescribesBody graph table shape t.body

/-- A member of an enumeration of the schema. -/
def Enumerates (s : Schema) (i : Iri) : Prop :=
  ∃ (slot : Slot) (t : ItemType), s.content? slot = some (.type t) ∧ i ∈ t.body.iris

/-- **A schema is what the graph and the prefix table describe.** Shapes have the cardinality of their own bounds,
and the type of the last shape that they stand in for; all slots hold types that are described; and what is
recorded of names is that of the shapes and of the members of enumerations. -/
structure Described (s : Schema) (graph : ShapesGraph) (table : PrefixTable) : Prop where
  shapes : s.shapes = graph.ids
  names : ∀ e ∈ s.entries, ∃ shape, graph.shape? e.shape = some shape ∧ e.name = .ofShape table shape
  cardinality : ∀ id shape, graph.shape? id = some shape → ∃ use, s.use? id = some use ∧
    (shape.isNode = true → use.cardinality = .plain none) ∧
    (shape.isNode = false → Cardinality.ofBounds shape.constraints.minCount shape.constraints.maxCount none
      shape.isMutable = .ok use.cardinality)
  items : ∀ id use, s.use? id = some use → ∃ last shape t, ReflTransGen graph.StandsInFor id last ∧
    graph.standIn? last = none ∧ graph.shape? last = some shape ∧ s.content? use.item = some (.type t) ∧
      t.shape = last ∧ t.body.isList = shape.isList
  slots : ∀ slot c, s.content? slot = some c → ∃ t, c = .type t ∧ s.Describes graph table slot t
  record : ∃ book : NameBook, book.record = s.record ∧
    book.Names table (fun shape => graph.shape? shape.id = some shape) s.Enumerates

end Schema

/-! ## Where types are -/

namespace Settled

variable (i : Settled graph table strict)

theorem wellNamed : WellNamed graph table i.state := by
  obtain ⟨us, hv⟩ := visit_of_resolveAll i.run
  exact hv.wellNamed .empty

/-- **Where a type is that inference leaves**: in the slot of the items of its shape, or behind the list there. -/
theorem exists_laidOut {x : Slot} {t : ItemType} (hx : i.state.slots[x]? = some (.type t)) :
    ∃ id use, ∃ o : Origin graph strict id use i.state, t.shape = id ∧
      LaidOut graph i.state o.resolution.shape o.resolution.name use.item o.resolution.finding ∧
        (x = use.item ∨ o.resolution.finding = .type t.body ∧
          ∃ u, i.state.slots[use.item]? = some (.type u) ∧ u.body = .list x) := by
  obtain ⟨use, slot, next, shape, name, finding, hb, hnone, hcases⟩ := i.final.exists_built_of_type hx
  obtain ⟨o⟩ := exists_origin_of_resolveAll i.run hb.done
  refine ⟨t.shape, use, o, rfl, o.built.laidOut hnone, ?_⟩
  rcases hcases with heq | ⟨hfinding, hlist⟩
  · exact Or.inl heq
  · exact Or.inr ⟨(o.built.finding_unique i.final.lawful hb).trans hfinding, hlist⟩

end Settled

namespace Inferred

variable (i : Inferred graph table strict schema) {x : Slot} {t t' : ItemType}

/-- **All types that inference leaves are kept.** -/
theorem mem_keep_of_type (hx : i.state.slots[x]? = some (.type t)) : x ∈ i.keep := by
  obtain ⟨id, use, o, -, -, hcases⟩ := i.exists_laidOut hx
  have hkeep := i.mem_keep_of_done (ShapesGraph.mem_ids.2 ⟨_, o.shape?_id⟩) o.built.done
  rcases hcases with rfl | ⟨-, u, hu, hlist⟩
  · rwa [i.place_of_type hx] at hkeep
  · have hnext := i.place_mem_keep hu hkeep
      (by simp [Content.children, Content.edges, Content.type?, hlist, Body.edges] : x ∈ (Content.type u).children)
    rwa [i.place_of_type hx] at hnext

theorem finished_eq (h : .type t' = i.finished (.type t)) : t'.shape = t.shape ∧ t'.name = t.name ∧ t'.doc = t.doc ∧
    t'.body.isList = t.body.isList ∧ t'.body.iris = t.body.iris := by
  obtain ⟨shape, name, doc, body⟩ := t
  cases body <;> cases h <;> exact ⟨rfl, rfl, rfl, rfl, rfl⟩

theorem body_of_list (h : .type t' = i.finished (.type t)) {item : Slot} (hl : t.body = .list item) :
    t'.body = .list (i.located item) := by
  obtain ⟨shape, name, doc, body⟩ := t
  cases hl
  cases h
  rfl

theorem body_of_isValue (h : .type t' = i.finished (.type t)) (hv : t.body.isValue = true) : t'.body = t.body := by
  obtain ⟨shape, name, doc, body⟩ := t
  cases body with
  | object => cases hv
  | composite => cases hv
  | list => cases hv
  | _ => cases h; rfl

/-- **The slot of a type in the schema.** -/
theorem exists_finished (hx : i.state.slots[x]? = some (.type t)) :
    ∃ t', schema.content? (i.located x) = some (.type t') ∧ .type t' = i.finished (.type t) := by
  rw [located, i.place_of_type hx]
  exact i.content?_renumber hx (i.mem_keep_of_type hx)

/-- **The members of enumerations are those that inference leaves.** -/
theorem enumerates_iff {m : Iri} : schema.Enumerates m ↔ i.state.Enumerates m := by
  constructor
  · rintro ⟨slot, t', hcontent, hm⟩
    obtain ⟨x, -, t, hx, hfinished⟩ := i.exists_source hcontent
    rw [(i.finished_eq hfinished).2.2.2.2] at hm
    exact ⟨x, t, hx, hm⟩
  · rintro ⟨x, t, hx, hm⟩
    obtain ⟨t', hcontent, hfinished⟩ := i.exists_finished hx
    rw [← (i.finished_eq hfinished).2.2.2.2] at hm
    exact ⟨_, t', hcontent, hm⟩

/-! ## What types are -/

theorem isProperty {id : Node} {p : Property} (h : FitsProperty graph i.state id p)
    (hname : ∃ shape, graph.shape? p.shape = some shape ∧ p.name = .ofShape table shape) :
    schema.IsProperty graph table id (((i.state.settleProperty p).mapSlot i.place).mapSlot (Arena.renumber i.keep)) := by
  obtain ⟨⟨shape, form, hs, hf, hpath, rfl, hrest⟩, hanswered⟩ := h
  obtain ⟨use, huse⟩ : ∃ use, i.state.settleProperty p = { p with use } := by
    unfold InferenceState.settleProperty
    split
    · split <;> exact ⟨_, rfl⟩
    · exact ⟨_, rfl⟩
  refine ⟨?_, ?_, i.use?_property rfl hanswered⟩
  · rw [huse]
    exact ⟨shape, form, hs, hf, hpath, rfl, hrest⟩
  · rw [huse]
    exact hname

/-- **A type that a shape was found to be is the one that it describes.** -/
theorem describesBody (hp : graph.IsPlain) {id : Node} {use : TypeUse} (o : Origin graph strict id use i.state)
    {name : Name} {body : Body} (hfinding : o.resolution.finding = .type body)
    (hx : i.state.slots[x]? = some (.type (o.resolution.shape.itemType name body)))
    (h : .type t' = i.finished (.type (o.resolution.shape.itemType name body))) :
    schema.DescribesBody graph table o.resolution.shape t'.body := by
  have hfits := o.built.fits
  have hfinds := o.resolution.finds
  have hnamed := i.wellNamed.types x _ hx
  rw [hfinding] at hfits hfinds
  cases hfits with
  | composite hc => cases (hp.composition?_eq o.shape?_id).symm.trans hc
  | @object ob ho hparent hproperties =>
      have hbody := hfinds.object_eq
      have hall := (List.forall₂_and_left ob.properties o.resolution.shape.properties).2
        ⟨hnamed.properties, List.Forall₂.flip (R := flip _) hproperties⟩
      cases h
      rw [hbody]
      refine .object ho (i.hasParent hparent) ?_
      simp only [List.forall₂_map_right_iff]
      exact List.Forall₂.flip (hall.imp fun _ _ h => i.isProperty h.2 h.1)
  | value hc ho hn hvalue =>
      have hown := o.isOf fun _ => hp.not_composes
      rw [i.body_of_isValue h hvalue]
      show schema.DescribesBody graph table o.resolution.shape body
      rw [(hfinds.valueOf hvalue o.resolution.scopes₂).eq_valueType hown hnamed.members]
      exact .value ho hn

/-- The schema has what inference leaves in the slot of a type. -/
theorem content?_of_finished (hx : i.state.slots[x]? = some (.type t)) (h : .type t' = i.finished (.type t)) :
    schema.content? (i.located x) = some (.type t') := by
  obtain ⟨t'', hcontent, hfinished⟩ := i.exists_finished hx
  rw [hcontent, hfinished, ← h]

/-- **A type in a slot is the one that its shape describes.** -/
theorem describes (hp : graph.IsPlain) (hx : i.state.slots[x]? = some (.type t))
    (h : .type t' = i.finished (.type t)) : schema.Describes graph table (i.located x) t' := by
  obtain ⟨id, use, o, hid, hlaid, hcases⟩ := i.exists_laidOut hx
  obtain ⟨hid', hname, hdoc, hlist, -⟩ := i.finished_eq h
  obtain ⟨shape, hs, hnamed⟩ := (i.wellNamed.types x t hx).name
  rw [hid] at hs hid'
  obtain rfl : shape = o.resolution.shape := Option.some.inj (hs.symm.trans o.shape?_id)
  have hcontent := i.content?_of_finished hx h
  have hslot : schema.slotOf? t' =
      some (if t.body.isList then i.located use.item else schema.itemSlot (i.located use.item)) := by
    rw [Schema.slotOf?, hid', i.use?_eq (ShapesGraph.mem_ids.2 ⟨_, hs⟩) o.built.done, Option.map_some, hlist]
  have hdescribes : t.doc = o.resolution.shape.doc →
      schema.slotOf? t' = some (i.located x) → schema.DescribesBody graph table o.resolution.shape t'.body →
      schema.Describes graph table (i.located x) t' := fun hown hplace hbody =>
    ⟨hplace, _, hid'.symm ▸ hs, hname.trans hnamed, hdoc.trans hown, hbody⟩
  generalize hfinding : o.resolution.finding = finding at hlaid hcases
  cases hlaid with
  | item hl hfits hown =>
      rcases hcases with rfl | ⟨-, u, hu, hulist⟩
      · cases hx.symm.trans hown
        refine hdescribes rfl ?_ (i.describesBody hp o hfinding hx h)
        rw [hslot, if_neg (by simp [Shape.itemType, hfits.isList_eq]),
          Schema.itemSlot_of_not_list hcontent (hlist.trans hfits.isList_eq)]
      · cases hu.symm.trans hown
        exact absurd hulist (hfits.ne_list x)
  | list hl hfits hown hnext =>
      rcases hcases with rfl | ⟨-, u, hu, hulist⟩
      · cases hx.symm.trans hown
        obtain ⟨u, hu, hfinished⟩ := i.exists_finished hnext
        obtain ⟨huid, -, -, hulist, -⟩ := i.finished_eq hfinished
        refine hdescribes rfl (by rw [hslot]; rfl) ?_
        rw [i.body_of_list h rfl]
        exact .list hl (hfits.nodes_of_isList hl) hu huid (hulist.trans hfits.isList_eq)
      · cases hu.symm.trans hown
        cases hulist
        cases hx.symm.trans hnext
        obtain ⟨u, hu', hfinished⟩ := i.exists_finished hu
        refine hdescribes rfl ?_ (i.describesBody hp o hfinding hx h)
        rw [hslot, if_neg (by simp [Shape.itemType, hfits.isList_eq]),
          Schema.itemSlot_of_list hu' (i.body_of_list hfinished rfl)]
  | listOf hl hn hnodes hd hown =>
      rcases hcases with rfl | ⟨hf, -⟩
      · cases hx.symm.trans hown
        refine hdescribes rfl (by rw [hslot]; rfl) ?_
        rw [i.body_of_list h rfl]
        exact .listOf hl hnodes (i.refersTo_of_denotes hd)
      · cases hf

end Inferred

/-- The own slot of a shape that stands in for none holds a list exactly if the shape is one. -/
theorem LaidOut.isList_eq {s : InferenceState} {shape : Shape} {name : Name} {x : Slot} {finding : Finding}
    (h : LaidOut graph s shape name x finding) {t : ItemType} (ht : s.slots[x]? = some (.type t)) :
    t.body.isList = shape.isList := by
  cases h with
  | item hl hfits hx =>
      cases ht.symm.trans hx
      exact hfits.isList_eq.trans hl.symm
  | list hl _ hx =>
      cases ht.symm.trans hx
      exact hl.symm
  | listOf hl _ _ _ hx =>
      cases ht.symm.trans hx
      exact hl.symm

theorem Schema.mem_shapes_of_use? {s : Schema} {id : Node} {use : TypeUse} (h : s.use? id = some use) :
    id ∈ s.shapes := by
  obtain ⟨entry, hentry, -⟩ := Option.map_eq_some_iff.1 h
  have hid : entry.shape = id := by simpa using List.find?_some hentry
  exact hid ▸ List.mem_map_of_mem (List.mem_of_find?_eq_some hentry)

namespace Inferred

variable (i : Inferred graph table strict schema)

include i

theorem name_of_mem {e : Entry} (he : e ∈ schema.entries) :
    ∃ shape, graph.shape? e.shape = some shape ∧ e.name = .ofShape table shape := by
  rw [i.entries_eq] at he
  obtain ⟨⟨id, use⟩, hmem, rfl⟩ := List.mem_map.1 he
  obtain ⟨id', hid, heq⟩ := List.mem_filterMap.1 hmem
  obtain ⟨use', hdone, heq⟩ := Option.map_eq_some_iff.1 heq
  cases heq
  obtain ⟨shape, hs⟩ := ShapesGraph.mem_ids.1 hid
  obtain rfl := (ShapesGraph.shape?_eq_some hs).2
  refine ⟨shape, hs, ?_⟩
  show (i.state.names.shapes.lookup shape.id).getD default = _
  rw [i.wellNamed.book.shape shape ⟨hs, _, i.use?_state.1 hdone⟩]
  rfl

/-- Without defaults and composites, a cardinality is that of the shape's own bounds. -/
theorem exists_cardinality (hp : graph.IsPlain) {id : Node} {shape : Shape} (hs : graph.shape? id = some shape) :
    ∃ use, schema.use? id = some use ∧ (shape.isNode = true → use.cardinality = .plain none) ∧
      (shape.isNode = false → Cardinality.ofBounds shape.constraints.minCount shape.constraints.maxCount none
        shape.isMutable = .ok use.cardinality) := by
  obtain ⟨use, o, rfl⟩ := i.exists_origin hs
  refine ⟨_, i.use?_eq (ShapesGraph.mem_ids.2 ⟨_, hs⟩) o.built.done, fun hn => ?_, fun hn => ?_⟩
  · have hfinal := o.finalCardinality
    rwa [FinalCardinality, if_pos hn] at hfinal
  · obtain ⟨d, hd, hbounds⟩ := o.finalCardinality.exists_ofBounds hn
    have hown := o.isOf fun _ => hp.not_composes
    rw [hown.defaultValue?_eq, hp.noDefault _ (ShapesGraph.shape?_eq_some hs).1, Option.isSome_none,
      Option.isSome_eq_false_iff, Option.isNone_iff_eq_none] at hd
    rwa [hown.minCount?_eq, hown.maxCount?_eq, hown.mutable_eq, hd] at hbounds

/-- The slot of an entry holds the type of the last shape that its shape stands in for. -/
theorem exists_last {id : Node} {use : TypeUse} (huse : schema.use? id = some use) :
    ∃ last shape t, ReflTransGen graph.StandsInFor id last ∧ graph.standIn? last = none ∧
      graph.shape? last = some shape ∧ schema.content? use.item = some (.type t) ∧ t.shape = last ∧
        t.body.isList = shape.isList := by
  have hid : id ∈ graph.ids := i.shapes_eq ▸ Schema.mem_shapes_of_use? huse
  obtain ⟨use₀, hd⟩ := i.final.complete id hid
  obtain rfl := Option.some.inj ((i.use?_eq hid hd).symm.trans huse)
  obtain ⟨last, use', t, hpath, hnone, hlast, hplace, ht, hshape⟩ := i.final.exists_last i.replacements hd
  obtain ⟨_, _, shape, _, _, hb⟩ := i.final.lawful.built last use' hlast
  obtain ⟨t', hcontent, hfinished⟩ := i.exists_finished ht
  obtain ⟨hid', -, -, hlist, -⟩ := i.finished_eq hfinished
  rw [located, i.place_of_type ht, ← hplace] at hcontent
  exact ⟨last, shape, t', hpath, hnone, hb.found, hcontent, hid'.trans hshape,
    hlist.trans ((hb.laidOut hnone).isList_eq ht)⟩

theorem exists_describes (hp : graph.IsPlain) {slot : Slot} {c : Content} (hc : schema.content? slot = some c) :
    ∃ t, c = .type t ∧ schema.Describes graph table slot t := by
  obtain ⟨x, hx, rfl⟩ := i.exists_mem_keep (List.getElem?_eq_some_iff.1 hc).1
  obtain ⟨t, ht⟩ := i.exists_type_of_mem_keep hx
  obtain ⟨t', hcontent, hfinished⟩ := i.content?_renumber ht hx
  have hdescribes := i.describes hp ht hfinished
  rw [located, i.place_of_type ht] at hdescribes
  exact ⟨t', Option.some.inj (hc.symm.trans hcontent), hdescribes⟩

/-- The names recorded are those of all shapes and of the members of enumerations. -/
theorem names : i.state.names.Names table (fun shape => graph.shape? shape.id = some shape) schema.Enumerates := by
  refine i.wellNamed.book.congr (fun shape => ⟨fun hs => ?_, fun hknown => hknown.1⟩) fun _ => i.enumerates_iff
  obtain ⟨use, hd⟩ := i.final.complete shape.id (ShapesGraph.mem_ids.2 ⟨shape, hs⟩)
  exact ⟨hs, _, hd⟩

end Inferred

/-- **Every inferred schema of a plain graph is described by it.** -/
theorem infer_described (hp : graph.IsPlain) (h : graph.infer table strict = .ok schema) :
    schema.Described graph table := by
  obtain ⟨i⟩ := exists_inferred h
  exact {
    shapes := i.shapes_eq
    names := fun _ => i.name_of_mem
    cardinality := fun _ _ => i.exists_cardinality hp
    items := fun _ _ => i.exists_last
    slots := fun _ _ => i.exists_describes hp
    record := ⟨i.state.names, (congrArg Schema.record i.schema_eq).symm, i.names⟩ }

end ShapeTypes
