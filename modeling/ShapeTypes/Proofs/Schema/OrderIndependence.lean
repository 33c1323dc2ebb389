import ShapeTypes.Proofs.Schema.Acceptance
import ShapeTypes.Proofs.Schema.Described

/-!
# The order of insertion does not matter

Two orders visit cyclic graphs differently: other shapes are reached from within themselves, slots are handed out in
another order, and names are recorded in another one. In a plain graph both come to the same.

* `Schema.Renumbered` — two schemas are the same up to the numbers of slots and the order of entries;
* `ItemType.Matches` — types of the same shape, of which both or none are lists; `Schema.carry` — from a slot of one
  schema to the one with the matching type of another;
* `Schema.Described.eq_mapSlots` — **schemas that the same graph describes hold the same in matching slots**;
  `Schema.Described.renumbered` — **they are renumbered**;
* `infer_order_independent` — **plain graphs have the same schema in every order of insertion.**
-/

namespace ShapeTypes

open Rdf Relation

variable {graph graph' : ShapesGraph} {table : PrefixTable} {strict : Bool}

/-- Two schemas are the same up to the numbers of slots and the order of entries: slots correspond to each other
and hold the same, entries are the same, and names are resolved to the same. -/
structure Schema.Renumbered (s s' : Schema) (f : Slot → Slot) : Prop where
  bijective : Set.BijOn f {x | x < s.slots.length} {y | y < s'.slots.length}
  contents : ∀ x < s.slots.length, s'.content? (f x) = (s.content? x).map (·.mapSlots f)
  entries : s'.entries.Perm (s.entries.map fun e => { e with use := e.use.mapSlot f })
  names : ∀ n : Name, n.resolvedWithRung s'.record = n.resolvedWithRung s.record

/-- Two types are of the same shape, and both or none of them are lists. -/
structure ItemType.Matches (t t' : ItemType) : Prop where
  shape : t.shape = t'.shape
  isList : t.body.isList = t'.body.isList

theorem ItemType.Matches.symm {t t' : ItemType} (h : t.Matches t') : t'.Matches t := ⟨h.shape.symm, h.isList.symm⟩

theorem Body.isList_of_isValue {body : Body} (h : body.isValue = true) : body.isList = false := by
  cases body with
  | list => cases h
  | _ => rfl

theorem Body.mapSlots_of_isValue {body : Body} (h : body.isValue = true) {f : Slot → Slot} :
    body.mapSlots f = body := by
  cases body with
  | object => cases h
  | composite => cases h
  | list => cases h
  | _ => rfl

theorem Body.iris_mapSlots {body : Body} {f : Slot → Slot} : (body.mapSlots f).iris = body.iris := by
  cases body <;> rfl

theorem Shape.standIn?_of_nodes {shape : Shape} (h : shape.constraints.nodes = []) : shape.standIn? = none := by
  rw [standIn?, h]

/-- Two lists that are related to the same one are each other's image, if what is related to the same is. -/
theorem eq_map_of_forall₂ {α β γ : Type} {R : α → β → Prop} {S : α → γ → Prop} {f : β → γ}
    {as : List α} {bs : List β} {cs : List γ} (hr : List.Forall₂ R as bs) (hs : List.Forall₂ S as cs)
    (hf : ∀ a b c, R a b → S a c → c = f b) : cs = bs.map f := by
  induction hr generalizing cs with
  | nil =>
      cases hs
      rfl
  | cons hab _ ih =>
      cases hs with
      | cons hac hs => rw [hf _ _ _ hab hac, ih hs, List.map_cons]

namespace Schema

variable {s s' : Schema}

theorem slotOf?_congr {t t' : ItemType} (h : t.Matches t') : s.slotOf? t = s.slotOf? t' := by
  rw [slotOf?, slotOf?, h.shape, h.isList]

/-- The slot of the second schema for the type in a slot of the first one. -/
def carry (s s' : Schema) (x : Slot) : Slot :=
  match s.content? x with
  | some (.type t) => (s'.slotOf? t).getD 0
  | _ => 0

theorem exists_content_of_lt {x : Slot} (h : x < s.slots.length) : ∃ c, s.content? x = some c :=
  ⟨_, List.getElem?_eq_getElem h⟩

theorem lt_of_content? {x : Slot} {c : Content} (h : s.content? x = some c) : x < s.slots.length :=
  (List.getElem?_eq_some_iff.1 h).1

theorem exists_entry {id : Node} (h : id ∈ s.shapes) : ∃ e ∈ s.entries, e.shape = id :=
  List.mem_map.1 h

namespace Described

/-! ## One schema -/

section

variable (h : s.Described graph table)

include h

theorem nodup_shapes : s.shapes.Nodup := by
  rw [h.shapes]
  exact graph.nodup_ids

theorem use?_of_mem {e : Entry} (he : e ∈ s.entries) : s.use? e.shape = some e.use := by
  have hnodup : (s.entries.map (·.shape)).Nodup := h.nodup_shapes
  rw [use?, entry?, find?_key_of_mem hnodup he]
  rfl

theorem describes {x : Slot} {t : ItemType} (hx : s.content? x = some (.type t)) : s.Describes graph table x t := by
  obtain ⟨t', ht, hdescribes⟩ := h.slots x _ hx
  cases ht
  exact hdescribes

/-- The type of a shape that stands in for none is in the slot of its entry. -/
theorem exists_own {id : Node} {shape : Shape} (hs : graph.shape? id = some shape)
    (hnone : graph.standIn? id = none) : ∃ x t, s.content? x = some (.type t) ∧ t.shape = id ∧
      t.body.isList = shape.isList := by
  obtain ⟨use, huse, -⟩ := h.cardinality id shape hs
  obtain ⟨last, shape', t, hpath, -, hs', hcontent, hid, hl⟩ := h.items id use huse
  obtain rfl := ShapesGraph.eq_of_standsInFor hnone hpath
  cases hs.symm.trans hs'
  exact ⟨_, t, hcontent, hid, hl⟩

end

/-! ## Two schemas of the same graph -/

section

variable (h : s.Described graph table) (h' : s'.Described graph' table) (same : graph.SameEntries graph')

include h' in
theorem carry_eq {x y : Slot} {t t' : ItemType} (hx : s.content? x = some (.type t))
    (hy : s'.content? y = some (.type t')) (hm : t.Matches t') : s.carry s' x = y := by
  rw [carry, hx]
  simp only
  rw [slotOf?_congr hm, (h'.describes hy).place, Option.getD_some]

include h h' same

theorem exists_items {id : Node} {use : TypeUse} (huse : s.use? id = some use) : ∃ use' t t',
    s'.use? id = some use' ∧ s.content? use.item = some (.type t) ∧ s'.content? use'.item = some (.type t') ∧
      t.Matches t' := by
  have hid : id ∈ graph'.ids := same.mem_ids.1 (h.shapes ▸ Schema.mem_shapes_of_use? huse)
  obtain ⟨shape, hs⟩ := ShapesGraph.mem_ids.1 hid
  obtain ⟨use', huse', -⟩ := h'.cardinality id shape hs
  obtain ⟨last, shape, t, hpath, hnone, hshape, hcontent, hid, hl⟩ := h.items id use huse
  obtain ⟨last', shape', t', hpath', hnone', hshape', hcontent', hid', hl'⟩ := h'.items id use' huse'
  rw [← same.standsInFor_eq] at hpath'
  rw [← same.standIn?_eq] at hnone'
  rw [← same.shape?_eq] at hshape'
  obtain rfl := ShapesGraph.last_unique hpath hpath' hnone hnone'
  cases hshape.symm.trans hshape'
  exact ⟨use', t, t', huse', hcontent, hcontent', hid.trans hid'.symm, hl.trans hl'.symm⟩

/-- **The use of a shape is the same, in the slot that corresponds.** -/
theorem use?_carry {id : Node} {use : TypeUse} (huse : s.use? id = some use) :
    s'.use? id = some (use.mapSlot (s.carry s')) := by
  obtain ⟨⟨c', item'⟩, t, t', huse', ht, ht', hm⟩ := exists_items h h' same huse
  obtain ⟨shape, hs⟩ := ShapesGraph.mem_ids.1 (h.shapes ▸ Schema.mem_shapes_of_use? huse)
  obtain ⟨use₁, huse₁, hnode, hbounds⟩ := h.cardinality id shape hs
  obtain ⟨use₂, huse₂, hnode', hbounds'⟩ := h'.cardinality id shape ((same.shape?_eq id).symm.trans hs)
  cases huse.symm.trans huse₁
  cases huse'.symm.trans huse₂
  have hc : c' = use.cardinality := by
    cases hn : shape.isNode with
    | true => exact (hnode' hn).trans (hnode hn).symm
    | false => exact Except.ok.inj ((hbounds' hn).symm.trans (hbounds hn))
  rw [huse', hc, TypeUse.mapSlot, carry_eq h' ht ht' hm]

theorem refersTo_carry {id : Node} {x y : Slot} (hx : s.RefersTo id x) (hy : s'.RefersTo id y) :
    y = s.carry s' x := by
  obtain ⟨use, huse, rfl⟩ := hx
  obtain ⟨use', huse', rfl⟩ := hy
  cases huse'.symm.trans (use?_carry h h' same huse)
  rfl

theorem parent_eq {shape : Shape} {parent parent' : Option Slot} (hp : s.HasParent shape parent)
    (hp' : s'.HasParent shape parent') : parent' = parent.map (s.carry s') := by
  rcases hp with ⟨hn, rfl⟩ | ⟨ancestor, x, hn, rfl, hx⟩
  · rcases hp' with ⟨-, rfl⟩ | ⟨ancestor, y, hn', -, -⟩
    · rfl
    · cases hn.symm.trans hn'
  · rcases hp' with ⟨hn', -⟩ | ⟨ancestor', y, hn', rfl, hy⟩
    · cases hn.symm.trans hn'
    · cases hn.symm.trans hn'
      rw [refersTo_carry h h' same hx hy]
      rfl

theorem property_eq {id : Node} {p p' : Property} (hp : s.IsProperty graph table id p)
    (hp' : s'.IsProperty graph' table id p') : p' = p.mapSlot (s.carry s') := by
  obtain ⟨⟨shape, form, hs, hf, hpath, hid, hmutable, hvisibility, horder, hlazy, hgroup, hdoc⟩,
    ⟨named, hnamed, hname⟩, hused⟩ := hp
  obtain ⟨⟨shape', form', hs', hf', hpath', hid', hmutable', hvisibility', horder', hlazy', hgroup', hdoc'⟩,
    ⟨named', hnamed', hname'⟩, hused'⟩ := hp'
  rw [← same.shape?_eq] at hs' hnamed'
  cases hs.symm.trans hs'
  cases hf.symm.trans hf'
  cases hs.symm.trans hnamed
  cases hs.symm.trans hnamed'
  have hpath := Option.some.inj (hpath.symm.trans hpath')
  have huse := Option.some.inj (hused'.symm.trans (use?_carry h h' same hused))
  obtain ⟨shape, name, path, use, mutable, visibility, order, lazy, group, doc⟩ := p
  obtain ⟨shape', name', path', use', mutable', visibility', order', lazy', group', doc'⟩ := p'
  simp only at *
  subst_vars
  rfl

/-- **What a shape describes corresponds in both schemas.** -/
theorem body_eq {shape : Shape} {b b' : Body} (hb : s.DescribesBody graph table shape b)
    (hb' : s'.DescribesBody graph' table shape b') (hl : b.isList = b'.isList) :
    b' = b.mapSlots (s.carry s') := by
  have hvalue : (shape.valueType table).isList = false := Body.isList_of_isValue shape.isValue_valueType
  cases hb with
  | object ho hp hps =>
      cases hb' with
      | object _ hp' hps' =>
          obtain rfl := parent_eq h h' same hp hp'
          obtain rfl := eq_map_of_forall₂ hps hps' fun _ _ _ => property_eq h h' same
          rw [← same.annotationsInForce_eq]
          rfl
      | value hno => cases hno.symm.trans ho
      | listOf => cases hl
      | list => cases hl
  | value hno hn =>
      cases hb' with
      | object ho => cases hno.symm.trans ho
      | value => exact (Body.mapSlots_of_isValue shape.isValue_valueType).symm
      | listOf => cases hvalue.symm.trans hl
      | list => cases hvalue.symm.trans hl
  | listOf _ hn hx =>
      cases hb' with
      | object => cases hl
      | value => cases hl.trans hvalue
      | listOf _ hn' hx' =>
          cases hn.symm.trans hn'
          exact congrArg Body.list (refersTo_carry h h' same hx hx')
      | list _ hn' => cases hn.symm.trans hn'
  | list _ hn hx hid hnot =>
      cases hb' with
      | object => cases hl
      | value => cases hl.trans hvalue
      | listOf _ hn' => cases hn.symm.trans hn'
      | list _ _ hx' hid' hnot' =>
          exact congrArg Body.list (carry_eq h' hx hx' ⟨hid.trans hid'.symm, hnot.trans hnot'.symm⟩).symm

/-- **Matching slots of both schemas hold the same**, up to the numbers of slots. -/
theorem eq_mapSlots {x y : Slot} {t t' : ItemType} (hx : s.content? x = some (.type t))
    (hy : s'.content? y = some (.type t')) (hm : t.Matches t') :
    t' = { t with body := t.body.mapSlots (s.carry s') } := by
  obtain ⟨shape, hs, hname, hdoc, hbody⟩ := (h.describes hx).described
  obtain ⟨shape', hs', hname', hdoc', hbody'⟩ := (h'.describes hy).described
  rw [← same.shape?_eq, ← hm.shape] at hs'
  cases hs.symm.trans hs'
  have hbodies := body_eq h h' same hbody hbody' hm.isList
  have hid := hm.shape
  obtain ⟨id, name, doc, body⟩ := t
  obtain ⟨id', name', doc', body'⟩ := t'
  simp only at *
  subst_vars
  rfl

/-- **Every slot of the first schema has a matching one in the second.** -/
theorem exists_match {x : Slot} {t : ItemType} (hx : s.content? x = some (.type t)) :
    ∃ y t', s'.content? y = some (.type t') ∧ t.Matches t' := by
  obtain ⟨shape, hs, -, -, hbody⟩ := (h.describes hx).described
  rw [same.shape?_eq] at hs
  have hown (hnone : shape.standIn? = none) := h'.exists_own hs ((ShapesGraph.standIn?_of_shape? hs).trans hnone)
  have hlist : shape.isList = true → t.body.isList = true →
      ∃ y t', s'.content? y = some (.type t') ∧ t.Matches t' := by
    intro hl ht
    obtain ⟨y, t', hy, hid, hl'⟩ := hown (Shape.standIn?_of_isList hl)
    exact ⟨y, t', hy, hid.symm, ht.trans (hl'.trans hl).symm⟩
  generalize hb : t.body = b at hbody
  cases hbody with
  | object ho =>
      obtain ⟨y, t', hy, hid, hl⟩ := hown (Shape.standIn?_of_isNode (Shape.isNode_of_declaresObject ho))
      refine ⟨y, t', hy, hid.symm, ?_⟩
      rw [hb, hl, Shape.isList_of_declaresObject ho]
      rfl
  | value hno hn =>
      have ht : t.body.isList = false := hb ▸ Body.isList_of_isValue shape.isValue_valueType
      obtain ⟨y, t', hy, hid, hl⟩ := hown (Shape.standIn?_of_nodes hn)
      cases hlist : shape.isList with
      | false => exact ⟨y, t', hy, hid.symm, ht.trans (hl.trans hlist).symm⟩
      | true =>
          -- The type lies behind the list in the slot of the entry.
          obtain ⟨shape', hs', -, -, hbody'⟩ := (h'.describes hy).described
          rw [hid] at hs'
          cases hs.symm.trans hs'
          generalize hb' : t'.body = b' at hbody' hl
          cases hbody' with
          | object ho => cases hno.symm.trans ho
          | value => cases (Body.isList_of_isValue shape.isValue_valueType).symm.trans (hl.trans hlist)
          | listOf _ hn' => cases hn.symm.trans hn'
          | list _ _ hinner hid' hnot =>
              exact ⟨_, _, hinner, (hid'.trans (ShapesGraph.shape?_eq_some hs).2).symm, ht.trans hnot.symm⟩
  | listOf hl => exact hlist hl (hb ▸ rfl)
  | list hl => exact hlist hl (hb ▸ rfl)

theorem carry_carry {x : Slot} (hx : x < s.slots.length) : s'.carry s (s.carry s' x) = x := by
  obtain ⟨c, hc⟩ := exists_content_of_lt hx
  obtain ⟨t, rfl, -⟩ := h.slots x c hc
  obtain ⟨y, t', hy, hm⟩ := exists_match h h' same hc
  rw [carry_eq h' hc hy hm, carry_eq h hy hc hm.symm]

theorem carry_lt {x : Slot} (hx : x < s.slots.length) : s.carry s' x < s'.slots.length := by
  obtain ⟨c, hc⟩ := exists_content_of_lt hx
  obtain ⟨t, rfl, -⟩ := h.slots x c hc
  obtain ⟨y, t', hy, hm⟩ := exists_match h h' same hc
  rw [carry_eq h' hc hy hm]
  exact lt_of_content? hy

theorem entry_eq {e e' : Entry} (he : e ∈ s.entries) (he' : e' ∈ s'.entries) (hid : e'.shape = e.shape) :
    e' = { e with use := e.use.mapSlot (s.carry s') } := by
  obtain ⟨shape, hs, hname⟩ := h.names e he
  obtain ⟨shape', hs', hname'⟩ := h'.names e' he'
  rw [hid, ← same.shape?_eq] at hs'
  cases hs.symm.trans hs'
  have huse := use?_carry h h' same (h.use?_of_mem he)
  rw [← hid, h'.use?_of_mem he', Option.some.injEq] at huse
  obtain ⟨id, name, use⟩ := e
  obtain ⟨id', name', use'⟩ := e'
  simp only at *
  subst_vars
  rfl

theorem enumerates_of {i : Iri} (hi : s.Enumerates i) : s'.Enumerates i := by
  obtain ⟨x, t, hx, hmem⟩ := hi
  obtain ⟨y, t', hy, hm⟩ := exists_match h h' same hx
  refine ⟨y, t', hy, ?_⟩
  rw [eq_mapSlots h h' same hx hy hm, Body.iris_mapSlots]
  exact hmem

theorem entries_perm : s'.entries.Perm (s.entries.map fun e => { e with use := e.use.mapSlot (s.carry s') }) := by
  have hnodup : s'.entries.Nodup := List.Nodup.of_map _ h'.nodup_shapes
  have hnodup' : (s.entries.map fun e => { e with use := e.use.mapSlot (s.carry s') }).Nodup := by
    refine List.Nodup.of_map (·.shape) ?_
    rw [List.map_map]
    exact h.nodup_shapes
  have hmem : ∀ id, id ∈ s.shapes ↔ id ∈ s'.shapes := by
    intro id
    rw [h.shapes, h'.shapes, same.mem_ids]
  refine (List.perm_ext_iff_of_nodup hnodup hnodup').2 fun e' => ?_
  rw [List.mem_map]
  constructor
  · intro he'
    obtain ⟨e, he, hid⟩ := exists_entry ((hmem e'.shape).2 (List.mem_map_of_mem he'))
    exact ⟨e, he, (entry_eq h h' same he he' hid.symm).symm⟩
  · rintro ⟨e, he, rfl⟩
    obtain ⟨e', he', hid⟩ := exists_entry ((hmem e.shape).1 (List.mem_map_of_mem he))
    rw [← entry_eq h h' same he he' hid]
    exact he'

theorem resolvedWithRung_eq (n : Name) : n.resolvedWithRung s'.record = n.resolvedWithRung s.record := by
  obtain ⟨book, hrecord, hbook⟩ := h.record
  obtain ⟨book', hrecord', hbook'⟩ := h'.record
  rw [← hrecord, ← hrecord']
  refine (hbook'.congr (fun shape => ?_) fun i => ?_).resolvedWithRung_eq hbook n
  · rw [same.shape?_eq]
  · exact ⟨enumerates_of h h' same, enumerates_of h' h same.symm⟩

/-- **Schemas that the same graph describes are renumbered.** -/
theorem renumbered : s.Renumbered s' (s.carry s') where
  bijective := by
    have hinverse : Set.InvOn (s'.carry s) (s.carry s') {x | x < s.slots.length} {y | y < s'.slots.length} :=
      ⟨fun _ hx => carry_carry h h' same hx, fun _ hy => carry_carry h' h same.symm hy⟩
    exact hinverse.bijOn (fun _ hx => carry_lt h h' same hx) fun _ hy => carry_lt h' h same.symm hy
  contents := by
    intro x hx
    obtain ⟨c, hc⟩ := exists_content_of_lt hx
    obtain ⟨t, rfl, -⟩ := h.slots x c hc
    obtain ⟨y, t', hy, hm⟩ := exists_match h h' same hc
    rw [carry_eq h' hc hy hm, hy, hc, eq_mapSlots h h' same hc hy hm]
    rfl
  entries := entries_perm h h' same
  names := resolvedWithRung_eq h h' same

end

end Described

end Schema

/-- **Plain graphs have the same schema in every order of insertion**, up to the numbers of slots and the order of
entries: one is accepted exactly when the other is. -/
theorem infer_order_independent (graph graph' : ShapesGraph) (table : PrefixTable) (strict : Bool)
    (hp : graph.IsPlain) (same : graph.SameEntries graph') :
    ((∃ schema, graph.infer table strict = .ok schema) ↔ ∃ schema', graph'.infer table strict = .ok schema') ∧
    ∀ schema schema', graph.infer table strict = .ok schema → graph'.infer table strict = .ok schema' →
      ∃ f, schema.Renumbered schema' f := by
  have plain' := hp.congr same
  refine ⟨⟨fun ⟨_, h⟩ => ?_, fun ⟨_, h⟩ => ?_⟩, fun schema schema' h h' => ⟨schema.carry schema', ?_⟩⟩
  · exact exists_schema_of_sameEntries hp same h
  · exact exists_schema_of_sameEntries plain' same.symm h
  · exact (infer_described hp h).renumbered (infer_described plain' h') same

/-- The entries in the opposite order. -/
def Keyed.reversed {κ α : Type} {key : α → κ} (c : Keyed key) : Keyed key where
  entries := c.entries.reverse
  distinct := by
    rw [List.map_reverse, List.nodup_reverse]
    exact c.distinct

/-- The graph with everything in the opposite order of insertion. -/
def ShapesGraph.reversed (graph : ShapesGraph) : ShapesGraph where
  shapes := graph.shapes.reversed
  ontologies := graph.ontologies.reversed
  groups := graph.groups.reversed

theorem ShapesGraph.sameEntries_reversed (graph : ShapesGraph) : graph.SameEntries graph.reversed where
  shapes := (List.reverse_perm _).symm
  ontologies := (List.reverse_perm _).symm
  groups := (List.reverse_perm _).symm

theorem ShapesGraph.isPlain_people : people.IsPlain where
  notComposite := by decide +kernel
  noDefault := by decide +kernel
  ancestors := by decide +kernel

theorem people_order_independent : ShapesGraph.people.IsPlain ∧
    ShapesGraph.people.SameEntries ShapesGraph.people.reversed ∧
    ∃ schema schema' f, ShapesGraph.people.infer default true = .ok schema ∧
      ShapesGraph.people.reversed.infer default true = .ok schema' ∧ schema.Renumbered schema' f := by
  have hp := ShapesGraph.isPlain_people
  have same := ShapesGraph.people.sameEntries_reversed
  obtain ⟨haccepted, hrenumbered⟩ := infer_order_independent _ _ default true hp same
  obtain ⟨schema, h⟩ := ShapesGraph.exists_schema_people
  obtain ⟨schema', h'⟩ := haccepted.1 ⟨schema, h⟩
  obtain ⟨f, hf⟩ := hrenumbered schema schema' h h'
  exact ⟨hp, same, schema, schema', f, h, h', hf⟩

end ShapeTypes
