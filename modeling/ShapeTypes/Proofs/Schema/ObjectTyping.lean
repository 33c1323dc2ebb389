import ShapeTypes.Proofs.Inference.ObjectTyping
import ShapeTypes.Proofs.Schema.Coherence

/-!
# Where a schema has objects

Parents, members of composites of objects and lazy properties are checked while the types are not all known,
or before slots are renumbered.

* `Body.actsAsObject_iff` — the kinds of types that act as objects;
* `Schema.ActsAsObject`, `Schema.ObjectTyped` — a slot has such a type; all slots that should have one do;
* `Inferred.exists_source` — what a slot of the schema comes from;
* `exists_lazy_of_checkLazy` — what lazy properties were found to refer to;
* `infer_objectTyped` — **every inferred schema has objects where they are required**.
-/

namespace ShapeTypes

open Rdf

variable {graph : ShapesGraph} {table : PrefixTable} {strict : Bool} {schema : Schema}

theorem Body.actsAsObject_iff (b : Body) :
    b.actsAsObject = true ↔ b.kind ∈ ["Object", "ObjectUnion", "ObjectIntersection"] := by
  cases b with
  | object => simp [actsAsObject, kind]
  | composite connective ofObjects => cases connective <;> cases ofObjects <;> simp [actsAsObject, kind]
  | identifier k => cases k <;> simp [actsAsObject, kind]
  | literal => simp [actsAsObject, kind]
  | term => simp [actsAsObject, kind]
  | enumeration => simp [actsAsObject, kind]
  | list => simp [actsAsObject, kind]

namespace Schema

/-- A slot has the type of an object, or of a composite of objects. -/
def ActsAsObject (s : Schema) (slot : Slot) : Prop := ∃ c, s.content? slot = some c ∧ c.actsAsObject = true

/-- The slot of the items of a use: the one behind the list that the use is of, or its own. -/
def itemSlot (s : Schema) (slot : Slot) : Slot :=
  match s.content? slot with
  | some (.type { body := .list item, .. }) => item
  | _ => slot

/-- **Objects stand where they are required**: as the parents of objects, as the members of composites of
objects, and as the types of lazy properties, or of their items. -/
structure ObjectTyped (s : Schema) (graph : ShapesGraph) : Prop where
  parents : ∀ slot t o parent, s.content? slot = some (.type t) → t.body = .object o →
    o.parent = some parent → s.ActsAsObject parent
  members : ∀ slot t connective members, s.content? slot = some (.type t) →
    t.body = .composite connective true members → ∀ member ∈ members, s.ActsAsObject member
  lazy : ∀ id shape form, graph.shape? id = some shape → shape.property? = some form → form.lazy = true →
    ∃ use, s.use? id = some use ∧ s.ActsAsObject (s.itemSlot use.item)

end Schema

/-! ## What a schema keeps of a type -/

theorem Content.actsAsObject_mapSlots (f : Slot → Slot) (c : Content) :
    (c.mapSlots f).actsAsObject = c.actsAsObject := by
  rcases c with id | ⟨shape, name, doc, body⟩
  · rfl
  · cases body <;> rfl

theorem InferenceState.actsAsObject_settleContent {s : InferenceState} (c : Content) :
    (s.settleContent c).actsAsObject = c.actsAsObject := by
  rcases c with id | ⟨shape, name, doc, body⟩
  · rfl
  · cases body <;> rfl

namespace Inferred

variable (i : Inferred graph table strict schema) {x y : Slot} {t t' : ItemType}

/-- What inference left in a slot, as the schema has it. -/
abbrev finished (c : Content) : Content :=
  ((i.state.settleContent c).mapSlots i.place).mapSlots (Arena.renumber i.keep)

/-- **What a slot of the schema comes from.** -/
theorem exists_source {slot : Slot} (h : schema.content? slot = some (.type t')) :
    ∃ x ∈ i.keep, ∃ t, i.state.slots[x]? = some (.type t) ∧ .type t' = i.finished (.type t) := by
  obtain ⟨hlt, -⟩ := List.getElem?_eq_some_iff.1 h
  obtain ⟨x, hx, rfl⟩ := i.exists_mem_keep hlt
  obtain ⟨t, ht⟩ := i.exists_type_of_mem_keep hx
  rw [i.content?_eq hx, ht, Option.map_some, Option.some.injEq] at h
  exact ⟨x, hx, t, ht, h.symm⟩

theorem exists_object_of_finished (h : .type t' = i.finished (.type t)) {o' : ObjectBody}
    (ho : t'.body = .object o') : ∃ o, t.body = .object o ∧ o'.parent = o.parent.map i.located := by
  obtain ⟨shape, name, doc, body⟩ := t
  cases body with
  | object o =>
      cases h
      cases ho
      exact ⟨o, rfl, by cases o.parent <;> rfl⟩
  | _ => cases h; cases ho

theorem exists_composite_of_finished (h : .type t' = i.finished (.type t)) {connective : Connective}
    {ofObjects : Bool} {members' : List Slot} (hc : t'.body = .composite connective ofObjects members') :
    ∃ members, t.body = .composite connective ofObjects members ∧ members' = members.map i.located := by
  obtain ⟨shape, name, doc, body⟩ := t
  cases body with
  | composite connective' ofObjects' members =>
      cases h
      cases hc
      exact ⟨members, rfl, by simp⟩
  | _ => cases h; cases hc

theorem shape_finished (c : Content) : (i.finished c).shape = c.shape := by
  rw [Content.shape_mapSlots, Content.shape_mapSlots, InferenceState.shape_settleContent]

theorem actsAsObject_finished (c : Content) : (i.finished c).actsAsObject = c.actsAsObject := by
  rw [Content.actsAsObject_mapSlots, Content.actsAsObject_mapSlots,
    InferenceState.actsAsObject_settleContent]

/-- What a slot that is referred to from a kept one holds in the schema. -/
theorem content?_child (hx : x ∈ i.keep) (ht : i.state.slots[x]? = some (.type t))
    (hy : y ∈ (Content.type t).children) (hd : i.state.slots[i.place y]? = some (.type t')) :
    schema.content? (i.located y) = some (i.finished (.type t')) := by
  rw [i.content?_eq (i.place_mem_keep ht ((i.place_of_type ht).symm ▸ hx) hy), hd, Option.map_some]

/-- A slot with a type that acts as an object does so in the schema, if a kept slot refers to it. -/
theorem actsAsObject_child (hx : x ∈ i.keep) (ht : i.state.slots[x]? = some (.type t))
    (hy : y ∈ (Content.type t).children)
    (hacts : ∃ t, i.state.slots[i.place y]? = some (.type t) ∧ t.body.actsAsObject = true) :
    schema.ActsAsObject (i.located y) := by
  obtain ⟨t', ht', ha⟩ := hacts
  exact ⟨_, i.content?_child hx ht hy ht', (i.actsAsObject_finished _).trans ha⟩

/-- What acts as an object in the finished slots is of a type that does. -/
theorem exists_of_acts_arena {c : Content} (hc : i.arena[x]? = some c) (ha : c.actsAsObject = true) :
    ∃ t, i.state.slots[x]? = some (.type t) ∧ t.body.actsAsObject = true := by
  rw [InferenceState.getElem?_arena, Option.map_eq_some_iff] at hc
  obtain ⟨d, hd, rfl⟩ := hc
  rw [Content.actsAsObject_mapSlots, InferenceState.actsAsObject_settleContent] at ha
  cases d with
  | placeholder id => cases ha
  | type t => exact ⟨t, hd, ha⟩

/-- If the items of a kept slot act as objects in the finished slots, they do so in the schema. -/
theorem actsAsObject_itemSlot (hx : x ∈ i.keep) (hc : (itemContent? i.arena x).any (·.actsAsObject) = true) :
    schema.ActsAsObject (schema.itemSlot (Arena.renumber i.keep x)) := by
  obtain ⟨c, hc, ha⟩ := (Option.any_eq_true _ _).1 hc
  obtain ⟨t, ht⟩ := i.exists_type_of_mem_keep hx
  have hplace : i.place x = x := i.place_of_type ht
  have hcontent := i.content?_eq hx
  rw [ht, Option.map_some] at hcontent
  have harena : i.arena[x]? = some ((i.state.settleContent (.type t)).mapSlots i.place) := by
    rw [InferenceState.getElem?_arena, ht, Option.map_some]
  rw [itemContent?, harena] at hc
  obtain ⟨shape, name, doc, body⟩ := t
  cases body with
  | list inner =>
      have hitem : schema.itemSlot (Arena.renumber i.keep x) = i.located inner := by
        rw [Schema.itemSlot, hcontent]
        rfl
      rw [hitem]
      exact i.actsAsObject_child hx ht (List.mem_singleton_self inner) (i.exists_of_acts_arena hc ha)
  | _ =>
      have hitem : schema.itemSlot (Arena.renumber i.keep x) = i.located x := by
        rw [Schema.itemSlot, hcontent, Inferred.located, hplace]
        rfl
      obtain ⟨t, ht', ha'⟩ := i.exists_of_acts_arena (harena.trans hc) ha
      cases ht.symm.trans ht'
      rw [hitem, Inferred.located, hplace]
      exact ⟨_, hcontent, (i.actsAsObject_finished _).trans ha'⟩

end Inferred

/-! ## Lazy properties -/

theorem ShapesGraph.mem_propertyShapes {id : Node} {shape : Shape} (hs : graph.shape? id = some shape)
    {form : PropertyForm} (hf : shape.property? = some form) : shape ∈ graph.propertyShapes := by
  refine List.mem_filter.2 ⟨(ShapesGraph.shape?_eq_some hs).1, ?_⟩
  unfold Shape.property? at hf
  unfold Shape.isNode
  split at hf
  · cases hf
  · rfl

/-- **What lazy properties were found to refer to.** -/
theorem exists_lazy_of_checkLazy {slots : Arena} {uses : List (Node × TypeUse)}
    (h : checkLazy graph slots uses = .ok ()) {id : Node} {shape : Shape} (hs : graph.shape? id = some shape)
    {form : PropertyForm} (hf : shape.property? = some form) (hl : form.lazy = true) :
    ∃ use, (id, use) ∈ uses ∧ (itemContent? slots use.item).any (·.actsAsObject) = true := by
  have hcheck := forM_eq_ok.1 h shape (ShapesGraph.mem_propertyShapes hs hf)
  rw [hf, Option.any_some, if_pos hl, (ShapesGraph.shape?_eq_some hs).2] at hcheck
  unfold checkLazyShape at hcheck
  split at hcheck
  · cases hcheck
  · rename_i use huse
    refine ⟨use, mem_of_lookup huse, ?_⟩
    split at hcheck
    · cases hcheck
    · rename_i c hc
      split at hcheck
      · rename_i ha
        rw [hc, Option.any_some]
        exact ha
      · cases hcheck

/-! ## Schemas -/

/-- **Every inferred schema has objects where they are required.** -/
theorem infer_objectTyped (h : graph.infer table strict = .ok schema) : schema.ObjectTyped graph := by
  obtain ⟨i⟩ := exists_inferred h
  have hall : ∀ id use, i.state.Done id use → Nonempty (Origin graph strict id use i.state) :=
    fun _ _ => exists_origin_of_resolveAll i.run
  constructor
  case parents =>
    intro slot t' o' parent hcontent ho hparent
    obtain ⟨x, hx, t, ht, hfinished⟩ := i.exists_source hcontent
    obtain ⟨o, hbody, heq⟩ := i.exists_object_of_finished hfinished ho
    rw [heq, Option.map_eq_some_iff] at hparent
    obtain ⟨y, hy, rfl⟩ := hparent
    refine i.actsAsObject_child hx ht ?_ (i.final.exists_object_parent i.replacements hall ht hbody hy)
    simp [Content.children, Content.edges, Content.type?, hbody, Body.edges, hy]
  case members =>
    intro slot t' connective members' hcontent hc member hmember
    obtain ⟨x, hx, t, ht, hfinished⟩ := i.exists_source hcontent
    obtain ⟨members, hbody, rfl⟩ := i.exists_composite_of_finished hfinished hc
    obtain ⟨y, hy, rfl⟩ := List.mem_map.1 hmember
    refine i.actsAsObject_child hx ht ?_ (i.final.exists_object_member i.replacements hall ht hbody hy)
    simp [Content.children, Content.edges, Content.type?, hbody, Body.edges, hy]
  case lazy =>
    intro id shape form hs hf hl
    obtain ⟨use', huse, hacts⟩ := exists_lazy_of_checkLazy i.lazy hs hf hl
    obtain ⟨id', hid, hu⟩ := List.mem_filterMap.1 huse
    obtain ⟨use, hdone, heq⟩ := Option.map_eq_some_iff.1 hu
    cases heq
    have hd := i.use?_state.1 hdone
    exact ⟨_, i.use?_eq hid hd, i.actsAsObject_itemSlot (i.mem_keep_of_done hid hd) hacts⟩

/-- An agent is a person or a company. An employee is a person, whose boss is an agent, and has a list of
colleagues, who are employees. Bosses and colleagues are lazy. -/
def ShapesGraph.staff : ShapesGraph where
  shapes := .ofList [
    { id := .blank "Agent"
      constraints := { alternatives := some [.blank "Person", .blank "Company"] }
      form := .node [] },
    { id := .blank "Person", form := .node [] },
    { id := .blank "Company", form := .node [] },
    { id := .blank "Employee", constraints := { nodes := [.blank "Person"] }
      form := .node [.blank "boss", .blank "colleagues"] },
    { id := .blank "boss", constraints := { nodes := [.blank "Agent"] }
      form := .property { path := .predicate ⟨"e:boss"⟩, lazy := true } },
    { id := .blank "colleagues", constraints := { nodes := [.blank "Employee"] }
      form := .property { path := .predicate ⟨"e:colleagues"⟩, lazy := true, list := true } }]

theorem staff_objectTyped : ∃ schema, ShapesGraph.staff.infer default true = .ok schema ∧
    schema.ObjectTyped ShapesGraph.staff := by
  have h : (ShapesGraph.staff.infer default true).toOption.isSome = true := by decide +kernel
  cases hs : ShapesGraph.staff.infer default true with
  | ok schema => exact ⟨schema, rfl, infer_objectTyped hs⟩
  | error e =>
      rw [hs] at h
      cases h

end ShapeTypes
