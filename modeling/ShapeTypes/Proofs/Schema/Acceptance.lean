import ShapeTypes.Proofs.Cardinality
import ShapeTypes.Proofs.Inference.Plain
import ShapeTypes.Proofs.Schema.Cycles
import ShapeTypes.Proofs.Schema.ObjectTyping

/-!
# What is accepted does not depend on the order of insertion

Shapes that one order enters first are reached from within others in another order. In a plain graph what is
wrong with a shape is wrong in every order, so that the success of one run rules out every error of the other.

* `Settled.not_refusal` — **no shape is refused in any order once all were resolved in one**;
* `ShapesGraph.HasObjects` — what a lazy property has to be to have objects for its items;
  `Settled.actsAsObject_iff_hasObjects` — they are those that pass the check;
* `exists_schema_of_sameEntries` — **a plain graph with a schema has one in every order.**
-/

namespace ShapeTypes

open Rdf Relation

variable {graph graph' : ShapesGraph} {table : PrefixTable} {strict : Bool}

/-! ## What a resolved shape declares -/

namespace Finds

variable {shape : Shape} {s t t' : InferenceState} {refs props : List TypeUse} {finding : Finding}

/-- A resolved shape has one `sh:node` at most. With one it is an object, or a property shape without a datatype
and literals. -/
theorem nodes_cases (h : Finds graph shape s refs t props finding t') :
    shape.constraints.nodes = [] ∨ ∃ target, shape.constraints.nodes = [target] ∧
      (shape.declaresObject = true ∨ shape.isNode = false ∧ shape.constraints.datatype = none ∧
        ((shape.constraints.oneOf.getD []).any fun t => t.literal?.isSome) = false) := by
  cases h with
  | composite _ _ hn => exact Or.inl hn
  | object ho hparent =>
      rcases hparent with ⟨hn, -⟩ | ⟨ancestor, -, hn, -⟩
      · exact Or.inl hn
      · exact Or.inr ⟨ancestor, hn, Or.inl ho⟩
  | reference _ hnode hn hdatatype hliteral => exact Or.inr ⟨_, hn, Or.inr ⟨hnode, hdatatype, hliteral⟩⟩
  | value _ _ hn => exact Or.inl hn

/-- The properties of an object are property shapes of the graph. -/
theorem exists_property (h : Finds graph shape s refs t props finding t') (ho : shape.declaresObject = true)
    {id : Node} (hid : id ∈ shape.properties) :
    ∃ property form, graph.shape? id = some property ∧ property.property? = some form := by
  cases h with
  | composite hc =>
      cases (Constraints.composition?_eq_none (Shape.isComposite_of_declaresObject ho)).symm.trans hc
  | object _ _ hproperties =>
      obtain ⟨p, -, property, form, hs, hf, -⟩ := exists_of_mem_forall₂ hproperties hid
      exact ⟨property, form, hs, hf⟩
  | reference _ hnode => cases hnode.symm.trans (Shape.isNode_of_declaresObject ho)
  | value _ hno => cases hno.symm.trans ho

end Finds

namespace Settled

variable (i : Settled graph table strict) {id : Node} {shape : Shape}

include i in
theorem mem_ids_of_refers {target : Node} (h : graph.Refers id target) : target ∈ graph.ids := by
  obtain ⟨use, hd⟩ := i.final.complete id h.mem_ids
  obtain ⟨use', hd', -⟩ := i.steps_of_refers hd h
  obtain ⟨_, _, shape, _, _, hb⟩ := i.final.lawful.built target use' hd'
  exact ShapesGraph.mem_ids.2 ⟨shape, hb.found⟩

/-! ## Nothing is refused -/

variable (hp : graph.IsPlain)

include i hp

/-- **The ancestor of an object declares an object.** -/
theorem declaresObject_ancestor (hs : graph.shape? id = some shape) (ho : shape.declaresObject = true)
    {ancestor : Node} (hn : shape.constraints.nodes = [ancestor]) : graph.DeclaresObject ancestor := by
  have hnode : graph.standIn? ancestor = none := by
    have hmem := (ShapesGraph.shape?_eq_some hs).1
    obtain ⟨other, hother, hisNode⟩ := (Option.any_eq_true _ _).1
      (hp.ancestors shape hmem (Shape.isNode_of_declaresObject ho) ancestor (by simp [hn]))
    rw [ShapesGraph.standIn?_of_shape? hother, Shape.standIn?_of_isNode hisNode]
  obtain ⟨use, hd⟩ := i.final.complete id (ShapesGraph.mem_ids.2 ⟨shape, hs⟩)
  obtain ⟨slot, next, shape', name, finding, hb⟩ := i.final.lawful.built id use hd
  cases hb.found.symm.trans hs
  obtain ⟨body, rfl, hparent, -⟩ := hb.fits.exists_object ho
  have hown := hb.own
  simp only [Finding.own, Shape.isList_of_declaresObject ho] at hown
  rcases hparent with ⟨hnil, -⟩ | ⟨ancestor', y, hn', hy, hdenotes⟩
  · rw [hnil] at hn
    cases hn
  · cases hn'.symm.trans hn
    have hall : ∀ id use, i.state.Done id use → Nonempty (Origin graph strict id use i.state) :=
      fun _ _ => exists_origin_of_resolveAll i.run
    obtain ⟨t, ht, hacts⟩ := i.final.exists_object_parent i.replacements hall hown rfl hy
    obtain ⟨last, hpath, hlast⟩ := (i.final.actsAsObject_iff hp i.replacements hdenotes ht).1 hacts
    rw [← ShapesGraph.eq_of_standsInFor hnode hpath]
    exact hlast

/-- **The bounds of a property shape are in order.** -/
theorem inOrder (hs : graph.shape? id = some shape) (hn : shape.isNode = false) :
    Cardinality.InOrder shape.constraints.minCount shape.constraints.maxCount := by
  obtain ⟨use, o, rfl⟩ := i.exists_origin hs
  obtain ⟨d, -, hbounds⟩ := o.finalCardinality.exists_ofBounds hn
  have hown := o.isOf fun _ => hp.not_composes
  rw [hown.minCount?_eq, hown.maxCount?_eq] at hbounds
  exact (Cardinality.ofBounds_eq_ok_iff.1 hbounds).1

omit hp in
theorem isSome_predicate? (hs : graph.shape? id = some shape) {form : PropertyForm}
    (hf : shape.property? = some form) : form.path.predicate?.isSome = true := by
  obtain ⟨use, o, rfl⟩ := i.exists_origin hs
  exact o.resolution.predicate form hf

/-- **No shape is malformed in any order.** -/
theorem not_malformed (same : graph.SameEntries graph') {cause : Malformed} : ¬ cause.Attributed graph' id := by
  -- What is wrong with the shape in the one order is seen where it was resolved in the other.
  have origin {shape : Shape} (hs : graph'.shape? id = some shape) := i.exists_origin ((same.shape?_eq id).trans hs)
  have plain' := hp.congr same
  intro h
  cases cause with
  | boundsReversed bounds =>
      obtain ⟨shape, stack, d, hs, hn, hforce, hbounds⟩ := h
      have hown := plain'.isOf hforce hs
      rw [hown.minCount?_eq, hown.maxCount?_eq] at hbounds
      have horder := i.inOrder hp ((same.shape?_eq id).trans hs) hn
      cases hbounds.symm.trans (Cardinality.ofBounds_eq_ok_iff.2 ⟨horder, rfl⟩)
  | pathNotPredicate path =>
      obtain ⟨shape, form, hs, hf, rfl, hnone⟩ := h
      have hsome := i.isSome_predicate? ((same.shape?_eq id).trans hs) hf
      rw [hnone] at hsome
      cases hsome
  | propertyPathNotPredicate =>
      obtain ⟨shape, form, hs, hf, hnone⟩ := h
      have hsome := i.isSome_predicate? ((same.shape?_eq id).trans hs) hf
      rw [hnone] at hsome
      cases hsome
  | nodeOnValueShape =>
      obtain ⟨shape, hs, hnode, hc, hno, hnodes⟩ := h
      obtain ⟨use, o, rfl⟩ := origin hs
      rcases o.resolution.finds.nodes_cases with hn | ⟨target, -, ho | ⟨hn, -⟩⟩
      · exact hnodes hn
      · cases hno.symm.trans ho
      · cases hnode.symm.trans hn
  | compositeWithParts feature =>
      obtain ⟨shape, hs, hc, -⟩ := h
      cases hc.symm.trans (plain'.isComposite_eq hs)
  | ancestorNotObject ancestor =>
      obtain ⟨shape, hs, ho, hn, hno⟩ := h
      rw [← same.declaresObject_eq] at hno
      exact hno (i.declaresObject_ancestor hp ((same.shape?_eq id).trans hs) ho hn)
  | propertyUndefined property =>
      obtain ⟨⟨shape, hs, ho, hmem⟩, hundefined⟩ := h
      obtain ⟨use, o, rfl⟩ := origin hs
      obtain ⟨other, form, hother, -⟩ := o.resolution.finds.exists_property ho hmem
      exact hundefined (same.mem_ids.1 (ShapesGraph.mem_ids.2 ⟨other, hother⟩))
  | propertyNotProperty property =>
      obtain ⟨shape, other, hs, ho, hmem, hother, hnone⟩ := h
      obtain ⟨use, o, rfl⟩ := origin hs
      obtain ⟨other', form, hother', hform⟩ := o.resolution.finds.exists_property ho hmem
      cases hother'.symm.trans ((same.shape?_eq property).trans hother)
      cases hform.symm.trans hnone
  | referenceWithValues =>
      obtain ⟨shape, target, hs, ⟨hc, hnode, hnodes⟩, -, hvalues⟩ := h
      obtain ⟨use, o, rfl⟩ := origin hs
      rcases o.resolution.finds.nodes_cases with hn | ⟨target', -, ho | ⟨-, hdatatype, hliteral⟩⟩
      · exact hnodes hn
      · cases hnode.symm.trans (Shape.isNode_of_declaresObject ho)
      · rw [hdatatype, hliteral] at hvalues
        simp at hvalues
  | referenceUndefined target =>
      obtain ⟨hrefers, hundefined⟩ := h
      rw [← same.refers_eq] at hrefers
      exact hundefined (same.mem_ids.1 (i.mem_ids_of_refers hrefers))
  | lazyNotObject kind => exact h
  | default cause =>
      obtain ⟨term, target, strict, hdefault, -⟩ := h
      exact plain'.not_effectiveDefault hdefault

/-- **No shape is ambiguous in any order.** -/
theorem not_ambiguous (same : graph.SameEntries graph') {cause : Ambiguity} : ¬ cause.Attributed graph' id := by
  have plain' := hp.congr same
  -- Of the nodes of a shape there is one at most.
  have hnodes {shape : Shape} (hs : graph'.shape? id = some shape) : ¬ 2 ≤ shape.constraints.nodes.length := by
    obtain ⟨use, o, rfl⟩ := i.exists_origin ((same.shape?_eq id).trans hs)
    rcases o.resolution.finds.nodes_cases with hn | ⟨target, hn, -⟩ <;> simp [hn]
  intro h
  cases cause with
  | connectives =>
      obtain ⟨shape, hs, hconjunction, -⟩ := h
      have hc := plain'.isComposite_eq hs
      rw [Constraints.isComposite, hconjunction] at hc
      cases hc
  | ancestors count =>
      obtain ⟨shape, hs, -, rfl, htwo⟩ := h
      exact hnodes hs htwo
  | references count =>
      obtain ⟨shape, hs, -, rfl, htwo⟩ := h
      exact hnodes hs htwo

/-- **No shape is refused in any order** once all shapes were resolved in one. -/
theorem not_refusal (same : graph.SameEntries graph') {e : InferenceError} : ¬ Refusal graph' e := by
  intro h
  cases h with
  | malformed _ hcause => exact i.not_malformed hp same hcause
  | ambiguous _ hcause => exact i.not_ambiguous hp same hcause
  | tooFewMembers hs hc => cases ((hp.congr same).composition?_eq hs).symm.trans hc

end Settled

/-! ## Lazy properties -/

/-- A shape has objects for its items: it has the type of one that declares an object, or of a list of the items
of such a shape. -/
def ShapesGraph.HasObjects (graph : ShapesGraph) (id : Node) : Prop :=
  ∃ last shape, ReflTransGen graph.StandsInFor id last ∧ graph.standIn? last = none ∧
    graph.shape? last = some shape ∧ (shape.declaresObject = true ∨ shape.isList = true ∧
      ∃ target, shape.constraints.nodes = [target] ∧ graph.StandsForObject target)

/-- What decides is the last shape that a shape stands in for. -/
theorem ShapesGraph.hasObjects_iff {id last : Node} {shape : Shape} (hpath : ReflTransGen graph.StandsInFor id last)
    (hnone : graph.standIn? last = none) (hs : graph.shape? last = some shape) :
    graph.HasObjects id ↔ shape.declaresObject = true ∨ shape.isList = true ∧
      ∃ target, shape.constraints.nodes = [target] ∧ graph.StandsForObject target := by
  refine ⟨fun ⟨last', shape', hpath', hnone', hs', h⟩ => ?_, fun h => ⟨last, shape, hpath, hnone, hs, h⟩⟩
  obtain rfl := last_unique hpath hpath' hnone hnone'
  cases hs.symm.trans hs'
  exact h

theorem ShapesGraph.SameEntries.hasObjects_eq (same : graph.SameEntries graph') (id : Node) :
    graph.HasObjects id = graph'.HasObjects id := by
  simp only [HasObjects, StandsForObject, same.standsInFor_eq, same.standIn?_eq, same.declaresObject_eq,
    same.shape?_eq]

namespace Settled

variable (i : Settled graph table strict) {id : Node}

/-- A finished slot acts as an object if the type that inference left there does. -/
theorem any_arena {x : Slot} {t : ItemType} (hx : i.state.slots[x]? = some (.type t)) :
    (i.arena[x]?).any (·.actsAsObject) = t.body.actsAsObject := by
  rw [InferenceState.getElem?_arena, hx, Option.map_some, Option.any_some, Content.actsAsObject_mapSlots,
    InferenceState.actsAsObject_settleContent]
  rfl

theorem itemContent?_of_list {x inner : Slot} {t : ItemType} (hx : i.state.slots[x]? = some (.type t))
    (hl : t.body = .list inner) : itemContent? i.arena x = i.arena[i.place inner]? := by
  obtain ⟨shape, name, doc, body⟩ := t
  cases hl
  rw [itemContent?, InferenceState.getElem?_arena, hx]
  rfl

theorem itemContent?_of_not_list {x : Slot} {t : ItemType} (hx : i.state.slots[x]? = some (.type t))
    (hl : ∀ inner, t.body ≠ .list inner) : itemContent? i.arena x = i.arena[x]? := by
  obtain ⟨shape, name, doc, body⟩ := t
  rw [itemContent?, InferenceState.getElem?_arena, hx]
  cases body with
  | list inner => exact absurd rfl (hl inner)
  | _ => rfl

/-- **The items of a shape act as objects exactly if the shape has objects in the graph.** -/
theorem actsAsObject_iff_hasObjects (hp : graph.IsPlain) {use : TypeUse} (hd : i.state.Done id use) :
    (itemContent? i.arena (i.place use.item)).any (·.actsAsObject) = true ↔ graph.HasObjects id := by
  obtain ⟨last, use', _, hpath, hnone, hlast, hplace, -⟩ := i.final.exists_last i.replacements hd
  obtain ⟨slot, next, shape, name, finding, hb⟩ := i.final.lawful.built last use' hlast
  rw [ShapesGraph.hasObjects_iff hpath hnone hb.found, Settled.place, hplace]
  cases hb.laidOut hnone with
  | item hl hfits hx =>
      rw [i.itemContent?_of_not_list hx hfits.ne_list, i.any_arena hx]
      simpa [hl, Shape.itemType] using hfits.actsAsObject_iff hp hb.found
  | list hl hfits hx hnext =>
      rw [i.itemContent?_of_list hx rfl, i.place_of_type hnext, i.any_arena hnext]
      simpa [hfits.nodes_of_isList hl, Shape.itemType] using hfits.actsAsObject_iff hp hb.found
  | listOf hl hn hnodes hd' hx =>
      obtain ⟨t, ht⟩ := i.final.exists_type_replaceSlot i.replacements (i.final.lawful.lt_of_denotes hd')
      have hno : shape.declaresObject = false := by simp [Shape.declaresObject, hn]
      rw [i.itemContent?_of_list hx rfl, i.any_arena ht, i.final.actsAsObject_iff hp i.replacements hd' ht]
      simp [hno, hl, hnodes]

/-- A lazy property shape that misses its objects has none in the graph. -/
theorem LazyMissed.not_hasObjects (hp : graph.IsPlain) {shape : Shape} (h : i.LazyMissed shape) :
    ¬ graph.HasObjects shape.id := by
  obtain ⟨use, hd, hmissed⟩ := h.missed
  rw [← i.actsAsObject_iff_hasObjects hp hd, hmissed]
  exact Bool.false_ne_true

end Settled

theorem Inferred.hasObjects {schema : Schema} (i : Inferred graph table strict schema) (hp : graph.IsPlain)
    {shape : Shape} (hs : graph.shape? shape.id = some shape) (hl : shape.property?.any (·.lazy) = true) :
    graph.HasObjects shape.id := by
  obtain ⟨form, hf, hlazy⟩ := (Option.any_eq_true _ _).1 hl
  obtain ⟨use, hmem, hacts⟩ := exists_lazy_of_checkLazy i.lazy hs hf hlazy
  obtain ⟨id, -, heq⟩ := List.mem_filterMap.1 hmem
  obtain ⟨use', hdone, heq⟩ := Option.map_eq_some_iff.1 heq
  cases heq
  exact (i.actsAsObject_iff_hasObjects hp (i.use?_state.1 hdone)).1 hacts

/-! ## Errors -/

/-- **A plain graph with a schema has one in every order of insertion.** -/
theorem exists_schema_of_sameEntries (hp : graph.IsPlain) (same : graph.SameEntries graph') {schema : Schema}
    (h : graph.infer table strict = .ok schema) : ∃ schema', graph'.infer table strict = .ok schema' := by
  obtain ⟨i⟩ := exists_inferred h
  have hcycle : ∀ shapes, graph'.infer table strict ≠ .error (.unresolvedCycle shapes) := by
    intro shapes h'
    obtain ⟨hne, hall⟩ := refers_cycle_of_unresolvedCycle h'
    obtain ⟨id, hid⟩ := List.exists_mem_of_ne_nil shapes hne
    exact i.not_refers_cycle id (same.refers_eq ▸ hall id hid)
  cases h' : graph'.infer table strict with
  | ok schema' => exact ⟨schema', rfl⟩
  | error e =>
      exfalso
      rcases infer_eq_error_cases h' with hrefusal | ⟨_, _, -, -, rfl⟩ | ⟨i', shape, kind, hmissed, -⟩ |
        ⟨_, _, -, rfl⟩
      · exact i.not_refusal hp same hrefusal
      · exact hcycle _ h'
      · have hs := (same.shape?_eq shape.id).trans hmissed.found
        have hobjects := i.hasObjects hp hs hmissed.lazy
        rw [same.hasObjects_eq] at hobjects
        exact hmissed.not_hasObjects i' (hp.congr same) hobjects
      · exact hcycle _ h'

end ShapeTypes
