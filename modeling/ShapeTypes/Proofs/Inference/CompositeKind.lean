import ShapeTypes.Proofs.Inference.ObjectTyping

/-!
# Composites that are not taken for composites of objects

A composite that comes back to one of its members, through a property, is found while that member is still
being resolved.

* `Lawful.actsAsObject_of_declares` — the slot of a shape that declares an object always acts as one;
* `Final.exists_generic_member` — **a composite that is not one of objects has a member that does not act as
  an object, or one that asks for the composite** and declares no object itself.
-/

namespace ShapeTypes

open Rdf Relation

variable {graph : ShapesGraph} {strict : Bool} {s u : InferenceState} {x y : Slot}

theorem follow_of_aliasOf?_none {aliases : List Alias} (h : aliasOf? aliases x = none) :
    follow aliases x = x :=
  (Alias.Chain.ends h).follow_eq

/-- No alias is registered for the slot of a shape that stands in for none. -/
theorem Lawful.aliasOf?_of_holds (h : Lawful graph u) {id : Node} (hy : u.Holds id y)
    (hs : graph.standIn? id = none) : aliasOf? u.aliases y = none := by
  cases ha : aliasOf? u.aliases y with
  | none => rfl
  | some a =>
      obtain ⟨hmem, rfl⟩ := aliasOf?_some ha
      obtain ⟨_, -, -, hh, hsome⟩ := h.alias_done a hmem
      rw [h.eq_of_holds hh hy, hs] at hsome
      cases hsome

/-- **The slot of a shape that declares an object acts as one**, from when the shape is entered. -/
theorem Lawful.actsAsObject_of_declares (h : Lawful graph u) {id : Node} (hy : u.Denotes y id)
    (ho : graph.DeclaresObject id) : u.actsAsObject y = true := by
  have hh : u.Holds id y := by
    rcases hy with hh | ⟨use, hd, rfl⟩
    · exact hh
    · obtain ⟨slot, next, shape, name, finding, hb⟩ := h.built id use hd
      rw [(hb.exists_object ho).1]
      exact hb.holds
  rw [InferenceState.actsAsObject_iff, follow_of_aliasOf?_none (h.aliasOf?_of_holds hh ho.standIn?_eq)]
  rcases h.progress?_of_holds hh with ⟨c, hp⟩ | ⟨use, hd⟩
  · exact Or.inl ((h.openObjects y).2 ⟨id, c, hp, ho⟩)
  · obtain ⟨slot, next, shape, name, finding, hb⟩ := h.built id use hd
    obtain ⟨-, t, ht, hacts⟩ := hb.exists_object ho
    rw [h.unique id slot y hb.holds hh] at ht
    exact Or.inr ⟨t, ht, hacts⟩

/-! ## Members -/

theorem ShapesGraph.Composes.refers {id m : Node} (h : graph.Composes id m) : graph.Refers id m := by
  obtain ⟨shape, connective, members, hs, hc, hm⟩ := h
  exact ⟨shape, hs, Constraints.mem_references_of_composition? hc hm⟩

theorem ShapesGraph.Composes.standIn? {id m : Node} (h : graph.Composes id m) :
    graph.standIn? id = none := by
  obtain ⟨shape, connective, members, hs, hc, -⟩ := h
  have hcomposite : shape.constraints.isComposite = true := by
    cases hi : shape.constraints.isComposite with
    | true => rfl
    | false =>
        rw [Constraints.composition?_eq_none hi] at hc
        cases hc
  rw [ShapesGraph.standIn?, hs, Option.bind_some, Shape.standIn?]
  split
  · simp [hcomposite]
  · rfl

/-- The slots of the members of a composite stand for the shapes that it is composed of. -/
theorem Fits.exists_member {shape : Shape} {connective : Connective} {ofObjects : Bool} {members : List Slot}
    {id : Node} (h : Fits graph s shape (.type (.composite connective ofObjects members)))
    (hs : graph.shape? id = some shape) (hy : y ∈ members) : ∃ m, graph.Composes id m ∧ s.Denotes y m := by
  cases h with
  | composite hc _ _ _ hm =>
      obtain ⟨m, hmem, hd⟩ := exists_of_mem_forall₂ hm hy
      exact ⟨m, ⟨shape, connective, _, hs, hc, hmem⟩, hd⟩
  | value _ _ _ hvalue => cases hvalue

namespace Final

variable (h : Final graph s) {r : List (Slot × Slot)} (hr : Alias.replacements s.aliases = .ok r)

include h hr

/-- The type in a slot that stands for a shape is of one that the shape stands in for, or its own. -/
theorem exists_type_of_denotes {id : Node} (hy : s.Denotes y id) :
    ∃ d, s.slots[replaceSlot r y]? = some (.type d) ∧ ReflTransGen graph.StandsInFor id d.shape := by
  obtain ⟨use, hd⟩ := h.exists_done_of_denotes hy
  obtain ⟨last, use', d, hpath, -, -, hlast, ht, rfl⟩ := h.exists_last hr hd
  exact ⟨d, by rw [h.replaceSlot_of_denotes hr hy hd, hlast, ht], hpath⟩

/-- A shape that stands in for none has its type where its items are. -/
theorem exists_type_of_done {id : Node} {use : TypeUse} (hd : s.Done id use)
    (hs : graph.standIn? id = none) :
    ∃ d, s.slots[replaceSlot r use.item]? = some (.type d) ∧ d.shape = id := by
  obtain ⟨slot, next, shape, name, finding, hb⟩ := h.lawful.built id use hd
  obtain ⟨d, hd', hid⟩ := hb.exists_type_item hs
  exact ⟨d, by rw [h.replaceSlot_of_type hr hd', hd'], hid⟩

/-- A composite does not have the items of one of its members, unless shapes refer to themselves. -/
theorem place_ne_of_composes (hacyclic : ∀ id, ¬ TransGen graph.Refers id id) {id m : Node} {use : TypeUse}
    (hd : s.Done id use) (hm : graph.Composes id m) (hy : s.Denotes y m) :
    replaceSlot r y ≠ replaceSlot r use.item := by
  intro hplace
  obtain ⟨t, ht, rfl⟩ := h.exists_type_of_done hr hd hm.standIn?
  obtain ⟨d, hd', hpath⟩ := h.exists_type_of_denotes hr hy
  rw [hplace, ht] at hd'
  cases hd'
  have hback : ReflTransGen graph.Refers m t.shape :=
    ReflTransGen.mono (fun _ _ => ShapesGraph.refers_of_standIn?) _ _ hpath
  exact hacyclic t.shape (.head' hm.refers hback)

/-- If only a place is there for a member when a composite is left, the shape of the type that the member has at
last asks for the composite. -/
theorem exists_type_of_placeholder (hall : ∀ id use, s.Done id use → Nonempty (Origin graph strict id use s))
    {id m : Node} {use : TypeUse} (o : Origin graph strict id use s) {body : Body}
    (hfinding : o.resolution.finding = .type body) (hd : o.resolution.t₂.Denotes y m)
    (hne : replaceSlot r y ≠ replaceSlot r use.item) {other : Node}
    (hcontent : o.resolution.t₂.slots[follow o.resolution.t₂.aliases y]? = some (.placeholder other)) :
    ∃ d, s.slots[replaceSlot r y]? = some (.type d) ∧ ReflTransGen graph.StandsInFor m d.shape ∧
      TransGen graph.Asks d.shape id := by
  obtain ⟨hend, -, hplace⟩ := exists_end hr o.keeps₂ y
  rw [← hplace] at hne
  have hown : follow o.resolution.t₂.aliases y ≠ o.before.slots.length := by
    intro hown
    rw [hown, h.replaceSlot_of_denotes hr (Or.inl o.built.holds) o.built.done] at hne
    exact hne rfl
  have haliases : (o.request.answered graph o.scopes o.after).aliases = o.resolution.t₂.aliases := by
    rw [o.resolution.aliases_answered, hfinding]
    exact List.append_nil _
  have hlt := (List.getElem?_eq_some_iff.1 hcontent).1
  obtain ⟨last, uselast, hdone, hnone, hlast, hasks⟩ :=
    h.exists_last_asks hr o.kept o.leaving ((o.resolution.getElem?_answered hlt hown).trans hcontent)
      (haliases ▸ hend)
      (fun use' hd' hh _ hitem =>
        hne ((h.replaceSlot_of_denotes hr (Or.inl hh) hd').trans (congrArg _ hitem)))
      fun id use hd => by
        obtain ⟨o⟩ := hall id use hd
        exact o.exists_leaving
  obtain ⟨d, ht, hpath⟩ := h.exists_type_of_denotes hr (hd.mono o.keeps₂)
  obtain ⟨d', ht', rfl⟩ := h.exists_type_of_done hr hdone hnone
  rw [← hlast, hplace, ht] at ht'
  cases ht'
  exact ⟨d, ht, hpath, hasks⟩

/-- **A composite that is not one of objects has a member that does not act as an object**, or one that
declares no object itself and asks for the composite. -/
theorem exists_generic_member (hacyclic : ∀ id, ¬ TransGen graph.Refers id id)
    (hall : ∀ id use, s.Done id use → Nonempty (Origin graph strict id use s))
    {t : ItemType} (hx : s.slots[x]? = some (.type t)) {connective : Connective} {members : List Slot}
    (hc : t.body = .composite connective false members) : ∃ y ∈ members, ∃ d,
      s.slots[replaceSlot r y]? = some (.type d) ∧ (d.body.actsAsObject = false ∨
        ∃ m, graph.Composes t.shape m ∧ ¬ graph.DeclaresObject m ∧
          ReflTransGen graph.StandsInFor m d.shape ∧ TransGen graph.Asks d.shape t.shape) := by
  obtain ⟨use, o, hfinding⟩ := h.exists_finds hall hx (by simp [hc])
  rw [hc] at hfinding
  have hofObjects := (hfinding ▸ o.resolution.finds).ofObjects_eq
  obtain ⟨y, hy, hacts⟩ := List.all_eq_false.1 hofObjects.symm
  obtain ⟨m, hm, hd⟩ := (hfinding ▸ o.resolution.fits).exists_member o.built.found hy
  refine ⟨y, hy, ?_⟩
  have hlt := o.lawful₂.follow_lt (o.lawful₂.lt_of_denotes hd)
  obtain ⟨c, hcontent⟩ : ∃ c, o.resolution.t₂.slots[follow o.resolution.t₂.aliases y]? = some c :=
    ⟨_, List.getElem?_eq_getElem hlt⟩
  cases c with
  | type d =>
      obtain ⟨-, -, hplace⟩ := exists_end hr o.keeps₂ y
      have hkept := type_kept o.lawful₂ o.keeps₂ hcontent
      refine ⟨d, by rw [← hplace, h.replaceSlot_of_type hr hkept, hkept], Or.inl ?_⟩
      exact Bool.eq_false_iff.2 fun ha => hacts (InferenceState.actsAsObject_iff.2 (Or.inr ⟨d, hcontent, ha⟩))
  | placeholder other =>
      -- The member is still being resolved when the composite is left.
      have hne := h.place_ne_of_composes hr hacyclic o.built.done hm (hd.mono o.keeps₂)
      obtain ⟨d, ht, hpath, hasks⟩ := h.exists_type_of_placeholder hr hall o hfinding hd hne hcontent
      exact ⟨d, ht, Or.inr ⟨m, hm, fun ho => hacts (o.lawful₂.actsAsObject_of_declares hd ho), hpath, hasks⟩⟩

end Final

end ShapeTypes
