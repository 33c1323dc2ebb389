import ShapeTypes.Proofs.Schema.Cycles

/-!
# What the report of a cycle names

A report is meant to name the shapes on a cycle. But shapes that only stand in for others have no types of their
own when cycles are looked for, and so most of them are left out.

* `ShapesGraph.Followable` — every named shape refers to a named one;
* `ShapesGraph.NamesEnds` — of shapes that stand in for each other in a circle, one is named, and the next;
* `ShapesGraph.NamesTyped` — of other shapes that refer to each other, those with types of their own are named;
* `Settled.owns_cycle_iff` — **the shapes of the slots on a structural cycle**;
* `infer_cycleReport` — **there are no other reports, and when they can be followed**;
* `roundabout_not_followable` — one that cannot.
-/

namespace ShapeTypes

open Rdf Relation

variable {graph : ShapesGraph} {table : PrefixTable} {strict : Bool}

/-! ## Reports -/

namespace ShapesGraph

/-- Every named shape refers to a named one. -/
def Followable (graph : ShapesGraph) (shapes : List Node) : Prop :=
  ∀ id ∈ shapes, ∃ target ∈ shapes, graph.Refers id target

/-- Of shapes that stand in for each other in a circle, one is named and the next, whatever lies on the way back. -/
structure NamesEnds (graph : ShapesGraph) (shapes : List Node) (first last : Node) : Prop where
  next : graph.StandsInFor last first
  back : ReflTransGen graph.StandsInFor first last
  mem_iff : ∀ id, id ∈ shapes ↔ id = first ∨ id = last

/-- Of the shapes on a cycle with a given one, those are named that stand in for none. -/
structure NamesTyped (graph : ShapesGraph) (shapes : List Node) (origin : Node) : Prop where
  origin_mem : origin ∈ shapes
  mem_iff : ∀ id, id ∈ shapes ↔
    graph.standIn? id = none ∧ TransGen graph.Refers id origin ∧ TransGen graph.Refers origin id

variable {shapes : List Node} {first last origin : Node}

/-- A shape that stands in for another one refers to nothing else. -/
theorem StandsInFor.eq_of_refers {id target target' : Node} (h : graph.StandsInFor id target)
    (hr : graph.Refers id target') : target' = target := by
  obtain ⟨shape, hs, ht⟩ := Option.bind_eq_some_iff.1 h
  obtain ⟨shape', hs', hmem⟩ := hr
  cases hs.symm.trans hs'
  rw [Constraints.references_of_not_isComposite (Shape.isComposite_of_standIn? ht),
    Shape.nodes_of_standIn? ht] at hmem
  exact List.mem_singleton.1 hmem

theorem StandsInFor.eq_of_self {id last : Node} (h : graph.StandsInFor id id)
    (hpath : ReflTransGen graph.StandsInFor id last) : last = id := by
  induction hpath with
  | refl => rfl
  | tail _ hstep ih =>
      rw [ih] at hstep
      exact Option.some.inj (hstep.symm.trans h)

/-- **Two ends can be followed if nothing lies between them.** -/
theorem NamesEnds.followable_iff (h : graph.NamesEnds shapes first last) :
    graph.Followable shapes ↔ graph.StandsInFor first last := by
  constructor
  · intro hf
    obtain ⟨target, ht, hr⟩ := hf first ((h.mem_iff first).2 (Or.inl rfl))
    rcases ReflTransGen.cases_head h.back with rfl | ⟨next, hnext, -⟩
    · exact h.next
    · obtain rfl := hnext.eq_of_refers hr
      rcases (h.mem_iff target).1 ht with rfl | rfl
      · exact hnext.eq_of_self h.back ▸ hnext
      · exact hnext
  · intro hs id hid
    rcases (h.mem_iff id).1 hid with rfl | rfl
    · exact ⟨last, (h.mem_iff last).2 (Or.inr rfl), refers_of_standIn? hs⟩
    · exact ⟨first, (h.mem_iff first).2 (Or.inl rfl), refers_of_standIn? h.next⟩

/-- **The shapes with types of their own can be followed if they refer to each other without shapes in between
that have none.** -/
theorem NamesTyped.followable_iff (h : graph.NamesTyped shapes origin) : graph.Followable shapes ↔
    ∀ id ∈ shapes, ∃ target, graph.Refers id target ∧ graph.standIn? target = none ∧
      TransGen graph.Refers target id := by
  refine forall₂_congr fun id hid => ?_
  obtain ⟨-, hto, hfrom⟩ := (h.mem_iff id).1 hid
  constructor
  · rintro ⟨target, ht, hr⟩
    obtain ⟨hnone, hback, -⟩ := (h.mem_iff target).1 ht
    exact ⟨target, hr, hnone, hback.trans hfrom⟩
  · rintro ⟨target, hr, hnone, hback⟩
    exact ⟨target, (h.mem_iff target).2 ⟨hnone, hback.trans hto, hfrom.tail hr⟩, hr⟩

end ShapesGraph

/-! ## The shapes on a structural cycle -/

namespace Settled

variable (i : Settled graph table strict) {x y slot : Slot} {id id' origin : Node}

theorem exists_type_of_step (h : i.arena.Step x y) : ∃ t, i.state.slots[x]? = some (.type t) := by
  obtain ⟨c, z, kind, hc, he, -, -⟩ := i.exists_of_step h
  cases c with
  | placeholder => cases he
  | type t => exact ⟨t, hc⟩

theorem owns_of_type {t : ItemType} (h : i.state.slots[x]? = some (.type t)) : i.state.Owns t.shape x := by
  rw [InferenceState.Owns, h]
  rfl

/-- The slot of the items of a shape leads to the other slot of that shape, if this one takes a step. -/
theorem exists_item_of_step (h : i.arena.Step x y) (ho : i.state.Owns id x) : graph.standIn? id = none ∧
    ∃ use, i.state.Done id use ∧ (x = use.item ∨ ∀ z, i.arena.Step use.item z → z = x) := by
  obtain ⟨t, ht⟩ := i.exists_type_of_step h
  obtain rfl := (i.owns_of_type ht).unique ho
  obtain ⟨use, _, _, _, _, _, hb, hnone, hcases⟩ := i.final.exists_built_of_type ht
  refine ⟨hnone, use, hb.done, hcases.imp_right ?_⟩
  rintro ⟨-, u, hu, hlist⟩ z hz
  obtain ⟨c, w, kind, hc, he, -, rfl⟩ := i.exists_of_step hz
  cases hu.symm.trans hc
  simp only [Content.edges, Content.type?, hlist, Body.edges, List.mem_singleton, Prod.mk.injEq] at he
  rw [he.2, i.place_of_type ht]

/-- Shapes of slots on one structural cycle refer to each other. -/
theorem refers_of_steps (h : TransGen i.arena.Step x y) (hback : TransGen i.arena.Step y x)
    (hx : i.state.Owns id x) (hy : i.state.Owns id' y) : TransGen graph.Refers id id' := by
  obtain ⟨source, target, hx', hy', hrefers | ⟨rfl, -⟩⟩ := i.exists_owners_of_steps h
  · rwa [hx.unique hx', hy.unique hy']
  · obtain ⟨self, hself, hrefers⟩ := i.exists_on_cycle (h.trans hback)
    rwa [hx.unique hself, hy.unique hy', hx'.unique hself]

/-- The slot of the items of a shape that stands in for none belongs to it, and stays where it is. -/
theorem owns_item {use : TypeUse} (hd : i.state.Done id use) (hnone : graph.standIn? id = none) :
    i.state.Owns id use.item ∧ i.place use.item = use.item := by
  obtain ⟨t, ht, rfl⟩ := i.final.exists_type_item hd hnone
  exact ⟨i.owns_of_type ht, i.place_of_type ht⟩

/-- References between such shapes are structural steps between the slots of their items. -/
theorem steps_of_items {use use' : TypeUse} (hd : i.state.Done id use) (hd' : i.state.Done id' use')
    (hnone : graph.standIn? id = none) (hnone' : graph.standIn? id' = none) (hr : TransGen graph.Refers id id') :
    TransGen i.arena.Step use.item use'.item := by
  obtain ⟨use'', hd'', hsteps | ⟨-, hs⟩⟩ := i.steps_of_path hd hr
  · rw [hd''.unique hd', (i.owns_item hd hnone).2, (i.owns_item hd' hnone').2] at hsteps
    exact hsteps
  · obtain ⟨next, hnext, -⟩ := TransGen.head'_iff.1 hs
    rw [ShapesGraph.StandsInFor, hnone] at hnext
    cases hnext

/-- **The shapes of the slots on a structural cycle** are those that refer to each other and stand in for none. -/
theorem owns_cycle_iff (hslot : TransGen i.arena.Step slot slot) (ho : i.state.Owns origin slot) (id : Node) :
    (∃ x, (TransGen i.arena.Step slot x ∧ TransGen i.arena.Step x slot) ∧ i.state.Owns id x) ↔
      graph.standIn? id = none ∧ TransGen graph.Refers id origin ∧ TransGen graph.Refers origin id := by
  constructor
  · rintro ⟨x, ⟨hto, hfrom⟩, hx⟩
    obtain ⟨y, hstep, -⟩ := TransGen.head'_iff.1 hfrom
    exact ⟨(i.exists_item_of_step hstep hx).1, i.refers_of_steps hfrom hto hx ho, i.refers_of_steps hto hfrom ho hx⟩
  · rintro ⟨hnone, hto, hfrom⟩
    obtain ⟨next, hrefers, -⟩ := TransGen.head'_iff.1 hto
    obtain ⟨use, hd⟩ := i.final.complete id hrefers.mem_ids
    obtain ⟨y, hstep, -⟩ := TransGen.head'_iff.1 hslot
    obtain ⟨hnone', use', hd', hcases⟩ := i.exists_item_of_step hstep ho
    have hitem := i.steps_of_items hd' hd hnone' hnone hfrom
    have hback := i.steps_of_items hd hd' hnone hnone' hto
    refine ⟨use.item, ?_, (i.owns_item hd hnone).1⟩
    rcases hcases with rfl | honly
    · exact ⟨hitem, hback⟩
    · -- The list of the origin leads to the slot of the cycle, and nowhere else.
      obtain ⟨z, hz, hrest⟩ := TransGen.head'_iff.1 hitem
      obtain rfl := honly z hz
      exact ⟨hslot.trans_left hrest, hback.tail hz⟩

end Settled

/-! ## What is reported -/

/-- **What a reported cycle names, and when it can be followed.** Either two shapes that stand in for each other,
the second perhaps by others that are not named; or the shapes that stand in for none among those that refer to
each other, perhaps by others that do and are not named. -/
theorem infer_cycleReport {shapes : List Node} (h : graph.infer table strict = .error (.unresolvedCycle shapes)) :
    (∃ first last, graph.NamesEnds shapes first last ∧
      (graph.Followable shapes ↔ graph.StandsInFor first last)) ∨
    ∃ origin, graph.NamesTyped shapes origin ∧
      (graph.Followable shapes ↔ ∀ id ∈ shapes, ∃ target, graph.Refers id target ∧ graph.standIn? target = none ∧
        TransGen graph.Refers target id) := by
  rcases unresolvedCycle_cases h with ⟨s, loose, hfinal, hloose, rfl⟩ | ⟨i, cycle, hcycle, rfl⟩
  · obtain ⟨before, a, after, hsplit, ha, hbefore⟩ := Alias.exists_first_loose _ hloose
    obtain ⟨first, last, hnext, hback, hmem⟩ := hfinal.exists_ends_of_loose hsplit ha hbefore
    have hnames : graph.NamesEnds (distinctNodes loose) first last :=
      ⟨hnext, hback, fun id => mem_distinctNodes.trans (hmem id)⟩
    exact Or.inl ⟨first, last, hnames, hnames.followable_iff⟩
  · obtain ⟨slot, hslot, hmem⟩ := Arena.exists_of_structuralCycle? hcycle
    obtain ⟨origin, ho, -⟩ := i.exists_on_cycle hslot
    have hshapes : ∀ id, id ∈ distinctNodes (cycle.filterMap fun slot => (i.arena[slot]?).map (·.shape)) ↔
        ∃ x, (TransGen i.arena.Step slot x ∧ TransGen i.arena.Step x slot) ∧ i.state.Owns id x := by
      simp only [i.mem_shapesOf, hmem, implies_true]
    have hnames : graph.NamesTyped _ origin :=
      ⟨(hshapes origin).2 ⟨slot, ⟨hslot, hslot⟩, ho⟩, fun id => (hshapes id).trans (i.owns_cycle_iff hslot ho id)⟩
    exact Or.inr ⟨origin, hnames, hnames.followable_iff⟩

/-! ## A report that cannot be followed -/

namespace ShapesGraph

/-- Three properties that refer to each other in a circle. -/
def roundabout : ShapesGraph where
  shapes := .ofList [
    { id := .blank "a", constraints := { nodes := [.blank "b"] }, form := .property { path := .predicate ⟨"p"⟩ } },
    { id := .blank "b", constraints := { nodes := [.blank "c"] }, form := .property { path := .predicate ⟨"p"⟩ } },
    { id := .blank "c", constraints := { nodes := [.blank "a"] }, form := .property { path := .predicate ⟨"p"⟩ } }]

/-- The shapes of the first alias without an end that inference leaves. -/
def looseShapes? (graph : ShapesGraph) : Option (List Node) :=
  match (resolveAll graph true).run { names := .ofTable default } with
  | .error _ => none
  | .ok (_, s) =>
    match Alias.replacements s.aliases with
    | .error shapes => some shapes
    | .ok _ => none

theorem infer_of_looseShapes? {shapes : List Node} (h : graph.looseShapes? = some shapes) :
    graph.infer default true = .error (.unresolvedCycle (distinctNodes shapes)) := by
  unfold looseShapes? at h
  split at h
  · cases h
  · rename_i u s hs
    split at h
    · rename_i shapes' hloose
      cases h
      have hreplace : s.settleEarlyUses.replaceAliases graph.ids =
          .error (.unresolvedCycle (distinctNodes shapes)) := by
        show (match Alias.replacements s.aliases with | .error _ => _ | .ok _ => _) = _
        rw [hloose]
      exact bind_eq_error.2 (Or.inr ⟨(u, s), hs, bind_eq_error.2 (Or.inl hreplace)⟩)
    · cases h

theorem infer_roundabout :
    roundabout.infer default true = .error (.unresolvedCycle (distinctNodes [.blank "c", .blank "a"])) :=
  infer_of_looseShapes? (by decide +kernel)

end ShapesGraph

/-- The second property is not named, although the first one refers to nothing else. -/
theorem roundabout_not_followable :
    ShapesGraph.roundabout.infer default true =
        .error (.unresolvedCycle (distinctNodes [.blank "c", .blank "a"])) ∧
      ¬ ShapesGraph.roundabout.Followable (distinctNodes [.blank "c", .blank "a"]) := by
  refine ⟨ShapesGraph.infer_roundabout, fun h => ?_⟩
  obtain ⟨target, ht, hr⟩ := h (.blank "a") (mem_distinctNodes.2 (by decide))
  have hnext : ShapesGraph.roundabout.StandsInFor (.blank "a") (.blank "b") := rfl
  obtain rfl := hnext.eq_of_refers hr
  exact absurd (mem_distinctNodes.1 ht) (by decide)

theorem roundabout_cycleReport :
    let shapes := distinctNodes [.blank "c", .blank "a"]
    (∃ first last, ShapesGraph.roundabout.NamesEnds shapes first last ∧
      (ShapesGraph.roundabout.Followable shapes ↔ ShapesGraph.roundabout.StandsInFor first last)) ∨
    ∃ origin, ShapesGraph.roundabout.NamesTyped shapes origin ∧
      (ShapesGraph.roundabout.Followable shapes ↔ ∀ id ∈ shapes, ∃ target,
        ShapesGraph.roundabout.Refers id target ∧ ShapesGraph.roundabout.standIn? target = none ∧
          TransGen ShapesGraph.roundabout.Refers target id) :=
  infer_cycleReport ShapesGraph.infer_roundabout

end ShapeTypes
