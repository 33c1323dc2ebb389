import ShapeTypes.Proofs.Inference.StandIn
import ShapeTypes.Proofs.Schema.Inferred

/-!
# References between shapes are structural steps

* `Fits.exists_edge_of_reference` — a shape with a type of its own has an edge for each of its references;
* `Settled.steps_of_refers` — **a reference between shapes is one step or more between their types**, unless
  the one shape stands in for the other;
* `Inferred.not_refers_cycle`, `Inferred.not_contains_cycle` — **shapes of a schema do not refer to
  themselves, and slots do not contain themselves**, except across a property.
-/

namespace ShapeTypes

open Rdf Relation

variable {graph : ShapesGraph} {table : PrefixTable} {strict : Bool}

/-- A type that agrees with what its shape declares has an edge for each reference. -/
theorem Fits.exists_edge_of_reference {s : InferenceState} {shape : Shape} {body : Body}
    (h : Fits graph s shape (.type body)) {target : Node} (ht : target ∈ shape.constraints.references) :
    ∃ kind y, (kind, y) ∈ body.edges ∧ kind ≠ .property ∧ s.Denotes y target := by
  cases h with
  | composite hc _ hn _ hm =>
      rw [Constraints.references_of_composition? hc, hn, List.nil_append] at ht
      obtain ⟨y, hy, hd⟩ := exists_of_mem_forall₂ (List.Forall₂.flip (R := flip _) hm) ht
      exact ⟨.member, y, List.mem_map_of_mem hy, by simp, hd⟩
  | object ho hp _ =>
      rw [Constraints.references_of_not_isComposite (Shape.isComposite_of_declaresObject ho)] at ht
      rcases hp with ⟨hn, -⟩ | ⟨ancestor, y, hn, hparent, hd⟩
      · simp [hn] at ht
      · rw [hn, List.mem_singleton] at ht
        subst ht
        exact ⟨.parent, y, by simp [Body.edges, hparent], by simp, hd⟩
  | value hc _ hn _ =>
      simp [Constraints.references_of_not_isComposite hc, hn] at ht

namespace Settled

variable (i : Settled graph table strict) {source target : Node} {use : TypeUse}

/-- A reference to a shape leads to the place of its items. -/
theorem exists_place {y : Slot} (hy : i.state.Denotes y target) :
    ∃ use, i.state.Done target use ∧ i.place y = i.place use.item := by
  obtain ⟨use, hd⟩ := i.final.exists_done_of_denotes hy
  exact ⟨use, hd, i.final.replaceSlot_of_denotes i.replacements hy hd⟩

/-- **A reference between shapes is one structural step or more**, unless the one stands in for the other. -/
theorem steps_of_refers (hd : i.state.Done source use) (hr : graph.Refers source target) :
    ∃ use', i.state.Done target use' ∧
      (TransGen i.arena.Step (i.place use.item) (i.place use'.item) ∨
        i.place use.item = i.place use'.item ∧ graph.StandsInFor source target) := by
  obtain ⟨slot, next, shape, name, finding, hb⟩ := i.final.lawful.built source use hd
  obtain ⟨shape', hshape, ht⟩ := hr
  cases hb.found.symm.trans hshape
  have hitem := hb.item
  have hown := hb.own
  cases finding with
  | type body =>
      obtain ⟨kind, y, he, hk, hy⟩ := hb.fits.exists_edge_of_reference ht
      obtain ⟨use', hd', hplace⟩ := i.exists_place hy
      refine ⟨use', hd', Or.inl ?_⟩
      simp only [Finding.item] at hitem
      rw [hitem, ← hplace]
      cases hl : shape.isList with
      | false =>
          simp only [Finding.own, hl] at hown
          rw [i.place_of_type hown]
          exact .single (i.step_of_edge hown he hk)
      | true =>
          -- The list comes in between.
          simp only [Finding.own, hl] at hown
          have hinner := hb.inner (.type (shape.itemType name body)) (by simp [Finding.inner, hl])
          have hlist := i.step_of_edge hown (List.mem_singleton_self (EdgeKind.item, next)) (by simp)
          rw [i.place_of_type hinner] at hlist
          rw [i.place_of_type hown]
          exact .tail (.single hlist) (i.step_of_edge hinner he hk)
  | standsFor y =>
      cases hb.fits with
      | reference hc hn hnodes hy =>
          rw [Constraints.references_of_not_isComposite hc, hnodes, List.mem_singleton] at ht
          subst ht
          obtain ⟨use', hd', hplace⟩ := i.exists_place hy
          refine ⟨use', hd', ?_⟩
          cases hl : shape.isList with
          | false =>
              simp only [Finding.item, hl] at hitem
              refine Or.inr ⟨by rw [hitem, hplace], ?_⟩
              simp [ShapesGraph.StandsInFor, ShapesGraph.standIn?, hb.found, Shape.standIn?, hnodes, hn, hl, hc]
          | true =>
              simp only [Finding.item, hl] at hitem
              simp only [Finding.own, hl] at hown
              rw [hitem, ← hplace, i.place_of_type hown]
              exact Or.inl (.single (i.step_of_edge hown (List.mem_singleton_self (EdgeKind.item, y))
                (by simp)))

/-- Several references after each other are steps as well, or the last shape stands in for the first. -/
theorem steps_of_path (hd : i.state.Done source use) (hr : TransGen graph.Refers source target) :
    ∃ use', i.state.Done target use' ∧
      (TransGen i.arena.Step (i.place use.item) (i.place use'.item) ∨
        i.place use.item = i.place use'.item ∧ TransGen graph.StandsInFor source target) := by
  induction hr with
  | single hr =>
      obtain ⟨use', hd', hstep | ⟨hplace, hs⟩⟩ := i.steps_of_refers hd hr
      · exact ⟨use', hd', Or.inl hstep⟩
      · exact ⟨use', hd', Or.inr ⟨hplace, .single hs⟩⟩
  | tail _ hr ih =>
      obtain ⟨use₁, hd₁, ih⟩ := ih
      obtain ⟨use₂, hd₂, hlast⟩ := i.steps_of_refers hd₁ hr
      refine ⟨use₂, hd₂, ?_⟩
      rcases ih with hsteps | ⟨hplace, hs⟩
      · rcases hlast with hstep | ⟨hplace', -⟩
        · exact Or.inl (hsteps.trans hstep)
        · exact Or.inl (hplace' ▸ hsteps)
      · rcases hlast with hstep | ⟨hplace', hs'⟩
        · exact Or.inl (hplace ▸ hstep)
        · exact Or.inr ⟨hplace.trans hplace', hs.tail hs'⟩

end Settled

namespace Arena

variable {a : Arena} {keep : List Slot}

/-- A slot of the compacted arena contains what the slot it is the place of contains. -/
theorem exists_contains_compact (h : a.Closed keep) {x j : Slot} (hx : x ∈ keep)
    (hc : (a.compact keep).Contains (renumber keep x) j) :
    ∃ y ∈ keep, a.Step x y ∧ renumber keep y = j := by
  obtain ⟨c, kind, hc, he, hk⟩ := hc
  rw [getElem?_compact h.lt hx, Option.map_eq_some_iff] at hc
  obtain ⟨d, hd, rfl⟩ := hc
  rw [Content.edges_mapSlots, List.mem_map] at he
  obtain ⟨⟨_, y⟩, hy, heq⟩ := he
  cases heq
  have hkeep : y ∈ keep := h.links x hx y ⟨d, hd, List.mem_map_of_mem hy⟩
  exact ⟨y, hkeep, mem_structuralSuccessors.2 ⟨⟨d, kind, hd, hy, hk⟩, h.lt y hkeep⟩, rfl⟩

theorem exists_steps_compact (h : a.Closed keep) {x j : Slot} (hx : x ∈ keep)
    (hc : TransGen (a.compact keep).Contains (renumber keep x) j) :
    ∃ y ∈ keep, TransGen a.Step x y ∧ renumber keep y = j := by
  induction hc with
  | single hc =>
      obtain ⟨y, hy, hstep, hj⟩ := exists_contains_compact h hx hc
      exact ⟨y, hy, .single hstep, hj⟩
  | tail _ hc ih =>
      obtain ⟨y, hy, hsteps, rfl⟩ := ih
      obtain ⟨z, hz, hstep, hj⟩ := exists_contains_compact h hy hc
      exact ⟨z, hz, hsteps.tail hstep, hj⟩

theorem renumber_inj {x y : Slot} (hx : x ∈ keep) (hy : y ∈ keep)
    (h : renumber keep x = renumber keep y) : x = y := by
  have hget := getElem?_renumber hx
  rw [h, getElem?_renumber hy] at hget
  exact (Option.some.inj hget).symm

end Arena

namespace Inferred

variable {schema : Schema} (i : Inferred graph table strict schema)

include i

/-- **No shape refers to itself**, whatever shapes are in between. -/
theorem not_refers_cycle (id : Node) : ¬ TransGen graph.Refers id id := by
  intro hcycle
  obtain ⟨target, hfirst, -⟩ := TransGen.head'_iff.1 hcycle
  obtain ⟨use, hd⟩ := i.final.complete id hfirst.mem_ids
  obtain ⟨use', hd', hsteps | ⟨-, hs⟩⟩ := i.steps_of_path hd hcycle
  · rw [hd.unique hd'] at hsteps
    exact Arena.structuralCycle?_none i.acyclic _ hsteps
  · exact i.final.not_standIn_cycle i.replacements hd hs

/-- **No slot of the schema contains itself**, whatever slots are in between. -/
theorem not_contains_cycle (slot : Slot) : ¬ TransGen (Arena.Contains schema.slots) slot slot := by
  intro hcycle
  obtain ⟨_, ⟨c, _, hc, -⟩, -⟩ := TransGen.head'_iff.1 hcycle
  obtain ⟨x, hx, rfl⟩ := i.exists_mem_keep (List.getElem?_eq_some_iff.1 hc).1
  rw [i.slots_eq] at hcycle
  obtain ⟨y, hy, hsteps, hxy⟩ := Arena.exists_steps_compact i.closed hx hcycle
  rw [Arena.renumber_inj hy hx hxy] at hsteps
  exact Arena.structuralCycle?_none i.acyclic x hsteps

end Inferred

end ShapeTypes
