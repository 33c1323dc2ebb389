import ShapeTypes.Proofs.Schema.Acyclic
import ShapeTypes.Proofs.Schema.Failure

/-!
# Cycles are accepted when they cross a property

* `Settled.exists_owners_of_step` — a structural step leads to a shape that the one before refers to, or from
  a list to its items;
* `Settled.exists_on_cycle` — **a slot on a structural cycle belongs to a shape that refers to itself**;
* `unresolvedCycle_cases` — where a reported cycle comes from;
* `Schema.IsAcyclic` — shapes do not refer to themselves, and types do not contain themselves;
* `infer_cycles` — **inferred schemas are acyclic, and reported cycles are cycles.**
-/

namespace ShapeTypes

open Rdf Relation

variable {graph : ShapesGraph} {table : PrefixTable} {strict : Bool}

/-! ## The shapes of slots -/

namespace InferenceState

/-- What a slot holds belongs to a shape. -/
def Owns (s : InferenceState) (id : Node) (x : Slot) : Prop := (s.slots[x]?).map (·.shape) = some id

def IsList (s : InferenceState) (x : Slot) : Prop := ∃ c y, s.slots[x]? = some c ∧ (.item, y) ∈ c.edges

theorem Owns.unique {s : InferenceState} {id id' : Node} {x : Slot} (h : s.Owns id x)
    (h' : s.Owns id' x) : id = id' :=
  Option.some.inj (h.symm.trans h')

end InferenceState

namespace Settled

variable (i : Settled graph table strict) {x y : Slot}

/-- A slot that stands for a shape is replaced by one of a shape that it stands in for, or its own. -/
theorem exists_owner_place {id : Node} (h : i.state.Denotes y id) :
    ∃ last, ReflTransGen graph.Refers id last ∧ i.state.Owns last (i.place y) := by
  obtain ⟨use, hd⟩ := i.final.exists_done_of_denotes h
  obtain ⟨last, use', t, hpath, -, -, hplace, ht, rfl⟩ := i.final.exists_last i.replacements hd
  have hy : i.place y = use'.item := (i.final.replaceSlot_of_denotes i.replacements h hd).trans hplace
  refine ⟨t.shape, ReflTransGen.mono (fun _ _ => ShapesGraph.refers_of_standIn?) _ _ hpath, ?_⟩
  rw [hy, InferenceState.Owns, ht]
  rfl

/-- What lies behind a list is none. -/
theorem not_isList_of_behindList {d : Content} (hy : i.state.slots[y]? = some d)
    (h : BehindList graph i.state y d) : ¬ i.state.IsList y := by
  rintro ⟨c, z, hc, he⟩
  cases hy.symm.trans hc
  obtain ⟨_, _, _, _, _, hb, hi⟩ := h
  exact (hb.exists_edge_inner hi he).1 rfl

/-- **A structural step goes from a shape to one that it refers to**, or from a list to items that are the
shape's own. -/
theorem exists_owners_of_step (h : i.arena.Step x y) : ∃ source target, i.state.Owns source x ∧
    i.state.Owns target y ∧
      (TransGen graph.Refers source target ∨ source = target ∧ i.state.IsList x ∧ ¬ i.state.IsList y) := by
  obtain ⟨c, z, kind, hc, he, hk, rfl⟩ := i.exists_of_step h
  have hx : i.state.Owns c.shape x := by
    rw [InferenceState.Owns, hc]
    rfl
  rcases i.final.exists_edge hc he with ⟨id, hd, hrefers⟩ | ⟨rfl, d, hd, hshape, hbehind⟩
  · obtain ⟨last, hpath, hlast⟩ := i.exists_owner_place hd
    exact ⟨c.shape, last, hx, hlast, Or.inl (.head' (hrefers hk) hpath)⟩
  · obtain ⟨_, _, _, _, _, -, hi⟩ := id hbehind
    obtain ⟨t, rfl⟩ := Finding.exists_type_of_inner hi
    rw [i.place_of_type hd]
    refine ⟨c.shape, c.shape, hx, ?_, Or.inr ⟨rfl, ⟨c, z, hc, he⟩, i.not_isList_of_behindList hd hbehind⟩⟩
    rw [InferenceState.Owns, hd, Option.map_some, hshape]

theorem exists_owners_of_steps (h : TransGen i.arena.Step x y) : ∃ source target,
    i.state.Owns source x ∧ i.state.Owns target y ∧
      (TransGen graph.Refers source target ∨ source = target ∧ i.state.IsList x ∧ ¬ i.state.IsList y) := by
  induction h with
  | single h => exact i.exists_owners_of_step h
  | tail _ h ih =>
      obtain ⟨source, between, hx, hy, hfirst⟩ := ih
      obtain ⟨between', target, hy', hz, hlast⟩ := i.exists_owners_of_step h
      obtain rfl := hy.unique hy'
      refine ⟨source, target, hx, hz, Or.inl ?_⟩
      rcases hfirst with hfirst | ⟨rfl, -, hnot⟩
      · rcases hlast with hlast | ⟨rfl, -⟩
        · exact hfirst.trans hlast
        · exact hfirst
      · rcases hlast with hlast | ⟨-, hlist, -⟩
        · exact hlast
        · exact absurd hlist hnot

/-- **A slot on a structural cycle belongs to a shape that refers to itself.** -/
theorem exists_on_cycle (h : TransGen i.arena.Step x x) :
    ∃ id, i.state.Owns id x ∧ TransGen graph.Refers id id := by
  obtain ⟨source, target, hx, hx', hrefers | ⟨-, hlist, hnot⟩⟩ := i.exists_owners_of_steps h
  · exact ⟨source, hx, hx.unique hx' ▸ hrefers⟩
  · exact absurd hlist hnot

end Settled

/-! ## Where reported cycles come from -/

theorem mem_distinctNodes {n : Node} {ns : List Node} : n ∈ distinctNodes ns ↔ n ∈ ns := by
  simp [distinctNodes, sortNodes]

theorem distinctNodes_ne_nil {ns : List Node} (h : ns ≠ []) : distinctNodes ns ≠ [] := by
  obtain ⟨n, hn⟩ := List.exists_mem_of_ne_nil ns h
  exact List.ne_nil_of_mem (mem_distinctNodes.2 hn)

theorem Settled.mem_shapesOf (i : Settled graph table strict) {cycle : List Slot} {id : Node} :
    id ∈ distinctNodes (cycle.filterMap fun slot => (i.arena[slot]?).map (·.shape)) ↔
      ∃ x ∈ cycle, i.state.Owns id x := by
  have hshape : ∀ x : Slot, (i.arena[x]?).map (·.shape) = (i.state.slots[x]?).map (·.shape) := by
    intro x
    rw [InferenceState.getElem?_arena, Option.map_map]
    congr 1
    funext c
    exact (Content.shape_mapSlots _ _).trans InferenceState.shape_settleContent
  simp only [mem_distinctNodes, List.mem_filterMap, hshape]
  rfl

/-- **A reported cycle is one of aliases, or a structural one.** -/
theorem unresolvedCycle_cases {shapes : List Node}
    (h : graph.infer table strict = .error (.unresolvedCycle shapes)) :
    (∃ s loose, Final graph s ∧ Alias.replacements s.aliases = .error loose ∧
      shapes = distinctNodes loose) ∨
    ∃ (i : Settled graph table strict) (cycle : List Slot), i.arena.structuralCycle? = some cycle ∧
      shapes = distinctNodes (cycle.filterMap fun slot => (i.arena[slot]?).map (·.shape)) := by
  rcases infer_eq_error_cases h with hno | ⟨s, loose, hs, hloose, heq⟩ | ⟨_, _, _, -, heq⟩ |
    ⟨i, cycle, hcycle, heq⟩
  · cases hno
  · cases heq
    exact Or.inl ⟨s, loose, hs, hloose, rfl⟩
  · cases heq
  · cases heq
    exact Or.inr ⟨i, cycle, hcycle, rfl⟩

theorem refers_cycle_of_unresolvedCycle {shapes : List Node}
    (h : graph.infer table strict = .error (.unresolvedCycle shapes)) :
    shapes ≠ [] ∧ ∀ id ∈ shapes, TransGen graph.Refers id id := by
  rcases unresolvedCycle_cases h with ⟨s, loose, hfinal, hloose, rfl⟩ | ⟨i, cycle, hcycle, rfl⟩
  · obtain ⟨before, a, after, hsplit, ha, hbefore⟩ := Alias.exists_first_loose _ hloose
    obtain ⟨hne, hall⟩ := hfinal.on_cycle_of_loose hsplit ha hbefore
    exact ⟨distinctNodes_ne_nil hne, fun id hid => hall id (mem_distinctNodes.1 hid)⟩
  · obtain ⟨hne, hall⟩ := Arena.structuralCycle?_some hcycle
    constructor
    · obtain ⟨x, hx⟩ := List.exists_mem_of_ne_nil cycle hne
      obtain ⟨id, hid, -⟩ := i.exists_on_cycle (hall x hx)
      exact List.ne_nil_of_mem (i.mem_shapesOf.2 ⟨x, hx, hid⟩)
    · intro id hid
      obtain ⟨x, hx, ho⟩ := i.mem_shapesOf.1 hid
      obtain ⟨id', ho', hrefers⟩ := i.exists_on_cycle (hall x hx)
      exact ho.unique ho' ▸ hrefers

/-! ## Acyclic schemas -/

/-- Shapes do not refer to themselves, and types do not contain themselves, except across a property. -/
structure Schema.IsAcyclic (s : Schema) (graph : ShapesGraph) : Prop where
  shapes : ∀ id, ¬ TransGen graph.Refers id id
  slots : ∀ slot, ¬ TransGen (Arena.Contains s.slots) slot slot

/-- **Inferred schemas are acyclic, and reported cycles are cycles.** -/
theorem infer_cycles (graph : ShapesGraph) (table : PrefixTable) (strict : Bool) :
    (∀ schema, graph.infer table strict = .ok schema → schema.IsAcyclic graph) ∧
    ∀ shapes, graph.infer table strict = .error (.unresolvedCycle shapes) →
      shapes ≠ [] ∧ ∀ id ∈ shapes, TransGen graph.Refers id id := by
  constructor
  · intro schema h
    obtain ⟨i⟩ := exists_inferred h
    exact ⟨i.not_refers_cycle, i.not_contains_cycle⟩
  · intro shapes h
    exact refers_cycle_of_unresolvedCycle h

/-- A shape that is its own ancestor. -/
def ShapesGraph.ownAncestor : ShapesGraph where
  shapes := .ofList [
    { id := .blank "Person", constraints := { nodes := [.blank "Person"] }, form := .node [] }]

theorem ShapesGraph.exists_cycle_ownAncestor :
    ∃ shapes, ownAncestor.infer default true = .error (.unresolvedCycle shapes) := by
  have h : (match ownAncestor.infer default true with
      | .error (.unresolvedCycle _) => true
      | _ => false) = true := by decide +kernel
  split at h
  · rename_i shapes hs
    exact ⟨shapes, hs⟩
  · cases h

theorem people_and_ownAncestor_cycles :
    (∃ schema, ShapesGraph.people.infer default true = .ok schema ∧
      schema.IsAcyclic ShapesGraph.people) ∧
    ∃ shapes, ShapesGraph.ownAncestor.infer default true = .error (.unresolvedCycle shapes) ∧
      shapes ≠ [] ∧ ∀ id ∈ shapes, TransGen ShapesGraph.ownAncestor.Refers id id := by
  obtain ⟨schema, h⟩ := ShapesGraph.exists_schema_people
  obtain ⟨shapes, h'⟩ := ShapesGraph.exists_cycle_ownAncestor
  exact ⟨⟨schema, h, (infer_cycles _ _ _).1 schema h⟩, shapes, h', (infer_cycles _ _ _).2 shapes h'⟩

end ShapeTypes
