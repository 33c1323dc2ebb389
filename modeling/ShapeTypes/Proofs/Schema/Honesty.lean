import ShapeTypes.Proofs.Schema.Cycles

/-!
# Errors are honest

* `InferenceError.Honest` — an error names shapes of the graph, blames a shape that is not there on one that
  refers to it, and reports no violation but a composite of fewer than two members;
* `Refusal.honest` — so does every refusal of a shape;
* `infer_honest` — **so does every error of inference.**
-/

namespace ShapeTypes

open Rdf

variable {graph : ShapesGraph} {table : PrefixTable} {strict : Bool}

/-- An error names shapes of the graph alone. A shape that is not there is blamed on one that refers to it, or
has it as a property. The only violation is that of a shape that declares one of `sh:and` and `sh:xone`, with
fewer than two members. -/
structure InferenceError.Honest (graph : ShapesGraph) (e : InferenceError) : Prop where
  declared : ∀ id ∈ e.shapes, id ∈ graph.ids
  reference : ∀ id target, e = .malformed id (.referenceUndefined target) →
    graph.Refers id target ∧ target ∉ graph.ids
  property : ∀ id property, e = .malformed id (.propertyUndefined property) →
    (∃ shape, graph.shape? id = some shape ∧ property ∈ shape.properties) ∧ property ∉ graph.ids
  violation : ∀ id cause, e = .invariant id cause → ∃ shape connective members,
    graph.shape? id = some shape ∧ shape.constraints.composition? = some (connective, members) ∧
      members.length < 2 ∧ cause = .tooFewMembers connective.feature members.length

/-- **Every refusal of a shape is honest.** -/
theorem Refusal.honest {e : InferenceError} (h : Refusal graph e) : e.Honest graph := by
  cases h with
  | malformed hid hcause =>
      constructor
      case declared => exact List.forall_mem_singleton.2 hid
      case reference =>
        intro id target heq
        cases heq
        exact hcause
      case property =>
        intro id property heq
        cases heq
        obtain ⟨⟨shape, hs, -, hmem⟩, hundefined⟩ := hcause
        exact ⟨⟨shape, hs, hmem⟩, hundefined⟩
      case violation => exact nofun
  | ambiguous hid _ => exact ⟨List.forall_mem_singleton.2 hid, nofun, nofun, nofun⟩
  | @tooFewMembers id shape connective members hs hcomp hlt =>
      constructor
      case declared => exact List.forall_mem_singleton.2 (ShapesGraph.mem_ids.2 ⟨shape, hs⟩)
      case reference => exact nofun
      case property => exact nofun
      case violation =>
        intro id cause heq
        cases heq
        exact ⟨shape, connective, members, hs, hcomp, hlt, rfl⟩

theorem honest_of_lazyNotObject {id : Node} {kind : String} (hid : id ∈ graph.ids) :
    (InferenceError.malformed id (.lazyNotObject kind)).Honest graph :=
  ⟨List.forall_mem_singleton.2 hid, nofun, nofun, nofun⟩

theorem honest_of_unresolvedCycle {shapes : List Node}
    (h : graph.infer table strict = .error (.unresolvedCycle shapes)) :
    (InferenceError.unresolvedCycle shapes).Honest graph where
  declared := by
    intro id hid
    obtain ⟨target, hrefers, -⟩ := Relation.TransGen.head'_iff.1 ((refers_cycle_of_unresolvedCycle h).2 id hid)
    exact hrefers.mem_ids
  reference := nofun
  property := nofun
  violation := nofun

/-- **Every error of inference is honest**, and none is that the table of cardinalities falls through: it has a
row for all bounds. -/
theorem infer_honest {e : InferenceError} (h : graph.infer table strict = .error e) :
    e.Honest graph ∧ ∀ min max mutable, (Cardinality.row? min max mutable).isSome = true := by
  refine ⟨?_, Cardinality.isSome_row?⟩
  rcases infer_eq_error_cases h with hrefusal | ⟨s, loose, -, -, rfl⟩ | ⟨i, shape, kind, hmissed, rfl⟩ |
    ⟨i, cycle, -, rfl⟩
  · exact hrefusal.honest
  · exact honest_of_unresolvedCycle h
  · exact honest_of_lazyNotObject (ShapesGraph.mem_ids.2 ⟨shape, hmissed.found⟩)
  · exact honest_of_unresolvedCycle h

/-! ## Graphs without a schema -/

/-- Persons know ghosts, who are not there. -/
def ShapesGraph.ghosts : ShapesGraph where
  shapes := .ofList [
    { id := .blank "Person", form := .node [.blank "knows"] },
    { id := .blank "knows", constraints := { nodes := [.blank "Ghost"] }
      form := .property { path := .predicate ⟨"http://example.org/knows"⟩ } }]

/-- A team is one of a single kind of members. -/
def ShapesGraph.loneTeam : ShapesGraph where
  shapes := .ofList [
    { id := .blank "Team", constraints := { alternatives := some [.blank "Person"] }, form := .node [] },
    { id := .blank "Person", form := .node [] }]

theorem ShapesGraph.infer_ghosts : ghosts.infer default true =
    .error (.malformed (.blank "knows") (.referenceUndefined (.blank "Ghost"))) := by
  have h : (match ghosts.infer default true with
      | .error (.malformed id (.referenceUndefined target)) =>
        id = .blank "knows" && target = .blank "Ghost"
      | _ => false) = true := by decide +kernel
  split at h
  · rename_i id target hs
    simp only [Bool.and_eq_true, decide_eq_true_eq] at h
    rw [hs, h.1, h.2]
  · cases h

theorem ShapesGraph.infer_loneTeam : loneTeam.infer default true =
    .error (.invariant (.blank "Team") (.tooFewMembers "sh:xone" 1)) := by
  have h : (match loneTeam.infer default true with
      | .error (.invariant id (.tooFewMembers feature count)) =>
        id = .blank "Team" && feature = "sh:xone" && count = 1
      | _ => false) = true := by decide +kernel
  split at h
  · rename_i id feature count hs
    simp only [Bool.and_eq_true, decide_eq_true_eq] at h
    rw [hs, h.1.1, h.1.2, h.2]
  · cases h

theorem ghosts_and_loneTeam_honest :
    (∃ e, ShapesGraph.ghosts.infer default true = .error e ∧ e.shapes = [.blank "knows"] ∧
      e.Honest ShapesGraph.ghosts ∧ ∀ min max mutable, (Cardinality.row? min max mutable).isSome = true) ∧
    ∃ e, ShapesGraph.loneTeam.infer default true = .error e ∧ e.fault = .invariantViolation ∧
      e.Honest ShapesGraph.loneTeam ∧ ∀ min max mutable, (Cardinality.row? min max mutable).isSome = true :=
  ⟨⟨_, ShapesGraph.infer_ghosts, rfl, infer_honest ShapesGraph.infer_ghosts⟩,
    _, ShapesGraph.infer_loneTeam, rfl, infer_honest ShapesGraph.infer_loneTeam⟩

end ShapeTypes
