import ShapeTypes.Proofs.Inference.Growth

/-!
# Scopes are chains of composites

* `ShapesGraph.Composes` — a shape is a member of a composite;
* `ShapesGraph.EffectiveDefault` — the default of a shape, or else of a composite that it is a member of;
* `Composed` — each shape of a scope is a member of the one below;
  `Composed.effectiveDefault` — **the first default in a scope is one of the innermost shape**;
* `ShapesGraph.InForce` — such a scope, with a given shape on top;
* `Request.InScope` — a shape is asked for in a scope that it may be put on top of;
  `Entering.inScope_references`, `Entering.inForce` — **every shape is entered in such a scope.**
-/

namespace ShapeTypes

open Rdf

variable {graph : ShapesGraph}

/-- A shape is a member of a composite. -/
def ShapesGraph.Composes (graph : ShapesGraph) (composite member : Node) : Prop :=
  ∃ shape connective members, graph.shape? composite = some shape ∧
    shape.constraints.composition? = some (connective, members) ∧ member ∈ members

theorem ShapesGraph.not_composes {id : Node}
    (h : ∀ shape ∈ graph.shapes.entries, ∀ parts ∈ shape.constraints.composition?, id ∉ parts.2)
    (composite : Node) : ¬ graph.Composes composite id := by
  rintro ⟨shape, connective, members, hs, hc, hmember⟩
  exact h shape (ShapesGraph.shape?_eq_some hs).1 (connective, members) hc hmember

/-- A default of a shape: its own, or without one, a default of a composite that it is a member of. -/
inductive ShapesGraph.EffectiveDefault (graph : ShapesGraph) : Node → Term → Prop where
  | own {id shape term} : graph.shape? id = some shape → shape.defaultValue? = some term →
      EffectiveDefault graph id term
  | inherited {id shape composite term} : graph.shape? id = some shape → shape.defaultValue? = none →
      graph.Composes composite id → EffectiveDefault graph composite term →
      EffectiveDefault graph id term

/-- Frames of shapes of the graph, each a member of the one below. -/
inductive Composed (graph : ShapesGraph) : List Frame → Prop where
  | nil : Composed graph []
  | cons {frame frames} : graph.shape? frame.shape.id = some frame.shape →
      (∀ below ∈ frames.head?, graph.Composes below.shape.id frame.shape.id) → Composed graph frames →
      Composed graph (frame :: frames)

/-- **The first default in a scope is one of the innermost shape.** -/
theorem Composed.effectiveDefault {frames : List Frame} {frame : Frame} {term : Term}
    (h : Composed graph (frame :: frames))
    (ht : (frame :: frames).findSome? (fun f => f.shape.defaultValue?) = some term) :
    graph.EffectiveDefault frame.shape.id term := by
  induction frames generalizing frame with
  | nil =>
      cases h with
      | cons hs _ _ =>
          cases hd : frame.shape.defaultValue? with
          | some t =>
              simp only [List.findSome?_cons, hd, Option.some.injEq] at ht
              exact .own hs (hd.trans (congrArg some ht))
          | none => simp [hd] at ht
  | cons below frames ih =>
      cases h with
      | cons hs hbelow hrest =>
          cases hd : frame.shape.defaultValue? with
          | some t =>
              simp only [List.findSome?_cons, hd, Option.some.injEq] at ht
              exact .own hs (hd.trans (congrArg some ht))
          | none =>
              rw [List.findSome?_cons, hd] at ht
              exact .inherited hs hd (hbelow below rfl) (ih hrest ht)

/-- A scope in which a shape may be resolved: it is on top, and each shape is a member of the one below. -/
def ShapesGraph.InForce (graph : ShapesGraph) (id : Node) (stack : ConstraintStack) : Prop :=
  ∃ frame frames, stack.frames = frame :: frames ∧ frame.shape.id = id ∧ Composed graph (frame :: frames)

theorem ShapesGraph.InForce.effectiveDefault {id : Node} {stack : ConstraintStack} (h : graph.InForce id stack)
    {term : Term} (ht : stack.defaultValue? = some term) : graph.EffectiveDefault id term := by
  obtain ⟨frame, frames, hframes, rfl, hc⟩ := h
  rw [ConstraintStack.defaultValue?, ConstraintStack.find?, hframes] at ht
  exact hc.effectiveDefault ht

/-- A shape is asked for in a scope that it may be put on top of. -/
def Request.InScope (graph : ShapesGraph) (r : Request) (scopes : List ConstraintStack) : Prop :=
  ∀ outer rest, r.openScopes scopes = outer :: rest → Composed graph outer.frames ∧
    ∀ below ∈ outer.frames.head?, graph.Composes below.shape.id r.id

/-- Only members of composites are put on top of other shapes. -/
theorem Request.inScope_of_ne_member {r : Request} (h : r.purpose ≠ .member)
    (scopes : List ConstraintStack) : r.InScope graph scopes := by
  intro outer rest heq
  rw [openScopes, if_neg h] at heq
  cases heq
  exact ⟨.nil, by simp [ConstraintStack.empty]⟩

theorem ConstraintStack.frames_of_push {s t : ConstraintStack} {f : Frame} (h : s.push f = (none, t)) :
    t.frames = f :: s.frames := by
  unfold push at h
  split at h
  · cases h
  · cases h
    rfl

/-- A shape that is put on top of the scope that it is asked for in. -/
theorem Request.InScope.inForce {r : Request} {scopes rest : List ConstraintStack}
    {outer stack : ConstraintStack} {frame : Frame} (h : r.InScope graph scopes)
    (hopen : r.openScopes scopes = outer :: rest) (hframe : graph.frame? r.id = some frame)
    (hpush : outer.push frame = (none, stack)) : graph.InForce r.id stack := by
  obtain ⟨houter, hbelow⟩ := h _ _ hopen
  obtain ⟨hshape, hid⟩ := ShapesGraph.frame?_eq_some hframe
  refine ⟨frame, outer.frames, ConstraintStack.frames_of_push hpush, hid, .cons ?_ ?_ houter⟩
  · rw [hid]
    exact hshape
  · intro below hmem
    rw [hid]
    exact hbelow below hmem

namespace Entering

variable {s : InferenceState} {r : Request} (v : Entering graph s r)

theorem stack_frames : v.stack.frames = v.frame :: v.outer.frames :=
  ConstraintStack.frames_of_push v.pushed

/-- **The scope that a shape is entered in is a chain of composites.** -/
theorem inForce (h : r.InScope graph s.scopes) : graph.InForce r.id v.stack :=
  h.inForce v.opened v.found v.pushed

theorem composed (h : r.InScope graph s.scopes) : Composed graph v.stack.frames := by
  obtain ⟨frame, frames, hframes, -, hc⟩ := v.inForce h
  rw [hframes]
  exact hc

theorem inScope_references (h : r.InScope graph s.scopes) :
    ∀ q ∈ v.shape.referenceRequests, q.InScope graph v.begun.scopes := by
  intro q hq
  unfold Shape.referenceRequests at hq
  split at hq
  · rename_i connective members hc
    obtain ⟨member, hmember, rfl⟩ := List.mem_map.1 hq
    intro outer rest heq
    have hscopes : v.begun.scopes = v.stack :: v.rest := rfl
    rw [Request.openScopes, if_pos rfl, hscopes] at heq
    cases heq
    refine ⟨v.composed h, fun below hbelow => ?_⟩
    rw [v.stack_frames] at hbelow
    cases hbelow
    exact ⟨v.shape, connective, members, by rw [v.id_shape]; exact v.shape?_id, hc, hmember⟩
  · obtain ⟨target, -, rfl⟩ := List.mem_map.1 hq
    exact Request.inScope_of_ne_member (by simp) _

theorem inScope_properties (scopes : List ConstraintStack) :
    ∀ q ∈ v.shape.propertyRequests, q.InScope graph scopes := by
  intro q hq
  unfold Shape.propertyRequests at hq
  split at hq
  · obtain ⟨id, -, rfl⟩ := List.mem_map.1 hq
    exact Request.inScope_of_ne_member (by simp) _
  · cases hq

/-- The default of a shape is one of those it has in the graph. -/
theorem effectiveDefault (h : r.InScope graph s.scopes) {term : Term}
    (ht : v.stack.defaultValue? = some term) : graph.EffectiveDefault r.id term :=
  (v.inForce h).effectiveDefault ht

end Entering

end ShapeTypes
