import ShapeTypes.Proofs.Inference.History
import ShapeTypes.Proofs.Inference.Scope

/-!
# When a shape is left

* `ShapesGraph.Asks` — resolving a shape asks for another one;
* `Resolution.exists_inside` — **what is recorded while a shape is resolved is asked for by it**, directly or
  not;
* `Leaving` — what holds in the state in which a shape is left;
* `Origin` — how a resolved shape was resolved; `Visit.exists_origin_where`, `Visit.exists_origin` — **every
  resolved shape has an origin.**
-/

namespace ShapeTypes

open Rdf Relation

variable {graph : ShapesGraph} {strict : Bool}

/-- Resolving a shape asks for another one: one that it refers to, or a property of its object. -/
def ShapesGraph.Asks (graph : ShapesGraph) (source target : Node) : Prop :=
  ∃ shape, graph.shape? source = some shape ∧
    (target ∈ shape.constraints.references ∨ shape.declaresObject = true ∧ target ∈ shape.properties)

theorem Shape.id_mem_references {shape : Shape} {q : Request} (h : q ∈ shape.referenceRequests) :
    q.id ∈ shape.constraints.references := by
  unfold referenceRequests at h
  split at h
  · rename_i connective members hc
    obtain ⟨member, hmember, rfl⟩ := List.mem_map.1 h
    exact Constraints.mem_references_of_composition? hc hmember
  · obtain ⟨target, htarget, rfl⟩ := List.mem_map.1 h
    simp [Constraints.references, htarget]

theorem Shape.id_mem_properties {shape : Shape} {q : Request} (h : q ∈ shape.propertyRequests) :
    shape.declaresObject = true ∧ q.id ∈ shape.properties := by
  unfold propertyRequests at h
  split at h
  · rename_i ho
    obtain ⟨id, hid, rfl⟩ := List.mem_map.1 h
    exact ⟨ho, hid⟩
  · cases h

namespace Resolution

variable {s t : InferenceState} {r : Request} {use : TypeUse} (v : Resolution graph strict s r use t)

include v

theorem asks_reference {q : Request} (h : q ∈ v.shape.referenceRequests) : graph.Asks r.id q.id :=
  ⟨v.shape, v.shape?_id, Or.inl (Shape.id_mem_references h)⟩

theorem asks_property {q : Request} (h : q ∈ v.shape.propertyRequests) : graph.Asks r.id q.id :=
  ⟨v.shape, v.shape?_id, Or.inr (Shape.id_mem_properties h)⟩

end Resolution

/-- What is recorded in a visit is asked for by the requests, directly or not. -/
theorem Visit.exists_inside {s s' : InferenceState} {rs : List Request} {us : List TypeUse}
    (h : Visit graph strict s rs us s') : ∃ inside : Memo, s'.memo = inside ++ s.memo ∧
      ∀ e ∈ inside, ∃ q ∈ rs, ReflTransGen graph.Asks q.id e.1 := by
  induction h using Visit.induction with
  | nil => exact ⟨[], rfl, by simp⟩
  | @known s s' r rs us p _ _ ih =>
      obtain ⟨inside, hmemo, hasked⟩ := ih
      obtain ⟨handedOut, heq⟩ := InferenceState.exists_touched (s := s) (r := r) (p := p)
      refine ⟨inside, by rw [hmemo, heq]; rfl, fun e he => ?_⟩
      obtain ⟨q, hq, hpath⟩ := hasked e he
      exact ⟨q, List.mem_cons_of_mem _ hq, hpath⟩
  | @first s t s' r rs use us v _ ih₁ ih₂ ih =>
      obtain ⟨inside₁, hmemo₁, hasked₁⟩ := ih₁
      obtain ⟨inside₂, hmemo₂, hasked₂⟩ := ih₂
      obtain ⟨rest, hmemo, hasked⟩ := ih
      have hall : s'.memo = (rest ++ (r.id, .resolved use) :: inside₂ ++ inside₁ ++
          [(r.id, .resolving s.slots.length v.early)]) ++ s.memo := by
        rw [hmemo, v.memo_answered, hmemo₂, hmemo₁, v.memo_begun]
        simp
      refine ⟨_, hall, fun e he => ?_⟩
      simp only [List.mem_append, List.mem_cons, List.not_mem_nil, or_false] at he
      rcases he with ((he | rfl | he) | he) | rfl
      · obtain ⟨q, hq, hpath⟩ := hasked e he
        exact ⟨q, List.mem_cons_of_mem _ hq, hpath⟩
      · exact ⟨r, List.mem_cons_self, .refl⟩
      · obtain ⟨q, hq, hpath⟩ := hasked₂ e he
        exact ⟨r, List.mem_cons_self, .head (v.asks_property hq) hpath⟩
      · obtain ⟨q, hq, hpath⟩ := hasked₁ e he
        exact ⟨r, List.mem_cons_self, .head (v.asks_reference hq) hpath⟩
      · exact ⟨r, List.mem_cons_self, .refl⟩

/-- **What holds when a shape is left.** Its cardinality is the final one in this state. What was recorded
since it was entered is asked for by it, and what is still being resolved was entered before. -/
structure Leaving (graph : ShapesGraph) (strict : Bool) (id : Node) (use : TypeUse)
    (s : InferenceState) : Prop where
  lawful : Lawful graph s
  cardinality : ∃ shape stack, graph.shape? id = some shape ∧
    (∀ term, stack.defaultValue? = some term → graph.EffectiveDefault id term) ∧
      FinalCardinality strict s shape stack use.item use.cardinality
  course : ∃ inside slot c before,
    s.memo = (id, .resolved use) :: (inside ++ (id, .resolving slot c) :: before) ∧
      (∀ e ∈ inside, TransGen graph.Asks id e.1) ∧
        ∀ other x c', s.progress? other = some (.resolving x c') → (other, .resolving x c') ∈ before

namespace Resolution

variable {s t : InferenceState} {r : Request} {use : TypeUse} (v : Resolution graph strict s r use t)

/-- **What is recorded while a shape is resolved is asked for by it**, directly or not. -/
theorem exists_inside : ∃ inside : Memo,
    v.t₂.memo = inside ++ (r.id, .resolving s.slots.length v.early) :: s.memo ∧
      ∀ e ∈ inside, TransGen graph.Asks r.id e.1 := by
  obtain ⟨inside₁, hmemo₁, hasked₁⟩ := v.references.exists_inside
  obtain ⟨inside₂, hmemo₂, hasked₂⟩ := v.properties.exists_inside
  refine ⟨inside₂ ++ inside₁, by rw [hmemo₂, hmemo₁, v.memo_begun, List.append_assoc], fun e he => ?_⟩
  rcases List.mem_append.1 he with he | he
  · obtain ⟨q, hq, hpath⟩ := hasked₂ e he
    exact .head' (v.asks_property hq) hpath
  · obtain ⟨q, hq, hpath⟩ := hasked₁ e he
    exact .head' (v.asks_reference hq) hpath

include v in
/-- What is still being resolved when a shape is left was being resolved when it was entered. -/
theorem resolving_before {scopes : List ConstraintStack} {other : Node} {x : Slot} {c : Cardinality}
    (h : (r.answered graph scopes t).progress? other = some (.resolving x c)) :
    s.progress? other = some (.resolving x c) := by
  have hne : other ≠ r.id := by
    rintro rfl
    have hdone : (r.answered graph scopes t).Done r.id use := v.done_answered
    rw [InferenceState.Done, h] at hdone
    cases hdone
  rw [v.progress?_answered hne] at h
  have hbegun : v.begun.progress? other = s.progress? other := by
    rw [InferenceState.progress?_begun, v.id_shape, if_neg hne]
  cases hs : s.progress? other with
  | none =>
      rw [hs] at hbegun
      rcases v.extends_begun.fresh other hbegun with hnone | ⟨use', hdone⟩
      · rw [hnone] at h
        cases h
      · rw [hdone] at h
        cases h
  | some p =>
      rw [hs] at hbegun
      exact (v.extends_begun.known other p hbegun).symm.trans h

theorem leaving {scopes : List ConstraintStack} (hr : r.InScope graph s.scopes)
    (h : Lawful graph v.t₂) : Leaving graph strict r.id use (r.answered graph scopes t) where
  lawful := v.lawful h
  cardinality := by
    refine ⟨v.shape, v.stack, v.shape?_id, fun _ => v.effectiveDefault hr, v.leaves.cardinality.congr ?_⟩
    exact congrArg (fun t => (r.answered graph scopes t).targetAt? use.item) v.leaves.state
  course := by
    obtain ⟨inside, hmemo, hasked⟩ := v.exists_inside
    refine ⟨inside, s.slots.length, v.early, s.memo, by rw [v.memo_answered, hmemo], hasked,
      fun other x c hother => InferenceState.mem_memo_of_progress? (v.resolving_before hother)⟩

end Resolution

/-! ## Where resolved shapes come from -/

/-- How a shape was resolved on the way to a state: from a lawful state and in scope, and what held of
resolved shapes when it was left does so at last. -/
structure Origin (graph : ShapesGraph) (strict : Bool) (id : Node) (use : TypeUse) (s' : InferenceState) where
  before : InferenceState
  after : InferenceState
  request : Request
  scopes : List ConstraintStack
  resolution : Resolution graph strict before request use after
  id_request : request.id = id
  lawful : Lawful graph before
  inScope : request.InScope graph before.scopes
  kept : (request.answered graph scopes after).Keeps s'

namespace Origin

variable {id : Node} {use : TypeUse} {s s' : InferenceState}

/-- A later state has the same shape resolved. -/
def mono (o : Origin graph strict id use s) (k : s.Keeps s') : Origin graph strict id use s' :=
  { o with kept := o.kept.trans k }

variable (o : Origin graph strict id use s)

theorem shape?_id : graph.shape? id = some o.resolution.shape := by
  have h := o.resolution.shape?_id
  rw [o.id_request] at h
  exact h

theorem lawful₁ : Lawful graph o.resolution.t₁ :=
  o.resolution.references.lawful (o.lawful.begun o.resolution.toEntering)

theorem lawful₂ : Lawful graph o.resolution.t₂ := o.resolution.properties.lawful o.lawful₁

theorem keeps₂ : o.resolution.t₂.Keeps s := o.resolution.keeps_answered.trans o.kept

theorem keeps₁ : o.resolution.t₁.Keeps s := o.resolution.extends₂.keeps.trans o.keeps₂

theorem leaving : Leaving graph strict id use (o.request.answered graph o.scopes o.after) := by
  obtain ⟨_, _, _, _, v, rfl, hlawful, hscope, -⟩ := o
  exact v.leaving hscope (v.properties.lawful (v.references.lawful (hlawful.begun v.toEntering)))

/-- The cardinality of the shape is the final one in the state in which it is left. -/
theorem finalCardinality : FinalCardinality strict (o.request.answered graph o.scopes o.after)
    o.resolution.shape o.resolution.stack use.item use.cardinality := by
  refine o.resolution.leaves.cardinality.congr ?_
  exact congrArg (fun t => (o.request.answered graph o.scopes t).targetAt? use.item) o.resolution.leaves.state

include o in
theorem exists_leaving : ∃ u : InferenceState, u.Keeps s ∧ Leaving graph strict id use u :=
  ⟨_, o.kept, o.leaving⟩

theorem built : Built graph s id use o.before.slots.length o.resolution.t₂.slots.length o.resolution.shape
    o.resolution.name o.resolution.finding := by
  obtain ⟨_, _, _, _, v, rfl, _, _, hkept⟩ := o
  exact v.built.mono hkept

end Origin

/-- **Every resolved shape has an origin.** What holds of the requests of a visit, and of the requests of each
shape whose own request it holds of, holds of the request that the shape was resolved for. -/
theorem Visit.exists_origin_where {Q : Request → List ConstraintStack → Prop}
    (inScope : ∀ {r : Request} {scopes : List ConstraintStack}, Q r scopes → r.InScope graph scopes)
    (references : ∀ {s : InferenceState} {r : Request} (v : Entering graph s r), Q r s.scopes →
      ∀ q ∈ v.shape.referenceRequests, Q q v.begun.scopes)
    (properties : ∀ {s : InferenceState} {r : Request} (v : Entering graph s r) (scopes : List ConstraintStack),
      Q r s.scopes → ∀ q ∈ v.shape.propertyRequests, Q q scopes)
    {s s' : InferenceState} {rs : List Request} {us : List TypeUse}
    (h : Visit graph strict s rs us s') (hr : ∀ r ∈ rs, Q r s.scopes) (hs : Lawful graph s)
    (hall : ∀ id use, s.Done id use → ∃ o : Origin graph strict id use s, Q o.request o.before.scopes) :
    ∀ id use, s'.Done id use → ∃ o : Origin graph strict id use s', Q o.request o.before.scopes := by
  induction h using Visit.induction with
  | nil => exact hall
  | @known s s' r rs us p hp hv ih =>
      have k : s.Keeps (r.answered graph s.scopes (s.touched r p)) :=
        InferenceState.extends_known.keeps
      obtain ⟨handedOut, heq⟩ := InferenceState.exists_touched (s := s) (r := r) (p := p)
      refine ih (fun q hq => hr q (List.mem_cons_of_mem _ hq))
        (hs.of_eq k (by rw [heq]; rfl) (by rw [heq]; rfl) (by rw [heq]; rfl) (by rw [heq]; rfl))
        fun id use hd => ?_
      rw [heq] at hd
      obtain ⟨o, ho⟩ := hall id use hd
      exact ⟨o.mono k, ho⟩
  | @first s t s' r rs use us v hv ih₁ ih₂ ih =>
      have hr' := hr r List.mem_cons_self
      have hbegun : ∀ id use, v.begun.Done id use →
          ∃ o : Origin graph strict id use v.begun, Q o.request o.before.scopes := by
        intro id use' hd
        obtain ⟨o, ho⟩ := hall id use' (v.done_of_begun hd)
        exact ⟨o.mono v.keeps_begun, ho⟩
      have h₁ := v.references.lawful (hs.begun v.toEntering)
      have h₂ := v.properties.lawful h₁
      have hall₁ := ih₁ (references v.toEntering hr') (hs.begun v.toEntering) hbegun
      have hall₂ := ih₂ (properties v.toEntering _ hr') h₁ hall₁
      refine ih (fun q hq => hr q (List.mem_cons_of_mem _ hq)) (v.lawful h₂) fun id use' hd => ?_
      by_cases hid : id = r.id
      · subst hid
        rw [hd.unique v.done_answered]
        exact ⟨⟨s, t, r, s.scopes, v, rfl, hs, inScope hr', (InferenceState.Extends.refl _).keeps⟩, hr'⟩
      · rw [InferenceState.Done, v.progress?_answered hid] at hd
        obtain ⟨o, ho⟩ := hall₂ id use' hd
        exact ⟨o.mono v.keeps_answered, ho⟩

/-- **Every resolved shape has an origin.** -/
theorem Visit.exists_origin {s s' : InferenceState} {rs : List Request} {us : List TypeUse}
    (h : Visit graph strict s rs us s') (hr : ∀ r ∈ rs, r.InScope graph s.scopes)
    (hs : Lawful graph s)
    (hall : ∀ id use, s.Done id use → Nonempty (Origin graph strict id use s)) :
    ∀ id use, s'.Done id use → Nonempty (Origin graph strict id use s') := by
  intro id use hd
  have hall' : ∀ id use, s.Done id use →
      ∃ o : Origin graph strict id use s, o.request.InScope graph o.before.scopes := by
    intro id use hd
    obtain ⟨o⟩ := hall id use hd
    exact ⟨o, o.inScope⟩
  obtain ⟨o, -⟩ := h.exists_origin_where (Q := Request.InScope graph) (fun hr => hr) (fun v => v.inScope_references)
    (fun v scopes _ => v.inScope_properties scopes) hr hs hall' id use hd
  exact ⟨o⟩

/-- **Every shape of a successful run has an origin.** -/
theorem exists_origin_of_resolveAll {names : NameBook} {s : InferenceState} {u : Unit}
    (h : (resolveAll graph strict).Gives { names } u s) {id : Node} {use : TypeUse} (hd : s.Done id use) :
    Nonempty (Origin graph strict id use s) := by
  obtain ⟨us, hv⟩ := visit_of_resolveAll h
  refine hv.exists_origin (fun r hr => ?_) .empty (fun id use hd => ?_) id use hd
  · obtain ⟨id, -, rfl⟩ := List.mem_map.1 hr
    exact Request.inScope_of_ne_member (by simp) _
  · simp [InferenceState.Done, InferenceState.progress?] at hd

end ShapeTypes
