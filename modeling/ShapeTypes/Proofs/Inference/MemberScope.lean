import ShapeTypes.Proofs.Inference.OwnScope

/-!
# In which scope a member of a composite is resolved

A member is resolved when it is asked for first, by its composite or for itself.

* `Visit.append_cases` — a visit is one of its first requests, and then one of the others;
* `InferenceState.Closed` — what a resolved shape asks for is known; `Visit.closed` — **visits keep it so**;
* `ShapesGraph.ComposedFirst` — a shape before the member in the graph leads to its composite;
  `Visit.done_iff_composedFirst` — the member is resolved before its turn exactly then;
  `Visit.exists_origin_onTop` — and it is asked for on top of its composite;
* `exists_origin_of_composedFirst`, `exists_origin_of_not_composedFirst` — **a member is resolved on top of its
  composite if that is so, and in a scope of its own if it is not.**
-/

namespace ShapeTypes

open Rdf Relation

variable {graph : ShapesGraph} {strict : Bool}

/-! ## Parts of visits -/

/-- **A visit is one of its first requests, and then one of the others.** -/
theorem Visit.append_cases : ∀ (rs : List Request) {s s' : InferenceState} {rs' : List Request}
    {us : List TypeUse}, Visit graph strict s (rs ++ rs') us s' →
    ∃ us₁ us₂ t, Visit graph strict s rs us₁ t ∧ Visit graph strict t rs' us₂ s'
  | [], s, s', rs', us, h => ⟨[], us, s, .nil, h⟩
  | r :: rs, s, s', rs', us, h => by
    rcases Visit.cons_cases h with ⟨p, us', hp, rfl, hv⟩ | ⟨use, us', t, rfl, ⟨v⟩, hv⟩
    · obtain ⟨us₁, us₂, u, h₁, h₂⟩ := Visit.append_cases rs hv
      exact ⟨p.use :: us₁, us₂, u, .known hp h₁, h₂⟩
    · obtain ⟨us₁, us₂, u, h₁, h₂⟩ := Visit.append_cases rs hv
      exact ⟨use :: us₁, us₂, u, .first v.new v.found v.opened v.pushed v.bounds v.predicate v.references
        v.properties v.finds v.leaves h₁, h₂⟩

theorem Visit.isSome_progress? {s s' : InferenceState} {rs : List Request} {us : List TypeUse}
    (h : Visit graph strict s rs us s') : ∀ r ∈ rs, (s'.progress? r.id).isSome = true := by
  induction h using Visit.induction with
  | nil => exact fun r hr => by cases hr
  | @known s s' r rs us p hp hv ih =>
      intro q hq
      rcases List.mem_cons.1 hq with rfl | hq
      · rw [(InferenceState.extends_known.trans hv.extends).known _ _ hp]
        rfl
      · exact ih q hq
  | first v hv _ _ ih =>
      intro q hq
      rcases List.mem_cons.1 hq with rfl | hq
      · rw [hv.extends.known _ _ v.done_answered]
        rfl
      · exact ih q hq

/-- Shapes that are asked for when none is being resolved are resolved at last. -/
theorem Visit.exists_done {names : NameBook} {s : InferenceState} {rs : List Request} {us : List TypeUse}
    (h : Visit graph strict { names } rs us s) {id : Node} (hid : (s.progress? id).isSome = true) :
    ∃ use, s.Done id use := by
  rcases h.extends.fresh id rfl with hnone | hdone
  · rw [hnone] at hid
    cases hid
  · exact hdone

/-! ## What is known when a shape is resolved -/

/-- A shape that was found to be something has asked for all that it refers to. -/
theorem Finds.exists_request {shape : Shape} {s t t' : InferenceState} {refs props : List TypeUse}
    {finding : Finding} (h : Finds graph shape s refs t props finding t') {target : Node}
    (ht : target ∈ shape.constraints.references) : ∃ q ∈ shape.referenceRequests, q.id = target := by
  have hnodes : shape.constraints.isComposite = false → ∃ q ∈ shape.referenceRequests, q.id = target := by
    intro hc
    rw [Constraints.references_of_not_isComposite hc] at ht
    rw [Shape.referenceRequests, Constraints.composition?_eq_none hc]
    exact ⟨⟨.reference, target⟩, List.mem_map_of_mem ht, rfl⟩
  cases h with
  | composite hcomp _ hn _ =>
      rw [Constraints.references_of_composition? hcomp, hn, List.nil_append] at ht
      rw [Shape.referenceRequests, hcomp]
      exact ⟨⟨.member, target⟩, List.mem_map_of_mem ht, rfl⟩
  | object ho _ _ => exact hnodes (Shape.isComposite_of_declaresObject ho)
  | reference hc _ _ _ _ => exact hnodes hc
  | value hc _ _ _ => exact hnodes hc

theorem ShapesGraph.Composes.asks {composite member : Node} (h : graph.Composes composite member) :
    graph.Asks composite member := by
  obtain ⟨shape, connective, members, hs, hc, hmember⟩ := h
  exact ⟨shape, hs, Or.inl (Constraints.mem_references_of_composition? hc hmember)⟩

/-- What a resolved shape asks for is known. -/
def InferenceState.Closed (graph : ShapesGraph) (s : InferenceState) : Prop :=
  ∀ id use, s.Done id use → ∀ target, graph.Asks id target → (s.progress? target).isSome = true

/-- What the shape itself asks for is known when it is left. -/
theorem Resolution.isSome_progress? {s t : InferenceState} {r : Request} {use : TypeUse}
    (v : Resolution graph strict s r use t) {target : Node} (h : graph.Asks r.id target) :
    (v.t₂.progress? target).isSome = true := by
  obtain ⟨shape, hs, hasked⟩ := h
  cases hs.symm.trans v.shape?_id
  rcases hasked with href | ⟨ho, hprop⟩
  · obtain ⟨q, hq, rfl⟩ := v.finds.exists_request href
    obtain ⟨p, hp⟩ := Option.isSome_iff_exists.1 (v.references.isSome_progress? q hq)
    rw [v.extends₂.known _ _ hp]
    rfl
  · have hq : (⟨.property, target⟩ : Request) ∈ v.shape.propertyRequests := by
      rw [Shape.propertyRequests, if_pos ho]
      exact List.mem_map_of_mem hprop
    exact v.properties.isSome_progress? _ hq

/-- **What a resolved shape asks for stays known.** -/
theorem Visit.closed {s s' : InferenceState} {rs : List Request} {us : List TypeUse}
    (h : Visit graph strict s rs us s') : s.Closed graph → s'.Closed graph := by
  refine Visit.preserves ?known ?enter ?leave h
  case known =>
    intro s r p hp hs id use hd target hasked
    obtain ⟨handedOut, heq⟩ := InferenceState.exists_touched (s := s) (r := r) (p := p)
    rw [heq] at hd ⊢
    exact hs id use hd target hasked
  case enter =>
    intro s r v hs id use hd target hasked
    obtain ⟨p, hp⟩ := Option.isSome_iff_exists.1 (hs id use (v.done_of_begun hd) target hasked)
    rw [v.progress?_begun_of_some hp]
    rfl
  case leave =>
    intro s t r use v _ _ _ h₂ id use' hd target hasked
    have hknown : (v.t₂.progress? target).isSome = true := by
      rcases v.done_answered_cases hd with hd | ⟨rfl, -⟩
      · exact h₂ id use' hd target hasked
      · exact v.isSome_progress? hasked
    by_cases hid : target = r.id
    · subst hid
      rw [show (r.answered graph s.scopes t).progress? r.id = _ from v.done_answered]
      rfl
    · rw [v.progress?_answered hid]
      exact hknown

/-! ## Members of one composite -/

/-- A shape before the member in the graph leads to the composite: the member is asked for by its composite
before it is its own turn. -/
def ShapesGraph.ComposedFirst (graph : ShapesGraph) (composite member : Node) : Prop :=
  ∃ before after root, graph.ids = before ++ member :: after ∧ root ∈ before ∧
    ReflTransGen graph.Asks root composite

namespace Entering

variable {s : InferenceState} {r q : Request} {member : Node} (v : Entering graph s r)

include v

theorem frames_ne_nil_of_composes (hc : graph.Composes r.id member) (hq : q ∈ v.shape.referenceRequests)
    {outer : ConstraintStack} {rest : List ConstraintStack} (hopen : q.openScopes v.begun.scopes = outer :: rest) :
    outer.frames ≠ [] := by
  obtain ⟨shape, connective, members, hs, hc, -⟩ := hc
  cases hs.symm.trans v.shape?_id
  rw [Shape.referenceRequests, hc] at hq
  obtain ⟨other, -, rfl⟩ := List.mem_map.1 hq
  have hscopes : v.begun.scopes = v.stack :: v.rest := rfl
  rw [Request.openScopes, if_pos rfl, hscopes] at hopen
  cases hopen
  rw [v.stack_frames]
  exact List.cons_ne_nil _ _

theorem not_composes_of_property (hq : q ∈ v.shape.propertyRequests) : ¬ graph.Composes r.id member := by
  rintro ⟨shape, connective, members, hs, hc, -⟩
  cases hs.symm.trans v.shape?_id
  obtain ⟨ho, -⟩ := Shape.id_mem_properties hq
  rw [Constraints.composition?_eq_none (Shape.isComposite_of_declaresObject ho)] at hc
  cases hc

end Entering

section

variable {composite member : Node} {before after : List Node} (hids : graph.ids = before ++ member :: after)
  (honly : ∀ other, graph.Asks other member → other = composite) (hcomposes : graph.Composes composite member)

include hids

theorem ShapesGraph.not_mem_before : member ∉ before := by
  have hnodup : (before ++ member :: after).Nodup := hids ▸ graph.nodup_ids
  exact fun hm => List.disjoint_of_nodup_append hnodup hm List.mem_cons_self

theorem ShapesGraph.composedFirst_iff : graph.ComposedFirst composite member ↔
    ∃ root ∈ before, ReflTransGen graph.Asks root composite := by
  constructor
  · rintro ⟨before', after', root, hids', hroot, hpath⟩
    have hlength : before'.length = before.length := by
      have hidx := congrArg (List.idxOf member) (hids'.symm.trans hids)
      have hnot : member ∉ before := not_mem_before hids
      have hnot' : member ∉ before' := not_mem_before hids'
      rwa [List.idxOf_append_of_notMem hnot, List.idxOf_append_of_notMem hnot', List.idxOf_cons_self,
        List.idxOf_cons_self, Nat.add_zero, Nat.add_zero] at hidx
    have hbefore : before' = before := (List.append_inj (hids'.symm.trans hids) hlength).1
    exact ⟨root, hbefore ▸ hroot, hpath⟩
  · rintro ⟨root, hroot, hpath⟩
    exact ⟨before, after, root, hids, hroot, hpath⟩

include honly hcomposes

/-- **A member is resolved before its turn exactly when a shape before it leads to its composite.** -/
theorem Visit.done_iff_composedFirst {names : NameBook} {s : InferenceState} {us : List TypeUse}
    (h : Visit graph strict { names } (before.map (⟨.root, ·⟩)) us s) :
    (∃ use, s.Done member use) ↔ graph.ComposedFirst composite member := by
  rw [ShapesGraph.composedFirst_iff hids]
  constructor
  · rintro ⟨use, hd⟩
    obtain ⟨inside, hmemo, hinside⟩ := h.exists_inside
    have hmem := InferenceState.mem_memo_of_progress? hd
    rw [hmemo, List.append_nil] at hmem
    obtain ⟨q, hq, hpath⟩ := hinside _ hmem
    obtain ⟨root, hroot, rfl⟩ := List.mem_map.1 hq
    rcases ReflTransGen.cases_tail hpath with heq | ⟨other, hother, hlast⟩
    · have hself : member = root := heq
      exact absurd (hself ▸ hroot) (ShapesGraph.not_mem_before hids)
    · rw [honly other hlast] at hother
      exact ⟨root, hroot, hother⟩
  · rintro ⟨root, hroot, hpath⟩
    have hclosed : s.Closed graph := h.closed fun id use hd => by cases hd
    have hknown : ∀ id, ReflTransGen graph.Asks root id → (s.progress? id).isSome = true := by
      intro id hpath
      induction hpath with
      | refl => exact h.isSome_progress? ⟨.root, root⟩ (List.mem_map_of_mem hroot)
      | tail _ hstep ih =>
          obtain ⟨use, hd⟩ := h.exists_done ih
          exact hclosed _ use hd _ hstep
    exact h.exists_done (hknown member (hpath.tail hcomposes.asks))

/-- Before its turn the member is asked for by its composite alone, and so on top of it. -/
theorem Visit.exists_origin_onTop {names : NameBook} {s : InferenceState} {us : List TypeUse}
    (h : Visit graph strict { names } (before.map (⟨.root, ·⟩)) us s) {use : TypeUse} (hd : s.Done member use) :
    ∃ o : Origin graph strict member use s, o.resolution.outer.frames ≠ [] := by
  have horigin := h.exists_origin_where
    (Q := fun r scopes => r.InScope graph scopes ∧
      (r.id = member → ∀ outer rest, r.openScopes scopes = outer :: rest → outer.frames ≠ []))
    (fun hr => hr.1) ?references ?properties ?requests .empty ?start member use hd
  case references =>
    intro s r v hr q hq
    refine ⟨v.inScope_references hr.1 q hq, fun hid outer rest hopen => ?_⟩
    have hsource : r.id = composite :=
      honly r.id (hid ▸ ⟨v.shape, v.shape?_id, Or.inl (Shape.id_mem_references hq)⟩)
    exact v.frames_ne_nil_of_composes (hsource.symm ▸ hcomposes) hq hopen
  case properties =>
    intro s r v scopes hr q hq
    refine ⟨v.inScope_properties scopes q hq, fun hid => ?_⟩
    have hsource : r.id = composite :=
      honly r.id (hid ▸ ⟨v.shape, v.shape?_id, Or.inr (Shape.id_mem_properties hq)⟩)
    exact absurd (hsource.symm ▸ hcomposes) (v.not_composes_of_property hq)
  case requests =>
    intro r hr
    obtain ⟨root, hroot, rfl⟩ := List.mem_map.1 hr
    refine ⟨Request.inScope_of_ne_member (by simp) _, fun heq => ?_⟩
    have hself : root = member := heq
    exact absurd (hself ▸ hroot) (ShapesGraph.not_mem_before hids)
  case start =>
    intro id use hd
    cases hd
  obtain ⟨o, -, hframes⟩ := horigin
  exact ⟨o, hframes o.id_request _ _ o.resolution.opened⟩

variable {names : NameBook} {s : InferenceState} {u : Unit} (hrun : (resolveAll graph strict).Gives { names } u s)

include hrun

omit hcomposes in
/-- **A member that its composite asks for first is resolved on top of it.** -/
theorem exists_origin_of_composedFirst (hfirst : graph.ComposedFirst composite member)
    (hcomposes : graph.Composes composite member) (hnone : ∀ other, ¬ graph.Composes other composite) :
    ∃ use shape, ∃ o : Origin graph strict member use s, graph.shape? composite = some shape ∧
      o.resolution.stack.shapes = [o.resolution.shape, shape] := by
  obtain ⟨us, hv⟩ := visit_of_resolveAll hrun
  rw [hids, List.map_append] at hv
  obtain ⟨us₁, us₂, t, h₁, h₂⟩ := Visit.append_cases _ hv
  obtain ⟨use, hd⟩ := (h₁.done_iff_composedFirst hids honly hcomposes).2 hfirst
  obtain ⟨o, hne⟩ := h₁.exists_origin_onTop hids honly hcomposes hd
  obtain ⟨hcomposed, hbelow⟩ := o.inScope _ _ o.resolution.opened
  rw [o.id_request] at hbelow
  cases houter : o.resolution.outer.frames with
  | nil => exact absurd houter hne
  | cons below frames =>
      rw [houter] at hcomposed hbelow
      have hid : below.shape.id = composite := honly _ (hbelow below rfl).asks
      cases hcomposed with
      | cons hs hnext _ =>
          have hframes : frames = [] := by
            cases frames with
            | nil => rfl
            | cons next _ => exact absurd (hid ▸ hnext next rfl) (hnone next.shape.id)
          refine ⟨use, below.shape, o.mono h₂.extends.keeps, hid ▸ hs, ?_⟩
          show o.resolution.stack.frames.map (·.shape) = _
          rw [o.resolution.stack_frames, houter, hframes]
          rfl

/-- **A member that is its own turn first is resolved in a scope of its own.** -/
theorem exists_origin_of_not_composedFirst (hfirst : ¬ graph.ComposedFirst composite member) :
    ∃ use, ∃ o : Origin graph strict member use s, o.resolution.stack.IsOf o.resolution.shape := by
  obtain ⟨us, hv⟩ := visit_of_resolveAll hrun
  rw [hids, List.map_append, List.map_cons] at hv
  obtain ⟨us₁, us₂, t, h₁, h₂⟩ := Visit.append_cases _ hv
  have hnew : ¬ ∃ use, t.Done member use := fun hd =>
    hfirst ((h₁.done_iff_composedFirst hids honly hcomposes).1 hd)
  rcases Visit.cons_cases h₂ with ⟨p, us', hp, rfl, h₃⟩ | ⟨use, us', w, rfl, ⟨v⟩, h₃⟩
  · exact absurd (h₁.exists_done (by rw [hp]; rfl)) hnew
  · have hscope : Request.InScope graph ⟨.root, member⟩ t.scopes := Request.inScope_of_ne_member (by simp) _
    have hopened := v.opened
    rw [Request.openScopes, if_neg (by simp)] at hopened
    obtain ⟨houter, -⟩ := List.cons.inj hopened
    refine ⟨use, ⟨t, w, ⟨.root, member⟩, t.scopes, v, rfl, h₁.lawful .empty, hscope, h₃.extends.keeps⟩, ?_⟩
    show v.stack.frames.map (·.shape) = [v.shape]
    rw [v.stack_frames, ← houter]
    rfl

end

end ShapeTypes
