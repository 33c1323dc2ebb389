import ShapeTypes.Proofs.Inference.History
import ShapeTypes.Proofs.Inference.Scope

/-!
# Shapes that are being resolved within each other

* `InferenceState.entered`, `InferenceState.unfinished` — the shapes that were entered, and those of them that
  were not left yet;
* `History.nodup_entered` — **no shape is entered twice**;
* `Nested` — the unfinished shapes are those that are being resolved within each other; `Nested.length_le`,
  `Nested.length_lt` — **there are no more of them than shapes, and fewer when another one is entered**;
* `Inside`, `Asked` — a shape is being resolved, and asks for another one, in a scope of unfinished shapes;
  `Inside.visit` — **visits keep it so**, `Asked.exists_pushed`, `Asked.inside` — the other one can be entered.
-/

namespace ShapeTypes

open Rdf

variable {graph : ShapesGraph} {strict : Bool}

/-! ## Shapes that were entered -/

/-- The shape that was entered when an entry of the memo was made. -/
def enteredShape? : Node × Progress → Option Node
  | (id, .resolving _ _) => some id
  | (_, .resolved _) => none

/-- The shapes that were entered as a memo was made, the last one first. -/
def enteredIn (m : Memo) : List Node := m.filterMap enteredShape?

theorem mem_enteredIn {m : Memo} {id : Node} :
    id ∈ enteredIn m ↔ ∃ slot c, (id, .resolving slot c) ∈ m := by
  constructor
  · intro h
    obtain ⟨⟨id', p⟩, hm, hp⟩ := List.mem_filterMap.1 h
    cases p with
    | resolving slot c =>
        cases hp
        exact ⟨slot, c, hm⟩
    | resolved use => cases hp
  · rintro ⟨slot, c, hm⟩
    exact List.mem_filterMap.2 ⟨_, hm, rfl⟩

/-- **No shape is entered twice.** -/
theorem History.nodup_entered {m : Memo} (h : History graph m) : (enteredIn m).Nodup := by
  induction h with
  | nil => exact List.nodup_nil
  | @enter m id slot c hm hl ih =>
      refine List.nodup_cons.2 ⟨fun hmem => ?_, ih⟩
      obtain ⟨slot', c', hin⟩ := mem_enteredIn.1 hmem
      exact not_mem_of_lookup hl _ hin
  | leave _ _ _ ih => exact ih

namespace InferenceState

/-- The shapes that were entered so far, the last one first. A shape is recorded once each time that its type
is inferred, right before. -/
def entered (s : InferenceState) : List Node := enteredIn s.memo

def isResolving (s : InferenceState) (id : Node) : Bool :=
  match s.progress? id with
  | some (.resolving _ _) => true
  | _ => false

/-- The shapes that are being resolved, the last one entered first. -/
def unfinished (s : InferenceState) : List Node := s.entered.filter s.isResolving

variable {s s' : InferenceState} {id : Node}

theorem isResolving_iff : s.isResolving id = true ↔ ∃ slot c, s.progress? id = some (.resolving slot c) := by
  unfold isResolving
  split
  · rename_i slot c h
    exact iff_of_true rfl ⟨slot, c, h⟩
  · rename_i h
    exact iff_of_false Bool.false_ne_true fun ⟨slot, c, h'⟩ => h slot c h'

theorem mem_unfinished : id ∈ s.unfinished ↔ ∃ slot c, s.progress? id = some (.resolving slot c) := by
  rw [unfinished, List.mem_filter, isResolving_iff, and_iff_right_iff_imp]
  rintro ⟨slot, c, h⟩
  exact mem_enteredIn.2 ⟨slot, c, mem_memo_of_progress? h⟩

theorem not_mem_entered (h : s.progress? id = none) : id ∉ s.entered := by
  intro hmem
  obtain ⟨slot, c, hin⟩ := mem_enteredIn.1 hmem
  exact not_mem_memo h _ hin

/-- **The shapes that are being resolved are the same in a state that extends another one.** -/
theorem Extends.unfinished_eq (h : s.Extends s') (hh : History graph s'.memo) :
    s'.unfinished = s.unfinished := by
  obtain ⟨inside, hi⟩ := h.memo
  have hentered : s'.entered = enteredIn inside ++ s.entered := by
    rw [entered, ← hi, enteredIn, List.filterMap_append]
    rfl
  -- What was entered since is left, or not known.
  have hinside : (enteredIn inside).filter s'.isResolving = [] := by
    rw [List.filter_eq_nil_iff]
    intro id hid hresolving
    obtain ⟨slot, c, hmem⟩ := mem_enteredIn.1 hid
    obtain ⟨newer, older, rfl⟩ := List.append_of_mem hmem
    have hsuffix : (id, Progress.resolving slot c) :: (older ++ s.memo) <:+ s'.memo :=
      ⟨newer, by rw [← hi, List.append_assoc, List.cons_append]⟩
    have hnew : s.progress? id = none := by
      cases hp : s.progress? id with
      | none => rfl
      | some p =>
          exact absurd (List.mem_append_right _ (mem_memo_of_progress? hp)) (hh.not_mem_of_entered hsuffix)
    obtain ⟨slot', c', hp'⟩ := isResolving_iff.1 hresolving
    rcases h.fresh id hnew with hp | ⟨use, hp⟩
    · cases hp.symm.trans hp'
    · cases hp.symm.trans hp'
  have hbefore : ∀ id ∈ s.entered, s'.isResolving id = s.isResolving id := by
    intro id hid
    obtain ⟨slot, c, hmem⟩ := mem_enteredIn.1 hid
    cases hp : s.progress? id with
    | none => exact absurd hmem (not_mem_memo hp _)
    | some p => rw [isResolving, isResolving, hp, h.known id p hp]
  rw [unfinished, hentered, List.filter_append, hinside, List.nil_append, List.filter_congr hbefore, unfinished]

end InferenceState

namespace Entering

variable {s : InferenceState} {r : Request} (v : Entering graph s r)

theorem entered_begun : v.begun.entered = r.id :: s.entered := by
  rw [← v.id_shape]
  rfl

/-- The shape that is entered is the last one of those that are being resolved. -/
theorem unfinished_begun : v.begun.unfinished = r.id :: s.unfinished := by
  have hown : v.begun.isResolving r.id = true := by
    rw [InferenceState.isResolving_iff]
    exact ⟨_, _, by rw [InferenceState.progress?_begun, if_pos v.id_shape.symm]⟩
  have hothers : ∀ id ∈ s.entered, v.begun.isResolving id = s.isResolving id := by
    intro id hid
    have hne : id ≠ v.shape.id := by
      rintro rfl
      rw [v.id_shape] at hid
      exact InferenceState.not_mem_entered v.new hid
    rw [InferenceState.isResolving, InferenceState.isResolving, InferenceState.progress?_begun, if_neg hne]
  rw [InferenceState.unfinished, v.entered_begun, List.filter_cons_of_pos hown, List.filter_congr hothers,
    InferenceState.unfinished]

end Entering

/-! ## Nesting -/

theorem ShapesGraph.length_ids : graph.ids.length = graph.size := List.length_map _

/-- A lawful state in which the shapes of a list are being resolved, each within the next one. -/
structure Nested (graph : ShapesGraph) (nest : List Node) (s : InferenceState) : Prop where
  lawful : Lawful graph s
  history : History graph s.memo
  unfinished : s.unfinished = nest

namespace Nested

variable {nest : List Node} {s s' : InferenceState}

theorem entered_subset (h : Nested graph nest s) : s.entered ⊆ graph.ids := by
  intro id hid
  obtain ⟨slot, c, hmem⟩ := mem_enteredIn.1 hid
  exact ShapesGraph.mem_ids.2 (h.lawful.found id slot ⟨c, hmem⟩)

theorem nodup_entered (h : Nested graph nest s) : s.entered.Nodup := h.history.nodup_entered

theorem subset_entered (h : Nested graph nest s) : nest ⊆ s.entered := by
  rw [← h.unfinished]
  exact List.filter_subset_self _

theorem nodup (h : Nested graph nest s) : nest.Nodup := by
  rw [← h.unfinished]
  exact h.nodup_entered.filter _

/-- **There are no more shapes being resolved than shapes.** -/
theorem length_le (h : Nested graph nest s) : nest.length ≤ graph.size := by
  rw [← ShapesGraph.length_ids]
  exact h.nodup.length_le_of_subset (List.Subset.trans h.subset_entered h.entered_subset)

theorem not_mem (h : Nested graph nest s) {id : Node} (hnew : s.progress? id = none) : id ∉ nest :=
  fun hmem => InferenceState.not_mem_entered hnew (h.subset_entered hmem)

/-- **There are fewer when a shape is asked for that is not known yet.** -/
theorem length_lt (h : Nested graph nest s) {id : Node} (hid : id ∈ graph.ids)
    (hnew : s.progress? id = none) : nest.length < graph.size := by
  have hsub : id :: nest ⊆ graph.ids :=
    List.cons_subset.2 ⟨hid, List.Subset.trans h.subset_entered h.entered_subset⟩
  have := (List.nodup_cons.2 ⟨h.not_mem hnew, h.nodup⟩).length_le_of_subset hsub
  rwa [ShapesGraph.length_ids, List.length_cons, Nat.succ_le_iff] at this

theorem visit (h : Nested graph nest s) {rs : List Request} {us : List TypeUse}
    (hv : Visit graph strict s rs us s') : Nested graph nest s' where
  lawful := hv.lawful h.lawful
  history := hv.history h.history
  unfinished := (hv.extends.unfinished_eq (hv.history h.history)).trans h.unfinished

theorem begun {r : Request} (h : Nested graph nest s) (v : Entering graph s r) :
    Nested graph (r.id :: nest) v.begun where
  lawful := h.lawful.begun v
  history := .enter h.history (by rw [v.id_shape]; exact v.new)
  unfinished := by rw [v.unfinished_begun, h.unfinished]

theorem empty {names : NameBook} : Nested graph [] { names } where
  lawful := .empty
  history := .nil
  unfinished := rfl

theorem openObjects_eq_nil (h : Nested graph [] s) : s.openObjects = [] := by
  refine List.eq_nil_iff_forall_not_mem.2 fun x hx => ?_
  obtain ⟨id, c, hp, -⟩ := (h.lawful.openObjects x).1 hx
  have hmem : id ∈ s.unfinished := InferenceState.mem_unfinished.2 ⟨x, c, hp⟩
  rw [h.unfinished] at hmem
  cases hmem

end Nested

/-! ## Scopes of unfinished shapes -/

/-- The innermost scope is there, and holds shapes that are being resolved. -/
def ScopedIn (nest : List Node) (scopes : List ConstraintStack) : Prop :=
  ∃ stack rest, scopes = stack :: rest ∧ ∀ frame ∈ stack.frames, frame.shape.id ∈ nest

/-- A shape is being resolved within others, in a scope of unfinished shapes that it is on top of. -/
structure Inside (graph : ShapesGraph) (id : Node) (nest : List Node) (s : InferenceState) : Prop
    extends Nested graph (id :: nest) s where
  inScope : ScopedIn (id :: nest) s.scopes
  inForce : ∀ stack rest, s.scopes = stack :: rest → graph.InForce id stack

/-- A shape of the graph is asked for, in a scope of unfinished shapes that it may be put on top of. -/
structure Asked (graph : ShapesGraph) (nest : List Node) (r : Request) (s : InferenceState) : Prop
    extends Nested graph nest s where
  declared : r.id ∈ graph.ids
  inScope : ScopedIn nest (r.openScopes s.scopes)
  composed : r.InScope graph s.scopes

/-- Visits leave the scopes as they are. -/
theorem Visit.scopes_eq {s s' : InferenceState} {rs : List Request} {us : List TypeUse}
    (hv : Visit graph strict s rs us s') : s'.scopes = s.scopes := by
  induction hv using Visit.induction with
  | nil => rfl
  | known _ _ ih => exact ih
  | first _ _ _ _ ih => exact ih

theorem Request.scopedIn_of_ne_member {r : Request} (h : r.purpose ≠ .member) (nest : List Node)
    (scopes : List ConstraintStack) : ScopedIn nest (r.openScopes scopes) := by
  rw [openScopes, if_neg h]
  exact ⟨.empty, scopes, rfl, fun _ hf => by cases hf⟩

namespace Inside

variable {id : Node} {nest : List Node} {s s' : InferenceState}

theorem exists_scope (h : Inside graph id nest s) :
    ∃ stack rest, s.scopes = stack :: rest ∧ graph.InForce id stack := by
  obtain ⟨stack, rest, hscopes, -⟩ := h.inScope
  exact ⟨stack, rest, hscopes, h.inForce stack rest hscopes⟩

/-- **Visits keep it so.** -/
theorem visit (h : Inside graph id nest s) {rs : List Request} {us : List TypeUse}
    (hv : Visit graph strict s rs us s') : Inside graph id nest s' where
  toNested := h.toNested.visit hv
  inScope := by rw [hv.scopes_eq]; exact h.inScope
  inForce := by rw [hv.scopes_eq]; exact h.inForce

/-- Any shape of the graph can be asked for; as a member, if the shape is composed of it. -/
theorem asked (h : Inside graph id nest s) {r : Request} (hr : r.id ∈ graph.ids)
    (hm : r.purpose = .member → graph.Composes id r.id) : Asked graph (id :: nest) r s where
  toNested := h.toNested
  declared := hr
  inScope := by
    by_cases hm : r.purpose = .member
    · rw [Request.openScopes, if_pos hm]
      exact h.inScope
    · exact Request.scopedIn_of_ne_member hm _ _
  composed := by
    by_cases hmember : r.purpose = .member
    · intro outer rest heq
      rw [Request.openScopes, if_pos hmember] at heq
      obtain ⟨frame, frames, hframes, hid, hc⟩ := h.inForce outer rest heq
      rw [hframes]
      refine ⟨hc, fun below hbelow => ?_⟩
      cases hbelow
      rw [hid]
      exact hm hmember
    · exact Request.inScope_of_ne_member hmember _

end Inside

namespace ShapesGraph

theorem exists_frame? {id : Node} (h : id ∈ graph.ids) : ∃ frame, graph.frame? id = some frame := by
  obtain ⟨shape, hmem, rfl⟩ := List.mem_map.1 h
  cases hi : graph.shapes.index? shape.id with
  | none =>
      have := List.findIdx?_eq_none_iff.1 hi shape hmem
      simp at this
  | some i =>
      obtain ⟨hlt, -⟩ := List.findIdx?_eq_some_iff_getElem.1 hi
      exact ⟨⟨i, graph.shapes.entries[i]⟩, by simp [frame?, hi, hlt]⟩

end ShapesGraph

namespace Asked

variable {nest : List Node} {s : InferenceState} {r : Request}

/-- **A shape that is not known yet can be put on top of the scope that it is asked for in.** -/
theorem exists_pushed (h : Asked graph nest r s) (hnew : s.progress? r.id = none) :
    ∃ frame outer rest stack, graph.frame? r.id = some frame ∧ r.openScopes s.scopes = outer :: rest ∧
      outer.push frame = (none, stack) := by
  obtain ⟨frame, hframe⟩ := ShapesGraph.exists_frame? h.declared
  obtain ⟨outer, rest, hopen, hnest⟩ := h.inScope
  refine ⟨frame, outer, rest, ⟨frame :: outer.frames⟩, hframe, hopen, ?_⟩
  have hid : frame.shape.id = r.id := (ShapesGraph.frame?_eq_some hframe).2
  have hfresh : (outer.frames.any fun g => g.shape.id = frame.shape.id) = false := by
    rw [List.any_eq_false]
    intro g hg heq
    rw [hid] at heq
    exact h.toNested.not_mem hnew (of_decide_eq_true heq ▸ hnest g hg)
  rw [ConstraintStack.push, hfresh]
  rfl

/-- **A shape that is entered is in a scope of unfinished shapes.** -/
theorem inside (h : Asked graph nest r s) (v : Entering graph s r) :
    Inside graph r.id nest v.begun where
  toNested := h.toNested.begun v
  inForce := by
    intro stack rest heq
    cases heq
    exact v.inForce h.composed
  inScope := by
    obtain ⟨outer, rest, hopen, hnest⟩ := h.inScope
    cases hopen.symm.trans v.opened
    refine ⟨v.stack, v.rest, rfl, fun frame hframe => ?_⟩
    rw [ConstraintStack.frames_of_push v.pushed] at hframe
    rcases List.mem_cons.1 hframe with rfl | hframe
    · rw [← v.id_shape]
      exact List.mem_cons_self
    · exact List.mem_cons_of_mem _ (hnest frame hframe)

end Asked

end ShapeTypes
