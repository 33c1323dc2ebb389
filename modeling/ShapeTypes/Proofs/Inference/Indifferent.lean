import Mathlib.Data.List.Forall2
import ShapeTypes.Proofs.Inference.Bare
import ShapeTypes.Proofs.Inference.Outcome

/-!
# Two runs that differ in names at most

* `InferenceState.Same` — two states differ at most in names and in what presents shapes;
* `Infer.Indifferent` — two computations, begun in such states, fail with the same error, or end in such
  states with related values;
* `Infer.Indifferent.bind`, `Infer.Indifferent.mapM`, … — sequences of such computations are indifferent;
* the lemmas for single steps — so is each of them.
-/

namespace ShapeTypes

open Rdf

namespace InferenceState

/-- Two states differ at most in names and in what presents shapes. -/
structure Same (s t : InferenceState) : Prop where
  slots : s.slots.map Content.bare = t.slots.map Content.bare
  memo : s.memo = t.memo
  openObjects : s.openObjects = t.openObjects
  handedOut : s.handedOut = t.handedOut
  scopes : s.scopes.map ConstraintStack.bare = t.scopes.map ConstraintStack.bare
  aliases : s.aliases = t.aliases

namespace Same

variable {s t : InferenceState} (h : s.Same t)

include h

theorem length_eq : s.slots.length = t.slots.length := by
  have hlength := congrArg List.length h.slots
  rwa [List.length_map, List.length_map] at hlength

theorem getElem?_eq (x : Slot) : (s.slots[x]?).map Content.bare = (t.slots[x]?).map Content.bare := by
  rw [← List.getElem?_map, ← List.getElem?_map, h.slots]

theorem progress?_eq (id : Node) : s.progress? id = t.progress? id := by
  rw [progress?, progress?, h.memo]

theorem actsAsObject_eq : s.actsAsObject = t.actsAsObject := by
  funext x
  have hany : ∀ c : Option Content, c.any (·.actsAsObject) = (c.map Content.bare).any (·.actsAsObject) := by
    intro c
    cases c <;> simp
  show (s.openObjects.contains (follow s.aliases x) || (s.slots[follow s.aliases x]?).any (·.actsAsObject)) =
    (t.openObjects.contains (follow t.aliases x) || (t.slots[follow t.aliases x]?).any (·.actsAsObject))
  rw [h.openObjects, h.aliases, hany s.slots[follow t.aliases x]?, hany t.slots[follow t.aliases x]?,
    h.getElem?_eq]

/-- The innermost scopes hold the same shapes, or there are none. -/
theorem scopes_cases : s.scopes = [] ∧ t.scopes = [] ∨ ∃ stack rest stack' rest',
    s.scopes = stack :: rest ∧ t.scopes = stack' :: rest' ∧ stack.bare = stack'.bare ∧
      rest.map ConstraintStack.bare = rest'.map ConstraintStack.bare := by
  have hscopes := h.scopes
  cases hs : s.scopes with
  | nil =>
      rw [hs, List.map_nil, eq_comm, List.map_eq_nil_iff] at hscopes
      exact Or.inl ⟨rfl, hscopes⟩
  | cons stack rest =>
      rw [hs, List.map_cons, eq_comm, List.map_eq_cons_iff] at hscopes
      obtain ⟨stack', rest', ht, hstack, hrest⟩ := hscopes
      exact Or.inr ⟨stack, rest, stack', rest', rfl, ht, hstack.symm, hrest.symm⟩

end Same

end InferenceState

namespace Infer

variable {α α' β β' : Type}

/-- Two computations, begun in states that differ in names at most, fail with the same error, or end in such
states with related values. -/
def Indifferent (R : α → α' → Prop) (x : Infer α) (y : Infer α') : Prop :=
  ∀ s t, s.Same t → (∃ e, x.Fails s e ∧ y.Fails t e) ∨
    ∃ a b s' t', x.Gives s a s' ∧ y.Gives t b t' ∧ R a b ∧ s'.Same t'

namespace Indifferent

variable {R : α → α' → Prop} {Q : β → β' → Prop}

theorem pure {a : α} {b : α'} (h : R a b) : Indifferent R (pure a) (pure b) := by
  intro s t hst
  exact Or.inr ⟨a, b, s, t, gives_pure.2 ⟨rfl, rfl⟩, gives_pure.2 ⟨rfl, rfl⟩, h, hst⟩

/-! ## Sequences -/

/-- **Sequences are indifferent** if their first parts are, and what follows related values is. -/
theorem bind {x : Infer α} {y : Infer α'} {f : α → Infer β} {g : α' → Infer β'} (hx : Indifferent R x y)
    (hf : ∀ a b, R a b → Indifferent Q (f a) (g b)) : Indifferent Q (x >>= f) (y >>= g) := by
  intro s t hst
  rcases hx s t hst with ⟨e, hxe, hye⟩ | ⟨a, b, s', t', hxa, hyb, hab, hst'⟩
  · exact Or.inl ⟨e, fails_bind.2 (Or.inl hxe), fails_bind.2 (Or.inl hye)⟩
  · rcases hf a b hab s' t' hst' with ⟨e, hfe, hge⟩ | ⟨a', b', s'', t'', hfa, hgb, hab', hst''⟩
    · exact Or.inl ⟨e, fails_bind.2 (Or.inr ⟨a, s', hxa, hfe⟩), fails_bind.2 (Or.inr ⟨b, t', hyb, hge⟩)⟩
    · exact Or.inr ⟨a', b', s'', t'', gives_bind.2 ⟨a, s', hxa, hfa⟩, gives_bind.2 ⟨b, t', hyb, hgb⟩,
        hab', hst''⟩

theorem get_bind {f : InferenceState → Infer α} {g : InferenceState → Infer α'}
    (h : ∀ s t, s.Same t → Indifferent R (f s) (g t)) : Indifferent R (get >>= f) (get >>= g) := by
  have hget : Indifferent InferenceState.Same (get : Infer InferenceState) (get : Infer InferenceState) := by
    intro s t hst
    exact Or.inr ⟨s, t, s, t, gives_get.2 ⟨rfl, rfl⟩, gives_get.2 ⟨rfl, rfl⟩, hst, hst⟩
  exact bind hget h

/-- **Lists are indifferent** if their elements are, pair by pair. -/
theorem mapM {ι ι' : Type} {P : ι → ι' → Prop} {f : ι → Infer α} {g : ι' → Infer α'}
    (h : ∀ i j, P i j → Indifferent R (f i) (g j)) {l : List ι} {l' : List ι'} (hl : List.Forall₂ P l l') :
    Indifferent (List.Forall₂ R) (l.mapM f) (l'.mapM g) := by
  induction hl with
  | nil =>
      rw [List.mapM_nil, List.mapM_nil]
      exact pure .nil
  | cons hij _ ih =>
      rw [List.mapM_cons, List.mapM_cons]
      exact bind (h _ _ hij) fun a b hab => bind ih fun as bs habs => pure (.cons hab habs)

/-- The same list, gone through with computations that are indifferent. -/
theorem mapM_same {ι : Type} {f : ι → Infer α} {g : ι → Infer α'} (h : ∀ i, Indifferent R (f i) (g i))
    (l : List ι) : Indifferent (List.Forall₂ R) (l.mapM f) (l.mapM g) := by
  refine mapM (P := Eq) (fun i j hij => ?_) (List.forall₂_eq_eq_eq ▸ rfl)
  subst hij
  exact h i

theorem forM {ι : Type} {f g : ι → Infer PUnit} (h : ∀ i, Indifferent Eq (f i) (g i)) :
    ∀ l : List ι, Indifferent Eq (l.forM f) (l.forM g)
  | [] => pure rfl
  | i :: l => bind (h i) fun _ _ _ => forM h l

/-! ## Writing the state -/

theorem set {s t : InferenceState} (h : s.Same t) :
    Indifferent Eq (set s : Infer PUnit) (set t : Infer PUnit) := by
  intro _ _ _
  exact Or.inr ⟨⟨⟩, ⟨⟩, s, t, gives_set.2 rfl, gives_set.2 rfl, rfl, h⟩

theorem modify {f g : InferenceState → InferenceState} (h : ∀ s t, s.Same t → (f s).Same (g t)) :
    Indifferent Eq (modify f : Infer PUnit) (modify g : Infer PUnit) := by
  intro s t hst
  exact Or.inr ⟨⟨⟩, ⟨⟩, f s, g t, gives_modify.2 rfl, gives_modify.2 rfl, rfl, h s t hst⟩

theorem detached {x : Infer α} {y : Infer α'} (h : Indifferent R x y) :
    Indifferent R (detached x) (detached y) := by
  refine bind (modify fun s t hst => { hst with scopes := ?_ }) fun _ _ _ =>
    bind h fun a b hab => bind (modify fun s t hst => { hst with scopes := ?_ }) fun _ _ _ => pure hab
  · rw [List.map_cons, List.map_cons, hst.scopes]
  · rw [List.map_tail, List.map_tail, hst.scopes]

/-! ## Refusals -/

theorem malformed {n n' : Node} {c c' : Malformed} (hn : n = n') (hc : c = c') :
    Indifferent R (malformed n c) (malformed n' c') := by
  intro s t _
  exact Or.inl ⟨.malformed n c, fails_malformed.2 rfl, fails_malformed.2 (by rw [hn, hc])⟩

theorem ambiguous {n n' : Node} {c : Ambiguity} (hn : n = n') :
    Indifferent R (ambiguous n c) (ambiguous n' c) := by
  intro s t _
  exact Or.inl ⟨.ambiguous n c, fails_ambiguous.2 rfl, fails_ambiguous.2 (by rw [hn])⟩

theorem violation {n n' : Node} {c c' : Violation} (hn : n = n') (hc : c = c') :
    Indifferent R (violation n c) (violation n' c') := by
  intro s t _
  exact Or.inl ⟨.invariant n c, fails_violation.2 rfl, fails_violation.2 (by rw [hn, hc])⟩

/-! ## Single steps -/

theorem newSlot {c d : Content} (h : c.bare = d.bare) : Indifferent Eq (newSlot c) (newSlot d) := by
  refine get_bind fun s t hst => bind (set { hst with slots := ?_ }) fun _ _ _ => pure hst.length_eq
  rw [List.map_append, List.map_append, hst.slots, List.map_singleton, List.map_singleton, h]

theorem writeSlot {n n' : Node} {slot : Slot} {type type' : ItemType} (hn : n = n')
    (h : type.bare = type'.bare) :
    Indifferent Eq (writeSlot n slot type) (writeSlot n' slot type') := by
  refine get_bind fun s t hst => ?_
  rw [hst.length_eq]
  by_cases hlt : slot < t.slots.length
  · rw [if_pos hlt, if_pos hlt]
    refine set { hst with slots := ?_ }
    rw [List.map_set, List.map_set, hst.slots, Content.bare, Content.bare, h]
  · rw [if_neg hlt, if_neg hlt]
    exact violation hn rfl

theorem addAlias {slot target : Slot} {n n' : Node} (hn : n = n') :
    Indifferent Eq (addAlias slot target n) (addAlias slot target n') :=
  modify fun s t hst => { hst with aliases := by rw [hst.aliases, hn] }

theorem remember {n n' : Node} {p : Progress} (hn : n = n') :
    Indifferent Eq (remember n p) (remember n' p) :=
  modify fun s t hst => { hst with memo := by rw [hst.memo, hn] }

theorem nameShape {shape shape' : Shape} :
    Indifferent (fun _ _ => True) (nameShape shape) (nameShape shape') := by
  intro s t hst
  exact Or.inr ⟨_, _, _, _, gives_nameShape.2 ⟨rfl, rfl⟩, gives_nameShape.2 ⟨rfl, rfl⟩, trivial,
    { hst with }⟩

theorem nameIri {i j : Iri} : Indifferent (fun _ _ => True) (nameIri i) (nameIri j) := by
  intro s t hst
  exact Or.inr ⟨_, _, _, _, gives_nameIri.2 ⟨rfl, rfl⟩, gives_nameIri.2 ⟨rfl, rfl⟩, trivial, { hst with }⟩

/-- The innermost scopes hold the same shapes, but for their presentation. -/
theorem scope {n n' : Node} (hn : n = n') :
    Indifferent (fun a b => a.bare = b.bare) (scope n) (scope n') := by
  refine get_bind fun s t hst => ?_
  rcases hst.scopes_cases with ⟨hs, ht⟩ | ⟨stack, rest, stack', rest', hs, ht, hstack, -⟩
  · rw [hs, ht]
    exact violation hn rfl
  · rw [hs, ht]
    exact pure hstack

/-- Two changes of a scope are indifferent, if they refuse the same scopes for the same reason and give
scopes of the same shapes. -/
theorem updateScope {n n' : Node} {f g : ConstraintStack → Option StackError × ConstraintStack} (hn : n = n')
    (h : ∀ a b, a.bare = b.bare → (f a).map id ConstraintStack.bare = (g b).map id ConstraintStack.bare) :
    Indifferent Eq (updateScope n f) (updateScope n' g) := by
  refine get_bind fun s t hst => ?_
  rcases hst.scopes_cases with ⟨hs, ht⟩ | ⟨stack, rest, stack', rest', hs, ht, hstack, hrest⟩
  · rw [hs, ht]
    exact violation hn rfl
  · have hfg := h stack stack' hstack
    rw [hs, ht]
    rcases hf : f stack with ⟨cause, a⟩
    rcases hg : g stack' with ⟨cause', b⟩
    rw [hf, hg] at hfg
    simp only [hf, hg]
    obtain ⟨rfl, hab⟩ : cause = cause' ∧ a.bare = b.bare := Prod.mk.inj hfg
    cases cause with
    | some cause => exact violation hn rfl
    | none =>
        refine set { hst with scopes := ?_ }
        rw [List.map_cons, List.map_cons, hrest, hab]

end Indifferent

end Infer

end ShapeTypes
