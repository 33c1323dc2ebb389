import ShapeTypes.Proofs.Inference.Outcome

/-!
# Computations that do the same

* `Infer.Alike` — a computation does as another one, which fails for reasons of one kind only, or it fails for
  a reason of its own;
* `Infer.Alike.bind`, `Infer.Alike.detached`, … — sequences of such computations are alike;
* `Infer.Alike.refl` and the lemmas for single steps — a computation is like itself, as far as its own
  failures are of that kind.
-/

namespace ShapeTypes

open Rdf

namespace Infer

variable {α β : Type} {D E : InferenceError → Prop} {s : InferenceState}

/-- A computation has the same outcome from a state as another one, whose failures are of one kind; or it fails
for a reason of its own, of another kind. -/
structure Alike (D E : InferenceError → Prop) (s : InferenceState) (x y : Infer α) : Prop where
  agrees : x.run s = y.run s ∨ ∃ e, x.Fails s e ∧ D e
  refuses : ∀ e, y.Fails s e → E e

namespace Alike

theorem run_eq {x y : Infer α} (h : Alike (fun _ => False) E s x y) : x.run s = y.run s :=
  h.agrees.resolve_right fun ⟨_, _, hno⟩ => hno

theorem refl {x : Infer α} (h : ∀ e, x.Fails s e → E e) : Alike D E s x x := ⟨Or.inl rfl, h⟩

theorem pure {a : α} : Alike D E s (pure a) (pure a) := refl fun _ h => absurd h not_fails_pure

/-! ## Sequences -/

/-- **Sequences are alike** if their first parts are, and what follows each outcome of these is. -/
theorem bind {x y : Infer α} {f g : α → Infer β} (hx : Alike D E s x y)
    (hf : ∀ a t, y.Gives s a t → Alike D E t (f a) (g a)) : Alike D E s (x >>= f) (y >>= g) := by
  constructor
  · rcases hx.agrees with hrun | ⟨e, he, hd⟩
    · cases hy : y.run s with
      | error e => exact Or.inl (by rw [StateT.run_bind, StateT.run_bind, hrun, hy]; rfl)
      | ok p =>
          have hgives : x.Gives s p.1 p.2 := hrun.trans hy
          rcases (hf p.1 p.2 hy).agrees with hrest | ⟨e, he, hd⟩
          · exact Or.inl (by rw [StateT.run_bind, StateT.run_bind, hrun, hy]; exact hrest)
          · exact Or.inr ⟨e, Infer.fails_bind.2 (Or.inr ⟨p.1, p.2, hgives, he⟩), hd⟩
    · exact Or.inr ⟨e, Infer.fails_bind.2 (Or.inl he), hd⟩
  · intro e he
    rcases Infer.fails_bind.1 he with he | ⟨a, t, hy, he⟩
    · exact hx.refuses e he
    · exact (hf a t hy).refuses e he

theorem get_bind {f g : InferenceState → Infer α} (h : Alike D E s (f s) (g s)) :
    Alike D E s (get >>= f) (get >>= g) := by
  refine bind (refl fun _ h => absurd h not_fails_get) fun a t ht => ?_
  obtain ⟨rfl, rfl⟩ := gives_get.1 ht
  exact h

/-- What one of them reads of the state first changes nothing. -/
theorem get_left {f : InferenceState → Infer α} {y : Infer α} (h : Alike D E s (f s) y) :
    Alike D E s (get >>= f) y := ⟨h.agrees, h.refuses⟩

/-- After changing the state, what follows in the changed one matters. -/
theorem modify_bind {u : InferenceState → InferenceState} {f g : PUnit → Infer α}
    (h : Alike D E (u s) (f ⟨⟩) (g ⟨⟩)) : Alike D E s (modify u >>= f) (modify u >>= g) := by
  refine bind (refl fun _ h => absurd h not_fails_modify) fun a t ht => ?_
  rw [gives_modify.1 ht]
  exact h

theorem detached {x y : Infer α} (h : Alike D E { s with scopes := .empty :: s.scopes } x y) :
    Alike D E s (detached x) (detached y) :=
  modify_bind (bind h fun _ _ _ => modify_bind pure)

/-- **Lists are alike**, if each of their elements is, from states of a kind that it leads to again. -/
theorem mapM {ι : Type} {f g : ι → Infer β} {J : InferenceState → Prop} : ∀ {l : List ι} {s : InferenceState},
    (∀ a ∈ l, ∀ t, J t → Alike D E t (f a) (g a) ∧ ∀ b t', (g a).Gives t b t' → J t') → J s →
    Alike D E s (l.mapM f) (l.mapM g)
  | [], s, _, _ => by
    rw [List.mapM_nil, List.mapM_nil]
    exact pure
  | a :: l, s, hl, hs => by
    obtain ⟨ha, hl⟩ := List.forall_mem_cons.1 hl
    rw [List.mapM_cons, List.mapM_cons]
    exact bind (ha s hs).1 fun b t hb => bind (mapM hl ((ha s hs).2 b t hb)) fun _ _ _ => pure

theorem forM {ι : Type} {f g : ι → Infer PUnit} {J : InferenceState → Prop} : ∀ {l : List ι} {s : InferenceState},
    (∀ a ∈ l, ∀ t, J t → Alike D E t (f a) (g a) ∧ ∀ u t', (g a).Gives t u t' → J t') → J s →
    Alike D E s (l.forM f) (l.forM g)
  | [], s, _, _ => pure
  | a :: l, s, hl, hs => by
    obtain ⟨ha, hl⟩ := List.forall_mem_cons.1 hl
    exact bind (ha s hs).1 fun u t hu => forM hl ((ha s hs).2 u t hu)

/-- A computation that ends at once with a failure is like itself, whatever follows. -/
theorem fails_bind {x : Infer α} {f g : α → Infer β} (hx : Alike D E s x x) (hn : ∀ a t, ¬ x.Gives s a t) :
    Alike D E s (x >>= f) (x >>= g) :=
  bind hx fun a t h => absurd h (hn a t)

/-! ## Refusals -/

theorem malformed {n : Node} {c : Malformed} (h : E (.malformed n c)) :
    Alike D E s (malformed n c : Infer α) (Infer.malformed n c) :=
  refl fun _ he => fails_malformed.1 he ▸ h

theorem ambiguous {n : Node} {c : Ambiguity} (h : E (.ambiguous n c)) :
    Alike D E s (ambiguous n c : Infer α) (Infer.ambiguous n c) :=
  refl fun _ he => fails_ambiguous.1 he ▸ h

theorem violation {n : Node} {c : Violation} (h : E (.invariant n c)) :
    Alike D E s (violation n c : Infer α) (Infer.violation n c) :=
  refl fun _ he => fails_violation.1 he ▸ h

/-! ## Single steps -/

theorem newSlot {c : Content} : Alike D E s (newSlot c) (Infer.newSlot c) :=
  get_bind (bind (refl fun _ h => absurd h not_fails_set) fun _ _ _ => pure)

theorem writeSlot {n : Node} {slot : Slot} {t : ItemType} (h : slot < s.slots.length) :
    Alike D E s (writeSlot n slot t) (Infer.writeSlot n slot t) := by
  refine get_bind ?_
  rw [if_pos h]
  exact refl fun _ h => absurd h not_fails_set

theorem addAlias {slot target : Slot} {n : Node} : Alike D E s (addAlias slot target n) (Infer.addAlias slot target n) :=
  refl fun _ h => absurd h not_fails_modify

theorem remember {n : Node} {p : Progress} : Alike D E s (remember n p) (Infer.remember n p) :=
  refl fun _ h => absurd h not_fails_modify

theorem nameShape {shape : Shape} : Alike D E s (nameShape shape) (Infer.nameShape shape) :=
  refl fun _ h => absurd h not_fails_modifyGet

theorem nameIri {i : Iri} : Alike D E s (nameIri i) (Infer.nameIri i) :=
  refl fun _ h => absurd h not_fails_modifyGet

theorem scope {n : Node} {stack : ConstraintStack} {rest : List ConstraintStack}
    (h : s.scopes = stack :: rest) : Alike D E s (scope n) (Infer.scope n) := by
  refine get_bind ?_
  rw [h]
  exact pure

theorem scope_bind {n : Node} {stack : ConstraintStack} {rest : List ConstraintStack}
    (hs : s.scopes = stack :: rest) {f g : ConstraintStack → Infer α} (h : Alike D E s (f stack) (g stack)) :
    Alike D E s (Infer.scope n >>= f) (Infer.scope n >>= g) := by
  refine bind (scope hs) fun stack' t ht => ?_
  obtain ⟨⟨rest', hs'⟩, rfl⟩ := gives_scope.1 ht
  cases hs.symm.trans hs'
  exact h

theorem updateScope {n : Node} {f : ConstraintStack → Option StackError × ConstraintStack}
    {stack stack' : ConstraintStack} {rest : List ConstraintStack} (h : s.scopes = stack :: rest)
    (hf : f stack = (none, stack')) : Alike D E s (updateScope n f) (Infer.updateScope n f) := by
  refine get_bind ?_
  rw [h]
  simp only [hf]
  exact refl fun _ h => absurd h not_fails_set

end Alike

end Infer

end ShapeTypes
