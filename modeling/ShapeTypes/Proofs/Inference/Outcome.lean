import ShapeTypes.Inference.State
import ShapeTypes.Proofs.Except

/-!
# Outcomes of inference steps

* `Infer.Gives` — a computation ends with a value in a state; `Infer.Fails` — it ends with an error;
* `Infer.gives_bind`, `Infer.fails_bind` — outcomes of a sequence are outcomes of its parts;
* one lemma for each single step of `Infer`.
-/

namespace ShapeTypes

open Rdf

namespace Infer

variable {α β : Type} {s s' : InferenceState} {e : InferenceError}

/-- The computation ends with a value, in a state. -/
def Gives (x : Infer α) (s : InferenceState) (a : α) (s' : InferenceState) : Prop :=
  x.run s = .ok (a, s')

/-- The computation ends with an error. -/
def Fails (x : Infer α) (s : InferenceState) (e : InferenceError) : Prop := x.run s = .error e

/-! ## Sequences -/

@[simp]
theorem gives_pure {a b : α} : (pure a : Infer α).Gives s b s' ↔ b = a ∧ s' = s := by
  show Except.ok (a, s) = Except.ok (b, s') ↔ b = a ∧ s' = s
  simp [eq_comm]

@[simp]
theorem gives_bind {x : Infer α} {f : α → Infer β} {b : β} :
    (x >>= f).Gives s b s' ↔ ∃ a t, x.Gives s a t ∧ (f a).Gives t b s' := by
  simp only [Gives, StateT.run_bind, bind_eq_ok, Prod.exists]

@[simp]
theorem gives_map {x : Infer α} {f : α → β} {b : β} :
    (f <$> x).Gives s b s' ↔ ∃ a, x.Gives s a s' ∧ b = f a := by
  rw [← bind_pure_comp, gives_bind]
  constructor
  · rintro ⟨a, t, hx, hf⟩
    obtain ⟨rfl, rfl⟩ := gives_pure.1 hf
    exact ⟨a, hx, rfl⟩
  · rintro ⟨a, hx, rfl⟩
    exact ⟨a, s', hx, gives_pure.2 ⟨rfl, rfl⟩⟩

@[simp]
theorem not_fails_pure {a : α} : ¬ (pure a : Infer α).Fails s e := by
  show ¬ (Except.ok _ = Except.error e)
  simp

@[simp]
theorem fails_bind {x : Infer α} {f : α → Infer β} :
    (x >>= f).Fails s e ↔ x.Fails s e ∨ ∃ a t, x.Gives s a t ∧ (f a).Fails t e := by
  simp only [Fails, Gives, StateT.run_bind, bind_eq_error, Prod.exists]

@[simp]
theorem fails_map {x : Infer α} {f : α → β} : (f <$> x).Fails s e ↔ x.Fails s e := by
  rw [← bind_pure_comp, fails_bind]
  simp

/-! ## Reading and writing the state -/

@[simp]
theorem gives_get {t : InferenceState} : (get : Infer InferenceState).Gives s t s' ↔ t = s ∧ s' = s :=
  gives_pure

theorem gives_get_bind {f : InferenceState → Infer α} {a : α} :
    ((get : Infer InferenceState) >>= f).Gives s a s' ↔ (f s).Gives s a s' := by
  constructor
  · intro h
    obtain ⟨_, _, hg, h⟩ := gives_bind.1 h
    obtain ⟨rfl, rfl⟩ := gives_get.1 hg
    exact h
  · exact fun h => gives_bind.2 ⟨s, s, gives_get.2 ⟨rfl, rfl⟩, h⟩

@[simp]
theorem gives_set {t : InferenceState} {u : PUnit} : (set t : Infer PUnit).Gives s u s' ↔ s' = t := by
  show Except.ok (PUnit.unit, t) = Except.ok (u, s') ↔ s' = t
  simp [eq_comm]

@[simp]
theorem gives_modify {f : InferenceState → InferenceState} {u : PUnit} :
    (modify f : Infer PUnit).Gives s u s' ↔ s' = f s := by
  show Except.ok (PUnit.unit, f s) = Except.ok (u, s') ↔ s' = f s
  simp [eq_comm]

@[simp]
theorem gives_modifyGet {f : InferenceState → α × InferenceState} {a : α} :
    (modifyGet f : Infer α).Gives s a s' ↔ a = (f s).1 ∧ s' = (f s).2 := by
  show Except.ok ((f s).1, (f s).2) = Except.ok (a, s') ↔ a = (f s).1 ∧ s' = (f s).2
  constructor
  · intro h
    cases h
    exact ⟨rfl, rfl⟩
  · rintro ⟨rfl, rfl⟩
    rfl

@[simp]
theorem not_fails_get : ¬ (get : Infer InferenceState).Fails s e := not_fails_pure

@[simp]
theorem not_fails_set {t : InferenceState} : ¬ (set t : Infer PUnit).Fails s e := by
  show ¬ (Except.ok _ = Except.error e)
  simp

@[simp]
theorem not_fails_modify {f : InferenceState → InferenceState} :
    ¬ (modify f : Infer PUnit).Fails s e := by
  show ¬ (Except.ok _ = Except.error e)
  simp

@[simp]
theorem not_fails_modifyGet {f : InferenceState → α × InferenceState} :
    ¬ (modifyGet f : Infer α).Fails s e := by
  show ¬ (Except.ok _ = Except.error e)
  simp

/-! ## Refusals -/

@[simp]
theorem not_gives_malformed {n : Node} {c : Malformed} {a : α} :
    ¬ (malformed n c : Infer α).Gives s a s' := by
  show ¬ (Except.error _ = Except.ok _)
  simp

@[simp]
theorem not_gives_ambiguous {n : Node} {c : Ambiguity} {a : α} :
    ¬ (ambiguous n c : Infer α).Gives s a s' := by
  show ¬ (Except.error _ = Except.ok _)
  simp

@[simp]
theorem not_gives_violation {n : Node} {c : Violation} {a : α} :
    ¬ (violation n c : Infer α).Gives s a s' := by
  show ¬ (Except.error _ = Except.ok _)
  simp

@[simp]
theorem fails_malformed {n : Node} {c : Malformed} :
    (malformed n c : Infer α).Fails s e ↔ e = .malformed n c := by
  show Except.error (InferenceError.malformed n c) = Except.error e ↔ e = .malformed n c
  simp [eq_comm]

@[simp]
theorem fails_ambiguous {n : Node} {c : Ambiguity} :
    (ambiguous n c : Infer α).Fails s e ↔ e = .ambiguous n c := by
  show Except.error (InferenceError.ambiguous n c) = Except.error e ↔ e = .ambiguous n c
  simp [eq_comm]

@[simp]
theorem fails_violation {n : Node} {c : Violation} :
    (violation n c : Infer α).Fails s e ↔ e = .invariant n c := by
  show Except.error (InferenceError.invariant n c) = Except.error e ↔ e = .invariant n c
  simp [eq_comm]

/-! ## Single steps -/

@[simp]
theorem gives_newSlot {c : Content} {slot : Slot} :
    (newSlot c).Gives s slot s' ↔ slot = s.slots.length ∧ s' = { s with slots := s.slots ++ [c] } := by
  simp [newSlot, and_comm]

@[simp]
theorem gives_writeSlot {n : Node} {slot : Slot} {t : ItemType} {u : Unit} :
    (writeSlot n slot t).Gives s u s' ↔
      slot < s.slots.length ∧ s' = { s with slots := s.slots.set slot (.type t) } := by
  unfold writeSlot
  simp only [gives_bind, gives_get]
  constructor
  · rintro ⟨_, _, ⟨rfl, rfl⟩, h⟩
    split at h
    · rename_i hlt
      exact ⟨hlt, gives_set.1 h⟩
    · exact absurd h not_gives_violation
  · rintro ⟨hlt, rfl⟩
    exact ⟨s, s, ⟨rfl, rfl⟩, by rw [if_pos hlt]; exact gives_set.2 rfl⟩

@[simp]
theorem gives_addAlias {slot target : Slot} {n : Node} {u : Unit} :
    (addAlias slot target n).Gives s u s' ↔
      s' = { s with aliases := s.aliases ++ [⟨slot, target, n⟩] } :=
  gives_modify

@[simp]
theorem gives_remember {n : Node} {p : Progress} {u : Unit} :
    (remember n p).Gives s u s' ↔ s' = { s with memo := (n, p) :: s.memo } :=
  gives_modify

theorem gives_scope {n : Node} {stack : ConstraintStack} :
    (scope n).Gives s stack s' ↔ (∃ rest, s.scopes = stack :: rest) ∧ s' = s := by
  unfold scope
  simp only [gives_bind, gives_get]
  constructor
  · rintro ⟨_, _, ⟨rfl, rfl⟩, h⟩
    split at h
    · rename_i top rest hs
      obtain ⟨rfl, rfl⟩ := gives_pure.1 h
      exact ⟨⟨rest, hs⟩, rfl⟩
    · exact absurd h not_gives_violation
  · rintro ⟨⟨rest, hs⟩, rfl⟩
    exact ⟨s', s', ⟨rfl, rfl⟩, by rw [hs]; exact gives_pure.2 ⟨rfl, rfl⟩⟩

/-- After reading the innermost scope, the run goes on with it. -/
theorem gives_scope_bind {n : Node} {stack : ConstraintStack} {rest : List ConstraintStack}
    (hs : s.scopes = stack :: rest) {f : ConstraintStack → Infer α} {a : α} :
    (scope n >>= f).Gives s a s' ↔ (f stack).Gives s a s' := by
  constructor
  · intro h
    obtain ⟨top, _, hsc, h⟩ := gives_bind.1 h
    obtain ⟨⟨rest', hs'⟩, rfl⟩ := gives_scope.1 hsc
    cases hs.symm.trans hs'
    exact h
  · exact fun h => gives_bind.2 ⟨stack, s, gives_scope.2 ⟨⟨rest, hs⟩, rfl⟩, h⟩

theorem gives_updateScope {n : Node} {f : ConstraintStack → Option StackError × ConstraintStack} {u : Unit} :
    (updateScope n f).Gives s u s' ↔ ∃ stack rest stack', s.scopes = stack :: rest ∧
      f stack = (none, stack') ∧ s' = { s with scopes := stack' :: rest } := by
  unfold updateScope
  simp only [gives_bind, gives_get]
  constructor
  · rintro ⟨_, _, ⟨rfl, rfl⟩, h⟩
    split at h
    · exact absurd h not_gives_violation
    · rename_i stack rest hs
      split at h
      · rename_i stack' hf
        exact ⟨stack, rest, stack', hs, hf, gives_set.1 h⟩
      · exact absurd h not_gives_violation
  · rintro ⟨stack, rest, stack', hs, hf, rfl⟩
    exact ⟨s, s, ⟨rfl, rfl⟩, by simp [hs, hf]⟩

@[simp]
theorem gives_detached {x : Infer α} {a : α} :
    (detached x).Gives s a s' ↔ ∃ t, x.Gives { s with scopes := .empty :: s.scopes } a t ∧
      s' = { t with scopes := t.scopes.tail } := by
  unfold detached
  simp only [gives_bind, gives_modify, gives_pure]
  constructor
  · rintro ⟨_, _, rfl, b, t, hx, _, _, rfl, rfl, rfl⟩
    exact ⟨t, hx, rfl⟩
  · rintro ⟨t, hx, rfl⟩
    exact ⟨⟨⟩, _, rfl, a, t, hx, ⟨⟩, _, rfl, rfl, rfl⟩

@[simp]
theorem gives_nameShape {shape : Shape} {name : Name} :
    (nameShape shape).Gives s name s' ↔
      name = (s.names.nameShape shape).1 ∧ s' = { s with names := (s.names.nameShape shape).2 } :=
  gives_modifyGet

@[simp]
theorem gives_nameIri {i : Iri} {name : Name} :
    (nameIri i).Gives s name s' ↔
      name = (s.names.nameIri i).1 ∧ s' = { s with names := (s.names.nameIri i).2 } :=
  gives_modifyGet

end Infer

end ShapeTypes
