import Mathlib.Data.List.Forall2

/-!
# Outcomes of computations that may fail

* `bind_eq_ok`, `bind_eq_error`, `map_eq_error` — the outcomes of a sequence are outcomes of its parts;
* `toOption_eq_some`, `exists_of_isSome_toOption`, `exists_of_isNone_toOption` — there is a value, or an error;
* `forM_eq_ok`, `exists_of_forM_eq_error` — outcomes of a check of all elements of a list;
* `forall₂_of_mapM_eq_ok`, `mapM_eq_ok_of_forall₂` — the values for all elements of a list, one for each;
* `mapM_eq_error`, `mapM_eq_of_ne_error` — a list fails as the first element that fails; what agrees until then agrees.
-/

namespace ShapeTypes

theorem bind_eq_ok {ε α β : Type} {x : Except ε α} {f : α → Except ε β} {b : β} :
    x >>= f = .ok b ↔ ∃ a, x = .ok a ∧ f a = .ok b := by
  cases x <;> simp [bind, Except.bind]

theorem bind_eq_error {ε α β : Type} {x : Except ε α} {f : α → Except ε β} {e : ε} :
    x >>= f = .error e ↔ x = .error e ∨ ∃ a, x = .ok a ∧ f a = .error e := by
  cases x <;> simp [bind, Except.bind]

theorem map_eq_error {ε α β : Type} {x : Except ε α} {f : α → β} {e : ε} : f <$> x = .error e ↔ x = .error e := by
  cases x <;> simp [Functor.map, Except.map]

theorem toOption_eq_some {ε α : Type} {x : Except ε α} {a : α} : x.toOption = some a ↔ x = .ok a := by
  cases x <;> simp [Except.toOption]

theorem exists_of_isSome_toOption {ε α : Type} {x : Except ε α} (h : x.toOption.isSome = true) : ∃ a, x = .ok a := by
  obtain ⟨a, ha⟩ := Option.isSome_iff_exists.1 h
  exact ⟨a, toOption_eq_some.1 ha⟩

theorem exists_of_isNone_toOption {ε α : Type} {x : Except ε α} (h : x.toOption.isNone = true) :
    ∃ e, x = .error e := by
  cases x with
  | ok a => cases h
  | error e => exact ⟨e, rfl⟩

theorem forM_eq_ok {ε α : Type} {f : α → Except ε Unit} {l : List α} :
    l.forM f = .ok () ↔ ∀ a ∈ l, f a = .ok () := by
  induction l with
  | nil => simp [pure, Except.pure]
  | cons a l ih =>
      rw [show (a :: l).forM f = f a >>= fun _ => l.forM f from rfl, bind_eq_ok, List.forall_mem_cons, ← ih]
      constructor
      · rintro ⟨⟨⟩, ha, hl⟩
        exact ⟨ha, hl⟩
      · rintro ⟨ha, hl⟩
        exact ⟨(), ha, hl⟩

theorem exists_of_forM_eq_error {ε α : Type} {f : α → Except ε Unit} {l : List α} {e : ε}
    (h : l.forM f = .error e) : ∃ a ∈ l, f a = .error e := by
  induction l with
  | nil => cases h
  | cons a l ih =>
      rw [show (a :: l).forM f = f a >>= fun _ => l.forM f from rfl, bind_eq_error] at h
      rcases h with h | ⟨_, -, h⟩
      · exact ⟨a, List.mem_cons_self, h⟩
      · obtain ⟨b, hb, h⟩ := ih h
        exact ⟨b, List.mem_cons_of_mem _ hb, h⟩

theorem forall₂_of_mapM_eq_ok {ε α β : Type} {f : α → Except ε β} : ∀ {l : List α} {bs : List β},
    l.mapM f = .ok bs → List.Forall₂ (fun a b => f a = .ok b) l bs
  | [], bs, h => by
    cases h
    exact .nil
  | a :: l, bs, h => by
    rw [List.mapM_cons] at h
    obtain ⟨b, hb, h⟩ := bind_eq_ok.1 h
    obtain ⟨rest, hrest, h⟩ := bind_eq_ok.1 h
    cases h
    exact .cons hb (forall₂_of_mapM_eq_ok hrest)

theorem mapM_eq_ok_of_forall₂ {ε α β : Type} {f : α → Except ε β} {l : List α} {bs : List β}
    (h : List.Forall₂ (fun a b => f a = .ok b) l bs) : l.mapM f = .ok bs := by
  induction h with
  | nil => rfl
  | cons ha _ ih =>
      rw [List.mapM_cons, ha, ih]
      rfl

section

variable {ε α β : Type} {f f' : α → Except ε β} {e : ε}

/-- An element that fails in the only way in which those before it may fail. -/
theorem mapM_append_eq_error {before after : List α} {a : α}
    (hbefore : ∀ b ∈ before, (∃ v, f b = .ok v) ∨ f b = .error e) (ha : f a = .error e) :
    (before ++ a :: after).mapM f = .error e := by
  induction before with
  | nil => rw [List.nil_append, List.mapM_cons, bind_eq_error]; exact Or.inl ha
  | cons b before ih =>
      rw [List.cons_append, List.mapM_cons, bind_eq_error]
      rcases hbefore b List.mem_cons_self with ⟨v, hv⟩ | herror
      · refine Or.inr ⟨v, hv, bind_eq_error.2 (Or.inl (ih fun b hb => ?_))⟩
        exact hbefore b (List.mem_cons_of_mem _ hb)
      · exact Or.inl herror

/-- **A list fails as the first of its elements that fails.** -/
theorem mapM_eq_error {l : List α} : l.mapM f = .error e ↔
    ∃ before a after, l = before ++ a :: after ∧ (∀ b ∈ before, ∃ v, f b = .ok v) ∧ f a = .error e := by
  constructor
  · intro h
    induction l with
    | nil => cases h
    | cons x l ih =>
        rw [List.mapM_cons, bind_eq_error] at h
        rcases h with hx | ⟨v, hv, h⟩
        · exact ⟨[], x, l, rfl, fun _ hb => absurd hb List.not_mem_nil, hx⟩
        · rcases bind_eq_error.1 h with hl | ⟨_, -, h⟩
          · obtain ⟨before, a, after, rfl, hbefore, ha⟩ := ih hl
            exact ⟨x :: before, a, after, rfl, List.forall_mem_cons.2 ⟨⟨v, hv⟩, hbefore⟩, ha⟩
          · cases h
  · rintro ⟨before, a, after, rfl, hbefore, ha⟩
    exact mapM_append_eq_error (fun b hb => Or.inl (hbefore b hb)) ha

/-- A list that does not fail with `e` is answered alike by a function that agrees wherever there is no `e`. -/
theorem mapM_eq_of_ne_error {l : List α} (hagree : ∀ a ∈ l, f a ≠ .error e → f' a = f a)
    (h : l.mapM f ≠ .error e) : l.mapM f' = l.mapM f := by
  induction l with
  | nil => rfl
  | cons x l ih =>
      have hx : f x ≠ .error e := by
        intro hx
        exact h (mapM_eq_error.2 ⟨[], x, l, rfl, fun _ hb => absurd hb List.not_mem_nil, hx⟩)
      rw [List.mapM_cons, List.mapM_cons, hagree x List.mem_cons_self hx]
      cases hfx : f x with
      | error e' => rfl
      | ok v =>
          have hl : l.mapM f ≠ .error e := by
            intro hl
            refine h ?_
            rw [List.mapM_cons, bind_eq_error]
            exact Or.inr ⟨v, hfx, bind_eq_error.2 (Or.inl hl)⟩
          rw [ih (fun a ha => hagree a (List.mem_cons_of_mem _ ha)) hl]

end

end ShapeTypes
