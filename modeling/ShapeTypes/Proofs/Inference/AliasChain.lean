import Mathlib.Logic.Relation
import ShapeTypes.Proofs.Inference.Outcome
import ShapeTypes.Proofs.Lookup

/-!
# Chains of aliases

* `Alias.Chain` — going from alias to alias from a slot ends in another one after so many steps;
* `Alias.Chain.unique`, `Alias.Chain.le_length` — the end and the steps are determined, and there are no
  more steps than aliases;
* `Alias.Chain.follow_eq` — `follow` gives the end of a chain;
* `Alias.chainEnd_eq_of_lt` — **more steps make no difference** when a chain is followed to its end;
* `Alias.chain_replaceSlot` — **when every alias is replaced, a slot is replaced by the end of its chain**;
* `Alias.exists_first_loose` — when that fails, the first alias whose chain has no end is reported.
-/

namespace ShapeTypes

open Rdf Relation

variable {aliases : List Alias}

theorem aliasOf?_some {x : Slot} {a : Alias} (h : aliasOf? aliases x = some a) :
    a ∈ aliases ∧ a.slot = x :=
  ⟨List.mem_of_find?_eq_some h, by simpa using List.find?_some h⟩

theorem aliasOf?_none {x : Slot} (h : aliasOf? aliases x = none) : ∀ a ∈ aliases, a.slot ≠ x := by
  simpa [aliasOf?] using h

theorem aliasOf?_of_mem (hd : (aliases.map (·.slot)).Nodup) {a : Alias} (h : a ∈ aliases) :
    aliasOf? aliases a.slot = some a :=
  find?_key_of_mem hd h

theorem aliasOf?_append {later : List Alias} {x : Slot} {a : Alias} (h : aliasOf? aliases x = some a) :
    aliasOf? (aliases ++ later) x = some a := by
  unfold aliasOf? at h ⊢
  rw [List.find?_append, h]
  rfl

namespace Alias

/-- Going from alias to alias from the first slot ends in the last one after so many steps. -/
inductive Chain (aliases : List Alias) : Slot → Nat → Slot → Prop where
  | ends {x : Slot} : aliasOf? aliases x = none → Chain aliases x 0 x
  | step {x e : Slot} {a : Alias} {n : Nat} :
      aliasOf? aliases x = some a → Chain aliases a.target n e → Chain aliases x (n + 1) e

/-- From a slot to the target of its alias. -/
def Next (aliases : List Alias) (x y : Slot) : Prop := ∃ a, aliasOf? aliases x = some a ∧ a.target = y

namespace Chain

variable {x e e' : Slot} {n m : Nat}

theorem isEnd (h : Chain aliases x n e) : aliasOf? aliases e = none := by
  induction h with
  | ends h => exact h
  | step _ _ ih => exact ih

theorem unique (h : Chain aliases x n e) (h' : Chain aliases x m e') : n = m ∧ e = e' := by
  induction h generalizing m with
  | ends hx =>
      cases h' with
      | ends _ => exact ⟨rfl, rfl⟩
      | step hx' _ => rw [hx] at hx'; cases hx'
  | step hx _ ih =>
      cases h' with
      | ends hx' => rw [hx] at hx'; cases hx'
      | step hx' h' =>
          rw [hx] at hx'
          cases hx'
          obtain ⟨rfl, rfl⟩ := ih h'
          exact ⟨rfl, rfl⟩

/-- **A chain that ends has no more steps than there are aliases.** -/
theorem le_length (h : Chain aliases x n e) : n ≤ aliases.length := by
  have hunique : ∀ x n m, (∃ e, Chain aliases x n e) → (∃ e, Chain aliases x m e) → n = m :=
    fun x n m ⟨e, he⟩ ⟨e', he'⟩ => (he.unique he').1
  have hdescends : ∀ x n, (∃ e, Chain aliases x (n + 1) e) →
      x ∈ aliases.map (·.slot) ∧ ∃ y, ∃ e, Chain aliases y n e := by
    rintro x n ⟨e, _ | ⟨hx, h⟩⟩
    obtain ⟨hmem, rfl⟩ := aliasOf?_some hx
    exact ⟨List.mem_map_of_mem hmem, _, e, h⟩
  simpa using le_length_of_descends hunique hdescends ⟨e, h⟩

theorem followFor_eq (h : Chain aliases x n e) : ∀ steps, n ≤ steps → followFor aliases steps x = e := by
  induction h with
  | ends hx =>
      intro steps _
      cases steps with
      | zero => rfl
      | succ steps => simp [followFor, hx]
  | step hx _ ih =>
      intro steps hle
      obtain ⟨s, rfl⟩ : ∃ s, steps = s + 1 := ⟨steps - 1, by omega⟩
      simp only [followFor, hx]
      exact ih s (by omega)

theorem follow_eq (h : Chain aliases x n e) : follow aliases x = e :=
  h.followFor_eq _ (Nat.le_succ_of_le h.le_length)

/-- Every slot on the way has the same end, and is not further away from it. -/
theorem of_path (h : Chain aliases x n e) {y : Slot} (hp : ReflTransGen (Next aliases) x y) :
    ∃ m, m ≤ n ∧ Chain aliases y m e := by
  induction hp with
  | refl => exact ⟨n, Nat.le_refl n, h⟩
  | tail _ hstep ih =>
      obtain ⟨a, ha, rfl⟩ := hstep
      obtain ⟨m, hle, hm⟩ := ih
      cases hm with
      | ends hx => rw [ha] at hx; cases hx
      | step hx hm => rw [ha] at hx; cases hx; exact ⟨_, Nat.le_of_succ_le hle, hm⟩

/-- A chain begins with a chain of the aliases registered first. -/
theorem exists_initial {later : List Alias} (h : Chain (aliases ++ later) x n e) :
    ∃ m y, Chain aliases x m y ∧ ReflTransGen (Next (aliases ++ later)) x y := by
  induction h with
  | @ends x hx =>
      refine ⟨0, x, .ends ?_, .refl⟩
      cases h : aliasOf? aliases x with
      | none => rfl
      | some a => rw [aliasOf?_append h] at hx; cases hx
  | @step x e a n hx _ ih =>
      cases h : aliasOf? aliases x with
      | none => exact ⟨0, x, .ends h, .refl⟩
      | some b =>
          rw [aliasOf?_append h] at hx
          cases hx
          obtain ⟨m, y, hc, hp⟩ := ih
          exact ⟨m + 1, y, .step h hc, .head ⟨a, aliasOf?_append h, rfl⟩ hp⟩

end Chain

theorem follow_lt {n x : Slot} (h : ∀ a ∈ aliases, a.target < n) (hx : x < n) : follow aliases x < n := by
  have hsteps : ∀ steps x, x < n → followFor aliases steps x < n := by
    intro steps
    induction steps with
    | zero => exact fun x hx => hx
    | succ steps ih =>
        intro x hx
        unfold followFor
        split
        · rename_i a ha
          exact ih _ (h a (aliasOf?_some ha).1)
        · exact hx
  exact hsteps _ x hx

/-! ## Replacing aliases -/

theorem chainEnd_of_chain {x e : Slot} {n : Nat} (h : Chain aliases x n e) :
    ∀ fuel seen shapes, n < fuel → (∀ y ∈ seen, ∀ m e', Chain aliases y m e' → n < m) →
      chainEnd aliases fuel seen shapes x = .ok e := by
  induction h with
  | ends hx =>
      intro fuel seen shapes hf _
      obtain ⟨f, rfl⟩ : ∃ f, fuel = f + 1 := ⟨fuel - 1, by omega⟩
      simp [chainEnd, hx]
  | @step x e a n hx h ih =>
      intro fuel seen shapes hf hseen
      obtain ⟨f, rfl⟩ : ∃ f, fuel = f + 1 := ⟨fuel - 1, by omega⟩
      have hc : Chain aliases x (n + 1) e := .step hx h
      have hns : x ∉ seen := fun hmem => by have := hseen x hmem _ _ hc; omega
      simp only [chainEnd, hx, hns, if_false]
      refine ih f _ _ (by omega) fun y hy m e' hcy => ?_
      rcases List.mem_cons.1 hy with rfl | hy
      · have := (hcy.unique hc).1
        omega
      · have := hseen y hy m e' hcy
        omega

theorem chain_of_chainEnd : ∀ fuel seen shapes x e,
    chainEnd aliases fuel seen shapes x = .ok e → ∃ n, Chain aliases x n e
  | 0, _, _, _, _, h => by simp [chainEnd] at h
  | fuel + 1, seen, shapes, x, e, h => by
    unfold chainEnd at h
    split at h
    · rename_i hx
      cases h
      exact ⟨0, .ends hx⟩
    · rename_i a hx
      split at h
      · cases h
      · obtain ⟨n, hn⟩ := chain_of_chainEnd fuel _ _ _ _ h
        exact ⟨n + 1, .step hx hn⟩

/-- **More steps make no difference** to the end of a chain, once they and the slots passed are more than the
aliases. -/
theorem chainEnd_eq_of_lt : ∀ (n m : Nat) {passed start : List Slot} {shapes : List Node} {x : Slot},
    passed.Nodup → passed ⊆ aliases.map (·.slot) → aliases.length < n + passed.length →
    aliases.length < m + passed.length →
    chainEnd aliases n (passed ++ start) shapes x = chainEnd aliases m (passed ++ start) shapes x
  | 0, _, _, _, _, _, hd, hsub, hn, _ => by
    have := hd.length_le_of_subset hsub
    rw [List.length_map] at this
    omega
  | _, 0, _, _, _, _, hd, hsub, _, hm => by
    have := hd.length_le_of_subset hsub
    rw [List.length_map] at this
    omega
  | n + 1, m + 1, passed, start, shapes, x, hd, hsub, hn, hm => by
    unfold chainEnd
    split
    · rfl
    · rename_i a hx
      split
      · rfl
      · rename_i hnew
        obtain ⟨hmem, rfl⟩ := aliasOf?_some hx
        have hd' : (a.slot :: passed).Nodup :=
          List.nodup_cons.2 ⟨fun h => hnew (List.mem_append_left _ h), hd⟩
        refine chainEnd_eq_of_lt n m hd' (List.cons_subset.2 ⟨List.mem_map_of_mem hmem, hsub⟩) ?_ ?_ <;>
          simp only [List.length_cons] <;> omega

/-- The shapes reported are those at hand and those of aliases on the way. -/
theorem shapes_of_chainEnd : ∀ fuel seen shapes x shapes',
    chainEnd aliases fuel seen shapes x = .error shapes' → shapes ⊆ shapes' ∧ ∀ s ∈ shapes', s ∈ shapes ∨
      ∃ y b, ReflTransGen (Next aliases) x y ∧ aliasOf? aliases y = some b ∧ b.shape = s
  | 0, _, shapes, _, shapes', h => by
    simp only [chainEnd, Except.error.injEq] at h
    subst h
    exact ⟨List.Subset.refl _, fun s hs => Or.inl hs⟩
  | fuel + 1, seen, shapes, x, shapes', h => by
    unfold chainEnd at h
    split at h
    · cases h
    · rename_i a hx
      split at h
      · cases h
        exact ⟨List.Subset.refl _, fun s hs => Or.inl hs⟩
      · obtain ⟨hsub, hall⟩ := shapes_of_chainEnd fuel _ _ _ _ h
        refine ⟨List.Subset.trans (List.subset_append_left _ _) hsub, fun s hs => ?_⟩
        rcases hall s hs with hs | ⟨y, b, hp, hb, rfl⟩
        · rcases List.mem_append.1 hs with hs | hs
          · exact Or.inl hs
          · exact Or.inr ⟨x, a, .refl, hx, (List.mem_singleton.1 hs).symm⟩
        · exact Or.inr ⟨y, b, .head ⟨a, hx, rfl⟩ hp, hb, rfl⟩

theorem mem_shapes_of_chainEnd {fuel : Nat} {seen : List Slot} {shapes shapes' : List Node} {x : Slot} {b : Alias}
    (h : chainEnd aliases (fuel + 1) seen shapes x = .error shapes') (hb : aliasOf? aliases x = some b)
    (hx : x ∉ seen) : b.shape ∈ shapes' := by
  simp only [chainEnd, hb, if_neg hx] at h
  exact (shapes_of_chainEnd _ _ _ _ _ h).1 (List.mem_append_right _ (List.mem_singleton_self _))

/-- An alias is resolved to the end of the chain from its target. -/
theorem resolve_of_chain {a : Alias} (ha : aliasOf? aliases a.slot = some a) {e : Slot} {n : Nat}
    (h : Chain aliases a.target n e) : a.resolve aliases = .ok e := by
  refine chainEnd_of_chain h _ _ _ (Nat.lt_succ_of_le h.le_length) fun y hy m e' hcy => ?_
  rw [List.mem_singleton.1 hy] at hcy
  have := (hcy.unique (.step ha h)).1
  omega

theorem chain_of_resolve {a : Alias} {e : Slot} (h : a.resolve aliases = .ok e) :
    ∃ n, Chain aliases a.target n e :=
  chain_of_chainEnd _ _ _ _ _ h

/-- The replacement of a slot is looked up as its alias is. -/
theorem lookup_mapM_resolve : ∀ (l : List Alias) {r : List (Slot × Slot)},
    l.mapM (fun a => do return (a.slot, ← a.resolve aliases)) = Except.ok r → ∀ x,
      (aliasOf? l x = none ∧ r.lookup x = none) ∨
        ∃ a e, aliasOf? l x = some a ∧ a.resolve aliases = .ok e ∧ r.lookup x = some e
  | [], r, h, x => by
    simp only [List.mapM_nil, pure, Except.pure, Except.ok.injEq] at h
    subst h
    exact Or.inl ⟨rfl, rfl⟩
  | b :: l, r, h, x => by
    rw [List.mapM_cons, bind_eq_ok] at h
    obtain ⟨⟨y, e⟩, hb, h⟩ := h
    obtain ⟨e', hb, he⟩ := bind_eq_ok.1 hb
    obtain ⟨r', hl, h⟩ := bind_eq_ok.1 h
    cases he
    cases h
    by_cases hx : b.slot = x
    · subst hx
      exact Or.inr ⟨b, e, by simp [aliasOf?], hb, List.lookup_cons_self⟩
    · have hx' : (x == b.slot) = false := by simpa using fun e => hx e.symm
      simpa [aliasOf?, List.find?_cons, List.lookup_cons, hx, hx'] using lookup_mapM_resolve l hl x

/-- **When every alias is replaced, a slot is replaced by the end of its chain.** -/
theorem chain_replaceSlot {r : List (Slot × Slot)} (h : replacements aliases = .ok r) (x : Slot) :
    ∃ n, Chain aliases x n (replaceSlot r x) := by
  rcases lookup_mapM_resolve aliases h x with ⟨hx, hl⟩ | ⟨a, e, hx, hres, hl⟩
  · exact ⟨0, by simpa [replaceSlot, hl] using Chain.ends hx⟩
  · obtain ⟨n, hn⟩ := chain_of_resolve hres
    exact ⟨n + 1, by simpa [replaceSlot, hl] using Chain.step hx hn⟩

/-- When that fails, the first alias whose chain has no end is reported. -/
theorem exists_first_loose (l : List Alias) {shapes : List Node}
    (h : l.mapM (fun a => do return (a.slot, ← a.resolve aliases)) = Except.error shapes) :
    ∃ before a after, l = before ++ a :: after ∧ a.resolve aliases = .error shapes ∧
      ∀ b ∈ before, ∃ e, b.resolve aliases = .ok e := by
  obtain ⟨before, a, after, rfl, hbefore, ha⟩ := mapM_eq_error.1 h
  refine ⟨before, a, after, rfl, map_eq_error.1 ha, fun b hb => ?_⟩
  obtain ⟨_, hb⟩ := hbefore b hb
  obtain ⟨e, he, -⟩ := bind_eq_ok.1 hb
  exact ⟨e, he⟩

end Alias

end ShapeTypes
