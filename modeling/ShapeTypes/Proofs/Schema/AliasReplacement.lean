import ShapeTypes.Proofs.Schema.Renaming

/-!
# Replacing aliases is following them

The end of a chain of aliases is looked for in two ways: while shapes are resolved, by a bounded number of steps; and
at the end, by a walk that knows where it has been and fills a table.

* `Alias.Leads`, `Alias.EndsIn`, `Alias.GoesRound` — where a chain of aliases leads, ends, or comes back to itself;
* `Alias.Chain.not_goesRound`, `Alias.exists_round_of_chainEnd` — **a chain has an end, or it goes round**;
* `Alias.replaceSlot_eq_follow` — **the table of a walk that succeeds is what following gives**;
* `InferenceState.AliasesReplaced` — every handle is replaced by the end of its chain, and nothing else changes;
* `replaceAliases_follows` — **so aliases are replaced, unless a chain goes round.**
-/

namespace ShapeTypes

open Rdf Relation

variable {aliases : List Alias} {x e : Slot} {n : Nat}

namespace Alias

/-- An alias leads from one slot to another. -/
def Leads (aliases : List Alias) (x y : Slot) : Prop := ∃ a ∈ aliases, a.slot = x ∧ a.target = y

/-- The chain of aliases from the first slot ends in the second one, which is no alias. -/
structure EndsIn (aliases : List Alias) (x e : Slot) : Prop where
  path : ReflTransGen (Leads aliases) x e
  no_alias : ∀ a ∈ aliases, a.slot ≠ e

/-- The chain of aliases from a slot comes to one to which it comes back. -/
def GoesRound (aliases : List Alias) (x : Slot) : Prop :=
  ∃ y, ReflTransGen (Leads aliases) x y ∧ TransGen (Leads aliases) y y

/-! ## Chains with an end -/

/-- If no two aliases have the same slot, the first one that is found is the only one. -/
theorem next_eq_leads (hd : (aliases.map (·.slot)).Nodup) : Next aliases = Leads aliases := by
  funext x y
  refine propext ⟨?_, ?_⟩
  · rintro ⟨a, ha, rfl⟩
    exact ⟨a, (aliasOf?_some ha).1, (aliasOf?_some ha).2, rfl⟩
  · rintro ⟨a, ha, rfl, rfl⟩
    exact ⟨a, aliasOf?_of_mem hd ha, rfl⟩

theorem Chain.path (h : Chain aliases x n e) : ReflTransGen (Next aliases) x e := by
  induction h with
  | ends _ => exact .refl
  | step hx _ ih => exact .head ⟨_, hx, rfl⟩ ih

theorem Chain.endsIn (hd : (aliases.map (·.slot)).Nodup) (h : Chain aliases x n e) : EndsIn aliases x e where
  path := next_eq_leads hd ▸ h.path
  no_alias := aliasOf?_none h.isEnd

/-- A slot does not come back to itself on the way to an end: it would be closer to the end than it is. -/
theorem Chain.not_next_self (h : Chain aliases x n e) : ¬ TransGen (Next aliases) x x := by
  intro hround
  obtain ⟨y, ⟨a, ha, rfl⟩, hback⟩ := TransGen.head'_iff.1 hround
  cases h with
  | ends hx => rw [ha] at hx; cases hx
  | step hx hrest =>
      cases hx.symm.trans ha
      obtain ⟨m, hm, hself⟩ := hrest.of_path hback
      have := (hself.unique (.step hx hrest)).1
      omega

theorem Chain.not_goesRound (hd : (aliases.map (·.slot)).Nodup) (h : Chain aliases x n e) :
    ¬ GoesRound aliases x := by
  rintro ⟨y, hpath, hround⟩
  rw [← next_eq_leads hd] at hpath hround
  obtain ⟨m, -, hm⟩ := h.of_path hpath
  exact hm.not_next_self hround

/-! ## Chains without an end -/

/-- **A walk that fails has come back to a slot that it passed.** It passes only slots of aliases, each once, so that
its steps do not run out before. -/
theorem exists_round_of_chainEnd : ∀ (fuel : Nat) {passed : List Slot} {shapes shapes' : List Node} {x : Slot},
    passed.Nodup → passed ⊆ aliases.map (·.slot) → aliases.length < fuel + passed.length →
    (∀ y ∈ passed, TransGen (Next aliases) y x) → chainEnd aliases fuel passed shapes x = .error shapes' →
    ∃ y, ReflTransGen (Next aliases) x y ∧ TransGen (Next aliases) y y
  | 0, _, _, _, _, hd, hsub, hfuel, _, _ => by
    have := hd.length_le_of_subset hsub
    rw [List.length_map] at this
    omega
  | fuel + 1, passed, _, _, x, hd, hsub, hfuel, hpassed, h => by
    unfold chainEnd at h
    split at h
    · cases h
    · rename_i a ha
      split at h
      · rename_i hmem
        exact ⟨x, .refl, hpassed x hmem⟩
      · rename_i hnew
        obtain ⟨hmem, hslot⟩ := aliasOf?_some ha
        have hstep : Next aliases x a.target := ⟨a, ha, rfl⟩
        have hpassed' : ∀ y ∈ x :: passed, TransGen (Next aliases) y a.target :=
          List.forall_mem_cons.2 ⟨.single hstep, fun y hy => (hpassed y hy).tail hstep⟩
        obtain ⟨y, hpath, hround⟩ := exists_round_of_chainEnd fuel (List.nodup_cons.2 ⟨hnew, hd⟩)
          (List.cons_subset.2 ⟨hslot ▸ List.mem_map_of_mem hmem, hsub⟩)
          (by simp only [List.length_cons]; omega) hpassed' h
        exact ⟨y, .head hstep hpath, hround⟩

theorem goesRound_of_resolve (hd : (aliases.map (·.slot)).Nodup) {a : Alias} (ha : a ∈ aliases) {shapes : List Node}
    (h : a.resolve aliases = .error shapes) : GoesRound aliases a.slot := by
  have hstep : Next aliases a.slot a.target := ⟨a, aliasOf?_of_mem hd ha, rfl⟩
  obtain ⟨y, hpath, hround⟩ := exists_round_of_chainEnd _ (List.nodup_singleton a.slot)
    (List.cons_subset.2 ⟨List.mem_map_of_mem ha, List.nil_subset _⟩) (by simp only [List.length_singleton]; omega)
    (by simpa using TransGen.single hstep) h
  rw [GoesRound, ← next_eq_leads hd]
  exact ⟨y, .head hstep hpath, hround⟩

/-! ## The table of all aliases -/

variable {r : List (Slot × Slot)}

/-- **The table is what following gives.** -/
theorem replaceSlot_eq_follow (h : replacements aliases = .ok r) : replaceSlot r = follow aliases := by
  funext x
  obtain ⟨n, hn⟩ := chain_replaceSlot h x
  exact hn.follow_eq.symm

theorem endsIn_follow (hd : (aliases.map (·.slot)).Nodup) (h : replacements aliases = .ok r) (x : Slot) :
    EndsIn aliases x (follow aliases x) := by
  obtain ⟨n, hn⟩ := chain_replaceSlot h x
  rw [← replaceSlot_eq_follow h]
  exact hn.endsIn hd

/-- **There is no table exactly if a chain goes round.** -/
theorem replacements_eq_error_iff (hd : (aliases.map (·.slot)).Nodup) :
    (∃ shapes, replacements aliases = .error shapes) ↔ ∃ a ∈ aliases, GoesRound aliases a.slot := by
  constructor
  · rintro ⟨shapes, h⟩
    obtain ⟨before, a, after, hsplit, ha, -⟩ := exists_first_loose aliases h
    have hmem : a ∈ aliases := by
      rw [hsplit]
      simp
    exact ⟨a, hmem, goesRound_of_resolve hd hmem ha⟩
  · rintro ⟨a, -, hround⟩
    cases h : replacements aliases with
    | error shapes => exact ⟨shapes, rfl⟩
    | ok r =>
        obtain ⟨n, hn⟩ := chain_replaceSlot h a.slot
        exact absurd hround (hn.not_goesRound hd)

end Alias

/-! ## Slots and uses -/

namespace InferenceState

/-- The uses of those shapes that are resolved. -/
def knownUses (s : InferenceState) (ids : List Node) : List (Node × TypeUse) :=
  ids.filterMap fun id => (s.use? id).map fun use => (id, use)

/-- Every handle of slots and uses is replaced by the end of its chain of aliases, which following gives; so no handle
leads to an alias any more. Nothing else changes. -/
structure AliasesReplaced (s : InferenceState) (ids : List Node) (arena : Arena) (known : List (Node × TypeUse)) :
    Prop where
  ends : ∀ x, Alias.EndsIn s.aliases x (follow s.aliases x)
  slots : List.Forall₂ (Content.Renamed fun x y => y = follow s.aliases x) s.slots arena
  uses : List.Forall₂ (fun u u' => u'.1 = u.1 ∧ u.2.Renamed (fun x y => y = follow s.aliases x) u'.2)
    (s.knownUses ids) known
  no_alias : ∀ x ∈ arena.flatMap Content.children ++ known.map (·.2.item), ∀ a ∈ s.aliases, a.slot ≠ x

variable {s : InferenceState} {r : List (Slot × Slot)}

theorem replaceAliases_eq_error {shapes : List Node} (h : Alias.replacements s.aliases = .error shapes)
    (ids : List Node) : s.replaceAliases ids = .error (.unresolvedCycle (distinctNodes shapes)) := by
  rw [replaceAliases, h]

theorem replaceAliases_eq_ok_map (h : Alias.replacements s.aliases = .ok r) (ids : List Node) :
    s.replaceAliases ids = .ok (s.slots.map (·.mapSlots (follow s.aliases)),
      (s.knownUses ids).map fun u => (u.1, u.2.mapSlot (follow s.aliases))) := by
  rw [replaceAliases, h]
  simp only [Alias.replaceSlot_eq_follow h, knownUses, List.map_filterMap, Option.map_map, Function.comp_def]

theorem aliasesReplaced_map (hends : ∀ x, Alias.EndsIn s.aliases x (follow s.aliases x)) (ids : List Node) :
    s.AliasesReplaced ids (s.slots.map (·.mapSlots (follow s.aliases)))
      ((s.knownUses ids).map fun u => (u.1, u.2.mapSlot (follow s.aliases))) := by
  constructor
  case ends => exact hends
  case slots => exact forall₂_map_self fun c _ => Content.renamed_mapSlots fun _ _ => rfl
  case uses => exact forall₂_map_self fun u _ => ⟨rfl, TypeUse.renamed_mapSlot rfl⟩
  case no_alias =>
    intro x hx
    obtain ⟨y, rfl⟩ : ∃ y, follow s.aliases y = x := by
      rcases List.mem_append.1 hx with hx | hx
      · obtain ⟨_, hc, hx⟩ := List.mem_flatMap.1 hx
        obtain ⟨c, -, rfl⟩ := List.mem_map.1 hc
        rw [Content.children_mapSlots] at hx
        obtain ⟨y, -, hy⟩ := List.mem_map.1 hx
        exact ⟨y, hy⟩
      · obtain ⟨_, hu, rfl⟩ := List.mem_map.1 hx
        obtain ⟨u, -, rfl⟩ := List.mem_map.1 hu
        exact ⟨u.2.item, rfl⟩
    exact (hends y).no_alias

/-- **Aliases are replaced by what following them gives**, or a chain of them goes round and is reported. -/
theorem replaceAliases_follows (s : InferenceState) (ids : List Node) (hd : (s.aliases.map (·.slot)).Nodup) :
    ((∃ shapes, s.replaceAliases ids = .error (.unresolvedCycle shapes)) ↔
        ∃ a ∈ s.aliases, Alias.GoesRound s.aliases a.slot) ∧
      ((∀ a ∈ s.aliases, ¬ Alias.GoesRound s.aliases a.slot) →
        ∃ slots uses, s.replaceAliases ids = .ok (slots, uses) ∧ s.AliasesReplaced ids slots uses) := by
  have hround := Alias.replacements_eq_error_iff hd
  cases h : Alias.replacements s.aliases with
  | error shapes =>
      have hsome := hround.1 ⟨shapes, h⟩
      refine ⟨iff_of_true ⟨_, replaceAliases_eq_error h ids⟩ hsome, fun hnone => ?_⟩
      obtain ⟨a, ha, hr⟩ := hsome
      exact absurd hr (hnone a ha)
  | ok r =>
      have hok := replaceAliases_eq_ok_map h ids
      have hnone : ¬ ∃ a ∈ s.aliases, Alias.GoesRound s.aliases a.slot := by
        rw [← hround, h]
        simp
      refine ⟨iff_of_false (by rw [hok]; simp) hnone, fun _ => ⟨_, _, hok, ?_⟩⟩
      exact aliasesReplaced_map (Alias.endsIn_follow hd h) ids

/-- Five slots: a composite refers to the next three of them, and a list to the third; slots from the second on may
have aliases. Three shapes are known, of which one is not resolved. -/
def relaying (aliases : List Alias) : InferenceState where
  slots := [.type ⟨.blank "A", default, {}, .composite .one false [1, 2, 3]⟩, .placeholder (.blank "B"),
    .placeholder (.blank "C"), .placeholder (.blank "D"), .type ⟨.blank "E", default, {}, .list 2⟩]
  names := .ofTable default
  memo := [(.blank "A", .resolved ⟨.option, 0⟩), (.blank "B", .resolved ⟨.set 2 false, 1⟩),
    (.blank "C", .resolving 2 .option)]
  aliases

/-- Three slots stand for the list in one and in two steps. If the list leads back to the second of them, there is
a cycle, and the first one leads into it. -/
theorem relaying_follows :
    let forked := relaying [⟨1, 2, .blank "B"⟩, ⟨2, 4, .blank "C"⟩, ⟨3, 4, .blank "D"⟩]
    let looped := relaying [⟨1, 2, .blank "B"⟩, ⟨2, 4, .blank "C"⟩, ⟨4, 2, .blank "E"⟩]
    let ids : List Node := [.blank "A", .blank "B", .blank "C"]
    (∃ slots uses, forked.replaceAliases ids = .ok (slots, uses) ∧ forked.AliasesReplaced ids slots uses ∧
        slots[0]? = some (.type ⟨.blank "A", default, {}, .composite .one false [4, 4, 4]⟩) ∧
        slots[4]? = some (.type ⟨.blank "E", default, {}, .list 4⟩) ∧
        uses = [(.blank "A", ⟨.option, 0⟩), (.blank "B", ⟨.set 2 false, 4⟩)]) ∧
      (∃ shapes, looped.replaceAliases ids = .error (.unresolvedCycle shapes)) ∧
      ∃ a ∈ looped.aliases, Alias.GoesRound looped.aliases a.slot := by
  intro forked looped ids
  have hforked : forked.replaceAliases ids = .ok (_, _) := rfl
  have hlooped : Alias.replacements looped.aliases = .error _ := rfl
  have hfollows := replaceAliases_follows forked ids (by decide)
  obtain ⟨slots, uses, h, hreplaced⟩ := hfollows.2 fun a ha hround => by
    obtain ⟨_, herror⟩ := hfollows.1.2 ⟨a, ha, hround⟩
    cases hforked.symm.trans herror
  cases hforked.symm.trans h
  have herror := replaceAliases_eq_error hlooped ids
  exact ⟨⟨_, _, h, hreplaced, rfl, rfl, rfl⟩, ⟨_, herror⟩,
    (replaceAliases_follows looped ids (by decide)).1.1 ⟨_, herror⟩⟩

end InferenceState

end ShapeTypes
