import ShapeTypes.Proofs.Inference.Checked
import ShapeTypes.Proofs.Schema.Settled

/-!
# How inference fails

* `slotsToKeep_eq_error` — the slots to keep are refused for a structural cycle alone;
* `Settled.LazyMissed`, `Settled.checkLazy_eq_error` — lazy properties are refused for what they refer to alone;
* `infer_eq_error_cases` — **where an error comes from**: a shape is refused while it is resolved, aliases lead
  back to themselves, a lazy property refers to something else than an object, or a type contains itself.
-/

namespace ShapeTypes

open Rdf Relation

variable {graph : ShapesGraph} {table : PrefixTable} {strict : Bool}

theorem slotsToKeep_eq_error {a : Arena} {roots : List Slot} {e : InferenceError}
    (hp : placeholdersAt a (a.reachable roots) = []) (h : slotsToKeep a roots = .error e) :
    ∃ cycle, a.structuralCycle? = some cycle ∧
      e = .unresolvedCycle (distinctNodes (cycle.filterMap fun slot => (a[slot]?).map (·.shape))) := by
  unfold slotsToKeep at h
  simp only [hp, List.isEmpty_nil, Bool.not_true, Bool.false_eq_true, if_false] at h
  split at h
  · rename_i cycle hcycle
    cases h
    exact ⟨cycle, hcycle, rfl⟩
  · cases h

namespace Settled

variable (i : Settled graph table strict)

theorem exists_itemContent {x : Slot} (hx : x ∈ i.roots) : ∃ c, itemContent? i.arena x = some c := by
  have hlt := i.lt_of_root hx
  have hc : i.arena[x]? = some i.arena[x] := List.getElem?_eq_getElem hlt
  unfold itemContent?
  split
  · rename_i shape name doc inner hlist
    have hlink : i.arena.Links x inner := ⟨_, hlist, List.mem_singleton_self inner⟩
    exact ⟨_, List.getElem?_eq_getElem (i.lt_of_link hlink)⟩
  · exact ⟨_, hc⟩

/-- A lazy property shape has items that are no object. -/
structure LazyMissed (shape : Shape) : Prop where
  found : graph.shape? shape.id = some shape
  lazy : shape.property?.any (·.lazy) = true
  missed : ∃ use, i.state.Done shape.id use ∧
    (itemContent? i.arena (i.place use.item)).any (·.actsAsObject) = false

/-- **Lazy properties are refused for what they refer to alone.** -/
theorem checkLazy_eq_error {e : InferenceError}
    (h : checkLazy graph i.arena (i.state.finalUses i.replaced graph.ids) = .error e) :
    ∃ shape kind, i.LazyMissed shape ∧ e = .malformed shape.id (.lazyNotObject kind) := by
  obtain ⟨shape, hmem, h⟩ := exists_of_forM_eq_error h
  have hfound : graph.shape? shape.id = some shape := ShapesGraph.shape?_of_mem (List.mem_filter.1 hmem).1
  have hid : shape.id ∈ graph.ids := ShapesGraph.mem_ids.2 ⟨shape, hfound⟩
  split at h
  · rename_i hlazy
    unfold checkLazyShape at h
    split at h
    · -- Every shape was resolved.
      rename_i hnone
      obtain ⟨use, hd⟩ := i.final.complete shape.id hid
      exact absurd (i.mem_finalUses hid hd) (not_mem_of_lookup hnone _)
    · rename_i use huse
      obtain ⟨c, hc⟩ := i.exists_itemContent (List.mem_map_of_mem (mem_of_lookup huse))
      rw [hc] at h
      simp only at h
      split at h
      · cases h
      · rename_i hno
        obtain ⟨id, -, heq⟩ := List.mem_filterMap.1 (mem_of_lookup huse)
        obtain ⟨use', hdone, heq⟩ := Option.map_eq_some_iff.1 heq
        cases heq
        cases h
        have hitem : itemContent? i.arena (i.place use'.item) = some c := hc
        refine ⟨shape, _, ⟨hfound, hlazy, use', i.use?_state.1 hdone, ?_⟩, rfl⟩
        rw [hitem, Option.any_some]
        exact Bool.eq_false_iff.2 hno
  · cases h

end Settled

/-- **Where an error comes from.** -/
theorem infer_eq_error_cases {e : InferenceError} (h : graph.infer table strict = .error e) :
    Refusal graph e ∨
    (∃ s loose, Final graph s ∧ Alias.replacements s.aliases = .error loose ∧
      e = .unresolvedCycle (distinctNodes loose)) ∨
    (∃ (i : Settled graph table strict) (shape : Shape) (kind : String), i.LazyMissed shape ∧
      e = .malformed shape.id (.lazyNotObject kind)) ∨
    ∃ (i : Settled graph table strict) (cycle : List Slot), i.arena.structuralCycle? = some cycle ∧
      e = .unresolvedCycle (distinctNodes (cycle.filterMap fun slot => (i.arena[slot]?).map (·.shape))) := by
  unfold ShapesGraph.infer at h
  rcases bind_eq_error.1 h with h | ⟨⟨_, s⟩, hrun, h⟩
  · exact Or.inl (refusal_of_resolveAll h)
  rcases bind_eq_error.1 h with h | ⟨⟨slots, uses⟩, halias, h⟩
  · unfold InferenceState.replaceAliases at h
    split at h
    · rename_i loose hloose
      cases h
      exact Or.inr (Or.inl ⟨s, loose, final_of_resolveAll hrun, hloose, rfl⟩)
    · cases h
  obtain ⟨r, hr, rfl, rfl⟩ := InferenceState.replaceAliases_eq_ok halias
  let i : Settled graph table strict := ⟨s, r, hrun, hr⟩
  rcases bind_eq_error.1 h with h | ⟨_, -, h⟩
  · exact Or.inr (Or.inr (Or.inl ⟨i, i.checkLazy_eq_error h⟩))
  rcases bind_eq_error.1 h with h | ⟨_, -, h⟩
  · exact Or.inr (Or.inr (Or.inr ⟨i, slotsToKeep_eq_error i.placeholdersAt_eq_nil h⟩))
  · cases h

end ShapeTypes
