import ShapeTypes.Proofs.Inference.Leaving
import ShapeTypes.Proofs.Inference.StandIn

/-!
# Shapes that are left before what they stand for

* `Final.exists_end` — where the items of a shape are when it is left, as far as aliases are known then;
* `Final.type_kept` — a type that is there already is the final one;
* `Final.exists_last_asks` — **if only a place is there, the shape it is for at last asks for the shape that
  was left**, directly or not;
* `Built.defaultTarget_of_asks` — the type of a shape that asks for others takes all defaults, or none.
-/

namespace ShapeTypes

open Rdf Relation

variable {graph : ShapesGraph} {strict : Bool} {s u : InferenceState} {id : Node} {use : TypeUse}
variable {r : List (Slot × Slot)} {y : Slot}

/-- A place that no alias is registered for is one of a shape that is being resolved. -/
theorem Lawful.resolving_of_placeholder (h : Lawful graph u) (hy : u.slots[y]? = some (.placeholder id))
    (ha : aliasOf? u.aliases y = none) : ∃ c, u.progress? id = some (.resolving y c) := by
  rcases h.covered y _ hy with hh | ⟨_, _, _, _, _, _, hi⟩
  · rcases h.progress?_of_holds hh with hp | ⟨use, hd⟩
    · exact hp
    · obtain ⟨slot, next, shape, name, finding, hb⟩ := h.built id use hd
      have hslot : slot = y := h.unique id slot y hb.holds hh
      have hown := hb.own
      rw [hslot, hy] at hown
      obtain ⟨a, hmem, haslot⟩ := Finding.exists_alias (Option.some.inj hown).symm slot
      exact absurd (haslot.trans hslot) (aliasOf?_none ha a (hb.aliases a hmem))
  · obtain ⟨t, ht⟩ := Finding.exists_type_of_inner hi
    cases ht

theorem Lawful.done_of_type (h : Lawful graph u) {t : ItemType} (hy : u.slots[y]? = some (.type t)) :
    ∃ use, u.Done t.shape use := by
  rcases h.covered y _ hy with hh | ⟨use, _, _, _, _, hb, -⟩
  · rcases h.progress?_of_holds hh with ⟨c, hp⟩ | hd
    · have hplace := h.reserved _ y c hp
      rw [hy] at hplace
      cases hplace
    · exact hd
  · exact ⟨use, hb.done⟩

theorem Lawful.follow_lt (h : Lawful graph u) {x : Slot} (hx : x < u.slots.length) :
    follow u.aliases x < u.slots.length :=
  Alias.follow_lt h.target_lt hx

namespace Final

/-- **Where the items of a shape are when it is left**, as far as aliases are known then. -/
theorem exists_end (hr : Alias.replacements s.aliases = .ok r) (k : u.Keeps s) (x : Slot) :
    aliasOf? u.aliases (follow u.aliases x) = none ∧
      ReflTransGen (Alias.Next s.aliases) x (follow u.aliases x) ∧
        replaceSlot r (follow u.aliases x) = replaceSlot r x := by
  obtain ⟨n, hn⟩ := Alias.chain_replaceSlot hr x
  obtain ⟨later, hlater⟩ := k.aliases
  obtain ⟨m, y, hy, hpath⟩ := Alias.Chain.exists_initial (hlater ▸ hn)
  rw [hlater] at hpath
  rw [hy.follow_eq]
  refine ⟨hy.isEnd, hpath, ?_⟩
  obtain ⟨_, _, hend⟩ := hn.of_path hpath
  obtain ⟨_, hy'⟩ := Alias.chain_replaceSlot hr y
  exact (hy'.unique hend).2

/-- A type that is there already is the final one. -/
theorem type_kept (hu : Lawful graph u) (k : u.Keeps s) {t : ItemType}
    (hy : u.slots[y]? = some (.type t)) : s.slots[y]? = some (.type t) := by
  obtain ⟨use, hd⟩ := hu.done_of_type hy
  exact k.slots y _ use hy hd

/-- The place at the end of the items of a shape is not for one that stands in for another and has the same
items. -/
theorem item_ne_of_path (h : Final graph s) (hr : Alias.replacements s.aliases = .ok r) {other : Node}
    {use' : TypeUse} (hpath : ReflTransGen (Alias.Next s.aliases) use.item y) (hd : s.Done other use')
    (hy : s.Holds other y) (hs : (graph.standIn? other).isSome) : use'.item ≠ use.item := by
  intro hitem
  -- The chain would lead from the items to the place and back to the items.
  obtain ⟨n, hn⟩ := Alias.chain_replaceSlot hr use.item
  obtain ⟨m, hle, hm⟩ := hn.of_path hpath
  have hm' := Alias.Chain.step (h.aliasOf?_of_done hd hs hy) (hitem.symm ▸ hn)
  have := (hm.unique hm').1
  omega

section

variable (h : Final graph s) (hr : Alias.replacements s.aliases = .ok r) (k : u.Keeps s)
  (hu : Leaving graph strict id use u) {other : Node} (hy : u.slots[y]? = some (.placeholder other))
  (ha : aliasOf? u.aliases y = none)
  (hloop : ∀ use', s.Done other use' → s.Holds other y → (graph.standIn? other).isSome →
    use'.item ≠ use.item)

include h hr k hu hy ha hloop

/-- **If only a place is in a slot, the shape it is for at last was being resolved already**, and the shape
that was left was so while it was. -/
theorem exists_last_resolving :
    ∃ last uselast w inside slot c before q, (last, .resolved uselast) :: w <:+ s.memo ∧
      graph.standIn? last = none ∧ replaceSlot r y = replaceSlot r uselast.item ∧
      u.memo = (id, .resolved use) :: (inside ++ (id, .resolving slot c) :: before) ∧
      (id, .resolved use) ∈ w ∧ (last, q) ∈ before := by
  obtain ⟨inside, slot, c, before, hmemo, -, hbefore⟩ := hu.course
  obtain ⟨c', hp⟩ := hu.lawful.resolving_of_placeholder hy ha
  have hentered := hbefore other y c' hp
  have hheld : s.Holds other y :=
    ⟨c', k.memo.subset (InferenceState.mem_memo_of_progress? hp)⟩
  obtain ⟨use', next, shape, name, finding, hb⟩ := h.built_of_holds hheld
  obtain ⟨w', _, _, hw', -, -⟩ := h.exists_left hb.done
  have hplace := h.replaceSlot_of_denotes hr (Or.inl hheld) hb.done
  have hlater : (id, .resolved use) :: (inside ++ (id, .resolving slot c) :: before) <:+ w' :=
    hmemo ▸ h.history.suffix_of_resolving k.memo hp hw'
  cases hs : graph.standIn? other with
  | none =>
      exact ⟨other, use', w', inside, slot, c, before, _, hw', hs, hplace, hmemo,
        hlater.subset List.mem_cons_self, hentered⟩
  | some target =>
      have hsome : (graph.standIn? other).isSome := Option.isSome_iff_exists.2 ⟨target, hs⟩
      have hinner : (id, .resolving slot c) :: before <:+ w' :=
        ((List.suffix_append inside _).trans (List.suffix_cons _ _)).trans hlater
      rcases (h.history.of_suffix hw').descend rfl hsome hinner hentered
          (hlater.subset List.mem_cons_self) with
        ⟨-, hitem⟩ | ⟨last, uselast, wx, hx, hnone, hitem, hmem, q, hq⟩
      · exact absurd hitem (hloop use' hb.done hheld hsome)
      · exact ⟨last, uselast, wx, inside, slot, c, before, q,
          (hx.trans (List.suffix_cons _ _)).trans hw', hnone, hitem ▸ hplace, hmemo, hmem, hq⟩

/-- **The shape it is for at last asks for the shape that was left**, directly or not. -/
theorem exists_last_asks
    (hall : ∀ id use, s.Done id use → ∃ u, u.Keeps s ∧ Leaving graph strict id use u) :
    ∃ last uselast, s.Done last uselast ∧ graph.standIn? last = none ∧
      replaceSlot r y = replaceSlot r uselast.item ∧ TransGen graph.Asks last id := by
  obtain ⟨last, uselast, w, inside, slot, c, before, q, hw, hnone, hplace, hmemo, hmem, hq⟩ :=
    h.exists_last_resolving hr k hu hy ha hloop
  have hd := h.done_of_left hw
  refine ⟨last, uselast, hd, hnone, hplace, ?_⟩
  obtain ⟨u', k', hu'⟩ := hall last uselast hd
  obtain ⟨inside', slot', c', before', hmemo', hasked, -⟩ := hu'.course
  have hw' : (last, .resolved uselast) :: (inside' ++ (last, .resolving slot' c') :: before') <:+ s.memo :=
    hmemo' ▸ k'.memo
  rw [(h.history.left_unique hw hw').2] at hmem
  rcases List.mem_append.1 hmem with hin | hold
  · exact hasked _ hin
  · -- It was left before the last shape was entered, which was entered before it.
    rcases List.mem_cons.1 hold with heq | hold
    · cases heq
    · have hentered : (last, .resolving slot' c') :: before' <:+ s.memo :=
        ((List.suffix_append inside' _).trans (List.suffix_cons _ _)).trans hw'
      have hsuf := h.history.suffix_of_mem (hmemo ▸ k.memo)
        ((List.suffix_cons _ _).trans hentered) hold
      have hlast : (last, q) ∈ before' :=
        hsuf.subset (List.mem_cons_of_mem _ (List.mem_append_right _ (List.mem_cons_of_mem _ hq)))
      exact absurd hlast (h.history.not_mem_of_entered hentered)

end

end Final

/-- A shape that asks for others does not describe single values. -/
theorem Fits.object_or_composite_of_asks {shape : Shape} {body : Body} (h : Fits graph s shape (.type body))
    (hs : graph.shape? id = some shape) {other : Node} (ha : graph.Asks id other) :
    (∃ o, body = .object o) ∨ ∃ connective ofObjects members, body = .composite connective ofObjects members := by
  cases h with
  | composite => exact Or.inr ⟨_, _, _, rfl⟩
  | object => exact Or.inl ⟨_, rfl⟩
  | value hc ho hn _ =>
      obtain ⟨shape', hs', hmem | ⟨ho', -⟩⟩ := ha
      · cases hs.symm.trans hs'
        simp [Constraints.references_of_not_isComposite hc, hn] at hmem
      · cases hs.symm.trans hs'
        simp [ho] at ho'

/-- **The type of a shape that asks for others takes all defaults, or none.** -/
theorem Built.defaultTarget_of_asks {slot next : Slot} {shape : Shape} {name : Name} {finding : Finding}
    (h : Built graph s id use slot next shape name finding) (hs : graph.standIn? id = none) {other : Node}
    (ha : graph.Asks id other) {t : ItemType} (ht : s.slots[use.item]? = some (.type t)) :
    defaultTarget (.type t) = .term ∨ defaultTarget (.type t) = .object := by
  have hown := h.own
  rw [← h.item_eq_slot hs, ht] at hown
  have hfits := h.fits
  unfold Finding.own at hown
  split at hown
  · cases hown
    rcases hfits.object_or_composite_of_asks h.found ha with ⟨o, rfl⟩ | ⟨connective, ofObjects, members, rfl⟩
    · exact Or.inr rfl
    · cases ofObjects with
      | true => exact Or.inr rfl
      | false => exact Or.inl rfl
  · cases hown
    exact Or.inr rfl
  · cases hown
  · cases hown
    exact Or.inr rfl

end ShapeTypes
