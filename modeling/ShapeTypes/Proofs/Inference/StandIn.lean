import ShapeTypes.Proofs.Inference.Final

/-!
# Shapes that stand in for each other

* `Final.exists_lower` — while all chains of aliases end, a shape that stands in for another one comes
  after it: its chain is longer, or as long and it was left later;
* `Final.not_standIn_cycle` — **if every alias is replaced, no shape stands in for itself**;
* `Final.exists_last` — a shape has the items of the last one that it stands in for;
* `Final.exists_fixed` — if not, the first alias without an end leads to a slot that stands for itself;
* `Final.exists_ends_of_loose` — **the two ends of a chain that comes back are reported then**;
* `Final.on_cycle_of_loose` — **which refer to themselves**.
-/

namespace ShapeTypes

open Rdf Relation

variable {graph : ShapesGraph} {s : InferenceState} {id target : Node} {use : TypeUse} {slot : Slot}

namespace Final

theorem done_of_left (h : Final graph s) {w : Memo} (hw : (id, .resolved use) :: w <:+ s.memo) :
    s.Done id use :=
  h.lawful.resolved id use (hw.subset List.mem_cons_self)

theorem exists_left (h : Final graph s) (hd : s.Done id use) :
    ∃ w slot c, (id, .resolved use) :: w <:+ s.memo ∧ w.lookup id = some (.resolving slot c) ∧
      s.Holds id slot := by
  obtain ⟨newer, w, heq⟩ := List.append_of_mem (InferenceState.mem_memo_of_progress? hd)
  have hw : (id, .resolved use) :: w <:+ s.memo := ⟨newer, heq.symm⟩
  obtain ⟨slot, c, hl⟩ := h.history.exists_entered hw
  refine ⟨w, slot, c, hw, hl, c, hw.subset (List.mem_cons_of_mem _ (mem_of_lookup hl))⟩

theorem aliasOf?_of_done (h : Final graph s) (hd : s.Done id use) (hs : (graph.standIn? id).isSome)
    (hh : s.Holds id slot) : aliasOf? s.aliases slot = some ⟨slot, use.item, id⟩ := by
  obtain ⟨w, slot', c, hw, hl, hh'⟩ := h.exists_left hd
  cases h.lawful.unique id slot slot' hh hh'
  have hmem : ⟨slot, use.item, id⟩ ∈ s.aliases := by
    rw [h.aliases_eq]
    exact alias_mem_aliasesOf hw hs hl
  exact aliasOf?_of_mem h.lawful.aliases_nodup hmem

/-- The rank of a shape that stands in for another one: the length of the chain of aliases from its slot,
and how much was recorded before it was left. -/
def Rank (s : InferenceState) (id : Node) (n k : Nat) : Prop :=
  ∃ slot e use w, s.Holds id slot ∧ Alias.Chain s.aliases slot n e ∧
    (id, .resolved use) :: w <:+ s.memo ∧ w.length = k

/-- **A shape that another one stands in for has a lower rank**, if it stands in for one itself. -/
theorem exists_lower (h : Final graph s) (ht : graph.standIn? id = some target)
    (hs : (graph.standIn? target).isSome) {n k : Nat} (hr : Rank s id n k) :
    ∃ n' k', Rank s target n' k' ∧ (n' < n ∨ n' = n ∧ k' < k) := by
  obtain ⟨slot, e, use, w, hh, hc, hw, rfl⟩ := hr
  have hd := h.done_of_left hw
  have ha := h.aliasOf?_of_done hd (by simp [ht]) hh
  obtain ⟨m, hm, rfl⟩ : ∃ m, Alias.Chain s.aliases use.item m e ∧ n = m + 1 := by
    cases hc with
    | ends hx => rw [ha] at hx; cases hx
    | step hx hc => rw [ha] at hx; cases hx; exact ⟨_, hc, rfl⟩
  -- If the target was left before, its chain goes on from the same item.
  have hleft : ∀ {use' w'}, (target, .resolved use') :: w' <:+ w → use.item = use'.item →
      ∃ n' k', Rank s target n' k' ∧ (n' < m + 1 ∨ n' = m + 1 ∧ k' < w.length) := by
    intro use' w' hw' hitem
    have hw'' := (hw'.trans (List.suffix_cons _ _)).trans hw
    have hd' := h.done_of_left hw''
    obtain ⟨_, slot', _, _, _, hh'⟩ := h.exists_left hd'
    have ha' := h.aliasOf?_of_done hd' hs hh'
    refine ⟨m + 1, w'.length, ⟨slot', e, use', w', hh', .step ha' (hitem ▸ hm), hw'', rfl⟩,
      Or.inr ⟨rfl, ?_⟩⟩
    have := hw'.length_le
    simp only [List.length_cons] at this
    omega
  cases h.history.of_suffix hw with
  | leave hh' _ hdefers =>
      cases hdefers target ht with
      | @known slot₁ c₁ p before hl hitem =>
          have hmem := mem_of_lookup hl
          cases p with
          | resolving slot' c' =>
              -- It was still being resolved, so its own slot comes next in the chain.
              have hh' : s.Holds target slot' :=
                ⟨c', hw.subset (List.mem_cons_of_mem _ hmem)⟩
              obtain ⟨use', _, _, _, _, hb⟩ := h.built_of_holds hh'
              obtain ⟨w', _, _, hw', _, _⟩ := h.exists_left hb.done
              have hitem' : use.item = slot' := hitem
              exact ⟨m, w'.length, ⟨slot', e, use', w', hh', hitem' ▸ hm, hw', rfl⟩,
                Or.inl (Nat.lt_succ_self m)⟩
          | resolved use' =>
              obtain ⟨newer, w', heq⟩ := List.append_of_mem hmem
              exact hleft ⟨newer, heq.symm⟩ hitem
      | fresh hitem => exact hleft (List.suffix_refl _) hitem

section

variable {r : List (Slot × Slot)} (hr : Alias.replacements s.aliases = .ok r)

include hr

/-- **If every alias is replaced, shapes do not stand in for others forever.** -/
theorem acc_standsInFor (h : Final graph s) (hd : s.Done id use) :
    Acc (fun target id => graph.StandsInFor id target) id := by
  obtain ⟨w, slot, c, hw, hl, hh⟩ := h.exists_left hd
  obtain ⟨n, hn⟩ := Alias.chain_replaceSlot hr slot
  have hrank : Rank s id n w.length := ⟨slot, _, use, w, hh, hn, hw, rfl⟩
  clear hd hw hl hh hn
  generalize w.length = k at hrank
  induction n using Nat.strongRecOn generalizing id k with
  | ind n ihn =>
      induction k using Nat.strongRecOn generalizing id with
      | ind k ihk =>
          refine Acc.intro _ fun target ht => ?_
          by_cases hs : (graph.standIn? target).isSome
          · obtain ⟨n', k', hrank', hlt | ⟨rfl, hlt⟩⟩ := h.exists_lower ht hs hrank
            · exact ihn n' hlt k' hrank'
            · exact ihk k' hlt hrank'
          · exact Acc.intro _ fun next hnext => absurd (Option.isSome_iff_exists.2 ⟨next, hnext⟩) hs

/-- **No shape then stands in for itself**, whatever shapes are in between. -/
theorem not_standIn_cycle (h : Final graph s) (hd : s.Done id use) :
    ¬ TransGen graph.StandsInFor id id := by
  have hacc := h.acc_standsInFor hr hd
  clear hd
  induction hacc with
  | intro id _ ih =>
      intro hcycle
      obtain ⟨target, hfirst, hrest⟩ := TransGen.head'_iff.1 hcycle
      exact ih target hfirst (.tail' hrest hfirst)

/-- **A shape has the items of the last one that it stands in for**, which stands in for none. -/
theorem exists_last (h : Final graph s) (hd : s.Done id use) : ∃ last use' t,
    ReflTransGen graph.StandsInFor id last ∧ graph.standIn? last = none ∧ s.Done last use' ∧
      replaceSlot r use.item = use'.item ∧ s.slots[use'.item]? = some (.type t) ∧ t.shape = last := by
  have hacc := h.acc_standsInFor hr hd
  induction hacc generalizing use with
  | intro id _ ih =>
      obtain ⟨slot, next, shape, name, finding, hb⟩ := h.lawful.built id use hd
      cases ht : graph.standIn? id with
      | none =>
          obtain ⟨t, hx, hid⟩ := hb.exists_type_item ht
          exact ⟨id, use, t, .refl, ht, hd, h.replaceSlot_of_type hr hx, hx, hid⟩
      | some target =>
          have hdenotes := hb.denotes_of_standIn? ht
          obtain ⟨use', hd'⟩ := h.exists_done_of_denotes hdenotes
          obtain ⟨last, use'', t, hpath, hnone, hlast, hplace, hrest⟩ := ih target ht hd'
          refine ⟨last, use'', t, .head ht hpath, hnone, hlast, ?_, hrest⟩
          rw [h.replaceSlot_of_denotes hr hdenotes hd', hplace]

end

/-! ## Chains without an end -/

/-- The items of a shape that stands in for none are in a slot that no alias is registered for. -/
theorem chain_of_done (h : Final graph s) (hd : s.Done id use) (hs : graph.standIn? id = none) :
    Alias.Chain s.aliases use.item 0 use.item := by
  obtain ⟨t, ht, -⟩ := h.exists_type_item hd hs
  exact .ends (h.aliasOf?_of_type ht)

/-- A shape that an alias without an end stands in for was still being resolved when the shape of the alias
was left. -/
theorem exists_unfinished (h : Final graph s) {before after : List Alias} {a : Alias}
    (hsplit : s.aliases = before ++ a :: after)
    (hloose : ∀ n e, ¬ Alias.Chain s.aliases a.target n e)
    (hbefore : ∀ b ∈ before, ∃ e, b.resolve s.aliases = .ok e) :
    ∃ use w c target c', (a.shape, .resolved use) :: (a.shape, .resolving a.slot c) :: w <:+ s.memo ∧
      a.target = use.item ∧ graph.standIn? a.shape = some target ∧
      List.lookup target ((a.shape, .resolving a.slot c) :: w) = some (.resolving a.target c') := by
  obtain ⟨use, w, c, hw, hb, hl, htarget, hs⟩ := exists_left_of_alias (h.aliases_eq ▸ hsplit)
  obtain ⟨target, ht⟩ := Option.isSome_iff_exists.1 hs
  have hleft : ∀ {use' w'}, (target, .resolved use') :: w' <:+ w → use.item ≠ use'.item := by
    intro use' w' hw' hitem
    have hw'' := (hw'.trans (List.suffix_cons _ _)).trans hw
    cases hst : graph.standIn? target with
    | none => exact hloose _ _ (htarget ▸ hitem ▸ h.chain_of_done (h.done_of_left hw'') hst)
    | some next =>
        obtain ⟨slot', c', hl'⟩ := h.history.exists_entered hw''
        have hmem := alias_mem_aliasesOf hw' (Option.isSome_iff_exists.2 ⟨next, hst⟩) hl'
        rw [hb] at hmem
        obtain ⟨e, he⟩ := hbefore _ hmem
        obtain ⟨n, hn⟩ := Alias.chain_of_resolve he
        exact hloose n e (htarget ▸ hitem ▸ hn)
  cases h.history.of_suffix hw with
  | leave _ _ hdefers =>
      cases hdefers target ht with
      | @known slot₁ c₁ p w₁ hlookup hitem =>
          obtain ⟨rfl, rfl⟩ : slot₁ = a.slot ∧ c₁ = c := by simpa using hl
          cases p with
          | resolving slot' c' =>
              have hitem' : a.target = slot' := htarget.trans hitem
              exact ⟨use, w₁, c₁, target, c', hw, htarget, ht, hitem' ▸ hlookup⟩
          | resolved use' =>
              obtain ⟨newer, w', heq⟩ := List.append_of_mem (mem_of_lookup hlookup)
              exact absurd hitem (hleft ⟨newer, heq.symm⟩)
      | fresh hitem => exact absurd hitem (hleft (List.suffix_refl _))

/-- **The chain of an alias without an end stays at the slot of a shape that stands in for the one of the alias.**
The shape of the alias was left within that one, which stands for its own slot therefore. -/
theorem exists_fixed (h : Final graph s) {before after : List Alias} {a : Alias}
    (hsplit : s.aliases = before ++ a :: after)
    (hloose : ∀ n e, ¬ Alias.Chain s.aliases a.target n e)
    (hbefore : ∀ b ∈ before, ∃ e, b.resolve s.aliases = .ok e) :
    ∃ b, aliasOf? s.aliases a.target = some b ∧ b.target = a.target ∧ graph.StandsInFor a.shape b.shape ∧
      ReflTransGen graph.StandsInFor b.shape a.shape := by
  obtain ⟨use, w, c, target, c', hw, htarget, ht, hl⟩ := h.exists_unfinished hsplit hloose hbefore
  by_cases hself : target = a.shape
  · subst hself
    obtain ⟨hslot, -⟩ : a.slot = a.target ∧ c = c' := by simpa using hl
    have ha : aliasOf? s.aliases a.slot = some a :=
      aliasOf?_of_mem h.lawful.aliases_nodup (by simp [hsplit])
    exact ⟨a, hslot ▸ ha, hslot.symm ▸ rfl, ht, .refl⟩
  have hlw : List.lookup target w = some (.resolving a.target c') := by
    rwa [lookup_cons_of_ne hself] at hl
  -- The slot of the target is an alias as well, or the chain would end there.
  have hh : s.Holds target a.target :=
    ⟨c', hw.subset (List.mem_cons_of_mem _ (List.mem_cons_of_mem _ (mem_of_lookup hlw)))⟩
  obtain ⟨b, hb⟩ : ∃ b, aliasOf? s.aliases a.target = some b := by
    cases hb : aliasOf? s.aliases a.target with
    | some b => exact ⟨b, rfl⟩
    | none => exact absurd (.ends hb) (hloose 0 a.target)
  obtain ⟨hbmem, hbslot⟩ := aliasOf?_some hb
  obtain ⟨use', hd, hitem, hbh, hst⟩ := h.lawful.alias_done b hbmem
  obtain rfl : b.shape = target := h.lawful.eq_of_holds (hbslot ▸ hbh) hh
  obtain ⟨w', _, _, hw', -, -⟩ := h.exists_left hd
  -- The target is left after the shape of the alias.
  have hwithin : (a.shape, .resolved use) :: (a.shape, .resolving a.slot c) :: w <:+ w' :=
    h.history.suffix_of_resolving hw (by rwa [lookup_cons_of_ne hself]) hw'
  rcases (h.history.of_suffix hw').descend rfl hst ((List.suffix_cons _ _).trans hwithin)
      (mem_of_lookup hlw) (hwithin.subset List.mem_cons_self) with
    ⟨hpath, hitem'⟩ | ⟨x, usex, wx, hx, hnone, hitem', -⟩
  · exact ⟨b, hb, by rw [← hitem, hitem', htarget], ht, hpath.to_reflTransGen⟩
  · have hend := h.chain_of_done (h.done_of_left ((hx.trans (List.suffix_cons _ _)).trans hw')) hnone
    rw [← hitem', hitem] at hend
    exact absurd (.step hb hend) (hloose _ _)

/-- **If an alias has no end although those before have one, two shapes are reported**, which stand in for each
other: the shape of the alias, and the one that it stands in for. Those in between are not. -/
theorem exists_ends_of_loose (h : Final graph s) {before after : List Alias} {a : Alias} {shapes : List Node}
    (hsplit : s.aliases = before ++ a :: after) (ha : a.resolve s.aliases = .error shapes)
    (hbefore : ∀ b ∈ before, ∃ e, b.resolve s.aliases = .ok e) :
    ∃ first last, graph.StandsInFor last first ∧ ReflTransGen graph.StandsInFor first last ∧
      ∀ id, id ∈ shapes ↔ id = first ∨ id = last := by
  have haliasOf : aliasOf? s.aliases a.slot = some a :=
    aliasOf?_of_mem h.lawful.aliases_nodup (by simp [hsplit])
  have hloose : ∀ n e, ¬ Alias.Chain s.aliases a.target n e := by
    intro n e hc
    rw [Alias.resolve_of_chain haliasOf hc] at ha
    cases ha
  obtain ⟨b, hb, hfixed, hfirst, hback⟩ := h.exists_fixed hsplit hloose hbefore
  have hstay : ∀ y, ReflTransGen (Alias.Next s.aliases) a.target y → y = a.target := by
    intro y hpath
    induction hpath with
    | refl => rfl
    | tail _ hnext ih =>
        obtain ⟨b', hb', rfl⟩ := hnext
        rw [ih, hb] at hb'
        cases hb'
        exact hfixed
  obtain ⟨hsub, hall⟩ := Alias.shapes_of_chainEnd _ _ _ _ _ ha
  refine ⟨b.shape, a.shape, hfirst, hback, fun n => ⟨fun hn => ?_, ?_⟩⟩
  · rcases hall n hn with hn | ⟨y, b', hpath, hb', rfl⟩
    · exact Or.inr (List.mem_singleton.1 hn)
    · rw [hstay y hpath, hb] at hb'
      cases hb'
      exact Or.inl rfl
  · rintro (rfl | rfl)
    · by_cases hslot : a.target = a.slot
      · rw [hslot, haliasOf] at hb
        cases hb
        exact hsub (List.mem_singleton_self _)
      · exact Alias.mem_shapes_of_chainEnd ha hb (by simpa using hslot)
    · exact hsub (List.mem_singleton_self _)

/-- **The shapes reported are on a cycle.** -/
theorem on_cycle_of_loose (h : Final graph s) {before after : List Alias} {a : Alias} {shapes : List Node}
    (hsplit : s.aliases = before ++ a :: after) (ha : a.resolve s.aliases = .error shapes)
    (hbefore : ∀ b ∈ before, ∃ e, b.resolve s.aliases = .ok e) :
    shapes ≠ [] ∧ ∀ n ∈ shapes, TransGen graph.Refers n n := by
  obtain ⟨first, last, hlast, hfirst, hmem⟩ := h.exists_ends_of_loose hsplit ha hbefore
  refine ⟨List.ne_nil_of_mem ((hmem first).2 (Or.inl rfl)), fun n hn => ?_⟩
  have hcycle : TransGen graph.StandsInFor n n := by
    rcases (hmem n).1 hn with rfl | rfl
    · exact .tail' hfirst hlast
    · exact .head' hlast hfirst
  exact TransGen.mono (fun _ _ => ShapesGraph.refers_of_standIn?) _ _ hcycle

end Final

end ShapeTypes
