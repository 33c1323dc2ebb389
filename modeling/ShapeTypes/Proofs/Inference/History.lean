import Mathlib.Logic.Relation
import ShapeTypes.Proofs.Inference.Lawful

/-!
# The order in which shapes are entered and left

The memo keeps what was recorded of a shape when it was entered and when it was left, the last entry first.

* `Defers` — a shape that stands in for another one is left with the item of that one;
* `History` — a memo is the course of a depth-first search; `Visit.history` — **every visit keeps it so**;
* `aliasesOf` — the aliases that a memo calls for; `Visit.aliases_eq` — they are those registered;
* `History.descend` — **what a shape stands for at last, if another shape is entered before it is left.**
-/

namespace ShapeTypes

open Rdf Relation

variable {graph : ShapesGraph} {strict : Bool}

/-- What was recorded of shapes, the last entry first. -/
abbrev Memo := List (Node × Progress)

/-- A shape that stands in for another one is left with the item of that one: as it was known when the
shape was entered, or as it was resolved since. -/
inductive Defers (target id : Node) (use : TypeUse) : Memo → Prop where
  | known {slot c p before} :
      List.lookup target ((id, .resolving slot c) :: before) = some p → use.item = p.use.item →
      Defers target id use ((id, .resolving slot c) :: before)
  | fresh {slot c use' inside slot' c' before} :
      use.item = use'.item → Defers target id use
        ((target, .resolved use') :: (inside ++ (target, .resolving slot' c') ::
          (id, .resolving slot c) :: before))

/-- A memo in which shapes are entered once, and left once after that. -/
inductive History (graph : ShapesGraph) : Memo → Prop where
  | nil : History graph []
  | enter {m id slot c} : History graph m → m.lookup id = none →
      History graph ((id, .resolving slot c) :: m)
  | leave {m id use slot c} : History graph m → m.lookup id = some (.resolving slot c) →
      (∀ target, graph.standIn? id = some target → Defers target id use m) →
      History graph ((id, .resolved use) :: m)

namespace History

variable {m w : Memo} {id : Node} {use : TypeUse} {slot : Slot} {c : Cardinality}

theorem of_suffix (h : History graph m) (hw : w <:+ m) : History graph w := by
  induction h with
  | nil =>
      rw [List.suffix_nil.1 hw]
      exact .nil
  | enter hm hl ih =>
      rcases List.suffix_cons_iff.1 hw with rfl | hw
      · exact .enter hm hl
      · exact ih hw
  | leave hm hl ht ih =>
      rcases List.suffix_cons_iff.1 hw with rfl | hw
      · exact .leave hm hl ht
      · exact ih hw

theorem lookup_of_resolved_mem (h : History graph m) (hmem : (id, .resolved use) ∈ m) :
    m.lookup id = some (.resolved use) := by
  induction h with
  | nil => cases hmem
  | @enter m id' slot c hm hl ih =>
      rcases List.mem_cons.1 hmem with heq | hin
      · cases heq
      · have hne : id ≠ id' := by
          rintro rfl
          exact not_mem_of_lookup hl _ hin
        rw [lookup_cons_of_ne hne]
        exact ih hin
  | @leave m id' use' slot c hm hl ht ih =>
      rcases List.mem_cons.1 hmem with heq | hin
      · cases heq
        simp
      · have hne : id ≠ id' := by
          rintro rfl
          rw [ih hin] at hl
          cases hl
        rw [lookup_cons_of_ne hne]
        exact ih hin

theorem not_mem_of_entered (h : History graph m) (hw : (id, .resolving slot c) :: w <:+ m) {p : Progress} :
    (id, p) ∉ w := by
  cases h.of_suffix hw with
  | enter _ hl => exact not_mem_of_lookup hl p

theorem exists_entered (h : History graph m) (hw : (id, .resolved use) :: w <:+ m) :
    ∃ slot c, w.lookup id = some (.resolving slot c) := by
  cases h.of_suffix hw with
  | leave _ hl _ => exact ⟨_, _, hl⟩

/-- A shape is left once. -/
theorem not_mem_of_left (h : History graph m) (hw : (id, .resolved use) :: w <:+ m) {use' : TypeUse} :
    (id, .resolved use') ∉ w := by
  intro hmem
  obtain ⟨slot, c, hl⟩ := h.exists_entered hw
  have hm : History graph w := h.of_suffix ((List.suffix_cons _ _).trans hw)
  rw [hm.lookup_of_resolved_mem hmem] at hl
  cases hl

theorem left_unique (h : History graph m) (hw : (id, .resolved use) :: w <:+ m) {use' : TypeUse}
    {w' : Memo} (hw' : (id, .resolved use') :: w' <:+ m) : use = use' ∧ w = w' := by
  rcases List.suffix_or_suffix_of_suffix hw hw' with hsuf | hsuf
  · rcases List.suffix_cons_iff.1 hsuf with heq | hsuf
    · cases heq
      exact ⟨rfl, rfl⟩
    · exact absurd (hsuf.subset List.mem_cons_self) (h.not_mem_of_left hw')
  · rcases List.suffix_cons_iff.1 hsuf with heq | hsuf
    · cases heq
      exact ⟨rfl, rfl⟩
    · exact absurd (hsuf.subset List.mem_cons_self) (h.not_mem_of_left hw)

/-- What was recorded until a shape was left is recorded wherever it is. -/
theorem suffix_of_mem (h : History graph m) (hw : (id, .resolved use) :: w <:+ m) {w' : Memo}
    (hw' : w' <:+ m) (hmem : (id, .resolved use) ∈ w') : (id, .resolved use) :: w <:+ w' := by
  obtain ⟨newer, older, rfl⟩ := List.append_of_mem hmem
  have holder : (id, .resolved use) :: older <:+ newer ++ (id, .resolved use) :: older :=
    List.suffix_append newer _
  rw [(h.left_unique hw (holder.trans hw')).2]
  exact holder

/-- While a shape is being resolved, it is left later than all that was recorded. -/
theorem suffix_of_resolving (h : History graph m) {w' : Memo} (hw' : w' <:+ m)
    (hl : w'.lookup id = some (.resolving slot c)) (hw : (id, .resolved use) :: w <:+ m) : w' <:+ w := by
  have hnot : (id, Progress.resolved use) ∉ w' := by
    intro hmem
    rw [(h.of_suffix hw').lookup_of_resolved_mem hmem] at hl
    cases hl
  rcases List.suffix_or_suffix_of_suffix hw hw' with hsuf | hsuf
  · exact absurd (hsuf.subset List.mem_cons_self) hnot
  · rcases List.suffix_cons_iff.1 hsuf with rfl | hsuf
    · exact absurd List.mem_cons_self hnot
    · exact hsuf

/-- A shape that was entered right after another one was so before any that was entered when something was
recorded of the other one. -/
theorem entered_before {inside before : Memo} {outer target inner : Node} {slot₁ slot₂ : Slot}
    {c₁ c₂ : Cardinality}
    (h : History graph (inside ++ (target, .resolving slot₂ c₂) :: (outer, .resolving slot₁ c₁) :: before))
    (hinner : (inner, .resolving slot c) :: w <:+
      inside ++ (target, .resolving slot₂ c₂) :: (outer, .resolving slot₁ c₁) :: before)
    (hne : inner ≠ target) {p : Progress} (houter : (outer, p) ∈ w) :
    (target, .resolving slot₂ c₂) ∈ w := by
  rcases List.suffix_or_suffix_of_suffix (List.suffix_append inside _) hinner with hsuf | hsuf
  · rcases List.suffix_cons_iff.1 hsuf with heq | hsuf
    · cases heq
      exact absurd rfl hne
    · exact hsuf.subset List.mem_cons_self
  · -- It was entered before the target, hence not after the outer shape.
    have hafter := (List.suffix_cons_iff.1 hsuf).resolve_left fun heq => by
      cases heq
      exact hne rfl
    have hbefore : w <:+ before := by
      rcases List.suffix_cons_iff.1 hafter with heq | hsuf
      · cases heq
        exact List.suffix_refl _
      · exact (List.suffix_cons _ _).trans hsuf
    have hentered : (outer, Progress.resolving slot₁ c₁) :: before <:+
        inside ++ (target, .resolving slot₂ c₂) :: (outer, .resolving slot₁ c₁) :: before :=
      (List.suffix_cons _ _).trans (List.suffix_append inside _)
    exact absurd (hbefore.subset houter) (h.not_mem_of_entered hentered)

/-- **What a shape stands for at last, if another one is entered and left before it is left.** Either it stands
in for the other one, with others in between perhaps, and has its item; or it has the item of a shape that stands in for
none and within which the other one was entered and left. -/
theorem descend (h : History graph m) {outer inner : Node} {use use' : TypeUse} {w w' : Memo}
    (hm : m = (outer, .resolved use) :: w) (hs : (graph.standIn? outer).isSome)
    (hinner : (inner, .resolving slot c) :: w' <:+ w) {p : Progress} (houter : (outer, p) ∈ w')
    (hleft : (inner, .resolved use') ∈ w) :
    (TransGen graph.StandsInFor outer inner ∧ use.item = use'.item) ∨
      ∃ x usex wx, (x, .resolved usex) :: wx <:+ w ∧ graph.standIn? x = none ∧ use.item = usex.item ∧
        (inner, .resolved use') ∈ wx ∧ ∃ q, (x, q) ∈ w' := by
  induction h generalizing outer use w p with
  | nil => cases hm
  | enter => cases hm
  | @leave m id use₀ slot₀ c₀ hh hl hd ih =>
      cases hm
      obtain ⟨target, ht⟩ := Option.isSome_iff_exists.1 hs
      cases hd target ht with
      | @known slot₁ c₁ p₁ before _ _ =>
          -- Nothing was entered since, so the other shape was entered before this one.
          have hsuffix : w' <:+ before := by
            rcases List.suffix_cons_iff.1 hinner with heq | hsuf
            · cases heq
              exact List.suffix_refl _
            · exact (List.suffix_cons _ _).trans hsuf
          exact absurd (hsuffix.subset houter) (hh.not_mem_of_entered (List.suffix_refl _))
      | @fresh slot₁ c₁ use₁ inside slot₂ c₂ before hitem =>
          rcases List.mem_cons.1 hleft with heq | hleft'
          · cases heq
            exact Or.inl ⟨.single ht, hitem⟩
          -- The other shape was entered after the target, within which it was left.
          have hne : inner ≠ target := by
            rintro rfl
            exact hh.not_mem_of_left (List.suffix_refl _) hleft'
          have hinner' := (List.suffix_cons_iff.1 hinner).resolve_left (by simp)
          have htarget : (target, .resolving slot₂ c₂) ∈ w' :=
            (hh.of_suffix (List.suffix_cons _ _)).entered_before hinner' hne houter
          cases hst : graph.standIn? target with
          | none =>
              exact Or.inr ⟨target, use₁, _, List.suffix_refl _, hst, hitem, hleft', _, htarget⟩
          | some next =>
              rcases ih rfl (by simp [hst]) hinner' htarget hleft' with ⟨hpath, hitem'⟩ |
                ⟨x, usex, wx, hx, hnone, hitem', hwithin⟩
              · exact Or.inl ⟨.head ht hpath, hitem.trans hitem'⟩
              · exact Or.inr ⟨x, usex, wx, hx.trans (List.suffix_cons _ _), hnone, hitem.trans hitem',
                  hwithin⟩

end History

/-! ## Visits record a history -/

/-- A shape that is found to stand for another one has asked for nothing else. -/
theorem Finds.of_standsFor {shape : Shape} {s t t' : InferenceState} {refs props : List TypeUse} {x : Slot}
    (h : Finds graph shape s refs t props (.standsFor x) t') :
    (∃ use, refs = [use] ∧ x = use.item) ∧ t = s ∧
      ∃ target, shape.referenceRequests = [⟨.reference, target⟩] ∧ shape.constraints.nodes = [target] := by
  cases h with
  | reference hc hn ht _ _ =>
      refine ⟨⟨_, rfl, rfl⟩, rfl, _, ?_, ht⟩
      rw [Shape.referenceRequests, Constraints.composition?_eq_none hc, ht]
      rfl

theorem Visit.nil_eq {s s' : InferenceState} {us : List TypeUse} (h : Visit graph strict s [] us s') :
    us = [] ∧ s' = s := by
  cases h
  exact ⟨rfl, rfl⟩

theorem Entering.memo_begun {s : InferenceState} {r : Request} (v : Entering graph s r) :
    v.begun.memo = (r.id, .resolving s.slots.length v.early) :: s.memo := by
  show (v.shape.id, Progress.resolving s.slots.length v.early) :: s.memo = _
  rw [v.id_shape]

namespace Resolution

variable {s t : InferenceState} {r : Request} {use : TypeUse} (v : Resolution graph strict s r use t)

theorem exists_memo : ∃ inside, v.t₂.memo = inside ++ (r.id, .resolving s.slots.length v.early) :: s.memo := by
  obtain ⟨inside, hi⟩ := v.extends_begun.memo
  exact ⟨inside, by rw [← hi, v.memo_begun]⟩

/-- **A shape that stands in for another one is left with the item of that one.** -/
theorem defers {target : Node} (ht : graph.standIn? r.id = some target) :
    Defers target r.id use v.t₂.memo := by
  simp only [ShapesGraph.standIn?, v.shape?_id, Option.bind_some] at ht
  obtain ⟨x, hfinding, hlist, -⟩ := v.fits.standsFor ht
  have hfinds := v.finds
  have hitem := v.leaves.item
  rw [hfinding] at hfinds hitem
  obtain ⟨⟨use', hrefs, rfl⟩, hstate, target', hrequests, hnodes⟩ := hfinds.of_standsFor
  rw [Shape.nodes_of_standIn? ht] at hnodes
  cases hnodes
  simp only [Finding.item, hlist] at hitem
  have hv := v.references
  rw [hrequests, hrefs] at hv
  have hbegun := v.memo_begun
  rw [hstate]
  rcases hv.cons_cases with ⟨p, us, hp, hus, hrest⟩ | ⟨use'', us, t', hus, ⟨w⟩, hrest⟩
  · cases hus
    obtain ⟨-, ht₁⟩ := hrest.nil_eq
    have hmemo : v.t₁.memo = v.begun.memo := by
      obtain ⟨handedOut, heq⟩ := InferenceState.exists_touched (s := v.begun)
        (r := ⟨.reference, target⟩) (p := p)
      rw [ht₁, heq]
      rfl
    rw [hmemo, hbegun]
    exact .known (by rw [← hbegun]; exact hp) hitem
  · cases hus
    obtain ⟨-, ht₁⟩ := hrest.nil_eq
    obtain ⟨inside, hinside⟩ := w.exists_memo
    rw [ht₁, w.memo_answered, hinside, hbegun]
    exact .fresh hitem

end Resolution

/-- **Every visit keeps the memo a history.** -/
theorem Visit.history {s s' : InferenceState} {rs : List Request} {us : List TypeUse}
    (hv : Visit graph strict s rs us s') : History graph s.memo → History graph s'.memo := by
  refine hv.preserves (J := fun s => History graph s.memo) (fun {s r p} _ h => ?_) (fun v h => ?_)
    fun v _ _ _ h => ?_
  · obtain ⟨handedOut, heq⟩ := InferenceState.exists_touched (s := s) (r := r) (p := p)
    rw [heq]
    exact h
  · exact .enter h (by rw [v.id_shape]; exact v.new)
  · rw [v.memo_answered]
    exact .leave h v.progress?_t₂ fun _ => v.defers

/-! ## Aliases -/

/-- The alias that a shape calls for when it is left. -/
def aliasOnLeaving (graph : ShapesGraph) (m : Memo) (id : Node) (use : TypeUse) : List Alias :=
  match graph.standIn? id, m.lookup id with
  | some _, some (.resolving slot _) => [⟨slot, use.item, id⟩]
  | _, _ => []

/-- The aliases that the shapes of a memo call for, in the order in which the shapes were left. -/
def aliasesOf (graph : ShapesGraph) : Memo → List Alias
  | [] => []
  | (id, .resolved use) :: m => aliasesOf graph m ++ aliasOnLeaving graph m id use
  | (_, .resolving _ _) :: m => aliasesOf graph m

theorem mem_aliasOnLeaving {m : Memo} {id : Node} {use : TypeUse} {a : Alias} :
    a ∈ aliasOnLeaving graph m id use ↔ (graph.standIn? id).isSome ∧
      (∃ c, m.lookup id = some (.resolving a.slot c)) ∧ a.target = use.item ∧ a.shape = id := by
  unfold aliasOnLeaving
  split
  · rename_i target slot c hs hl
    obtain ⟨slot', target', shape⟩ := a
    constructor
    · intro h
      cases List.mem_singleton.1 h
      exact ⟨by simp [hs], ⟨c, hl⟩, rfl, rfl⟩
    · rintro ⟨-, ⟨c', hl'⟩, rfl, rfl⟩
      cases hl.symm.trans hl'
      exact List.mem_singleton.2 rfl
  · rename_i hno
    constructor
    · intro h
      cases h
    · rintro ⟨hs, ⟨c, hl⟩, -, -⟩
      obtain ⟨target, ht⟩ := Option.isSome_iff_exists.1 hs
      exact absurd hl (hno target a.slot c ht)

theorem length_aliasOnLeaving {m : Memo} {id : Node} {use : TypeUse} :
    (aliasOnLeaving graph m id use).length ≤ 1 := by
  unfold aliasOnLeaving
  split <;> simp

/-- **An alias belongs to a shape that was left after those of the aliases before.** -/
theorem exists_left_of_alias {m : Memo} {before after : List Alias} {a : Alias}
    (h : aliasesOf graph m = before ++ a :: after) :
    ∃ use w c, (a.shape, .resolved use) :: w <:+ m ∧ aliasesOf graph w = before ∧
      w.lookup a.shape = some (.resolving a.slot c) ∧ a.target = use.item ∧
      (graph.standIn? a.shape).isSome := by
  induction m generalizing after with
  | nil => simp [aliasesOf] at h
  | cons e m ih =>
      obtain ⟨id, p⟩ := e
      cases p with
      | resolving slot c =>
          obtain ⟨use, w, c', hw, hrest⟩ := ih h
          exact ⟨use, w, c', hw.trans (List.suffix_cons _ _), hrest⟩
      | resolved use =>
          have hlen := @length_aliasOnLeaving graph m id use
          have hlast : aliasesOf graph m = before → aliasOnLeaving graph m id use = a :: after →
              ∃ use' w c, (a.shape, .resolved use') :: w <:+ (id, .resolved use) :: m ∧
                aliasesOf graph w = before ∧ w.lookup a.shape = some (.resolving a.slot c) ∧
                a.target = use'.item ∧ (graph.standIn? a.shape).isSome := by
            intro hbefore hnew
            have hmem : a ∈ aliasOnLeaving graph m id use := by simp [hnew]
            obtain ⟨hs, ⟨c, hl⟩, ht, rfl⟩ := mem_aliasOnLeaving.1 hmem
            exact ⟨use, m, c, List.suffix_refl _, hbefore, hl, ht, hs⟩
          rcases List.append_eq_append_iff.1 h with ⟨l, hbefore, hnew⟩ | ⟨l, hold, hnew⟩
          · have hnil : l = [] := by
              rw [hnew] at hlen
              exact List.eq_nil_of_length_eq_zero (by simp at hlen; omega)
            subst hnil
            exact hlast (by simpa using hbefore.symm) (by simpa using hnew)
          · cases l with
            | nil => exact hlast (by simpa using hold) (by simpa using hnew.symm)
            | cons b l =>
                cases hnew
                obtain ⟨use', w, c, hw, hrest⟩ := ih hold
                exact ⟨use', w, c, hw.trans (List.suffix_cons _ _), hrest⟩

/-- A shape that stands in for another one has an alias once it is left. -/
theorem alias_mem_aliasesOf {m w : Memo} {id : Node} {use : TypeUse} {slot : Slot} {c : Cardinality}
    (hw : (id, .resolved use) :: w <:+ m) (hs : (graph.standIn? id).isSome)
    (hl : w.lookup id = some (.resolving slot c)) : ⟨slot, use.item, id⟩ ∈ aliasesOf graph m := by
  induction m with
  | nil => simp at hw
  | cons e m ih =>
      rcases List.suffix_cons_iff.1 hw with heq | hw'
      · cases heq
        exact List.mem_append_right _ (mem_aliasOnLeaving.2 ⟨hs, ⟨c, hl⟩, rfl, rfl⟩)
      · obtain ⟨id', p⟩ := e
        cases p with
        | resolving slot' c' => exact ih hw'
        | resolved use' => exact List.mem_append_left _ (ih hw')

theorem Resolution.aliases_eq {s t : InferenceState} {r : Request} {use : TypeUse}
    (v : Resolution graph strict s r use t) : v.finding.aliases v.shape s.slots.length =
      aliasOnLeaving graph v.t₂.memo r.id use := by
  have hl : v.t₂.memo.lookup r.id = some (.resolving s.slots.length v.early) := v.progress?_t₂
  have hstandIn : graph.standIn? r.id = v.shape.standIn? := by
    rw [ShapesGraph.standIn?, v.shape?_id, Option.bind_some]
  unfold aliasOnLeaving
  rw [hl, hstandIn]
  cases ht : v.shape.standIn? with
  | none =>
      rw [List.eq_nil_iff_forall_not_mem]
      intro a ha
      have := v.fits.isSome_standIn? ha
      simp [ht] at this
  | some target =>
      obtain ⟨x, hfinding, hlist, -⟩ := v.fits.standsFor ht
      have hitem := v.leaves.item
      rw [hfinding] at hitem ⊢
      simp only [Finding.item, hlist] at hitem
      simp only [Finding.aliases, hlist, v.id_shape, hitem]

/-- **The aliases registered are those that the memo calls for.** -/
theorem Visit.aliases_eq {s s' : InferenceState} {rs : List Request} {us : List TypeUse}
    (hv : Visit graph strict s rs us s') :
    s.aliases = aliasesOf graph s.memo → s'.aliases = aliasesOf graph s'.memo := by
  refine hv.preserves (J := fun s => s.aliases = aliasesOf graph s.memo) (fun {s r p} _ h => ?_)
    (fun v h => h) fun {s t r use} v _ _ _ h => ?_
  · obtain ⟨handedOut, heq⟩ := InferenceState.exists_touched (s := s) (r := r) (p := p)
    rw [heq]
    exact h
  · rw [v.memo_answered, v.aliases_answered, h, aliasesOf, v.aliases_eq]

end ShapeTypes
