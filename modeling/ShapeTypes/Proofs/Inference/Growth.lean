import ShapeTypes.Proofs.Inference.Run

/-!
# What a visit leaves as it was

* `Finding.own`, `Finding.inner`, `Finding.aliases` — what a finding adds to the slots and aliases;
* `InferenceState.Extends` — one state extends another: slots, aliases and memo keep what they hold, and
  no shape is left halfway;
* `Visit.extends` — **every visit leads to a state that extends the one before**;
* `Visit.preserves` — an invariant is shown for entering and for leaving a shape.
-/

namespace ShapeTypes

open Rdf

variable {graph : ShapesGraph} {strict : Bool}

/-! ## What a finding adds -/

namespace Finding

/-- What the slot of a shape holds at last; `next` is the slot behind a list of its own items. -/
def own (finding : Finding) (shape : Shape) (name : Name) (next : Slot) : Content :=
  match finding, shape.isList with
  | .type body, false => .type (shape.itemType name body)
  | .type _, true => .type (shape.itemType name (.list next))
  | .standsFor _, false => .placeholder shape.id
  | .standsFor target, true => .type (shape.itemType name (.list target))

/-- What the slot behind a list of own items holds. -/
def inner (finding : Finding) (shape : Shape) (name : Name) : List Content :=
  match finding, shape.isList with
  | .type body, true => [.type (shape.itemType name body)]
  | _, _ => []

/-- The alias of a shape that stands for another one. -/
def aliases (finding : Finding) (shape : Shape) (slot : Slot) : List Alias :=
  match finding, shape.isList with
  | .standsFor target, false => [⟨slot, target, shape.id⟩]
  | _, _ => []

variable {finding : Finding} {shape : Shape} {name : Name}

theorem shape_own {next : Slot} : (finding.own shape name next).shape = shape.id := by
  unfold own
  split <;> rfl

theorem shape_inner {c : Content} (h : c ∈ finding.inner shape name) : c.shape = shape.id := by
  unfold inner at h
  split at h
  · rw [List.mem_singleton.1 h]
    rfl
  · cases h

theorem getElem?_inner {c : Content} {i : Nat} :
    (finding.inner shape name)[i]? = some c ↔ i = 0 ∧ c ∈ finding.inner shape name := by
  unfold inner
  split
  · cases i <;> simp [eq_comm]
  · simp

theorem mem_aliases {slot : Slot} {a : Alias} (h : a ∈ finding.aliases shape slot) :
    a.slot = slot ∧ a.shape = shape.id ∧ a.target = finding.item shape slot := by
  unfold aliases at h
  unfold item
  split at h
  · rw [List.mem_singleton.1 h]
    simp_all
  · cases h

theorem exists_alias {next : Slot} {id : Node} (h : finding.own shape name next = .placeholder id)
    (slot : Slot) : ∃ a ∈ finding.aliases shape slot, a.slot = slot := by
  unfold own at h
  unfold aliases
  split at h
  · cases h
  · cases h
  · rename_i hl
    simp [hl]
  · cases h

theorem exists_type_of_inner {c : Content} (h : c ∈ finding.inner shape name) : ∃ t, c = .type t := by
  unfold inner at h
  split at h
  · exact ⟨_, List.mem_singleton.1 h⟩
  · cases h

/-- Only lists have something behind them. -/
theorem isList_of_inner {c : Content} (h : c ∈ finding.inner shape name) : shape.isList = true := by
  unfold inner at h
  split at h
  · assumption
  · cases h

/-- The type behind a list of own items is what the shape was found to be. -/
theorem eq_of_inner {t : ItemType} (h : .type t ∈ finding.inner shape name) : finding = .type t.body := by
  unfold inner at h
  split at h
  · cases List.mem_singleton.1 h
    rfl
  · cases h

theorem nodup_aliases {slot : Slot} : ((finding.aliases shape slot).map (·.slot)).Nodup := by
  unfold aliases
  split <;> simp

end Finding

namespace InferenceState

variable {s t : InferenceState} {shape : Shape} {slot : Slot} {name : Name} {finding : Finding}

/-- Settling a finding writes the slot of the shape, and adds a slot behind a list, or an alias. -/
theorem settled_eq (h : t.slots[slot]? = some (.placeholder shape.id)) :
    t.settled shape slot name finding = { t with
      slots := t.slots.set slot (finding.own shape name t.slots.length) ++ finding.inner shape name
      aliases := t.aliases ++ finding.aliases shape slot } := by
  obtain ⟨hlt, hget⟩ := List.getElem?_eq_some_iff.1 h
  unfold settled Finding.own Finding.inner Finding.aliases
  cases finding with
  | type body =>
      cases hl : shape.isList with
      | false => simp
      | true => simp [hlt]
  | standsFor target =>
      cases hl : shape.isList with
      | false =>
          have hset : t.slots.set slot (.placeholder shape.id) = t.slots := by
            rw [← hget, List.set_getElem_self]
          simp [hset]
      | true => simp

theorem progress?_concluded {id other : Node} {use : TypeUse} :
    (s.concluded id use).progress? other = if other = id then some (.resolved use) else s.progress? other := by
  unfold concluded progress?
  by_cases h : other = id
  · simp [h]
  · rw [if_neg h]
    exact lookup_cons_of_ne h

theorem progress?_begun {scopes : List ConstraintStack} {early : Cardinality} {other : Node} :
    (s.begun shape scopes early).progress? other =
      if other = shape.id then some (.resolving s.slots.length early) else s.progress? other := by
  unfold begun progress?
  by_cases h : other = shape.id
  · simp [h]
  · rw [if_neg h]
    exact lookup_cons_of_ne h

/-! ## Extending a state -/

/-- What was there is still there; only new slots are written, and new slots made to stand for others; a
shape that was not visited is resolved or not visited. -/
structure Extends (s s' : InferenceState) : Prop where
  slots : s.slots <+: s'.slots
  aliases : ∃ new, s'.aliases = s.aliases ++ new ∧ ∀ a ∈ new, s.slots.length ≤ a.slot
  memo : s.memo <:+ s'.memo
  handedOut : s.handedOut ⊆ s'.handedOut
  known : ∀ id p, s.progress? id = some p → s'.progress? id = some p
  fresh : ∀ id, s.progress? id = none →
    s'.progress? id = none ∨ ∃ use, s'.progress? id = some (.resolved use)

namespace Extends

theorem refl (s : InferenceState) : s.Extends s where
  slots := List.prefix_refl _
  aliases := ⟨[], by simp, by simp⟩
  memo := List.suffix_refl _
  handedOut := List.Subset.refl _
  known := fun _ _ h => h
  fresh := fun _ h => Or.inl h

theorem trans {s t u : InferenceState} (h : s.Extends t) (k : t.Extends u) : s.Extends u where
  slots := h.slots.trans k.slots
  aliases := by
    obtain ⟨new, hn, hge⟩ := h.aliases
    obtain ⟨new', hn', hge'⟩ := k.aliases
    refine ⟨new ++ new', by rw [hn', hn, List.append_assoc], fun a ha => ?_⟩
    rcases List.mem_append.1 ha with ha | ha
    · exact hge a ha
    · exact Nat.le_trans h.slots.length_le (hge' a ha)
  memo := h.memo.trans k.memo
  handedOut := List.Subset.trans h.handedOut k.handedOut
  known := fun id p hp => k.known id p (h.known id p hp)
  fresh := fun id hid => by
    rcases h.fresh id hid with hid' | ⟨use, huse⟩
    · exact k.fresh id hid'
    · exact Or.inr ⟨use, k.known id _ huse⟩

theorem getElem? {s s' : InferenceState} (h : s.Extends s') {x : Slot} {c : Content}
    (hx : s.slots[x]? = some c) : s'.slots[x]? = some c := by
  obtain ⟨later, hl⟩ := h.slots
  obtain ⟨hlt, -⟩ := List.getElem?_eq_some_iff.1 hx
  rw [← hl, List.getElem?_append_left hlt, hx]

end Extends

theorem exists_touched {r : Request} {p : Progress} :
    ∃ handedOut, s.touched r p = { s with handedOut } := by
  unfold touched
  split
  · split
    · exact ⟨_, rfl⟩
    · exact ⟨s.handedOut, rfl⟩
  · exact ⟨s.handedOut, rfl⟩

/-- Names, scopes and handed out shapes apart, nothing changes when a shape that is known is asked for. -/
theorem extends_known {r : Request} {p : Progress} {scopes : List ConstraintStack} :
    s.Extends (r.answered graph scopes (s.touched r p)) := by
  have hh : s.handedOut ⊆ (s.touched r p).handedOut := by
    unfold touched
    split
    · split
      · exact List.subset_cons_self _ _
      · exact List.Subset.refl _
    · exact List.Subset.refl _
  obtain ⟨handedOut, heq⟩ := exists_touched (s := s) (r := r) (p := p)
  rw [heq] at hh ⊢
  exact ⟨List.prefix_refl _, ⟨[], by simp [Request.answered], by simp⟩, List.suffix_refl _, hh,
    fun _ _ h => h, fun _ h => Or.inl h⟩

end InferenceState

/-! ## Entering and leaving a shape -/

/-- Names apart, finding what a shape is does not change the state. -/
theorem Finds.state {shape : Shape} {s t t' : InferenceState} {refs props : List TypeUse}
    {finding : Finding} (h : Finds graph shape s refs t props finding t') :
    ∃ names, t' = { t with names } := by
  cases h with
  | composite => exact ⟨_, rfl⟩
  | object => exact ⟨_, rfl⟩
  | reference => exact ⟨_, rfl⟩
  | value _ _ _ hbody => exact ⟨_, (gives_valueBody hbody).2.2⟩

/-- The state in which a shape is left. -/
theorem Leaves.state_eq {shape : Shape} {slot : Slot} {name : Name} {stack : ConstraintStack}
    {finding : Finding} {s t : InferenceState} {use : TypeUse}
    (h : Leaves strict shape slot name stack finding s use t)
    (hs : s.slots[slot]? = some (.placeholder shape.id)) :
    t = { s with
      slots := s.slots.set slot (finding.own shape name s.slots.length) ++ finding.inner shape name
      aliases := s.aliases ++ finding.aliases shape slot
      openObjects := s.openObjects.filter (· ≠ slot)
      memo := (shape.id, .resolved use) :: s.memo } := by
  rw [h.state, InferenceState.settled_eq hs]
  rfl

namespace InferenceState

theorem getElem?_begun {s t : InferenceState} {shape : Shape} {scopes : List ConstraintStack}
    {early : Cardinality} (h : (s.begun shape scopes early).Extends t) :
    t.slots[s.slots.length]? = some (.placeholder shape.id) :=
  h.getElem? (by simp [begun])

theorem extends_concluded {s t₂ t₃ t₄ : InferenceState} {r : Request} {shape : Shape}
    {scopes scopes' : List ConstraintStack} {early : Cardinality} {finding : Finding} {names : NameBook}
    {name : Name} {stack : ConstraintStack} {use : TypeUse}
    (hnew : s.progress? shape.id = none) (hb : (s.begun shape scopes early).Extends t₂)
    (ht : t₃ = { t₂ with names })
    (hleaves : Leaves strict shape s.slots.length name stack finding t₃ use t₄) :
    s.Extends (r.answered graph scopes' t₄) := by
  have hph := getElem?_begun hb
  subst ht
  rw [hleaves.state_eq hph]
  obtain ⟨later, hlater⟩ := hb.slots
  have hslots : t₂.slots = s.slots ++ .placeholder shape.id :: later := by
    rw [← hlater]
    simp [begun]
  have hprogress : ∀ id, (({ t₂ with names } : InferenceState).concluded shape.id use).progress? id =
      if id = shape.id then some (.resolved use) else t₂.progress? id := fun id => progress?_concluded
  constructor
  case slots => simp [Request.answered, hslots]
  case aliases =>
    obtain ⟨new, hn, hge⟩ := hb.aliases
    refine ⟨new ++ finding.aliases shape s.slots.length, ?_, fun a ha => ?_⟩
    · simp [Request.answered, hn, begun]
    · rcases List.mem_append.1 ha with ha | ha
      · have := hge a ha
        simp only [begun, List.length_append, List.length_cons] at this
        omega
      · exact Nat.le_of_eq (Finding.mem_aliases ha).1.symm
  case memo => exact (List.suffix_cons _ _).trans (hb.memo.trans (List.suffix_cons _ _))
  case handedOut => exact hb.handedOut
  case known =>
    intro id p hp
    have hne : id ≠ shape.id := by
      rintro rfl
      rw [hnew] at hp
      cases hp
    have hbegun : (s.begun shape scopes early).progress? id = some p := by
      rw [progress?_begun, if_neg hne]
      exact hp
    refine (hprogress id).trans ?_
    rw [if_neg hne]
    exact hb.known id p hbegun
  case fresh =>
    intro id hid
    by_cases he : id = shape.id
    · exact Or.inr ⟨use, (hprogress id).trans (if_pos he)⟩
    · have hbegun : (s.begun shape scopes early).progress? id = none := by
        rw [progress?_begun, if_neg he]
        exact hid
      have hfresh := hb.fresh id hbegun
      rw [← (hprogress id).trans (if_neg he)] at hfresh
      exact hfresh

end InferenceState

/-- **Every visit leads to a state that extends the one before.** -/
theorem Visit.extends {s s' : InferenceState} {rs : List Request} {us : List TypeUse}
    (h : Visit graph strict s rs us s') : s.Extends s' := by
  induction h using Visit.induction with
  | nil => exact .refl _
  | known _ _ ih => exact InferenceState.extends_known.trans ih
  | first v _ ih₁ ih₂ ih =>
      obtain ⟨names, ht⟩ := v.finds.state
      have hnew := v.new
      rw [← v.id_shape] at hnew
      exact (InferenceState.extends_concluded hnew (ih₁.trans ih₂) ht v.leaves).trans ih

namespace Resolution

variable {s t : InferenceState} {r : Request} {use : TypeUse} (v : Resolution graph strict s r use t)

theorem extends₁ : v.begun.Extends v.t₁ := v.references.extends

theorem extends₂ : v.t₁.Extends v.t₂ := v.properties.extends

theorem extends_begun : v.begun.Extends v.t₂ := v.extends₁.trans v.extends₂

theorem getElem?_slot : v.t₂.slots[s.slots.length]? = some (.placeholder r.id) := by
  rw [InferenceState.getElem?_begun v.extends_begun, v.id_shape]

theorem progress?_t₂ : v.t₂.progress? r.id = some (.resolving s.slots.length v.early) := by
  refine v.extends_begun.known _ _ ?_
  rw [InferenceState.progress?_begun, if_pos v.id_shape.symm]

/-- The state in which the shape is left, but for names and scopes. -/
theorem exists_state : ∃ names, t = { v.t₂ with
    names
    slots := v.t₂.slots.set s.slots.length (v.finding.own v.shape v.name v.t₂.slots.length) ++
      v.finding.inner v.shape v.name
    aliases := v.t₂.aliases ++ v.finding.aliases v.shape s.slots.length
    openObjects := v.t₂.openObjects.filter (· ≠ s.slots.length)
    memo := (r.id, .resolved use) :: v.t₂.memo } := by
  obtain ⟨names, ht⟩ := v.finds.state
  have hleaves := v.leaves
  rw [ht] at hleaves
  refine ⟨names, (hleaves.state_eq ?_).trans ?_⟩
  · rw [v.getElem?_slot, v.id_shape]
  · rw [v.id_shape]

end Resolution

/-- **An invariant of all visits** is kept when a shape that is known is asked for, when a shape is entered,
and when it is left, if it held in all states before. -/
theorem Visit.preserves {J : InferenceState → Prop}
    (known : ∀ {s : InferenceState} {r : Request} {p : Progress}, s.progress? r.id = some p → J s →
      J (r.answered graph s.scopes (s.touched r p)))
    (enter : ∀ {s : InferenceState} {r : Request} (v : Entering graph s r), J s → J v.begun)
    (leave : ∀ {s t : InferenceState} {r : Request} {use : TypeUse}
      (v : Resolution graph strict s r use t), J s → J v.begun → J v.t₁ → J v.t₂ →
        J (r.answered graph s.scopes t))
    {s s' : InferenceState} {rs : List Request} {us : List TypeUse}
    (h : Visit graph strict s rs us s') : J s → J s' := by
  induction h using Visit.induction with
  | nil => exact id
  | known hp _ ih => exact fun hs => ih (known hp hs)
  | first v _ ih₁ ih₂ ih =>
      intro hs
      have hb : J v.begun := enter v.toEntering hs
      exact ih (leave v hs hb (ih₁ hb) (ih₂ (ih₁ hb)))

end ShapeTypes
