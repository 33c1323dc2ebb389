import ShapeTypes.Proofs.Inference.Growth

/-!
# What answers stand for

* `InferenceState.Denotes` — a slot stands for the type of a shape: it was reserved for it, or it is where
  the shape was resolved to;
* `InferenceState.Keeps` — what holds of resolved shapes in one state holds in the other;
* `Entering.slots_begun_cases`, `Resolution.slots_answered_cases` — what the slots hold when a shape is
  entered, and when it is left;
* `Visit.answers` — **the answers to requests denote the shapes asked for.**
-/

namespace ShapeTypes

open Rdf

variable {graph : ShapesGraph} {strict : Bool}

/-! ## Slots that denote shapes -/

namespace InferenceState

/-- A slot was reserved for a shape when it was entered. -/
def Holds (s : InferenceState) (id : Node) (slot : Slot) : Prop := ∃ c, (id, .resolving slot c) ∈ s.memo

/-- A shape is resolved, with a use. -/
def Done (s : InferenceState) (id : Node) (use : TypeUse) : Prop := s.progress? id = some (.resolved use)

/-- A slot stands for the type of a shape. -/
def Denotes (s : InferenceState) (slot : Slot) (id : Node) : Prop :=
  s.Holds id slot ∨ ∃ use, s.Done id use ∧ use.item = slot

/-- A use answers a request. Its cardinality is that of the shape, unless it was handed out early. -/
structure Answered (s : InferenceState) (r : Request) (use : TypeUse) : Prop where
  denotes : s.Denotes use.item r.id
  current : r.wantsUse = true → r.id ∈ s.handedOut ∨ s.Done r.id use

/-- What holds of resolved shapes in one state holds in the other. -/
structure Keeps (s s' : InferenceState) : Prop where
  slots : ∀ (x : Slot) (c : Content) (use : TypeUse), s.slots[x]? = some c → s.Done c.shape use → s'.slots[x]? = some c
  length : s.slots.length ≤ s'.slots.length
  aliases : s.aliases <+: s'.aliases
  memo : s.memo <:+ s'.memo
  handedOut : s.handedOut ⊆ s'.handedOut
  done : ∀ (id : Node) (use : TypeUse), s.Done id use → s'.Done id use

variable {s s' : InferenceState} {id : Node} {slot : Slot} {use : TypeUse}

theorem Done.unique {use' : TypeUse} (h : s.Done id use) (h' : s.Done id use') : use = use' := by
  have := h.symm.trans h'
  simpa using this

theorem mem_memo_of_progress? {p : Progress} (h : s.progress? id = some p) : (id, p) ∈ s.memo :=
  mem_of_lookup h

theorem not_mem_memo (h : s.progress? id = none) (p : Progress) : (id, p) ∉ s.memo :=
  not_mem_of_lookup h p

theorem Extends.keeps (h : s.Extends s') : s.Keeps s' where
  slots := fun _ _ _ hx _ => h.getElem? hx
  length := h.slots.length_le
  aliases := by
    obtain ⟨new, hn, -⟩ := h.aliases
    exact ⟨new, hn.symm⟩
  memo := h.memo
  handedOut := h.handedOut
  done := fun id use hd => h.known id _ hd

theorem Keeps.trans {t : InferenceState} (h : s.Keeps s') (k : s'.Keeps t) : s.Keeps t where
  slots := fun x c use hx hd => k.slots x c use (h.slots x c use hx hd) (h.done _ _ hd)
  length := Nat.le_trans h.length k.length
  aliases := h.aliases.trans k.aliases
  memo := h.memo.trans k.memo
  handedOut := List.Subset.trans h.handedOut k.handedOut
  done := fun id use hd => k.done id use (h.done id use hd)

section

variable (k : s.Keeps s')

include k

theorem Holds.mono (h : s.Holds id slot) : s'.Holds id slot := by
  obtain ⟨c, hc⟩ := h
  exact ⟨c, k.memo.subset hc⟩

theorem Denotes.mono (h : s.Denotes slot id) : s'.Denotes slot id := by
  rcases h with h | ⟨use, hd, hi⟩
  · exact Or.inl (h.mono k)
  · exact Or.inr ⟨use, k.done _ _ hd, hi⟩

theorem Answered.mono {r : Request} (h : s.Answered r use) : s'.Answered r use where
  denotes := h.denotes.mono k
  current := fun hw => (h.current hw).imp (k.handedOut ·) (k.done _ _)

end

end InferenceState

/-! ## Entering and leaving a shape -/

/-! ### When the shape is entered -/

namespace Entering

variable {s : InferenceState} {r : Request} (v : Entering graph s r)

theorem getElem?_begun {x : Slot} {c : Content} (hc : s.slots[x]? = some c) :
    v.begun.slots[x]? = some c := by
  obtain ⟨hlt, -⟩ := List.getElem?_eq_some_iff.1 hc
  simp [InferenceState.begun, List.getElem?_append_left hlt, hc]

theorem getElem?_begun_own : v.begun.slots[s.slots.length]? = some (.placeholder v.shape.id) := by
  simp [InferenceState.begun]

/-- What a slot holds when the shape is entered: what it held, or the place for the shape. -/
theorem slots_begun_cases {x : Slot} {c : Content} (hc : v.begun.slots[x]? = some c) :
    s.slots[x]? = some c ∨ x = s.slots.length ∧ c = .placeholder v.shape.id := by
  have hslots : v.begun.slots = s.slots ++ [.placeholder v.shape.id] := rfl
  rw [hslots] at hc
  rcases Nat.lt_or_ge x s.slots.length with hlt | hge
  · rw [List.getElem?_append_left hlt] at hc
    exact Or.inl hc
  · rw [List.getElem?_append_right hge, List.getElem?_singleton] at hc
    split at hc
    · rename_i hx
      cases hc
      exact Or.inr ⟨Nat.le_antisymm (Nat.sub_eq_zero_iff_le.1 hx) hge, rfl⟩
    · cases hc

theorem holds_begun_cases {id : Node} {x : Slot} (h : v.begun.Holds id x) :
    s.Holds id x ∨ id = v.shape.id ∧ x = s.slots.length := by
  obtain ⟨c, hc⟩ := h
  rcases List.mem_cons.1 hc with hc | hc
  · cases hc
    exact Or.inr ⟨rfl, rfl⟩
  · exact Or.inl ⟨c, hc⟩

theorem not_holds {x : Slot} : ¬ s.Holds v.shape.id x := by
  rintro ⟨c, hc⟩
  rw [v.id_shape] at hc
  exact InferenceState.not_mem_memo v.new _ hc

/-- What is known of a shape stays so when another one is entered. -/
theorem progress?_begun_of_some {id : Node} {p : Progress} (h : s.progress? id = some p) :
    v.begun.progress? id = some p := by
  have hne : id ≠ v.shape.id := by
    rintro rfl
    rw [v.id_shape, v.new] at h
    cases h
  rw [InferenceState.progress?_begun, if_neg hne, h]

theorem keeps_begun : s.Keeps v.begun where
  slots := fun _ _ _ hx _ => v.getElem?_begun hx
  length := by simp [InferenceState.begun]
  aliases := List.prefix_refl _
  memo := List.suffix_cons _ _
  handedOut := List.Subset.refl _
  done := fun id use hd => v.progress?_begun_of_some hd

theorem mem_openObjects_begun {x : Slot} : x ∈ v.begun.openObjects ↔
    v.shape.declaresObject = true ∧ x = s.slots.length ∨ x ∈ s.openObjects := by
  unfold Entering.begun InferenceState.begun
  by_cases ho : v.shape.declaresObject = true <;> simp [ho]

theorem done_of_begun {id : Node} {use' : TypeUse} (h : v.begun.Done id use') : s.Done id use' := by
  unfold InferenceState.Done at h
  rw [InferenceState.progress?_begun] at h
  split at h
  · cases h
  · exact h

end Entering

/-! ### When the shape is left -/

namespace Resolution

variable {s t : InferenceState} {r : Request} {use : TypeUse} (v : Resolution graph strict s r use t)

theorem lt_slot : s.slots.length < v.t₂.slots.length :=
  (List.getElem?_eq_some_iff.1 v.getElem?_slot).1

section

variable {scopes : List ConstraintStack}

/-- The slots in which the shape is left, at every place but its own. -/
theorem getElem?_answered {x : Slot} (hx : x < v.t₂.slots.length) (hne : x ≠ s.slots.length) :
    (r.answered graph scopes t).slots[x]? = v.t₂.slots[x]? := by
  obtain ⟨names, ht⟩ := v.exists_state
  simp only [ht, Request.answered]
  rw [List.getElem?_append_left (by simpa using hx), List.getElem?_set_ne (Ne.symm hne)]

/-- Whatever is no place for the shape stays when the shape is left. -/
theorem getElem?_answered_of_ne {x : Slot} {c : Content} (hx : v.t₂.slots[x]? = some c)
    (hc : c ≠ .placeholder r.id) : (r.answered graph scopes t).slots[x]? = some c := by
  obtain ⟨hlt, -⟩ := List.getElem?_eq_some_iff.1 hx
  rw [v.getElem?_answered hlt, hx]
  rintro rfl
  rw [v.getElem?_slot] at hx
  cases hx
  exact hc rfl

theorem getElem?_answered_own : (r.answered graph scopes t).slots[s.slots.length]? =
    some (v.finding.own v.shape v.name v.t₂.slots.length) := by
  obtain ⟨names, ht⟩ := v.exists_state
  have hlt := v.lt_slot
  simp only [ht, Request.answered]
  rw [List.getElem?_append_left (by simpa using hlt), List.getElem?_set_self hlt]

/-- What the slots hold that are added when the shape is left. -/
theorem getElem?_answered_inner {x : Slot} (hx : v.t₂.slots.length ≤ x) :
    (r.answered graph scopes t).slots[x]? =
      (v.finding.inner v.shape v.name)[x - v.t₂.slots.length]? := by
  obtain ⟨names, ht⟩ := v.exists_state
  simp only [ht, Request.answered]
  rw [List.getElem?_append_right (by simpa using hx), List.length_set]

/-- What a slot holds once the shape is left: what the shape was found to be, in its own slot or behind a
list, or what it held before. -/
theorem slots_answered_cases {x : Slot} {c : Content}
    (hc : (r.answered graph scopes t).slots[x]? = some c) :
    (x ≠ s.slots.length ∧ v.t₂.slots[x]? = some c) ∨
      (x = s.slots.length ∧ c = v.finding.own v.shape v.name v.t₂.slots.length) ∨
        x = v.t₂.slots.length ∧ c ∈ v.finding.inner v.shape v.name := by
  rcases Nat.lt_or_ge x v.t₂.slots.length with hlt | hge
  · by_cases hx : x = s.slots.length
    · subst hx
      rw [v.getElem?_answered_own] at hc
      cases hc
      exact Or.inr (Or.inl ⟨rfl, rfl⟩)
    · rw [v.getElem?_answered hlt hx] at hc
      exact Or.inl ⟨hx, hc⟩
  · rw [v.getElem?_answered_inner hge, Finding.getElem?_inner] at hc
    obtain ⟨hx, hi⟩ := hc
    exact Or.inr (Or.inr ⟨Nat.le_antisymm (Nat.sub_eq_zero_iff_le.1 hx) hge, hi⟩)

theorem aliases_answered : (r.answered graph scopes t).aliases =
    v.t₂.aliases ++ v.finding.aliases v.shape s.slots.length := by
  obtain ⟨names, ht⟩ := v.exists_state
  simp [ht, Request.answered]

theorem openObjects_answered : (r.answered graph scopes t).openObjects =
    v.t₂.openObjects.filter (· ≠ s.slots.length) := by
  obtain ⟨names, ht⟩ := v.exists_state
  simp [ht, Request.answered]

include v in
theorem holds_answered {id : Node} {x : Slot} :
    (r.answered graph scopes t).Holds id x ↔ v.t₂.Holds id x := by
  obtain ⟨names, ht⟩ := v.exists_state
  simp [InferenceState.Holds, Request.answered, ht]

include v in
theorem memo_answered : (r.answered graph scopes t).memo = (r.id, .resolved use) :: v.t₂.memo := by
  obtain ⟨names, ht⟩ := v.exists_state
  simp [ht, Request.answered]

include v in
theorem done_answered : (r.answered graph scopes t).Done r.id use := by
  unfold InferenceState.Done InferenceState.progress?
  rw [v.memo_answered, List.lookup_cons_self]

include v in
theorem progress?_answered {id : Node} (hne : id ≠ r.id) :
    (r.answered graph scopes t).progress? id = v.t₂.progress? id := by
  unfold InferenceState.progress?
  rw [v.memo_answered, lookup_cons_of_ne hne]

theorem done_answered_cases {id : Node} {use' : TypeUse}
    (h : (r.answered graph scopes t).Done id use') :
    v.t₂.Done id use' ∨ id = r.id ∧ use' = use := by
  by_cases hid : id = r.id
  · subst hid
    exact Or.inr ⟨rfl, h.unique v.done_answered⟩
  · rw [InferenceState.Done, v.progress?_answered hid] at h
    exact Or.inl h

/-- The shape is not resolved yet when it is about to be left. -/
theorem ne_of_done {id : Node} {use' : TypeUse} (h : v.t₂.Done id use') : id ≠ r.id := by
  rintro rfl
  rw [InferenceState.Done, v.progress?_t₂] at h
  cases h

theorem keeps_answered : v.t₂.Keeps (r.answered graph scopes t) := by
  obtain ⟨names, ht⟩ := v.exists_state
  constructor
  case slots =>
    intro x c use' hx hd
    refine v.getElem?_answered_of_ne hx ?_
    rintro rfl
    exact v.ne_of_done hd rfl
  case length => simp [ht, Request.answered]
  case aliases => simp [ht, Request.answered]
  case memo => simp [ht, Request.answered]
  case handedOut => simp [ht, Request.answered]
  case done =>
    intro id use' hd
    unfold InferenceState.Done
    rw [v.progress?_answered (v.ne_of_done hd)]
    exact hd

end

end Resolution

/-- **The answers to requests denote the shapes asked for.** -/
theorem Visit.answers {s s' : InferenceState} {rs : List Request} {us : List TypeUse}
    (h : Visit graph strict s rs us s') : List.Forall₂ s'.Answered rs us := by
  induction h using Visit.induction with
  | nil => exact .nil
  | @known s s' r rs us p hp hv ih =>
      have hk := hv.extends.keeps
      have hmem := InferenceState.mem_memo_of_progress? hp
      refine .cons (InferenceState.Answered.mono hk ⟨?_, fun hw => ?_⟩) ih
      · cases p with
        | resolving slot c => exact Or.inl ⟨c, InferenceState.extends_known.memo.subset hmem⟩
        | resolved use => exact Or.inr ⟨use, InferenceState.extends_known.known _ _ hp, rfl⟩
      · cases p with
        | resolving slot c => simp [InferenceState.touched, hw, Request.answered]
        | resolved use => exact Or.inr (InferenceState.extends_known.known _ _ hp)
  | first v hv _ _ ih =>
      exact .cons (InferenceState.Answered.mono hv.extends.keeps
        ⟨Or.inr ⟨_, v.done_answered, rfl⟩, fun _ => Or.inr v.done_answered⟩) ih

end ShapeTypes
