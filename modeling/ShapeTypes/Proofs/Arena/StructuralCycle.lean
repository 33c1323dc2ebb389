import Mathlib.Data.Finset.Max
import Mathlib.Data.List.Flatten
import ShapeTypes.Proofs.Arena.Reachable
import ShapeTypes.Schema.StructuralCycle

/-!
# The structural cycle that is reported

A slot is on a structural cycle if it reaches itself by one structural reference or more.

* `Traversal.visit_*` — what a depth-first search has entered it has also left, and with enough fuel it
  enters everything it is started from; `mem_finishOrder` — it leaves every slot;
* `Arena.Contains` — a slot refers to another one otherwise than by a property;
* `Arena.mem_cycleThrough`, `Arena.exists_of_structuralCycle?` — **the slots on a cycle with a given one**, which
  is what is reported;
* `Arena.structuralCycle?_some`, `Arena.structuralCycle?_none` — **a cycle is reported exactly when there
  is one**, and every reported slot is on a cycle.
-/

namespace ShapeTypes

open Relation

variable {next : Nat → List Nat} {n : Nat}

/-! ## Depth-first search -/

namespace Traversal

theorem visit_entered_mono : ∀ fuel l (t : Traversal), t.entered ⊆ (visit next fuel l t).entered
  | 0, _, _ => by simp [visit]
  | _ + 1, [], _ => by simp [visit]
  | fuel + 1, x :: rest, t => by
    unfold visit
    split
    · exact visit_entered_mono fuel rest t
    · intro y hy
      exact visit_entered_mono fuel rest _
        (visit_entered_mono fuel (next x) _ (List.mem_cons_of_mem x hy))

theorem visit_finished_mono : ∀ fuel l (t : Traversal), t.finished ⊆ (visit next fuel l t).finished
  | 0, _, _ => by simp [visit]
  | _ + 1, [], _ => by simp [visit]
  | fuel + 1, x :: rest, t => by
    unfold visit
    split
    · exact visit_finished_mono fuel rest t
    · intro y hy
      refine visit_finished_mono fuel rest _ (List.mem_cons_of_mem x ?_)
      exact visit_finished_mono fuel (next x) _ hy

/-- What the search enters it also leaves. -/
theorem visit_finished : ∀ fuel l (t : Traversal) y, y ∈ (visit next fuel l t).entered →
    y ∈ t.entered ∨ y ∈ (visit next fuel l t).finished
  | 0, _, _, y, hy => Or.inl (by simpa [visit] using hy)
  | _ + 1, [], _, y, hy => Or.inl (by simpa [visit] using hy)
  | fuel + 1, x :: rest, t, y, hy => by
    unfold visit at hy ⊢
    split
    · rename_i hx
      rw [if_pos hx] at hy
      exact visit_finished fuel rest t y hy
    · rename_i hx
      rw [if_neg hx] at hy
      simp only at hy ⊢
      have hmono := @visit_finished_mono next fuel rest
        { visit next fuel (next x) { t with entered := x :: t.entered } with
          finished := x :: (visit next fuel (next x) { t with entered := x :: t.entered }).finished }
      rcases visit_finished fuel rest _ y hy with h | h
      · rcases visit_finished fuel (next x) _ y h with h' | h'
        · rcases List.mem_cons.1 h' with rfl | h'
          · exact Or.inr (hmono List.mem_cons_self)
          · exact Or.inl h'
        · exact Or.inr (hmono (List.mem_cons_of_mem _ h'))
      · exact Or.inr h

/-- The successors of the numbers below `n` that are not entered yet. -/
def pending (next : Nat → List Nat) (n : Nat) (t : Traversal) : Nat :=
  (((List.range n).filter fun x => x ∉ t.entered).flatMap next).length

theorem pending_mono {t u : Traversal} (h : t.entered ⊆ u.entered) :
    pending next n u ≤ pending next n t := by
  refine (List.Sublist.flatMap ?_ next).length_le
  refine List.monotone_filter_right _ fun x hx => ?_
  simp only [decide_eq_true_eq] at hx ⊢
  exact fun hxt => hx (h hxt)

/-- Entering a number takes its successors off the pending ones. -/
theorem pending_enter {t : Traversal} {x : Nat} (hx : x < n) (hxt : x ∉ t.entered) :
    pending next n { t with entered := x :: t.entered } + (next x).length = pending next n t := by
  have hperm : ((List.range n).filter fun y => y ∉ t.entered).Perm
      (x :: (List.range n).filter fun y => y ∉ x :: t.entered) := by
    refine (List.perm_ext_iff_of_nodup (List.nodup_range.filter _) ?_).2 fun y => ?_
    · refine List.nodup_cons.2 ⟨by simp, List.nodup_range.filter _⟩
    · by_cases hy : y = x
      · subst hy; simp [hx, hxt]
      · simp [hy]
  have := ((hperm.flatMap_right next).length_eq)
  simp only [pending, this, List.flatMap_cons, List.length_append]
  omega

/-- **With enough fuel the search enters everything it is started from.** -/
theorem visit_complete (hlt : ∀ x, ∀ y ∈ next x, y < n) : ∀ fuel l (t : Traversal),
    (∀ x ∈ l, x < n) → l.length + pending next n t < fuel → l ⊆ (visit next fuel l t).entered
  | 0, _, _, _, h => by omega
  | _ + 1, [], _, _, _ => by simp
  | fuel + 1, x :: rest, t, hl, hf => by
    have hx : x < n := hl x List.mem_cons_self
    have hrest : ∀ y ∈ rest, y < n := fun y hy => hl y (List.mem_cons_of_mem _ hy)
    simp only [List.length_cons] at hf
    unfold visit
    split
    · rename_i hxt
      refine List.cons_subset.2 ⟨visit_entered_mono fuel rest t hxt, ?_⟩
      exact visit_complete hlt fuel rest t hrest (by omega)
    · rename_i hxt
      have hp := @pending_enter next n t x hx hxt
      generalize hi : visit next fuel (next x) { t with entered := x :: t.entered } = inner
      have hin : x :: t.entered ⊆ inner.entered := by
        rw [← hi]
        exact visit_entered_mono fuel (next x) { t with entered := x :: t.entered }
      have hpi : pending next n { inner with finished := x :: inner.finished } ≤ pending next n t :=
        pending_mono fun y hy => hin (List.mem_cons_of_mem _ hy)
      refine List.cons_subset.2 ⟨visit_entered_mono fuel rest _ (hin List.mem_cons_self), ?_⟩
      exact visit_complete hlt fuel rest _ hrest (by omega)

end Traversal

theorem mem_finishOrder (hlt : ∀ x, ∀ y ∈ next x, y < n) {x : Nat} (hx : x < n) :
    x ∈ finishOrder next n := by
  unfold finishOrder
  rw [List.mem_reverse]
  have hp : Traversal.pending next n {} = ((List.range n).flatMap next).length := by
    simp [Traversal.pending, List.filter_true]
  have hin := Traversal.visit_complete hlt (n + ((List.range n).flatMap next).length + 1)
    (List.range n) {} (fun y hy => List.mem_range.1 hy) (by rw [hp]; simp) (List.mem_range.2 hx)
  rcases Traversal.visit_finished _ _ _ x hin with h | h
  · simp at h
  · exact h

namespace Arena

variable {a : Arena}

/-- A slot refers to another one otherwise than by a property. -/
def Contains (a : Arena) (source target : Slot) : Prop :=
  ∃ c kind, a[source]? = some c ∧ (kind, target) ∈ c.edges ∧ kind ≠ .property

theorem mem_structuralSuccessors {x y : Slot} :
    y ∈ a.structuralSuccessors x ↔ a.Contains x y ∧ y < a.length := by
  unfold structuralSuccessors Contains
  cases h : a[x]? with
  | none => simp
  | some c =>
      simp only [List.mem_reverse, List.mem_filterMap, Option.ite_none_right_eq_some, Prod.exists,
        Option.some.injEq]
      constructor
      · rintro ⟨kind, z, hz, ⟨hk, hlt⟩, rfl⟩
        exact ⟨⟨c, kind, rfl, hz, hk⟩, hlt⟩
      · rintro ⟨⟨c', kind, rfl, hy, hk⟩, hlt⟩
        exact ⟨kind, y, hy, ⟨hk, hlt⟩, rfl⟩

/-- A structural step between slots of the arena. -/
def Step (a : Arena) (x y : Slot) : Prop := y ∈ a.structuralSuccessors x

theorem Step.lt {x y : Slot} (h : a.Step x y) : x < a.length ∧ y < a.length := by
  obtain ⟨⟨c, _, hc, _⟩, hy⟩ := mem_structuralSuccessors.1 h
  exact ⟨(List.getElem?_eq_some_iff.1 hc).1, hy⟩

theorem mem_structurallyBelow {x y : Slot} : y ∈ a.structurallyBelow x ↔ TransGen a.Step x y := by
  have hlt : ∀ x, ∀ z ∈ a.structuralSuccessors x, z < a.length := fun x z hz => (Step.lt hz).2
  unfold structurallyBelow
  rw [mem_reachedFrom hlt (hlt x), TransGen.head'_iff]
  rfl

/-- **The slots on a structural cycle with a given one.** -/
theorem mem_cycleThrough {x y : Slot} :
    y ∈ a.cycleThrough x ↔ TransGen a.Step x y ∧ TransGen a.Step y x := by
  simp only [cycleThrough]
  split
  · simp only [List.mem_filter, List.mem_range, Bool.and_eq_true, List.contains_iff_mem,
      mem_structurallyBelow]
    constructor
    · exact fun h => h.2
    · rintro ⟨hxy, hyx⟩
      obtain ⟨z, _, hz⟩ := TransGen.tail'_iff.1 hxy
      exact ⟨hz.lt.2, hxy, hyx⟩
  · rename_i hx
    rw [mem_structurallyBelow] at hx
    constructor
    · intro h; simp at h
    · rintro ⟨hxy, hyx⟩; exact absurd (hxy.trans hyx) hx

/-- **A reported cycle is all of the slots on a cycle with one of them.** -/
theorem exists_of_structuralCycle? {cycle : List Slot} (h : a.structuralCycle? = some cycle) :
    ∃ slot, TransGen a.Step slot slot ∧ ∀ x, x ∈ cycle ↔ TransGen a.Step slot x ∧ TransGen a.Step x slot := by
  obtain ⟨slot, _, hs⟩ := List.exists_of_findSome?_eq_some h
  simp only [Option.ite_none_right_eq_some, Option.some.injEq, Bool.and_eq_true,
    Bool.not_eq_true', List.isEmpty_eq_false_iff] at hs
  obtain ⟨⟨hne, _⟩, rfl⟩ := hs
  obtain ⟨x, hx⟩ := List.exists_mem_of_ne_nil _ hne
  obtain ⟨h1, h2⟩ := mem_cycleThrough.1 hx
  exact ⟨slot, h1.trans h2, fun x => mem_cycleThrough⟩

/-- A reported cycle has slots, and each of them reaches itself. -/
theorem structuralCycle?_some {cycle : List Slot} (h : a.structuralCycle? = some cycle) :
    cycle ≠ [] ∧ ∀ x ∈ cycle, TransGen a.Step x x := by
  obtain ⟨slot, hslot, hmem⟩ := exists_of_structuralCycle? h
  refine ⟨List.ne_nil_of_mem ((hmem slot).2 ⟨hslot, hslot⟩), fun x hx => ?_⟩
  obtain ⟨h1, h2⟩ := (hmem x).1 hx
  exact h2.trans h1

/-- If no cycle is reported there is none: the slot of a cycle that the search leaves last would be. -/
theorem structuralCycle?_none (h : a.structuralCycle? = none) (x : Slot) : ¬ TransGen a.Step x x := by
  intro hx
  have hne : a.cycleThrough x ≠ [] := List.ne_nil_of_mem (mem_cycleThrough.2 ⟨hx, hx⟩)
  generalize ho : finishOrder a.structuralSuccessors a.length = order at h
  obtain ⟨m, hm, hmax⟩ := (a.cycleThrough x).toFinset.exists_max_image (order.idxOf ·)
    (by simpa using hne)
  simp only [List.mem_toFinset] at hm hmax
  obtain ⟨hxm, hmx⟩ := mem_cycleThrough.1 hm
  have hmo : m ∈ order := by
    obtain ⟨z, _, hz⟩ := TransGen.tail'_iff.1 hxm
    rw [← ho]
    exact mem_finishOrder (fun y z hz => (Step.lt hz).2) hz.lt.2
  have hmem : m ∈ a.cycleThrough m := mem_cycleThrough.2 ⟨hmx.trans hxm, hmx.trans hxm⟩
  have hall : (a.cycleThrough m).all (fun other => order.idxOf other ≤ order.idxOf m) = true := by
    rw [List.all_eq_true]
    intro y hy
    obtain ⟨hmy, hym⟩ := mem_cycleThrough.1 hy
    exact decide_eq_true (hmax y (mem_cycleThrough.2 ⟨hxm.trans hmy, hym.trans hmx⟩))
  simp only [structuralCycle?, ho, List.findSome?_eq_none_iff] at h
  have := h m hmo
  rw [if_pos] at this
  · cases this
  · rw [hall, Bool.and_true]
    simpa using List.ne_nil_of_mem hmem

end Arena

end ShapeTypes
