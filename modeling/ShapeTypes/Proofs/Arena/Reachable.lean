import Mathlib.Logic.Relation
import ShapeTypes.Proofs.Lookup
import ShapeTypes.Schema.Reachable

/-!
# The worklist search finds exactly what can be reached

* `Searching` — the invariant of the search; `Searching.step` — **each step keeps it**;
* `reachFrom_closed` — with enough steps left nothing that is found has a successor that is not found;
* `mem_reachedFrom` — **the search gives the numbers on a path from a root**, for a successor function
  within `0 … n - 1`;
* `Arena.Links` — one slot refers to another; `Arena.mem_reachable`, `Arena.reachable_sorted` — the
  reachable slots, in ascending order.
-/

namespace ShapeTypes

open Relation

variable {next : Nat → List Nat} {n : Nat}

theorem length_le_of_nodup_lt {l : List Nat} (hd : l.Nodup) (hlt : ∀ x ∈ l, x < n) : l.length ≤ n := by
  have hsub : l ⊆ List.range n := fun x hx => List.mem_range.2 (hlt x hx)
  simpa using hd.length_le_of_subset hsub

/-- The successors that the search adds when it takes a number off the worklist. -/
def unseen (next : Nat → List Nat) (seen : List Nat) (x : Nat) : List Nat :=
  (next x).eraseDups.filter fun y => !seen.contains y

theorem reachFrom_step {fuel x : Nat} {todo seen : List Nat} : reachFrom next (fuel + 1) (x :: todo) seen =
    reachFrom next fuel (unseen next seen x ++ todo) (unseen next seen x ++ seen) := rfl

theorem mem_unseen {x y : Nat} {seen : List Nat} : y ∈ unseen next seen x ↔ y ∈ next x ∧ y ∉ seen := by
  simp [unseen, List.mem_eraseDups]

theorem subset_reachFrom : ∀ fuel todo seen, seen ⊆ reachFrom next fuel todo seen
  | 0, _, seen => by simp [reachFrom]
  | _ + 1, [], seen => by simp [reachFrom]
  | fuel + 1, x :: todo, seen => by
    rw [reachFrom_step]
    exact List.Subset.trans (List.subset_append_right _ _) (subset_reachFrom fuel _ _)

/-- Everything that is found lies on a path from what was seen at the start. -/
theorem exists_path_of_mem_reachFrom : ∀ fuel todo seen, todo ⊆ seen →
    ∀ y ∈ reachFrom next fuel todo seen, ∃ x ∈ seen, ReflTransGen (fun a b => b ∈ next a) x y
  | 0, _, seen, _, y, hy => ⟨y, by simpa [reachFrom] using hy, .refl⟩
  | _ + 1, [], seen, _, y, hy => ⟨y, by simpa [reachFrom] using hy, .refl⟩
  | fuel + 1, x :: todo, seen, hsub, y, hy => by
    rw [reachFrom_step] at hy
    have hsub' : todo ⊆ seen := fun z hz => hsub (List.mem_cons_of_mem _ hz)
    have hx : x ∈ seen := hsub List.mem_cons_self
    obtain ⟨z, hz, hzy⟩ := exists_path_of_mem_reachFrom fuel _ _
      (List.append_subset.2 ⟨List.subset_append_left _ _,
        List.Subset.trans hsub' (List.subset_append_right _ _)⟩) y hy
    rw [List.mem_append, mem_unseen] at hz
    rcases hz with ⟨hz, _⟩ | hz
    · exact ⟨x, hx, .head hz hzy⟩
    · exact ⟨z, hz, hzy⟩

/-- **The invariant of the search**: the worklist was seen, and so were the successors of all that is not on
the worklist any more. -/
structure Searching (next : Nat → List Nat) (n : Nat) (todo seen : List Nat) : Prop where
  nodup_todo : todo.Nodup
  nodup_seen : seen.Nodup
  todo_seen : todo ⊆ seen
  seen_lt : ∀ x ∈ seen, x < n
  done : ∀ x ∈ seen, x ∉ todo → next x ⊆ seen

/-- **A step of the search keeps its invariant.** -/
theorem Searching.step (hlt : ∀ x, ∀ y ∈ next x, y < n) {x : Nat} {todo seen : List Nat}
    (h : Searching next n (x :: todo) seen) :
    Searching next n (unseen next seen x ++ todo) (unseen next seen x ++ seen) := by
  have htodo := List.nodup_cons.1 h.nodup_todo
  have hseen : todo ⊆ seen := fun y hy => h.todo_seen (List.mem_cons_of_mem _ hy)
  have hunseen : (unseen next seen x).Nodup := (nodup_eraseDups _).filter _
  have hnew : ∀ y ∈ unseen next seen x, y ∉ seen := fun y hy => (mem_unseen.1 hy).2
  constructor
  case nodup_todo =>
    refine List.nodup_append.2 ⟨hunseen, htodo.2, ?_⟩
    rintro y hy _ hz rfl
    exact hnew y hy (hseen hz)
  case nodup_seen =>
    refine List.nodup_append.2 ⟨hunseen, h.nodup_seen, ?_⟩
    rintro y hy _ hz rfl
    exact hnew y hy hz
  case todo_seen =>
    exact List.append_subset.2 ⟨List.subset_append_left _ _,
      List.Subset.trans hseen (List.subset_append_right _ _)⟩
  case seen_lt =>
    intro y hy
    rcases List.mem_append.1 hy with hy | hy
    · exact hlt x y (mem_unseen.1 hy).1
    · exact h.seen_lt y hy
  case done =>
    intro y hy hny z hz
    rw [List.mem_append, not_or] at hny
    rw [List.mem_append] at hy ⊢
    rcases hy with hy | hy
    · exact absurd hy hny.1
    · by_cases hyx : y = x
      · subst hyx
        by_cases hzs : z ∈ seen
        · exact Or.inr hzs
        · exact Or.inl (mem_unseen.2 ⟨hz, hzs⟩)
      · exact Or.inr (h.done y hy (by simp [hyx, hny.2]) hz)

/-- **The search is exhaustive.** Each of its steps takes one number off the worklist for good, so `n` less
what was taken off before is fuel enough. -/
theorem reachFrom_closed (hlt : ∀ x, ∀ y ∈ next x, y < n) : ∀ fuel todo seen,
    n + todo.length ≤ fuel + seen.length → Searching next n todo seen →
      ∀ x ∈ reachFrom next fuel todo seen, next x ⊆ reachFrom next fuel todo seen
  | 0, todo, seen, hfuel, h => by
    have hlen := length_le_of_nodup_lt h.nodup_seen h.seen_lt
    have hnil : todo = [] := List.eq_nil_of_length_eq_zero (by omega)
    subst hnil
    intro x hx
    simp only [reachFrom] at hx ⊢
    exact h.done x hx (by simp)
  | _ + 1, [], seen, _, h => by
    intro x hx
    simp only [reachFrom] at hx ⊢
    exact h.done x hx (by simp)
  | fuel + 1, x :: todo, seen, hfuel, h => by
    rw [reachFrom_step]
    refine reachFrom_closed hlt fuel _ _ ?_ (h.step hlt)
    simp only [List.length_append, List.length_cons] at hfuel ⊢
    omega

/-- **The search gives exactly what can be reached from a root.** -/
theorem mem_reachedFrom (hlt : ∀ x, ∀ y ∈ next x, y < n) {roots : List Nat} (hr : ∀ r ∈ roots, r < n)
    {y : Nat} :
    y ∈ reachedFrom next n roots ↔ ∃ r ∈ roots, ReflTransGen (fun a b => b ∈ next a) r y := by
  constructor
  · intro hy
    obtain ⟨x, hx, hxy⟩ := exists_path_of_mem_reachFrom n _ _ (List.Subset.refl _) y hy
    exact ⟨x, List.mem_eraseDups.1 hx, hxy⟩
  · rintro ⟨r, hrm, hry⟩
    have hstart : Searching next n roots.eraseDups roots.eraseDups := {
      nodup_todo := nodup_eraseDups _
      nodup_seen := nodup_eraseDups _
      todo_seen := List.Subset.refl _
      seen_lt := fun x hx => hr x (List.mem_eraseDups.1 hx)
      done := fun x hx hn => absurd hx hn }
    have hclosed := reachFrom_closed hlt n _ _ (Nat.le_refl _) hstart
    induction hry with
    | refl => exact subset_reachFrom _ _ _ (List.mem_eraseDups.2 hrm)
    | tail _ hstep ih => exact hclosed _ ih hstep

namespace Arena

/-- A slot refers to another one. -/
def Links (a : Arena) (source target : Slot) : Prop := ∃ c, a[source]? = some c ∧ target ∈ c.children

theorem mem_successors {a : Arena} {x y : Slot} : y ∈ a.successors x ↔ a.Links x y ∧ y < a.length := by
  unfold successors Links
  cases h : a[x]? with
  | none => simp
  | some c => simp

theorem mem_reachable {a : Arena} {roots : List Slot} (hr : ∀ r ∈ roots, r < a.length) {y : Slot} :
    y ∈ a.reachable roots ↔ ∃ r ∈ roots, ReflTransGen (fun x z => z ∈ a.successors x) r y := by
  have hlt : ∀ x, ∀ z ∈ a.successors x, z < a.length := fun x z hz => (mem_successors.1 hz).2
  have hroots : roots.filter (fun r => decide (r < a.length)) = roots := by
    rw [List.filter_eq_self]; simpa using hr
  unfold reachable
  simp only [List.mem_filter, List.mem_range, List.contains_iff_mem, hroots,
    mem_reachedFrom hlt hr]
  constructor
  · exact fun h => h.2
  · rintro ⟨r, hrm, hry⟩
    refine ⟨?_, r, hrm, hry⟩
    rcases ReflTransGen.cases_tail hry with rfl | ⟨z, _, hz⟩
    · exact hr _ hrm
    · exact hlt z _ hz

theorem reachable_sorted (a : Arena) (roots : List Slot) : (a.reachable roots).Pairwise (· < ·) :=
  List.pairwise_lt_range.filter _

theorem lt_of_mem_reachable {a : Arena} {roots : List Slot} {y : Slot} (h : y ∈ a.reachable roots) :
    y < a.length :=
  List.mem_range.1 (List.mem_filter.1 h).1

end Arena

end ShapeTypes
