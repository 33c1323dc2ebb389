import Mathlib.Data.List.Nodup
import ShapeTypes.Proofs.Arena.Reachable

/-!
# Compaction keeps what it keeps

* `Arena.Closed` — slots of the arena, each once, that hold everything their types refer to;
* `Arena.getElem?_compact` — **the place of a kept slot holds its content, renumbered**;
* `Arena.closed_reachable` — the reachable slots are closed when no reference leaves the arena;
* `Arena.exists_link_compact` — references between kept slots are those between their places.
-/

namespace ShapeTypes

open Relation

theorem getElem?_filterMap_of_isSome {α β : Type} {f : α → Option β} :
    ∀ {l : List α}, (∀ x ∈ l, (f x).isSome) → ∀ i : Nat, (l.filterMap f)[i]? = l[i]?.bind f
  | [], _, i => by simp
  | x :: l, h, i => by
    obtain ⟨b, hb⟩ := Option.isSome_iff_exists.1 (h x List.mem_cons_self)
    rw [List.filterMap_cons_some hb]
    cases i with
    | zero => simp [hb]
    | succ i =>
        simpa using getElem?_filterMap_of_isSome (fun y hy => h y (List.mem_cons_of_mem _ hy)) i

namespace Arena

variable {a : Arena} {keep : List Slot}

/-- Slots of the arena, each once, that hold everything their types refer to. -/
structure Closed (a : Arena) (keep : List Slot) : Prop where
  nodup : keep.Nodup
  lt : ∀ x ∈ keep, x < a.length
  links : ∀ x ∈ keep, ∀ y, a.Links x y → y ∈ keep

theorem getElem?_renumber {x : Slot} (h : x ∈ keep) : keep[renumber keep x]? = some x := by
  obtain ⟨i, hi⟩ := Option.isSome_iff_exists.1 (List.isSome_idxOf?.2 h)
  have hlt : i < keep.length := by
    have := List.findIdx?_eq_some_iff_getElem.1 hi
    exact this.1
  have hget : keep[i] = x := by
    have := List.findIdx?_eq_some_iff_getElem.1 hi
    simpa using this.2.1
  simp [renumber, hi, hlt, hget]

theorem renumber_lt {x : Slot} (h : x ∈ keep) : renumber keep x < keep.length :=
  (List.getElem?_eq_some_iff.1 (getElem?_renumber h)).1

theorem renumber_getElem (hd : keep.Nodup) {i : Nat} {x : Slot} (h : keep[i]? = some x) :
    renumber keep x = i := by
  obtain ⟨hi, rfl⟩ := List.getElem?_eq_some_iff.1 h
  have hr := getElem?_renumber (List.getElem_mem hi)
  obtain ⟨hlt, heq⟩ := List.getElem?_eq_some_iff.1 hr
  exact (List.Nodup.getElem_inj_iff hd).1 heq

theorem isSome_content (hk : ∀ x ∈ keep, x < a.length) :
    ∀ x ∈ keep, ((a[x]?).map (·.mapSlots (renumber keep))).isSome := fun x hx => by
  simp [hk x hx]

theorem length_compact (hk : ∀ x ∈ keep, x < a.length) : (a.compact keep).length = keep.length := by
  unfold compact
  rw [List.length_filterMap_eq_countP, List.countP_eq_length]
  exact isSome_content hk

/-- **The place of a kept slot holds its content, renumbered.** -/
theorem getElem?_compact (hk : ∀ x ∈ keep, x < a.length) {x : Slot} (hx : x ∈ keep) :
    (a.compact keep)[renumber keep x]? = (a[x]?).map (·.mapSlots (renumber keep)) := by
  unfold compact
  rw [getElem?_filterMap_of_isSome (isSome_content hk), getElem?_renumber hx]
  rfl

/-- Every slot of the compacted arena is the place of a kept one. -/
theorem exists_mem_keep (hd : keep.Nodup) (hk : ∀ x ∈ keep, x < a.length) {i : Nat}
    (hi : i < (a.compact keep).length) : ∃ x ∈ keep, renumber keep x = i := by
  rw [length_compact hk] at hi
  exact ⟨keep[i], List.getElem_mem hi, renumber_getElem hd (List.getElem?_eq_getElem hi)⟩

theorem links_compact (h : a.Closed keep) {x y : Slot} (hx : x ∈ keep) (hl : a.Links x y) :
    (a.compact keep).Links (renumber keep x) (renumber keep y) := by
  obtain ⟨c, hc, hy⟩ := hl
  refine ⟨c.mapSlots (renumber keep), by rw [getElem?_compact h.lt hx, hc]; rfl, ?_⟩
  rw [Content.children_mapSlots]
  exact List.mem_map_of_mem hy

/-- A reference of the compacted arena comes from one of the arena. -/
theorem exists_link_compact (h : a.Closed keep) {x j : Slot} (hx : x ∈ keep)
    (hl : (a.compact keep).Links (renumber keep x) j) :
    ∃ y ∈ keep, a.Links x y ∧ renumber keep y = j := by
  obtain ⟨c, hc, hj⟩ := hl
  rw [getElem?_compact h.lt hx, Option.map_eq_some_iff] at hc
  obtain ⟨d, hd, rfl⟩ := hc
  rw [Content.children_mapSlots, List.mem_map] at hj
  obtain ⟨y, hy, rfl⟩ := hj
  exact ⟨y, h.links x hx y ⟨d, hd, hy⟩, ⟨d, hd, hy⟩, rfl⟩

/-- The reachable slots are closed when no reference of theirs leaves the arena. -/
theorem closed_reachable {roots : List Slot} (hr : ∀ r ∈ roots, r < a.length)
    (hin : ∀ x y, x ∈ a.reachable roots → a.Links x y → y < a.length) :
    a.Closed (a.reachable roots) where
  nodup := (reachable_sorted a roots).imp Nat.ne_of_lt
  lt := fun _ => lt_of_mem_reachable
  links := fun x hx y hl => by
    obtain ⟨r, hrm, hrx⟩ := (mem_reachable hr).1 hx
    exact (mem_reachable hr).2 ⟨r, hrm, hrx.tail (mem_successors.2 ⟨hl, hin x y hx hl⟩)⟩

theorem root_mem_reachable {roots : List Slot} (hr : ∀ r ∈ roots, r < a.length) {r : Slot}
    (h : r ∈ roots) : r ∈ a.reachable roots :=
  (mem_reachable hr).2 ⟨r, h, .refl⟩

end Arena

end ShapeTypes
