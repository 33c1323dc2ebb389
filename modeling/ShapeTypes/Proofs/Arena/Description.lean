import ShapeTypes.Proofs.Lookup
import ShapeTypes.Schema.Description

/-!
# Descriptions without an end

* `Arena.ListsOver` — a slot holds a list of the items in another one;
* `Arena.NeverEnds` — lists in lists come to one that contains itself;
* `Arena.describeFor?_succ_eq_none` — **one step: a description that is too long goes on with one that is too long for
  one slot less**;
* `Arena.describe?_eq_none_iff` — **there is no description exactly if lists never end**, since among more lists than
  slots one is met again; `Arena.neverEnds_iff` — **and looking at more slots does not help.**
-/

namespace ShapeTypes

open Relation

namespace Content

variable {c : Content} {x : Slot}

theorem mem_edges_of_item? (h : c.item? = some x) : (.item, x) ∈ c.edges := by
  unfold item? at h
  split at h
  · cases h
    exact List.mem_singleton_self _
  · cases h

theorem mem_children_of_item? (h : c.item? = some x) : x ∈ c.children :=
  List.mem_map_of_mem (mem_edges_of_item? h)

end Content

namespace Arena

variable {a : Arena} {record : CurieRecord} {x y : Slot} {n : Nat}

/-- A slot holds a list of the items in another one. -/
def ListsOver (a : Arena) (x y : Slot) : Prop := ∃ c, a[x]? = some c ∧ c.item? = some y

/-- The list in a slot contains a list, perhaps within others, that contains itself. -/
def NeverEnds (a : Arena) (x : Slot) : Prop := ∃ y, ReflTransGen a.ListsOver x y ∧ TransGen a.ListsOver y y

theorem describeFor?_succ_eq_none :
    a.describeFor? record (n + 1) x = none ↔ ∃ y, a.ListsOver x y ∧ a.describeFor? record n y = none := by
  unfold ListsOver
  rw [describeFor?]
  cases a[x]? with
  | none => simp
  | some c => cases hc : c.item? <;> simp [hc]

theorem ListsOver.mem_range (h : a.ListsOver x y) : x ∈ List.range a.length := by
  obtain ⟨c, hc, -⟩ := h
  exact List.mem_range.2 (List.getElem?_eq_some_iff.1 hc).1

/-- A list that never ends has items of which that is true. -/
theorem NeverEnds.exists_item (h : a.NeverEnds x) : ∃ y, a.ListsOver x y ∧ a.NeverEnds y := by
  obtain ⟨z, hxz, hzz⟩ := h
  rcases hxz.cases_head with rfl | ⟨y, hxy, hyz⟩
  · obtain ⟨y, hxy, hyx⟩ := TransGen.head'_iff.1 hzz
    exact ⟨y, hxy, x, hyx, hzz⟩
  · exact ⟨y, hxy, z, hyz, hzz⟩

/-- **It has no description**, however many slots are looked at. -/
theorem NeverEnds.describeFor?_eq_none (h : a.NeverEnds x) (n : Nat) : a.describeFor? record n x = none := by
  induction n generalizing x with
  | zero => rfl
  | succ n ih =>
      obtain ⟨y, hxy, hy⟩ := h.exists_item
      exact describeFor?_succ_eq_none.2 ⟨y, hxy, ih hy⟩

/-- The lists that a description comes through when it is too long: one for each slot that is looked at. -/
theorem exists_lists (h : a.describeFor? record n x = none) : ∃ lists : List Slot,
    lists.length = n ∧ lists.IsChain a.ListsOver ∧ (∀ y ∈ lists.head?, y = x) ∧ lists ⊆ List.range a.length := by
  induction n generalizing x with
  | zero => exact ⟨[], rfl, .nil, nofun, List.nil_subset _⟩
  | succ n ih =>
      obtain ⟨y, hxy, hy⟩ := describeFor?_succ_eq_none.1 h
      obtain ⟨lists, hlength, hchain, hhead, hsub⟩ := ih hy
      refine ⟨x :: lists, by rw [List.length_cons, hlength], ?_, ?_, ?_⟩
      · refine List.isChain_cons.2 ⟨fun z hz => ?_, hchain⟩
        rwa [hhead z hz]
      · rintro z ⟨⟩
        rfl
      · exact List.cons_subset.2 ⟨hxy.mem_range, hsub⟩

/-- **There is no description exactly if lists never end.** -/
theorem describe?_eq_none_iff : a.describe? record x = none ↔ a.NeverEnds x := by
  refine ⟨fun h => ?_, fun h => h.describeFor?_eq_none _⟩
  obtain ⟨lists, hlength, hchain, hhead, hsub⟩ := exists_lists h
  refine exists_round_of_isChain hchain hhead hsub ?_
  rw [List.length_range, hlength]
  exact Nat.lt_succ_self a.length

/-- **Nor does any number of slots suffice then.** -/
theorem neverEnds_iff : a.NeverEnds x ↔ ∀ n, a.describeFor? record n x = none :=
  ⟨fun h => h.describeFor?_eq_none, fun h => describe?_eq_none_iff.1 (h _)⟩

end Arena

end ShapeTypes
