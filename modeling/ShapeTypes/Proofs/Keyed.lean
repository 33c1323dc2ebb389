import Mathlib.Data.List.Induction
import ShapeTypes.Proofs.Lookup

/-!
# What a keyed collection has of what was added to it

* `Keyed.get?_put`, `Keyed.index?_put_of_mem`, `Keyed.index?_put_of_notMem` — what one more entry changes;
* `Keyed.keys_ofList`, `Keyed.get?_ofList` — what a list of entries leaves: the keys in their first order, and of each
  key the last entry;
* `Indexed`, `Indexed.Represents` — entries kept beside an index of their places, which is looked up first;
* `Indexed.Represents.put`, `Indexed.represents_ofList` — **the index never drifts from the entries**;
* `Keyed.HoldsLast`, `Keyed.holdsLast_ofList` — **all that is found in a collection**, with an index or without.
-/

namespace ShapeTypes

variable {κ α : Type} [DecidableEq κ] {key : α → κ}

namespace Keyed

variable {c : Keyed key} {a : α}

/-! ## One more entry -/

theorem entries_put_of_mem (h : key a ∈ c.keys) : (c.put a).entries = replaceIn key c.entries a := by
  rw [put, dif_pos h]

theorem entries_put_of_notMem (h : key a ∉ c.keys) : (c.put a).entries = c.entries ++ [a] := by
  rw [put, dif_neg h]

theorem mem_entries_put {b : α} : b ∈ (c.put a).entries ↔ b = a ∨ b ∈ c.entries ∧ key b ≠ key a := by
  by_cases ha : key a ∈ c.keys
  · obtain ⟨old, hold, hkey⟩ := List.mem_map.1 ha
    rw [entries_put_of_mem ha, replaceIn, List.mem_map]
    constructor
    · rintro ⟨b', hb', rfl⟩
      by_cases h : key b' = key a
      · exact .inl (if_pos h)
      · rw [if_neg h]
        exact .inr ⟨hb', h⟩
    · rintro (rfl | ⟨hb, hne⟩)
      · exact ⟨old, hold, if_pos hkey⟩
      · exact ⟨b, hb, if_neg hne⟩
  · rw [entries_put_of_notMem ha, List.mem_append, List.mem_singleton, or_comm]
    have hne (hb : b ∈ c.entries) : key b ≠ key a := fun h => ha (h ▸ List.mem_map_of_mem hb)
    exact or_congr_right ⟨fun hb => ⟨hb, hne hb⟩, And.left⟩

/-- What was put is found; what is found under other keys stays. -/
theorem get?_put (c : Keyed key) (a : α) (k : κ) :
    (c.put a).get? k = if key a = k then some a else c.get? k := by
  refine Option.ext fun b => ?_
  rw [get?_eq_some_iff, mem_entries_put]
  by_cases h : key a = k
  · subst h
    rw [if_pos rfl, Option.some.injEq]
    constructor
    · rintro ⟨rfl | ⟨-, hne⟩, hb⟩
      · rfl
      · exact absurd hb hne
    · rintro rfl
      exact ⟨.inl rfl, rfl⟩
  · rw [if_neg h, get?_eq_some_iff]
    constructor
    · rintro ⟨rfl | ⟨hb, -⟩, hk⟩
      · exact absurd hk h
      · exact ⟨hb, hk⟩
    · rintro ⟨hb, hk⟩
      exact ⟨.inr ⟨hb, fun hba => h (hba.symm.trans hk)⟩, hk⟩

theorem index?_eq (c : Keyed key) (k : κ) : c.index? k = c.keys.findIdx? (· = k) := by
  rw [keys, List.findIdx?_map]
  rfl

theorem index?_put_of_mem (h : key a ∈ c.keys) (k : κ) : (c.put a).index? k = c.index? k := by
  rw [index?_eq, index?_eq, keys_put, if_pos h]

theorem index?_put_of_notMem (h : key a ∉ c.keys) (k : κ) :
    (c.put a).index? k = if key a = k then some c.entries.length else c.index? k := by
  rw [index?_eq, index?_eq, keys_put, if_neg h, List.findIdx?_append]
  by_cases hk : key a = k
  · subst hk
    have hnone : c.keys.findIdx? (· = key a) = none :=
      List.findIdx?_eq_none_iff.2 fun x hx => decide_eq_false fun hxa => h (hxa ▸ hx)
    rw [hnone, Option.none_or]
    simp [keys]
  · simp [hk]

theorem index?_eq_none_iff {k : κ} : c.index? k = none ↔ k ∉ c.keys := by
  rw [index?_eq, List.findIdx?_eq_none_iff]
  simp only [decide_eq_false_iff_not]
  exact ⟨fun h hk => h k hk rfl, fun h x hx hxk => h (hxk ▸ hx)⟩

theorem key_getElem_eq_iff {i j : Nat} (hi : c.index? (key a) = some i) (hj : j < c.entries.length) :
    key c.entries[j] = key a ↔ i = j := by
  obtain ⟨hi, hkey, -⟩ := List.findIdx?_eq_some_iff_getElem.1 hi
  have hinj := @List.Nodup.getElem_inj_iff _ _ c.distinct i (by simpa using hi) j (by simpa using hj)
  rw [List.getElem_map, List.getElem_map, of_decide_eq_true hkey] at hinj
  exact eq_comm.trans hinj

/-- Replacing an entry by its key is replacing what is at its place. -/
theorem replaceIn_eq_set {i : Nat} (h : c.index? (key a) = some i) :
    replaceIn key c.entries a = c.entries.set i a := by
  refine List.ext_getElem (by simp [replaceIn]) fun j hj hj' => ?_
  have hjc : j < c.entries.length := by simpa using hj'
  simp only [replaceIn, List.getElem_map, List.getElem_set, key_getElem_eq_iff h hjc]

theorem bind_index? (c : Keyed key) (k : κ) : (c.index? k).bind (c.entries[·]?) = c.get? k := by
  cases h : c.index? k with
  | none =>
      refine (List.find?_eq_none.2 fun b hb hbk => ?_).symm
      exact index?_eq_none_iff.1 h (of_decide_eq_true hbk ▸ List.mem_map_of_mem hb)
  | some i =>
      obtain ⟨hi, hkey, -⟩ := List.findIdx?_eq_some_iff_getElem.1 h
      rw [Option.bind_some, List.getElem?_eq_getElem hi, eq_comm, get?_eq_some_iff]
      exact ⟨List.getElem_mem hi, of_decide_eq_true hkey⟩

theorem get?_eq_none_iff {k : κ} : c.get? k = none ↔ k ∉ c.keys := by
  simp [get?, keys]

/-- The entries are what is found by the keys, in their order. -/
theorem map_get?_keys (c : Keyed key) : c.keys.map c.get? = c.entries.map some := by
  rw [keys, List.map_map]
  exact List.map_congr_left fun b hb => get?_eq_some_iff.2 ⟨hb, rfl⟩

/-! ## A list of entries -/

theorem ofList_append_singleton (as : List α) (a : α) : (ofList (as ++ [a]) : Keyed key) = (ofList as).put a :=
  List.foldl_append

theorem eraseDups_append_singleton (ks : List κ) (k : κ) :
    (ks ++ [k]).eraseDups = if k ∈ ks then ks.eraseDups else ks.eraseDups ++ [k] := by
  rw [List.eraseDups_append]
  by_cases h : k ∈ ks <;> simp [List.removeAll, List.eraseDups_cons, h]

/-- Keys stand in the order in which they were first added. -/
theorem keys_ofList (as : List α) : (ofList as : Keyed key).keys = (as.map key).eraseDups := by
  induction as using List.reverseRecOn with
  | nil => rfl
  | append_singleton as a ih =>
      rw [ofList_append_singleton, keys_put, ih, List.map_append, List.map_singleton, eraseDups_append_singleton]
      simp only [List.mem_eraseDups]

/-- The last entry that was added with a key is found. -/
theorem get?_ofList (as : List α) (k : κ) : (ofList as : Keyed key).get? k = as.reverse.find? (key · = k) := by
  induction as using List.reverseRecOn with
  | nil => rfl
  | append_singleton as a ih =>
      rw [ofList_append_singleton, get?_put, ih, List.reverse_append, List.reverse_singleton, List.singleton_append,
        List.find?_cons]
      by_cases h : key a = k
      · rw [if_pos h, decide_eq_true h]
      · rw [if_neg h, decide_eq_false h]

end Keyed

/-! ## Entries with an index of their places -/

/-- Entries, and the place of the entry of each key. -/
structure Indexed (key : α → κ) where
  entries : List α
  places : List (κ × Nat)

namespace Indexed

def empty : Indexed key := ⟨[], []⟩

def get? (x : Indexed key) (k : κ) : Option α := (x.places.lookup k).bind (x.entries[·]?)

def contains (x : Indexed key) (k : κ) : Bool := (x.places.lookup k).isSome

/-- Sets the entry at the place of its key, or adds it at the end and notes its place. -/
def put (x : Indexed key) (a : α) : Indexed key :=
  match x.places.lookup (key a) with
  | some i => { x with entries := x.entries.set i a }
  | none => ⟨x.entries ++ [a], (key a, x.entries.length) :: x.places⟩

/-- The entries of a list, put one after the other. -/
def ofList (as : List α) : Indexed key := as.foldl put empty

/-- The entries are those of the collection, and the index tells their places. -/
structure Represents (x : Indexed key) (c : Keyed key) : Prop where
  entries_eq : x.entries = c.entries
  lookup_eq : ∀ k, x.places.lookup k = c.index? k

variable {x : Indexed key} {c : Keyed key}

theorem Represents.get?_eq (h : x.Represents c) (k : κ) : x.get? k = c.get? k := by
  rw [get?, h.lookup_eq, h.entries_eq, Keyed.bind_index?]

theorem Represents.contains_eq (h : x.Represents c) (k : κ) : x.contains k = c.contains k := by
  rw [contains, h.lookup_eq, Bool.eq_iff_iff, Keyed.contains_iff, Option.isSome_iff_ne_none, ne_eq,
    Keyed.index?_eq_none_iff, not_not]

/-- **The index tells the places of all entries after one more of them.** -/
theorem Represents.put (h : x.Represents c) (a : α) : (x.put a).Represents (c.put a) := by
  unfold Indexed.put
  rw [h.lookup_eq]
  cases hi : c.index? (key a) with
  | some i =>
      have ha : key a ∈ c.keys := by
        by_contra hnew
        exact nomatch hi.symm.trans (Keyed.index?_eq_none_iff.2 hnew)
      constructor
      case entries_eq => rw [Keyed.entries_put_of_mem ha, Keyed.replaceIn_eq_set hi, h.entries_eq]
      case lookup_eq => exact fun k => (h.lookup_eq k).trans (Keyed.index?_put_of_mem ha k).symm
  | none =>
      have ha : key a ∉ c.keys := Keyed.index?_eq_none_iff.1 hi
      constructor
      case entries_eq => rw [Keyed.entries_put_of_notMem ha, h.entries_eq]
      case lookup_eq =>
        intro k
        rw [Keyed.index?_put_of_notMem ha]
        by_cases hk : key a = k
        · subst hk
          rw [if_pos rfl, List.lookup_cons_self, h.entries_eq]
        · rw [if_neg hk, lookup_cons_of_ne (Ne.symm hk), h.lookup_eq]

theorem represents_foldl_put (h : x.Represents c) (as : List α) : (as.foldl put x).Represents (as.foldl .put c) := by
  induction as generalizing x c with
  | nil => exact h
  | cons a as ih => exact ih (h.put a)

/-- The index and the entries never drift apart. -/
theorem represents_ofList (as : List α) : (ofList as : Indexed key).Represents (.ofList as) :=
  represents_foldl_put ⟨rfl, fun _ => rfl⟩ as

end Indexed

/-! ## All that is found -/

namespace Keyed

/-- The last of the entries that were added with a key. -/
def IsLast (key : α → κ) (added : List α) (k : κ) (a : α) : Prop :=
  ∃ before after, added = before ++ a :: after ∧ key a = k ∧ ∀ b ∈ after, key b ≠ k

theorem find?_reverse_eq_some_iff {added : List α} {k : κ} {a : α} :
    added.reverse.find? (key · = k) = some a ↔ IsLast key added k a := by
  rw [List.find?_eq_some_iff_append]
  constructor
  · rintro ⟨hk, after, before, hsplit, hafter⟩
    refine ⟨before.reverse, after.reverse, ?_, of_decide_eq_true hk, fun b hb => ?_⟩
    · rw [← List.reverse_inj, hsplit]
      simp
    · simpa using hafter b (List.mem_reverse.1 hb)
  · rintro ⟨before, after, rfl, hk, hafter⟩
    refine ⟨decide_eq_true hk, after.reverse, before.reverse, by simp, fun b hb => ?_⟩
    simpa using hafter b (List.mem_reverse.1 hb)

/-- What a collection has of the entries that were added to it: of each key the last, at the place of the first. -/
structure HoldsLast (c : Keyed key) (added : List α) : Prop where
  /-- Each key stands once, in the order in which keys were first added. -/
  keys_nodup : c.keys.Nodup
  keys_eq : c.keys = (added.map key).eraseDups
  /-- Under a key that was added the last entry with it is found, and nothing under any other. -/
  get?_iff : ∀ k a, c.get? k = some a ↔ IsLast key added k a
  get?_none_iff : ∀ k, c.get? k = none ↔ k ∉ added.map key
  contains_eq : ∀ k, c.contains k = (c.get? k).isSome
  /-- The entries are those that are found under the keys, in the order of the keys. -/
  entries_eq : c.entries.map some = c.keys.map c.get?
  /-- With an index of places it is all the same. -/
  indexed_entries : (Indexed.ofList added : Indexed key).entries = c.entries
  indexed_get? : ∀ k, (Indexed.ofList added : Indexed key).get? k = c.get? k
  indexed_contains : ∀ k, (Indexed.ofList added : Indexed key).contains k = c.contains k

/-- **A collection holds the last of what was added**, in whatever way keys were repeated. -/
theorem holdsLast_ofList (added : List α) : (ofList added : Keyed key).HoldsLast added := by
  have hindexed : (Indexed.ofList added : Indexed key).Represents (ofList added) := Indexed.represents_ofList added
  constructor
  case keys_nodup => exact (ofList added).distinct
  case keys_eq => exact keys_ofList added
  case get?_iff => exact fun k a => by rw [get?_ofList, find?_reverse_eq_some_iff]
  case get?_none_iff => exact fun k => by rw [get?_eq_none_iff, keys_ofList, List.mem_eraseDups]
  case contains_eq =>
    intro k
    rw [Bool.eq_iff_iff, contains_iff, Option.isSome_iff_ne_none, ne_eq, get?_eq_none_iff, not_not]
  case entries_eq => exact (map_get?_keys _).symm
  case indexed_entries => exact hindexed.entries_eq
  case indexed_get? => exact hindexed.get?_eq
  case indexed_contains => exact hindexed.contains_eq

end Keyed

end ShapeTypes
