/-!
# Collections keyed by a part of their entries

A collection in insertion order with one entry for each key. Putting an entry whose key is present
replaces that entry in its place.

* `Keyed` — the collection; that keys are distinct is part of the type;
* `Keyed.put`, `Keyed.get?`, `Keyed.contains`, `Keyed.index?`;
* `Keyed.keys_put` — a new key comes last, and other entries leave the keys as they are.
-/

namespace ShapeTypes

variable {κ α : Type} {key : α → κ}

/-- Entries in insertion order, one for each key. -/
structure Keyed (key : α → κ) where
  entries : List α
  distinct : (entries.map key).Nodup

namespace Keyed

def empty : Keyed key := ⟨[], List.nodup_nil⟩

instance : Inhabited (Keyed key) := ⟨empty⟩

/-- The keys, in insertion order. -/
def keys (c : Keyed key) : List κ := c.entries.map key

def size (c : Keyed key) : Nat := c.entries.length

variable [DecidableEq κ]

def contains (c : Keyed key) (k : κ) : Bool := c.entries.any fun b => key b = k

theorem contains_iff {c : Keyed key} {k : κ} : c.contains k = true ↔ k ∈ c.keys := by
  simp [contains, keys]

def get? (c : Keyed key) (k : κ) : Option α := c.entries.find? fun b => key b = k

/-- The position of the entry with the key. -/
def index? (c : Keyed key) (k : κ) : Option Nat := c.entries.findIdx? fun b => key b = k

/-- The entries with `a` in the place of the one that has its key. -/
def replaceIn (key : α → κ) (entries : List α) (a : α) : List α :=
  entries.map fun b => if key b = key a then a else b

theorem map_key_replaceIn (key : α → κ) (entries : List α) (a : α) :
    (replaceIn key entries a).map key = entries.map key := by
  simp only [replaceIn, List.map_map]
  refine List.map_congr_left fun b _ => ?_
  simp only [Function.comp_apply]
  split
  · rename_i h; exact h.symm
  · rfl

/-- Adds an entry at the end, or replaces the one that has its key. -/
def put (c : Keyed key) (a : α) : Keyed key :=
  if h : key a ∈ c.keys then
    ⟨replaceIn key c.entries a, by rw [map_key_replaceIn]; exact c.distinct⟩
  else
    ⟨c.entries ++ [a], by
      rw [List.map_append, List.nodup_append]
      refine ⟨c.distinct, by simp, fun x hx y hy hxy => ?_⟩
      simp only [List.map_cons, List.map_nil, List.mem_singleton] at hy
      exact h (hy ▸ hxy ▸ hx)⟩

/-- The collection of a list of entries, put one after the other. -/
def ofList (as : List α) : Keyed key := as.foldl put empty

theorem keys_put (c : Keyed key) (a : α) :
    (c.put a).keys = if key a ∈ c.keys then c.keys else c.keys ++ [key a] := by
  unfold put
  split
  · simp only [keys]; rw [map_key_replaceIn]
  · simp [keys]

end Keyed

end ShapeTypes
