import ShapeTypes.Cardinality

/-!
# When bounds have a cardinality

* `Cardinality.InOrder` — a lower bound is not above the upper one;
* `Cardinality.ofBounds_eq_ok_iff` — **bounds have a cardinality exactly when they are in order**, and a
  default decides alone; `eq_some_of_ofBounds` — only the default is recorded;
* `Cardinality.admits_of_row?`, `Cardinality.admits_of_ofBounds` — **every number of values within the bounds
  is admitted.**
-/

namespace ShapeTypes

namespace Cardinality

variable {min max : Option Nat} {default : Option DefaultValue} {mutable : Bool} {c : Cardinality}

/-- The lower bound is not above the upper one. -/
def InOrder (min max : Option Nat) : Prop := ∀ lo hi, min = some lo → max = some hi → lo ≤ hi

/-- A number of values is within the bounds. -/
def Within (min max : Option Nat) (n : Nat) : Prop := min.getD 0 ≤ n ∧ ∀ hi, max = some hi → n ≤ hi

/-- **Bounds have a cardinality exactly when they are in order.** -/
theorem ofBounds_eq_ok_iff : ofBounds min max default mutable = .ok c ↔
    InOrder min max ∧ c = if default.isSome then .plain default else ofCounts min max mutable := by
  unfold ofBounds InOrder
  split
  · rename_i lo hi
    by_cases hlt : hi < lo
    · rw [if_pos hlt]
      constructor
      · intro h
        cases h
      · rintro ⟨horder, -⟩
        have hle := horder lo hi rfl rfl
        omega
    · rw [if_neg hlt, Except.ok.injEq, eq_comm (a := c)]
      have horder : ∀ lo' hi', some lo = some lo' → some hi = some hi' → lo' ≤ hi' := by
        intro lo' hi' hlo hhi
        cases hlo
        cases hhi
        omega
      exact ⟨fun h => ⟨horder, h⟩, fun h => h.2⟩
  · rename_i hnone
    rw [Except.ok.injEq, eq_comm (a := c)]
    exact ⟨fun h => ⟨fun lo hi hlo hhi => absurd hhi (hnone lo hi hlo), h⟩, fun h => h.2⟩

theorem eq_plain_of_ofBounds {d : DefaultValue} (h : ofBounds min max (some d) mutable = .ok c) :
    c = .plain (some d) :=
  (ofBounds_eq_ok_iff.1 h).2

/-- Counts alone give no default. -/
theorem ofCounts_ne_plain (d : DefaultValue) : ofCounts min max mutable ≠ .plain (some d) := by
  intro h
  have hrow := row?_eq min max mutable
  rw [h] at hrow
  unfold row? at hrow
  split at hrow
  · cases hrow
  · cases hrow
  · cases hrow
  · cases hrow
  · split at hrow <;> cases hrow

theorem eq_some_of_ofBounds {d : DefaultValue} (h : ofBounds min max default mutable = .ok (.plain (some d))) :
    default = some d := by
  obtain ⟨-, hc⟩ := ofBounds_eq_ok_iff.1 h
  split at hc
  · exact (Cardinality.plain.inj hc).symm
  · exact absurd hc.symm (ofCounts_ne_plain d)

/-- Every number of values within the bounds is admitted by the row that applies. -/
theorem admits_of_row? (h : row? min max mutable = some c) {n : Nat} (hn : Within min max n) :
    c.admits n := by
  obtain ⟨hlo, hhi⟩ := hn
  unfold row? at h
  split at h
  · cases h
    exact Nat.zero_le n
  · cases h
    exact hhi 1 rfl
  · cases h
    exact hhi 1 rfl
  · cases h
    have hle := hhi 1 rfl
    simp only [Option.getD_some] at hlo
    show n = 1
    omega
  · split at h
    · cases h
      exact hlo
    · cases h

/-- **Every number of values within the bounds is admitted.** -/
theorem admits_of_ofBounds (h : ofBounds min max none mutable = .ok c) {n : Nat} (hn : Within min max n) :
    c.admits n := by
  obtain ⟨-, rfl⟩ := ofBounds_eq_ok_iff.1 h
  exact admits_of_row? (row?_eq min max mutable) hn

end Cardinality

end ShapeTypes
