import ShapeTypes.Default

/-!
# Cardinalities

* `Cardinality` — how many values a property takes;
* `Cardinality.row?` — the decision table: at most one value is an option, exactly one is plain, anything else
  is a set; `Cardinality.isSome_row?` — it has a row for all bounds;
* `Cardinality.ofBounds` — the cardinality of bounds, a default and mutability: a default gives a plain
  value, and decides alone;
* `Cardinality.admits` — the numbers of values a cardinality allows.
-/

namespace ShapeTypes

/-- How many values an item type takes: at most one; exactly one, for which a default can stand in; or a
set of at least `minCount`. -/
inductive Cardinality where
  | option
  | plain (default : Option DefaultValue)
  | set (minCount : Nat) (mutable : Bool)
  deriving DecidableEq, Inhabited

/-- A lower bound above the upper bound. -/
structure BoundsReversed where
  min : Nat
  max : Nat
  deriving DecidableEq

namespace Cardinality

/-- The decision table without a default: the cardinality of the first row that applies. The last row wants a
bound, so that bounds without a row are thinkable. -/
def row? (min max : Option Nat) (mutable : Bool) : Option Cardinality :=
  match min, max with
  | none, none => some (.set 0 mutable)
  | none, some 1 => some .option
  | some 0, some 1 => some .option
  | some 1, some 1 => some (.plain none)
  | min, max => if min.isSome || max.isSome then some (.set (min.getD 0) mutable) else none

/-- **The table does not fall through**: it has a row for all bounds. -/
theorem isSome_row? (min max : Option Nat) (mutable : Bool) : (row? min max mutable).isSome = true := by
  unfold row?
  split
  · rfl
  · rfl
  · rfl
  · rfl
  · rename_i hnone _ _ _
    cases min with
    | none =>
        cases max with
        | none => exact absurd rfl (hnone rfl)
        | some hi => rfl
    | some lo => rfl

/-- The cardinality without a default. -/
def ofCounts (min max : Option Nat) (mutable : Bool) : Cardinality :=
  (row? min max mutable).get (isSome_row? min max mutable)

theorem row?_eq (min max : Option Nat) (mutable : Bool) :
    row? min max mutable = some (ofCounts min max mutable) :=
  (Option.some_get (isSome_row? min max mutable)).symm

/-- The cardinality of bounds, a default value and mutability. Reversed bounds are refused first. -/
def ofBounds (min max : Option Nat) (default : Option DefaultValue) (mutable : Bool) :
    Except BoundsReversed Cardinality :=
  match min, max with
  | some lo, some hi => if hi < lo then .error ⟨lo, hi⟩ else .ok (result min max)
  | _, _ => .ok (result min max)
where
  /-- The cardinality once the bounds are in order. -/
  result (min max : Option Nat) : Cardinality :=
    if default.isSome then .plain default else ofCounts min max mutable

/-- Whether `n` values are allowed. -/
def admits : Cardinality → Nat → Prop
  | .option, n => n ≤ 1
  | .plain _, n => n = 1
  | .set min _, n => min ≤ n

def text : Cardinality → String
  | .option => "Option"
  | .plain none => "Plain"
  | .plain (some d) => "Plain(default = " ++ d.text ++ ")"
  | .set min true => "MutableSet(min = " ++ toString min ++ ")"
  | .set min false => "Set(min = " ++ toString min ++ ")"

end Cardinality

end ShapeTypes
