import ShapeTypes.Numeric.Integer
import ShapeTypes.Numeric.Power

/-!
# Binary floating point numbers of 64 bits

A number is held as its bits, so that both zeros and every NaN stay apart.

* `Binary64.nearest` — the number nearest to `m · 10^e`, a tie to the even significand;
* `Binary64.read` — from decimal text, or `inf`, `infinity`, `nan` in any case, with an optional sign;
* `Binary64.orderKey` — the total order of the bit patterns: negative NaN, `-inf`, …, `-0`, `0`, …,
  `inf`, NaN.
-/

namespace ShapeTypes.Numeric

/-- A floating point number of 64 bits. -/
structure Binary64 where
  bits : UInt64
  deriving DecidableEq, Inhabited

/-- Why a text is not a floating point number. -/
inductive FloatError where
  | empty
  | invalid
  deriving DecidableEq

def FloatError.message : FloatError → String
  | .empty => "cannot parse float from empty string"
  | .invalid => "invalid float literal"

namespace Binary64

/-! ## Fields -/

/-- The sign bit. -/
def negative (x : Binary64) : Bool := 0x8000000000000000 ≤ x.bits.toNat

/-- The eleven bits of the exponent. -/
def exponentField (x : Binary64) : Nat := x.bits.toNat / pow2 52 % pow2 11

/-- The fifty-two bits of the fraction. -/
def fraction (x : Binary64) : Nat := x.bits.toNat % pow2 52

/-- Whether the number is a NaN of either sign. -/
def isNaN (x : Binary64) : Bool := x.exponentField = 2047 && x.fraction ≠ 0

/-- Whether the number is an infinity of either sign. -/
def isInfinite (x : Binary64) : Bool := x.exponentField = 2047 && x.fraction = 0

/-- The significand of a finite number; its magnitude is `significand · 2 ^ exponent`. -/
def significand (x : Binary64) : Nat :=
  if x.exponentField = 0 then x.fraction else pow2 52 + x.fraction

/-- The binary exponent of a finite number. -/
def exponent (x : Binary64) : Int :=
  if x.exponentField = 0 then -1074 else (x.exponentField : Int) - 1075

/-- The place of the number in the total order of the bit patterns. -/
def orderKey (x : Binary64) : Int :=
  if x.negative then 0x7fffffffffffffff - (x.bits.toNat : Int) else x.bits.toNat

theorem orderKey_injective {x y : Binary64} (h : x.orderKey = y.orderKey) : x = y := by
  unfold orderKey negative at h
  have hx := x.bits.toNat_lt
  have hy := y.bits.toNat_lt
  have hn : x.bits.toNat = y.bits.toNat := by
    simp only [decide_eq_true_eq] at h
    split at h <;> split at h <;> omega
  cases x; cases y
  simp only [mk.injEq]
  exact UInt64.toNat_inj.mp hn

/-! ## Building -/

def infinityBits : Nat := 2047 * pow2 52

/-- The number of the given sign and magnitude bits. -/
def ofMagnitude (negative : Bool) (magnitude : Nat) : Binary64 :=
  ⟨UInt64.ofNat (if negative then pow2 63 + magnitude else magnitude)⟩

/-- The quotient, rounded to the nearest integer, a tie to the even one. -/
def divToEven (num den : Nat) : Nat :=
  let q := num / den
  let r := num % den
  if den < 2 * r || (2 * r = den && q % 2 = 1) then q + 1 else q

/-- The binary exponent of the least bit that a number of magnitude `num / den` can hold. -/
def gridExponent (num den : Nat) : Int :=
  let k : Int := (Nat.log2 num : Int) - Nat.log2 den
  let reaches : Bool := if 0 ≤ k then den * pow2 k.toNat ≤ num else den ≤ num * pow2 (-k).toNat
  max (if reaches then k - 52 else k - 53) (-1074)

/-- The magnitude bits nearest to `num / den`, for positive `num` and `den`. -/
def magnitudeOfRatio (num den : Nat) : Nat :=
  let q := gridExponent num den
  let m := if 0 ≤ q then divToEven num (den * pow2 q.toNat) else divToEven (num * pow2 (-q).toNat) den
  min ((q + 1074).toNat * pow2 52 + m) infinityBits

def decimalLength (n : Nat) : Nat := (Nat.toDigits 10 n).length

/-- The number nearest to `± m · 10 ^ e`. Magnitudes far outside the range are decided by their length. -/
def nearest (negative : Bool) (m : Nat) (e : Int) : Binary64 :=
  let magnitude :=
    if m = 0 then 0
    else if (decimalLength m : Int) + e > 310 then infinityBits
    else if (decimalLength m : Int) + e < -330 then 0
    else if 0 ≤ e then magnitudeOfRatio (m * pow10 e.toNat) 1
    else magnitudeOfRatio m (pow10 (-e).toNat)
  ofMagnitude negative magnitude

/-! ## Reading -/

/-- The leading digits appended to `value`, their number, and the rest. -/
def takeDigits (value count : Nat) : List Char → Nat × Nat × List Char
  | [] => (value, count, [])
  | c :: rest =>
    match digit? c with
    | none => (value, count, c :: rest)
    | some d => takeDigits (value * 10 + d) (count + 1) rest

/-- A decimal exponent with its optional sign, up to the end of the text. -/
def readExponent? (cs : List Char) : Option Int :=
  let (negative, digits) : Bool × List Char := match cs with
    | '-' :: rest => (true, rest)
    | '+' :: rest => (false, rest)
    | _ => (false, cs)
  let (value, count, rest) := takeDigits 0 0 digits
  if count = 0 || !rest.isEmpty then none
  else some (if negative then -(value : Int) else value)

/-- Decimal text without a sign: a significand and a decimal exponent. -/
def readDecimal? (cs : List Char) : Option (Nat × Int) :=
  let (whole, wholeCount, rest) := takeDigits 0 0 cs
  let (value, places, rest) := match rest with
    | '.' :: fraction => takeDigits whole 0 fraction
    | _ => (whole, 0, rest)
  if wholeCount + places = 0 then none
  else match rest with
    | [] => some (value, -(places : Int))
    | c :: rest =>
      if c = 'e' || c = 'E' then (readExponent? rest).map fun e => (value, e - places) else none

/-- The magnitude of a special value, named in any case. -/
def specialMagnitude? (cs : List Char) : Option Nat :=
  let name := cs.map Char.toLower
  if name = "inf".toList || name = "infinity".toList then some infinityBits
  else if name = "nan".toList then some (infinityBits + pow2 51)
  else none

def readUnsigned (negative : Bool) (cs : List Char) : Except FloatError Binary64 :=
  match readDecimal? cs with
  | some (m, e) => .ok (nearest negative m e)
  | none =>
    match specialMagnitude? cs with
    | some magnitude => .ok (ofMagnitude negative magnitude)
    | none => .error .invalid

def read (s : String) : Except FloatError Binary64 :=
  match s.toList with
  | [] => .error .empty
  | '-' :: rest => readUnsigned true rest
  | '+' :: rest => readUnsigned false rest
  | cs => readUnsigned false cs

end Binary64

end ShapeTypes.Numeric
