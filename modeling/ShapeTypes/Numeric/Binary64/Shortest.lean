import ShapeTypes.Numeric.Binary64

/-!
# The shortest decimal that reads back

* `shortest` — of the decimals that round to a positive finite number, the ones with the fewest digits,
  and of those the nearest; an exact tie goes up;
* `Binary64.text` — positional from 10^-4 up to below 10^16, with at least one place; otherwise one digit,
  the others as places, and `e` with the exponent.
-/

namespace ShapeTypes.Numeric.Binary64

/-- A positive decimal `digits · 10 ^ exponent`. -/
structure Digits where
  digits : Nat
  exponent : Int

/-- A positive real with the reals around it that round to the same number, all over one denominator;
`closed` tells whether the ends round to it too. -/
structure Neighbourhood where
  low : Nat
  value : Nat
  high : Nat
  den : Nat
  closed : Bool

/-- The neighbourhood of `m · 2 ^ q`. Below a power of two the next number is half as far. -/
def neighbourhood (m : Nat) (q : Int) : Neighbourhood :=
  let up := if 2 ≤ q then pow2 (q - 2).toNat else 1
  let den := if 2 ≤ q then 1 else pow2 (2 - q).toNat
  let below := if m = pow2 52 ∧ -1074 < q then 1 else 2
  { low := (4 * m - below) * up, value := 4 * m * up, high := (4 * m + 2) * up, den := den
    closed := m % 2 = 0 }

/-- Whether `c · 10 ^ k` lies in the neighbourhood. -/
def Neighbourhood.holds (n : Neighbourhood) (c : Nat) (k : Int) : Bool :=
  let x := c * (if 0 ≤ k then pow10 k.toNat else 1) * n.den
  let scale := if 0 ≤ k then 1 else pow10 (-k).toNat
  if n.closed then n.low * scale ≤ x && x ≤ n.high * scale
  else n.low * scale < x && x < n.high * scale

/-- The greatest `c` with `c · 10 ^ k` at most the value. -/
def Neighbourhood.floor (n : Neighbourhood) (k : Int) : Nat :=
  if 0 ≤ k then n.value / (n.den * pow10 k.toNat) else n.value * pow10 (-k).toNat / n.den

/-- Whether `(c + 1) · 10 ^ k` is as near to the value as `c · 10 ^ k`, or nearer. -/
def Neighbourhood.upIsNearer (n : Neighbourhood) (c : Nat) (k : Int) : Bool :=
  let grid := if 0 ≤ k then pow10 k.toNat else 1
  let scale := if 0 ≤ k then 1 else pow10 (-k).toNat
  (2 * c + 1) * grid * n.den ≤ 2 * n.value * scale

/-- The multiple of `10 ^ k` in the neighbourhood that is nearest to the value, if there is one. -/
def Neighbourhood.onGrid? (n : Neighbourhood) (k : Int) : Option Digits :=
  let c := n.floor k
  match n.holds c k, n.holds (c + 1) k with
  | true, true => some ⟨if n.upIsNearer c k then c + 1 else c, k⟩
  | true, false => some ⟨c, k⟩
  | false, true => some ⟨c + 1, k⟩
  | false, false => none

/-- The exponent of the leading decimal digit of the value. -/
def Neighbourhood.magnitude (n : Neighbourhood) : Int :=
  (decimalLength (n.value * pow10 340 / n.den) : Int) - 341

/-- The shortest decimal in the neighbourhood; seventeen digits are always enough. -/
def Neighbourhood.shortest (n : Neighbourhood) : Digits :=
  let e := n.magnitude
  ((List.range 17).findSome? fun (i : Nat) => n.onGrid? (e - i)).getD ⟨n.floor (e - 16), e - 16⟩

/-- The shortest decimal that rounds to `m · 2 ^ q`. -/
def shortest (m : Nat) (q : Int) : Digits := (neighbourhood m q).shortest

/-! ## Text -/

/-- The digits of a decimal without zeros at the end, and the exponent of the leading one. -/
def Digits.scientific (d : Digits) : List Char × Int :=
  let cs := Nat.toDigits 10 d.digits
  let shown := (cs.reverse.dropWhile (· = '0')).reverse
  (shown, d.exponent + cs.length - 1)

/-- Positional text with at least one place; `e` is the exponent of the leading digit. -/
def positional (ds : List Char) (e : Int) : List Char :=
  if e < 0 then
    '0' :: '.' :: List.replicate (-e - 1).toNat '0' ++ ds
  else
    let whole := e.toNat + 1
    let fraction := ds.drop whole
    ds.take whole ++ List.replicate (whole - ds.length) '0' ++
      '.' :: (if fraction.isEmpty then ['0'] else fraction)

/-- One digit, the others as places, and the exponent. -/
def exponential (ds : List Char) (e : Int) : List Char :=
  let places := ds.drop 1
  ds.take 1 ++ (if places.isEmpty then [] else '.' :: places) ++ 'e' :: (toString e).toList

/-- The text of a magnitude that is finite and not zero. -/
def finiteText (m : Nat) (q : Int) : List Char :=
  let (ds, e) := (shortest m q).scientific
  if -5 < e && e < 16 then positional ds e else exponential ds e

def text (x : Binary64) : String :=
  if x.isNaN then "NaN"
  else
    let magnitude :=
      if x.isInfinite then "inf"
      else if x.significand = 0 then "0.0"
      else String.ofList (finiteText x.significand x.exponent)
    (if x.negative then "-" else "") ++ magnitude

end ShapeTypes.Numeric.Binary64
