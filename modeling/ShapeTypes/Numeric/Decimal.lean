import ShapeTypes.Numeric.Integer
import ShapeTypes.Numeric.Power

/-!
# Decimals with eighteen places

A decimal is held as the integer that is its value times 10^18, within 128 bits with sign.

* `Decimal.read` — from `[+-]?([0-9]+(\.[0-9]*)?|\.[0-9]+)`, zeros at the end of the fraction aside;
* `DecimalError` — why a text is none. Faults count in reading order: a bad character or an accumulated
  value outside the range where it occurs, then more than eighteen places, then a scaled value outside
  the range;
* `Decimal.text` — the canonical text: no plus sign, no zeros at the end, no point without places.
-/

namespace ShapeTypes.Numeric

/-- Why a text is not a decimal. -/
inductive DecimalError where
  | unexpectedEnd
  | unexpectedCharacter
  | overflow
  | underflow
  deriving DecidableEq

def DecimalError.message : DecimalError → String
  | .unexpectedEnd => "Unexpected end of string"
  | .unexpectedCharacter => "Unexpected character"
  | .overflow => "Value overflow"
  | .underflow => "Value underflow"

/-- A decimal number, held as its value times 10^18. -/
structure Decimal where
  scaled : Int
  deriving DecidableEq, Inhabited

namespace Decimal

def places : Nat := 18

/-- Whether an integer has 128 bits with sign. -/
def inRange (v : Int) : Bool := -(pow2 127 : Int) ≤ v && v < pow2 127

/-- The value if it is in range. -/
def checked (v : Int) : Except DecimalError Int :=
  if inRange v then .ok v else .error .overflow

/-- Appends one digit, away from zero on the side of the sign. -/
def appendDigit (negative : Bool) (value : Int) (d : Nat) : Except DecimalError Int :=
  checked (value * 10 + if negative then -(d : Int) else d)

/-- Appends the leading digits of the text; gives the value and the rest. -/
def readWhole (negative : Bool) (value : Int) : List Char → Except DecimalError (Int × List Char)
  | [] => .ok (value, [])
  | c :: rest =>
    match digit? c with
    | none => .ok (value, c :: rest)
    | some d => do readWhole negative (← appendDigit negative value d) rest

/-- Appends the digits of a fraction, which must hold nothing else. -/
def readFraction (negative : Bool) (value : Int) : List Char → Except DecimalError Int
  | [] => .ok value
  | c :: rest =>
    match digit? c with
    | none => .error .unexpectedCharacter
    | some d => do readFraction negative (← appendDigit negative value d) rest

/-- The characters without the zeros at the end. -/
def dropTrailingZeros (cs : List Char) : List Char :=
  (cs.reverse.dropWhile (· = '0')).reverse

def splitSign : List Char → Bool × List Char
  | '+' :: rest => (false, rest)
  | '-' :: rest => (true, rest)
  | rest => (false, rest)

def readUnsigned (negative : Bool) (cs : List Char) : Except DecimalError Decimal := do
  let hasWhole := (cs.head?.bind digit?).isSome
  let (whole, rest) ← readWhole negative 0 cs
  match rest with
  | [] =>
    if hasWhole then return ⟨← checked (whole * pow10 places)⟩ else throw .unexpectedEnd
  | c :: fraction =>
    if c ≠ '.' then throw .unexpectedCharacter
    if fraction.isEmpty && !hasWhole then throw .unexpectedEnd
    let digits := dropTrailingZeros fraction
    let value ← readFraction negative whole digits
    if places < digits.length then throw .underflow
    return ⟨← checked (value * pow10 (places - digits.length))⟩

def read (s : String) : Except DecimalError Decimal :=
  let (negative, rest) := splitSign s.toList
  readUnsigned negative rest

/-- The canonical text of the value. -/
def text (x : Decimal) : String :=
  let n := x.scaled.natAbs
  let whole := toString (n / pow10 places)
  let fraction := Nat.toDigits 10 (pow10 places + n % pow10 places) |>.drop 1
  let shown := dropTrailingZeros fraction
  (if x.scaled < 0 then "-" else "") ++ whole ++
    (if shown.isEmpty then "" else String.ofList ('.' :: shown))

end Decimal

end ShapeTypes.Numeric
