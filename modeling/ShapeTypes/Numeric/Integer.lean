/-!
# Reading integers

* `Integer.read` — an integer of 64 bits with sign, from an optional sign and ASCII digits;
* `IntegerError` — why a text is none; the leftmost fault counts, and a bad digit counts before an
  overflow at the same place;
* `readCount?` — a natural number below 2^64, from an optional plus sign and ASCII digits.
-/

namespace ShapeTypes.Numeric

/-- The value of an ASCII digit. -/
def digit? (c : Char) : Option Nat :=
  if '0' ≤ c && c ≤ '9' then some (c.toNat - 48) else none

theorem digit?_lt {c : Char} {d : Nat} (h : digit? c = some d) : d < 10 := by
  unfold digit? at h
  split at h
  · rename_i hc
    simp only [Bool.and_eq_true, decide_eq_true_eq] at hc
    have h9 : c.toNat ≤ 57 := hc.2
    cases h
    omega
  · cases h

/-- Why a text is not a 64-bit integer. -/
inductive IntegerError where
  | empty
  | invalidDigit
  | tooLarge
  | tooSmall
  deriving DecidableEq

def IntegerError.message : IntegerError → String
  | .empty => "cannot parse integer from empty string"
  | .invalidDigit => "invalid digit found in string"
  | .tooLarge => "number too large to fit in target type"
  | .tooSmall => "number too small to fit in target type"

namespace Integer

/-- The least and the greatest integer of 64 bits, which are -2^63 and 2^63 - 1. -/
def least : Int := -0x8000000000000000

@[inherit_doc least]
def greatest : Int := 0x7fffffffffffffff

/-- Appends digits to a number that is not negative. -/
def readUp (value : Int) : List Char → Except IntegerError Int
  | [] => .ok value
  | c :: rest =>
    match digit? c with
    | none => .error .invalidDigit
    | some d =>
      let next := value * 10 + d
      if greatest < next then .error .tooLarge else readUp next rest

/-- Appends digits to a number that is not positive. -/
def readDown (value : Int) : List Char → Except IntegerError Int
  | [] => .ok value
  | c :: rest =>
    match digit? c with
    | none => .error .invalidDigit
    | some d =>
      let next := value * 10 - d
      if next < least then .error .tooSmall else readDown next rest

/-- Reads characters; a sign alone is an invalid digit. -/
def readChars : List Char → Except IntegerError Int
  | [] => .error .empty
  | ['+'] => .error .invalidDigit
  | ['-'] => .error .invalidDigit
  | '+' :: rest => readUp 0 rest
  | '-' :: rest => readDown 0 rest
  | rest => readUp 0 rest

def read (s : String) : Except IntegerError Int := readChars s.toList

end Integer

/-! ## Counts -/

/-- The value of a list of digits, or none when one is no digit. -/
def digitsValue? (value : Nat) : List Char → Option Nat
  | [] => some value
  | c :: rest => (digit? c).bind fun d => digitsValue? (value * 10 + d) rest

/-- A natural number below 2^64 from at least one digit, with an optional plus sign. -/
def readCount? (s : String) : Option Nat :=
  let digits := match s.toList with
    | '+' :: rest => rest
    | cs => cs
  if digits.isEmpty then none
  else (digitsValue? 0 digits).filter (· < 0x10000000000000000)

end ShapeTypes.Numeric
