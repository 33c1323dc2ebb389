/-!
# Hexadecimal text

* `hex` — the digits of a number, lower case, no padding;
* `hexUpper4` — four digits, upper case;
* `hexValue?` — the value of one digit of either case.
-/

namespace ShapeTypes.Text

/-- The hexadecimal digits of `n`, lower case. -/
def hex (n : Nat) : List Char := Nat.toDigits 16 n

/-- The digit of value `n < 16`, upper case. -/
def upperDigit (n : Nat) : Char :=
  if n < 10 then Char.ofNat (48 + n) else Char.ofNat (55 + n)

/-- The last four hexadecimal digits of `n`, upper case, padded with zeros. -/
def hexUpper4 (n : Nat) : List Char :=
  [n / 4096 % 16, n / 256 % 16, n / 16 % 16, n % 16].map upperDigit

/-- The value of a hexadecimal digit of either case. -/
def hexValue? (c : Char) : Option Nat :=
  if '0' ≤ c && c ≤ '9' then some (c.toNat - 48)
  else if 'a' ≤ c && c ≤ 'f' then some (c.toNat - 87)
  else if 'A' ≤ c && c ≤ 'F' then some (c.toNat - 55)
  else none

end ShapeTypes.Text
