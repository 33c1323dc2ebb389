/-!
# Characters of Turtle names

* `isNameStart` — the characters that a prefix can begin with;
* `isNameChar` — those that a prefix, a local name or the label of a blank node can go on with;
* `isLocalStart` — those that a label of a blank node can begin with;
* `isEscapable` — those that a backslash may stand before in a local name;
* `isDoubtful` — those that make a name one whose IRI is checked.
-/

namespace ShapeTypes.Rdf.Turtle

/-- The ranges of the characters beyond ASCII that a prefix can begin with. -/
def nameStartRanges : List (Nat × Nat) := [
  (0xc0, 0xd6), (0xd8, 0xf6), (0xf8, 0x2ff), (0x370, 0x37d), (0x37f, 0x1fff), (0x200c, 0x200d),
  (0x2070, 0x218f), (0x2c00, 0x2fef), (0x3001, 0xd7ff), (0xf900, 0xfdcf), (0xfdf0, 0xfffd),
  (0x10000, 0xeffff)]

/-- Letters. -/
def isNameStart (c : Char) : Bool :=
  c.isAlpha || nameStartRanges.any fun r => r.1 ≤ c.toNat && c.toNat ≤ r.2

/-- Letters, digits, the underscore, the hyphen, the middle dot and combining marks. -/
def isNameChar (c : Char) : Bool :=
  isNameStart c || c.isDigit || c == '_' || c == '-' || c.toNat == 0xb7 ||
    (0x300 ≤ c.toNat && c.toNat ≤ 0x36f) || (0x203f ≤ c.toNat && c.toNat ≤ 0x2040)

/-- Letters, digits and the underscore. -/
def isLocalStart (c : Char) : Bool := isNameStart c || c.isDigit || c == '_'

/-- Punctuation that has to be escaped in a local name. -/
def isEscapable (c : Char) : Bool := "_~.-!$&'()*+,;=/?#@%".toList.contains c

/-- Characters of names that an IRI might not have: the specials, and the multiples of the two code points
that end the first plane. -/
def isDoubtful (c : Char) : Bool :=
  let n := c.toNat
  (0xfff0 ≤ n && n ≤ 0xfffd) || n % 0xfffe == 0 || n % 0xffff == 0

/-- White space between tokens. -/
def isBlank (c : Char) : Bool := c == ' ' || c == '\t' || c == '\r' || c == '\n'

end ShapeTypes.Rdf.Turtle
