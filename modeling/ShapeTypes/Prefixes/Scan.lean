import ShapeTypes.Prefixes.Table
import ShapeTypes.Text.WordCharacter

/-!
# Prefix declarations by line

Prefixes are also found without reading a document as such: a line that declares one, in white space, an
optional `@`, the word `prefix` in either case, a label, a colon and a namespace in angle brackets, counts
wherever it stands, in a long string too.

* `declaration?` — the declaration at the beginning of a line, with what follows it;
* `scannedDeclarations` — those of all lines, in order;
* `PrefixTable.ofLines` — the table that they make; the last declaration of a label counts.
-/

namespace ShapeTypes

open Text

/-- What follows the word `prefix`, in either case. -/
def afterPrefixWord? (cs : List Char) : Option (List Char) :=
  if (cs.take 6).map Char.toLower = "prefix".toList then some (cs.drop 6) else none

/-- The characters that a label can begin with: ASCII letters, and the long s and the Kelvin sign, which are
the letters s and k in another case. -/
def isLabelStart (c : Char) : Bool := c.isAlpha || c == 'ſ' || c == '\u212a'

/-- The characters that a label can go on with. -/
def isLabelChar (c : Char) : Bool := isWord c || c == '.' || c == '-'

/-- The label before a colon, which may be empty, and what follows the colon. -/
def labelAndRest? (cs : List Char) : Option (List Char × List Char) :=
  match cs with
  | ':' :: rest => some ([], rest)
  | c :: _ =>
    if isLabelStart c then
      match cs.dropWhile isLabelChar with
      | ':' :: rest => some (cs.takeWhile isLabelChar, rest)
      | _ => none
    else none
  | [] => none

/-- The namespace between angle brackets, and what follows it. -/
def spaceAndRest? (cs : List Char) : Option (List Char × List Char) :=
  match cs with
  | '<' :: inner =>
    match inner.dropWhile (· ≠ '>') with
    | _ :: rest => some (inner.takeWhile (· ≠ '>'), rest)
    | [] => none
  | _ => none

/-- The text without the `@` at its beginning, if there is one. -/
def dropAt : List Char → List Char
  | '@' :: rest => rest
  | cs => cs

/-- The declaration at the beginning of a line, and what follows it. -/
def declaration? (cs : List Char) : Option (Binding × List Char) := do
  let rest ← afterPrefixWord? (dropAt (cs.dropWhile isSpace))
  if !rest.head?.any isSpace then none
  let (label, rest) ← labelAndRest? (rest.dropWhile isSpace)
  let (space, rest) ← spaceAndRest? (rest.dropWhile isSpace)
  return (⟨String.ofList label, String.ofList space⟩, rest)

/-- The declarations of a text. `fuel` need not exceed its length, since a declaration is not empty. -/
def scanFrom : Nat → Bool → List Char → List Binding
  | 0, _, _ => []
  | _ + 1, _, [] => []
  | fuel + 1, atLineStart, c :: rest =>
    match (if atLineStart then declaration? (c :: rest) else none) with
    | some (b, rest) => b :: scanFrom fuel false rest
    | none => scanFrom fuel (c = '\n') rest

/-- The declarations at the beginnings of lines, in order. -/
def scannedDeclarations (s : String) : List Binding := scanFrom s.length true s.toList

/-- The table of the declarations at the beginnings of lines. -/
def PrefixTable.ofLines (s : String) : PrefixTable :=
  (scannedDeclarations s).foldl (fun t b => t.insert b.label b.space) .empty

end ShapeTypes
