import ShapeTypes.Rdf.Turtle.Character
import ShapeTypes.Text.Hex

/-!
# Turtle tokens

* `Token` — the tokens of a document, escapes resolved; IRIs are not checked here, but a name tells whether
  it has to be;
* `Token.read?` — the token at the beginning of a text, with what follows it;
* `tokens` — the tokens of a text, or what is left at the first place where none begins.

Names and numbers give the dots at their end back, since a dot also ends a statement.
-/

namespace ShapeTypes.Rdf.Turtle

open Text

/-- The three forms of numbers. -/
inductive NumberForm where
  | integer
  | decimal
  | double
  deriving DecidableEq

/-- Punctuation. -/
inductive Mark where
  | dot
  | semicolon
  | comma
  | openBracket
  | closeBracket
  | openParen
  | closeParen
  | datatype
  deriving DecidableEq

/-- A token: an IRI reference, a prefixed name, a blank node, a string, a number, a word after `@`, a bare
word, or punctuation. A name is suspect if its local part may make an ill-formed IRI of a well-formed one. -/
inductive Token where
  | iri (text : List Char)
  | name (label reference : List Char) (suspect : Bool)
  | blank (label : List Char)
  | string (text : List Char)
  | number (form : NumberForm) (lexical : List Char)
  | tag (word : List Char)
  | word (text : List Char)
  | mark (mark : Mark)
  deriving DecidableEq

/-- Something read, with what follows it. -/
abbrev Cut (α : Type) := Option (α × List Char)

/-- The text read with one character before it. -/
def prepend (c : Char) (r : Cut (List Char)) : Cut (List Char) :=
  r.map fun (cs, rest) => (c :: cs, rest)

/-! ## Escapes -/

/-- The character of a code point in hexadecimal digits, the first of which may be a plus sign instead;
surrogates are none. -/
def codePoint? (digits : List Char) : Option Char := do
  let values ← (if digits.head? = some '+' then digits.tail else digits).mapM hexValue?
  let n := values.foldl (fun n d => n * 16 + d) 0
  if n.isValidChar then some (Char.ofNat n) else none

/-- The character that a letter stands for after a backslash in a string. -/
def escapedChar? (c : Char) : Option Char :=
  [('t', '\t'), ('b', '\x08'), ('n', '\n'), ('r', '\r'), ('f', '\x0c'), ('"', '"'), ('\'', '\''),
    ('\\', '\\')].lookup c

/-! ## IRI references and strings -/

/-- The characters up to the closing angle bracket, with `\u` and `\U` escapes resolved. -/
def readIri : List Char → Cut (List Char)
  | [] => none
  | c :: rest =>
    if c = '>' then some ([], rest)
    else if c = '\\' then
      match rest with
      | 'u' :: d1 :: d2 :: d3 :: d4 :: rest =>
        (codePoint? [d1, d2, d3, d4]).bind fun x => prepend x (readIri rest)
      | 'U' :: d1 :: d2 :: d3 :: d4 :: d5 :: d6 :: d7 :: d8 :: rest =>
        (codePoint? [d1, d2, d3, d4, d5, d6, d7, d8]).bind fun x => prepend x (readIri rest)
      | _ => none
    else prepend c (readIri rest)

/-- The characters up to the closing delimiter, which is three of a quote in a long string and one in a
short one, with escapes resolved. Only a long string goes over line ends. -/
def readString (long : Bool) (quote : Char) : List Char → Cut (List Char)
  | [] => none
  | c :: rest =>
    if c = quote then
      if long then
        match rest with
        | q1 :: q2 :: after =>
          if q1 = quote ∧ q2 = quote then some ([], after)
          else prepend c (readString long quote rest)
        | _ => none
      else some ([], rest)
    else if c = '\\' then
      match rest with
      | 'u' :: d1 :: d2 :: d3 :: d4 :: rest =>
        (codePoint? [d1, d2, d3, d4]).bind fun x => prepend x (readString long quote rest)
      | 'U' :: d1 :: d2 :: d3 :: d4 :: d5 :: d6 :: d7 :: d8 :: rest =>
        (codePoint? [d1, d2, d3, d4, d5, d6, d7, d8]).bind fun x =>
          prepend x (readString long quote rest)
      | e :: rest => (escapedChar? e).bind fun x => prepend x (readString long quote rest)
      | [] => none
    else if !long && (c = '\n' || c = '\r') then none
    else prepend c (readString long quote rest)

/-- The string after its first quote. -/
def readQuoted (quote : Char) (rest : List Char) : Cut (List Char) :=
  match rest with
  | q1 :: q2 :: after =>
    if q1 = quote ∧ q2 = quote then readString true quote after else readString false quote rest
  | _ => readString false quote rest

/-! ## Names -/

/-- The characters that pass a test and dots; the dots at the end are given back. -/
def readDotted (ok : Char → Bool) : List Char → List Char × List Char
  | [] => ([], [])
  | c :: rest =>
    if ok c then
      let (cs, rest) := readDotted ok rest
      (c :: cs, rest)
    else if c = '.' then
      match readDotted ok rest with
      | ([], _) => ([], c :: rest)
      | (cs, rest) => (c :: cs, rest)
    else ([], c :: rest)

/-- A character of a local name, and whether a backslash stands before it. -/
structure LocalChar where
  char : Char
  escaped : Bool
  deriving DecidableEq

/-- The text of a character of a local name. -/
def LocalChar.chars (c : LocalChar) : List Char := if c.escaped then ['\\', c.char] else [c.char]

/-- Whether a character of a local name can end the path of an IRI, or might stand in no IRI. -/
def LocalChar.isSuspect (c : LocalChar) : Bool :=
  if c.escaped then "/?#@%".toList.contains c.char else c.char = ':' || isDoubtful c.char

/-- The longest run of what may stand in a local name: name characters, colons, dots that are not first,
percent signs with two hexadecimal digits, and escaped punctuation. `atStart` tells that nothing was read
yet. -/
def readLocalRun (atStart : Bool) : List Char → Cut (List LocalChar)
  | [] => some ([], [])
  | c :: rest =>
    let plain (c : Char) : LocalChar := ⟨c, false⟩
    let keep (c : LocalChar) (r : Cut (List LocalChar)) := r.map fun (cs, rest) => (c :: cs, rest)
    if c = '%' then
      match rest with
      | a :: b :: rest =>
        if (hexValue? a).isSome && (hexValue? b).isSome then
          keep (plain '%') (keep (plain a) (keep (plain b) (readLocalRun false rest)))
        else none
      | _ => none
    else if c = '\\' then
      match rest with
      | e :: rest => if isEscapable e then keep ⟨e, true⟩ (readLocalRun false rest) else none
      | [] => none
    else if (if atStart then isLocalStart c else isNameChar c || c = '.') || c = ':' then
      keep (plain c) (readLocalRun false rest)
    else some ([], c :: rest)

/-- The local part that a run stands for, and how many characters of its text are given back. These are the
dots at its end that are not escaped. At the end of the text a run with escapes stands only for what goes up
to the last of them, and all dots at the end of that count. -/
def localPart (atEnd : Bool) (run : List LocalChar) : List Char × Nat :=
  let cut := atEnd && run.any LocalChar.escaped
  let last := if cut then run.reverse.dropWhile (!·.escaped) else run.reverse
  let dots := last.takeWhile fun c => c.char = '.' && (cut || !c.escaped)
  ((last.drop dots.length).reverse.map LocalChar.char, dots.length)

/-- The local part of a name after its colon. -/
def readLocal (label cs : List Char) : Cut Token :=
  (readLocalRun true cs).map fun (run, rest) =>
    let (reference, back) := localPart rest.isEmpty run
    let text := run.flatMap LocalChar.chars
    (.name label reference (run.any LocalChar.isSuspect), text.drop (text.length - back) ++ rest)

/-- A prefixed name, or a bare word, that begins with a colon or a letter. A prefix may not end with a dot. -/
def readNameOrWord (cs : List Char) : Cut Token :=
  match cs with
  | ':' :: rest => readLocal [] rest
  | c :: _ =>
    if isNameStart c then
      match readDotted isNameChar cs with
      | (label, ':' :: rest) => readLocal label rest
      | (word, rest) =>
        if (rest.dropWhile (· = '.')).head? = some ':' then none else some (.word word, rest)
    else none
  | [] => none

/-- A blank node after `_:`. -/
def readBlank : List Char → Cut Token
  | c :: rest =>
    if isLocalStart c then
      let (cs, rest) := readDotted isNameChar rest
      some (.blank (c :: cs), rest)
    else none
  | [] => none

/-- The parts of a tag after its first, each after a hyphen. -/
def readTagParts (afterHyphen : Bool) : List Char → List Char × List Char
  | [] => ([], [])
  | c :: rest =>
    if c.isAlphanum then
      let (cs, rest) := readTagParts false rest
      (c :: cs, rest)
    else if c = '-' && !afterHyphen then
      match readTagParts true rest with
      | ([], _) => ([], c :: rest)
      | (cs, rest) => (c :: cs, rest)
    else ([], c :: rest)

/-- The word after `@`: letters, then parts of letters and digits after single hyphens. -/
def readTag (cs : List Char) : Cut Token :=
  let first := cs.takeWhile Char.isAlpha
  match first, cs.dropWhile Char.isAlpha with
  | [], _ => none
  | _, '-' :: rest =>
    match readTagParts true rest with
    | ([], _) => some (.tag first, '-' :: rest)
    | (parts, rest) => some (.tag (first ++ '-' :: parts), rest)
  | _, rest => some (.tag first, rest)

/-! ## Numbers -/

/-- The digits at the beginning, and what follows them. -/
def readDigits (cs : List Char) : List Char × List Char :=
  (cs.takeWhile Char.isDigit, cs.dropWhile Char.isDigit)

/-- The sign at the beginning, and what follows it. -/
def readSign : List Char → List Char × List Char
  | '+' :: rest => (['+'], rest)
  | '-' :: rest => (['-'], rest)
  | rest => ([], rest)

/-- The point and the digits after it, and what follows them. -/
def readFraction : List Char → List Char × List Char
  | '.' :: rest =>
    let (digits, rest) := readDigits rest
    ('.' :: digits, rest)
  | rest => ([], rest)

/-- The exponent, if an `e` is next; it needs digits. -/
def readExponent : List Char → Cut (List Char)
  | c :: rest =>
    if c = 'e' || c = 'E' then
      let (sign, rest) := readSign rest
      match readDigits rest with
      | ([], _) => none
      | (digits, rest) => some (c :: (sign ++ digits), rest)
    else some ([], c :: rest)
  | [] => some ([], [])

/-- A number: a double with an exponent, a decimal with a digit after its point, or an integer. -/
def readNumber (cs : List Char) : Cut Token :=
  let (sign, afterSign) := readSign cs
  let (whole, afterWhole) := readDigits afterSign
  let (fraction, afterFraction) := readFraction afterWhole
  if whole.isEmpty && fraction.length ≤ 1 then none
  else
    (readExponent afterFraction).map fun (exponent, rest) =>
      if !exponent.isEmpty then (.number .double (sign ++ whole ++ fraction ++ exponent), rest)
      else if 1 < fraction.length then (.number .decimal (sign ++ whole ++ fraction), rest)
      else (.number .integer (sign ++ whole), afterWhole)

/-! ## Tokens -/

/-- The punctuation of one character. -/
def mark? (c : Char) : Option Mark :=
  [('.', Mark.dot), (';', .semicolon), (',', .comma), ('[', .openBracket), (']', .closeBracket),
    ('(', .openParen), (')', .closeParen)].lookup c

/-- Whether a number begins here, and not a mark. -/
def startsNumber : List Char → Bool
  | '.' :: c :: _ => c.isDigit
  | c :: _ => c.isDigit || c == '+' || c == '-'
  | [] => false

/-- The token at the beginning of a text, which begins with no white space and no comment. -/
def Token.read? (cs : List Char) : Cut Token :=
  match cs with
  | [] => none
  | '<' :: rest => (readIri rest).map fun (text, rest) => (.iri text, rest)
  | '"' :: rest => (readQuoted '"' rest).map fun (text, rest) => (.string text, rest)
  | '\'' :: rest => (readQuoted '\'' rest).map fun (text, rest) => (.string text, rest)
  | '_' :: ':' :: rest => readBlank rest
  | '@' :: rest => readTag rest
  | '^' :: '^' :: rest => some (.mark .datatype, rest)
  | c :: rest =>
    if startsNumber cs then readNumber cs
    else
      match mark? c with
      | some m => some (.mark m, rest)
      | none => readNameOrWord cs

/-- The tokens of a text, or what is left of it where no token begins. Every step reads a character or more,
so `fuel` need not exceed the length. -/
def readTokens : Nat → List Char → Except (List Char) (List Token)
  | _, [] => .ok []
  | 0, cs => .error cs
  | fuel + 1, c :: rest =>
    if isBlank c then readTokens fuel rest
    else if c = '#' then readTokens fuel (rest.dropWhile fun d => d ≠ '\n' && d ≠ '\r')
    else
      match Token.read? (c :: rest) with
      | none => .error (c :: rest)
      | some (token, rest) => do return token :: (← readTokens fuel rest)

/-- The tokens of a text, or what is left of it where no token begins. -/
def tokens (cs : List Char) : Except (List Char) (List Token) := readTokens cs.length cs

end ShapeTypes.Rdf.Turtle
