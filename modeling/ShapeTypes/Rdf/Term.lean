import ShapeTypes.Text.Hex

/-!
# RDF terms

* `Iri`, `Node`, `Literal`, `Term` — the terms of an RDF graph. A `Node` is what can stand as a subject;
  shapes are identified by nodes.
* `Literal.ofDatatype` — a literal written with `xsd:string` is the plain literal.
* `text` — the N-Triples form of each, which messages show and which sets of objects are sorted by.
-/

namespace ShapeTypes.Rdf

open Text

/-- An IRI, held as its characters without angle brackets. -/
structure Iri where
  value : String
  deriving DecidableEq, Inhabited

/-- An IRI or a blank node: what a triple can have as its subject. -/
inductive Node where
  | iri (iri : Iri)
  | blank (label : String)
  deriving DecidableEq, Inhabited

/-- A literal: plain (a string), language tagged, or of another datatype. -/
inductive Literal where
  | plain (lexical : String)
  | tagged (lexical : String) (language : String)
  | typed (lexical : String) (datatype : Iri)
  deriving DecidableEq, Inhabited

/-- A term in object position. -/
inductive Term where
  | node (node : Node)
  | literal (literal : Literal)
  deriving DecidableEq, Inhabited

/-- The datatype of plain literals. -/
def xsdString : Iri := ⟨"http://www.w3.org/2001/XMLSchema#string"⟩

/-! ## Parts of a term -/

def Node.iri? : Node → Option Iri
  | .iri i => some i
  | .blank _ => none

def Term.node? : Term → Option Node
  | .node n => some n
  | .literal _ => none

def Term.iri? : Term → Option Iri
  | .node (.iri i) => some i
  | _ => none

def Term.literal? : Term → Option Literal
  | .node _ => none
  | .literal l => some l

/-- A node as an object. -/
def Iri.term (i : Iri) : Term := .node (.iri i)

/-- The characters of the literal, whatever its datatype. -/
def Literal.lexical : Literal → String
  | .plain s => s
  | .tagged s _ => s
  | .typed s _ => s

/-- The literal of a datatype; `xsd:string` gives the plain literal. -/
def Literal.ofDatatype (lexical : String) (datatype : Iri) : Literal :=
  if datatype = xsdString then .plain lexical else .typed lexical datatype

/-! ## N-Triples text -/

/-- The IRI between angle brackets. -/
def Iri.text (i : Iri) : String := "<" ++ i.value ++ ">"

/-- `<iri>` or `_:label`. -/
def Node.text : Node → String
  | .iri i => i.text
  | .blank label => "_:" ++ label

/-- The node without brackets: the bare IRI, or `_:label`. -/
def Node.bare : Node → String
  | .iri i => i.value
  | .blank label => "_:" ++ label

/-- A character of a lexical form: the usual escapes, and controls and non-characters by code point. -/
def escapedChar (c : Char) : List Char :=
  if c = '\x08' then ['\\', 'b']
  else if c = '\t' then ['\\', 't']
  else if c = '\n' then ['\\', 'n']
  else if c = '\x0c' then ['\\', 'f']
  else if c = '\r' then ['\\', 'r']
  else if c = '"' then ['\\', '"']
  else if c = '\\' then ['\\', '\\']
  else if c.toNat < 0x20 || c.toNat = 0x7f || c.toNat = 0xfffe || c.toNat = 0xffff then
    ['\\', 'u'] ++ hexUpper4 c.toNat
  else [c]

/-- A lexical form between double quotes. -/
def lexicalText (s : String) : String :=
  String.ofList ('"' :: s.toList.flatMap escapedChar ++ ['"'])

/-- `"lex"`, `"lex"@lang` or `"lex"^^<datatype>`. -/
def Literal.text : Literal → String
  | .plain s => lexicalText s
  | .tagged s language => lexicalText s ++ "@" ++ language
  | .typed s datatype => lexicalText s ++ "^^" ++ datatype.text

/-- The N-Triples form of a term. -/
def Term.text : Term → String
  | .node n => n.text
  | .literal l => l.text

end ShapeTypes.Rdf
