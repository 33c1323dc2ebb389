import ShapeTypes.Prefixes.Table
import ShapeTypes.Rdf.Graph
import ShapeTypes.Rdf.IriReference
import ShapeTypes.Rdf.LanguageTag
import ShapeTypes.Rdf.Turtle.Token

/-!
# Turtle documents

* `Document` — the triples that a document states and the prefixes it declares, each in the order of the
  text; a prefix can be declared more than once;
* `SyntaxError` — why a text is no document;
* `Document.read` — the document of a text.

Blank nodes without a label get one that begins with a dot, which no written label does.
-/

namespace ShapeTypes.Rdf.Turtle

/-- What a document states and declares. -/
structure Document where
  triples : List Triple
  declarations : List Binding

/-- Why a text is no document. -/
inductive SyntaxError where
  | noToken (rest : List Char)
  | unexpected (token : Token)
  | unfinished
  | unboundPrefix (label : String)
  | invalidIri (text : String)
  | invalidLanguage (tag : String)
  | untagged (lexical : String)
  | tooDeep
  deriving DecidableEq

def SyntaxError.message : SyntaxError → String
  | .noToken rest => "unexpected text " ++ String.ofList (rest.take 20)
  | .unexpected _ => "unexpected token"
  | .unfinished => "unexpected end of the document"
  | .unboundPrefix label => "the prefix " ++ label ++ ": is not declared"
  | .invalidIri text => "invalid IRI " ++ text
  | .invalidLanguage tag => "invalid language tag " ++ tag
  | .untagged lexical => "no language tag for " ++ lexical
  | .tooDeep => "too deeply nested"

/-- What is left to read, what was declared, and what was stated; the last of each comes first. -/
structure Reader where
  left : List Token
  base : Option IriReference := none
  declared : List Binding := []
  triples : List Triple := []
  unlabelled : Nat := 0

/-- A step of reading. -/
abbrev Reading := StateT Reader (Except SyntaxError)

/-! ## Tokens and statements -/

def next : Reading Token := do
  let r ← get
  match r.left with
  | [] => throw .unfinished
  | t :: rest =>
    set { r with left := rest }
    return t

/-- The next token, which stays. -/
def peek? : Reading (Option Token) := return (← get).left.head?

/-- Takes the next token if it is the mark. -/
def accept (m : Mark) : Reading Bool := do
  let r ← get
  match r.left with
  | .mark n :: rest =>
    if m = n then
      set { r with left := rest }
      return true
    else return false
  | _ => return false

/-- Takes the next token, which has to be the mark. -/
def expect (m : Mark) : Reading Unit := do
  let t ← next
  if t ≠ .mark m then throw (.unexpected t)

/-- A blank node of its own. -/
def unlabelledNode : Reading Node := do
  let r ← get
  set { r with unlabelled := r.unlabelled + 1 }
  return .blank (".b" ++ toString r.unlabelled)

def state (subject : Node) (predicate : Iri) (object : Term) : Reading Unit :=
  modify fun r => { r with triples := ⟨subject, predicate, object⟩ :: r.triples }

def declare (label : List Char) (space : Iri) : Reading Unit :=
  modify fun r => { r with declared := ⟨String.ofList label, space.value⟩ :: r.declared }

/-! ## Terms -/

/-- The IRI of a reference, relative to the base. -/
def iriOfReference (text : List Char) : Reading Iri := do
  match resolveIri? (← get).base text with
  | some i => return i
  | none => throw (.invalidIri (String.ofList text))

/-- The IRI of a prefixed name: the namespace declared last for its prefix, with the reference after it. It is
checked if the reference is suspect, or if it may go on with the authority of the namespace. -/
def resolveName (label reference : List Char) (suspect : Bool) : Reading Iri := do
  let label := String.ofList label
  match (← get).declared.find? fun b => b.label = label with
  | none => throw (.unboundPrefix label)
  | some b =>
    let space := b.space.toList
    let text := space ++ reference
    if suspect || (IriReference.ofChars space).path.isEmpty then
      match absoluteIri? text with
      | some i => return i
      | none => throw (.invalidIri (String.ofList text))
    else return ⟨String.ofList text⟩

/-- The IRI of a token that stands for one. -/
def iriOf (t : Token) : Reading Iri :=
  match t with
  | .iri text => iriOfReference text
  | .name label reference suspect => resolveName label reference suspect
  | _ => throw (.unexpected t)

/-- The literal of a string, with the language tag or the datatype that may follow it. The datatype of tagged
literals is not written. -/
def readLiteral (text : List Char) : Reading Literal := do
  let lexical := String.ofList text
  match ← peek? with
  | some (.tag word) =>
    let _ ← next
    let language := (String.ofList word).toLower
    if LanguageTag.isWellFormed language then return .tagged lexical language
    else throw (.invalidLanguage language)
  | some (.mark .datatype) =>
    let _ ← next
    let datatype ← iriOf (← next)
    if datatype = rdfLangString then throw (.untagged lexical)
    return .ofDatatype lexical datatype
  | _ => return .plain lexical

def NumberForm.datatype : NumberForm → Iri
  | .integer => xsd "integer"
  | .decimal => xsd "decimal"
  | .double => xsd "double"

/-- The predicate: `a`, or an IRI. -/
def readPredicate : Reading Iri := do
  let t ← next
  if t = .word ['a'] then return rdfType else iriOf t

/-- Whether nothing is said between two semicolons, or after the last one. -/
def endsPredicates : Option Token → Bool
  | some (.mark .semicolon) => true
  | some (.mark .dot) => true
  | some (.mark .closeBracket) => true
  | _ => false

mutual

/-- An object. What is in brackets is stated of a blank node of its own. -/
def readObject : Nat → Reading Term
  | 0 => throw .tooDeep
  | fuel + 1 => do
    let t ← next
    match t with
    | .blank label => return .node (.blank (String.ofList label))
    | .string text => return .literal (← readLiteral text)
    | .number form lexical => return .literal (.typed (String.ofList lexical) form.datatype)
    | .word text =>
      if text = "true".toList ∨ text = "false".toList then
        return .literal (.typed (String.ofList text) (xsd "boolean"))
      else throw (.unexpected t)
    | .mark .openBracket =>
      let node ← unlabelledNode
      if !(← accept .closeBracket) then
        readPredicates fuel node
        expect .closeBracket
      return .node node
    | .mark .openParen => return .node (← readItems fuel)
    | t => return (← iriOf t).term

/-- The items of a collection up to its end, as a list of cells. -/
def readItems : Nat → Reading Node
  | 0 => throw .tooDeep
  | fuel + 1 => do
    if ← accept .closeParen then return .iri rdfNil
    let cell ← unlabelledNode
    state cell rdfFirst (← readObject fuel)
    state cell rdfRest (.node (← readItems fuel))
    return cell

/-- The predicates of a subject with their objects, semicolons between them. -/
def readPredicates : Nat → Node → Reading Unit
  | 0, _ => throw .tooDeep
  | fuel + 1, subject => do
    readObjects fuel subject (← readPredicate)
    readFurther fuel subject

/-- Semicolons, and the predicates after them. -/
def readFurther : Nat → Node → Reading Unit
  | 0, _ => throw .tooDeep
  | fuel + 1, subject => do
    if ← accept .semicolon then
      if endsPredicates (← peek?) then readFurther fuel subject else readPredicates fuel subject

/-- The objects of a predicate, commas between them. -/
def readObjects : Nat → Node → Iri → Reading Unit
  | 0, _, _ => throw .tooDeep
  | fuel + 1, subject, predicate => do
    state subject predicate (← readObject fuel)
    if ← accept .comma then readObjects fuel subject predicate

end

/-! ## Statements -/

/-- The prefix and the namespace of a declaration. -/
def readPrefixDeclaration : Reading Unit := do
  match ← next with
  | .name label [] _ =>
    match ← next with
    | .iri text => declare label (← iriOfReference text)
    | t => throw (.unexpected t)
  | t => throw (.unexpected t)

def readBaseDeclaration : Reading Unit := do
  match ← next with
  | .iri text =>
    let i ← iriOfReference text
    modify fun r => { r with base := some (.ofChars i.value.toList) }
  | t => throw (.unexpected t)

/-- A subject in brackets, or a collection, or a plain one, with what is said of it. -/
def readTriples (fuel : Nat) (t : Token) : Reading Unit := do
  match t with
  | .mark .openBracket =>
    let node ← unlabelledNode
    if ← accept .closeBracket then readPredicates fuel node
    else
      readPredicates fuel node
      expect .closeBracket
      if (← peek?) ≠ some (.mark .dot) then readPredicates fuel node
  | .mark .openParen => readPredicates fuel (← readItems fuel)
  | .blank label => readPredicates fuel (.blank (String.ofList label))
  | t => readPredicates fuel (.iri (← iriOf t))
  expect .dot

/-- A statement that begins with a token. Words after `@` take a dot, bare words of either case take none. -/
def readStatement (fuel : Nat) (t : Token) : Reading Unit := do
  match t with
  | .tag word =>
    if word = "prefix".toList then readPrefixDeclaration
    else if word = "base".toList then readBaseDeclaration
    else throw (.unexpected t)
    expect .dot
  | .word word =>
    let lower := word.map Char.toLower
    if lower = "prefix".toList then readPrefixDeclaration
    else if lower = "base".toList then readBaseDeclaration
    else throw (.unexpected t)
  | t => readTriples fuel t

/-- The statements of a document. `depth` bounds the nesting within a statement. -/
def readStatements (depth : Nat) : Nat → Reading Unit
  | 0 => return
  | fuel + 1 => do
    if (← peek?).isSome then
      readStatement depth (← next)
      readStatements depth fuel

/-- The document of a text. Each statement has a token, and each step within one reads a token or is next
to one that does. -/
def Document.read (s : String) : Except SyntaxError Document :=
  match tokens s.toList with
  | .error rest => .error (.noToken rest)
  | .ok ts => do
    let (_, r) ← (readStatements (4 * ts.length + 4) ts.length).run { left := ts }
    return { triples := r.triples.reverse, declarations := r.declared.reverse }

end ShapeTypes.Rdf.Turtle
