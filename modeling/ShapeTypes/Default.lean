import ShapeTypes.Numeric.Binary64.Shortest
import ShapeTypes.Numeric.Decimal
import ShapeTypes.Rdf.Vocabulary
import ShapeTypes.Text.Quoted

/-!
# Default values

* `DefaultValue` — a default, typed after the items it stands in for;
* `DefaultTarget` — what a default has to fit;
* `defaultFor` — the default that a term gives for a target. Outside strict mode a term that is no
  boolean counts as `false`, and one that is no literal as the empty string;
* `DefaultError` — why a term gives none;
* `DefaultValue.text` — how a default is shown.
-/

namespace ShapeTypes

open Rdf Numeric Text

inductive DefaultValue where
  | boolean (value : Bool)
  | integer (value : Int)
  | decimal (value : Decimal)
  | double (value : Binary64)
  | string (value : String)
  | iri (value : Iri)
  | literal (value : Literal)
  deriving DecidableEq, Inhabited

/-- What a default has to fit: a literal of a datatype, an identifier out of some allowed ones (any when
there are none), any term, or an object, which takes no default. -/
inductive DefaultTarget where
  | literal (datatype : Iri)
  | iri (allowed : List Iri)
  | term
  | object
  deriving DecidableEq

/-- Why a text does not belong to a numeric datatype. -/
inductive NumeralError where
  | integer (cause : IntegerError)
  | decimal (cause : DecimalError)
  | float (cause : FloatError)
  deriving DecidableEq

def NumeralError.message : NumeralError → String
  | .integer e => e.message
  | .decimal e => e.message
  | .float e => e.message

/-- Why a term gives no default. -/
inductive DefaultError where
  | onObject (term : Term)
  | notAllowed (iri : Iri)
  | notIri (term : Term)
  | notIriOrLiteral (term : Term)
  | notBoolean (term : Term)
  | notString (term : Term)
  | notLiteral (term : Term) (datatype : Iri)
  | notNumeral (lexical : String) (datatype : Iri) (cause : NumeralError)
  deriving DecidableEq

def DefaultError.message : DefaultError → String
  | .onObject t => "default value " ++ t.text ++ " on an object-typed shape"
  | .notAllowed i => "default value " ++ i.text ++ " is not one of the allowed values"
  | .notIri t => "default value " ++ t.text ++ " must be an IRI"
  | .notIriOrLiteral t => "default value " ++ t.text ++ " must be an IRI or a literal"
  | .notBoolean t => "default value " ++ t.text ++ " is not an xsd:boolean"
  | .notString t => "default value " ++ t.text ++ " is not a string literal"
  | .notLiteral t d => "default value " ++ t.text ++ " must be a literal of type " ++ d.text
  | .notNumeral s d cause =>
    "default value " ++ quoted s ++ " is not a valid " ++ d.text ++ ": " ++ cause.message

/-! ## Coercion -/

/-- The datatypes whose values are integers. -/
def integerDatatypes : List Iri :=
  ["integer", "int", "long", "short", "byte", "nonNegativeInteger", "nonPositiveInteger",
    "positiveInteger", "negativeInteger", "unsignedLong", "unsignedInt", "unsignedShort",
    "unsignedByte"].map xsd

/-- The four lexical forms of `xsd:boolean`. -/
def readBoolean? : String → Option Bool
  | "true" => some true
  | "1" => some true
  | "false" => some false
  | "0" => some false
  | _ => none

/-- The default that a literal gives for a datatype other than `xsd:boolean` and `xsd:string`. -/
def numeralDefault (l : Literal) (datatype : Iri) : Except DefaultError DefaultValue :=
  let refuse {ε α : Type} (wrap : ε → NumeralError) (r : Except ε α) : Except DefaultError α :=
    r.mapError fun e => .notNumeral l.lexical datatype (wrap e)
  if datatype ∈ integerDatatypes then .integer <$> refuse .integer (Integer.read l.lexical)
  else if datatype = xsd "decimal" then .decimal <$> refuse .decimal (Decimal.read l.lexical)
  else if datatype = xsd "double" ∨ datatype = xsd "float" then
    .double <$> refuse .float (Binary64.read l.lexical)
  else .ok (.literal l)

/-- The default that a term gives for literals of a datatype. -/
def literalDefault (t : Term) (datatype : Iri) (strict : Bool) : Except DefaultError DefaultValue :=
  if datatype = xsd "boolean" then
    match t.literal?.bind fun l => readBoolean? l.lexical with
    | some b => .ok (.boolean b)
    | none => if strict then .error (.notBoolean t) else .ok (.boolean false)
  else if datatype = xsd "string" then
    match t.literal? with
    | some l => .ok (.string l.lexical)
    | none => if strict then .error (.notString t) else .ok (.string "")
  else
    match t.literal? with
    | some l => numeralDefault l datatype
    | none => .error (.notLiteral t datatype)

/-- The default that a term gives for a target. -/
def defaultFor (t : Term) (target : DefaultTarget) (strict : Bool) :
    Except DefaultError DefaultValue :=
  match target with
  | .object => .error (.onObject t)
  | .iri allowed =>
    match t.iri? with
    | some i => if allowed.isEmpty || allowed.contains i then .ok (.iri i) else .error (.notAllowed i)
    | none => .error (.notIri t)
  | .term =>
    match t with
    | .node (.iri i) => .ok (.iri i)
    | .literal l => .ok (.literal l)
    | .node (.blank _) => .error (.notIriOrLiteral t)
  | .literal datatype => literalDefault t datatype strict

/-! ## Text -/

def literalText : Literal → String
  | .plain s => "Literal(String(" ++ quoted s ++ "))"
  | .tagged s language =>
    "Literal(LanguageTaggedString \x7b value: " ++ quoted s ++ ", language: " ++ quoted language ++
      " \x7d)"
  | .typed s datatype =>
    "Literal(TypedLiteral \x7b value: " ++ quoted s ++ ", datatype: NamedNode \x7b iri: " ++
      quoted datatype.value ++ " \x7d \x7d)"

def DefaultValue.text : DefaultValue → String
  | .boolean b => "Boolean(" ++ (if b then "true" else "false") ++ ")"
  | .integer v => "Integer(" ++ toString v ++ ")"
  | .decimal v => "Decimal(Decimal \x7b value: " ++ toString v.scaled ++ " \x7d)"
  | .double v => "Double(" ++ v.text ++ ")"
  | .string s => "String(" ++ quoted s ++ ")"
  | .iri i => "Iri(NamedNode \x7b iri: " ++ quoted i.value ++ " \x7d)"
  | .literal l => "Literal(" ++ literalText l ++ ")"

end ShapeTypes
