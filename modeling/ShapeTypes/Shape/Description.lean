import ShapeTypes.Default
import ShapeTypes.Path.Reader
import ShapeTypes.Shape.LoadError
import ShapeTypes.Shape.ShapesGraph

/-!
# Shapes described in RDF

* `readString`, `readCount`, `readBoolean`, `readNumber`, `readIri`, `readNodes` — single predicates of a
  subject;
* `readConstraints`, `readLabels`, `readAnnotations`, `readPropertyForm` — the parts of a shape;
* `orderedProperties` — the properties of a node shape: by `sh:order`, those without last, then by the text
  of the identifier;
* `readShape`, `readGroup`, `readOntology`.

Of several faults the one met first counts, so the order of the steps matters.
-/

namespace ShapeTypes

open Rdf Numeric

/-- Reading that may fail. -/
abbrev Load := Except LoadError

/-- Fails because of a fault in the description of a shape. -/
def Load.fault {α : Type} (id : Node) (f : ShapeFault) : Load α := .error (.invalidShape id f)

section

variable (g : Graph) (id : Node)

/-! ## Single predicates -/

def asLiteral (p : Iri) : Term → Load Literal
  | .literal l => .ok l
  | t => .fault id (.notLiteral p t)

def asIri (p : Iri) : Term → Load Iri
  | .node (.iri i) => .ok i
  | t => .fault id (.notIri p t)

/-- The term as the identifier of a shape. -/
def asShape : Term → Load Node
  | .node n => .ok n
  | t => .fault id (.notShapeReference t)

/-- Reads the object of a predicate, if there is one. -/
def readObject {α : Type} (p : Iri) (f : Term → Load α) : Load (Option α) :=
  match g.object? id p with
  | none => .ok none
  | some t => some <$> f t

def readLiteral (p : Iri) : Load (Option Literal) := readObject g id p (asLiteral id p)

def readIri (p : Iri) : Load (Option Iri) := readObject g id p (asIri id p)

/-- The characters of a literal. -/
def readString (p : Iri) : Load (Option String) :=
  readObject g id p fun t => (·.lexical) <$> asLiteral id p t

/-- A literal read by a function on its characters. -/
def readLexical {α : Type} (p : Iri) (read? : String → Option α) (fault : Iri → Literal → ShapeFault) :
    Load (Option α) :=
  readObject g id p fun t => do
    let l ← asLiteral id p t
    match read? l.lexical with
    | some a => .ok a
    | none => .fault id (fault p l)

def readCount (p : Iri) : Load (Option Nat) := readLexical g id p readCount? .notCount

def readBoolean (p : Iri) : Load (Option Bool) := readLexical g id p readBoolean? .notBoolean

def readNumber (p : Iri) : Load (Option Binary64) :=
  readLexical g id p (fun s => (Binary64.read s).toOption) .notNumber

def readMembers (p : Iri) : Load (Option (List Term)) :=
  readObject g id p fun t => (g.collection t).mapError (.invalidList id)

/-- The members of a list of shapes. -/
def readShapeList (p : Iri) : Load (Option (List Node)) := do
  match ← readMembers g id p with
  | none => return none
  | some members => return some (← members.mapM (asShape id))

/-! ## Parts of a shape -/

def readNodeKind : Load (Option NodeKind) := do
  match ← readIri g id (sh "nodeKind") with
  | none => return none
  | some i =>
    match NodeKind.ofIri? i with
    | some k => return some k
    | none => .fault id (.unknownNodeKind i)

def readConstraints : Load Constraints := do
  let oneOf ← readMembers g id (sh "in")
  let ignoredTerms ← readMembers g id (sh "ignoredProperties")
  let ignored ← (ignoredTerms.getD []).mapM (asIri id (sh "ignoredProperties"))
  let languages ← readMembers g id (sh "languageIn")
  let nodeKind ← readNodeKind g id
  let nodes ← (g.objects id (sh "node")).mapM (asShape id)
  let classes ← (g.objects id (sh "class")).mapM (asIri id (sh "class"))
  let minCount ← readCount g id (sh "minCount")
  let maxCount ← readCount g id (sh "maxCount")
  let closed ← readBoolean g id (sh "closed")
  let conjunction ← readShapeList g id (sh "and")
  let alternatives ← readShapeList g id (sh "xone")
  let datatype ← readIri g id (sh "datatype")
  let minExclusive ← readLiteral g id (sh "minExclusive")
  let minInclusive ← readLiteral g id (sh "minInclusive")
  let maxExclusive ← readLiteral g id (sh "maxExclusive")
  let maxInclusive ← readLiteral g id (sh "maxInclusive")
  let minLength ← readCount g id (sh "minLength")
  let maxLength ← readCount g id (sh "maxLength")
  let pattern ← readString g id (sh "pattern")
  return {
    minCount, maxCount, oneOf, closed, conjunction, alternatives, nodes, classes, datatype, nodeKind
    hasValues := g.objects id (sh "hasValue")
    ignoredProperties := ignored
    facets := {
      minExclusive, minInclusive, maxExclusive, maxInclusive, minLength, maxLength, pattern
      languageIn := languages.map fun ts => ts.filterMap fun t => t.literal?.map (·.lexical) } }

def readLabels : Load Labels := do
  let overrideName ← readString g id (hint "name")
  let name ← readString g id (sh "name")
  let label ← readString g id (rdfs "label")
  let comment ← readString g id (rdfs "comment")
  let description ← readString g id (sh "description")
  return { overrideName, name, label, comment, description }

/-- A feature: a string or an IRI. -/
def asFeature : Term → Load String
  | .literal l => .ok l.lexical
  | .node (.iri i) => .ok i.value
  | t => .fault id (.notFeature t)

def readAnnotations : Load Annotations := do
  let features ← (g.objects id (hint "feature")).mapM (asFeature id)
  let declaration ← readString g id (hint "declare")
  return { features := Annotations.featureSet features, declaration }

/-- A shape of the given form, which is read between its other parts as `form` says. -/
def readParts : Load (Form → Shape) := do
  let labels ← readLabels g id
  let constraints ← readConstraints g id
  let definedBy ← readIri g id (rdfs "isDefinedBy")
  let annotations ← readAnnotations g id
  return fun form => { id, labels, constraints, definedBy, annotations, form }

/-! ## Property shapes -/

def readShapePath (t : Term) : Load Path :=
  match readPath g g.pathDepth t with
  | .ok p => .ok p
  | .error (.notNode t) => .fault id (.pathNotNode t)
  | .error .unknownStructure => .fault id .pathStructure
  | .error (.list cause) => .error (.invalidList id cause)
  | .error .tooDeep => .error (.endless id)

def readVisibility : Load Visibility := do
  match ← readString g id (hint "visibility") with
  | none => return default
  | some s =>
    match Visibility.read? s with
    | some v => return v
    | none => .fault id (.unknownVisibility s)

/-- A property shape with its path at a term. -/
def readPropertyShape (pathTerm : Term) : Load Shape := do
  let visibility ← readVisibility g id
  let group ← readObject g id (sh "group") (asShape id)
  let shapeOf ← readParts g id
  let path ← readShapePath g id pathTerm
  let mutable ← readBoolean g id (hint "mutable")
  let order ← readNumber g id (sh "order")
  let lazy ← readBoolean g id (hint "lazy")
  let list ← readBoolean g id (hint "list")
  return shapeOf (.property {
    path, visibility, order, group
    defaultValue := g.object? id (sh "defaultValue")
    mutable := mutable.getD false
    lazy := lazy.getD false
    list := list.getD false })

/-! ## Node shapes -/

/-- Whether a property may stand before another one: by order, those without last, then by text. -/
def propertyBefore : Option Binary64 × Node → Option Binary64 × Node → Bool
  | (some x, a), (some y, b) =>
    x.orderKey < y.orderKey || (x.orderKey = y.orderKey && a.text ≤ b.text)
  | (some _, _), (none, _) => true
  | (none, _), (some _, _) => false
  | (none, a), (none, b) => a.text ≤ b.text

/-- A property with its order. -/
def readOrdered (t : Term) : Load (Option Binary64 × Node) := do
  let property ← asShape id t
  let order ← readNumber g property (sh "order")
  return (order, property)

/-- The properties of a node shape in order. -/
def orderedProperties : Load (List Node) := do
  let properties ← (g.objects id (sh "property")).mapM (readOrdered g id)
  return (properties.mergeSort propertyBefore).map (·.2)

def readNodeShape : Load Shape := do
  let properties ← orderedProperties g id
  let shapeOf ← readParts g id
  return shapeOf (.node properties)

/-- A shape: a property shape exactly if it has a path. -/
def readShape : Load Shape :=
  match g.object? id (sh "path") with
  | some t => readPropertyShape g id t
  | none => readNodeShape g id

/-! ## Groups and ontologies -/

def readGroup : Load Group := do
  let label ← readString g id (rdfs "label")
  let comment ← readString g id (rdfs "comment")
  let order ← readNumber g id (sh "order")
  return { id, label, comment, order }

end

def readOntology (g : Graph) (id : Iri) : Load Ontology := do
  let label ← readString g (.iri id) (rdfs "label")
  let comment ← readString g (.iri id) (rdfs "comment")
  let annotations ← readAnnotations g (.iri id)
  return { id, label, comment, annotations }

end ShapeTypes
