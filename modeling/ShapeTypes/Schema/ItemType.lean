import ShapeTypes.Cardinality
import ShapeTypes.Name

/-!
# Item types

The types that shapes are given. They live in slots of an arena and refer to each other by slot number, so
that a slot can be handed out before its type is known.

* `ItemType` — a type with the shape it comes from, its name and documentation; `Body` says what it is;
* `Content` — what a slot holds: a type, or the place kept for the type of a shape;
* `Content.edges` — the references to other slots, each with its kind, in order;
* `Content.mapSlots` — the content with every reference replaced.
-/

namespace ShapeTypes

open Rdf

/-- The number of a slot. -/
abbrev Slot := Nat

/-- The comment and the label of the shape a type comes from. -/
structure Doc where
  comment : Option String := none
  label : Option String := none
  deriving DecidableEq, Inhabited

/-- An item type with its cardinality at a place of use. -/
structure TypeUse where
  cardinality : Cardinality
  item : Slot
  deriving DecidableEq, Inhabited

/-- A property of an object type. -/
structure Property where
  shape : Node
  name : Name
  path : Iri
  use : TypeUse
  mutable : Bool
  visibility : Visibility
  order : Option Numeric.Binary64
  lazy : Bool
  group : Option Node
  doc : Doc
  deriving DecidableEq

/-- How the members of a composite are put together: a value belongs to all of them, or to exactly one. -/
inductive Connective where
  | all
  | one
  deriving DecidableEq

/-- Which identifiers a type allows. -/
inductive IdentifierKind where
  | any
  | blankNode
  | iri
  deriving DecidableEq

/-- What only object types hold. -/
structure ObjectBody where
  parent : Option Slot
  properties : List Property
  closed : Bool
  ignoredProperties : List Iri
  classes : List Iri
  annotations : Annotations
  deriving DecidableEq

/-- What a type is. A composite records whether all its members are objects or composites of objects. -/
inductive Body where
  | object (body : ObjectBody)
  | composite (connective : Connective) (ofObjects : Bool) (members : List Slot)
  | identifier (kind : IdentifierKind) (hasValues oneOf classes : List Iri)
  | literal (datatype : Iri) (hasValues oneOf : List Literal) (facets : Facets)
  | term (nodeKind : Option NodeKind) (hasValues oneOf : List Term)
  | enumeration (members : List (Iri × Name))
  | list (item : Slot)
  deriving DecidableEq

structure ItemType where
  shape : Node
  name : Name
  doc : Doc
  body : Body
  deriving DecidableEq

/-- What a slot holds. -/
inductive Content where
  | placeholder (shape : Node)
  | type (type : ItemType)
  deriving DecidableEq

/-! ## Kinds -/

/-- The word for what a type is. -/
def Body.kind : Body → String
  | .object _ => "Object"
  | .composite .one true _ => "ObjectUnion"
  | .composite .all true _ => "ObjectIntersection"
  | .composite .one false _ => "Union"
  | .composite .all false _ => "Intersection"
  | .identifier .any _ _ _ => "Identifier"
  | .identifier .blankNode _ _ _ => "BlankNode"
  | .identifier .iri _ _ _ => "Iri"
  | .literal .. => "Literal"
  | .term .. => "Term"
  | .enumeration _ => "Enum"
  | .list _ => "List"

/-- Whether a type is an object or a composite of objects. -/
def Body.actsAsObject : Body → Bool
  | .object _ => true
  | .composite _ ofObjects _ => ofObjects
  | _ => false

namespace Content

def kind : Content → String
  | placeholder _ => "Placeholder"
  | type t => t.body.kind

/-- The shape that the slot was reserved for. -/
def shape : Content → Node
  | placeholder s => s
  | type t => t.shape

def type? : Content → Option ItemType
  | placeholder _ => none
  | type t => some t

def object? : Content → Option ObjectBody
  | type { body := .object o, .. } => some o
  | _ => none

/-- Whether the slot is still kept for a type. -/
def isPlaceholder : Content → Bool
  | placeholder _ => true
  | type _ => false

/-- Whether the slot holds an object or a composite of objects. -/
def actsAsObject (c : Content) : Bool := c.type?.any (·.body.actsAsObject)

end Content

/-! ## References between slots -/

/-- How a type refers to another. Only a property may close a cycle. -/
inductive EdgeKind where
  | parent
  | property
  | member
  | item
  deriving DecidableEq

/-- The references of a type, in order: parent, then properties; members; item. -/
def Body.edges : Body → List (EdgeKind × Slot)
  | .object o =>
    (o.parent.map (EdgeKind.parent, ·)).toList ++ o.properties.map fun p => (.property, p.use.item)
  | .composite _ _ members => members.map (EdgeKind.member, ·)
  | .list item => [(.item, item)]
  | _ => []

/-- The references of what a slot holds. -/
def Content.edges (c : Content) : List (EdgeKind × Slot) :=
  match c.type? with
  | some t => t.body.edges
  | none => []

/-- The slots that a slot refers to. -/
def Content.children (c : Content) : List Slot := c.edges.map (·.2)

def TypeUse.mapSlot (f : Slot → Slot) (u : TypeUse) : TypeUse := { u with item := f u.item }

def Property.mapSlot (f : Slot → Slot) (p : Property) : Property := { p with use := p.use.mapSlot f }

def Body.mapSlots (f : Slot → Slot) : Body → Body
  | .object o =>
    .object { o with parent := o.parent.map f, properties := o.properties.map (·.mapSlot f) }
  | .composite connective ofObjects members => .composite connective ofObjects (members.map f)
  | .list item => .list (f item)
  | b => b

/-- The content with every slot it refers to replaced. -/
def Content.mapSlots (f : Slot → Slot) : Content → Content
  | .placeholder s => .placeholder s
  | .type t => .type { t with body := t.body.mapSlots f }

theorem Content.children_mapSlots (f : Slot → Slot) (c : Content) :
    (c.mapSlots f).children = c.children.map f := by
  rcases c with s | ⟨shape, name, doc, body⟩
  · rfl
  · cases body with
    | object o =>
      cases hp : o.parent <;>
        simp [Content.children, Content.edges, Content.mapSlots, Content.type?, Body.mapSlots, Body.edges,
          hp, Property.mapSlot, TypeUse.mapSlot, Function.comp_def]
    | composite k b ms =>
      simp [Content.children, Content.edges, Content.mapSlots, Content.type?, Body.mapSlots, Body.edges,
        Function.comp_def]
    | list i => rfl
    | identifier => rfl
    | literal => rfl
    | term => rfl
    | enumeration => rfl

end ShapeTypes
