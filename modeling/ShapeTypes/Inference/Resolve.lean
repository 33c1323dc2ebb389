import ShapeTypes.Inference.Classification
import ShapeTypes.Inference.State

/-!
# Resolving shapes

The type of a shape is decided by the first of these that applies: a composite; an object, or a reference to
one; an enumeration; an identifier; a literal; and any term, which always applies. Resolving one shape may
resolve others, and may come back to it; the functions for a single shape take what resolves another one as
an argument.

* `compositeBody`, `objectBody`, `referenceTarget`, `valueBody` — the single decisions;
* `inferUse` — the type and cardinality of a shape that is on top of the constraint stack;
* `resolveOnce` — resolves a shape, unless it was visited already;
* `resolveWithin` — the same within others; `fuel` bounds the nesting, and one more than the number of shapes
  is always enough;
* `resolveLogged` — the same with a log of what shapes were resolved to.
-/

namespace ShapeTypes

open Rdf Infer

/-- Whether a shape gets a type of its own, or stands for the type in another slot. -/
inductive Finding where
  | type (body : Body)
  | standsFor (slot : Slot)

section

variable (graph : ShapesGraph) (strict : Bool) (resolve : Node → Infer TypeUse)

/-- The slot of a shape that another one refers to. -/
def referredSlot (source id : Node) : Infer Slot := do
  match (← get).progress? id with
  | some (.resolved use) => return use.item
  | some (.resolving slot _) => return slot
  | none =>
    if (graph.shape? id).isNone then malformed source (.referenceUndefined id)
    else return (← resolve id).item

/-! ## Composites -/

/-- The connective of a composite with its members. -/
def compositeParts (shape : Shape) : Infer (String × Connective × List Node) :=
  match shape.constraints.conjunction, shape.constraints.alternatives with
  | some _, some _ => ambiguous shape.id .connectives
  | some members, none => return ("sh:and", .all, members)
  | none, some members => return ("sh:xone", .one, members)
  | none, none => violation shape.id .notComposite

/-- The type of a composite. Its members are resolved in the scope it is itself in. -/
def compositeBody (shape : Shape) : Infer Body := do
  let (feature, connective, members) ← compositeParts shape
  if members.length < 2 then
    violation shape.id (.tooFewMembers feature members.length)
  if !shape.constraints.nodes.isEmpty || !shape.properties.isEmpty then
    malformed shape.id (.compositeWithParts feature)
  let slots ← members.mapM (referredSlot graph resolve shape.id)
  let s ← get
  return .composite connective (slots.all s.actsAsObject) slots

/-! ## Objects -/

/-- The slot of the parent of an object, resolved in a scope of its own. -/
def resolveParent (shape : Shape) : Infer (Option Slot) := do
  match shape.constraints.nodes with
  | [] => return none
  | [ancestor] =>
    let parent ← detached (referredSlot graph resolve shape.id ancestor)
    if (← get).actsAsObject parent then return some parent
    else malformed shape.id (.ancestorNotObject ancestor)
  | many => ambiguous shape.id (.ancestors many.length)

/-- A property of an object, resolved in a scope of its own. -/
def resolveProperty (owner : Shape) (id : Node) : Infer Property := do
  let some shape := graph.shape? id | malformed owner.id (.propertyUndefined id)
  let some form := shape.property? | malformed owner.id (.propertyNotProperty id)
  let use ← detached (resolve id)
  let some path := form.path.predicate? | malformed id .propertyPathNotPredicate
  let name ← nameShape shape
  return {
    shape := id, name, path, use
    mutable := form.mutable, visibility := form.visibility, order := form.order
    lazy := form.lazy, group := form.group, doc := shape.doc }

/-- The type of a node shape that declares an object. Its slot counts as an object from the start. -/
def objectBody (shape : Shape) (slot : Slot) : Infer Body := do
  modify fun s => { s with openObjects := slot :: s.openObjects }
  let parent ← resolveParent graph resolve shape
  let properties ← shape.properties.mapM (resolveProperty graph resolve shape)
  return .object {
    parent, properties
    closed := shape.constraints.closed.getD false
    ignoredProperties := shape.constraints.ignoredProperties
    classes := shape.constraints.classes
    annotations := graph.annotationsInForce shape }

/-! ## References -/

/-- The slot that a property shape with `sh:node` stands for. -/
def referenceTarget (shape : Shape) : Infer Slot := do
  let c := shape.constraints
  match c.nodes with
  | [target] =>
    let literalValues := (c.oneOf.getD []).any fun t => t.literal?.isSome
    if c.datatype.isSome || literalValues then malformed shape.id .referenceWithValues
    else detached (referredSlot graph resolve shape.id target)
  | many => ambiguous shape.id (.references many.length)

/-! ## Values -/

/-- The list that an enumeration of the shape would have: its own, or the one in force when the shape
constrains nothing else. -/
def enumerationValues? (stack : ConstraintStack) (c : Constraints) : Option (List Term) :=
  match c.oneOf with
  | some own => some own
  | none => if c.nodeKind.isNone then stack.oneOf? else none

/-- The type of a shape that describes single values. -/
def valueBody (shape : Shape) : Infer Body := do
  let c := shape.constraints
  let stack ← scope shape.id
  let hasValues := stack.hasValues?.getD []
  let oneOf := stack.oneOf?.getD []
  match c.datatype with
  | some datatype =>
    return .literal datatype (hasValues.filterMap (·.literal?)) (oneOf.filterMap (·.literal?)) c.facets
  | none =>
    match (enumerationValues? stack c).bind enumeratedIris? with
    | some iris => return .enumeration (← iris.mapM fun i => do return (i, ← nameIri i))
    | none =>
      match identifierKind? c.nodeKind (!c.classes.isEmpty) with
      | some kind =>
        return .identifier kind (hasValues.filterMap (·.iri?)) (oneOf.filterMap (·.iri?)) c.classes
      | none => return .term c.nodeKind hasValues oneOf

/-! ## One shape -/

/-- What a shape is. -/
def findingOf (shape : Shape) (slot : Slot) : Infer Finding := do
  if let some form := shape.property? then
    if form.path.predicate?.isNone then
      malformed shape.id (.pathNotPredicate form.path)
  if shape.constraints.isComposite then
    return .type (← compositeBody graph resolve shape)
  else if shape.declaresObject then
    return .type (← objectBody graph resolve shape slot)
  else if shape.constraints.nodes.isEmpty then
    return .type (← valueBody shape)
  else if shape.isNode then
    malformed shape.id .nodeOnValueShape
  else
    return .standsFor (← referenceTarget graph resolve shape)

/-- What a default of a property has to fit, given what the slot of its items holds. An unfinished type takes
any term. -/
def defaultTarget : Content → DefaultTarget
  | .placeholder _ => .term
  | .type t =>
    match t.body with
    | .literal datatype _ _ _ => .literal datatype
    | .identifier _ _ oneOf _ => .iri oneOf
    | .enumeration members => .iri (members.map (·.1))
    | .term .. => .term
    | .composite _ ofObjects _ => if ofObjects then .object else .term
    | .object _ => .object
    | .list _ => .object

/-- The default that a term gives for the items in a slot. -/
def itemDefault (id : Node) (term : Term) (item : Slot) : Infer DefaultValue := do
  let s ← get
  let item := follow s.aliases item
  let coerce (target : DefaultTarget) : Infer DefaultValue :=
    match defaultFor term target strict with
    | .ok d => return d
    | .error cause => malformed id (.default cause)
  if s.openObjects.contains item then coerce .object
  else
    match s.slots[item]? with
    | some c => coerce (defaultTarget c)
    | none => violation id (.defaultSlotMissing item)

/-- The cardinality of the bounds in force, with the given default. -/
def boundedCardinality (id : Node) (stack : ConstraintStack) (default : Option DefaultValue) :
    Infer Cardinality :=
  match Cardinality.ofBounds stack.minCount? stack.maxCount? default stack.mutable with
  | .ok c => return c
  | .error bounds => malformed id (.boundsReversed bounds)

/-- The cardinality known before the items are; a default is not coerced yet. -/
def earlyCardinality (shape : Shape) : Infer Cardinality := do
  if shape.isNode then return .plain none
  else
    let stack ← scope shape.id
    if stack.defaultValue?.isSome then return .plain none
    else boundedCardinality shape.id stack none

/-- The cardinality of a shape whose items are in a slot. -/
def cardinalityOf (shape : Shape) (item : Slot) : Infer Cardinality := do
  if shape.isNode then return .plain none
  else
    let stack ← scope shape.id
    match stack.defaultValue? with
    | some term => boundedCardinality shape.id stack (some (← itemDefault strict shape.id term item))
    | none => boundedCardinality shape.id stack none

/-- Puts what a shape was found to be into its slot, behind a list if it declares one; gives the slot of its
items. -/
def settle (shape : Shape) (slot : Slot) (name : Name) (finding : Finding) : Infer Slot := do
  let listOf (item : Slot) : ItemType := shape.itemType name (.list item)
  match finding, shape.isList with
  | .type body, false =>
    writeSlot shape.id slot (shape.itemType name body)
    return slot
  | .standsFor target, false =>
    addAlias slot target shape.id
    return target
  | .type body, true =>
    let inner ← newSlot (.type (shape.itemType name body))
    writeSlot shape.id slot (listOf inner)
    return slot
  | .standsFor target, true =>
    writeSlot shape.id slot (listOf target)
    return slot

/-- The type and cardinality of a shape that is on top of the constraint stack. -/
def inferUse (shape : Shape) (slot : Slot) (name : Name) : Infer TypeUse := do
  let finding ← findingOf graph resolve shape slot
  let item ← settle shape slot name finding
  modify fun s => { s with openObjects := s.openObjects.filter (· ≠ slot) }
  return ⟨← cardinalityOf strict shape item, item⟩

/-- Resolves a shape that was not visited yet. -/
def resolveFirst (id : Node) : Infer TypeUse := do
  let some frame := graph.frame? id | violation id .notInGraph
  let slot ← newSlot (.placeholder id)
  updateScope id (·.push frame)
  let cardinality ← earlyCardinality frame.shape
  remember id (.resolving slot cardinality)
  let name ← nameShape frame.shape
  let use ← inferUse graph strict resolve frame.shape slot name
  updateScope id (·.pop frame)
  remember id (.resolved use)
  return use

/-- Resolves a shape that was not visited yet, or gives what is known of it. -/
def resolveOnce (id : Node) : Infer TypeUse := do
  match (← get).progress? id with
  | some (.resolved use) => return use
  | some (.resolving slot cardinality) =>
    modify fun s => { s with handedOut := id :: s.handedOut }
    return ⟨cardinality, slot⟩
  | none => resolveFirst graph strict resolve id

end

/-! ## All shapes -/

/-- Resolves a shape, and others within it at most so deep. -/
def resolveWithin (graph : ShapesGraph) (strict : Bool) : Nat → Node → Infer TypeUse
  | 0, id => violation id .nestedTooDeep
  | fuel + 1, id => resolveOnce graph strict (resolveWithin graph strict fuel) id

/-- Describes in a log what a shape was resolved to. This does not end for a list that contains itself. -/
def logResolved (id : Node) (use : TypeUse) : Infer Unit := do
  let s ← get
  match s.slots.describe? s.names.record use.item with
  | some _ => return ()
  | none => violation id .endlessDescription

/-- Resolves a shape, and others within it at most so deep, with a log of each that is resolved. What is logged is the
same before the shape is taken off the stack and recorded, and after that. -/
def resolveLogged (graph : ShapesGraph) (strict : Bool) : Nat → Node → Infer TypeUse
  | 0, id => violation id .nestedTooDeep
  | fuel + 1, id => do
    let s ← get
    let use ← resolveOnce graph strict (resolveLogged graph strict fuel) id
    if (s.progress? id).isNone then logResolved id use
    return use

end ShapeTypes
