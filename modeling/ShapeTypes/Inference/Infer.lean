import ShapeTypes.Inference.Resolve
import ShapeTypes.Rdf.Graph
import ShapeTypes.Schema.Basic
import ShapeTypes.Schema.StructuralCycle

/-!
# Inferring a schema

* `InferenceState.settleEarlyUses` — properties that were handed out early get their final cardinality;
* `InferenceState.replaceAliases` — every alias is replaced by what it stands for;
* `checkLazy` — lazy properties refer to objects;
* `slotsToKeep` — no placeholder and no structural cycle is left, and only reachable slots are kept;
* `ShapesGraph.infer`, `ShapesGraph.inferLogged` — the schema of a shapes graph, without and with a log.
-/

namespace ShapeTypes

open Rdf Infer

/-- Nodes in the order of their text, each once. -/
def distinctNodes (ns : List Node) : List Node := (sortNodes ns).eraseDups

namespace InferenceState

/-- The final use of a resolved shape. -/
def use? (s : InferenceState) (id : Node) : Option TypeUse :=
  match s.progress? id with
  | some (.resolved use) => some use
  | _ => none

/-- The property with its final cardinality, if its shape was handed out before it was known. -/
def settleProperty (s : InferenceState) (p : Property) : Property :=
  if s.handedOut.contains p.shape then
    match s.use? p.shape with
    | some use => { p with use := { p.use with cardinality := use.cardinality } }
    | none => p
  else p

/-- The slot with the final cardinality of every property. -/
def settleContent (s : InferenceState) : Content → Content
  | .type t =>
    match t.body with
    | .object o => .type { t with body := .object { o with properties := o.properties.map s.settleProperty } }
    | _ => .type t
  | c => c

/-- The state with the final cardinality of every property. -/
def settleEarlyUses (s : InferenceState) : InferenceState :=
  { s with slots := s.slots.map s.settleContent }

/-- The slots, and the uses of the shapes in input order, with every alias replaced by what it stands for. -/
def replaceAliases (s : InferenceState) (ids : List Node) :
    Except InferenceError (Arena × List (Node × TypeUse)) :=
  match Alias.replacements s.aliases with
  | .error shapes => .error (.unresolvedCycle (distinctNodes shapes))
  | .ok replacements =>
    let uses := ids.filterMap fun id => (s.use? id).map fun use => (id, use.mapSlot (replaceSlot replacements))
    .ok (s.slots.map (·.mapSlots (replaceSlot replacements)), uses)

end InferenceState

/-- The item type of a use, behind a list if it is one. -/
def itemContent? (slots : Arena) (item : Slot) : Option Content :=
  match slots[item]? with
  | some (.type { body := .list inner, .. }) => slots[inner]?
  | c => c

/-- Whether a lazy property shape refers to an object. -/
def checkLazyShape (slots : Arena) (uses : List (Node × TypeUse)) (id : Node) :
    Except InferenceError Unit :=
  match uses.lookup id with
  | none => .error (.invariant id .neverResolved)
  | some use =>
    match itemContent? slots use.item with
    | none => .error (.invariant id (.lazySlotMissing use.item))
    | some c => if c.actsAsObject then .ok () else .error (.malformed id (.lazyNotObject c.kind))

/-- Whether all lazy property shapes refer to objects. -/
def checkLazy (graph : ShapesGraph) (slots : Arena) (uses : List (Node × TypeUse)) :
    Except InferenceError Unit :=
  graph.propertyShapes.forM fun s =>
    if s.property?.any (·.lazy) then checkLazyShape slots uses s.id else .ok ()

/-- The shapes whose places are still kept among some slots. -/
def placeholdersAt (slots : Arena) (reached : List Slot) : List Node :=
  reached.filterMap fun (slot : Slot) =>
    match slots[slot]? with
    | some (.placeholder shape) => some shape
    | _ => none

/-- The slots to keep. Refused if a placeholder can be reached, or a type contains itself otherwise than
across a property. -/
def slotsToKeep (slots : Arena) (roots : List Slot) : Except InferenceError (List Slot) :=
  let reached := slots.reachable roots
  let unfinished := placeholdersAt slots reached
  if !unfinished.isEmpty then .error (.unresolvedCycle unfinished)
  else
    match slots.structuralCycle? with
    | some cycle =>
      .error (.unresolvedCycle (distinctNodes (cycle.filterMap fun slot => (slots[slot]?).map (·.shape))))
    | none => .ok reached

/-- Resolves every shape of a graph, each in a scope of its own. -/
def resolveAll (graph : ShapesGraph) (strict : Bool) : Infer Unit :=
  graph.ids.forM fun id => do
    let _ ← detached (resolveWithin graph strict (graph.size + 1) id)

/-- Resolves every shape of a graph, each in a scope of its own, with a log. -/
def resolveAllLogged (graph : ShapesGraph) (strict : Bool) : Infer Unit :=
  graph.ids.forM fun id => do
    let _ ← detached (resolveLogged graph strict (graph.size + 1) id)

/-- The entries of the shapes, with their slots renumbered. -/
def entriesOf (names : NameBook) (uses : List (Node × TypeUse)) (keep : List Slot) : List Entry :=
  uses.map fun (id, use) =>
    { shape := id, name := (names.shapes.lookup id).getD default
      use := use.mapSlot (Arena.renumber keep) }

/-- The schema of a shapes graph, all of whose shapes are resolved. -/
def ShapesGraph.complete (graph : ShapesGraph) (state : InferenceState) : Except InferenceError Schema := do
  let (slots, uses) ← state.settleEarlyUses.replaceAliases graph.ids
  checkLazy graph slots uses
  let keep ← slotsToKeep slots (uses.map (·.2.item))
  return {
    slots := slots.compact keep
    entries := entriesOf state.names uses keep
    record := state.names.record }

/-- The schema of a shapes graph, named with a prefix table. In strict mode defaults of booleans and strings
have to be well formed. -/
def ShapesGraph.infer (graph : ShapesGraph) (table : PrefixTable) (strict : Bool) :
    Except InferenceError Schema := do
  let (_, state) ← (resolveAll graph strict).run { names := .ofTable table }
  graph.complete state

/-- The schema of a shapes graph, as `ShapesGraph.infer` gives it, while a log of each shape is written. -/
def ShapesGraph.inferLogged (graph : ShapesGraph) (table : PrefixTable) (strict : Bool) :
    Except InferenceError Schema := do
  let (_, state) ← (resolveAllLogged graph strict).run { names := .ofTable table }
  graph.complete state

end ShapeTypes
