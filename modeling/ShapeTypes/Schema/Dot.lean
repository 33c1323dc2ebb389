import ShapeTypes.Schema.Basic

/-!
# Schemas as DOT graphs

* `Statement` — the declaration of a node, or of an edge;
* `Schema.statements` — every node in slot order, then every edge in slot order;
* `escapeLabel` — a text inside a quoted label: quotes and backslashes get a backslash before them;
* `Schema.dot` — the text of the graph.
-/

namespace ShapeTypes.Dot

open Rdf

/-- How a node is drawn. -/
inductive Outline where
  | box
  | diamond
  | ellipse
  deriving DecidableEq

/-- What an edge stands for: the parent, a property with its name and cardinality, or a part. -/
inductive Mark where
  | extends
  | property (name cardinality : String)
  | part
  deriving DecidableEq

/-- A statement of a DOT graph. -/
inductive Statement where
  | node (slot : Slot) (outline : Outline) (name kind : String)
  | edge (source target : Slot) (mark : Mark)
  deriving DecidableEq

/-- A character inside a quoted label. -/
def escapeLabelChar (c : Char) : List Char :=
  if c = '\\' then ['\\', '\\'] else if c = '"' then ['\\', '"'] else [c]

/-- A text inside a quoted label. -/
def escapeLabel (s : String) : String := String.ofList (s.toList.flatMap escapeLabelChar)

def nodeName (slot : Slot) : String := "t" ++ toString slot

def Outline.text : Outline → String
  | .box => "box"
  | .diamond => "diamond"
  | .ellipse => "ellipse"

def Mark.text : Mark → String
  | .extends => "style=dashed, label=\"extends\""
  | .property name cardinality => "label=\"" ++ escapeLabel name ++ ": " ++ escapeLabel cardinality ++ "\""
  | .part => "style=dotted"

def Statement.text : Statement → String
  | .node slot outline name kind =>
    "    " ++ nodeName slot ++ " [shape=" ++ outline.text ++ ", label=\"" ++ escapeLabel name ++ "\\n[" ++
      escapeLabel kind ++ "]\"];\n"
  | .edge source target mark =>
    "    " ++ nodeName source ++ " -> " ++ nodeName target ++ " [" ++ mark.text ++ "];\n"

def outlineOf : Content → Outline
  | .type { body := .object _, .. } => .box
  | .type { body := .composite .., .. } => .diamond
  | _ => .ellipse

/-- What a node says of its type; a literal type shows its datatype. -/
def kindOf : Content → String
  | .type { body := .literal datatype _ _ _, .. } => "Literal " ++ datatype.value
  | c => c.kind

/-- The name that a node shows; a slot without a type shows its shape. -/
def nameOf (record : CurieRecord) : Content → String
  | .type t => t.name.resolved record
  | .placeholder shape => shape.bare

def nodeOf (record : CurieRecord) (slot : Slot) (c : Content) : Statement :=
  .node slot (outlineOf c) (nameOf record c) (kindOf c)

/-- The edges of a slot: parent, then properties; or the parts of any other type. -/
def edgesOf (record : CurieRecord) (slot : Slot) : Content → List Statement
  | .type { body := .object o, .. } =>
    (o.parent.map fun p => Statement.edge slot p .extends).toList ++
      o.properties.map fun p =>
        .edge slot p.use.item (.property (p.name.resolved record) p.use.cardinality.text)
  | c => c.children.map fun child => .edge slot child .part

end ShapeTypes.Dot

namespace ShapeTypes.Schema

open Dot

/-- The slots with their numbers. -/
def numbered (s : Schema) : List (Slot × Content) := (List.range s.slots.length).zip s.slots

/-- The statements of the graph of a schema, nodes first. -/
def statements (s : Schema) : List Statement :=
  s.numbered.map (fun (slot, c) => nodeOf s.record slot c) ++
    s.numbered.flatMap fun (slot, c) => edgesOf s.record slot c

def dot (s : Schema) : String :=
  "digraph ast \x7b\n    rankdir=LR;\n" ++ String.join (s.statements.map Statement.text) ++ "\x7d\n"

end ShapeTypes.Schema
