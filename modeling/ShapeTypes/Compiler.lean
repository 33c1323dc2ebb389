import ShapeTypes.Inference.Infer
import ShapeTypes.Rdf.Turtle.Source
import ShapeTypes.Schema.Dot
import ShapeTypes.Schema.Text
import ShapeTypes.Shape.Loader

/-!
# Compilers

A compiler holds a loaded shapes graph with the prefixes and the mode to infer its schema with; it can be
changed and run any number of times.

* `Compiler.ofGraph`, `Compiler.ofTurtle` — the compiler of the shapes that a graph or a text describes;
* `Compiler.compile` — the schema.
-/

namespace ShapeTypes

/-- A shapes graph with what its schema is inferred with, and whether a log of each shape is written meanwhile. -/
structure Compiler where
  shapes : ShapesGraph
  table : PrefixTable
  strict : Bool := false
  logging : Bool := false

/-- Why a text gives no shapes graph: it is not Turtle, or the shapes it describes cannot be read. -/
inductive SourceError where
  | turtle (cause : Rdf.Turtle.SyntaxError)
  | shapes (cause : LoadError)
  deriving DecidableEq

def SourceError.message : SourceError → String
  | .turtle cause => cause.message
  | .shapes cause => cause.message

namespace Compiler

/-- The compiler of the shapes that a graph describes. -/
def ofGraph (g : Rdf.Graph) (table : PrefixTable) : Load Compiler := do
  return { shapes := ← g.loadShapes, table }

/-- The compiler of the shapes that a Turtle text describes. -/
def ofTurtle (s : String) : Except SourceError Compiler := do
  let source ← (Rdf.Turtle.Source.read s).mapError .turtle
  (ofGraph source.graph source.table).mapError .shapes

/-- Binds a prefix, anew if it is bound. -/
def bindPrefix (c : Compiler) (label space : String) : Compiler :=
  { c with table := c.table.insert label space }

/-- Chooses whether ill-formed defaults of booleans and strings are refused. -/
def setStrict (c : Compiler) (strict : Bool) : Compiler := { c with strict }

/-- The schema of the shapes. -/
def compile (c : Compiler) : Except InferenceError Schema :=
  if c.logging then c.shapes.inferLogged c.table c.strict else c.shapes.infer c.table c.strict

end Compiler

end ShapeTypes
