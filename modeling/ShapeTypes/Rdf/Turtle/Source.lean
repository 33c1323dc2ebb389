import ShapeTypes.Prefixes.Scan
import ShapeTypes.Rdf.Turtle.Document

/-!
# Turtle sources

* `Source` — the graph of a Turtle text, and the prefixes to name its terms with;
* `Source.read` — both of a text. The prefixes are the well-known ones and those that its lines declare,
  which are not always the ones that the document declares.
-/

namespace ShapeTypes.Rdf.Turtle

/-- A graph with prefixes to name its terms with. -/
structure Source where
  graph : Graph
  table : PrefixTable

/-- The prefixes to name the terms of a text with. -/
def tableOf (s : String) : PrefixTable := PrefixTable.wellKnown.extend (.ofLines s)

def Source.read (s : String) : Except SyntaxError Source := do
  let document ← Document.read s
  return { graph := .ofList document.triples, table := tableOf s }

end ShapeTypes.Rdf.Turtle
