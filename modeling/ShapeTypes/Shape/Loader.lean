import ShapeTypes.Shape.Description

/-!
# Loading shapes graphs

Shapes are the nodes typed as shapes and the subjects of `sh:property` and `sh:path`, and every shape that
these refer to.

* `shapeSeeds` — the nodes that the search begins with;
* `discover` — reads shapes breadth first, each once;
* `Rdf.Graph.loadShapes` — the shapes graph that a graph describes.
-/

namespace ShapeTypes

open Rdf

/-- The nodes that the search for shapes begins with: the typed ones, node shapes first, then the others in
the order of their text. -/
def shapeSeeds (g : Graph) : List Node :=
  g.instances (sh "NodeShape") ++ g.instances (sh "PropertyShape") ++
    sortNodes (g.subjectsOf (sh "property") ++ g.subjectsOf (sh "path"))

/-- Reads the shapes of a queue and those they refer to, breadth first. `known` holds every node that is or
was in the queue; each step reads another node. -/
def discover (g : Graph) : Nat → List Node → List Node → Load (List Shape)
  | 0, _, _ => .ok []
  | _ + 1, _, [] => .ok []
  | fuel + 1, known, id :: queue => do
    let shape ← readShape g id
    let fresh := shape.references.eraseDups.filter fun n => n ∉ known
    return shape :: (← discover g fuel (known ++ fresh) (queue ++ fresh))

/-- The shapes that a graph describes, in the order of their discovery. -/
def readShapes (g : Graph) : Load (List Shape) :=
  let seeds := (shapeSeeds g).eraseDups
  discover g g.nodes.length seeds seeds

/-- The groups that properties are in, and those typed as groups. -/
def groupIds (g : Graph) (shapes : List Shape) : List Node :=
  (shapes.filterMap (fun s => s.property?.bind (·.group)) ++ g.instances (sh "PropertyGroup")).eraseDups

/-- The nodes typed as ontologies that are IRIs. -/
def ontologyIds (g : Graph) : List Iri := (g.instances (owl "Ontology")).filterMap (·.iri?)

/-- The shapes graph that a graph describes. -/
def Rdf.Graph.loadShapes (g : Graph) : Load ShapesGraph := do
  let shapes ← readShapes g
  let groups ← (groupIds g shapes).mapM (readGroup g)
  let ontologies ← (ontologyIds g).mapM (readOntology g)
  return ⟨Keyed.ofList shapes, Keyed.ofList ontologies, Keyed.ofList groups⟩

end ShapeTypes
