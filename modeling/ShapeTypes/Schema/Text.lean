import ShapeTypes.Schema.Basic

/-!
# Schemas as text

One line for each shape with its name and type, then each object type with its properties.
-/

namespace ShapeTypes.Schema

def entryLine (s : Schema) (e : Entry) : String :=
  e.name.resolved s.record ++ " (" ++ e.shape.text ++ "): " ++ s.describe e.use ++ "\n"

def propertyLine (s : Schema) (p : Property) : String :=
  "    " ++ p.name.resolved s.record ++ " <" ++ p.path.value ++ ">: " ++ s.describe p.use ++ "\n"

/-- The lines of an object type, after an empty one. -/
def objectLines (s : Schema) (name : Name) (o : ObjectBody) : String :=
  let parent := match o.parent with
    | some slot => " : " ++ s.describeSlot slot
    | none => ""
  "\nobject " ++ name.resolved s.record ++ parent ++ " \x7b\n" ++
    String.join (o.properties.map s.propertyLine) ++ "\x7d\n"

def text (s : Schema) : String :=
  String.join (s.entries.map s.entryLine) ++
    String.join (s.objects.map fun (name, o) => s.objectLines name o)

/-- The resolved name of each shape and where it comes from, under a heading, separated by tabs. -/
def nameTable (s : Schema) : String :=
  "Shape\tName\tSource\n" ++ String.join (s.entries.map fun e =>
    let (rung, name) := e.name.resolvedWithRung s.record
    e.shape.text ++ "\t" ++ name ++ "\t" ++ rung.text ++ "\n")

end ShapeTypes.Schema
