import ShapeTypes.Rdf.Term

/-!
# The vocabulary of shapes

* `sh` — the terms of SHACL;
* `hint` — the hints for code that is generated from a schema: names, mutability, visibility, laziness,
  lists, features and kinds of declaration.
-/

namespace ShapeTypes

open Rdf

/-- The term `name` of SHACL. -/
def sh (name : String) : Iri := ⟨"http://www.w3.org/ns/shacl#" ++ name⟩

/-- The term `name` of the vocabulary of hints. -/
def hint (name : String) : Iri := ⟨"urn:shacl-ast#" ++ name⟩

end ShapeTypes
