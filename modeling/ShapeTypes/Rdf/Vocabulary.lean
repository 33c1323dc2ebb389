import ShapeTypes.Rdf.Term

/-!
# Vocabularies of the web of data

The IRIs of RDF, RDF Schema, XML Schema and OWL that shapes graphs use, one namespace each.
-/

namespace ShapeTypes.Rdf

/-- The term `name` of the RDF vocabulary. -/
def rdf (name : String) : Iri := ⟨"http://www.w3.org/1999/02/22-rdf-syntax-ns#" ++ name⟩

/-- The term `name` of the RDF Schema vocabulary. -/
def rdfs (name : String) : Iri := ⟨"http://www.w3.org/2000/01/rdf-schema#" ++ name⟩

/-- The datatype `name` of XML Schema. -/
def xsd (name : String) : Iri := ⟨"http://www.w3.org/2001/XMLSchema#" ++ name⟩

/-- The term `name` of OWL. -/
def owl (name : String) : Iri := ⟨"http://www.w3.org/2002/07/owl#" ++ name⟩

/-- The class membership predicate. -/
def rdfType : Iri := rdf "type"

/-- The value of a list cell. -/
def rdfFirst : Iri := rdf "first"

/-- The list after a list cell. -/
def rdfRest : Iri := rdf "rest"

/-- The empty list. -/
def rdfNil : Iri := rdf "nil"

/-- The datatype of the literals with a language tag. -/
def rdfLangString : Iri := rdf "langString"

end ShapeTypes.Rdf
