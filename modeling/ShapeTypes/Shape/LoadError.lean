import ShapeTypes.Rdf.Collection
import ShapeTypes.Text.Quoted

/-!
# Load errors

* `ShapeFault` — why the description of a shape cannot be read;
* `LoadError` — such a fault, or a broken list, with the shape it is found on; or no answer at all;
* `LoadError.message` — the wording.
-/

namespace ShapeTypes

open Rdf

/-- Why the description of a shape cannot be read. -/
inductive ShapeFault where
  | notShapeReference (term : Term)
  | notLiteral (predicate : Iri) (found : Term)
  | notIri (predicate : Iri) (found : Term)
  | notCount (predicate : Iri) (found : Literal)
  | notBoolean (predicate : Iri) (found : Literal)
  | notNumber (predicate : Iri) (found : Literal)
  | notFeature (found : Term)
  | unknownNodeKind (found : Iri)
  | unknownVisibility (found : String)
  | pathNotNode (found : Term)
  | pathStructure
  | noPath
  deriving DecidableEq

def ShapeFault.message : ShapeFault → String
  | .notShapeReference t => t.text ++ " is not a shape reference"
  | .notLiteral p t => p.text ++ " must be a literal, found " ++ t.text
  | .notIri p t => p.text ++ " must be an IRI, found " ++ t.text
  | .notCount p l => p.text ++ " must be a non-negative integer, found " ++ l.text
  | .notBoolean p l => p.text ++ " must be a boolean, found " ++ l.text
  | .notNumber p l => p.text ++ " must be a number, found " ++ l.text
  | .notFeature t => "feature " ++ t.text ++ " must be a string or IRI"
  | .unknownNodeKind i => "unknown node kind " ++ i.text
  | .unknownVisibility s => "unknown visibility " ++ Text.quoted s
  | .pathNotNode t => "sh:path must be an IRI or blank node, found " ++ t.text
  | .pathStructure => "unknown property path structure"
  | .noPath => "property shape without sh:path"

/-- Why a shapes graph cannot be read. `endless` is not reported: the path of the shape is one whose reading does
not end, whatever depth it is given. -/
inductive LoadError where
  | invalidShape (shape : Node) (fault : ShapeFault)
  | invalidList (shape : Node) (cause : CollectionError)
  | endless (shape : Node)
  deriving DecidableEq

def LoadError.message : LoadError → String
  | .invalidShape s fault => "Invalid shape definition for " ++ s.text ++ ": " ++ fault.message
  | .invalidList s cause => "Invalid RDF list in shape " ++ s.text ++ ": " ++ cause.message
  | .endless s => "Property path without end in shape " ++ s.text

end ShapeTypes
