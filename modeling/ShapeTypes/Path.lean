import ShapeTypes.Rdf.Term

/-!
# Property paths

* `Path` — the seven kinds of property path;
* `Path.predicate?` — the IRI of a path that is a single predicate;
* `Path.kind` — a few words for messages;
* `Path.text` — the path in the notation of queries: sequences and alternatives in parentheses, `^` before
  and `*`, `+`, `?` after what they apply to.
-/

namespace ShapeTypes

open Rdf

inductive Path where
  | predicate (iri : Iri)
  | inverse (path : Path)
  | sequence (paths : List Path)
  | alternative (paths : List Path)
  | zeroOrMore (path : Path)
  | oneOrMore (path : Path)
  | zeroOrOne (path : Path)
  deriving Inhabited

namespace Path

/-- The IRI of a path that is a single predicate. -/
def predicate? : Path → Option Iri
  | predicate i => some i
  | _ => none

/-- What kind of path it is, for messages. -/
def kind : Path → String
  | predicate _ => "predicate path"
  | inverse _ => "inverse path"
  | sequence _ => "sequence path"
  | alternative _ => "alternative path"
  | zeroOrMore _ => "zero-or-more path"
  | oneOrMore _ => "one-or-more path"
  | zeroOrOne _ => "zero-or-one path"

mutual

/-- The path in the notation of queries. -/
def text : Path → String
  | predicate i => i.text
  | inverse p => "^" ++ text p
  | sequence ps => "(" ++ " / ".intercalate (texts ps) ++ ")"
  | alternative ps => "(" ++ " | ".intercalate (texts ps) ++ ")"
  | zeroOrMore p => text p ++ "*"
  | oneOrMore p => text p ++ "+"
  | zeroOrOne p => text p ++ "?"

def texts : List Path → List String
  | [] => []
  | p :: ps => text p :: texts ps

end

theorem texts_eq_map (ps : List Path) : texts ps = ps.map text := by
  induction ps with
  | nil => rfl
  | cons p ps ih => simp [texts, ih]

end Path

end ShapeTypes
