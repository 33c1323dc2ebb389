import ShapeTypes.Curie
import ShapeTypes.Shape.Basic

/-!
# Names

A name keeps every candidate for naming a shape, best first, and is resolved against the curies recorded by
then: a local part counts only while no other prefix gives the same one.

* `Rung` — where a candidate comes from, best first;
* `Candidate`, `Name` — the candidates of a name, of which the last is the raw identifier;
* `Name.resolved` — the first candidate that has a value; `Name.offers` — all of them;
* `identifierOf` — a text as an identifier of letters, digits and underscores;
* `NameBook` — the names given so far; `NameBook.nameShape`, `NameBook.nameIri`.
-/

namespace ShapeTypes

open Rdf

/-- Where the candidates of a name come from, best first. -/
inductive Rung where
  | override
  | shaclName
  | label
  | pathLocal
  | pathCompact
  | identifierLocal
  | identifierCompact
  | pathString
  | identifier
  deriving DecidableEq

def Rung.text : Rung → String
  | .override => "Override"
  | .shaclName => "ShaclName"
  | .label => "Label"
  | .pathLocal => "PathLocal"
  | .pathCompact => "PathCompact"
  | .identifierLocal => "IdentifierLocal"
  | .identifierCompact => "IdentifierCompact"
  | .pathString => "PathString"
  | .identifier => "Identifier"

/-- The place of a rung on the ladder. -/
def Rung.rank : Rung → Nat
  | .override => 0
  | .shaclName => 1
  | .label => 2
  | .pathLocal => 3
  | .pathCompact => 4
  | .identifierLocal => 5
  | .identifierCompact => 6
  | .pathString => 7
  | .identifier => 8

/-- A candidate: a fixed text, the local part of a curie while it is unique, or a whole curie. -/
inductive Candidate where
  | fixed (rung : Rung) (value : String)
  | localPart (rung : Rung) (curie : Curie)
  | compact (rung : Rung) (curie : Curie)
  deriving DecidableEq

namespace Candidate

/-- The rung of a candidate. -/
def rung : Candidate → Rung
  | fixed r _ => r
  | localPart r _ => r
  | compact r _ => r

/-- The value of a candidate, given the curies recorded so far. -/
def value? (record : CurieRecord) : Candidate → Option String
  | fixed _ v => some v
  | localPart _ c => if record.isUnique c then some c.reference else none
  | compact _ c => some c.compact

end Candidate

/-! ## Identifiers -/

/-- The characters of an identifier. -/
def isIdentifierChar (c : Char) : Bool := c.isAlphanum || c == '_'

/-- Each run of other characters as one underscore; `inRun` tells that one was just written. -/
def joinRuns (inRun : Bool) : List Char → List Char
  | [] => []
  | c :: rest =>
    if isIdentifierChar c then c :: joinRuns false rest
    else if inRun then joinRuns true rest
    else '_' :: joinRuns true rest

/-- The characters between the underscores at both ends. -/
def trimUnderscores (cs : List Char) : List Char :=
  ((cs.dropWhile (· = '_')).reverse.dropWhile (· = '_')).reverse

/-- The characters of a text as those of an identifier. -/
def identifierChars (cs : List Char) : List Char :=
  match trimUnderscores (joinRuns false cs) with
  | [] => ['_']
  | c :: rest => if c.isDigit then '_' :: c :: rest else c :: rest

/-- A text as an identifier: runs of other characters become one underscore, those at the ends go, and a
leading digit gets one before it. -/
def identifierOf (s : String) : String := String.ofList (identifierChars s.toList)

/-! ## Names -/

/-- The candidates for a name, best first. -/
structure Name where
  candidates : List Candidate
  deriving DecidableEq, Inhabited

namespace Name

/-- The first candidate that has a value, with its rung. -/
def resolvedWithRung (n : Name) (record : CurieRecord) : Rung × String :=
  (n.candidates.findSome? fun c => (c.value? record).map fun v => (c.rung, v)).getD (.identifier, "")

/-- The first candidate that has a value. -/
def resolved (n : Name) (record : CurieRecord) : String := (n.resolvedWithRung record).2

/-- Every candidate with the value it has. -/
def offers (n : Name) (record : CurieRecord) : List (Rung × Option String) :=
  n.candidates.map fun c => (c.rung, c.value? record)

def identifier (n : Name) (record : CurieRecord) : String := identifierOf (n.resolved record)

/-- The full identifier, which is the last candidate. -/
def raw (n : Name) : String :=
  match n.candidates.getLast? with
  | some (.fixed .identifier v) => v
  | _ => ""

end Name

/-! ## Giving names -/

/-- The names given so far, to shapes and to bare IRIs apart, and the curies recorded for them. -/
structure NameBook where
  record : CurieRecord
  shapes : List (Node × Name) := []
  iris : List (Iri × Name) := []

namespace NameBook

/-- The book of a prefix table, with no name given. -/
def ofTable (t : PrefixTable) : NameBook := ⟨⟨t, []⟩, [], []⟩

/-- A fixed candidate for a text that is present. -/
def fixed? (rung : Rung) (value : Option String) : List Candidate :=
  (value.map (Candidate.fixed rung)).toList

/-- The candidates from the path of a property shape. -/
def pathCandidates (curie : Option Curie) : List Candidate :=
  match curie with
  | some c => [.localPart .pathLocal c, .compact .pathCompact c]
  | none => []

/-- The candidates from an identifier; the identifier of a property shape is not named by its local part. -/
def identifierCandidates (withLocal : Bool) (curie : Option Curie) : List Candidate :=
  match curie with
  | some c =>
    (if withLocal then [.localPart .identifierLocal c] else []) ++ [.compact .identifierCompact c]
  | none => []

/-- Records the curie of an IRI, if there is one. -/
def shrink (record : CurieRecord) (i : Option Iri) : Option Curie × CurieRecord :=
  match i with
  | some i => record.create i
  | none => (none, record)

/-- The name of a shape, and the curies recorded with its own. -/
def build (record : CurieRecord) (s : Shape) : Name × CurieRecord :=
  let path := s.property?.map (·.path)
  let (pathCurie, record) := shrink record (path.bind (·.predicate?))
  let (idCurie, record) := shrink record s.id.iri?
  let candidates :=
    fixed? .override s.labels.overrideName ++ fixed? .shaclName s.labels.name ++
      fixed? .label s.labels.label ++ pathCandidates pathCurie ++
      identifierCandidates s.isNode idCurie ++ fixed? .pathString (path.map (·.text)) ++
      [.fixed .identifier s.id.bare]
  (⟨candidates⟩, record)

/-- The name of a bare IRI, and the curies recorded with its own. -/
def buildIri (record : CurieRecord) (i : Iri) : Name × CurieRecord :=
  let (curie, record) := record.create i
  (⟨identifierCandidates true curie ++ [.fixed .identifier i.value]⟩, record)

/-- Names a shape, or gives the name it has. -/
def nameShape (b : NameBook) (s : Shape) : Name × NameBook :=
  match b.shapes.lookup s.id with
  | some n => (n, b)
  | none =>
    let (n, record) := build b.record s
    (n, { b with record := record, shapes := (s.id, n) :: b.shapes })

/-- Names a bare IRI, or gives the name it has. -/
def nameIri (b : NameBook) (i : Iri) : Name × NameBook :=
  match b.iris.lookup i with
  | some n => (n, b)
  | none =>
    let (n, record) := buildIri b.record i
    (n, { b with record := record, iris := (i, n) :: b.iris })

end NameBook

end ShapeTypes
