import ShapeTypes.Prefixes.Table

/-!
# Compact IRIs

A curie is the label of a prefix with the rest of an IRI after its namespace. Whether the rest alone tells
IRIs apart depends on every curie made so far, so the record of curies is a value of its own.

* `CurieRecord.create` — shrinks an IRI and records the curie;
* `CurieRecord.labelCount` — how many labels a reference was recorded with;
* `CurieRecord.isUnique` — whether that is one.
-/

namespace ShapeTypes

open Rdf

/-- A prefix label and what follows its namespace. -/
structure Curie where
  label : String
  reference : String
  deriving DecidableEq

/-- The curie as one word: `label_reference`, or the reference alone under the empty label. -/
def Curie.compact (c : Curie) : String :=
  if c.label = "" then c.reference else c.label ++ "_" ++ c.reference

/-- The curie as it is written: `label:reference`. -/
def Curie.text (c : Curie) : String := c.label ++ ":" ++ c.reference

/-- A prefix table with the different curies made with it so far. -/
structure CurieRecord where
  table : PrefixTable
  made : List Curie := []

namespace CurieRecord

/-- The curie of an IRI, without recording it. -/
def curie? (r : CurieRecord) (i : Iri) : Option Curie :=
  (r.table.shrink? i.value).map fun (label, reference) => ⟨label, reference⟩

def record (r : CurieRecord) (c : Curie) : CurieRecord :=
  if c ∈ r.made then r else { r with made := c :: r.made }

/-- The curie of an IRI, recorded. -/
def create (r : CurieRecord) (i : Iri) : Option Curie × CurieRecord :=
  match r.curie? i with
  | some c => (some c, r.record c)
  | none => (none, r)

/-- How many labels a reference was recorded with. -/
def labelCount (r : CurieRecord) (reference : String) : Nat :=
  r.made.countP fun c => c.reference = reference

/-- Whether the reference of a curie was recorded with one label only. -/
def isUnique (r : CurieRecord) (c : Curie) : Bool := r.labelCount c.reference = 1

theorem mem_record {r : CurieRecord} {c d : Curie} : d ∈ (r.record c).made ↔ d = c ∨ d ∈ r.made := by
  unfold record
  split
  · rename_i h
    constructor
    · exact .inr
    · rintro (rfl | h')
      · exact h
      · exact h'
  · simp

end CurieRecord

end ShapeTypes
