import ShapeTypes.Default
import ShapeTypes.Proofs.Numeric.Integer

/-!
# Integer defaults and the value spaces of their datatypes

All integer datatypes are read alike, as integers of 64 bits, and the bounds of the datatype are not looked at. So
a default may lie outside the value space of the datatype it is a default for.

* `IntegerSpace`, `integerSpaces` — the value spaces of the integer datatypes;
* `integerDefault_eq_ok_iff` — an integer default is what the lexical form denotes, if that has 64 bits;
* `integerDefaults_inSpace_iff` — **all of them lie in the value space for two of the datatypes only**;
* `byte_default_three_hundred` — one that does not.
-/

namespace ShapeTypes

open Rdf Numeric

/-! ## Value spaces -/

/-- The integers between two bounds, each of which may be missing. -/
structure IntegerSpace where
  lo : Option Int := none
  hi : Option Int := none
  deriving DecidableEq

namespace IntegerSpace

/-- The integers of so many bits, one of them for the sign. -/
def signed (bits : Nat) : IntegerSpace := ⟨some (-2 ^ (bits - 1)), some (2 ^ (bits - 1) - 1)⟩

/-- The integers of so many bits that are not negative. -/
def unsigned (bits : Nat) : IntegerSpace := ⟨some 0, some (2 ^ bits - 1)⟩

/-- An integer is within the bounds. -/
def Contains (s : IntegerSpace) (v : Int) : Prop := (∀ lo ∈ s.lo, lo ≤ v) ∧ ∀ hi ∈ s.hi, v ≤ hi

instance (s : IntegerSpace) (v : Int) : Decidable (s.Contains v) :=
  inferInstanceAs (Decidable ((∀ lo ∈ s.lo, lo ≤ v) ∧ ∀ hi ∈ s.hi, v ≤ hi))

end IntegerSpace

/-- The value spaces of the integer datatypes. -/
def integerSpaces : List (Iri × IntegerSpace) := [
  (xsd "integer", {}),
  (xsd "int", .signed 32),
  (xsd "long", .signed 64),
  (xsd "short", .signed 16),
  (xsd "byte", .signed 8),
  (xsd "nonNegativeInteger", { lo := some 0 }),
  (xsd "nonPositiveInteger", { hi := some 0 }),
  (xsd "positiveInteger", { lo := some 1 }),
  (xsd "negativeInteger", { hi := some (-1) }),
  (xsd "unsignedLong", .unsigned 64),
  (xsd "unsignedInt", .unsigned 32),
  (xsd "unsignedShort", .unsigned 16),
  (xsd "unsignedByte", .unsigned 8)]

theorem map_fst_integerSpaces : integerSpaces.map Prod.fst = integerDatatypes := rfl

namespace IntegerSpace

variable {s : IntegerSpace}

/-- A space contains all integers of 64 bits if it contains the least and the greatest. -/
theorem contains_words_iff : (∀ v, Integer.least ≤ v → v ≤ Integer.greatest → s.Contains v) ↔
    s.Contains Integer.least ∧ s.Contains Integer.greatest := by
  have hle : Integer.least ≤ Integer.greatest := by decide
  constructor
  · intro h
    exact ⟨h _ (Int.le_refl _) hle, h _ hle (Int.le_refl _)⟩
  · rintro ⟨⟨hlo, -⟩, -, hhi⟩ v hleast hgreatest
    exact ⟨fun lo hmem => Int.le_trans (hlo lo hmem) hleast, fun hi hmem => Int.le_trans hgreatest (hhi hi hmem)⟩

end IntegerSpace

/-- Two of the value spaces contain all integers of 64 bits. -/
theorem integerSpaces_contain_words_iff {datatype : Iri} {space : IntegerSpace}
    (h : (datatype, space) ∈ integerSpaces) :
    (∀ v, Integer.least ≤ v → v ≤ Integer.greatest → space.Contains v) ↔
      datatype = xsd "integer" ∨ datatype = xsd "long" := by
  have hall : ∀ p ∈ integerSpaces, (p.2.Contains Integer.least ∧ p.2.Contains Integer.greatest) ↔
      p.1 = xsd "integer" ∨ p.1 = xsd "long" := by decide
  rw [IntegerSpace.contains_words_iff]
  exact hall _ h

/-! ## Defaults of integer datatypes -/

section

variable {datatype : Iri} {term : Term} {strict : Bool} {d : DefaultValue} {v : Int}

/-- Integer datatypes are neither booleans nor strings: a literal is read as an integer, strictly or not. -/
theorem literalDefault_of_integer (h : datatype ∈ integerDatatypes) : literalDefault term datatype strict =
    match term.literal? with
    | some l => DefaultValue.integer <$> (Integer.read l.lexical).mapError
        fun e => .notNumeral l.lexical datatype (.integer e)
    | none => .error (.notLiteral term datatype) := by
  have hboolean : datatype ≠ xsd "boolean" := by
    rintro rfl
    exact absurd h (by decide)
  have hstring : datatype ≠ xsd "string" := by
    rintro rfl
    exact absurd h (by decide)
  unfold literalDefault numeralDefault
  dsimp only
  rw [if_neg hboolean, if_neg hstring]
  cases term.literal? with
  | some l => exact if_pos h
  | none => rfl

/-- **An integer default is what the lexical form denotes, if that has 64 bits.** -/
theorem integerDefault_eq_ok_iff (h : datatype ∈ integerDatatypes) :
    defaultFor term (.literal datatype) strict = .ok d ↔ ∃ l v, term = .literal l ∧ d = .integer v ∧
      Integer.Denotes l.lexical.toList v ∧ Integer.least ≤ v ∧ v ≤ Integer.greatest := by
  rw [defaultFor, literalDefault_of_integer h]
  cases term with
  | node n =>
      refine ⟨nofun, ?_⟩
      rintro ⟨l, v, heq, -⟩
      cases heq
  | literal l =>
      simp only [← Integer.read_eq_ok_iff, Term.literal.injEq, exists_and_left, exists_eq_left', Term.literal?]
      cases Integer.read l.lexical with
      | error e => simp [Except.mapError, Functor.map, Except.map]
      | ok v => simp [Except.mapError, Functor.map, Except.map, eq_comm]

theorem word_of_integerDefault (h : datatype ∈ integerDatatypes)
    (hv : defaultFor term (.literal datatype) strict = .ok (.integer v)) :
    Integer.least ≤ v ∧ v ≤ Integer.greatest := by
  obtain ⟨_, _, -, ⟨⟩, -, hword⟩ := (integerDefault_eq_ok_iff h).1 hv
  exact hword

theorem exists_integerDefault (h : datatype ∈ integerDatatypes) (hv : Integer.least ≤ v ∧ v ≤ Integer.greatest) :
    ∃ l, ∀ strict, defaultFor (.literal l) (.literal datatype) strict = .ok (.integer v) := by
  obtain ⟨s, hs⟩ := Integer.exists_denotes v
  exact ⟨.plain s, fun strict => (integerDefault_eq_ok_iff h).2 ⟨.plain s, v, rfl, rfl, hs, hv⟩⟩

end

/-- The defaults of an integer datatype, if `space` has the values of the datatype. -/
structure IntegerDefaults (datatype : Iri) (space : IntegerSpace) : Prop where
  /-- Only literals give defaults, strictly or not: the integer of 64 bits that the lexical form denotes. -/
  ok_iff : ∀ term strict d, defaultFor term (.literal datatype) strict = .ok d ↔
    ∃ l v, term = .literal l ∧ d = .integer v ∧
      Integer.Denotes l.lexical.toList v ∧ Integer.least ≤ v ∧ v ≤ Integer.greatest
  /-- Each integer of 64 bits is given for some literal, whatever the datatype is, ... -/
  words : ∀ v, (∃ l, ∀ strict, defaultFor (.literal l) (.literal datatype) strict = .ok (.integer v)) ↔
    Integer.least ≤ v ∧ v ≤ Integer.greatest
  /-- ... and so all defaults lie in the value space for two of the datatypes, and for no other. -/
  inSpace_iff : (∀ l strict v, defaultFor (.literal l) (.literal datatype) strict = .ok (.integer v) →
    space.Contains v) ↔ datatype = xsd "integer" ∨ datatype = xsd "long"

/-- **Integer defaults are integers of 64 bits, and lie in the value space only where that has all of these.** -/
theorem integerDefaults_inSpace_iff {datatype : Iri} {space : IntegerSpace} (h : (datatype, space) ∈ integerSpaces) :
    IntegerDefaults datatype space := by
  have hmem : datatype ∈ integerDatatypes := map_fst_integerSpaces ▸ List.mem_map_of_mem h
  constructor
  case ok_iff => exact fun _ _ _ => integerDefault_eq_ok_iff hmem
  case words =>
    intro v
    exact ⟨fun ⟨_, hl⟩ => word_of_integerDefault hmem (hl true), exists_integerDefault hmem⟩
  case inSpace_iff =>
    rw [← integerSpaces_contain_words_iff h]
    constructor
    · intro hall v hleast hgreatest
      obtain ⟨l, hl⟩ := exists_integerDefault hmem ⟨hleast, hgreatest⟩
      exact hall l true v (hl true)
    · intro hall l strict v hv
      obtain ⟨hleast, hgreatest⟩ := word_of_integerDefault hmem hv
      exact hall v hleast hgreatest

/-! ## A byte that is none -/

/-- The literal `"300"^^xsd:byte` gives 300 for a byte, strictly as well; bytes end at 127. -/
theorem byte_default_three_hundred :
    (xsd "byte", IntegerSpace.signed 8) ∈ integerSpaces ∧
      defaultFor (.literal (.typed "300" (xsd "byte"))) (.literal (xsd "byte")) true = .ok (.integer 300) ∧
      defaultFor (.literal (.typed "300" (xsd "byte"))) (.literal (xsd "byte")) false = .ok (.integer 300) ∧
      ¬ (IntegerSpace.signed 8).Contains 300 := by
  refine ⟨by decide, ?_, ?_, by decide⟩ <;> decide +kernel

/-- The defaults of `xsd:long` are longs, and those of `xsd:byte` need not be bytes. -/
theorem long_and_byte_defaults :
    ((xsd "long", IntegerSpace.signed 64) ∈ integerSpaces ∧ ∀ l strict v,
      defaultFor (.literal l) (.literal (xsd "long")) strict = .ok (.integer v) →
        (IntegerSpace.signed 64).Contains v) ∧
    ((xsd "byte", IntegerSpace.signed 8) ∈ integerSpaces ∧ ¬ ∀ l strict v,
      defaultFor (.literal l) (.literal (xsd "byte")) strict = .ok (.integer v) →
        (IntegerSpace.signed 8).Contains v) := by
  have hlong : (xsd "long", IntegerSpace.signed 64) ∈ integerSpaces := by decide
  have hbyte : (xsd "byte", IntegerSpace.signed 8) ∈ integerSpaces := by decide
  refine ⟨⟨hlong, ?_⟩, hbyte, ?_⟩
  · exact (integerDefaults_inSpace_iff hlong).inSpace_iff.2 (Or.inr rfl)
  · rw [(integerDefaults_inSpace_iff hbyte).inSpace_iff]
    decide

end ShapeTypes
