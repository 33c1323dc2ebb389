import ShapeTypes.Default

/-!
# Strict and lenient coercion of defaults

* `Waived` — a term that only strict coercion refuses, and the default that lenient coercion gives instead;
* `defaultFor_strict` — **nothing else depends on strictness**;
* `Waived.term_eq`, `Waived.target_eq` — the refusal tells the term, and the default tells the target.
-/

namespace ShapeTypes

open Rdf

/-- A term that strict coercion refuses for a target, with the default that lenient coercion gives instead. -/
inductive Waived (term : Term) : DefaultTarget → DefaultError → DefaultValue → Prop where
  | boolean : (∀ l, term = .literal l → l.lexical ∉ ["true", "1", "false", "0"]) →
      Waived term (.literal (xsd "boolean")) (.notBoolean term) (.boolean false)
  | string : (∀ l, term ≠ .literal l) →
      Waived term (.literal (xsd "string")) (.notString term) (.string "")

theorem readBoolean?_eq_none {s : String} (h : readBoolean? s = none) :
    s ∉ ["true", "1", "false", "0"] := by
  intro hmem
  simp only [List.mem_cons, List.not_mem_nil, or_false] at hmem
  rcases hmem with rfl | rfl | rfl | rfl <;> cases h

theorem literalDefault_strict (term : Term) (datatype : Iri) :
    literalDefault term datatype true = literalDefault term datatype false ∨
      ∃ cause d, literalDefault term datatype true = .error cause ∧
        literalDefault term datatype false = .ok d ∧ Waived term (.literal datatype) cause d := by
  unfold literalDefault
  by_cases hboolean : datatype = xsd "boolean"
  · subst hboolean
    rw [if_pos rfl, if_pos rfl]
    cases hb : term.literal?.bind fun l => readBoolean? l.lexical with
    | some b => exact Or.inl rfl
    | none =>
        refine Or.inr ⟨_, _, rfl, rfl, .boolean ?_⟩
        rintro l rfl
        exact readBoolean?_eq_none hb
  · rw [if_neg hboolean, if_neg hboolean]
    by_cases hstring : datatype = xsd "string"
    · subst hstring
      rw [if_pos rfl, if_pos rfl]
      cases hl : term.literal? with
      | some l => exact Or.inl rfl
      | none =>
          refine Or.inr ⟨_, _, rfl, rfl, .string ?_⟩
          rintro l rfl
          cases hl
    · rw [if_neg hstring, if_neg hstring]
      exact Or.inl rfl

/-- **Strict coercion gives what lenient coercion gives**, unless it refuses a term that is waived. -/
theorem defaultFor_strict (term : Term) (target : DefaultTarget) :
    defaultFor term target true = defaultFor term target false ∨
      ∃ cause d, defaultFor term target true = .error cause ∧ defaultFor term target false = .ok d ∧
        Waived term target cause d := by
  cases target with
  | literal datatype => exact literalDefault_strict term datatype
  | iri allowed => exact Or.inl rfl
  | term => exact Or.inl rfl
  | object => exact Or.inl rfl

/-! ## What refusals and defaults tell -/

section

variable {term term' : Term} {target target' : DefaultTarget} {cause : DefaultError} {d : DefaultValue}
  {strict : Bool}

/-- A numeral is refused as a numeral, or gives something that is neither a boolean nor a string. -/
theorem numeralDefault_cases (l : Literal) (datatype : Iri) :
    (∃ cause, numeralDefault l datatype = .error (.notNumeral l.lexical datatype cause)) ∨
      ∃ d, numeralDefault l datatype = .ok d ∧ (∀ b, d ≠ .boolean b) ∧ ∀ s, d ≠ .string s := by
  unfold numeralDefault
  simp only
  split
  · cases Numeric.Integer.read l.lexical with
    | error e => exact Or.inl ⟨_, rfl⟩
    | ok v => exact Or.inr ⟨_, rfl, nofun, nofun⟩
  · split
    · cases Numeric.Decimal.read l.lexical with
      | error e => exact Or.inl ⟨_, rfl⟩
      | ok v => exact Or.inr ⟨_, rfl, nofun, nofun⟩
    · split
      · cases Numeric.Binary64.read l.lexical with
        | error e => exact Or.inl ⟨_, rfl⟩
        | ok v => exact Or.inr ⟨_, rfl, nofun, nofun⟩
      · exact Or.inr ⟨_, rfl, nofun, nofun⟩

/-- Only items of the two datatypes have booleans and strings as defaults. -/
theorem literalDefault_eq_ok {datatype : Iri} (h : literalDefault term datatype strict = .ok d) :
    ((∃ b, d = .boolean b) → datatype = xsd "boolean") ∧ ((∃ s, d = .string s) → datatype = xsd "string") := by
  unfold literalDefault at h
  split at h
  · rename_i hboolean
    refine ⟨fun _ => hboolean, ?_⟩
    rintro ⟨s, rfl⟩
    split at h
    · cases h
    · split at h <;> cases h
  · split at h
    · rename_i hstring
      refine ⟨?_, fun _ => hstring⟩
      rintro ⟨b, rfl⟩
      split at h
      · cases h
      · split at h <;> cases h
    · split at h
      · rename_i l _
        rcases numeralDefault_cases l datatype with ⟨e, he⟩ | ⟨d', hd', hboolean, hstring⟩
        · rw [he] at h
          cases h
        · cases hd'.symm.trans h
          exact ⟨fun ⟨b, hb⟩ => absurd hb (hboolean b), fun ⟨s, hs⟩ => absurd hs (hstring s)⟩
      · cases h

/-- Only the term itself is refused as no boolean, or no string. -/
theorem literalDefault_eq_error {datatype : Iri} (h : literalDefault term datatype strict = .error cause) :
    (∀ t, cause = .notBoolean t → term = t) ∧ ∀ t, cause = .notString t → term = t := by
  unfold literalDefault at h
  split at h
  · split at h
    · cases h
    · split at h
      · cases h
        exact ⟨fun t ht => DefaultError.notBoolean.inj ht, nofun⟩
      · cases h
  · split at h
    · split at h
      · cases h
      · split at h
        · cases h
          exact ⟨nofun, fun t ht => DefaultError.notString.inj ht⟩
        · cases h
    · split at h
      · rename_i l _
        rcases numeralDefault_cases l datatype with ⟨e, he⟩ | ⟨d', hd', -⟩
        · cases he.symm.trans h
          exact ⟨nofun, nofun⟩
        · cases hd'.symm.trans h
      · cases h
        exact ⟨nofun, nofun⟩

/-- **The refusal tells which term was refused.** -/
theorem Waived.term_eq (w : Waived term target cause d)
    (h : defaultFor term' target' strict = .error cause) : term' = term := by
  have hliteral : ∃ datatype, literalDefault term' datatype strict = .error cause := by
    cases target' with
    | literal datatype => exact ⟨datatype, h⟩
    | iri allowed =>
        simp only [defaultFor] at h
        split at h
        · split at h
          · cases h
          · cases h
            cases w
        · cases h
          cases w
    | term =>
        simp only [defaultFor] at h
        split at h <;> cases h
        cases w
    | object =>
        cases h
        cases w
  obtain ⟨datatype, hliteral⟩ := hliteral
  obtain ⟨hboolean, hstring⟩ := literalDefault_eq_error hliteral
  cases w with
  | boolean => exact hboolean term rfl
  | string => exact hstring term rfl

/-- **The default that replaces a refused one tells the target.** -/
theorem Waived.target_eq (w : Waived term target cause d)
    (h : defaultFor term' target' strict = .ok d) : target' = target := by
  cases target' with
  | literal datatype =>
      obtain ⟨hboolean, hstring⟩ := literalDefault_eq_ok h
      cases w with
      | boolean => rw [hboolean ⟨_, rfl⟩]
      | string => rw [hstring ⟨_, rfl⟩]
  | iri allowed =>
      simp only [defaultFor] at h
      split at h
      · split at h <;> cases h
        cases w
      · cases h
  | term =>
      simp only [defaultFor] at h
      split at h <;> cases h <;> cases w
  | object => cases h

end

end ShapeTypes
