import Mathlib.Logic.Function.Basic
import ShapeTypes.Rdf.Graph

/-!
# The text of a term tells which term it is

* `readEscaped?` — reads a character of a lexical form back; `readEscaped?_escapedChar` — **it reads every character
  that was escaped**;
* `lexicalText_append_inj` — so the end of a lexical form is found in whatever follows it;
* `Node.text_injective`, `Term.text_injective` — **different terms have different texts**;
* `sortNodes_eq_of_perm`, `sortTerms_eq_of_perm` — so sorting by text leaves no choice.
-/

namespace ShapeTypes.Rdf

open Text

/-! ## Escaped characters -/

/-- The character that a letter stands for after a backslash. -/
def escapeOf? : Char → Option Char
  | 'b' => some '\x08'
  | 't' => some '\t'
  | 'n' => some '\n'
  | 'f' => some '\x0c'
  | 'r' => some '\r'
  | '"' => some '"'
  | '\\' => some '\\'
  | _ => none

/-- The value of four hexadecimal digits. -/
def hexValue4? (a b c d : Char) : Option Nat := do
  let a ← hexValue? a
  let b ← hexValue? b
  let c ← hexValue? c
  let d ← hexValue? d
  return 4096 * a + 256 * b + 16 * c + d

/-- Reads what follows a backslash. -/
def readEscape? : List Char → Option (Char × List Char)
  | 'u' :: a :: b :: c :: d :: rest => (hexValue4? a b c d).map fun n => (Char.ofNat n, rest)
  | letter :: rest => (escapeOf? letter).map fun c => (c, rest)
  | [] => none

/-- Reads a character of a lexical form, escaped or not. A quote ends the form. -/
def readEscaped? : List Char → Option (Char × List Char)
  | [] => none
  | c :: rest => if c = '"' then none else if c = '\\' then readEscape? rest else some (c, rest)

theorem hexValue?_upperDigit {n : Nat} (h : n < 16) : hexValue? (upperDigit n) = some n := by
  have hall : ∀ n : Fin 16, hexValue? (upperDigit n.val) = some n.val := by decide
  exact hall ⟨n, h⟩

theorem hexValue4?_upperDigit {n : Nat} (h : n < 65536) :
    hexValue4? (upperDigit (n / 4096 % 16)) (upperDigit (n / 256 % 16)) (upperDigit (n / 16 % 16))
      (upperDigit (n % 16)) = some n := by
  have hdigit : ∀ m, hexValue? (upperDigit (m % 16)) = some (m % 16) := fun m =>
    hexValue?_upperDigit (Nat.mod_lt m (by decide))
  have hsum : 4096 * (n / 4096 % 16) + 256 * (n / 256 % 16) + 16 * (n / 16 % 16) + n % 16 = n := by omega
  simp only [hexValue4?, hdigit, Option.bind_eq_bind, Option.bind_some, Option.pure_def, hsum]

/-- A character is escaped by a letter or by its code point, or stands for itself. -/
theorem escapedChar_cases (c : Char) :
    (∃ letter, escapedChar c = ['\\', letter] ∧ letter ≠ 'u' ∧ escapeOf? letter = some c) ∨
      (escapedChar c = '\\' :: 'u' :: hexUpper4 c.toNat ∧ c.toNat < 65536) ∨
      (escapedChar c = [c] ∧ c ≠ '\\' ∧ c ≠ '"') := by
  by_cases hsimple : c ∈ ['\x08', '\t', '\n', '\x0c', '\r', '"', '\\']
  · simp only [List.mem_cons, List.not_mem_nil, or_false] at hsimple
    refine Or.inl ?_
    rcases hsimple with rfl | rfl | rfl | rfl | rfl | rfl | rfl
    · exact ⟨'b', rfl, by decide, rfl⟩
    · exact ⟨'t', rfl, by decide, rfl⟩
    · exact ⟨'n', rfl, by decide, rfl⟩
    · exact ⟨'f', rfl, by decide, rfl⟩
    · exact ⟨'r', rfl, by decide, rfl⟩
    · exact ⟨'"', rfl, by decide, rfl⟩
    · exact ⟨'\\', rfl, by decide, rfl⟩
  · simp only [List.mem_cons, List.not_mem_nil, or_false, not_or] at hsimple
    obtain ⟨h₁, h₂, h₃, h₄, h₅, h₆, h₇⟩ := hsimple
    refine Or.inr ?_
    unfold escapedChar
    rw [if_neg h₁, if_neg h₂, if_neg h₃, if_neg h₄, if_neg h₅, if_neg h₆, if_neg h₇]
    split
    · rename_i hcode
      refine Or.inl ⟨rfl, ?_⟩
      simp only [Bool.or_eq_true, decide_eq_true_eq] at hcode
      omega
    · exact Or.inr ⟨rfl, h₇, h₆⟩

/-- **Every escaped character is read back.** -/
theorem readEscaped?_escapedChar (c : Char) (rest : List Char) :
    readEscaped? (escapedChar c ++ rest) = some (c, rest) := by
  rcases escapedChar_cases c with ⟨letter, heq, hu, hletter⟩ | ⟨heq, hlt⟩ | ⟨heq, hslash, hquote⟩
  · rw [heq]
    show readEscape? (letter :: rest) = some (c, rest)
    unfold readEscape?
    split
    · rename_i h
      cases h
      exact absurd rfl hu
    · rename_i h
      cases h
      rw [hletter]
      rfl
    · rename_i h
      cases h
  · rw [heq]
    show (hexValue4? _ _ _ _).map (fun n => (Char.ofNat n, rest)) = some (c, rest)
    rw [hexValue4?_upperDigit hlt, Option.map_some, Char.ofNat_toNat]
  · rw [heq]
    show (if c = '"' then none else if c = '\\' then readEscape? rest else some (c, rest)) = some (c, rest)
    rw [if_neg hquote, if_neg hslash]

/-- No character is escaped as what begins with a quote. -/
theorem escapedChar_append_ne (c : Char) (rest after : List Char) : escapedChar c ++ rest ≠ '"' :: after := by
  intro h
  have hread := readEscaped?_escapedChar c rest
  rw [h] at hread
  cases hread

/-- **The end of a lexical form is found in whatever follows it.** -/
theorem escaped_append_inj {s t after after' : List Char}
    (h : s.flatMap escapedChar ++ '"' :: after = t.flatMap escapedChar ++ '"' :: after') :
    s = t ∧ after = after' := by
  induction s generalizing t with
  | nil =>
      cases t with
      | nil => exact ⟨rfl, List.tail_eq_of_cons_eq h⟩
      | cons d t =>
          rw [List.flatMap_nil, List.nil_append, List.flatMap_cons, List.append_assoc] at h
          exact absurd h.symm (escapedChar_append_ne d _ _)
  | cons c s ih =>
      rw [List.flatMap_cons, List.append_assoc] at h
      cases t with
      | nil => exact absurd h (escapedChar_append_ne c _ _)
      | cons d t =>
          rw [List.flatMap_cons, List.append_assoc] at h
          have hread := congrArg readEscaped? h
          rw [readEscaped?_escapedChar, readEscaped?_escapedChar, Option.some.injEq, Prod.mk.injEq] at hread
          obtain ⟨rfl, hrest⟩ := hread
          obtain ⟨rfl, rfl⟩ := ih hrest
          exact ⟨rfl, rfl⟩

theorem lexicalText_append_inj {s t after after' : String}
    (h : lexicalText s ++ after = lexicalText t ++ after') : s = t ∧ after = after' := by
  have hchars := congrArg String.toList h
  simp only [lexicalText, String.toList_append, String.toList_ofList, List.cons_append, List.append_assoc,
    List.nil_append, List.cons.injEq, true_and] at hchars
  obtain ⟨hs, hafter⟩ := escaped_append_inj hchars
  exact ⟨String.toList_inj.1 hs, String.toList_inj.1 hafter⟩

/-! ## Terms -/

theorem Iri.text_injective : Function.Injective Iri.text := by
  rintro ⟨i⟩ ⟨j⟩ h
  have hchars := congrArg String.toList h
  simp only [Iri.text, String.toList_append] at hchars
  have hvalue := List.append_cancel_left (List.append_cancel_right hchars)
  exact congrArg Iri.mk (String.toList_inj.1 hvalue)

theorem Node.text_injective : Function.Injective Node.text := by
  intro a b h
  have hchars := congrArg String.toList h
  cases a with
  | iri i =>
      cases b with
      | iri j => rw [Iri.text_injective h]
      | blank label => simp [Node.text, Iri.text, String.toList_append] at hchars
  | blank label =>
      cases b with
      | iri j => simp [Node.text, Iri.text, String.toList_append] at hchars
      | blank label' =>
          simp only [Node.text, String.toList_append] at hchars
          rw [String.toList_inj.1 (List.append_cancel_left hchars)]

/-- What follows the lexical form of a literal. -/
def Literal.suffix : Literal → String
  | .plain _ => ""
  | .tagged _ language => "@" ++ language
  | .typed _ datatype => "^^" ++ datatype.text

theorem Literal.text_eq (l : Literal) : l.text = lexicalText l.lexical ++ l.suffix := by
  cases l with
  | plain s => exact (String.append_empty).symm
  | tagged s language => exact String.append_assoc
  | typed s datatype => exact String.append_assoc

theorem Literal.text_injective : Function.Injective Literal.text := by
  intro a b h
  rw [Literal.text_eq, Literal.text_eq] at h
  obtain ⟨hlexical, hsuffix⟩ := lexicalText_append_inj h
  have hchars := congrArg String.toList hsuffix
  cases a <;> cases b <;> cases hlexical <;>
    simp only [Literal.suffix, String.toList_append, String.toList_empty] at hchars
  case plain.plain => rfl
  case tagged.tagged => rw [String.toList_inj.1 (List.append_cancel_left hchars)]
  case typed.typed => rw [Iri.text_injective (String.toList_inj.1 (List.append_cancel_left hchars))]
  all_goals simp at hchars

/-- **Different terms have different texts.** -/
theorem Term.text_injective : Function.Injective Term.text := by
  intro a b h
  have hchars := congrArg String.toList h
  cases a with
  | node n =>
      cases b with
      | node m => rw [Node.text_injective h]
      | literal l => cases n <;> simp [Term.text, Node.text, Iri.text, Literal.text_eq, lexicalText] at hchars
  | literal l =>
      cases b with
      | node m => cases m <;> simp [Term.text, Node.text, Iri.text, Literal.text_eq, lexicalText] at hchars
      | literal m => rw [Literal.text_injective h]

/-! ## Sorting by text -/

section

variable {α : Type} {text : α → String}

/-- Sorting by a text that tells elements apart leaves no choice. -/
theorem mergeSort_eq_of_perm (hinj : Function.Injective text) {l l' : List α} (h : l.Perm l') :
    (l.mergeSort fun a b => text a ≤ text b) = l'.mergeSort fun a b => text a ≤ text b := by
  have htrans : ∀ a b c : α, decide (text a ≤ text b) = true → decide (text b ≤ text c) = true →
      decide (text a ≤ text c) = true := by
    intro a b c hab hbc
    exact decide_eq_true (String.le_trans (of_decide_eq_true hab) (of_decide_eq_true hbc))
  have htotal : ∀ a b : α, (decide (text a ≤ text b) || decide (text b ≤ text a)) = true := by
    intro a b
    simpa using String.le_total (text a) (text b)
  refine ((List.mergeSort_perm l _).trans (h.trans (List.mergeSort_perm l' _).symm)).eq_of_pairwise ?_
    (List.pairwise_mergeSort htrans htotal l) (List.pairwise_mergeSort htrans htotal l')
  intro a b _ _ hab hba
  exact hinj (String.le_antisymm (of_decide_eq_true hab) (of_decide_eq_true hba))

end

theorem sortNodes_eq_of_perm {l l' : List Node} (h : l.Perm l') : sortNodes l = sortNodes l' :=
  mergeSort_eq_of_perm Node.text_injective h

theorem sortTerms_eq_of_perm {l l' : List Term} (h : l.Perm l') : sortTerms l = sortTerms l' :=
  mergeSort_eq_of_perm Term.text_injective h

end ShapeTypes.Rdf
