import Mathlib.Data.List.DropRight
import ShapeTypes.Name

/-!
# Identifiers are settled

Making an identifier replaces characters, trims both ends, and may put an underscore back before a digit. The steps
undo each other's work nowhere: what comes out is left alone when it is made into an identifier again.

* `IsIdentifier` — a letter or an underscore, then letters, digits and underscores;
* `TrimmedWord` — such characters, with no underscore at either end; `trimmedWord_trimUnderscores`,
  `TrimmedWord.trimUnderscores_eq` — **trimming gives these, and leaves them alone**;
* `UsualIdentifier` — the usual form of identifiers; `usualIdentifier_identifierChars`,
  `UsualIdentifier.identifierChars_eq` — **making an identifier gives these, and leaves them alone**;
* `filter_identifierChars` — letters and digits all stay, in their order;
* `identifierOf_normalizes` — **identifiers are valid, settled, and lose no letters.**
-/

namespace ShapeTypes

/-- A letter or an underscore, and then letters, digits and underscores only. -/
def IsIdentifier (s : String) : Prop :=
  ∃ first rest, s.toList = first :: rest ∧ (first.isAlpha = true ∨ first = '_') ∧
    ∀ c ∈ rest, c.isAlphanum = true ∨ c = '_'

/-- Letters, digits and underscores, with no underscore at either end. -/
structure TrimmedWord (cs : List Char) : Prop where
  chars : ∀ c ∈ cs, isIdentifierChar c = true
  head : cs.head? ≠ some '_'
  last : cs.getLast? ≠ some '_'

/-- The usual form of an identifier: one underscore; or a word without underscores at its ends, which has one before
it exactly if it begins with a digit. -/
inductive UsualIdentifier : List Char → Prop where
  | blank : UsualIdentifier ['_']
  | word {c : Char} {rest : List Char} : TrimmedWord (c :: rest) → c.isDigit = false → UsualIdentifier (c :: rest)
  | number {c : Char} {rest : List Char} :
      TrimmedWord (c :: rest) → c.isDigit = true → UsualIdentifier ('_' :: c :: rest)

section

variable {cs : List Char} {inRun : Bool} {c : Char}

theorem isIdentifierChar_iff : isIdentifierChar c = true ↔ c.isAlphanum = true ∨ c = '_' := by
  simp [isIdentifierChar]

/-! ## Runs of other characters -/

theorem isIdentifierChar_of_mem_joinRuns (h : c ∈ joinRuns inRun cs) : isIdentifierChar c = true := by
  induction cs generalizing inRun with
  | nil => cases h
  | cons d cs ih =>
      unfold joinRuns at h
      split at h
      · rename_i hd
        rcases List.mem_cons.1 h with rfl | h
        · exact hd
        · exact ih h
      · split at h
        · exact ih h
        · rcases List.mem_cons.1 h with rfl | h
          · rfl
          · exact ih h

theorem joinRuns_eq_self (h : ∀ c ∈ cs, isIdentifierChar c = true) : joinRuns inRun cs = cs := by
  induction cs generalizing inRun with
  | nil => rfl
  | cons d cs ih =>
      rw [joinRuns, if_pos (h d List.mem_cons_self), ih fun c hc => h c (List.mem_cons_of_mem _ hc)]

theorem filter_joinRuns : (joinRuns inRun cs).filter Char.isAlphanum = cs.filter Char.isAlphanum := by
  induction cs generalizing inRun with
  | nil => rfl
  | cons d cs ih =>
      unfold joinRuns
      split
      · rw [List.filter_cons, List.filter_cons, ih]
      · rename_i hd
        have hd' : ¬ d.isAlphanum = true := fun h => hd (isIdentifierChar_iff.2 (Or.inl h))
        rw [List.filter_cons_of_neg hd']
        split
        · exact ih
        · rw [List.filter_cons_of_neg (by decide), ih]

/-! ## Underscores at the ends -/

/-- Dropping what a filter refuses changes nothing that it lets through. -/
theorem filter_dropWhile_of_excludes {α : Type} {p q : α → Bool} (h : ∀ a, p a = true → q a = false) (l : List α) :
    (l.dropWhile p).filter q = l.filter q := by
  induction l with
  | nil => rfl
  | cons a l ih =>
      cases hp : p a with
      | true => rw [List.dropWhile_cons_of_pos hp, ih, List.filter_cons_of_neg (by simp [h a hp])]
      | false => rw [List.dropWhile_cons_of_neg (by simp [hp])]

theorem filter_trimUnderscores : (trimUnderscores cs).filter Char.isAlphanum = cs.filter Char.isAlphanum := by
  have hexcludes : ∀ c : Char, decide (c = '_') = true → c.isAlphanum = false := by
    intro c hc
    rw [of_decide_eq_true hc]
    rfl
  rw [trimUnderscores, List.filter_reverse, filter_dropWhile_of_excludes hexcludes, List.filter_reverse,
    List.reverse_reverse, filter_dropWhile_of_excludes hexcludes]

theorem head?_dropWhile_underscore : (cs.dropWhile (· = '_')).head? ≠ some '_' := by
  intro h
  have hfirst := List.head?_dropWhile_not (fun c : Char => decide (c = '_')) cs
  rw [h] at hfirst
  simp at hfirst

theorem dropWhile_underscore_eq_self (h : cs.head? ≠ some '_') : cs.dropWhile (· = '_') = cs := by
  cases cs with
  | nil => rfl
  | cons c cs => exact List.dropWhile_cons_of_neg (by simpa using h)

/-- **What is left after trimming** is a part of what there was, and begins and ends with something else. -/
theorem trimmedWord_trimUnderscores (h : ∀ c ∈ cs, isIdentifierChar c = true) : TrimmedWord (trimUnderscores cs) := by
  have hpart : trimUnderscores cs <+: cs.dropWhile (· = '_') := List.rdropWhile_prefix _ _
  constructor
  case chars =>
    intro c hc
    exact h c ((List.dropWhile_suffix _).subset (hpart.subset hc))
  case head =>
    intro hhead
    obtain ⟨rest, hrest⟩ := List.head?_eq_some_iff.1 hhead
    obtain ⟨after, hafter⟩ := hpart
    exact head?_dropWhile_underscore (by rw [← hafter, hrest]; rfl)
  case last =>
    rw [trimUnderscores, List.getLast?_reverse]
    exact head?_dropWhile_underscore

/-- **Such a word is left alone.** -/
theorem TrimmedWord.trimUnderscores_eq (h : TrimmedWord cs) : trimUnderscores cs = cs := by
  have hlast : cs.reverse.head? ≠ some '_' := by
    rw [List.head?_reverse]
    exact h.last
  rw [trimUnderscores, dropWhile_underscore_eq_self h.head, dropWhile_underscore_eq_self hlast, List.reverse_reverse]

theorem trimUnderscores_underscore : trimUnderscores ('_' :: cs) = trimUnderscores cs := rfl

/-! ## Identifiers -/

/-- **What is made into an identifier has the usual form.** -/
theorem usualIdentifier_identifierChars (cs : List Char) : UsualIdentifier (identifierChars cs) := by
  have htrimmed : TrimmedWord (trimUnderscores (joinRuns false cs)) :=
    trimmedWord_trimUnderscores fun _ => isIdentifierChar_of_mem_joinRuns
  unfold identifierChars
  split
  · exact .blank
  · rename_i c rest heq
    rw [heq] at htrimmed
    split
    · rename_i hdigit
      exact .number htrimmed hdigit
    · rename_i hdigit
      exact .word htrimmed (Bool.eq_false_iff.2 hdigit)

theorem UsualIdentifier.chars (h : UsualIdentifier cs) : ∀ c ∈ cs, isIdentifierChar c = true := by
  cases h with
  | blank => simp [isIdentifierChar]
  | word htrimmed _ => exact htrimmed.chars
  | number htrimmed _ => exact List.forall_mem_cons.2 ⟨rfl, htrimmed.chars⟩

/-- **What has the usual form is left alone.** The underscore before a digit is trimmed, and put back. -/
theorem UsualIdentifier.identifierChars_eq (h : UsualIdentifier cs) : identifierChars cs = cs := by
  rw [identifierChars, joinRuns_eq_self h.chars]
  cases h with
  | blank => rfl
  | word htrimmed hdigit => simp [htrimmed.trimUnderscores_eq, hdigit]
  | number htrimmed hdigit => simp [trimUnderscores_underscore, htrimmed.trimUnderscores_eq, hdigit]

theorem UsualIdentifier.exists_first (h : UsualIdentifier cs) : ∃ first rest, cs = first :: rest ∧
    (first.isAlpha = true ∨ first = '_') ∧ ∀ c ∈ rest, c.isAlphanum = true ∨ c = '_' := by
  have hchars : ∀ c ∈ cs, c.isAlphanum = true ∨ c = '_' := fun c hc => isIdentifierChar_iff.1 (h.chars c hc)
  cases h with
  | blank => exact ⟨'_', [], rfl, Or.inr rfl, (List.forall_mem_cons.1 hchars).2⟩
  | number => exact ⟨'_', _, rfl, Or.inr rfl, (List.forall_mem_cons.1 hchars).2⟩
  | word htrimmed hdigit =>
      obtain ⟨hfirst, hrest⟩ := List.forall_mem_cons.1 hchars
      refine ⟨_, _, rfl, ?_, hrest⟩
      simpa [Char.isAlphanum, hdigit] using hfirst

theorem filter_identifierChars : (identifierChars cs).filter Char.isAlphanum = cs.filter Char.isAlphanum := by
  have hword : (trimUnderscores (joinRuns false cs)).filter Char.isAlphanum = cs.filter Char.isAlphanum :=
    filter_trimUnderscores.trans filter_joinRuns
  have hblank : ¬ Char.isAlphanum '_' = true := by decide
  unfold identifierChars
  split
  · rename_i heq
    rw [← hword, heq, List.filter_cons_of_neg hblank]
  · rename_i heq
    split
    · rw [List.filter_cons_of_neg hblank, ← heq, hword]
    · rw [← heq, hword]

end

theorem toList_identifierOf (s : String) : (identifierOf s).toList = identifierChars s.toList := String.toList_ofList

theorem isIdentifier_identifierOf (s : String) : IsIdentifier (identifierOf s) := by
  rw [IsIdentifier, toList_identifierOf]
  exact (usualIdentifier_identifierChars s.toList).exists_first

/-- **The identifiers of the usual form are those that are left alone.** -/
theorem identifierOf_eq_self_iff {s : String} : identifierOf s = s ↔ UsualIdentifier s.toList := by
  rw [← String.toList_inj, toList_identifierOf]
  exact ⟨fun h => h ▸ usualIdentifier_identifierChars s.toList, UsualIdentifier.identifierChars_eq⟩

theorem identifierOf_identifierOf (s : String) : identifierOf (identifierOf s) = identifierOf s := by
  rw [identifierOf_eq_self_iff, toList_identifierOf]
  exact usualIdentifier_identifierChars s.toList

/-- **Identifiers are valid and settled, and have all letters and digits** of the text, in their order. So the
identifier of every name is valid, whatever curies are recorded. -/
theorem identifierOf_normalizes :
    (∀ s : String, IsIdentifier (identifierOf s) ∧ identifierOf (identifierOf s) = identifierOf s ∧
      (identifierOf s).toList.filter Char.isAlphanum = s.toList.filter Char.isAlphanum) ∧
    ∀ (n : Name) (record : CurieRecord), IsIdentifier (n.identifier record) := by
  refine ⟨fun s => ⟨isIdentifier_identifierOf s, identifierOf_identifierOf s, ?_⟩, fun n record => ?_⟩
  · rw [toList_identifierOf]
    exact filter_identifierChars
  · exact isIdentifier_identifierOf (n.resolved record)

example : identifierOf "3d model" = "_3d_model" := by decide +kernel

end ShapeTypes
