import ShapeTypes.Prefixes.Scan
import ShapeTypes.Proofs.Rdf.Turtle.Lexemes

/-!
# Declarations by line

* `lineTexts` — the text from the first character of each line on; `exists_lineTexts_append` — the lines of a text are
  those of its parts;
* `Scans` — the declarations that are found from somewhere in a text on; `Scans.declaration` — one that begins a line
  is found;
* `Scans.skip` — **over lines that do not look like declarations none is found**: to the end (`scans_nil`), up to a
  line (`Scans.reach`), and to the end of something that was read (`Scans.skip_solid`).
-/

namespace ShapeTypes

open Text Rdf.Turtle

variable {c : Char} {cs rest p : List Char} {fresh : Bool} {b : Binding} {bs : List Binding}

/-! ## Lines -/

/-- Whether nothing but white space stands between the beginning of a line and what follows a character. -/
def freshAfter (fresh : Bool) (c : Char) : Bool := (fresh && isBlank c) || c = '\n'

/-- The text from the first character of each line on, white space and lines of nothing else aside. `fresh` tells
whether a line begins. -/
def lineTexts : Bool → List Char → List (List Char)
  | _, [] => []
  | fresh, c :: rest =>
    let further := lineTexts (freshAfter fresh c) rest
    if fresh && !isBlank c then (c :: rest) :: further else further

/-- The lines of a text are those that begin in its first part, and those of the rest. -/
theorem exists_lineTexts_append (fresh : Bool) (x rest : List Char) :
    ∃ before, lineTexts fresh (x ++ rest) = before ++ lineTexts (x.foldl freshAfter fresh) rest ∧
      ∀ line ∈ before, rest.length < line.length := by
  induction x generalizing fresh with
  | nil => exact ⟨[], rfl, List.forall_mem_nil _⟩
  | cons c x ih =>
      obtain ⟨before, heq, hlong⟩ := ih (freshAfter fresh c)
      rw [List.cons_append, lineTexts, heq]
      split
      · have hlong' := Nat.lt_succ_of_le (List.suffix_append x rest).length_le
        exact ⟨_ :: before, rfl, List.forall_mem_cons.2 ⟨hlong', hlong⟩⟩
      · exact ⟨before, rfl, hlong⟩

theorem exists_of_mem_lineTexts (h : p ∈ lineTexts fresh cs) :
    ∃ x, cs = x ++ p ∧ x.foldl freshAfter fresh = true := by
  induction cs generalizing fresh with
  | nil => cases h
  | cons c rest ih =>
      have hrest : p ∈ lineTexts (freshAfter fresh c) rest →
          ∃ x, c :: rest = x ++ p ∧ x.foldl freshAfter fresh = true := by
        intro hmem
        obtain ⟨x, rfl, hx⟩ := ih hmem
        exact ⟨c :: x, rfl, hx⟩
      rw [lineTexts] at h
      split at h
      · rename_i hfresh
        rcases List.mem_cons.1 h with rfl | h
        · exact ⟨[], rfl, (Bool.and_eq_true_iff.1 hfresh).1⟩
        · exact hrest h
      · exact hrest h

theorem exists_append_of_solid (h : Solid cs rest) (fresh : Bool) :
    ∃ x, cs = x ++ rest ∧ x.foldl freshAfter fresh = false := by
  obtain ⟨x, last, rfl, hlast⟩ := h
  refine ⟨x ++ [last], by simp, ?_⟩
  rw [List.foldl_append, List.foldl_cons, List.foldl_nil, freshAfter, hlast, Bool.and_false, Bool.false_or,
    decide_eq_false_iff_not]
  rintro rfl
  cases hlast

theorem exists_lineTexts_append_solid (h : Solid cs rest) (fresh : Bool) :
    ∃ before, lineTexts fresh cs = before ++ lineTexts false rest ∧ ∀ line ∈ before, rest.length < line.length := by
  obtain ⟨x, rfl, hx⟩ := exists_append_of_solid h fresh
  exact hx ▸ exists_lineTexts_append fresh x rest

theorem length_le_of_mem_lineTexts : ∀ line ∈ lineTexts fresh cs, line.length ≤ cs.length := by
  intro line hmem
  obtain ⟨x, rfl, -⟩ := exists_of_mem_lineTexts hmem
  exact (List.suffix_append x line).length_le

/-! ## Scanning -/

/-- From somewhere in a text on these declarations are found. -/
def Scans (fresh : Bool) (cs : List Char) (bs : List Binding) : Prop :=
  ∀ fuel, cs.length ≤ fuel → scanFrom fuel fresh cs = bs

theorem scans_empty (fresh : Bool) : Scans fresh [] [] := by
  intro fuel _
  cases fuel <;> rfl

theorem scanFrom_cons {fuel : Nat} (h : fresh = true → declaration? (c :: rest) = none) :
    scanFrom (fuel + 1) fresh (c :: rest) = scanFrom fuel (c = '\n') rest := by
  have hnone : (if fresh then declaration? (c :: rest) else none) = none := by
    split
    · exact h ‹_›
    · rfl
  conv_lhs => unfold scanFrom
  rw [hnone]

theorem Scans.step (hnone : fresh = true → declaration? (c :: rest) = none) (h : Scans (c = '\n') rest bs) :
    Scans fresh (c :: rest) bs := by
  rintro (_ | fuel) hfuel
  · cases hfuel
  · rw [scanFrom_cons hnone]
    exact h fuel (Nat.le_of_succ_le_succ hfuel)

theorem Scans.declaration (hb : declaration? cs = some (b, rest)) (hrest : rest.length < cs.length)
    (h : Scans false rest bs) : Scans true cs (b :: bs) := by
  rintro (_ | fuel) hfuel
  · omega
  · cases cs with
    | nil => cases hrest
    | cons c tail =>
        unfold scanFrom
        rw [if_pos rfl, hb]
        exact congrArg (b :: ·) (h fuel (by omega))

theorem isSpace_of_isBlank (hc : isBlank c = true) : isSpace c = true := by
  rcases isBlank_cases hc with rfl | rfl | rfl | rfl <;> rfl

theorem declaration?_cons (hc : isSpace c = true) (rest : List Char) :
    declaration? (c :: rest) = declaration? rest := by
  unfold declaration?
  rw [List.dropWhile_cons_of_pos hc]

/-- A comment declares nothing. -/
theorem declaration?_comment (rest : List Char) : declaration? ('#' :: rest) = none := by
  have hspace : isSpace '#' = false := by decide
  have hword : ('#' :: rest.take 5).map Char.toLower ≠ "prefix".toList := by
    intro h
    cases List.head_eq_of_cons_eq h
  unfold declaration?
  rw [List.dropWhile_cons_of_neg (by simp [hspace])]
  show (afterPrefixWord? ('#' :: rest)).bind _ = none
  unfold afterPrefixWord?
  rw [List.take_succ_cons, if_neg hword]
  rfl

theorem Scans.blank (hc : isBlank c = true) (h : Scans true rest bs) : Scans true (c :: rest) bs := by
  have hcons : declaration? (c :: rest) = declaration? rest := declaration?_cons (isSpace_of_isBlank hc) rest
  -- One character later the same declaration is found, or none.
  cases hb : declaration? rest with
  | none =>
      refine Scans.step (fun _ => hcons.trans hb) fun fuel hfuel => ?_
      rw [← h fuel hfuel]
      cases fuel with
      | zero => rfl
      | succ fuel =>
          cases rest with
          | nil => rfl
          | cons d tail => rw [scanFrom_cons fun _ => hb, scanFrom_cons fun _ => hb]
  | some found =>
      rintro (_ | fuel) hfuel
      · cases hfuel
      · rw [← h (fuel + 1) (Nat.le_of_succ_le hfuel)]
        cases rest with
        | nil => cases hb
        | cons d tail =>
            unfold scanFrom
            rw [if_pos rfl, if_pos rfl, hcons, hb]

/-- Over a part of a text no declaration is found, if no line that begins there declares anything. -/
theorem Scans.skip {x : List Char} (h : Scans (x.foldl freshAfter fresh) rest bs)
    (hnone : ∀ line ∈ lineTexts fresh (x ++ rest), rest.length < line.length → declaration? line = none) :
    Scans fresh (x ++ rest) bs := by
  induction x generalizing fresh with
  | nil => exact h
  | cons c x ih =>
      rw [List.cons_append, lineTexts] at hnone
      have hfurther : Scans (freshAfter fresh c) (x ++ rest) bs := by
        refine ih h fun line hmem hlong => hnone line ?_ hlong
        split
        · exact List.mem_cons_of_mem _ hmem
        · exact hmem
      cases hc : fresh && isBlank c with
      | true =>
          obtain ⟨rfl, hblank⟩ := Bool.and_eq_true_iff.1 hc
          rw [freshAfter, hc, Bool.true_or] at hfurther
          exact hfurther.blank hblank
      | false =>
          rw [freshAfter, hc, Bool.false_or] at hfurther
          refine hfurther.step fun hfresh => ?_
          subst hfresh
          rw [Bool.true_and] at hc
          exact hnone _ (by simp [hc]) (Nat.lt_succ_of_le (List.suffix_append x rest).length_le)

/-- In a text none of whose lines declares anything no declaration is found. -/
theorem scans_nil (hnone : ∀ line ∈ lineTexts fresh cs, declaration? line = none) : Scans fresh cs [] := by
  have hskip : Scans fresh (cs ++ []) [] := (scans_empty _).skip fun line hmem _ => hnone line (by simpa using hmem)
  simpa using hskip

/-- Up to a line no declaration is found, if no line before it declares anything. -/
theorem Scans.reach (h : Scans true p bs) (hp : p ∈ lineTexts fresh cs)
    (hnone : ∀ line ∈ lineTexts fresh cs, p.length < line.length → declaration? line = none) : Scans fresh cs bs := by
  obtain ⟨x, rfl, hx⟩ := exists_of_mem_lineTexts hp
  exact Scans.skip (hx ▸ h) hnone

/-- While something is read no declaration is found, if no line that begins there declares anything. -/
theorem Scans.skip_solid (h : Scans false rest bs) (hsolid : Solid cs rest)
    (hnone : ∀ line ∈ lineTexts fresh cs, rest.length < line.length → declaration? line = none) :
    Scans fresh cs bs := by
  obtain ⟨x, rfl, hx⟩ := exists_append_of_solid hsolid fresh
  exact Scans.skip (hx ▸ h) hnone

end ShapeTypes
