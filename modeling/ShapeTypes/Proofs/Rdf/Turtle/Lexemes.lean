import ShapeTypes.Proofs.Except
import ShapeTypes.Rdf.Turtle.Token

/-!
# Where the tokens of a text stand

* `solid_read?` — **a token ends with a character that is no white space**;
* `lexemes` — the tokens of a text, each with the text from its first character on;
* `Lexes` — how a text falls into them, white space and comments;
* `lexes_of_tokens` — so does every text that is read as tokens, and these are the tokens.
-/

namespace ShapeTypes.Rdf.Turtle

open Text

/-! ## What was read -/

/-- Something was read up to a rest, and it ends with no white space. -/
def Solid (cs rest : List Char) : Prop := ∃ x last, cs = x ++ last :: rest ∧ isBlank last = false

/-- A text without white space was read off. -/
def ReadOff (x cs rest : List Char) : Prop := cs = x ++ rest ∧ ∀ c ∈ x, isBlank c = false

variable {c : Char} {x y cs rest after : List Char}

theorem Solid.cons (h : Solid cs rest) (c : Char) : Solid (c :: cs) rest := by
  obtain ⟨x, last, rfl, hlast⟩ := h
  exact ⟨c :: x, last, rfl, hlast⟩

theorem Solid.append_left (h : Solid cs rest) (x : List Char) : Solid (x ++ cs) rest := by
  induction x with
  | nil => exact h
  | cons c x ih => exact ih.cons c

theorem Solid.of_suffix (h : Solid cs rest) (hsuffix : cs <:+ after) : Solid after rest := by
  obtain ⟨x, rfl⟩ := hsuffix
  exact h.append_left x

theorem Solid.trans (h : Solid rest after) (h' : Solid cs rest) : Solid cs after := by
  obtain ⟨x, last, rfl, -⟩ := h'
  exact (h.cons last).append_left x

theorem Solid.length_lt (h : Solid cs rest) : rest.length < cs.length := by
  obtain ⟨x, last, rfl, -⟩ := h
  simp only [List.length_append, List.length_cons]
  omega

theorem solid_cons (h : isBlank c = false) : Solid (c :: rest) rest := ⟨[], c, rfl, h⟩

theorem ReadOff.nil (cs : List Char) : ReadOff [] cs cs := ⟨rfl, List.forall_mem_nil _⟩

theorem ReadOff.cons (hc : isBlank c = false) (h : ReadOff x cs rest) : ReadOff (c :: x) (c :: cs) rest :=
  ⟨congrArg (c :: ·) h.1, List.forall_mem_cons.2 ⟨hc, h.2⟩⟩

theorem ReadOff.trans (h : ReadOff x cs rest) (h' : ReadOff y rest after) : ReadOff (x ++ y) cs after := by
  obtain ⟨rfl, hx⟩ := h
  obtain ⟨rfl, hy⟩ := h'
  exact ⟨(List.append_assoc ..).symm, List.forall_mem_append.2 ⟨hx, hy⟩⟩

theorem ReadOff.solid_cons (hc : isBlank c = false) (h : ReadOff x cs rest) : Solid (c :: cs) rest := by
  obtain ⟨rfl, hx⟩ := h
  rcases List.eq_nil_or_concat x with rfl | ⟨y, last, rfl⟩
  · exact ⟨[], c, rfl, hc⟩
  · exact ⟨c :: y, last, by simp, hx last (by simp)⟩

theorem ReadOff.solid (h : ReadOff x cs rest) (hx : x ≠ []) : Solid cs rest := by
  obtain ⟨rfl, hall⟩ := h
  rcases List.eq_nil_or_concat x with rfl | ⟨y, last, rfl⟩
  · exact absurd rfl hx
  · exact ⟨y, last, by simp, hall last (by simp)⟩

/-! ## IRI references and strings -/

theorem exists_of_prepend {r : Cut (List Char)} {text : List Char} (h : prepend c r = some (text, rest)) :
    ∃ text', r = some (text', rest) := by
  obtain ⟨⟨text', _⟩, hr, heq⟩ := Option.map_eq_some_iff.1 h
  cases heq
  exact ⟨text', hr⟩

theorem exists_of_bind_prepend {o : Option Char} {r : Cut (List Char)} {text : List Char}
    (h : (o.bind fun x => prepend x r) = some (text, rest)) : ∃ text', r = some (text', rest) := by
  obtain ⟨x, -, hx⟩ := Option.bind_eq_some_iff.1 h
  exact exists_of_prepend hx

theorem solid_readIri {text : List Char} (h : readIri cs = some (text, rest)) : Solid cs rest := by
  fun_induction readIri cs generalizing text with
  | case1 => cases h
  | case2 =>
      cases h
      exact solid_cons rfl
  | case3 _ _ _ _ _ _ ih =>
      obtain ⟨_, hr⟩ := exists_of_bind_prepend h
      exact (ih hr).append_left ['\\', 'u', _, _, _, _]
  | case4 _ _ _ _ _ _ _ _ _ _ ih =>
      obtain ⟨_, hr⟩ := exists_of_bind_prepend h
      exact (ih hr).append_left ['\\', 'U', _, _, _, _, _, _, _, _]
  | case5 => cases h
  | case6 c _ _ _ ih =>
      obtain ⟨_, hr⟩ := exists_of_prepend h
      exact (ih hr).cons c

theorem solid_readString {long : Bool} {quote : Char} {text : List Char} (hquote : isBlank quote = false)
    (h : readString long quote cs = some (text, rest)) : Solid cs rest := by
  fun_induction readString long quote cs generalizing text with
  | case1 => cases h
  | case2 _ _ _ _ hquotes =>
      cases h
      exact ⟨[_, _], _, rfl, hquotes.2 ▸ hquote⟩
  | case3 _ _ _ _ _ ih =>
      obtain ⟨_, hr⟩ := exists_of_prepend h
      exact (ih hr).cons quote
  | case4 => cases h
  | case5 =>
      cases h
      exact solid_cons hquote
  | case6 _ _ _ _ _ _ ih =>
      obtain ⟨_, hr⟩ := exists_of_bind_prepend h
      exact (ih hr).append_left ['\\', 'u', _, _, _, _]
  | case7 _ _ _ _ _ _ _ _ _ _ ih =>
      obtain ⟨_, hr⟩ := exists_of_bind_prepend h
      exact (ih hr).append_left ['\\', 'U', _, _, _, _, _, _, _, _]
  | case8 _ _ _ _ _ ih =>
      obtain ⟨_, hr⟩ := exists_of_bind_prepend h
      exact (ih hr).append_left ['\\', _]
  | case9 => cases h
  | case10 => cases h
  | case11 c _ _ _ _ ih =>
      obtain ⟨_, hr⟩ := exists_of_prepend h
      exact (ih hr).cons c

theorem solid_readQuoted {quote : Char} {text : List Char} (hquote : isBlank quote = false)
    (h : readQuoted quote cs = some (text, rest)) : Solid cs rest := by
  unfold readQuoted at h
  split at h
  · split at h
    · exact (solid_readString hquote h).append_left [_, _]
    · exact solid_readString hquote h
  · exact solid_readString hquote h

/-! ## Names -/

theorem isBlank_cases (h : isBlank c = true) : c = ' ' ∨ c = '\t' ∨ c = '\r' ∨ c = '\n' := by
  simpa [isBlank, or_assoc] using h

/-- No character that passes a test which white space fails is white space. -/
theorem isBlank_eq_false_of (ok : Char → Bool) (hspace : ok ' ' = false) (htab : ok '\t' = false)
    (hreturn : ok '\r' = false) (hline : ok '\n' = false) (h : ok c = true) : isBlank c = false := by
  by_contra hblank
  rcases isBlank_cases (by simpa using hblank) with rfl | rfl | rfl | rfl
  · rw [hspace] at h
    cases h
  · rw [htab] at h
    cases h
  · rw [hreturn] at h
    cases h
  · rw [hline] at h
    cases h

theorem isBlank_of_nameChar (h : isNameChar c = true) : isBlank c = false :=
  isBlank_eq_false_of _ (by decide) (by decide) (by decide) (by decide) h

theorem append_readDotted (ok : Char → Bool) (cs : List Char) : (readDotted ok cs).1 ++ (readDotted ok cs).2 = cs := by
  fun_induction readDotted ok cs with
  | case1 => rfl
  | case2 _ _ _ _ _ heq ih =>
      rw [heq] at ih
      exact congrArg (_ :: ·) ih
  | case3 => rfl
  | case4 _ _ _ _ heq _ ih =>
      rw [heq] at ih
      exact congrArg (_ :: ·) ih
  | case5 => rfl

theorem forall_mem_readDotted (ok : Char → Bool) (cs : List Char) :
    ∀ c ∈ (readDotted ok cs).1, ok c = true ∨ c = '.' := by
  fun_induction readDotted ok cs with
  | case1 => exact List.forall_mem_nil _
  | case2 _ _ hc _ _ heq ih =>
      rw [heq] at ih
      exact List.forall_mem_cons.2 ⟨.inl hc, ih⟩
  | case3 => exact List.forall_mem_nil _
  | case4 _ _ _ _ heq _ ih =>
      rw [heq] at ih
      exact List.forall_mem_cons.2 ⟨.inr rfl, ih⟩
  | case5 => exact List.forall_mem_nil _

theorem readOff_readDotted {ok : Char → Bool} (hok : ∀ c, ok c = true → isBlank c = false) (cs : List Char) :
    ReadOff (readDotted ok cs).1 cs (readDotted ok cs).2 := by
  refine ⟨(append_readDotted ok cs).symm, fun c hc => ?_⟩
  rcases forall_mem_readDotted ok cs c hc with hc | rfl
  · exact hok c hc
  · rfl

theorem isBlank_of_localStart (h : isLocalStart c = true) : isBlank c = false :=
  isBlank_eq_false_of _ (by decide) (by decide) (by decide) (by decide) h

theorem isBlank_of_escapable (h : isEscapable c = true) : isBlank c = false :=
  isBlank_eq_false_of _ (by decide) (by decide) (by decide) (by decide) h

theorem isBlank_of_hex (h : (hexValue? c).isSome = true) : isBlank c = false :=
  isBlank_eq_false_of (fun c => (hexValue? c).isSome) (by decide) (by decide) (by decide) (by decide) h

theorem exists_of_keep {c : LocalChar} {r : Cut (List LocalChar)} {run : List LocalChar}
    (h : (r.map fun (cs, rest) => (c :: cs, rest)) = some (run, rest)) :
    ∃ run', r = some (run', rest) ∧ run = c :: run' := by
  obtain ⟨⟨run', _⟩, hr, heq⟩ := Option.map_eq_some_iff.1 h
  cases heq
  exact ⟨run', hr, rfl⟩

theorem readOff_readLocalRun {atStart : Bool} {run : List LocalChar} (h : readLocalRun atStart cs = some (run, rest)) :
    ReadOff (run.flatMap LocalChar.chars) cs rest := by
  fun_induction readLocalRun atStart cs generalizing run with
  | case1 =>
      cases h
      exact .nil _
  | case2 =>
      rename_i hhex ih
      obtain ⟨run₁, h₁, hrun⟩ := exists_of_keep h
      obtain ⟨run₂, h₂, hrun₁⟩ := exists_of_keep h₁
      obtain ⟨run₃, h₃, hrun₂⟩ := exists_of_keep h₂
      simp only [Bool.and_eq_true] at hhex
      rw [hrun, hrun₁, hrun₂]
      exact (((ih h₃).cons (isBlank_of_hex hhex.2)).cons (isBlank_of_hex hhex.1)).cons rfl
  | case3 => cases h
  | case4 => cases h
  | case5 =>
      rename_i hescapable _ ih
      obtain ⟨run', h', hrun⟩ := exists_of_keep h
      rw [hrun]
      exact ((ih h').cons (isBlank_of_escapable hescapable)).cons rfl
  | case6 => cases h
  | case7 => cases h
  | case8 =>
      rename_i hc ih
      obtain ⟨run', h', hrun⟩ := exists_of_keep h
      rw [hrun]
      refine (ih h').cons ?_
      simp only [Bool.or_eq_true, decide_eq_true_eq] at hc
      rcases hc with hc | rfl
      · split at hc
        · exact isBlank_of_localStart hc
        · simp only [Bool.or_eq_true, decide_eq_true_eq] at hc
          rcases hc with hc | rfl
          · exact isBlank_of_nameChar hc
          · rfl
      · rfl
  | case9 =>
      cases h
      exact .nil _

theorem exists_readOff_readLocal {label : List Char} {t : Token} (h : readLocal label cs = some (t, rest)) :
    ∃ x, ReadOff x cs rest := by
  obtain ⟨⟨run, after⟩, hrun, heq⟩ := Option.map_eq_some_iff.1 h
  obtain ⟨hcs, hall⟩ := readOff_readLocalRun hrun
  -- Dots at the end of the run are given back.
  let kept := (run.flatMap LocalChar.chars).length - (localPart after.isEmpty run).2
  have hrest : rest = (run.flatMap LocalChar.chars).drop kept ++ after := (Prod.mk.inj heq).2.symm
  refine ⟨(run.flatMap LocalChar.chars).take kept, ?_, fun c hc => hall c (List.mem_of_mem_take hc)⟩
  rw [hrest, ← List.append_assoc, List.take_append_drop, hcs]

theorem solid_readNameOrWord {t : Token} (h : readNameOrWord cs = some (t, rest)) : Solid cs rest := by
  unfold readNameOrWord at h
  split at h
  · obtain ⟨x, hx⟩ := exists_readOff_readLocal h
    exact hx.solid_cons rfl
  · rename_i c rest' _
    split at h
    · rename_i hc
      have hread := readOff_readDotted (fun d (hd : isNameChar d = true) => isBlank_of_nameChar hd) (c :: rest')
      have hfirst : (readDotted isNameChar (c :: rest')).1 ≠ [] := by
        unfold readDotted
        rw [if_pos (by simp [isNameChar, hc])]
        simp
      split at h
      · rename_i label rest'' heq
        rw [heq] at hread
        obtain ⟨x, hx⟩ := exists_readOff_readLocal h
        exact (hread.trans (hx.cons rfl)).solid (by simp)
      · rename_i heq
        rw [heq] at hread hfirst
        split at h
        · cases h
        · cases h
          exact hread.solid hfirst
    · cases h
  · cases h

theorem solid_readBlank {t : Token} (h : readBlank cs = some (t, rest)) : Solid cs rest := by
  unfold readBlank at h
  split at h
  · rename_i c rest'
    split at h
    · rename_i hc
      have hread := readOff_readDotted (fun _ => isBlank_of_nameChar) rest'
      cases h
      exact hread.solid_cons (isBlank_of_localStart hc)
    · cases h
  · cases h

/-! ## Language tags and numbers -/

theorem readOff_takeWhile {ok : Char → Bool} (hok : ∀ c, ok c = true → isBlank c = false) (cs : List Char) :
    ReadOff (cs.takeWhile ok) cs (cs.dropWhile ok) :=
  ⟨List.takeWhile_append_dropWhile.symm, fun c hc => hok c (List.all_eq_true.1 List.all_takeWhile c hc)⟩

theorem isBlank_of_alpha (h : c.isAlpha = true) : isBlank c = false :=
  isBlank_eq_false_of _ (by decide) (by decide) (by decide) (by decide) h

theorem isBlank_of_alphanum (h : c.isAlphanum = true) : isBlank c = false :=
  isBlank_eq_false_of _ (by decide) (by decide) (by decide) (by decide) h

theorem isBlank_of_digit (h : c.isDigit = true) : isBlank c = false :=
  isBlank_eq_false_of _ (by decide) (by decide) (by decide) (by decide) h

theorem readOff_readTagParts (afterHyphen : Bool) (cs : List Char) :
    ReadOff (readTagParts afterHyphen cs).1 cs (readTagParts afterHyphen cs).2 := by
  fun_induction readTagParts afterHyphen cs with
  | case1 => exact .nil _
  | case2 =>
      rename_i hc _ _ heq ih
      rw [heq] at ih
      exact ih.cons (isBlank_of_alphanum hc)
  | case3 => exact .nil _
  | case4 =>
      rename_i hc _ _ _ heq ih
      rw [heq] at ih
      simp only [Bool.and_eq_true, decide_eq_true_eq] at hc
      exact ih.cons (hc.1 ▸ rfl)
  | case5 => exact .nil _

theorem exists_readOff_readTag {t : Token} (h : readTag cs = some (t, rest)) : ∃ x, ReadOff x cs rest := by
  have hfirst := readOff_takeWhile (fun _ => isBlank_of_alpha) cs
  unfold readTag at h
  dsimp only at h
  split at h
  · cases h
  · rename_i after hdrop _
    rw [hdrop] at hfirst
    have hparts := readOff_readTagParts true after
    split at h
    · cases h
      exact ⟨_, hfirst⟩
    · rename_i heq
      rw [heq] at hparts
      cases h
      exact ⟨_, hfirst.trans (hparts.cons rfl)⟩
  · cases h
    exact ⟨_, hfirst⟩

theorem readOff_readSign (cs : List Char) : ReadOff (readSign cs).1 cs (readSign cs).2 := by
  unfold readSign
  split
  · exact .cons rfl (.nil _)
  · exact .cons rfl (.nil _)
  · exact .nil _

theorem readOff_readDigits (cs : List Char) : ReadOff (readDigits cs).1 cs (readDigits cs).2 :=
  readOff_takeWhile (fun _ => isBlank_of_digit) cs

theorem readOff_readFraction (cs : List Char) : ReadOff (readFraction cs).1 cs (readFraction cs).2 := by
  unfold readFraction
  split
  · exact (readOff_readDigits _).cons rfl
  · exact .nil _

theorem readOff_readExponent {exponent : List Char} (h : readExponent cs = some (exponent, rest)) :
    ReadOff exponent cs rest := by
  unfold readExponent at h
  split at h
  · rename_i c after
    split at h
    · rename_i hc
      dsimp only at h
      have hsign := readOff_readSign after
      have hdigits := readOff_readDigits (readSign after).2
      split at h
      · cases h
      · rename_i heq
        rw [heq] at hdigits
        cases h
        refine (hsign.trans hdigits).cons ?_
        simp only [Bool.or_eq_true, decide_eq_true_eq] at hc
        rcases hc with rfl | rfl <;> rfl
    · cases h
      exact .nil _
  · cases h
    exact .nil _

theorem solid_readNumber {t : Token} (h : readNumber cs = some (t, rest)) : Solid cs rest := by
  have hwhole := (readOff_readSign cs).trans (readOff_readDigits _)
  have hfraction := hwhole.trans (readOff_readFraction _)
  unfold readNumber at h
  dsimp only at h
  split at h
  · cases h
  · rename_i hsome
    obtain ⟨⟨exponent, after⟩, hexponent, heq⟩ := Option.map_eq_some_iff.1 h
    have hall := hfraction.trans (readOff_readExponent hexponent)
    split at heq
    · rename_i hdouble
      cases heq
      refine hall.solid fun hnil => ?_
      rw [(List.append_eq_nil_iff.1 hnil).2] at hdouble
      cases hdouble
    · split at heq
      · rename_i hdecimal
        cases heq
        refine hall.solid fun hnil => ?_
        have hempty := (List.append_eq_nil_iff.1 (List.append_eq_nil_iff.1 hnil).1).2
        rw [hempty] at hdecimal
        cases hdecimal
      · rename_i hinteger
        cases heq
        refine hwhole.solid fun hnil => hsome ?_
        have hempty := (List.append_eq_nil_iff.1 hnil).2
        rw [hempty]
        simpa using hinteger

/-- **A token ends with a character that is no white space.** -/
theorem solid_read? {t : Token} (hhead : ∀ c ∈ cs.head?, isBlank c = false) (h : Token.read? cs = some (t, rest)) :
    Solid cs rest := by
  have hcut : ∀ {o : Cut (List Char)} {f : List Char × List Char → Token × List Char}, (∀ p, (f p).2 = p.2) →
      o.map f = some (t, rest) → ∃ text, o = some (text, rest) := by
    intro o f hf hmap
    obtain ⟨⟨text, after⟩, ho, heq⟩ := Option.map_eq_some_iff.1 hmap
    have hafter : after = rest := (hf (text, after)).symm.trans (congrArg Prod.snd heq)
    exact ⟨text, hafter ▸ ho⟩
  unfold Token.read? at h
  split at h
  · cases h
  · obtain ⟨_, h'⟩ := hcut (fun _ => rfl) h
    exact (solid_readIri h').cons _
  · obtain ⟨_, h'⟩ := hcut (fun _ => rfl) h
    exact (solid_readQuoted rfl h').cons _
  · obtain ⟨_, h'⟩ := hcut (fun _ => rfl) h
    exact (solid_readQuoted rfl h').cons _
  · exact (solid_readBlank h).append_left ['_', ':']
  · obtain ⟨_, hx⟩ := exists_readOff_readTag h
    exact hx.solid_cons rfl
  · cases h
    exact ⟨['^'], '^', rfl, rfl⟩
  · split at h
    · exact solid_readNumber h
    · split at h
      · cases h
        exact solid_cons (hhead _ rfl)
      · exact solid_readNameOrWord h

/-! ## Lexemes -/

/-- A token, and the text from its first character on. -/
structure Lexeme where
  text : List Char
  token : Token

/-- The tokens of a text, as far as there are some, each with the text from its first character on. -/
def lexemesFrom : Nat → List Char → List Lexeme
  | _, [] => []
  | 0, _ => []
  | fuel + 1, c :: rest =>
    if isBlank c then lexemesFrom fuel rest
    else if c = '#' then lexemesFrom fuel (rest.dropWhile fun d => d ≠ '\n' && d ≠ '\r')
    else
      match Token.read? (c :: rest) with
      | none => []
      | some (token, after) => ⟨c :: rest, token⟩ :: lexemesFrom fuel after

/-- The tokens of a text, as far as there are some, each with the text from its first character on. -/
def lexemes (cs : List Char) : List Lexeme := lexemesFrom cs.length cs

/-- A text is tokens to its end, with white space and comments between them. -/
inductive Lexes : List Char → List Lexeme → Prop
  | nil : Lexes [] []
  | blank {c : Char} {rest : List Char} {ls : List Lexeme} (hc : isBlank c = true) (h : Lexes rest ls) :
      Lexes (c :: rest) ls
  | comment {rest : List Char} {ls : List Lexeme} (h : Lexes (rest.dropWhile fun d => d ≠ '\n' && d ≠ '\r') ls) :
      Lexes ('#' :: rest) ls
  | token {c : Char} {rest after : List Char} {t : Token} {ls : List Lexeme} (hc : isBlank c = false) (hne : c ≠ '#')
      (hread : Token.read? (c :: rest) = some (t, after)) (h : Lexes after ls) :
      Lexes (c :: rest) (⟨c :: rest, t⟩ :: ls)

theorem lexes_lexemesFrom {fuel : Nat} {ts : List Token} (h : readTokens fuel cs = .ok ts) :
    Lexes cs (lexemesFrom fuel cs) ∧ (lexemesFrom fuel cs).map Lexeme.token = ts := by
  induction fuel generalizing cs ts with
  | zero =>
      cases cs with
      | nil =>
          cases h
          exact ⟨.nil, rfl⟩
      | cons c rest => cases h
  | succ fuel ih =>
      cases cs with
      | nil =>
          cases h
          exact ⟨.nil, rfl⟩
      | cons c rest =>
          unfold readTokens at h
          unfold lexemesFrom
          split
          · rename_i hc
            rw [if_pos hc] at h
            exact ⟨.blank hc (ih h).1, (ih h).2⟩
          · rename_i hc
            rw [if_neg hc] at h
            split
            · rename_i hhash
              subst hhash
              rw [if_pos rfl] at h
              exact ⟨.comment (ih h).1, (ih h).2⟩
            · rename_i hhash
              rw [if_neg hhash] at h
              cases hread : Token.read? (c :: rest) with
              | none =>
                  rw [hread] at h
                  cases h
              | some found =>
                  obtain ⟨t, after⟩ := found
                  rw [hread] at h
                  obtain ⟨ts', hts', hpure⟩ := bind_eq_ok.1 h
                  cases hpure
                  exact ⟨.token (by simpa using hc) hhash hread (ih hts').1, congrArg (t :: ·) (ih hts').2⟩

/-- **A text that is read as tokens is these tokens to its end.** -/
theorem lexes_of_tokens {ts : List Token} (h : tokens cs = .ok ts) :
    Lexes cs (lexemes cs) ∧ (lexemes cs).map Lexeme.token = ts :=
  lexes_lexemesFrom h

variable {l : Lexeme} {ls : List Lexeme}

theorem Lexes.tail (h : Lexes cs (l :: ls)) :
    ∃ rest, l.text <:+ cs ∧ Token.read? l.text = some (l.token, rest) ∧ Solid l.text rest ∧ Lexes rest ls := by
  generalize heq : l :: ls = all at h
  induction h with
  | nil => cases heq
  | blank _ _ ih =>
      obtain ⟨rest, hsuffix, hrest⟩ := ih heq
      exact ⟨rest, hsuffix.trans (List.suffix_cons ..), hrest⟩
  | comment _ ih =>
      obtain ⟨rest, hsuffix, hrest⟩ := ih heq
      exact ⟨rest, (hsuffix.trans (List.dropWhile_suffix _)).trans (List.suffix_cons ..), hrest⟩
  | token hc _ hread hrest _ =>
      cases heq
      exact ⟨_, List.suffix_rfl, hread, solid_read? (by simpa using hc) hread, hrest⟩

theorem length_le_of_mem_lexes (h : Lexes cs ls) : ∀ l ∈ ls, l.text.length ≤ cs.length := by
  induction ls generalizing cs with
  | nil => exact List.forall_mem_nil _
  | cons l ls ih =>
      obtain ⟨rest, hsuffix, -, hsolid, hrest⟩ := h.tail
      have hle := hsuffix.length_le
      have hlt := hsolid.length_lt
      refine List.forall_mem_cons.2 ⟨hle, fun m hm => ?_⟩
      have := ih hrest m hm
      omega

/-- The first token stands after white space, if no comment does. -/
theorem Lexes.read_of_blanks {gap : List Char} (hgap : ∀ d ∈ gap, isBlank d = true) (hc : isBlank c = false)
    (hne : c ≠ '#') (h : Lexes (gap ++ c :: rest) (l :: ls)) :
    ∃ after, Token.read? (c :: rest) = some (l.token, after) ∧ Lexes after ls := by
  induction gap with
  | nil =>
      cases h with
      | blank hblank => exact absurd hblank (by simp [hc])
      | comment => exact absurd rfl hne
      | token _ _ hread hrest => exact ⟨_, hread, hrest⟩
  | cons d gap ih =>
      obtain ⟨hd, hgap⟩ := List.forall_mem_cons.1 hgap
      cases h with
      | blank _ hrest => exact ih hgap hrest
      | comment => cases hd
      | token hblank => exact absurd hd (by simp [hblank])

end ShapeTypes.Rdf.Turtle
