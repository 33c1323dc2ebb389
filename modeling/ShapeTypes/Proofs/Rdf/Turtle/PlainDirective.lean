import ShapeTypes.Proofs.Lookup
import ShapeTypes.Proofs.Prefixes.Lines
import ShapeTypes.Proofs.Rdf.Turtle.Directives

/-!
# Prefix directives in plain writing

* `PlainDirective` — a prefix directive whose word, label and IRI are set apart by white space only, whose label is of
  characters that a scanned one may have, and whose IRI is absolute and without escapes;
* `PlainDirective.declaration?_text` — **on a line of its own it is found as it is written**;
* `PlainDirective.exists_lexes` — **and a document reads it as it is written.**
-/

namespace ShapeTypes.Rdf.Turtle

open Text

/-- The parts of a prefix directive in plain writing, up to its IRI. -/
structure PlainDirective where
  word : List Char
  gap : List Char
  label : List Char
  gapAfterLabel : List Char
  space : List Char
  isPrefixWord : word = "@prefix".toList ∨ word.map Char.toLower = "prefix".toList
  gap_ne_nil : gap ≠ []
  gap_blank : ∀ c ∈ gap, isBlank c = true
  label_start : ∀ c ∈ label.head?, isLabelStart c = true
  label_chars : ∀ c ∈ label, isLabelChar c = true
  gapAfterLabel_blank : ∀ c ∈ gapAfterLabel, isBlank c = true
  space_chars : ∀ c ∈ space, c ≠ '>' ∧ c ≠ '\\'
  space_absolute : (IriReference.splitScheme? space).isSome = true

namespace PlainDirective

variable (w : PlainDirective) (rest : List Char)

/-- The text from the label on. -/
def labelText : List Char := w.label ++ ':' :: (w.gapAfterLabel ++ '<' :: (w.space ++ '>' :: rest))

/-- The text from the word on. -/
def text : List Char := w.word ++ (w.gap ++ w.labelText rest)

/-- What the directive says. -/
def binding : Binding := ⟨String.ofList w.label, String.ofList w.space⟩

/-! ## Characters -/

theorem isAlpha_of_toLower {c : Char} (h : c.toLower.isAlpha = true) : c.isAlpha = true := by
  unfold Char.toLower at h
  split at h
  · rename_i hc
    exact Bool.or_eq_true_iff.2 (.inl (decide_eq_true hc))
  · exact h

theorem toNat_of_isAlpha {c : Char} (h : c.isAlpha = true) : 65 ≤ c.toNat ∧ c.toNat ≤ 122 := by
  rcases Bool.or_eq_true_iff.1 h with h | h
  · obtain ⟨hle, hle'⟩ := of_decide_eq_true h
    have := UInt32.le_iff_toNat_le.1 hle
    have := UInt32.le_iff_toNat_le.1 hle'
    exact ⟨‹_›, Nat.le_trans ‹_› (by decide)⟩
  · obtain ⟨hle, hle'⟩ := Bool.and_eq_true_iff.1 h
    exact ⟨Nat.le_trans (by decide) (UInt32.le_iff_toNat_le.1 (of_decide_eq_true hle)),
      UInt32.le_iff_toNat_le.1 (of_decide_eq_true hle')⟩

theorem isSpace_of_isAlpha {c : Char} (h : c.isAlpha = true) : isSpace c = false := by
  obtain ⟨hle, hle'⟩ := toNat_of_isAlpha h
  simp [isSpace]
  omega

theorem isSpace_of_isLabelStart {c : Char} (h : isLabelStart c = true) : isSpace c = false := by
  simp only [isLabelStart, Bool.or_eq_true, beq_iff_eq] at h
  rcases h with (h | rfl) | rfl
  · exact isSpace_of_isAlpha h
  · rfl
  · rfl

theorem isNameStart_of_isLabelStart {c : Char} (h : isLabelStart c = true) : isNameStart c = true := by
  simp only [isLabelStart, Bool.or_eq_true, beq_iff_eq] at h
  rcases h with (h | rfl) | rfl
  · exact Bool.or_eq_true_iff.2 (.inl h)
  · rfl
  · rfl

theorem exists_bareWord : ∃ bare, bare.map Char.toLower = "prefix".toList ∧ (∀ c ∈ bare, c.isAlpha = true) ∧
    (w.word = '@' :: bare ∨ w.word = bare) := by
  have halpha : ∀ c ∈ "prefix".toList, c.isAlpha = true := List.all_eq_true.1 (by decide)
  rcases w.isPrefixWord with h | h
  · exact ⟨"prefix".toList, by decide, halpha, .inl h⟩
  · refine ⟨w.word, h, fun c hc => isAlpha_of_toLower ?_, .inr rfl⟩
    have hlower : c.toLower ∈ "prefix".toList := h ▸ List.mem_map_of_mem hc
    exact halpha _ hlower

/-! ## As a line -/

theorem labelAndRest?_labelText : labelAndRest? (w.labelText rest) =
    some (w.label, w.gapAfterLabel ++ '<' :: (w.space ++ '>' :: rest)) := by
  unfold labelText
  have hstart := w.label_start
  have hchars := w.label_chars
  generalize w.gapAfterLabel ++ '<' :: (w.space ++ '>' :: rest) = follow
  have hcolon : ∀ c ∈ (':' :: follow).head?, isLabelChar c = false := by
    rintro _ ⟨⟩
    decide
  cases hlabel : w.label with
  | nil => rfl
  | cons c label =>
      rw [hlabel] at hstart hchars
      have hc : isLabelStart c = true := hstart c rfl
      unfold labelAndRest?
      rw [List.cons_append]
      split
      · rename_i heq
        cases heq
        cases hc
      · rename_i heq
        cases heq
        rw [if_pos hc, ← List.cons_append, dropWhile_append_stop hchars hcolon, takeWhile_append_stop hchars hcolon]
        rfl
      · rename_i heq
        cases heq

theorem spaceAndRest?_space : spaceAndRest? ('<' :: (w.space ++ '>' :: rest)) = some (w.space, rest) := by
  have hspace : ∀ c ∈ w.space, decide (c ≠ '>') = true := fun c hc => decide_eq_true (w.space_chars c hc).1
  have hbracket : ∀ c ∈ ('>' :: rest).head?, decide (c ≠ '>') = false := by
    rintro _ ⟨⟩
    rfl
  unfold spaceAndRest?
  split
  · rename_i heq
    cases heq
    rw [dropWhile_append_stop hspace hbracket, takeWhile_append_stop hspace hbracket]
  · rename_i hnot
    exact absurd rfl (hnot _)

/-- The label, or the colon if it is empty, begins with no white space and no comment. -/
theorem exists_labelText_eq_cons : ∃ c tail, w.labelText rest = c :: tail ∧ isSpace c = false ∧ c ≠ '#' := by
  unfold labelText
  have hstart := w.label_start
  cases hlabel : w.label with
  | nil => exact ⟨':', _, rfl, rfl, by decide⟩
  | cons c label =>
      rw [hlabel] at hstart
      have hc := hstart c rfl
      refine ⟨c, _, rfl, isSpace_of_isLabelStart hc, ?_⟩
      rintro rfl
      cases hc

theorem dropAt_text {bare : List Char} (halpha : ∀ c ∈ bare, c.isAlpha = true) (hne : bare ≠ [])
    (hword : w.word = '@' :: bare ∨ w.word = bare) :
    dropAt ((w.text rest).dropWhile isSpace) = bare ++ (w.gap ++ w.labelText rest) := by
  unfold text
  rcases hword with h | h
  · rw [h]
    rfl
  · obtain ⟨c, bare, rfl⟩ := List.exists_cons_of_ne_nil hne
    have hc := halpha c List.mem_cons_self
    rw [h, List.cons_append, List.dropWhile_cons_of_neg (by simp [isSpace_of_isAlpha hc])]
    unfold dropAt
    split
    · rename_i heq
      cases heq
      cases hc
    · rfl

/-- **On a line of its own the directive is found as it is written.** -/
theorem declaration?_text : declaration? (w.text rest) = some (w.binding, rest) := by
  obtain ⟨bare, hlower, halpha, hword⟩ := w.exists_bareWord
  have hlength : bare.length = 6 := by simpa using congrArg List.length hlower
  have hdrop := w.dropAt_text rest halpha (List.ne_nil_of_length_eq_add_one hlength) hword
  have hafter : afterPrefixWord? (bare ++ (w.gap ++ w.labelText rest)) = some (w.gap ++ w.labelText rest) := by
    unfold afterPrefixWord?
    rw [List.take_left' hlength, if_pos hlower, List.drop_left' hlength]
  have hgap : (w.gap ++ w.labelText rest).head?.any isSpace = true := by
    obtain ⟨c, gap, hgap⟩ := List.exists_cons_of_ne_nil w.gap_ne_nil
    rw [hgap]
    exact isSpace_of_isBlank (w.gap_blank c (by simp [hgap]))
  have hlabel : (w.gap ++ w.labelText rest).dropWhile isSpace = w.labelText rest := by
    obtain ⟨c, tail, heq, hspace, -⟩ := w.exists_labelText_eq_cons rest
    refine dropWhile_append_stop (fun c hc => isSpace_of_isBlank (w.gap_blank c hc)) ?_
    rw [heq]
    rintro _ ⟨⟩
    exact hspace
  have hbracket : ∀ c ∈ ('<' :: (w.space ++ '>' :: rest)).head?, isSpace c = false := by
    rintro _ ⟨⟩
    rfl
  have hspace := dropWhile_append_stop (fun c hc => isSpace_of_isBlank (w.gapAfterLabel_blank c hc)) hbracket
  unfold declaration?
  rw [hdrop, hafter]
  simp only [Option.bind_eq_bind, Option.bind_some, hgap, hlabel, labelAndRest?_labelText, hspace, spaceAndRest?_space]
  rfl

/-! ## As tokens -/

theorem toNat_of_isNameStart {c : Char} (h : isNameStart c = true) : 65 ≤ c.toNat := by
  rcases Bool.or_eq_true_iff.1 h with h | h
  · exact (toNat_of_isAlpha h).1
  · obtain ⟨r, hr, hle⟩ := List.any_eq_true.1 h
    have hall : ∀ r ∈ nameStartRanges, 65 ≤ r.1 := by decide
    simp only [Bool.and_eq_true, decide_eq_true_eq] at hle
    exact Nat.le_trans (hall r hr) hle.1

theorem read?_of_isNameStart {c : Char} (h : isNameStart c = true) (cs : List Char) :
    Token.read? (c :: cs) = readNameOrWord (c :: cs) := by
  have hne : ∀ d : Char, isNameStart d = false → c ≠ d := by
    rintro d hd rfl
    rw [hd] at h
    cases h
  have hdigit : c.isDigit = false := by
    by_contra hdigit
    have hle := UInt32.le_iff_toNat_le.1 (of_decide_eq_true (Bool.and_eq_true_iff.1 (Bool.not_eq_false _ ▸ hdigit)).2)
    exact absurd (Nat.le_trans (toNat_of_isNameStart h) hle) (by decide)
  have hnumber : startsNumber (c :: cs) = false := by
    unfold startsNumber
    split
    · rename_i heq
      exact absurd (List.head_eq_of_cons_eq heq) (hne '.' (by decide))
    · rename_i heq
      cases heq
      simp [hdigit, hne '+' (by decide), hne '-' (by decide)]
    · rfl
  have hmark : mark? c = none := by
    cases hm : mark? c with
    | none => rfl
    | some m => exact absurd rfl (hne c ((by decide : ∀ q ∈ _, isNameStart q.1 = false) _ (mem_of_lookup hm)))
  unfold Token.read?
  split
  all_goals rename_i heq
  case h_1 => cases heq
  case h_8 =>
    cases heq
    rw [hnumber, hmark]
    rfl
  all_goals
    refine absurd (List.head_eq_of_cons_eq heq) (hne _ ?_)
    decide

theorem readDotted_append {ok : Char → Bool} {cs follow : List Char} (hcs : ∀ c ∈ cs, ok c = true)
    (hfollow : ∀ c ∈ follow.head?, ok c = false ∧ c ≠ '.') : readDotted ok (cs ++ follow) = (cs, follow) := by
  induction cs with
  | nil =>
      cases follow with
      | nil => rfl
      | cons c follow =>
          obtain ⟨hc, hdot⟩ := hfollow c rfl
          simp [readDotted, hc, hdot]
  | cons c cs ih =>
      obtain ⟨hc, hcs⟩ := List.forall_mem_cons.1 hcs
      rw [List.cons_append, readDotted, if_pos hc, ih hcs]

section

variable {bare : List Char} {c : Char} (hbare : ∀ d ∈ bare, d.isAlpha = true) (hne : bare ≠ []) (hc : isBlank c = true)
  (follow : List Char)

include hbare hne hc

/-- A word after `@` ends with white space. -/
theorem readTag_of_blank : readTag (bare ++ c :: follow) = some (.tag bare, c :: follow) := by
  have hstop : ∀ d ∈ (c :: follow).head?, d.isAlpha = false := by
    rintro _ ⟨⟩
    rcases isBlank_cases hc with rfl | rfl | rfl | rfl <;> rfl
  unfold readTag
  rw [takeWhile_append_stop hbare hstop, dropWhile_append_stop hbare hstop]
  dsimp only
  split
  · exact absurd rfl hne
  · rename_i heq
    cases heq
    cases hc
  · rfl

theorem read?_of_blank : Token.read? (bare ++ c :: follow) = some (.word bare, c :: follow) := by
  have hstop : ∀ d ∈ (c :: follow).head?, isNameChar d = false ∧ d ≠ '.' := by
    rintro _ ⟨⟩
    rcases isBlank_cases hc with rfl | rfl | rfl | rfl <;> exact ⟨by decide, by decide⟩
  have hcolon : c ≠ ':' := by
    rintro rfl
    cases hc
  have hstart : ∀ d ∈ bare, isNameStart d = true := fun d hd => Bool.or_eq_true_iff.2 (.inl (hbare d hd))
  have hread : readDotted isNameChar (bare ++ c :: follow) = (bare, c :: follow) :=
    readDotted_append (fun d hd => by simp [isNameChar, hstart d hd]) hstop
  obtain ⟨d, bare, rfl⟩ := List.exists_cons_of_ne_nil hne
  have hd := hstart d List.mem_cons_self
  rw [List.cons_append] at hread ⊢
  rw [read?_of_isNameStart hd]
  unfold readNameOrWord
  split
  · rename_i heq
    cases heq
    cases hd
  · rename_i heq
    cases heq
    rw [if_pos hd, hread]
    split
    · rename_i heq
      cases heq
      exact absurd rfl hcolon
    · rename_i heq
      cases heq
      have hdot : c ≠ '.' := (hstop c rfl).2
      rw [List.dropWhile_cons_of_neg (by simpa using hdot), if_neg (by simpa using hcolon)]
  · rename_i heq
    cases heq

end

theorem exists_read?_text : ∃ t, Token.read? (w.text rest) = some (t, w.gap ++ w.labelText rest) := by
  obtain ⟨bare, hlower, halpha, hword⟩ := w.exists_bareWord
  obtain ⟨c, gap, hgap⟩ := List.exists_cons_of_ne_nil w.gap_ne_nil
  have hblank : isBlank c = true := w.gap_blank c (by simp [hgap])
  have hne : bare ≠ [] := by
    rintro rfl
    cases hlower
  unfold text
  rw [hgap, List.cons_append]
  rcases hword with hword | hword
  · rw [hword]
    exact ⟨.tag bare, readTag_of_blank halpha hne hblank _⟩
  · rw [hword]
    exact ⟨.word bare, read?_of_blank halpha hne hblank _⟩

theorem readLocal_of_stop (label : List Char) {cs : List Char} (h : ∀ c ∈ cs.head?, isBlank c = true ∨ c = '<') :
    readLocal label cs = some (.name label [] false, cs) := by
  have hrun : readLocalRun true cs = some ([], cs) := by
    cases cs with
    | nil => rfl
    | cons c cs =>
        have hstop : c ≠ '%' ∧ c ≠ '\\' ∧ isLocalStart c = false ∧ c ≠ ':' := by
          rcases h c rfl with hc | rfl
          · rcases isBlank_cases hc with rfl | rfl | rfl | rfl <;> decide
          · decide
        obtain ⟨hpercent, hbackslash, hstart, hcolon⟩ := hstop
        unfold readLocalRun
        simp [hpercent, hbackslash, hstart, hcolon]
  simp [readLocal, hrun, localPart]

theorem eq_of_read?_labelText {label after : List Char} {suspect : Bool}
    (h : Token.read? (w.labelText rest) = some (.name label [] suspect, after)) :
    label = w.label ∧ after = w.gapAfterLabel ++ '<' :: (w.space ++ '>' :: rest) := by
  have hstop : ∀ c ∈ (w.gapAfterLabel ++ '<' :: (w.space ++ '>' :: rest)).head?, isBlank c = true ∨ c = '<' := by
    cases hgap : w.gapAfterLabel with
    | nil => exact fun c hc => .inr (by simpa using hc.symm)
    | cons d gap =>
        rintro _ ⟨⟩
        exact .inl (w.gapAfterLabel_blank d (by simp [hgap]))
  have hcolon : ':' ∉ w.label := fun hmem => absurd (w.label_chars _ hmem) (by decide)
  have hstart := w.label_start
  unfold labelText at h
  generalize w.gapAfterLabel ++ '<' :: (w.space ++ '>' :: rest) = follow at h hstop
  generalize w.label = written at h hcolon hstart
  cases written with
  | nil =>
      have hread : readLocal [] follow = some (.name label [] suspect, after) := h
      rw [readLocal_of_stop [] hstop] at hread
      cases hread
      exact ⟨rfl, rfl⟩
  | cons c written =>
      have hc : isNameStart c = true := isNameStart_of_isLabelStart (hstart c rfl)
      rw [List.cons_append, read?_of_isNameStart hc] at h
      have happend := append_readDotted isNameChar (c :: (written ++ ':' :: follow))
      have hread := forall_mem_readDotted isNameChar (c :: (written ++ ':' :: follow))
      unfold readNameOrWord at h
      split at h
      · rename_i heq
        cases heq
        cases hc
      · rename_i heq
        cases heq
        rw [if_pos hc] at h
        split at h
        · rename_i read rest' heq
          rw [heq] at happend hread
          -- Neither label has a colon, so both end at the first one.
          have hread' : ':' ∉ read := by
            intro hmem
            rcases hread _ hmem with hcolon | hdot
            · exact absurd hcolon (by decide)
            · cases hdot
          rw [← List.cons_append] at happend
          obtain ⟨rfl, rfl⟩ := eq_and_eq_of_first hread' hcolon happend
          rw [readLocal_of_stop _ hstop] at h
          cases h
          exact ⟨rfl, rfl⟩
        · split at h <;> cases h
      · rename_i heq
        cases heq

theorem readIri_append {space : List Char} (h : ∀ c ∈ space, c ≠ '>' ∧ c ≠ '\\') (rest : List Char) :
    readIri (space ++ '>' :: rest) = some (space, rest) := by
  induction space with
  | nil =>
      rw [List.nil_append]
      unfold readIri
      exact if_pos rfl
  | cons c space ih =>
      obtain ⟨⟨hbracket, hbackslash⟩, hspace⟩ := List.forall_mem_cons.1 h
      rw [List.cons_append]
      unfold readIri
      rw [if_neg hbracket, if_neg hbackslash, ih hspace]
      rfl

theorem read?_space : Token.read? ('<' :: (w.space ++ '>' :: rest)) = some (.iri w.space, rest) := by
  show (readIri (w.space ++ '>' :: rest)).map _ = _
  rw [readIri_append w.space_chars]
  rfl

/-- An absolute IRI is kept as it is written, whatever the base. -/
theorem value_of_resolveIri? {base : Option IriReference} {cs : List Char} {i : Iri}
    (habsolute : (IriReference.splitScheme? cs).isSome = true) (h : resolveIri? base cs = some i) :
    i.value = String.ofList cs := by
  have hscheme : (IriReference.ofChars cs).scheme.isSome = true := by
    obtain ⟨⟨scheme, rest⟩, heq⟩ := Option.isSome_iff_exists.1 habsolute
    simp [IriReference.ofChars, heq]
  cases base with
  | none =>
      have hi : absoluteIri? cs = some i := h
      unfold absoluteIri? at hi
      dsimp only at hi
      split at hi
      · cases hi
        rfl
      · cases hi
  | some base =>
      have hresolve : base.resolve? (.ofChars cs) = some (.ofChars cs) := if_pos hscheme
      unfold resolveIri? at h
      dsimp only at h
      rw [hresolve] at h
      dsimp only at h
      split at h
      · cases h
        rw [IriReference.chars_ofChars]
      · cases h

theorem solid_text : Solid (w.text rest) rest := by
  have hspace : Solid ('<' :: (w.space ++ '>' :: rest)) rest := ((solid_cons rfl).append_left w.space).cons '<'
  have hlabel : Solid (w.labelText rest) rest := ((hspace.append_left w.gapAfterLabel).cons ':').append_left w.label
  exact (hlabel.append_left w.gap).append_left w.word

/-- **A document reads the directive as it is written.** -/
theorem exists_lexes {t : Token} {after : List Char} {ls : List Lexeme} {b : Binding}
    (hread : Token.read? (w.text rest) = some (t, after)) (hafter : Lexes after ls)
    (hb : Denotes (ls.map Lexeme.token) b) :
    b = w.binding ∧ ∃ m n ls', ls = m :: n :: ls' ∧ m.token.isNeutral = true ∧ n.token.isNeutral = true ∧
      Lexes rest ls' := by
  obtain ⟨label, suspect, text, tail, base, i, hfollow, hlabel, hresolve, hspace⟩ := hb
  obtain ⟨m, ls, rfl, hm, hfollow⟩ := List.map_eq_cons_iff.1 hfollow
  obtain ⟨n, ls, rfl, hn, -⟩ := List.map_eq_cons_iff.1 hfollow
  obtain ⟨_, hword⟩ := w.exists_read?_text rest
  rw [hword] at hread
  cases hread
  obtain ⟨c, cs, hcons, hc, hhash⟩ := w.exists_labelText_eq_cons rest
  have hblank : isBlank c = false := Bool.eq_false_iff.2 fun hblank => by simp [isSpace_of_isBlank hblank] at hc
  rw [hcons] at hafter
  obtain ⟨after, hread, hafter⟩ := hafter.read_of_blanks w.gap_blank hblank hhash
  rw [← hcons, hm] at hread
  obtain ⟨rfl, rfl⟩ := w.eq_of_read?_labelText rest hread
  obtain ⟨after, hread, hafter⟩ := hafter.read_of_blanks w.gapAfterLabel_blank rfl (by decide)
  rw [read?_space, hn] at hread
  cases hread
  refine ⟨?_, m, n, ls, rfl, by rw [hm]; rfl, by rw [hn]; rfl, hafter⟩
  have hvalue := value_of_resolveIri? w.space_absolute hresolve
  rw [binding, ← hlabel, ← hvalue, ← hspace]

end PlainDirective

end ShapeTypes.Rdf.Turtle
