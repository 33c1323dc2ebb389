import ShapeTypes.Proofs.Prefixes.Table
import ShapeTypes.Proofs.Rdf.Turtle.PlainDirective
import ShapeTypes.Rdf.Turtle.Source

/-!
# Documents whose directives stand line by line

The prefixes to name the terms of a text with are found by its lines, and not by its directives.

* `directivePlaces` — where the prefix directives of a text begin; `firstLexeme` — what the first token says of it;
* `LineByLine` — they begin lines, in plain writing, and no other line, a comment aside, looks like a declaration;
* `LineByLine.found`, `LineByLine.over` — what is found up to the end of a directive, and over other tokens;
* `LineByLine.scans` — **the lines of such a text declare what its directives say**;
* `BindsDirectives`, `Source.bindsDirectives` — **and the table binds it**;
* `oneLine_not_bindsDirectives` — a directive that does not begin a line is not found.
-/

namespace ShapeTypes.Rdf.Turtle

variable {cs rest : List Char} {fresh : Bool} {l : Lexeme} {ls : List Lexeme}

/-! ## Where directives begin -/

/-- The texts that begin with the words of the prefix directives. A tag right after a string tells the language of
the string. -/
def directivePlaces : List Lexeme → List (List Char)
  | [] => []
  | ⟨_, .string _⟩ :: ⟨_, .tag _⟩ :: rest => directivePlaces rest
  | l :: rest => if l.token.isPrefixWord then l.text :: directivePlaces rest else directivePlaces rest

/-- The first token begins a directive, or is a string with its tag, or has to do with no directive. -/
inductive FirstLexeme (l : Lexeme) (ls : List Lexeme) : Prop
  | directive (hplaces : directivePlaces (l :: ls) = l.text :: directivePlaces ls)
      (hdirectives : directives ((l :: ls).map Lexeme.token) =
        ls.map Lexeme.token :: directives (ls.map Lexeme.token))
  | tagged (m : Lexeme) (rest : List Lexeme) (hls : ls = m :: rest)
      (hplaces : directivePlaces (l :: ls) = directivePlaces rest)
      (hdirectives : directives ((l :: ls).map Lexeme.token) = directives (rest.map Lexeme.token))
  | other (hplaces : directivePlaces (l :: ls) = directivePlaces ls)
      (hdirectives : directives ((l :: ls).map Lexeme.token) = directives (ls.map Lexeme.token))

theorem directivePlaces_cons (h : ∀ text word, l.token = .string text → ∀ m ∈ ls.head?, m.token ≠ .tag word) :
    directivePlaces (l :: ls) = if l.token.isPrefixWord then l.text :: directivePlaces ls else directivePlaces ls := by
  rw [directivePlaces]
  rintro _ text m word rest rfl rfl
  exact h text word rfl _ rfl rfl

theorem directivePlaces_neutral (h : l.token.isNeutral = true) : directivePlaces (l :: ls) = directivePlaces ls := by
  obtain ⟨hstring, hword⟩ := Token.isNeutral_iff.1 h
  rw [directivePlaces_cons fun text _ htext => absurd htext (hstring text), hword]
  rfl

theorem firstLexeme (l : Lexeme) (ls : List Lexeme) : FirstLexeme l ls := by
  by_cases htagged : ∃ text m rest word, l.token = .string text ∧ ls = m :: rest ∧ m.token = .tag word
  · obtain ⟨text, m, rest, word, htext, rfl, hword⟩ := htagged
    refine .tagged m rest rfl ?_ ?_
    · obtain ⟨_, _⟩ := l
      obtain ⟨_, _⟩ := m
      cases htext
      cases hword
      rw [directivePlaces]
    · rw [List.map_cons, List.map_cons, htext, hword, directives]
  · have hplaces : directivePlaces (l :: ls) =
        if l.token.isPrefixWord then l.text :: directivePlaces ls else directivePlaces ls :=
      directivePlaces_cons fun text word htext m hm hword => by
        obtain ⟨rest, rfl⟩ := List.head?_eq_some_iff.1 hm
        exact htagged ⟨text, m, rest, word, htext, rfl, hword⟩
    cases hword : l.token.isPrefixWord with
    | true =>
        rw [if_pos hword] at hplaces
        exact .directive hplaces (directives_prefixWord hword _)
    | false =>
        rw [hword] at hplaces
        refine .other hplaces ?_
        by_cases hstring : ∃ text, l.token = .string text
        · obtain ⟨text, htext⟩ := hstring
          rw [List.map_cons, htext]
          refine directives_string text fun word after hmap => ?_
          obtain ⟨m, rest, rfl, hm, -⟩ := List.map_eq_cons_iff.1 hmap
          exact htagged ⟨text, m, rest, word, htext, rfl, hm⟩
        · exact directives_cons (Token.isNeutral_iff.2 ⟨fun text htext => hstring ⟨text, htext⟩, hword⟩) _

/-! ## Line by line -/

/-- From somewhere in a text on, the prefix directives stand line by line. -/
structure LineByLine (fresh : Bool) (cs : List Char) (ls : List Lexeme) : Prop where
  /-- Every directive begins a line, ... -/
  begins : ∀ p ∈ directivePlaces ls, p ∈ lineTexts fresh cs
  /-- ... and is in plain writing; ... -/
  plain : ∀ p ∈ directivePlaces ls, ∃ (w : PlainDirective) (rest : List Char), p = w.text rest
  /-- ... and whatever else begins a line, a comment aside, does not look like one. -/
  declares : ∀ line ∈ lineTexts fresh cs, line.head? ≠ some '#' → (declaration? line).isSome = true →
    line ∈ directivePlaces ls

theorem LineByLine.mem_of_isSome (h : LineByLine fresh cs ls) {line : List Char} (hline : line ∈ lineTexts fresh cs)
    (hsome : (declaration? line).isSome = true) : line ∈ directivePlaces ls := by
  refine h.declares line hline (fun hhash => ?_) hsome
  obtain ⟨rest, rfl⟩ := List.head?_eq_some_iff.1 hhash
  rw [declaration?_comment] at hsome
  cases hsome

theorem exists_of_mem_directivePlaces {p : List Char} (h : p ∈ directivePlaces ls) : ∃ l ∈ ls, l.text = p := by
  fun_induction directivePlaces ls with
  | case1 => cases h
  | case2 _ _ _ _ _ ih =>
      obtain ⟨l, hl, hp⟩ := ih h
      exact ⟨l, List.mem_cons_of_mem _ (List.mem_cons_of_mem _ hl), hp⟩
  | case3 l _ _ _ ih =>
      rcases List.mem_cons.1 h with rfl | h
      · exact ⟨l, List.mem_cons_self, rfl⟩
      · obtain ⟨m, hm, hp⟩ := ih h
        exact ⟨m, List.mem_cons_of_mem _ hm, hp⟩
  | case4 _ _ _ _ ih =>
      obtain ⟨l, hl, hp⟩ := ih h
      exact ⟨l, List.mem_cons_of_mem _ hl, hp⟩

theorem length_le_of_mem_directivePlaces (h : Lexes cs ls) : ∀ p ∈ directivePlaces ls, p.length ≤ cs.length := by
  intro p hp
  obtain ⟨l, hl, rfl⟩ := exists_of_mem_directivePlaces hp
  exact length_le_of_mem_lexes h l hl

theorem LineByLine.after {later : List Lexeme} (h : LineByLine fresh cs ls) (hsolid : Solid cs rest)
    (hlater : Lexes rest later) (passed : List (List Char))
    (hplaces : directivePlaces ls = passed ++ directivePlaces later) (hpassed : ∀ p ∈ passed, rest.length < p.length) :
    LineByLine false rest later := by
  obtain ⟨before, hlines, hbefore⟩ := exists_lineTexts_append_solid hsolid fresh
  have hplace : ∀ p ∈ directivePlaces later, p ∈ directivePlaces ls := fun p hp =>
    hplaces ▸ List.mem_append_right passed hp
  constructor
  case begins =>
    intro p hp
    have hmem := h.begins p (hplace p hp)
    rw [hlines] at hmem
    -- Texts are told apart by their lengths: what begins later is shorter.
    rcases List.mem_append.1 hmem with hmem | hmem
    · have := hbefore p hmem
      have := length_le_of_mem_directivePlaces hlater p hp
      omega
    · exact hmem
  case plain => exact fun p hp => h.plain p (hplace p hp)
  case declares =>
    intro line hline _ hsome
    have hmem := h.mem_of_isSome (hlines ▸ List.mem_append_right before hline) hsome
    rw [hplaces] at hmem
    rcases List.mem_append.1 hmem with hmem | hmem
    · have := hpassed line hmem
      have := length_le_of_mem_lineTexts line hline
      omega
    · exact hmem

/-- Before all directives no line looks like a declaration. -/
theorem LineByLine.declaration?_eq_none {n : Nat} (h : LineByLine fresh cs ls)
    (hplaces : ∀ p ∈ directivePlaces ls, p.length ≤ n) :
    ∀ line ∈ lineTexts fresh cs, n < line.length → declaration? line = none := by
  intro line hline hlong
  by_contra hsome
  have := hplaces line (h.mem_of_isSome hline (Option.isSome_iff_ne_none.2 hsome))
  omega

/-- Over a part of the text without directives nothing is declared. -/
theorem LineByLine.over {later : List Lexeme} {bs : List Binding} (h : LineByLine fresh cs ls) (hsolid : Solid cs rest)
    (hlater : Lexes rest later) (hplaces : directivePlaces ls = directivePlaces later)
    (hscans : LineByLine false rest later → Scans false rest bs) : Scans fresh cs bs := by
  have hlines : LineByLine false rest later := h.after hsolid hlater [] hplaces (List.forall_mem_nil _)
  refine (hscans hlines).skip_solid hsolid (h.declaration?_eq_none ?_)
  rw [hplaces]
  exact length_le_of_mem_directivePlaces hlater

/-- A directive that begins a line is found there, and as what it says. -/
theorem LineByLine.found {b : Binding} {bs : List Binding} (h : LineByLine fresh cs (l :: ls))
    (hlexes : Lexes cs (l :: ls)) (hplaces : directivePlaces (l :: ls) = l.text :: directivePlaces ls)
    (hb : Denotes (ls.map Lexeme.token) b)
    (hscans : ∀ {rest later}, later.length < ls.length → LineByLine false rest later → Lexes rest later →
      directives (later.map Lexeme.token) = directives (ls.map Lexeme.token) → Scans false rest bs) :
    Scans fresh cs (b :: bs) := by
  obtain ⟨after, hsuffix, hread, -, hafter⟩ := hlexes.tail
  have hfirst : l.text ∈ directivePlaces (l :: ls) := hplaces ▸ List.mem_cons_self
  have hbegins := h.begins l.text hfirst
  obtain ⟨w, rest, htext⟩ := h.plain l.text hfirst
  rw [htext] at hread hsuffix hplaces hbegins
  obtain ⟨rfl, m, n, later, rfl, hm, hn, hlater⟩ := w.exists_lexes rest hread hafter hb
  have hsolid := w.solid_text rest
  rw [directivePlaces_neutral hm, directivePlaces_neutral hn] at hplaces
  have hdirectives : directives (later.map Lexeme.token) = directives ((m :: n :: later).map Lexeme.token) := by
    rw [List.map_cons, List.map_cons, directives_cons hm, directives_cons hn]
  have hless : later.length < (m :: n :: later).length := by
    simp only [List.length_cons]
    omega
  have hlines : LineByLine false rest later :=
    h.after (hsolid.of_suffix hsuffix) hlater [_] hplaces (List.forall_mem_singleton.2 hsolid.length_lt)
  -- The scan goes on after the closing bracket, where no line begins.
  have hscan : Scans true (w.text rest) (w.binding :: bs) :=
    (hscans hless hlines hlater hdirectives).declaration (w.declaration?_text rest) hsolid.length_lt
  refine hscan.reach hbegins (h.declaration?_eq_none ?_)
  rw [hplaces, List.forall_mem_cons]
  refine ⟨Nat.le_refl _, fun p hp => ?_⟩
  have := length_le_of_mem_directivePlaces hlater p hp
  have := hsolid.length_lt
  omega

/-- **If the directives stand line by line, the lines declare what they say.** -/
theorem LineByLine.scans {bs : List Binding} (h : LineByLine fresh cs ls) (hlexes : Lexes cs ls)
    (hall : List.Forall₂ Denotes (directives (ls.map Lexeme.token)) bs) : Scans fresh cs bs := by
  -- A directive and a string with its tag take more tokens than one.
  induction hn : ls.length using Nat.strongRecOn generalizing cs ls fresh bs with
  | _ n ih =>
      cases ls with
      | nil =>
          cases hall
          refine scans_nil fun line hline => ?_
          by_contra hsome
          exact List.not_mem_nil (h.mem_of_isSome hline (Option.isSome_iff_ne_none.2 hsome))
      | cons l ls =>
          rw [List.length_cons] at hn
          obtain ⟨rest, hsuffix, -, hsolid, hrest⟩ := hlexes.tail
          cases firstLexeme l ls with
          | other hplaces hdirectives =>
              rw [hdirectives] at hall
              exact h.over (hsolid.of_suffix hsuffix) hrest hplaces fun hlines =>
                ih ls.length (by omega) hlines hrest hall rfl
          | tagged m later hls hplaces hdirectives =>
              subst hls
              rw [hdirectives] at hall
              rw [List.length_cons] at hn
              obtain ⟨after, hsuffix', -, hsolid', hafter⟩ := hrest.tail
              have hall' := (hsolid'.of_suffix hsuffix').trans (hsolid.of_suffix hsuffix)
              exact h.over hall' hafter hplaces fun hlines => ih later.length (by omega) hlines hafter hall rfl
          | directive hplaces hdirectives =>
              rw [hdirectives] at hall
              cases hall with
              | cons hb hall =>
                  refine h.found hlexes hplaces hb fun hless hlines hlater heq => ?_
                  exact ih _ (by omega) hlines hlater (heq ▸ hall) rfl

/-! ## The table -/

/-- What a line declares a prefix as last is what the lines bind it to. -/
theorem get?_ofLines (s label : String) : (PrefixTable.ofLines s).get? label =
    (scannedDeclarations s).reverse.findSome? fun b => if b.label = label then some b.space else none := by
  have hedited : PrefixTable.ofLines s =
      PrefixTable.edited ((scannedDeclarations s).map fun b => .insert b.label b.space) := by
    unfold PrefixTable.ofLines PrefixTable.edited
    rw [List.foldl_map]
    rfl
  rw [hedited, PrefixTable.get?_edited, TableEdit.lastSpace?, ← List.map_reverse, List.findSome?_map]
  rfl

/-- A table binds what the prefix directives of a document say. -/
structure BindsDirectives (t : PrefixTable) (s : String) (d : Document) : Prop where
  /-- The document declares what its directives say, in their order; ... -/
  declared : ∃ ts, tokens s.toList = .ok ts ∧ List.Forall₂ Denotes (directives ts) d.declarations
  /-- ... the prefix of each is bound to the namespace of the last directive for it, ... -/
  last : ∀ before b after, d.declarations = before ++ b :: after → (∀ c ∈ after, c.label ≠ b.label) →
    t.get? b.label = some b.space
  /-- ... and every other prefix as the well-known table binds it. -/
  other : ∀ label, (∀ b ∈ d.declarations, b.label ≠ label) → t.get? label = PrefixTable.wellKnown.get? label

theorem LineByLine.scannedDeclarations_eq {s : String} {ts : List Token} {bs : List Binding}
    (h : LineByLine true s.toList (lexemes s.toList)) (hts : tokens s.toList = .ok ts)
    (hall : List.Forall₂ Denotes (directives ts) bs) : scannedDeclarations s = bs := by
  obtain ⟨hlexes, hmap⟩ := lexes_of_tokens hts
  exact h.scans hlexes (hmap ▸ hall) s.length (Nat.le_of_eq String.length_toList)

/-- **If the directives stand line by line, the table binds what they say.** -/
theorem Source.bindsDirectives {s : String} {source : Source} (h : Source.read s = .ok source)
    (hlines : LineByLine true s.toList (lexemes s.toList)) :
    ∃ d, Document.read s = .ok d ∧ BindsDirectives source.table s d := by
  obtain ⟨d, hd, hsource⟩ := bind_eq_ok.1 h
  cases hsource
  obtain ⟨ts, hts, hall⟩ := Document.forall₂_directives hd
  have hget (label : String) : (tableOf s).get? label = (d.declarations.reverse.findSome? fun b =>
      if b.label = label then some b.space else none).or (PrefixTable.wellKnown.get? label) := by
    rw [tableOf, PrefixTable.get?_extend, get?_ofLines, hlines.scannedDeclarations_eq hts hall]
  refine ⟨d, hd, ?_⟩
  constructor
  case declared => exact ⟨ts, hts, hall⟩
  case last =>
    intro before b after heq hafter
    have hnone : after.reverse.findSome? (fun c => if c.label = b.label then some c.space else none) = none := by
      rw [List.findSome?_eq_none_iff]
      exact fun c hc => if_neg (hafter c (List.mem_reverse.1 hc))
    rw [hget, heq, List.reverse_append, List.reverse_cons, List.append_assoc, List.findSome?_append, hnone]
    simp
  case other =>
    intro label hlabel
    have hnone :
        d.declarations.reverse.findSome? (fun b => if b.label = label then some b.space else none) = none := by
      rw [List.findSome?_eq_none_iff]
      exact fun b hb => if_neg (hlabel b (List.mem_reverse.1 hb))
    rw [hget, hnone, Option.none_or]

/-- One prefix with two directives, and a comment and a string with what is none. -/
def redeclared : String :=
  "# @prefix ex: <http://old.example/> .\n@prefix ex: <http://example.org/> .\n" ++
  "ex:Person ex:note \"\"\"The\nprefix ex: is for examples.\"\"\" .\n PREFIX ex: <http://example.com/>\n"

/-- The first directive, ... -/
def redeclaredBefore : PlainDirective where
  word := "@prefix".toList
  gap := [' ']
  label := "ex".toList
  gapAfterLabel := [' ']
  space := "http://example.org/".toList
  isPrefixWord := .inl rfl
  gap_ne_nil := nofun
  gap_blank := List.all_eq_true.1 rfl
  label_start := by
    rintro _ ⟨⟩
    rfl
  label_chars := List.all_eq_true.1 rfl
  gapAfterLabel_blank := List.all_eq_true.1 rfl
  space_chars := by simp
  space_absolute := by decide

/-- ... and the last one. -/
def redeclaredAfter : PlainDirective :=
  { redeclaredBefore with
    word := "PREFIX".toList
    space := "http://example.com/".toList
    isPrefixWord := .inr (by decide)
    space_chars := by simp
    space_absolute := by decide }

theorem redeclared_bindsDirectives : ∃ source, Source.read redeclared = .ok source ∧
    LineByLine true redeclared.toList (lexemes redeclared.toList) ∧
    ∃ d, Document.read redeclared = .ok d ∧ BindsDirectives source.table redeclared d := by
  obtain ⟨source, hsource⟩ : ∃ source, Source.read redeclared = .ok source := by
    refine exists_of_isSome_toOption ?_
    decide +kernel
  have hplaces : directivePlaces (lexemes redeclared.toList) =
      [redeclaredBefore.text (redeclared.toList.drop 71), redeclaredAfter.text (redeclared.toList.drop 165)] := by
    decide +kernel
  have hlines : LineByLine true redeclared.toList (lexemes redeclared.toList) := by
    constructor
    case begins =>
      rw [hplaces]
      decide +kernel
    case plain =>
      rw [hplaces]
      exact List.forall_mem_cons.2 ⟨⟨_, _, rfl⟩, List.forall_mem_cons.2 ⟨⟨_, _, rfl⟩, List.forall_mem_nil _⟩⟩
    case declares =>
      rw [hplaces]
      decide +kernel
  exact ⟨source, hsource, hlines, Source.bindsDirectives hsource hlines⟩

/-- Two directives on one line. -/
def oneLine : String := "@prefix a: <http://a.example/> . @prefix b: <http://b.example/> ."

/-- Both are declared, but the second one is not found. -/
theorem oneLine_not_bindsDirectives : ∃ source d, Source.read oneLine = .ok source ∧ Document.read oneLine = .ok d ∧
    d.declarations = [⟨"a", "http://a.example/"⟩, ⟨"b", "http://b.example/"⟩] ∧ source.table.get? "b" = none ∧
    ¬ BindsDirectives source.table oneLine d := by
  have hread : (Document.read oneLine).toOption.map Document.declarations =
      some [⟨"a", "http://a.example/"⟩, ⟨"b", "http://b.example/"⟩] := by
    decide +kernel
  obtain ⟨d, hd, hdeclarations⟩ := Option.map_eq_some_iff.1 hread
  rw [toOption_eq_some] at hd
  have hb : (tableOf oneLine).get? "b" = none := by decide +kernel
  refine ⟨_, d, bind_eq_ok.2 ⟨d, hd, rfl⟩, hd, hdeclarations, hb, fun h => ?_⟩
  have hlast := h.last [⟨"a", "http://a.example/"⟩] ⟨"b", "http://b.example/"⟩ [] hdeclarations (List.forall_mem_nil _)
  cases hb.symm.trans hlast

end ShapeTypes.Rdf.Turtle
