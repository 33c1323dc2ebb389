import ShapeTypes.Proofs.CurieHistory
import ShapeTypes.Proofs.NameRequests

/-!
# Names only descend their ladder

A name is built once, and resolved against a record that other names go on to fill. The record only grows, so a
candidate that has lost its value does not get it back.

* `Rung.ladder` — all rungs, from the best one down;
* `Name.IsLadder` — the candidates of a name come from different rungs, best first, down to the full identifier;
  `IsLadder.resolvesToLeast` — **so it resolves to the first candidate that has a value**, and there is one;
* `Name.KeptIn` — and the local parts among them are recorded; `KeptIn.rank_le` — **then it only descends**;
* `NameBook.keptIn_build`, `NameBook.keptIn_buildIri` — the names that are built are such ladders;
* `NameBook.Ladders` — a book has such names only; `Ladders.give`, `Ladders.serve` — **one request, and all of them,
  keep it so**;
* `NameBook.served_name_descends` — the three laws for every name that is given.
-/

namespace ShapeTypes

open Rdf

/-! ## The ladder -/

/-- All rungs, from the best one down. -/
def Rung.ladder : List Rung :=
  [.override, .shaclName, .label, .pathLocal, .pathCompact, .identifierLocal, .identifierCompact, .pathString,
    .identifier]

theorem Rung.pairwise_ladder : ladder.Pairwise fun r r' => r.rank < r'.rank := by decide

namespace Name

/-- The candidates of a name come from different rungs, best first, and the last of them is the full identifier. -/
structure IsLadder (n : Name) (identifier : String) : Prop where
  ascending : n.candidates.Pairwise fun c d => c.rung.rank < d.rung.rank
  last : n.candidates.getLast? = some (.fixed .identifier identifier)

/-- A name resolves to the candidate from the best rung among those that have a value. -/
def ResolvesToLeast (n : Name) (record : CurieRecord) : Prop :=
  ∃ c ∈ n.candidates, ∃ v, c.value? record = some v ∧ n.resolvedWithRung record = (c.rung, v) ∧
    ∀ d ∈ n.candidates, (d.value? record).isSome = true → d = c ∨ c.rung.rank < d.rung.rank

variable {n : Name} {identifier : String} {record record' : CurieRecord} {curies : List Curie}

/-- **A ladder resolves to the first candidate that has a value.** The identifier has one, so there is a first. -/
theorem IsLadder.resolvesToLeast (h : n.IsLadder identifier) (record : CurieRecord) : n.ResolvesToLeast record := by
  obtain ⟨winner, hwinner⟩ : ∃ winner,
      n.candidates.findSome? (fun c => (c.value? record).map fun v => (c.rung, v)) = some winner :=
    Option.isSome_iff_exists.1 (List.findSome?_isSome_iff.2 ⟨_, List.mem_of_getLast? h.last, rfl⟩)
  obtain ⟨before, c, after, heq, hc, hbefore⟩ := List.findSome?_eq_some_iff.1 hwinner
  obtain ⟨v, hv, rfl⟩ := Option.map_eq_some_iff.1 hc
  have hresolved : n.resolvedWithRung record = (c.rung, v) := by
    rw [resolvedWithRung, hwinner, Option.getD_some]
  have hascending := h.ascending
  rw [heq, List.pairwise_append, List.pairwise_cons] at hascending
  have hmem : ∀ d, d ∈ n.candidates ↔ d ∈ before ∨ d = c ∨ d ∈ after := fun d => by
    rw [heq, List.mem_append, List.mem_cons]
  refine ⟨c, (hmem c).2 (Or.inr (Or.inl rfl)), v, hv, hresolved, fun d hd hvalue => ?_⟩
  rcases (hmem d).1 hd with hd | hd | hd
  · have hnone := Option.map_eq_none_iff.1 (hbefore d hd)
    rw [hnone] at hvalue
    cases hvalue
  · exact Or.inl hd
  · exact Or.inr (hascending.2.1.1 d hd)

/-- Candidates from the upper rungs, and the identifier below them. -/
theorem isLadder_append {candidates : List Candidate}
    (h : (candidates.map Candidate.rung).Sublist Rung.ladder.dropLast) (identifier : String) :
    (Name.mk (candidates ++ [.fixed .identifier identifier])).IsLadder identifier where
  ascending := by
    have hrungs :
        ((candidates ++ [Candidate.fixed .identifier identifier]).map Candidate.rung).Sublist Rung.ladder := by
      rw [List.map_append]
      exact h.append (List.Sublist.refl [Rung.identifier])
    have hascending := Rung.pairwise_ladder.sublist hrungs
    rwa [List.pairwise_map] at hascending
  last := List.getLast?_concat

/-! ## Descending -/

/-- A ladder whose local parts are those of recorded curies. -/
structure KeptIn (n : Name) (identifier : String) (record : CurieRecord) : Prop extends n.IsLadder identifier where
  recorded : ∀ rung c, .localPart rung c ∈ n.candidates → c ∈ record.made

theorem KeptIn.mono (h : n.KeptIn identifier record) (hadds : record.Adds record' curies) :
    n.KeptIn identifier record' :=
  ⟨h.toIsLadder, fun rung c hc => (hadds.made c).2 (Or.inr (h.recorded rung c hc))⟩

theorem KeptIn.isSome_value? (h : n.KeptIn identifier record) (hd : record.made.Nodup)
    (hadds : record.Adds record' curies) {c : Candidate} (hc : c ∈ n.candidates)
    (hvalue : (c.value? record').isSome = true) : (c.value? record).isSome = true := by
  cases c with
  | fixed rung v => rfl
  | compact rung curie => rfl
  | localPart rung curie =>
      have hunique : record'.isUnique curie = true := by
        by_contra hnot
        rw [Candidate.value?, if_neg hnot] at hvalue
        cases hvalue
      rw [Candidate.value?, if_pos (CurieRecord.isUnique_of_adds hadds hd (h.recorded rung curie hc) hunique)]
      rfl

/-- **A name only descends its ladder.** What it resolves to later has a value already, so what it resolves to now is
not below that. -/
theorem KeptIn.rank_le (h : n.KeptIn identifier record) (hd : record.made.Nodup)
    (hadds : record.Adds record' curies) :
    (n.resolvedWithRung record).1.rank ≤ (n.resolvedWithRung record').1.rank := by
  obtain ⟨c, hc, v, hv, hresolved, hleast⟩ := h.resolvesToLeast record
  obtain ⟨c', hc', v', hv', hresolved', -⟩ := h.resolvesToLeast record'
  rw [hresolved, hresolved']
  have hvalue := h.isSome_value? hd hadds hc' (by rw [hv']; rfl)
  rcases hleast c' hc' hvalue with rfl | hlt
  · exact Nat.le_refl _
  · exact Nat.le_of_lt hlt

end Name

/-! ## Names that are built -/

/-- The candidates of a shape above its identifier, given the curies of its path and of its identifier. -/
def Shape.candidates (s : Shape) (path identifier : Option Curie) : List Candidate :=
  NameBook.fixed? .override s.labels.overrideName ++ NameBook.fixed? .shaclName s.labels.name ++
    NameBook.fixed? .label s.labels.label ++ NameBook.pathCandidates path ++
    NameBook.identifierCandidates s.isNode identifier ++
    NameBook.fixed? .pathString ((s.property?.map (·.path)).map (·.text))

namespace NameBook

theorem rungs_fixed? (rung : Rung) (value : Option String) :
    ((fixed? rung value).map Candidate.rung).Sublist [rung] := by
  cases value with
  | none => exact List.nil_sublist _
  | some v => exact List.Sublist.refl _

theorem rungs_pathCandidates (curie : Option Curie) :
    ((pathCandidates curie).map Candidate.rung).Sublist [.pathLocal, .pathCompact] := by
  cases curie with
  | none => exact List.nil_sublist _
  | some c => exact List.Sublist.refl _

theorem rungs_identifierCandidates (withLocal : Bool) (curie : Option Curie) :
    ((identifierCandidates withLocal curie).map Candidate.rung).Sublist [.identifierLocal, .identifierCompact] := by
  cases curie with
  | none => exact List.nil_sublist _
  | some c =>
      cases withLocal with
      | false => exact List.sublist_cons_self _ _
      | true => exact List.Sublist.refl _

/-- Each block of candidates has its own rungs, and the blocks are in the order of the ladder. -/
theorem rungs_candidates (s : Shape) (path identifier : Option Curie) :
    ((s.candidates path identifier).map Candidate.rung).Sublist Rung.ladder.dropLast := by
  simp only [Shape.candidates, List.map_append]
  have hlabels := ((rungs_fixed? .override s.labels.overrideName).append
    (rungs_fixed? .shaclName s.labels.name)).append (rungs_fixed? .label s.labels.label)
  have hcuries := (hlabels.append (rungs_pathCandidates path)).append (rungs_identifierCandidates s.isNode identifier)
  exact hcuries.append (rungs_fixed? .pathString _)

section

variable {rung : Rung} {c : Curie} {curie : Option Curie}

theorem localPart_not_mem_fixed? (rung' : Rung) (value : Option String) : .localPart rung c ∉ fixed? rung' value := by
  cases value <;> simp [fixed?]

theorem localPart_mem_pathCandidates (h : .localPart rung c ∈ pathCandidates curie) : curie = some c := by
  cases curie with
  | none => cases h
  | some d =>
      simp only [pathCandidates, List.mem_cons, Candidate.localPart.injEq, reduceCtorEq, List.not_mem_nil,
        or_false] at h
      rw [h.2]

theorem localPart_mem_identifierCandidates {withLocal : Bool}
    (h : .localPart rung c ∈ identifierCandidates withLocal curie) : curie = some c := by
  cases curie with
  | none => cases h
  | some d =>
      cases withLocal <;> simp only [identifierCandidates, Bool.false_eq_true, if_false, if_true, List.nil_append,
        List.singleton_append, List.mem_cons, Candidate.localPart.injEq, reduceCtorEq, List.not_mem_nil, or_false] at h
      rw [h.2]

/-- The local parts among the candidates are those of the curies. -/
theorem localPart_mem_candidates {s : Shape} {path identifier : Option Curie}
    (h : .localPart rung c ∈ s.candidates path identifier) : path = some c ∨ identifier = some c := by
  simp only [Shape.candidates, List.mem_append, localPart_not_mem_fixed?, false_or, or_false] at h
  exact h.imp localPart_mem_pathCandidates localPart_mem_identifierCandidates

end

variable {r : CurieRecord}

theorem mem_made_shrink {i : Option Iri} {c : Curie} (h : (shrink r i).1 = some c) : c ∈ (shrink r i).2.made := by
  rw [fst_shrink] at h
  exact ((adds_shrink i).made c).2 (Or.inl (by rw [h]; exact List.mem_singleton_self c))

/-- **The name that is built for a shape is a ladder**, and its local parts are recorded. -/
theorem keptIn_build (r : CurieRecord) (s : Shape) : (build r s).1.KeptIn s.id.bare (build r s).2 where
  toIsLadder := Name.isLadder_append (rungs_candidates s _ _) s.id.bare
  recorded := by
    intro rung c hc
    rcases List.mem_append.1 hc with hc | hc
    · rcases localPart_mem_candidates hc with hpath | hidentifier
      · exact ((adds_shrink s.id.iri?).made c).2 (Or.inr (mem_made_shrink hpath))
      · exact mem_made_shrink hidentifier
    · cases List.mem_singleton.1 hc

/-- **So is the name that is built for a bare IRI.** -/
theorem keptIn_buildIri (r : CurieRecord) (i : Iri) : (buildIri r i).1.KeptIn i.value (buildIri r i).2 where
  toIsLadder := Name.isLadder_append ((rungs_identifierCandidates true _).trans (by decide)) i.value
  recorded := by
    intro rung c hc
    rcases List.mem_append.1 hc with hc | hc
    · exact mem_made_shrink (i := some i) (localPart_mem_identifierCandidates hc)
    · cases List.mem_singleton.1 hc

end NameBook

/-! ## Books of ladders -/

/-- The full identifier of what a name is asked for. -/
def NameRequest.identifier : NameRequest → String
  | shape s => s.id.bare
  | iri i => i.value

namespace NameBook

/-- All names of a book are ladders with recorded local parts, and no curie is recorded twice. -/
structure Ladders (b : NameBook) : Prop where
  nodup : b.record.made.Nodup
  shape : ∀ id n, b.shapes.lookup id = some n → n.KeptIn id.bare b.record
  iri : ∀ i n, b.iris.lookup i = some n → n.KeptIn i.value b.record

/-- What requests do to a book: it stays one of ladders, and its record grows. -/
structure Keeps (b b' : NameBook) : Prop where
  ladders : b'.Ladders
  adds : ∃ curies, b.record.Adds b'.record curies

theorem Ladders.ofTable (table : PrefixTable) : (NameBook.ofTable table).Ladders where
  nodup := List.nodup_nil
  shape := fun id n h => by simp [NameBook.ofTable] at h
  iri := fun i n h => by simp [NameBook.ofTable] at h

variable {b : NameBook}

theorem Ladders.nameShape (h : b.Ladders) (s : Shape) :
    (b.nameShape s).1.KeptIn s.id.bare (b.nameShape s).2.record ∧ b.Keeps (b.nameShape s).2 := by
  unfold NameBook.nameShape
  cases hs : b.shapes.lookup s.id with
  | some n => exact ⟨h.shape s.id n hs, h, [], .refl _⟩
  | none =>
      have hadds := adds_build (r := b.record) s
      have hname := keptIn_build b.record s
      refine ⟨hname, ⟨hadds.nodup h.nodup, ?_, ?_⟩, _, hadds⟩
      · exact forall_lookup_cons hname fun id n hn => (h.shape id n hn).mono hadds
      · exact fun i n hn => (h.iri i n hn).mono hadds

theorem Ladders.nameIri (h : b.Ladders) (i : Iri) :
    (b.nameIri i).1.KeptIn i.value (b.nameIri i).2.record ∧ b.Keeps (b.nameIri i).2 := by
  unfold NameBook.nameIri
  cases hi : b.iris.lookup i with
  | some n => exact ⟨h.iri i n hi, h, [], .refl _⟩
  | none =>
      have hadds := adds_buildIri (r := b.record) i
      have hname := keptIn_buildIri b.record i
      refine ⟨hname, ⟨hadds.nodup h.nodup, ?_, ?_⟩, _, hadds⟩
      · exact fun id n hn => (h.shape id n hn).mono hadds
      · exact forall_lookup_cons hname fun j n hn => (h.iri j n hn).mono hadds

/-- **One request gives a ladder, and leaves a book of ladders.** -/
theorem Ladders.give (h : b.Ladders) (r : NameRequest) :
    (b.give r).1.KeptIn r.identifier (b.give r).2.record ∧ b.Keeps (b.give r).2 := by
  cases r with
  | shape s => exact h.nameShape s
  | iri i => exact h.nameIri i

/-- **So do several requests**, and the names that were given stay ladders. -/
theorem Ladders.serve (h : b.Ladders) (rs : List NameRequest) : b.Keeps (b.serve rs).2 ∧
    ∀ r n, (r, n) ∈ (b.serve rs).1 → n.KeptIn r.identifier (b.serve rs).2.record := by
  induction rs generalizing b with
  | nil => exact ⟨⟨h, [], .refl _⟩, fun r n hn => absurd hn List.not_mem_nil⟩
  | cons r rs ih =>
      obtain ⟨hname, hone, curies, hadds⟩ := h.give r
      obtain ⟨⟨hall, curies', hadds'⟩, hnames⟩ := ih hone
      refine ⟨⟨hall, _, hadds.trans hadds'⟩, fun r' n hn => ?_⟩
      rcases List.mem_cons.1 hn with heq | hn
      · cases heq
        exact hname.mono hadds'
      · exact hnames r' n hn

/-- **The three laws of names**, for every name that was given: its candidates are a ladder down to the full identifier
of what it was asked for; at every later moment it resolves to the best of those that have a value then; and between any
two later moments it stays or descends. -/
theorem served_name_descends (table : PrefixTable) {rs : List NameRequest} {r : NameRequest} {n : Name}
    (h : (r, n) ∈ ((ofTable table).serve rs).1) :
    n.IsLadder r.identifier ∧
      (∀ later, n.ResolvesToLeast (((ofTable table).serve rs).2.serve later).2.record) ∧
      ∀ later more, (n.resolvedWithRung (((ofTable table).serve rs).2.serve later).2.record).1.rank ≤
        (n.resolvedWithRung ((((ofTable table).serve rs).2.serve later).2.serve more).2.record).1.rank := by
  obtain ⟨⟨hbook, -⟩, hnames⟩ := (Ladders.ofTable table).serve rs
  have hn := hnames r n h
  refine ⟨hn.toIsLadder, fun later => hn.resolvesToLeast _, fun later more => ?_⟩
  obtain ⟨⟨hlater, curies, hadds⟩, -⟩ := hbook.serve later
  obtain ⟨⟨-, curies', hadds'⟩, -⟩ := hlater.serve more
  exact (hn.mono hadds).rank_le hlater.nodup hadds'

/-- A property with the path `name` has its local part as its name, until there is a property with another path of this
local part; then it descends to the next rung. -/
theorem served_name_descends_namesake :
    let b := ofTable (PrefixTable.empty.insert "ex" "http://example.org/" |>.insert "schema" "http://schema.org/")
    let r := NameRequest.ofPath ⟨"http://example.org/name"⟩
    let namesake := NameRequest.ofPath ⟨"http://schema.org/name"⟩
    let n := (b.give r).1
    (r, n) ∈ (b.serve [r]).1 ∧ n.IsLadder "_:http://example.org/name" ∧
      n.resolvedWithRung ((b.serve [r]).2.serve []).2.record = (.pathLocal, "name") ∧
      n.resolvedWithRung (((b.serve [r]).2.serve []).2.serve [namesake]).2.record = (.pathCompact, "ex_name") ∧
      Rung.rank .pathLocal ≤ Rung.rank .pathCompact := by
  intro b r namesake n
  have hserved : (r, n) ∈ (b.serve [r]).1 := List.mem_singleton_self (r, n)
  have hbefore : n.resolvedWithRung ((b.serve [r]).2.serve []).2.record = (.pathLocal, "name") := by decide +kernel
  have hafter : n.resolvedWithRung (((b.serve [r]).2.serve []).2.serve [namesake]).2.record =
      (.pathCompact, "ex_name") := by decide +kernel
  obtain ⟨hladder, -, hdescends⟩ := served_name_descends _ hserved
  have hrank := hdescends [] [namesake]
  rw [hbefore, hafter] at hrank
  exact ⟨hserved, hladder, hbefore, hafter, hrank⟩

end NameBook

end ShapeTypes
