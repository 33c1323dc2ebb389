import Mathlib.Data.Fintype.EquivFin
import ShapeTypes.Proofs.Lookup
import ShapeTypes.Proofs.Path.Form
import ShapeTypes.Proofs.Rdf.Graph

/-!
# How paths are written as triples

A path is written as a term and triples about blank nodes: one node for each kind of path but a predicate, and one for
each cell of a list. Nothing fixes the labels of these nodes, and a graph may hold other triples beside them.

* `Path.WellFormed` — every sequence has two members at least;
* `about` — triples about one blank node;
* `PathEncoding` — a term, labels and triples that write a path, or a list of paths;
  `PathEncoding.owned` — the triples are about the labelled nodes;
* `Written.Writable`, `exists_pathEncoding` — **every path can be written**, with labels that are new and different;
* `Rdf.Graph.Carries` — a graph holds some triples, and no others about some nodes; `Carries.append` — then it holds
  their parts so, if no two of them share a node; `Carries.object?_eq` — and answers as they do.
-/

namespace ShapeTypes

open Rdf

/-! ## Paths that can be read back -/

namespace Path

mutual

/-- Every sequence in the path, at any depth, has two members at least. -/
def WellFormed : Path → Prop
  | predicate _ => True
  | inverse p => WellFormed p
  | sequence ps => 2 ≤ ps.length ∧ AllWellFormed ps
  | alternative ps => AllWellFormed ps
  | zeroOrMore p => WellFormed p
  | oneOrMore p => WellFormed p
  | zeroOrOne p => WellFormed p

/-- So it is in all members of a path. -/
def AllWellFormed : List Path → Prop
  | [] => True
  | p :: ps => WellFormed p ∧ AllWellFormed ps

end

theorem allWellFormed_iff {ps : List Path} : AllWellFormed ps ↔ ∀ p ∈ ps, p.WellFormed := by
  induction ps with
  | nil => simp [AllWellFormed]
  | cons p ps ih => rw [AllWellFormed, ih, List.forall_mem_cons]

@[simp] theorem wellFormed_predicate (i : Iri) : (predicate i).WellFormed := by
  rw [WellFormed]
  trivial

@[simp] theorem wellFormed_modified (m : PathModifier) (p : Path) : (m.path p).WellFormed ↔ p.WellFormed := by
  cases m <;> rw [PathModifier.path, WellFormed]

@[simp] theorem wellFormed_alternative (ps : List Path) :
    (alternative ps).WellFormed ↔ ∀ p ∈ ps, p.WellFormed := by
  rw [WellFormed, allWellFormed_iff]

@[simp] theorem wellFormed_sequence (ps : List Path) :
    (sequence ps).WellFormed ↔ 2 ≤ ps.length ∧ ∀ p ∈ ps, p.WellFormed := by
  rw [WellFormed, allWellFormed_iff]

end Path

/-! ## Writing paths -/

/-- Triples about the blank node with a label. -/
def about (b : String) (own : List (Iri × Term)) : List Triple :=
  own.map fun (p, o) => ⟨.blank b, p, o⟩

/-- What is written: a path, or the list of some paths. -/
inductive Written where
  | path (p : Path)
  | list (ps : List Path)

/-- A term writes a path, or a list of paths, by triples about blank nodes with these labels. A sequence is the list of
its members; an alternative is a node that leads to the list of its members. -/
inductive PathEncoding : Written → Term → List String → List Triple → Prop where
  | predicate (i : Iri) : PathEncoding (.path (.predicate i)) i.term [] []
  | modified (m : PathModifier) (b : String) {p : Path} {t : Term} {labels : List String} {triples : List Triple} :
      PathEncoding (.path p) t labels triples →
      PathEncoding (.path (m.path p)) (.node (.blank b)) ([b] ++ labels) (about b [(m.predicate, t)] ++ triples)
  | alternative (b : String) {ps : List Path} {head : Term} {labels : List String} {triples : List Triple} :
      PathEncoding (.list ps) head labels triples →
      PathEncoding (.path (.alternative ps)) (.node (.blank b)) ([b] ++ labels)
        (about b [(sh "alternativePath", head)] ++ triples)
  | sequence {ps : List Path} {head : Term} {labels : List String} {triples : List Triple} :
      PathEncoding (.list ps) head labels triples → PathEncoding (.path (.sequence ps)) head labels triples
  | nil : PathEncoding (.list []) rdfNil.term [] []
  | cons (b : String) {p : Path} {ps : List Path} {t rest : Term} {labels labels' : List String}
      {triples triples' : List Triple} :
      PathEncoding (.path p) t labels triples → PathEncoding (.list ps) rest labels' triples' →
      PathEncoding (.list (p :: ps)) (.node (.blank b)) ([b] ++ (labels ++ labels'))
        (about b [(rdfFirst, t), (rdfRest, rest)] ++ (triples ++ triples'))

/-- Every one of the triples is about a blank node with one of these labels. -/
def Owned (labels : List String) (triples : List Triple) : Prop :=
  ∀ s ∈ triples, ∃ b ∈ labels, s.subject = .blank b

section

variable {labels labels' : List String} {triples triples' : List Triple}

theorem owned_about (b : String) (own : List (Iri × Term)) : Owned [b] (about b own) := by
  intro s hs
  obtain ⟨⟨p, o⟩, -, rfl⟩ := List.mem_map.1 hs
  exact ⟨b, List.mem_singleton_self b, rfl⟩

theorem Owned.append (h : Owned labels triples) (h' : Owned labels' triples') :
    Owned (labels ++ labels') (triples ++ triples') := by
  intro s hs
  rcases List.mem_append.1 hs with hs | hs
  · obtain ⟨b, hb, heq⟩ := h s hs
    exact ⟨b, List.mem_append_left _ hb, heq⟩
  · obtain ⟨b, hb, heq⟩ := h' s hs
    exact ⟨b, List.mem_append_right _ hb, heq⟩

theorem PathEncoding.owned {w : Written} {t : Term} (h : PathEncoding w t labels triples) : Owned labels triples := by
  induction h with
  | predicate i => exact fun s hs => absurd hs List.not_mem_nil
  | modified m b _ ih => exact (owned_about b _).append ih
  | alternative b _ ih => exact (owned_about b _).append ih
  | sequence _ ih => exact ih
  | nil => exact fun s hs => absurd hs List.not_mem_nil
  | cons b _ _ ih ih' => exact (owned_about b _).append (ih.append ih')

end

/-! ## Every path can be written -/

/-- There is a writing with labels that differ from each other and from some that are used already. -/
def Written.Writable (w : Written) : Prop :=
  ∀ used : Finset String, ∃ t labels triples, PathEncoding w t labels triples ∧ labels.Nodup ∧ ∀ b ∈ labels, b ∉ used

/-- One more node: its label is chosen last, and is none of the others. -/
theorem exists_fresh {labels : List String} (hd : labels.Nodup) {used : Finset String} (hu : ∀ b ∈ labels, b ∉ used) :
    ∃ b, ([b] ++ labels).Nodup ∧ ∀ c ∈ [b] ++ labels, c ∉ used := by
  obtain ⟨b, hb⟩ := Infinite.exists_notMem_finset (used ∪ labels.toFinset)
  rw [Finset.mem_union, List.mem_toFinset, not_or] at hb
  exact ⟨b, List.nodup_cons.2 ⟨hb.2, hd⟩, List.forall_mem_cons.2 ⟨hb.1, hu⟩⟩

theorem writable_list {ps : List Path} (h : ∀ p ∈ ps, (Written.path p).Writable) : (Written.list ps).Writable := by
  induction ps with
  | nil => exact fun used => ⟨_, [], [], .nil, List.nodup_nil, nofun⟩
  | cons p ps ih =>
      rw [List.forall_mem_cons] at h
      intro used
      obtain ⟨t, labels, triples, hp, hd, hu⟩ := h.1 used
      -- The rest of the list takes no label that its first member has.
      obtain ⟨rest, labels', triples', hps, hd', hu'⟩ := ih h.2 (used ∪ labels.toFinset)
      simp only [Finset.mem_union, List.mem_toFinset, not_or] at hu'
      have hboth : (labels ++ labels').Nodup := by
        refine List.nodup_append.2 ⟨hd, hd', ?_⟩
        rintro b hb _ hb' rfl
        exact (hu' b hb').2 hb
      have hunused : ∀ c ∈ labels ++ labels', c ∉ used := fun c hc =>
        (List.mem_append.1 hc).elim (hu c) fun hc => (hu' c hc).1
      obtain ⟨b, hall, hfresh⟩ := exists_fresh hboth hunused
      exact ⟨_, _, _, .cons b hp hps, hall, hfresh⟩

/-- **Every path can be written**, with labels that are new and different. -/
theorem exists_pathEncoding (p : Path) : (Written.path p).Writable := by
  induction p using Path.induction with
  | predicate i => exact fun used => ⟨_, [], [], .predicate i, List.nodup_nil, nofun⟩
  | modified m p ih =>
      intro used
      obtain ⟨t, labels, triples, h, hd, hu⟩ := ih used
      obtain ⟨b, hall, hfresh⟩ := exists_fresh hd hu
      exact ⟨_, _, _, .modified m b h, hall, hfresh⟩
  | alternative ps ih =>
      intro used
      obtain ⟨head, labels, triples, h, hd, hu⟩ := writable_list ih used
      obtain ⟨b, hall, hfresh⟩ := exists_fresh hd hu
      exact ⟨_, _, _, .alternative b h, hall, hfresh⟩
  | sequence ps ih =>
      intro used
      obtain ⟨head, labels, triples, h, hd, hu⟩ := writable_list ih used
      exact ⟨_, _, _, .sequence h, hd, hu⟩

/-! ## Graphs that hold what is written -/

/-- The graph holds the triples, and no others about the blank nodes with these labels. -/
structure Rdf.Graph.Carries (g : Graph) (labels : List String) (triples : List Triple) : Prop where
  holds : triples ⊆ g.triples
  only : ∀ s ∈ g.triples, ∀ b ∈ labels, s.subject = .blank b → s ∈ triples

namespace Rdf.Graph.Carries

variable {g : Graph} {labels labels' : List String} {triples triples' : List Triple}

/-- **A graph that carries two parts carries each of them**, if they share no node. -/
theorem append (h : g.Carries (labels ++ labels') (triples ++ triples')) (hd : (labels ++ labels').Nodup)
    (ho : Owned labels triples) (ho' : Owned labels' triples') :
    g.Carries labels triples ∧ g.Carries labels' triples' := by
  have hdisjoint := List.disjoint_of_nodup_append hd
  constructor
  · refine ⟨fun s hs => h.holds (List.mem_append_left _ hs), fun s hs b hb heq => ?_⟩
    refine (List.mem_append.1 (h.only s hs b (List.mem_append_left _ hb) heq)).resolve_right fun hs' => ?_
    obtain ⟨c, hc, heq'⟩ := ho' s hs'
    cases heq.symm.trans heq'
    exact hdisjoint hb hc
  · refine ⟨fun s hs => h.holds (List.mem_append_right _ hs), fun s hs b hb heq => ?_⟩
    refine (List.mem_append.1 (h.only s hs b (List.mem_append_right _ hb) heq)).resolve_left fun hs' => ?_
    obtain ⟨c, hc, heq'⟩ := ho s hs'
    cases heq.symm.trans heq'
    exact hdisjoint hc hb

variable {b : String} {own : List (Iri × Term)}

theorem mem_triples_iff (h : g.Carries [b] (about b own)) {p : Iri} {o : Term} :
    ⟨.blank b, p, o⟩ ∈ g.triples ↔ (p, o) ∈ own := by
  constructor
  · intro hmem
    obtain ⟨⟨p', o'⟩, hown, heq⟩ := List.mem_map.1 (h.only _ hmem b (List.mem_singleton_self b) rfl)
    cases heq
    exact hown
  · intro hown
    exact h.holds (List.mem_map.2 ⟨_, hown, rfl⟩)

theorem isSingleAt (h : g.Carries [b] (about b own)) (hd : (own.map Prod.fst).Nodup) (p : Iri) :
    g.IsSingleAt (.blank b) p := by
  intro o o' ho ho'
  have heq := List.inj_on_of_nodup_map hd (h.mem_triples_iff.1 ho) (h.mem_triples_iff.1 ho') rfl
  exact congrArg Prod.snd heq

/-- **About a node the graph answers as the triples do** that it carries, if these have no predicate twice. -/
theorem object?_eq (h : g.Carries [b] (about b own)) (hd : (own.map Prod.fst).Nodup) (p : Iri) :
    g.object? (.blank b) p = own.lookup p := by
  cases ho : own.lookup p with
  | none => exact object?_eq_none_iff.2 fun o hmem => not_mem_of_lookup ho o (h.mem_triples_iff.1 hmem)
  | some o => exact (h.isSingleAt hd p).object?_eq_some_iff.2 (h.mem_triples_iff.2 (mem_of_lookup ho))

end Rdf.Graph.Carries

end ShapeTypes
