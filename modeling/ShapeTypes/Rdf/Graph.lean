import ShapeTypes.Rdf.Vocabulary

/-!
# RDF graphs

A graph is a finite set of triples, held as a list without repetitions.

* `Graph.ofList` — the graph of a list of triples;
* `Graph.object?` — the object of a subject under a predicate that is read singly;
* `Graph.objects` — all of them, in the order of their N-Triples text;
* `Graph.subjects`, `Graph.subjectsOf`, `Graph.instances` — the nodes that stand as subjects: all of them,
  those of one predicate, and those typed with one class.
-/

namespace ShapeTypes.Rdf

/-- A subject, a predicate and an object. -/
structure Triple where
  subject : Node
  predicate : Iri
  object : Term
  deriving DecidableEq

/-- A finite set of triples. -/
structure Graph where
  triples : List Triple

/-- Sorts nodes by their N-Triples text. -/
def sortNodes (ns : List Node) : List Node :=
  ns.mergeSort fun a b => a.text ≤ b.text

/-- Sorts terms by their N-Triples text. -/
def sortTerms (ts : List Term) : List Term :=
  ts.mergeSort fun a b => a.text ≤ b.text

namespace Graph

/-- The graph that holds the triples of the list, each once. -/
def ofList (ts : List Triple) : Graph := ⟨ts.eraseDups⟩

theorem mem_ofList {t : Triple} {ts : List Triple} : t ∈ (ofList ts).triples ↔ t ∈ ts :=
  List.mem_eraseDups

def size (g : Graph) : Nat := g.triples.length

/-- The objects of `s` under `p`, in the order the triples are held in. -/
def objectsOf (g : Graph) (s : Node) (p : Iri) : List Term :=
  g.triples.filterMap fun t => if t.subject = s ∧ t.predicate = p then some t.object else none

theorem mem_objectsOf {g : Graph} {s : Node} {p : Iri} {o : Term} :
    o ∈ g.objectsOf s p ↔ ⟨s, p, o⟩ ∈ g.triples := by
  simp only [objectsOf, List.mem_filterMap]
  constructor
  · rintro ⟨⟨s', p', o'⟩, hmem, h⟩
    split at h
    · rename_i hs
      obtain ⟨rfl, rfl⟩ := hs
      cases h
      exact hmem
    · cases h
  · intro h
    exact ⟨_, h, by simp⟩

/-- The object of `s` under a predicate read singly. -/
def object? (g : Graph) (s : Node) (p : Iri) : Option Term :=
  (g.triples.find? fun t => t.subject = s ∧ t.predicate = p).map (·.object)

/-- The objects of `s` under `p`, sorted by their N-Triples text. -/
def objects (g : Graph) (s : Node) (p : Iri) : List Term :=
  sortTerms (g.objectsOf s p)

def subjects (g : Graph) : List Node :=
  (g.triples.map (·.subject)).eraseDups

/-- The subjects of the triples with predicate `p`, one for each triple. -/
def subjectsOf (g : Graph) (p : Iri) : List Node :=
  g.triples.filterMap fun t => if t.predicate = p then some t.subject else none

/-- The nodes typed with `c`, sorted by their N-Triples text. -/
def instances (g : Graph) (c : Iri) : List Node :=
  sortNodes (g.triples.filterMap fun t =>
    if t.predicate = rdfType ∧ t.object = c.term then some t.subject else none)

/-- Every node, as a subject or as an object. -/
def nodes (g : Graph) : List Node :=
  (g.triples.flatMap fun t => t.subject :: t.object.node?.toList).eraseDups

theorem mem_triples_of_object? {g : Graph} {s : Node} {p : Iri} {o : Term}
    (h : g.object? s p = some o) : ⟨s, p, o⟩ ∈ g.triples := by
  simp only [object?, Option.map_eq_some_iff] at h
  obtain ⟨t, hf, rfl⟩ := h
  have hm := List.mem_of_find?_eq_some hf
  have hp := List.find?_some hf
  simp only [decide_eq_true_eq] at hp
  obtain ⟨rfl, rfl⟩ := hp
  exact hm

theorem mem_subjects_of_object? {g : Graph} {s : Node} {p : Iri} {o : Term}
    (h : g.object? s p = some o) : s ∈ g.subjects := by
  simp only [subjects, List.mem_eraseDups, List.mem_map]
  exact ⟨_, mem_triples_of_object? h, rfl⟩

end Graph

end ShapeTypes.Rdf
