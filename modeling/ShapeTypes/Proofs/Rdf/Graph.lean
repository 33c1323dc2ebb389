import ShapeTypes.Rdf.Graph

/-!
# What a graph answers

* `Graph.object?_eq_none_iff`, `Graph.exists_object?_iff` — there is no object, or there is one;
* `Graph.IsSingleAt` — there is one at most, and so it is the one that is found;
* `Graph.mem_objects`, `Graph.mem_instances`, `Graph.mem_subjectsOf` — the answers that are lists;
  `Graph.nodup_objects` — no object is given twice;
* `Graph.subject_mem_nodes`, `Graph.object_mem_nodes` — what stands in a triple is a node of the graph;
* `Graph.objects_eq_objectsOf_of_pairwise`, `Graph.objects_eq_objectsOf` — what is in order, or alone, is not sorted.
-/

namespace ShapeTypes.Rdf

namespace Graph

variable {g : Graph} {s : Node} {p : Iri} {o : Term}

theorem object?_eq_none_iff : g.object? s p = none ↔ ∀ o, ⟨s, p, o⟩ ∉ g.triples := by
  rw [object?, Option.map_eq_none_iff, List.find?_eq_none]
  constructor
  · intro h o ho
    simpa using h _ ho
  · intro h t ht hp
    obtain ⟨rfl, rfl⟩ := of_decide_eq_true hp
    exact h t.object ht

theorem exists_object?_iff : (∃ o, g.object? s p = some o) ↔ ∃ o, ⟨s, p, o⟩ ∈ g.triples := by
  rw [← Option.ne_none_iff_exists', Ne, object?_eq_none_iff]
  simp

/-- A node has one object at most under a predicate. -/
def IsSingleAt (g : Graph) (s : Node) (p : Iri) : Prop :=
  ∀ o o', ⟨s, p, o⟩ ∈ g.triples → ⟨s, p, o'⟩ ∈ g.triples → o = o'

theorem IsSingleAt.object?_eq_some_iff (h : g.IsSingleAt s p) : g.object? s p = some o ↔ ⟨s, p, o⟩ ∈ g.triples := by
  constructor
  · exact mem_triples_of_object?
  · intro hmem
    cases ho : g.object? s p with
    | some o' => rw [h o o' hmem (mem_triples_of_object? ho)]
    | none => exact absurd hmem (object?_eq_none_iff.1 ho o)

theorem mem_objects : o ∈ g.objects s p ↔ ⟨s, p, o⟩ ∈ g.triples := by
  rw [objects, sortTerms, List.mem_mergeSort, mem_objectsOf]

theorem nodup_objects (s : Node) (p : Iri) (hg : g.triples.Nodup) : (g.objects s p).Nodup := by
  rw [objects, sortTerms, (List.mergeSort_perm _ _).nodup_iff, objectsOf]
  refine List.Pairwise.filterMap _ ?_ hg
  rintro ⟨s₁, p₁, o₁⟩ ⟨s₂, p₂, o₂⟩ hne o ho o' ho' rfl
  simp only [Option.ite_none_right_eq_some, Option.some.injEq] at ho ho'
  obtain ⟨⟨rfl, rfl⟩, rfl⟩ := ho
  obtain ⟨⟨rfl, rfl⟩, rfl⟩ := ho'
  exact hne rfl

/-- Objects that the graph holds in the order of their texts need no sorting. -/
theorem objects_eq_objectsOf_of_pairwise (h : (g.objectsOf s p).Pairwise fun a b => decide (a.text ≤ b.text) = true) :
    g.objects s p = g.objectsOf s p :=
  List.mergeSort_of_pairwise h

theorem objects_eq_objectsOf (h : (g.objectsOf s p).length ≤ 1) : g.objects s p = g.objectsOf s p := by
  apply objects_eq_objectsOf_of_pairwise
  match g.objectsOf s p, h with
  | [], _ => exact .nil
  | [o], _ => exact List.pairwise_singleton _ o

theorem mem_instances {c : Iri} : s ∈ g.instances c ↔ ⟨s, rdfType, c.term⟩ ∈ g.triples := by
  simp only [instances, sortNodes, List.mem_mergeSort, List.mem_filterMap, Option.ite_none_right_eq_some,
    Option.some.injEq]
  constructor
  · rintro ⟨⟨s, p, o⟩, hmem, ⟨rfl, rfl⟩, rfl⟩
    exact hmem
  · intro h
    exact ⟨_, h, ⟨rfl, rfl⟩, rfl⟩

theorem mem_subjectsOf : s ∈ g.subjectsOf p ↔ ∃ o, ⟨s, p, o⟩ ∈ g.triples := by
  simp only [subjectsOf, List.mem_filterMap, Option.ite_none_right_eq_some, Option.some.injEq]
  constructor
  · rintro ⟨⟨s, p, o⟩, hmem, rfl, rfl⟩
    exact ⟨o, hmem⟩
  · rintro ⟨o, h⟩
    exact ⟨_, h, rfl, rfl⟩

theorem subject_mem_nodes (h : ⟨s, p, o⟩ ∈ g.triples) : s ∈ g.nodes := by
  rw [nodes, List.mem_eraseDups, List.mem_flatMap]
  exact ⟨_, h, List.mem_cons_self⟩

theorem object_mem_nodes {n : Node} (h : ⟨s, p, .node n⟩ ∈ g.triples) : n ∈ g.nodes := by
  rw [nodes, List.mem_eraseDups, List.mem_flatMap]
  exact ⟨_, h, List.mem_cons_of_mem _ List.mem_cons_self⟩

end Graph

end ShapeTypes.Rdf
