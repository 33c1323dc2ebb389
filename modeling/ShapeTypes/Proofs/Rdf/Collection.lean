import ShapeTypes.Proofs.Rdf.Graph
import ShapeTypes.Rdf.Collection

/-!
# What a list holds

* `Graph.collectionAfter_node` — one step of reading a list;
* `Graph.CellOf`, `Graph.ListMember` — the cells that `rdf:rest` leads to, and their values;
* `Graph.IsSingleCell` — a node has one value and one rest at most;
* `Graph.mem_collectionAfter` — **what is read are members of the list**, and all of them if its cells are single.
-/

namespace ShapeTypes.Rdf

namespace Graph

variable {g : Graph}

/-- A cell that was not passed gives its value and what follows it. -/
theorem collectionAfter_node {passed : List Node} {n : Node} (hn : n ≠ .iri rdfNil) (hp : n ∉ passed) :
    g.collectionAfter passed (.node n) =
      match g.object? n rdfFirst, g.object? n rdfRest with
      | none, _ => .error .missingFirst
      | some _, none => .error .missingRest
      | some first, some rest => (first :: ·) <$> g.collectionAfter (n :: passed) rest := by
  rw [collectionAfter, if_neg hn, dif_neg hp]
  cases g.object? n rdfFirst with
  | none => rfl
  | some first =>
      simp only
      split
      · rename_i hr
        rw [hr]
      · rename_i rest hr
        simp only [hr]
        cases g.collectionAfter (n :: passed) rest <;> rfl

/-- A node has one value and one rest at most. -/
structure IsSingleCell (g : Graph) (n : Node) : Prop where
  first : g.IsSingleAt n rdfFirst
  rest : g.IsSingleAt n rdfRest

/-- A cell of the list that begins at a term: the term itself, or a cell of a rest of it. The empty list is none. -/
inductive CellOf (g : Graph) (cell : Node) : Term → Prop where
  | head : cell ≠ .iri rdfNil → CellOf g cell (.node cell)
  | rest {n rest} : n ≠ .iri rdfNil → ⟨n, rdfRest, rest⟩ ∈ g.triples → CellOf g cell rest → CellOf g cell (.node n)

/-- A term is a value of a cell of the list that begins at a term. -/
def ListMember (g : Graph) (item head : Term) : Prop := ∃ cell, g.CellOf cell head ∧ ⟨cell, rdfFirst, item⟩ ∈ g.triples

section

variable {n : Node} {next item head : Term} {items : List Term} {passed : List Node}

theorem ListMember.first (hn : n ≠ .iri rdfNil) (h : ⟨n, rdfFirst, item⟩ ∈ g.triples) : g.ListMember item (.node n) :=
  ⟨n, .head hn, h⟩

theorem ListMember.rest (hn : n ≠ .iri rdfNil) (hrest : ⟨n, rdfRest, next⟩ ∈ g.triples) (h : g.ListMember item next) :
    g.ListMember item (.node n) := by
  obtain ⟨cell, hcell, hfirst⟩ := h
  exact ⟨cell, .rest hn hrest hcell, hfirst⟩

/-- A member of a list is a value of its first cell, or a member of a rest. -/
theorem ListMember.first_or_rest (h : g.ListMember item (.node n)) : n ≠ .iri rdfNil ∧ (⟨n, rdfFirst, item⟩ ∈ g.triples ∨
    ∃ next, ⟨n, rdfRest, next⟩ ∈ g.triples ∧ g.ListMember item next) := by
  obtain ⟨cell, hcell, hfirst⟩ := h
  cases hcell with
  | head hn => exact ⟨hn, Or.inl hfirst⟩
  | rest hn hrest hcell => exact ⟨hn, Or.inr ⟨_, hrest, cell, hcell, hfirst⟩⟩

/-- **What is read of a list is a member of it**, and nothing is left out if no cell has two values or two rests. -/
theorem mem_collectionAfter (item : Term) (h : g.collectionAfter passed head = .ok items) :
    (item ∈ items → g.ListMember item head) ∧
      ((∀ cell, g.CellOf cell head → g.IsSingleCell cell) → g.ListMember item head → item ∈ items) := by
  induction passed, head using collectionAfter.induct g generalizing items with
  | case1 passed l =>
      rw [collectionAfter] at h
      cases h
  | case2 passed =>
      rw [collectionAfter, if_pos rfl] at h
      cases h
      exact ⟨fun hmem => absurd hmem List.not_mem_nil, fun _ hmem => absurd rfl hmem.first_or_rest.1⟩
  | case3 passed n hn hp =>
      rw [collectionAfter, if_neg hn, dif_pos hp] at h
      cases h
  | case4 passed n hn hp hf =>
      rw [collectionAfter_node hn hp, hf] at h
      cases h
  | case5 passed n hn hp first hf hr =>
      rw [collectionAfter_node hn hp, hf, hr] at h
      cases h
  | case6 passed n hn hp first hf rest hr items' hrest ih =>
      simp only [collectionAfter_node hn hp, hf, hr, hrest] at h
      cases h
      obtain ⟨hsound, hcomplete⟩ := ih hrest
      constructor
      · intro hmem
        rcases List.mem_cons.1 hmem with rfl | hmem
        · exact .first hn (mem_triples_of_object? hf)
        · exact .rest hn (mem_triples_of_object? hr) (hsound hmem)
      · intro hs hmem
        have hsingle := hs n (.head hn)
        rcases hmem.first_or_rest.2 with hfirst | ⟨rest', hrest', hmem⟩
        · obtain rfl := hsingle.first _ _ hfirst (mem_triples_of_object? hf)
          exact List.mem_cons_self
        · obtain rfl := hsingle.rest _ _ hrest' (mem_triples_of_object? hr)
          exact List.mem_cons_of_mem _ (hcomplete (fun cell hcell => hs cell (.rest hn hrest' hcell)) hmem)
  | case7 passed n hn hp first hf rest hr e hrest ih =>
      simp only [collectionAfter_node hn hp, hf, hr, hrest] at h
      cases h

end

end Graph

end ShapeTypes.Rdf
