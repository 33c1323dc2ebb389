import Mathlib.Data.List.Nodup
import ShapeTypes.Proofs.Lookup
import ShapeTypes.Proofs.Rdf.ListChain
import ShapeTypes.Shape.Description

/-!
# Reading a list, turn by turn

The loop that reads a list looks at one term in each turn and keeps the cells it passed.

* `ListState`, `Graph.turn`, `Graph.turns` — the state of the loop, one turn, and the outcome of so many;
* `Graph.outcome` — what the loop gives from a state on; `outcome_of_turn` — **a turn gives it, or leaves it as it is**
  and passes another node that has a rest;
* `turns_eq_some` — **so the loop ends after the nodes that have a rest**, and one more turn;
* `readList` — a list as it is read for a shape; `readList_exact` — **it is read exactly if it is a chain of cells**
  before the empty list; `readList_valueAtNil` — cells that the empty list itself begins are not read.
-/

namespace ShapeTypes

namespace Rdf

/-- The state of the loop: the cells that were passed, their values, and the term to look at. -/
structure ListState where
  passed : List Node
  items : List Term
  current : Term

namespace Graph

/-- One turn: the loop is left with an outcome, or goes on behind a cell. -/
def turn (g : Graph) (s : ListState) : Except CollectionError (List Term) ⊕ ListState :=
  match s.current with
  | .literal l => .inl (.error (.notNode (.literal l)))
  | .node n =>
    if n = .iri rdfNil then .inl (.ok s.items)
    else if n ∈ s.passed then .inl (.error .cyclic)
    else
      match g.object? n rdfFirst, g.object? n rdfRest with
      | none, _ => .inl (.error .missingFirst)
      | some _, none => .inl (.error .missingRest)
      | some first, some rest => .inr ⟨n :: s.passed, s.items ++ [first], rest⟩

/-- The outcome of the loop, if it is left within so many turns. -/
def turns (g : Graph) : Nat → ListState → Option (Except CollectionError (List Term))
  | 0, _ => none
  | k + 1, s =>
    match g.turn s with
    | .inl outcome => some outcome
    | .inr s => g.turns k s

/-- The nodes that have a rest, each once. -/
def restNodes (g : Graph) : List Node := (g.subjectsOf rdfRest).eraseDups

/-- What the loop gives from a state on: the values so far, and those of the list at the term. -/
def outcome (g : Graph) (s : ListState) : Except CollectionError (List Term) :=
  (s.items ++ ·) <$> g.collectionAfter s.passed s.current

variable {g : Graph} {s : ListState}

/-- **A turn gives the outcome, or leaves it as it is**, and then one more node with a rest is passed. -/
theorem outcome_of_turn (g : Graph) (s : ListState) :
    match g.turn s with
    | .inl outcome => g.outcome s = outcome
    | .inr s' => g.outcome s' = g.outcome s ∧ ∃ n ∈ g.restNodes, n ∉ s.passed ∧ s'.passed = n :: s.passed := by
  obtain ⟨passed, items, current⟩ := s
  cases current with
  | literal l =>
      show (items ++ ·) <$> g.collectionAfter passed (.literal l) = _
      rw [collectionAfter]
      rfl
  | node n =>
      simp only [turn, outcome]
      by_cases hn : n = .iri rdfNil
      · subst hn
        rw [if_pos rfl]
        simp [collectionAfter]
      by_cases hp : n ∈ passed
      · rw [if_neg hn, if_pos hp]
        simp [collectionAfter, hn, hp]
      rw [if_neg hn, if_neg hp, collectionAfter_node hn hp]
      cases hfirst : g.object? n rdfFirst with
      | none => rfl
      | some first =>
          cases hrest : g.object? n rdfRest with
          | none => rfl
          | some rest =>
              refine ⟨?_, n, ?_, hp, rfl⟩
              · simp only
                cases g.collectionAfter (n :: passed) rest <;> simp
              · rw [restNodes, List.mem_eraseDups, mem_subjectsOf]
                exact ⟨rest, mem_triples_of_object? hrest⟩

/-- **The loop is left within one turn more than there are nodes with a rest that were not passed**, and with its
outcome. -/
theorem turns_eq_some {k : Nat} (hd : s.passed.Nodup) (hsub : s.passed ⊆ g.restNodes)
    (hk : g.restNodes.length < s.passed.length + k) : g.turns k s = some (g.outcome s) := by
  induction k generalizing s with
  | zero => exact absurd (hd.length_le_of_subset hsub) (Nat.not_le.2 hk)
  | succ k ih =>
      have hturn := g.outcome_of_turn s
      rw [turns]
      cases h : g.turn s with
      | inl outcome =>
          rw [h] at hturn
          exact congrArg some hturn.symm
      | inr s' =>
          rw [h] at hturn
          obtain ⟨houtcome, n, hn, hp, hpassed⟩ := hturn
          show g.turns k s' = _
          rw [← houtcome]
          refine ih ?_ ?_ ?_
          · rw [hpassed]
            exact List.nodup_cons.2 ⟨hp, hd⟩
          · rw [hpassed]
            exact List.cons_subset.2 ⟨hn, hsub⟩
          · rw [hpassed, List.length_cons]
            omega

/-- Every node is a single cell if no two triples differ in the object only. -/
theorem isSingleCell_of_objects (h : ∀ t ∈ g.triples, ∀ t' ∈ g.triples, t.subject = t'.subject →
    t.predicate = t'.predicate → t.object = t'.object) (n : Node) : g.IsSingleCell n :=
  ⟨fun _ _ ho ho' => h _ ho _ ho' rfl rfl, fun _ _ ho ho' => h _ ho _ ho' rfl rfl⟩

theorem turns_start (g : Graph) (head : Term) :
    g.turns (g.restNodes.length + 1) ⟨[], [], head⟩ = some (g.collection head) := by
  rw [turns_eq_some List.nodup_nil (List.nil_subset _) (by simp), outcome, collection]
  cases g.collectionAfter [] head <;> rfl

end Graph

end Rdf

open Rdf

/-- Reads a list for a shape: what breaks it is reported with the shape. -/
def readList (g : Graph) (id : Node) (head : Term) : Load (List Term) :=
  (g.collection head).mapError (.invalidList id)

theorem readMembers_eq_readList (g : Graph) (id : Node) (p : Iri) :
    readMembers g id p = readObject g id p (readList g id) := rfl

section

variable {g : Graph} {id : Node} {head : Term}

theorem readList_eq_ok {items : List Term} : readList g id head = .ok items ↔ g.collection head = .ok items := by
  rw [readList]
  cases g.collection head <;> simp [Except.mapError]

theorem readList_eq_error {cause : CollectionError} :
    readList g id head = .error (.invalidList id cause) ↔ g.collection head = .error cause := by
  rw [readList]
  cases g.collection head <;> simp [Except.mapError]

end

/-- **Lists are read exactly**, in a graph where no node has two values or two rests. The values of a list are read
exactly if cells with these values lead from its head to the empty list, for the first time: cells that lead on from
there are not read. In every other case the list is reported as broken, and where the cells lead to tells how. The loop
needs one turn more than there are nodes with a rest. -/
theorem readList_exact {g : Graph} (hg : ∀ n, g.IsSingleCell n) (id : Node) (head : Term) :
    (∀ items, readList g id head = .ok items ↔
        ∃ cells, g.Cells head cells items rdfNil.term ∧ .iri rdfNil ∉ cells) ∧
      (∀ cells items, g.Cells head cells items rdfNil.term →
        ∃ items', items' <+: items ∧ readList g id head = .ok items') ∧
      ((¬ ∃ cells items, g.Cells head cells items rdfNil.term) →
        ∃ cause, readList g id head = .error (.invalidList id cause)) ∧
      (∀ cause, readList g id head = .error (.invalidList id cause) ↔ ∃ cells items last,
        g.Cells head cells items last ∧ .iri rdfNil ∉ cells ∧ cells.Nodup ∧ g.Breaks cells last cause) ∧
      g.turns (g.restNodes.length + 1) ⟨[], [], head⟩ = some (g.collection head) := by
  refine ⟨fun items => ?_, fun cells items hcells => ?_, fun hnone => ?_, fun cause => ?_, g.turns_start head⟩
  · rw [readList_eq_ok, Graph.collection_eq_ok_iff hg]
  · obtain ⟨cells', items', hcells', hnil, hprefix⟩ := hcells.exists_initial
    exact ⟨items', hprefix, readList_eq_ok.2 ((Graph.collection_eq_ok_iff hg).2 ⟨cells', hcells', hnil⟩)⟩
  · cases h : g.collection head with
    | ok items =>
        obtain ⟨cells, hcells, -⟩ := (Graph.collection_eq_ok_iff hg).1 h
        exact absurd ⟨cells, items, hcells⟩ hnone
    | error cause => exact ⟨cause, readList_eq_error.2 h⟩
  · rw [readList_eq_error, Graph.collection_eq_error_iff hg]

/-! ## A list, and a chain that comes back -/

/-- A list of two names, and a cell before two cells that are the rest of each other. -/
def namesAndRing : Graph := ⟨[
  ⟨.blank "x", rdfFirst, .literal (.plain "Ada")⟩, ⟨.blank "x", rdfRest, .node (.blank "y")⟩,
  ⟨.blank "y", rdfFirst, .literal (.plain "Grace")⟩, ⟨.blank "y", rdfRest, rdfNil.term⟩,
  ⟨.blank "a", rdfFirst, .literal (.plain "Ada")⟩, ⟨.blank "a", rdfRest, .node (.blank "b")⟩,
  ⟨.blank "b", rdfFirst, .literal (.plain "Grace")⟩, ⟨.blank "b", rdfRest, .node (.blank "c")⟩,
  ⟨.blank "c", rdfFirst, .literal (.plain "Ada")⟩, ⟨.blank "c", rdfRest, .node (.blank "b")⟩]⟩

theorem isSingleCell_namesAndRing (n : Node) : namesAndRing.IsSingleCell n :=
  Graph.isSingleCell_of_objects (by decide +kernel) n

theorem cells_names : namesAndRing.Cells (.node (.blank "x")) [.blank "x", .blank "y"]
    [.literal (.plain "Ada"), .literal (.plain "Grace")] rdfNil.term :=
  .cons (by decide +kernel) (by decide +kernel) (.cons (by decide +kernel) (by decide +kernel) (.nil _))

theorem cells_ring : namesAndRing.Cells (.node (.blank "a")) [.blank "a", .blank "b", .blank "c"]
    [.literal (.plain "Ada"), .literal (.plain "Grace"), .literal (.plain "Ada")] (.node (.blank "b")) :=
  .cons (by decide +kernel) (by decide +kernel) (.cons (by decide +kernel) (by decide +kernel)
    (.cons (by decide +kernel) (by decide +kernel) (.nil _)))

/-- The list is read, and the chain is refused as cyclic; five nodes have a rest, so six turns suffice. -/
theorem readList_namesAndRing : (∀ n, namesAndRing.IsSingleCell n) ∧
    readList namesAndRing (.blank "s") (.node (.blank "x")) =
      .ok [.literal (.plain "Ada"), .literal (.plain "Grace")] ∧
    readList namesAndRing (.blank "s") (.node (.blank "a")) = .error (.invalidList (.blank "s") .cyclic) ∧
    namesAndRing.turns 6 ⟨[], [], .node (.blank "a")⟩ = some (.error .cyclic) := by
  obtain ⟨hread, -, -, -, -⟩ := readList_exact isSingleCell_namesAndRing (.blank "s") (.node (.blank "x"))
  obtain ⟨-, -, -, hbroken, hturns⟩ := readList_exact isSingleCell_namesAndRing (.blank "s") (.node (.blank "a"))
  have hcyclic := (hbroken .cyclic).2 ⟨_, _, _, cells_ring, by decide, by decide, .cyclic (by decide)⟩
  have hfive : namesAndRing.restNodes.length = 5 := by decide +kernel
  rw [hfive, readList_eq_error.1 hcyclic] at hturns
  exact ⟨isSingleCell_namesAndRing, (hread _).2 ⟨_, cells_names, by decide⟩, hcyclic, hturns⟩

/-! ## The empty list as a cell -/

/-- The empty list has a value, and is the rest of itself. -/
def valueAtNil : Graph := ⟨[
  ⟨.iri rdfNil, rdfFirst, .literal (.plain "Ada")⟩, ⟨.iri rdfNil, rdfRest, rdfNil.term⟩]⟩

/-- A chain of cells that begins at the empty list leads to the empty list, and its value is not read: a list ends
where the empty list is met first. -/
theorem readList_valueAtNil : (∀ n, valueAtNil.IsSingleCell n) ∧
    valueAtNil.Cells rdfNil.term [.iri rdfNil] [.literal (.plain "Ada")] rdfNil.term ∧
    readList valueAtNil (.blank "s") rdfNil.term = .ok [] ∧
    ¬ ∀ items, readList valueAtNil (.blank "s") rdfNil.term = .ok items ↔
      ∃ cells, valueAtNil.Cells rdfNil.term cells items rdfNil.term := by
  have hsingle : ∀ n, valueAtNil.IsSingleCell n := Graph.isSingleCell_of_objects (by decide +kernel)
  have hcells : valueAtNil.Cells rdfNil.term [.iri rdfNil] [.literal (.plain "Ada")] rdfNil.term :=
    .cons (by decide +kernel) (by decide +kernel) (.nil _)
  have hread : readList valueAtNil (.blank "s") rdfNil.term = .ok [] :=
    readList_eq_ok.2 ((Graph.collection_eq_ok_iff hsingle).2 ⟨[], .nil _, List.not_mem_nil⟩)
  refine ⟨hsingle, hcells, hread, fun h => ?_⟩
  have hone := (h [.literal (.plain "Ada")]).2 ⟨_, hcells⟩
  rw [hread] at hone
  cases hone

end ShapeTypes
