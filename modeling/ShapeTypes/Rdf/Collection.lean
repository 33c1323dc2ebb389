import ShapeTypes.Rdf.Graph

/-!
# RDF lists

* `Graph.collection` — the members of the list that begins at a term;
* `CollectionError` — why there is none. A cell met again is a cycle before its value or rest is looked for.

Each step passes a subject that was not passed before, so reading ends on every graph.
-/

namespace ShapeTypes.Rdf

/-- Why a term is not the head of a list. -/
inductive CollectionError where
  | cyclic
  | notNode (term : Term)
  | missingFirst
  | missingRest
  deriving DecidableEq

def CollectionError.message : CollectionError → String
  | .cyclic => "cyclic rdf:rest chain"
  | .notNode t => t.text ++ " is not a list node"
  | .missingFirst => "missing rdf:first"
  | .missingRest => "missing rdf:rest"

namespace Graph

/-- The subjects that are not passed yet. -/
def unpassed (g : Graph) (passed : List Node) : List Node := g.subjects.filter fun n => n ∉ passed

theorem unpassed_lt {g : Graph} {passed : List Node} {n : Node} (hn : n ∈ g.subjects)
    (hp : n ∉ passed) : (g.unpassed (n :: passed)).length < (g.unpassed passed).length := by
  have h : g.unpassed (n :: passed) = (g.unpassed passed).filter fun m => m ≠ n := by
    simp only [unpassed, List.filter_filter]
    refine List.filter_congr fun m _ => ?_
    simp [not_or]
  rw [h, List.length_filter_lt_length_iff_exists]
  exact ⟨n, by simp [unpassed, hn, hp], by simp⟩

/-- The members of the list that begins at a term, once the cells `passed` have been passed. -/
def collectionAfter (g : Graph) (passed : List Node) : Term → Except CollectionError (List Term)
  | .literal l => .error (.notNode (.literal l))
  | .node n =>
    if n = .iri rdfNil then .ok []
    else if _hp : n ∈ passed then .error .cyclic
    else
      match g.object? n rdfFirst with
      | none => .error .missingFirst
      | some first =>
        match _hr : g.object? n rdfRest with
        | none => .error .missingRest
        | some rest =>
          match g.collectionAfter (n :: passed) rest with
          | .ok items => .ok (first :: items)
          | .error e => .error e
termination_by (g.unpassed passed).length
decreasing_by exact unpassed_lt (mem_subjects_of_object? _hr) _hp

/-- The members of the list that begins at a term. -/
def collection (g : Graph) (head : Term) : Except CollectionError (List Term) :=
  g.collectionAfter [] head

end Graph

end ShapeTypes.Rdf
