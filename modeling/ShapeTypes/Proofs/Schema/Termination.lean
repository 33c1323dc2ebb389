import ShapeTypes.Proofs.Inference.Logged
import ShapeTypes.Proofs.Schema.Acyclic
import ShapeTypes.Proofs.Schema.Failure

/-!
# Inference comes to an end

* `infer_ne_nestedTooDeep` — the bound on the nesting is never reached;
* `inferLogged_cases` — a log changes nothing, unless it describes for ever a shape that is a list of itself;
* `infer_terminates` — **each shape is entered once at most, within no more others than there are shapes, and
  nothing is left halfway**: inference that checks this comes to the same, however often it may recurse; and so does
  inference that writes a log, if no shape is a list of itself;
* `ShapesGraph.ownList_logged` — **a log of a shape that is a list of itself has no end.**
-/

namespace ShapeTypes

open Rdf Relation

variable {graph : ShapesGraph} {table : PrefixTable} {strict : Bool}

/-- The bound on the nesting is never reached. -/
theorem infer_ne_nestedTooDeep (id : Node) :
    graph.infer table strict ≠ .error (.invariant id .nestedTooDeep) := by
  intro h
  rcases infer_eq_error_cases h with h | ⟨_, _, -, -, h⟩ | ⟨_, _, _, -, h⟩ | ⟨_, _, -, h⟩
  · cases h
  · cases h
  · cases h
  · cases h

/-- **A log changes nothing, unless it has no end.** -/
theorem inferLogged_cases : graph.inferLogged table strict = graph.infer table strict ∨
    ∃ e, graph.inferLogged table strict = .error e ∧ LoggedWithoutEnd graph e := by
  have halike : Infer.Alike (LoggedWithoutEnd graph) (Refusal graph) { names := .ofTable table }
      (resolveAllLogged graph strict) (resolveAll graph strict) := alike_resolveAllLogged
  unfold ShapesGraph.inferLogged ShapesGraph.infer
  rcases halike.agrees with hrun | ⟨e, he, hendless⟩
  · exact Or.inl (by rw [hrun])
  · exact Or.inr ⟨e, bind_eq_error.2 (Or.inl he), hendless⟩

/-- An inferred schema is inferred with a log as well, since its shapes do not refer to themselves. -/
theorem inferLogged_eq_ok {schema : Schema} (h : graph.infer table strict = .ok schema) :
    graph.inferLogged table strict = .ok schema := by
  rcases @inferLogged_cases graph table strict with heq | ⟨e, -, -, id, hround⟩
  · exact heq.trans h
  · obtain ⟨i⟩ := exists_inferred h
    have hrefers : TransGen graph.Refers id id :=
      TransGen.closed (fun _ _ (hlist : graph.IsListOf _ _) => hlist.refers) _ _ hround
    exact absurd hrefers (i.not_refers_cycle id)

/-- **Inference comes to an end.** The bound on the nesting is never reached. With any higher one, resolving
all shapes comes to the same although it stops, with any alarm, when a shape is entered twice, when as many
shapes as there are were being resolved already, when the shapes being resolved are not those that are nested
within each other, or when anything is left halfway after a shape was resolved that no other one asked for.
Nor does it matter how many more aliases than there are may be followed. With a log it comes to the same as well, unless
the log describes a shape without end, of which no number of slots to look at suffices; then a shape is a list of
itself, and no schema is inferred without a log either. -/
theorem infer_terminates (graph : ShapesGraph) (table : PrefixTable) (strict : Bool) :
    (∀ id, graph.infer table strict ≠ .error (.invariant id .nestedTooDeep)) ∧
    (∀ alarm extra, (resolveAllChecked graph strict alarm (graph.size + 1 + extra)).run
        { names := .ofTable table } = (resolveAll graph strict).run { names := .ofTable table }) ∧
    (∀ (aliases : List Alias) (a : Alias) (extra : Nat),
      chainEnd aliases (aliases.length + 1 + extra) [a.slot] [a.shape] a.target = a.resolve aliases) ∧
    (graph.inferLogged table strict = graph.infer table strict ∨
      (∃ id, graph.inferLogged table strict = .error (.invariant id .endlessDescription)) ∧
        ∃ id, TransGen graph.IsListOf id id) ∧
    (∀ (a : Arena) (record : CurieRecord) (x : Slot),
      a.describe? record x = none ↔ ∀ n, a.describeFor? record n x = none) ∧
    ∀ schema, graph.infer table strict = .ok schema → graph.inferLogged table strict = .ok schema := by
  refine ⟨infer_ne_nestedTooDeep, fun alarm extra => (alike_resolveAllChecked alarm extra).run_eq,
    fun aliases a extra => ?_, ?_, fun a record x => ?_, fun schema => inferLogged_eq_ok⟩
  · have hpassed : ([] : List Slot) ⊆ aliases.map (·.slot) := List.nil_subset _
    refine Alias.chainEnd_eq_of_lt _ _ List.nodup_nil hpassed ?_ ?_ <;> simp only [List.length_nil] <;> omega
  · refine inferLogged_cases.imp_right ?_
    rintro ⟨_, he, ⟨id, rfl⟩, hround⟩
    exact ⟨⟨id, he⟩, hround⟩
  · exact Arena.describe?_eq_none_iff.trans Arena.neverEnds_iff

/-- A list of which the items are its own. -/
def ShapesGraph.ownList : ShapesGraph where
  shapes := .ofList [
    { id := .iri ⟨"e:parts"⟩, constraints := { nodes := [.iri ⟨"e:parts"⟩] }
      form := .property { path := .predicate ⟨"e:parts"⟩, list := true } }]

theorem ShapesGraph.ownList_logged :
    ∃ id, ownList.inferLogged default true = .error (.invariant id .endlessDescription) := by
  have h : (match ownList.inferLogged default true with
      | .error (.invariant _ .endlessDescription) => true
      | _ => false) = true := by decide +kernel
  split at h
  · rename_i id hid
    exact ⟨id, hid⟩
  · cases h

end ShapeTypes
