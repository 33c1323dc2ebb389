import ShapeTypes.Proofs.Lookup
import ShapeTypes.Proofs.Rdf.Collection
import ShapeTypes.Proofs.Rdf.Graph
import ShapeTypes.Proofs.Rdf.TermText
import ShapeTypes.Shape.Loader

/-!
# Loading depends on the set of triples alone

* `singlePredicates`, `Rdf.Graph.IsSingle` — the predicates under which one object of a subject is read; a graph has
  no more;
* `SameReads` — two graphs answer alike all that loading asks of a graph;
  `sameReads_of_perm` — **so do graphs with the same triples**, in any order;
* `SameReads.readShape_eq`, … — what is read from such graphs is the same, part by part;
* `loadShapes_ofList_eq` — **lists of the same triples give the same shapes graph, or the same error.**
-/

namespace ShapeTypes

open Rdf

/-- The predicates under which one object of a subject is read. -/
def singlePredicates : List Iri :=
  ["path", "order", "in", "ignoredProperties", "languageIn", "nodeKind", "minCount", "maxCount", "closed", "and",
    "xone", "datatype", "minExclusive", "minInclusive", "maxExclusive", "maxInclusive", "minLength", "maxLength",
    "pattern", "name", "description", "group", "defaultValue", "alternativePath", "inversePath", "zeroOrMorePath",
    "oneOrMorePath", "zeroOrOnePath"].map sh ++
  ["name", "declare", "visibility", "mutable", "lazy", "list"].map hint ++
  ["label", "comment", "isDefinedBy"].map rdfs ++ [rdfFirst, rdfRest]

/-- Under these predicates, every subject has one object at most. -/
def Rdf.Graph.IsSingle (g : Graph) : Prop :=
  ∀ s, ∀ p ∈ singlePredicates, ∀ o o', ⟨s, p, o⟩ ∈ g.triples → ⟨s, p, o'⟩ ∈ g.triples → o = o'

/-- Two graphs answer alike all that loading asks of a graph. -/
structure SameReads (g h : Graph) : Prop where
  object? : ∀ s, ∀ p ∈ singlePredicates, g.object? s p = h.object? s p
  objects : ∀ s p, g.objects s p = h.objects s p
  instances : ∀ c, g.instances c = h.instances c
  seeds : shapeSeeds g = shapeSeeds h
  nodes : g.nodes.length = h.nodes.length
  size : g.size = h.size

/-! ## Graphs with the same triples -/

theorem Rdf.Graph.IsSingle.object?_eq_some_iff {g : Graph} (hg : g.IsSingle) {s : Node} {p : Iri}
    (hp : p ∈ singlePredicates) {o : Term} : g.object? s p = some o ↔ ⟨s, p, o⟩ ∈ g.triples :=
  Graph.IsSingleAt.object?_eq_some_iff (hg s p hp)

/-- **Graphs with the same triples are read alike**, in whatever order they hold them. -/
theorem sameReads_of_perm {g h : Graph} (hp : g.triples.Perm h.triples) (hg : g.IsSingle) : SameReads g h where
  object? s p hsingle := by
    have hh : h.IsSingle := fun s p hp' o o' ho ho' => hg s p hp' o o' (hp.mem_iff.2 ho) (hp.mem_iff.2 ho')
    refine Option.ext fun o => ?_
    rw [hg.object?_eq_some_iff hsingle, hh.object?_eq_some_iff hsingle, hp.mem_iff]
  objects s p := sortTerms_eq_of_perm (hp.filterMap _)
  instances c := sortNodes_eq_of_perm (hp.filterMap _)
  seeds := by
    have hinstances : ∀ c, g.instances c = h.instances c := fun c => sortNodes_eq_of_perm (hp.filterMap _)
    have hsubjects : ∀ p, (g.subjectsOf p).Perm (h.subjectsOf p) := fun p => hp.filterMap _
    rw [shapeSeeds, shapeSeeds, hinstances, hinstances,
      sortNodes_eq_of_perm ((hsubjects (sh "property")).append (hsubjects (sh "path")))]
  nodes := (perm_eraseDups fun n => (hp.flatMap_right _).mem_iff).length_eq
  size := hp.length_eq

/-! ## Single predicates -/

namespace SameReads

variable {g h : Graph} (hg : SameReads g h) (id : Node) {p : Iri}

include hg

theorem readObject_eq {α : Type} (hp : p ∈ singlePredicates) (f : Term → Load α) :
    readObject g id p f = readObject h id p f := by
  rw [readObject, readObject, hg.object? id p hp]

theorem readLiteral_eq (hp : p ∈ singlePredicates) : readLiteral g id p = readLiteral h id p :=
  hg.readObject_eq id hp _

theorem readIri_eq (hp : p ∈ singlePredicates) : readIri g id p = readIri h id p := hg.readObject_eq id hp _

theorem readString_eq (hp : p ∈ singlePredicates) : readString g id p = readString h id p :=
  hg.readObject_eq id hp _

theorem readCount_eq (hp : p ∈ singlePredicates) : readCount g id p = readCount h id p := hg.readObject_eq id hp _

theorem readBoolean_eq (hp : p ∈ singlePredicates) : readBoolean g id p = readBoolean h id p :=
  hg.readObject_eq id hp _

theorem readNumber_eq (hp : p ∈ singlePredicates) : readNumber g id p = readNumber h id p :=
  hg.readObject_eq id hp _

/-! ## Lists and paths -/

omit id in
theorem collectionAfter_eq (passed : List Node) (t : Term) :
    g.collectionAfter passed t = h.collectionAfter passed t := by
  have hfirst : ∀ n, g.object? n rdfFirst = h.object? n rdfFirst := fun n =>
    hg.object? n rdfFirst (by simp [singlePredicates])
  have hrest : ∀ n, g.object? n rdfRest = h.object? n rdfRest := fun n =>
    hg.object? n rdfRest (by simp [singlePredicates])
  induction passed, t using Graph.collectionAfter.induct g with
  | case1 passed l => rw [Graph.collectionAfter, Graph.collectionAfter]
  | case2 passed => rw [Graph.collectionAfter, Graph.collectionAfter, if_pos rfl, if_pos rfl]
  | case3 passed n hn hp =>
      rw [Graph.collectionAfter, Graph.collectionAfter, if_neg hn, if_neg hn, dif_pos hp, dif_pos hp]
  | case4 passed n hn hp hf =>
      simp only [Graph.collectionAfter_node hn hp, ← hfirst, hf]
  | case5 passed n hn hp first hf hr =>
      simp only [Graph.collectionAfter_node hn hp, ← hfirst, ← hrest, hf, hr]
  | case6 passed n hn hp first hf rest hr items hi ih =>
      simp only [Graph.collectionAfter_node hn hp, ← hfirst, ← hrest, hf, hr, ih]
  | case7 passed n hn hp first hf rest hr e hi ih =>
      simp only [Graph.collectionAfter_node hn hp, ← hfirst, ← hrest, hf, hr, ih]

theorem readMembers_eq (hp : p ∈ singlePredicates) : readMembers g id p = readMembers h id p := by
  have hcollection : g.collection = h.collection := funext fun t => hg.collectionAfter_eq [] t
  rw [readMembers, readMembers, hcollection]
  exact hg.readObject_eq id hp _

theorem readShapeList_eq (hp : p ∈ singlePredicates) : readShapeList g id p = readShapeList h id p := by
  rw [readShapeList, readShapeList, hg.readMembers_eq id hp]

omit id in
theorem readPath_eq (depth : Nat) (t : Term) : readPath g depth t = readPath h depth t := by
  have hmembers : pathMembers g = pathMembers h := by
    funext t
    rw [pathMembers, pathMembers, Graph.collection, Graph.collection, hg.collectionAfter_eq]
  induction depth generalizing t with
  | zero => rfl
  | succ depth ih =>
      have hinner : readPath g depth = readPath h depth := funext ih
      rcases t with (i | b) | l
      · rfl
      · simp only [readPath, hmembers, hinner]
        rw [hg.object? (.blank b) (sh "alternativePath") (by simp [singlePredicates]),
          hg.object? (.blank b) (sh "inversePath") (by simp [singlePredicates]),
          hg.object? (.blank b) (sh "zeroOrMorePath") (by simp [singlePredicates]),
          hg.object? (.blank b) (sh "oneOrMorePath") (by simp [singlePredicates]),
          hg.object? (.blank b) (sh "zeroOrOnePath") (by simp [singlePredicates]),
          hg.object? (.blank b) rdfFirst (by simp [singlePredicates])]
      · rfl

/-! ## Parts of a shape -/

theorem readNodeKind_eq : readNodeKind g id = readNodeKind h id := by
  rw [readNodeKind, readNodeKind, hg.readIri_eq id (by simp [singlePredicates])]

theorem readConstraints_eq : readConstraints g id = readConstraints h id := by
  unfold readConstraints
  simp (disch := simp [singlePredicates]) only [hg.readMembers_eq id, hg.readNodeKind_eq id, hg.objects id,
    hg.readCount_eq id, hg.readBoolean_eq id, hg.readShapeList_eq id, hg.readIri_eq id, hg.readLiteral_eq id,
    hg.readString_eq id]

theorem readLabels_eq : readLabels g id = readLabels h id := by
  unfold readLabels
  simp (disch := simp [singlePredicates]) only [hg.readString_eq id]

theorem readAnnotations_eq : readAnnotations g id = readAnnotations h id := by
  rw [readAnnotations, readAnnotations, hg.objects id, hg.readString_eq id (by simp [singlePredicates])]

theorem readParts_eq : readParts g id = readParts h id := by
  rw [readParts, readParts, hg.readLabels_eq, hg.readConstraints_eq, hg.readAnnotations_eq,
    hg.readIri_eq id (by simp [singlePredicates])]

/-! ## Shapes -/

theorem readPropertyShape_eq (t : Term) : readPropertyShape g id t = readPropertyShape h id t := by
  have hpath : readShapePath g id t = readShapePath h id t := by
    rw [readShapePath, readShapePath, Graph.pathDepth, Graph.pathDepth, hg.size, hg.readPath_eq]
  have hvisibility : readVisibility g id = readVisibility h id := by
    rw [readVisibility, readVisibility, hg.readString_eq id (by simp [singlePredicates])]
  unfold readPropertyShape
  simp (disch := simp [singlePredicates]) only [hvisibility, hg.readObject_eq id, hg.readParts_eq id, hpath,
    hg.readBoolean_eq id, hg.readNumber_eq id, hg.object? id]

theorem readNodeShape_eq : readNodeShape g id = readNodeShape h id := by
  have hordered : readOrdered g id = readOrdered h id := by
    funext t
    unfold readOrdered
    simp (disch := simp [singlePredicates]) only [hg.readNumber_eq]
  rw [readNodeShape, readNodeShape, orderedProperties, orderedProperties, hg.objects, hordered, hg.readParts_eq]

/-- **The same is read of a shape.** -/
theorem readShape_eq : readShape g id = readShape h id := by
  rw [readShape, readShape, hg.object? id (sh "path") (by simp [singlePredicates]), hg.readNodeShape_eq]
  cases h.object? id (sh "path") with
  | some t => exact hg.readPropertyShape_eq id t
  | none => rfl

theorem readGroup_eq : readGroup g id = readGroup h id := by
  unfold readGroup
  simp (disch := simp [singlePredicates]) only [hg.readString_eq id, hg.readNumber_eq id]

omit id in
theorem readOntology_eq (i : Iri) : readOntology g i = readOntology h i := by
  unfold readOntology
  simp (disch := simp [singlePredicates]) only [hg.readString_eq, hg.readAnnotations_eq]

/-! ## The whole graph -/

omit id in
theorem discover_eq (fuel : Nat) (known queue : List Node) : discover g fuel known queue = discover h fuel known queue := by
  induction fuel generalizing known queue with
  | zero => rfl
  | succ fuel ih =>
      cases queue with
      | nil => rfl
      | cons id queue => simp only [discover, hg.readShape_eq, ih]

omit id in
/-- **Graphs that are read alike describe the same shapes graph**, or are refused for the same reason. -/
theorem loadShapes_eq : g.loadShapes = h.loadShapes := by
  have hshapes : readShapes g = readShapes h := by
    rw [readShapes, readShapes, hg.seeds, hg.nodes, hg.discover_eq]
  have hgroups : groupIds g = groupIds h := by
    funext shapes
    rw [groupIds, groupIds, hg.instances]
  have hgroup : readGroup g = readGroup h := funext hg.readGroup_eq
  have hontology : readOntology g = readOntology h := funext hg.readOntology_eq
  rw [Graph.loadShapes, Graph.loadShapes, hshapes, hgroups, hgroup, hontology, ontologyIds, ontologyIds, hg.instances]

end SameReads

/-- **Loading depends on the set of triples alone**: lists with the same triples, in any order and with any
repetitions, give the same shapes graph, or the same error. -/
theorem loadShapes_ofList_eq {ts ts' : List Triple} (hsame : ∀ t, t ∈ ts ↔ t ∈ ts')
    (hsingle : ∀ s, ∀ p ∈ singlePredicates, ∀ o o', ⟨s, p, o⟩ ∈ ts → ⟨s, p, o'⟩ ∈ ts → o = o') :
    (Graph.ofList ts).loadShapes = (Graph.ofList ts').loadShapes := by
  refine (sameReads_of_perm (perm_eraseDups hsame) ?_).loadShapes_eq
  intro s p hp o o' ho ho'
  exact hsingle s p hp o o' (Graph.mem_ofList.1 ho) (Graph.mem_ofList.1 ho')

/-! ## A list and its reverse -/

/-- Persons have names, and know persons. -/
def personTriples : List Triple := [
  ⟨.blank "Person", rdfType, (sh "NodeShape").term⟩,
  ⟨.blank "Person", sh "property", .node (.blank "name")⟩,
  ⟨.blank "Person", sh "property", .node (.blank "knows")⟩,
  ⟨.blank "name", sh "path", Iri.term ⟨"http://example.org/name"⟩⟩,
  ⟨.blank "knows", sh "path", Iri.term ⟨"http://example.org/knows"⟩⟩,
  ⟨.blank "knows", sh "node", .node (.blank "Person")⟩]

theorem personTriples_single : ∀ s, ∀ p ∈ singlePredicates, ∀ o o', ⟨s, p, o⟩ ∈ personTriples →
    ⟨s, p, o'⟩ ∈ personTriples → o = o' := by
  have hall : ∀ t ∈ personTriples, ∀ t' ∈ personTriples, t.subject = t'.subject → t.predicate = t'.predicate →
      t.predicate ∈ singlePredicates → t.object = t'.object := by decide +kernel
  exact fun s p hp o o' ho ho' => hall _ ho _ ho' rfl rfl hp

theorem loadShapes_personTriples :
    (∀ t, t ∈ personTriples ↔ t ∈ personTriples.reverse ++ personTriples) ∧
      (Graph.ofList personTriples).loadShapes =
        (Graph.ofList (personTriples.reverse ++ personTriples)).loadShapes := by
  have hsame : ∀ t, t ∈ personTriples ↔ t ∈ personTriples.reverse ++ personTriples := by
    intro t
    rw [List.mem_append, List.mem_reverse, or_self]
  exact ⟨hsame, loadShapes_ofList_eq hsame personTriples_single⟩

end ShapeTypes
