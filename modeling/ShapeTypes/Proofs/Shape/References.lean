import ShapeTypes.Proofs.Except
import ShapeTypes.Proofs.Rdf.Collection
import ShapeTypes.Proofs.Rdf.Graph
import ShapeTypes.Shape.Loader

/-!
# What a shape refers to in its graph

* `Rdf.Graph.HasPath`, `Rdf.Graph.RefersTo` — a node has a path; it refers to another one by `sh:node`, by all lists of
  `sh:and` and `sh:xone`, and without a path by `sh:property`;
* `Rdf.Graph.MayBeUnread` — a member of a list that stands beside another one, or that branches;
* `mem_map_of_mapM_eq_ok` — terms that are read as nodes are these nodes;
* `readShape_eq_ok` — **a shape that is read has the form of its node, and its references** but for such members.
-/

namespace ShapeTypes

open Rdf

namespace Rdf.Graph

def HasPath (g : Graph) (n : Node) : Prop := ∃ o, ⟨n, sh "path", o⟩ ∈ g.triples

/-- A node is a member of a list that another node has under a predicate. -/
def Lists (g : Graph) (n : Node) (p : Iri) (m : Node) : Prop :=
  ∃ head, ⟨n, p, head⟩ ∈ g.triples ∧ g.ListMember (.node m) head

/-- A node refers to another one, as a shape does to shapes. -/
inductive RefersTo (g : Graph) (n m : Node) : Prop where
  | node : ⟨n, sh "node", .node m⟩ ∈ g.triples → RefersTo g n m
  | conjunct : g.Lists n (sh "and") m → RefersTo g n m
  | alternative : g.Lists n (sh "xone") m → RefersTo g n m
  | property : ¬ g.HasPath n → ⟨n, sh "property", .node m⟩ ∈ g.triples → RefersTo g n m

/-- A node has one list at most under a predicate, and no cell of it has two values or two rests. -/
structure IsSingleList (g : Graph) (n : Node) (p : Iri) : Prop where
  head : g.IsSingleAt n p
  cells : ∀ head, ⟨n, p, head⟩ ∈ g.triples → ∀ cell, g.CellOf cell head → g.IsSingleCell cell

/-- A node is a member of a list that another node has under `sh:and` or `sh:xone`, where one list is read, and this
need not be the one. -/
def MayBeUnread (g : Graph) (n m : Node) : Prop := ∃ p ∈ [sh "and", sh "xone"], g.Lists n p m ∧ ¬ g.IsSingleList n p

theorem MayBeUnread.refersTo {g : Graph} {n m : Node} (h : g.MayBeUnread n m) : g.RefersTo n m := by
  obtain ⟨p, hp, hm, -⟩ := h
  rcases List.mem_pair.1 hp with rfl | rfl
  · exact .conjunct hm
  · exact .alternative hm

end Rdf.Graph

/-! ## Terms that are read as nodes -/

/-- **Terms that are read as nodes are these nodes.** -/
theorem mem_map_of_mapM_eq_ok {α : Type} {f : Term → Load α} {key : α → Node}
    (hf : ∀ t a, f t = .ok a → t = .node (key a)) {l : List Term} {as : List α} (h : l.mapM f = .ok as) {m : Node} :
    m ∈ as.map key ↔ .node m ∈ l := by
  have hall := forall₂_of_mapM_eq_ok h
  clear h
  induction hall with
  | nil => simp
  | cons hone _ ih => simp only [List.map_cons, List.mem_cons, ih, hf _ _ hone, Term.node.injEq]

theorem asShape_eq_ok {id n : Node} {t : Term} (h : asShape id t = .ok n) : t = .node n := by
  cases t with
  | node m =>
      cases h
      rfl
  | literal l => cases h

theorem mem_of_mapM_asShape {id : Node} {l : List Term} {ns : List Node} (h : l.mapM (asShape id) = .ok ns)
    {m : Node} : m ∈ ns ↔ .node m ∈ l := by
  have hmem : m ∈ ns.map (fun n => n) ↔ .node m ∈ l := mem_map_of_mapM_eq_ok (fun _ _ => asShape_eq_ok) h
  rwa [List.map_id'] at hmem

section

variable {g : Graph} {id m : Node}

/-- The properties of a node shape are the objects of `sh:property`, in another order. -/
theorem mem_orderedProperties {ps : List Node} (h : orderedProperties g id = .ok ps) :
    m ∈ ps ↔ ⟨id, sh "property", .node m⟩ ∈ g.triples := by
  unfold orderedProperties at h
  obtain ⟨ordered, hordered, h⟩ := bind_eq_ok.1 h
  cases h
  have hkey : ∀ t a, readOrdered g id t = .ok a → t = .node a.2 := by
    intro t a ha
    unfold readOrdered at ha
    obtain ⟨property, hproperty, ha⟩ := bind_eq_ok.1 ha
    obtain ⟨order, -, ha⟩ := bind_eq_ok.1 ha
    cases ha
    exact asShape_eq_ok hproperty
  rw [(List.mergeSort_perm _ _).map _ |>.mem_iff, mem_map_of_mapM_eq_ok hkey hordered, Graph.mem_objects]

/-- A list of shapes has members of a list of the node, and all of them if it is the only list. -/
theorem mem_readShapeList {p : Iri} {ns : Option (List Node)} (h : readShapeList g id p = .ok ns) :
    (m ∈ ns.getD [] → g.Lists id p m) ∧ (g.IsSingleList id p → g.Lists id p m → m ∈ ns.getD []) := by
  unfold readShapeList readMembers readObject at h
  cases ho : g.object? id p with
  | none =>
      rw [ho] at h
      cases h
      exact ⟨nofun, fun _ ⟨head, hhead, _⟩ => absurd hhead (Graph.object?_eq_none_iff.1 ho head)⟩
  | some head =>
      have hhead := Graph.mem_triples_of_object? ho
      rw [ho] at h
      obtain ⟨members, hmembers, h⟩ := bind_eq_ok.1 h
      simp only at hmembers
      cases hc : g.collection head with
      | error e =>
          rw [hc] at hmembers
          cases hmembers
      | ok items =>
          rw [hc] at hmembers
          cases hmembers
          obtain ⟨nodes, hnodes, h⟩ := bind_eq_ok.1 h
          cases h
          obtain ⟨hsound, hcomplete⟩ := Graph.mem_collectionAfter (.node m) hc
          rw [Option.getD_some, mem_of_mapM_asShape hnodes]
          constructor
          · intro hm
            exact ⟨head, hhead, hsound hm⟩
          · rintro hsingle ⟨head', hhead', hm⟩
            obtain rfl := hsingle.head _ _ hhead hhead'
            exact hcomplete (hsingle.cells head hhead) hm

/-! ## Shapes -/

theorem readConstraints_eq_ok {c : Constraints} (h : readConstraints g id = .ok c) :
    (g.objects id (sh "node")).mapM (asShape id) = .ok c.nodes ∧
      readShapeList g id (sh "and") = .ok c.conjunction ∧
      readShapeList g id (sh "xone") = .ok c.alternatives := by
  unfold readConstraints at h
  obtain ⟨oneOf, -, h⟩ := bind_eq_ok.1 h
  obtain ⟨ignoredTerms, -, h⟩ := bind_eq_ok.1 h
  obtain ⟨ignored, -, h⟩ := bind_eq_ok.1 h
  obtain ⟨languages, -, h⟩ := bind_eq_ok.1 h
  obtain ⟨nodeKind, -, h⟩ := bind_eq_ok.1 h
  obtain ⟨nodes, hnodes, h⟩ := bind_eq_ok.1 h
  obtain ⟨classes, -, h⟩ := bind_eq_ok.1 h
  obtain ⟨minCount, -, h⟩ := bind_eq_ok.1 h
  obtain ⟨maxCount, -, h⟩ := bind_eq_ok.1 h
  obtain ⟨closed, -, h⟩ := bind_eq_ok.1 h
  obtain ⟨conjunction, hconjunction, h⟩ := bind_eq_ok.1 h
  obtain ⟨alternatives, halternatives, h⟩ := bind_eq_ok.1 h
  -- What follows are facets, which refer to no shape.
  have hrest : c.nodes = nodes ∧ c.conjunction = conjunction ∧ c.alternatives = alternatives := by
    simp only [bind_eq_ok] at h
    obtain ⟨_, -, _, -, _, -, _, -, _, -, _, -, _, -, _, -, h⟩ := h
    cases h
    exact ⟨rfl, rfl, rfl⟩
  rw [hrest.1, hrest.2.1, hrest.2.2]
  exact ⟨hnodes, hconjunction, halternatives⟩

/-- The references of the constraints are those that the node makes by them, but for members of lists that need not
be read. -/
theorem mem_references_of_readConstraints {c : Constraints} (h : readConstraints g id = .ok c) :
    (m ∈ c.references → ⟨id, sh "node", .node m⟩ ∈ g.triples ∨ g.Lists id (sh "and") m ∨ g.Lists id (sh "xone") m) ∧
      (⟨id, sh "node", .node m⟩ ∈ g.triples → m ∈ c.references) ∧
      ∀ p ∈ [sh "and", sh "xone"], g.Lists id p m → m ∈ c.references ∨ g.MayBeUnread id m := by
  obtain ⟨hnodes, hconjunction, halternatives⟩ := readConstraints_eq_ok h
  have hmem : m ∈ c.references ↔
      ⟨id, sh "node", .node m⟩ ∈ g.triples ∨ m ∈ c.conjunction.getD [] ∨ m ∈ c.alternatives.getD [] := by
    rw [Constraints.references, List.mem_append, List.mem_append, mem_of_mapM_asShape hnodes, Graph.mem_objects,
      or_assoc]
  rw [hmem]
  refine ⟨?_, Or.inl, fun p hp hm => ?_⟩
  · exact Or.imp_right (Or.imp (mem_readShapeList hconjunction).1 (mem_readShapeList halternatives).1)
  · by_cases hsingle : g.IsSingleList id p
    · rcases List.mem_pair.1 hp with rfl | rfl
      · exact Or.inl (Or.inr (Or.inl ((mem_readShapeList hconjunction).2 hsingle hm)))
      · exact Or.inl (Or.inr (Or.inr ((mem_readShapeList halternatives).2 hsingle hm)))
    · exact Or.inr ⟨p, hp, hm, hsingle⟩

theorem readParts_eq_ok {shapeOf : Form → Shape} (h : readParts g id = .ok shapeOf) :
    ∃ c, readConstraints g id = .ok c ∧ ∀ form, (shapeOf form).id = id ∧ (shapeOf form).constraints = c ∧
      (shapeOf form).form = form := by
  unfold readParts at h
  obtain ⟨labels, -, h⟩ := bind_eq_ok.1 h
  obtain ⟨constraints, hconstraints, h⟩ := bind_eq_ok.1 h
  obtain ⟨definedBy, -, h⟩ := bind_eq_ok.1 h
  obtain ⟨annotations, -, h⟩ := bind_eq_ok.1 h
  cases h
  exact ⟨constraints, hconstraints, fun form => ⟨rfl, rfl, rfl⟩⟩

/-- What is read at a node is the shape of the node: a property shape exactly if the node has a path, with references
of the node, and with all of them but for members of lists that need not be read. -/
structure Shape.ReadFrom (shape : Shape) (g : Graph) (id : Node) : Prop where
  id_eq : shape.id = id
  isNode_iff : shape.isNode = false ↔ g.HasPath id
  sound : ∀ m ∈ shape.references, g.RefersTo id m
  complete : ∀ m, g.RefersTo id m → m ∈ shape.references ∨ g.MayBeUnread id m

/-- The references of a shape are those of its constraints, and its properties, which it has without a path only. -/
theorem readFrom_of_references {shape : Shape} {c : Constraints} (hid : shape.id = id)
    (hform : shape.isNode = false ↔ g.HasPath id) (hc : readConstraints g id = .ok c)
    (href : ∀ m, m ∈ shape.references ↔
      (¬ g.HasPath id ∧ ⟨id, sh "property", .node m⟩ ∈ g.triples) ∨ m ∈ c.references) : shape.ReadFrom g id := by
  refine ⟨hid, hform, fun m hm => ?_, fun m hm => ?_⟩
  · rcases (href m).1 hm with ⟨hpath, hproperty⟩ | hm
    · exact .property hpath hproperty
    · rcases (mem_references_of_readConstraints hc).1 hm with hnode | hand | hxone
      · exact .node hnode
      · exact .conjunct hand
      · exact .alternative hxone
  · obtain ⟨-, hnode, hlists⟩ := mem_references_of_readConstraints (m := m) hc
    rw [href]
    cases hm with
    | node h => exact Or.inl (Or.inr (hnode h))
    | conjunct h => exact (hlists _ (by simp) h).imp_left Or.inr
    | alternative h => exact (hlists _ (by simp) h).imp_left Or.inr
    | property hpath h => exact Or.inl (Or.inl ⟨hpath, h⟩)

theorem readFrom_of_readNodeShape {shape : Shape} (hpath : ¬ g.HasPath id) (h : readNodeShape g id = .ok shape) :
    shape.ReadFrom g id := by
  unfold readNodeShape at h
  obtain ⟨properties, hproperties, h⟩ := bind_eq_ok.1 h
  obtain ⟨shapeOf, hparts, h⟩ := bind_eq_ok.1 h
  cases h
  obtain ⟨c, hc, hshape⟩ := readParts_eq_ok hparts
  obtain ⟨hid, hconstraints, hform⟩ := hshape (.node properties)
  refine readFrom_of_references hid (iff_of_false ?_ hpath) hc fun m => ?_
  · rw [Shape.isNode, hform]
    exact Bool.noConfusion
  · rw [Shape.references, Shape.properties, hform, hconstraints, List.mem_append, mem_orderedProperties hproperties,
      and_iff_right hpath]

theorem readFrom_of_readPropertyShape {shape : Shape} {t : Term} (hpath : g.HasPath id)
    (h : readPropertyShape g id t = .ok shape) : shape.ReadFrom g id := by
  unfold readPropertyShape at h
  obtain ⟨visibility, -, h⟩ := bind_eq_ok.1 h
  obtain ⟨group, -, h⟩ := bind_eq_ok.1 h
  obtain ⟨shapeOf, hparts, h⟩ := bind_eq_ok.1 h
  simp only [bind_eq_ok] at h
  obtain ⟨_, -, _, -, _, -, _, -, _, -, h⟩ := h
  cases h
  obtain ⟨c, hc, hshape⟩ := readParts_eq_ok hparts
  obtain ⟨hid, hconstraints, hform⟩ := hshape (.property _)
  refine readFrom_of_references hid (iff_of_true ?_ hpath) hc fun m => ?_
  · rw [Shape.isNode, hform]
  · rw [Shape.references, Shape.properties, hform, hconstraints, List.nil_append]
    simp [hpath]

/-- **A shape that is read has the form and the references of its node**, but for members of lists that need not be
read. -/
theorem readShape_eq_ok {shape : Shape} (h : readShape g id = .ok shape) : shape.ReadFrom g id := by
  unfold readShape at h
  cases ho : g.object? id (sh "path") with
  | some t =>
      rw [ho] at h
      exact readFrom_of_readPropertyShape (Graph.exists_object?_iff.1 ⟨t, ho⟩) h
  | none =>
      rw [ho] at h
      refine readFrom_of_readNodeShape (fun hpath => ?_) h
      obtain ⟨t, ht⟩ := Graph.exists_object?_iff.2 hpath
      rw [ho] at ht
      cases ht

end

end ShapeTypes
