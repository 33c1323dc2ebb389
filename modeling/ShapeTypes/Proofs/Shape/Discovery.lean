import Mathlib.Order.Bounds.Basic
import ShapeTypes.Proofs.Schema.Failure
import ShapeTypes.Proofs.Shape.References

/-!
# The shapes that are discovered

* `Rdf.Graph.ShapeSeed` — a node is declared as a shape, or has a property or a path;
  `Rdf.Graph.ShapeClosed` — a set has all that its nodes refer to;
* `Exploring` — how far a search is; `Exploring.step` — **each step keeps it**: shapes are read once, and there is
  fuel for all of them;
* `Explored` — what a search that ends has found; `explored_of_discover` — **nothing is missed, and nothing is added**;
* `Rdf.Graph.LoadClosed` — a set has all that the shapes of a shapes graph refer to;
* `loadShapes_closure` — **the shapes of a loaded graph are the closure of the seeds** under the references that are
  read, and under all references unless a member of an unread list is missed. Inference refuses none of them for a
  reference to an undefined shape;
* `twoLists_not_closed` — of two lists of one shape, one is missed.
-/

namespace ShapeTypes

open Rdf

variable {g : Graph}

/-! ## Seeds -/

namespace Rdf.Graph

/-- A node is typed as a shape, or is the subject of a property or of a path. -/
inductive ShapeSeed (g : Graph) (n : Node) : Prop where
  | nodeShape : ⟨n, rdfType, (sh "NodeShape").term⟩ ∈ g.triples → ShapeSeed g n
  | propertyShape : ⟨n, rdfType, (sh "PropertyShape").term⟩ ∈ g.triples → ShapeSeed g n
  | property {o} : ⟨n, sh "property", o⟩ ∈ g.triples → ShapeSeed g n
  | path : g.HasPath n → ShapeSeed g n

/-- A set of nodes has every seed, and all that its nodes refer to. -/
structure ShapeClosed (g : Graph) (S : Set Node) : Prop where
  seed : ∀ n, g.ShapeSeed n → n ∈ S
  reference : ∀ n ∈ S, ∀ m, g.RefersTo n m → m ∈ S

variable {n : Node}

theorem Lists.mem_nodes {p : Iri} {m : Node} (h : g.Lists n p m) : m ∈ g.nodes := by
  obtain ⟨_, -, _, -, hfirst⟩ := h
  exact object_mem_nodes hfirst

theorem RefersTo.mem_nodes {m : Node} (h : g.RefersTo n m) : m ∈ g.nodes := by
  cases h with
  | node h => exact object_mem_nodes h
  | conjunct h => exact h.mem_nodes
  | alternative h => exact h.mem_nodes
  | property _ h => exact object_mem_nodes h

theorem ShapeSeed.mem_nodes (h : g.ShapeSeed n) : n ∈ g.nodes := by
  rcases h with h | h | h | ⟨_, h⟩ <;> exact subject_mem_nodes h

end Rdf.Graph

theorem mem_shapeSeeds {n : Node} : n ∈ shapeSeeds g ↔ g.ShapeSeed n := by
  rw [shapeSeeds, List.mem_append, List.mem_append, Graph.mem_instances, Graph.mem_instances, sortNodes,
    List.mem_mergeSort, List.mem_append, Graph.mem_subjectsOf, Graph.mem_subjectsOf]
  constructor
  · rintro ((h | h) | ⟨_, h⟩ | h)
    · exact .nodeShape h
    · exact .propertyShape h
    · exact .property h
    · exact .path h
  · rintro (h | h | h | h)
    · exact Or.inl (Or.inl h)
    · exact Or.inl (Or.inr h)
    · exact Or.inr (Or.inl ⟨_, h⟩)
    · exact Or.inr (Or.inr h)

/-! ## The search -/

/-- The references of a shape to nodes that are not known, each once. -/
def Shape.newReferences (shape : Shape) (known : List Node) : List Node :=
  shape.references.eraseDups.filter fun n => n ∉ known

theorem Shape.mem_newReferences {shape : Shape} {known : List Node} {m : Node} :
    m ∈ shape.newReferences known ↔ m ∈ shape.references ∧ m ∉ known := by
  rw [newReferences, List.mem_filter, List.mem_eraseDups, decide_eq_true_eq]

theorem discover_cons {fuel : Nat} {known queue : List Node} {id : Node} {shape : Shape}
    (h : readShape g id = .ok shape) : discover g (fuel + 1) known (id :: queue) = (shape :: ·) <$>
      discover g fuel (known ++ shape.newReferences known) (queue ++ shape.newReferences known) := by
  rw [discover, h]
  rfl

/-- How far a search is: shapes are read or wait to be read, each once, and there is fuel for all nodes. -/
structure Exploring (g : Graph) (fuel : Nat) (done queue : List Node) : Prop where
  nodup : (done ++ queue).Nodup
  nodes : ∀ n ∈ done ++ queue, n ∈ g.nodes
  fuel : g.nodes.length ≤ fuel + done.length

section

variable {fuel : Nat} {done queue : List Node} {id : Node}

theorem Exploring.queue_eq_nil (h : Exploring g 0 done queue) : queue = [] := by
  have hlength := h.nodup.length_le_of_subset h.nodes
  have hfuel := h.fuel
  rw [List.length_append] at hlength
  exact List.eq_nil_of_length_eq_zero (by omega)

/-- **Each step keeps the search in order.** -/
theorem Exploring.step {shape : Shape} (h : Exploring g (fuel + 1) done (id :: queue)) (hshape : shape.ReadFrom g id) :
    Exploring g fuel (done ++ [id]) (queue ++ shape.newReferences (done ++ id :: queue)) := by
  have hmoved : ∀ fresh : List Node, done ++ [id] ++ (queue ++ fresh) = done ++ id :: queue ++ fresh := fun _ => by
    rw [List.append_assoc, List.singleton_append, List.append_assoc, List.cons_append]
  constructor
  case nodup =>
    rw [hmoved]
    refine h.nodup.append ((nodup_eraseDups _).filter _) ?_
    intro m hknown hfresh
    exact (Shape.mem_newReferences.1 hfresh).2 hknown
  case nodes =>
    rw [hmoved]
    intro m hm
    rcases List.mem_append.1 hm with hknown | hfresh
    · exact h.nodes m hknown
    · exact (hshape.sound m (Shape.mem_newReferences.1 hfresh).1).mem_nodes
  case fuel =>
    have hfuel := h.fuel
    rw [List.length_append, List.length_singleton]
    omega

/-- What a search that ends has found: every shape that waited and all that these refer to, each once, and nothing
that is not in every such set. -/
structure Explored (g : Graph) (done queue : List Node) (shapes : List Shape) : Prop where
  nodup : (done ++ shapes.map Shape.id).Nodup
  read : ∀ shape ∈ shapes, shape.ReadFrom g shape.id
  waiting : ∀ n ∈ queue, n ∈ shapes.map Shape.id
  closed : ∀ shape ∈ shapes, ∀ m ∈ shape.references, m ∈ done ∨ m ∈ shapes.map Shape.id
  least : ∀ S : Set Node, (∀ n ∈ queue, n ∈ S) →
    (∀ shape ∈ shapes, shape.id ∈ S → ∀ m ∈ shape.references, m ∈ S) → ∀ shape ∈ shapes, shape.id ∈ S

theorem explored_nil (hdone : done.Nodup) : Explored g done [] [] where
  nodup := by rwa [List.map_nil, List.append_nil]
  read := List.forall_mem_nil _
  waiting := List.forall_mem_nil _
  closed := List.forall_mem_nil _
  least := fun _ _ _ => List.forall_mem_nil _

/-- What the search finds after a step is found with the shape of this step. -/
theorem Explored.cons {shape : Shape} {shapes : List Shape} (hshape : shape.ReadFrom g id)
    (h : Explored g (done ++ [id]) (queue ++ shape.newReferences (done ++ id :: queue)) shapes) :
    Explored g done (id :: queue) (shape :: shapes) := by
  have hid : id ∈ (shape :: shapes).map Shape.id := by simp [hshape.id_eq]
  have htail : ∀ n ∈ shapes.map Shape.id, n ∈ (shape :: shapes).map Shape.id := fun n hn =>
    List.mem_cons_of_mem _ hn
  have hqueue : ∀ n ∈ id :: queue, n ∈ (shape :: shapes).map Shape.id := by
    intro n hn
    rcases List.mem_cons.1 hn with rfl | hn
    · exact hid
    · exact htail n (h.waiting n (List.mem_append_left _ hn))
  constructor
  case nodup =>
    have hnodup := h.nodup
    rwa [List.append_assoc, List.singleton_append, ← hshape.id_eq] at hnodup
  case read =>
    refine List.forall_mem_cons.2 ⟨?_, h.read⟩
    rw [hshape.id_eq]
    exact hshape
  case waiting => exact hqueue
  case closed =>
    refine List.forall_mem_cons.2 ⟨fun m hm => ?_, fun other hother m hm => ?_⟩
    · -- A reference of the shape that was read was known before, or waits now.
      by_cases hknown : m ∈ done ++ id :: queue
      · rcases List.mem_append.1 hknown with hdone | hwaits
        · exact Or.inl hdone
        · exact Or.inr (hqueue m hwaits)
      · exact Or.inr (htail m (h.waiting m (List.mem_append_right _ (Shape.mem_newReferences.2 ⟨hm, hknown⟩))))
    · rcases h.closed other hother m hm with hdone | hfound
      · rcases List.mem_append.1 hdone with hdone | hm
        · exact Or.inl hdone
        · rw [List.mem_singleton.1 hm]
          exact Or.inr hid
      · exact Or.inr (htail m hfound)
  case least =>
    intro S hstart hclosed
    obtain ⟨hshapeClosed, hclosed⟩ := List.forall_mem_cons.1 hclosed
    have hS : shape.id ∈ S := hshape.id_eq.symm ▸ hstart id List.mem_cons_self
    refine List.forall_mem_cons.2 ⟨hS, h.least S (fun n hn => ?_) hclosed⟩
    rcases List.mem_append.1 hn with hn | hfresh
    · exact hstart n (List.mem_cons_of_mem _ hn)
    · exact hshapeClosed hS n (Shape.mem_newReferences.1 hfresh).1

/-- **A search that ends misses nothing and adds nothing.** -/
theorem explored_of_discover {shapes : List Shape} (h : Exploring g fuel done queue)
    (hr : discover g fuel (done ++ queue) queue = .ok shapes) : Explored g done queue shapes := by
  induction fuel generalizing done queue shapes with
  | zero =>
      obtain rfl := h.queue_eq_nil
      cases hr
      exact explored_nil (List.nodup_append.1 h.nodup).1
  | succ fuel ih =>
      cases queue with
      | nil =>
          cases hr
          exact explored_nil (List.nodup_append.1 h.nodup).1
      | cons id queue =>
          unfold discover at hr
          obtain ⟨shape, hshape, hr⟩ := bind_eq_ok.1 hr
          obtain ⟨shapes, hshapes, hr⟩ := bind_eq_ok.1 hr
          cases hr
          have hread := readShape_eq_ok hshape
          refine .cons hread (ih (h.step hread) ?_)
          rw [← hshapes, List.append_assoc, List.singleton_append, Shape.newReferences, List.append_assoc,
            List.cons_append]

end

theorem explored_of_readShapes {shapes : List Shape} (h : readShapes g = .ok shapes) :
    Explored g [] (shapeSeeds g).eraseDups shapes := by
  have hstart : Exploring g g.nodes.length [] (shapeSeeds g).eraseDups := by
    refine ⟨nodup_eraseDups _, fun n hn => ?_, Nat.le_refl _⟩
    exact (mem_shapeSeeds.1 (List.mem_eraseDups.1 hn)).mem_nodes
  exact explored_of_discover hstart h

/-! ## Loaded graphs -/

theorem explored_of_loadShapes {graph : ShapesGraph} (h : g.loadShapes = .ok graph) :
    Explored g [] (shapeSeeds g).eraseDups graph.shapes.entries := by
  unfold Graph.loadShapes at h
  obtain ⟨shapes, hshapes, h⟩ := bind_eq_ok.1 h
  obtain ⟨_, -, h⟩ := bind_eq_ok.1 h
  obtain ⟨_, -, h⟩ := bind_eq_ok.1 h
  cases h
  have hexplored := explored_of_readShapes hshapes
  rwa [Keyed.entries_ofList hexplored.nodup]

/-- An error blames a shape for a shape that is not defined. -/
def InferenceError.BlamesUndefined : InferenceError → Prop
  | .malformed _ (.referenceUndefined _) | .malformed _ (.propertyUndefined _) => True
  | _ => False

/-- No undefined shape is referred to where every reference is a shape. -/
theorem not_blamesUndefined {graph : ShapesGraph} {table : PrefixTable} {strict : Bool} {e : InferenceError}
    (hclosed : ∀ shape ∈ graph.shapes.entries, ∀ m ∈ shape.references, m ∈ graph.ids)
    (h : graph.infer table strict = .error e) : ¬ e.BlamesUndefined := by
  intro hundefined
  rcases infer_eq_error_cases h with hrefusal | ⟨_, _, -, -, rfl⟩ | ⟨_, _, _, -, rfl⟩ | ⟨_, _, -, rfl⟩
  · cases hrefusal with
    | ambiguous _ _ => exact hundefined
    | tooFewMembers _ _ _ => exact hundefined
    | @malformed id cause _ hcause =>
        cases cause with
        | referenceUndefined target =>
            obtain ⟨⟨shape, hs, hm⟩, hno⟩ := hcause
            exact hno (hclosed shape (Keyed.get?_eq_some_iff.1 hs).1 target (List.mem_append_right _ hm))
        | propertyUndefined property =>
            obtain ⟨⟨shape, hs, -, hm⟩, hno⟩ := hcause
            exact hno (hclosed shape (Keyed.get?_eq_some_iff.1 hs).1 property (List.mem_append_left _ hm))
        | _ => exact hundefined
  all_goals exact hundefined

/-- A set of nodes has every seed, and all that its nodes refer to as shapes of a shapes graph. -/
structure Rdf.Graph.LoadClosed (g : Graph) (graph : ShapesGraph) (S : Set Node) : Prop where
  seed : ∀ n, g.ShapeSeed n → n ∈ S
  reference : ∀ shape ∈ graph.shapes.entries, shape.id ∈ S → ∀ m ∈ shape.references, m ∈ S

/-- **The shapes of a loaded graph are the closure of the seeds** under the references that their shapes have: each
once, they are the least set that has every node typed as a shape and every subject of a property or of a path, and all
that its shapes refer to. Nothing is loaded that is not in the closure under all references of the nodes, and the
shapes are this closure exactly if they have every member of a list that need not be read. A shape is a property shape
exactly if its node has a path. Every reference is to a shape of the graph, and inference never meets an undefined
one. -/
theorem loadShapes_closure {graph : ShapesGraph} (h : g.loadShapes = .ok graph) :
    graph.ids.Nodup ∧ IsLeast {S | g.LoadClosed graph S} {n | n ∈ graph.ids} ∧
      (∀ S, g.ShapeClosed S → ∀ n ∈ graph.ids, n ∈ S) ∧
      (IsLeast {S | g.ShapeClosed S} {n | n ∈ graph.ids} ↔
        ∀ n ∈ graph.ids, ∀ m, g.MayBeUnread n m → m ∈ graph.ids) ∧
      (∀ shape ∈ graph.shapes.entries, shape.isNode = false ↔ g.HasPath shape.id) ∧
      (∀ shape ∈ graph.shapes.entries, ∀ m ∈ shape.references, m ∈ graph.ids) ∧
      ∀ table strict e, graph.infer table strict = .error e → ¬ e.BlamesUndefined := by
  have hexplored := explored_of_loadShapes h
  have hseeds : ∀ n, g.ShapeSeed n → n ∈ graph.ids := fun n hn =>
    hexplored.waiting n (List.mem_eraseDups.2 (mem_shapeSeeds.2 hn))
  have hreferences : ∀ shape ∈ graph.shapes.entries, ∀ m ∈ shape.references, m ∈ graph.ids := by
    intro shape hshape m hm
    rcases hexplored.closed shape hshape m hm with hdone | hfound
    · cases hdone
    · exact hfound
  have hleast : ∀ S, g.LoadClosed graph S → ∀ n ∈ graph.ids, n ∈ S := by
    intro S hS n hn
    obtain ⟨shape, hshape, rfl⟩ := List.mem_map.1 hn
    refine hexplored.least S (fun n hn => ?_) hS.reference shape hshape
    exact hS.seed n (mem_shapeSeeds.1 (List.mem_eraseDups.1 hn))
  -- A set with all references of its nodes has the references that are read.
  have hsound : ∀ S, g.ShapeClosed S → ∀ n ∈ graph.ids, n ∈ S := fun S hS => hleast S {
    seed := hS.seed
    reference := fun shape hshape hmem m hm => hS.reference _ hmem m ((hexplored.read shape hshape).sound m hm) }
  refine ⟨graph.shapes.distinct, ⟨⟨hseeds, fun shape hshape _ => hreferences shape hshape⟩, hleast⟩, hsound, ⟨?_, ?_⟩,
    fun shape hshape => (hexplored.read shape hshape).isNode_iff, hreferences,
    fun table strict e he => not_blamesUndefined hreferences he⟩
  · intro hclosure n hn m hm
    exact hclosure.1.reference n hn m hm.refersTo
  · intro hunread
    refine ⟨⟨hseeds, fun n hn m hm => ?_⟩, hsound⟩
    obtain ⟨shape, hshape, rfl⟩ := List.mem_map.1 hn
    rcases (hexplored.read shape hshape).complete m hm with hread | hmaybe
    · exact hreferences shape hshape m hread
    · exact hunread _ hn m hmaybe

/-! ## Shapes that refer to shapes without references -/

/-- A shape with these references, and without a group, is read at a node. -/
def ReadsAs (g : Graph) (id : Node) (references : List Node) : Prop :=
  (readShape g id).toOption.map (fun s => (s.references, s.property?.bind (·.group))) = some (references, none)

theorem ReadsAs.exists_readShape {id : Node} {references : List Node} (h : ReadsAs g id references) :
    ∃ shape, readShape g id = .ok shape ∧ shape.references = references ∧
      shape.property?.bind (·.group) = none := by
  obtain ⟨shape, hshape, heq⟩ := Option.map_eq_some_iff.1 h
  rw [Prod.mk.injEq] at heq
  exact ⟨shape, toOption_eq_some.1 hshape, heq⟩

theorem orderedProperties_eq_nil {id : Node} (h : g.objects id (sh "property") = []) :
    orderedProperties g id = .ok [] := by
  rw [orderedProperties, h]
  show Except.ok (([].mergeSort propertyBefore).map Prod.snd) = _
  rw [List.mergeSort_nil, List.map_nil]

/-- A node shape without references is read at a node of which nothing is said. -/
theorem readsAs_nil {id : Node} (h : ∀ t ∈ g.triples, t.subject ≠ id) : ReadsAs g id [] := by
  have hobject : ∀ p, g.object? id p = none := fun p => Graph.object?_eq_none_iff.2 fun o ho => h _ ho rfl
  have hobjects : ∀ p, g.objects id p = [] := fun p =>
    List.eq_nil_iff_forall_not_mem.2 fun o ho => h _ (Graph.mem_objects.1 ho) rfl
  simp only [ReadsAs, readShape, readNodeShape, orderedProperties_eq_nil (hobjects _), readParts, readConstraints, readAnnotations, readLabels,
    readNodeKind, readShapeList, readMembers, readCount, readBoolean, readIri, readLiteral, readString, readLexical,
    readObject, hobject, hobjects]
  rfl

/-- Shapes without references are read one after the other. -/
theorem exists_discover_leaves {fuel : Nat} {queue : List Node} (known : List Node) (hfuel : queue.length ≤ fuel)
    (h : ∀ n ∈ queue, ReadsAs g n []) : ∃ shapes, discover g fuel known queue = .ok shapes ∧
      shapes.map Shape.id = queue ∧ ∀ shape ∈ shapes, shape.property?.bind (·.group) = none := by
  induction queue generalizing fuel known with
  | nil =>
      refine ⟨[], ?_, rfl, List.forall_mem_nil _⟩
      cases fuel <;> rfl
  | cons id queue ih =>
      obtain ⟨hid, hqueue⟩ := List.forall_mem_cons.1 h
      obtain ⟨shape, hshape, hreferences, hgroup⟩ := hid.exists_readShape
      obtain ⟨fuel, rfl⟩ : ∃ f, fuel = f + 1 := ⟨fuel - 1, by rw [List.length_cons] at hfuel; omega⟩
      have hnew : shape.newReferences known = [] := by
        rw [Shape.newReferences, hreferences]
        rfl
      obtain ⟨shapes, hshapes, hids, hgroups⟩ := ih known (Nat.le_of_succ_le_succ hfuel) hqueue
      refine ⟨shape :: shapes, ?_, ?_, List.forall_mem_cons.2 ⟨hgroup, hgroups⟩⟩
      · rw [discover_cons hshape, hnew, List.append_nil, List.append_nil, hshapes]
        rfl
      · rw [List.map_cons, (readShape_eq_ok hshape).id_eq, hids]

/-- **One seed is loaded with its references**, if these have none, and if there are no groups and ontologies. -/
theorem exists_loadShapes_of_leaves {seed : Node} {leaves : List Node} (hseeds : (shapeSeeds g).eraseDups = [seed])
    (hseed : ReadsAs g seed leaves) (hleaves : ∀ n ∈ leaves, ReadsAs g n []) (hnew : (seed :: leaves).Nodup)
    (hnodes : (seed :: leaves).length ≤ g.nodes.length) (hgroups : g.instances (sh "PropertyGroup") = [])
    (hontologies : g.instances (owl "Ontology") = []) :
    ∃ graph, g.loadShapes = .ok graph ∧ graph.ids = seed :: leaves := by
  obtain ⟨shape, hshape, hreferences, hgroup⟩ := hseed.exists_readShape
  obtain ⟨fuel, hfuel⟩ : ∃ f, g.nodes.length = f + 1 := ⟨g.nodes.length - 1, by
    rw [List.length_cons] at hnodes; omega⟩
  rw [hfuel] at hnodes
  obtain ⟨shapes, hshapes, hids, hnoGroups⟩ := exists_discover_leaves (seed :: leaves)
    (Nat.le_of_succ_le_succ hnodes) hleaves
  have hread : readShapes g = .ok (shape :: shapes) := by
    have hfresh : shape.newReferences [seed] = leaves := by
      obtain ⟨hseedNew, hleavesNew⟩ := List.nodup_cons.1 hnew
      rw [Shape.newReferences, hreferences, eraseDups_of_nodup hleavesNew, List.filter_eq_self]
      intro n hn
      refine decide_eq_true fun hmem => ?_
      rw [List.mem_singleton.1 hmem] at hn
      exact hseedNew hn
    rw [readShapes, hseeds, hfuel, discover_cons hshape, hfresh]
    show _ <$> discover g fuel (seed :: leaves) leaves = _
    rw [hshapes]
    rfl
  have hall : (shape :: shapes).map Shape.id = seed :: leaves := by
    rw [List.map_cons, (readShape_eq_ok hshape).id_eq, hids]
  have hgroupIds : groupIds g (shape :: shapes) = [] := by
    have hnone : (shape :: shapes).filterMap (fun s => s.property?.bind (·.group)) = [] :=
      List.filterMap_eq_nil_iff.2 (List.forall_mem_cons.2 ⟨hgroup, hnoGroups⟩)
    rw [groupIds, hnone, hgroups]
    rfl
  have hload : g.loadShapes = .ok ⟨.ofList (shape :: shapes), .ofList [], .ofList []⟩ := by
    rw [Graph.loadShapes, hread]
    show (groupIds g (shape :: shapes)).mapM (readGroup g) >>= _ = _
    rw [hgroupIds, ontologyIds, hontologies]
    rfl
  refine ⟨_, hload, ?_⟩
  rw [ShapesGraph.ids, Keyed.keys, Keyed.entries_ofList (hall.symm ▸ hnew), hall]

/-! ## Persons, who are known -/

/-- Persons are known. Nothing else is said of them. -/
def acquaintances : Graph := .ofList [
  ⟨.blank "knows", sh "path", Iri.term ⟨"http://example.org/knows"⟩⟩,
  ⟨.blank "knows", sh "node", .node (.blank "Person")⟩]

theorem readsAs_knows : ReadsAs acquaintances (.blank "knows") [.blank "Person"] := by
  simp (disch := decide +kernel) only [ReadsAs, readShape, readPropertyShape, readParts, readConstraints,
    readAnnotations, Graph.objects_eq_objectsOf]
  decide +kernel

theorem readsAs_person : ReadsAs acquaintances (.blank "Person") [] := readsAs_nil (by decide +kernel)

/-- The shape that the other one refers to is loaded with it. -/
theorem exists_loadShapes_acquaintances : ∃ graph, acquaintances.loadShapes = .ok graph ∧
    graph.ids = [.blank "knows", .blank "Person"] := by
  have hinstances : ∀ c, acquaintances.instances c = [] := fun _ => List.mergeSort_nil
  refine exists_loadShapes_of_leaves ?_ readsAs_knows ?_ (by decide) (by decide +kernel) (hinstances _) (hinstances _)
  · rw [shapeSeeds, hinstances, hinstances]
    exact congrArg List.eraseDups (List.mergeSort_singleton (Node.blank "knows"))
  · exact List.forall_mem_singleton.2 readsAs_person

theorem acquaintances_closure : ∃ graph, acquaintances.loadShapes = .ok graph ∧
    graph.ids = [.blank "knows", .blank "Person"] ∧
      IsLeast {S | acquaintances.ShapeClosed S} {n | n ∈ graph.ids} := by
  obtain ⟨graph, hload, hids⟩ := exists_loadShapes_acquaintances
  refine ⟨graph, hload, hids, (loadShapes_closure hload).2.2.2.1.2 fun n hn m hm => ?_⟩
  -- There is no list.
  obtain ⟨p, hp, ⟨head, hhead, -⟩, -⟩ := hm
  have hnone : ∀ t ∈ acquaintances.triples, t.predicate ∉ [sh "and", sh "xone"] := by decide +kernel
  exact absurd hp (hnone _ hhead)

/-! ## A shape with two lists -/

/-- A shape has two lists of two shapes each under one predicate. -/
def twoLists : Graph := .ofList [
  ⟨.blank "S", rdfType, (sh "NodeShape").term⟩,
  ⟨.blank "S", sh "and", .node (.blank "a")⟩, ⟨.blank "S", sh "and", .node (.blank "c")⟩,
  ⟨.blank "a", rdfFirst, .node (.blank "A")⟩, ⟨.blank "a", rdfRest, .node (.blank "b")⟩,
  ⟨.blank "b", rdfFirst, .node (.blank "B")⟩, ⟨.blank "b", rdfRest, rdfNil.term⟩,
  ⟨.blank "c", rdfFirst, .node (.blank "C")⟩, ⟨.blank "c", rdfRest, .node (.blank "d")⟩,
  ⟨.blank "d", rdfFirst, .node (.blank "D")⟩, ⟨.blank "d", rdfRest, rdfNil.term⟩]

theorem readsAs_twoLists : ReadsAs twoLists (.blank "S") [.blank "A", .blank "B"] := by
  have hproperties : twoLists.objects (.blank "S") (sh "property") = [] := by
    rw [Graph.objects_eq_objectsOf (by decide +kernel)]
    decide +kernel
  simp (disch := decide +kernel) only [ReadsAs, readShape, readNodeShape, orderedProperties_eq_nil hproperties,
    readParts, readConstraints, readAnnotations, Graph.objects_eq_objectsOf]
  decide +kernel

/-- The members of the second list are not loaded, although the shape refers to them. -/
theorem twoLists_not_closed : ∃ graph, twoLists.loadShapes = .ok graph ∧
    graph.ids = [.blank "S", .blank "A", .blank "B"] ∧ twoLists.RefersTo (.blank "S") (.blank "C") ∧
      ¬ IsLeast {S | twoLists.ShapeClosed S} {n | n ∈ graph.ids} := by
  have hinstances : twoLists.instances (sh "NodeShape") = [.blank "S"] := List.mergeSort_singleton _
  have hnone : twoLists.instances (sh "PropertyShape") = [] := List.mergeSort_nil
  have hseeds : (shapeSeeds twoLists).eraseDups = [.blank "S"] := by
    rw [shapeSeeds, hinstances, hnone]
    exact congrArg (fun ns => (Node.blank "S" :: ns).eraseDups) List.mergeSort_nil
  have hleaves : ∀ n ∈ [Node.blank "A", .blank "B"], ReadsAs twoLists n [] := by
    have hsubjects : ∀ n ∈ [Node.blank "A", .blank "B"], ∀ t ∈ twoLists.triples, t.subject ≠ n := by decide +kernel
    exact fun n hn => readsAs_nil (hsubjects n hn)
  obtain ⟨graph, hload, hids⟩ := exists_loadShapes_of_leaves hseeds readsAs_twoLists hleaves (by decide)
    (by decide +kernel) List.mergeSort_nil List.mergeSort_nil
  have hrefers : twoLists.RefersTo (.blank "S") (.blank "C") :=
    .conjunct ⟨.node (.blank "c"), by decide +kernel, .first (by decide) (by decide +kernel)⟩
  refine ⟨graph, hload, hids, hrefers, fun hleast => ?_⟩
  have hmem : Node.blank "C" ∈ graph.ids := hleast.1.reference _ (by simp [hids]) _ hrefers
  rw [hids] at hmem
  revert hmem
  decide

end ShapeTypes
