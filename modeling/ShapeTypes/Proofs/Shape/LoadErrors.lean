import ShapeTypes.Proofs.Path.Ends
import ShapeTypes.Proofs.Shape.References

/-!
# What the errors of loading say

* `FailsAs` — every error of a reading has a property; `failsAs_bind`, … — a sequence has it if its parts do;
* `LoadError.IsFaultOf` — an error is a fault, or a broken list, that is found on a node;
* `readParts_failsAs`, … — **reading a node finds faults of that node alone**; a node shape is also refused for the
  order of a property;
* `readShapePath_failsAs` — a path is refused for a fault, or it is without end;
* `loadShapes_failsAs` — **a graph is loaded, or refused for a fault, unless the path of a shape is without end**;
* `path_reading_ends_iff` — **the paths without end are those that come back to a term they came through**, such as
  `selfInverse`.
-/

namespace ShapeTypes

open Rdf

/-- Every error of a reading has a property. -/
def FailsAs {α : Type} (P : LoadError → Prop) (x : Load α) : Prop := ∀ e, x = .error e → P e

/-! ## Sequences of readings -/

section

variable {α β : Type} {P Q : LoadError → Prop} {x : Load α}

theorem FailsAs.mono (h : FailsAs P x) (himp : ∀ e, P e → Q e) : FailsAs Q x := fun e he => himp e (h e he)

@[simp] theorem failsAs_ok (a : α) : FailsAs P (.ok a) := nofun

@[simp] theorem failsAs_pure (a : α) : FailsAs P (pure a) := nofun

@[simp] theorem failsAs_error {e : LoadError} : FailsAs P (.error e : Load α) ↔ P e := by
  constructor
  · exact fun h => h e rfl
  · rintro he _ ⟨⟩
    exact he

@[simp] theorem failsAs_map {f : α → β} : FailsAs P (f <$> x) ↔ FailsAs P x := by
  simp only [FailsAs, map_eq_error]

@[simp] theorem failsAs_bind {f : α → Load β} :
    FailsAs P (x >>= f) ↔ FailsAs P x ∧ ∀ a, x = .ok a → FailsAs P (f a) := by
  simp only [FailsAs, bind_eq_error]
  constructor
  · intro h
    exact ⟨fun e he => h e (Or.inl he), fun a ha e he => h e (Or.inr ⟨a, ha, he⟩)⟩
  · rintro ⟨hx, hf⟩ e (he | ⟨a, ha, he⟩)
    · exact hx e he
    · exact hf a ha e he

theorem failsAs_mapM {f : α → Load β} {l : List α} (h : ∀ a ∈ l, FailsAs P (f a)) : FailsAs P (l.mapM f) := by
  intro e he
  obtain ⟨before, a, after, rfl, -, ha⟩ := mapM_eq_error.1 he
  exact h a (List.mem_append_right _ List.mem_cons_self) e ha

end

/-! ## Faults of one node -/

/-- The error is a fault, or a broken list, that is found on a node. -/
inductive LoadError.IsFaultOf (id : Node) : LoadError → Prop where
  | shape (fault : ShapeFault) : IsFaultOf id (.invalidShape id fault)
  | list (cause : CollectionError) : IsFaultOf id (.invalidList id cause)

section

variable (g : Graph) (id : Node) (p : Iri)

@[simp] theorem failsAs_fault {α : Type} (fault : ShapeFault) :
    FailsAs (·.IsFaultOf id) (Load.fault id fault : Load α) :=
  failsAs_error.2 (.shape fault)

@[simp] theorem asLiteral_failsAs (t : Term) : FailsAs (·.IsFaultOf id) (asLiteral id p t) := by
  unfold asLiteral
  split <;> simp

@[simp] theorem asIri_failsAs (t : Term) : FailsAs (·.IsFaultOf id) (asIri id p t) := by
  unfold asIri
  split <;> simp

@[simp] theorem asShape_failsAs (t : Term) : FailsAs (·.IsFaultOf id) (asShape id t) := by
  unfold asShape
  split <;> simp

@[simp] theorem asFeature_failsAs (t : Term) : FailsAs (·.IsFaultOf id) (asFeature id t) := by
  unfold asFeature
  split <;> simp

theorem readObject_failsAs {α : Type} {P : LoadError → Prop} {f : Term → Load α} (h : ∀ t, FailsAs P (f t)) :
    FailsAs P (readObject g id p f) := by
  unfold readObject
  split
  · exact failsAs_ok _
  · exact failsAs_map.2 (h _)

@[simp] theorem readLiteral_failsAs : FailsAs (·.IsFaultOf id) (readLiteral g id p) :=
  readObject_failsAs g id p (asLiteral_failsAs id p)

@[simp] theorem readIri_failsAs : FailsAs (·.IsFaultOf id) (readIri g id p) :=
  readObject_failsAs g id p (asIri_failsAs id p)

@[simp] theorem readString_failsAs : FailsAs (·.IsFaultOf id) (readString g id p) :=
  readObject_failsAs g id p fun t => failsAs_map.2 (asLiteral_failsAs id p t)

theorem readLexical_failsAs {α : Type} (read? : String → Option α) (fault : Iri → Literal → ShapeFault) :
    FailsAs (·.IsFaultOf id) (readLexical g id p read? fault) := by
  refine readObject_failsAs g id p fun t => failsAs_bind.2 ⟨asLiteral_failsAs id p t, fun l _ => ?_⟩
  split <;> simp

@[simp] theorem readCount_failsAs : FailsAs (·.IsFaultOf id) (readCount g id p) := readLexical_failsAs g id p _ _

@[simp] theorem readBoolean_failsAs : FailsAs (·.IsFaultOf id) (readBoolean g id p) := readLexical_failsAs g id p _ _

@[simp] theorem readNumber_failsAs : FailsAs (·.IsFaultOf id) (readNumber g id p) := readLexical_failsAs g id p _ _

@[simp] theorem readMembers_failsAs : FailsAs (·.IsFaultOf id) (readMembers g id p) := by
  refine readObject_failsAs g id p fun t => ?_
  cases g.collection t with
  | ok items => exact failsAs_ok items
  | error cause => exact failsAs_error.2 (.list cause)

@[simp] theorem readShapeList_failsAs : FailsAs (·.IsFaultOf id) (readShapeList g id p) := by
  refine failsAs_bind.2 ⟨readMembers_failsAs g id p, fun members _ => ?_⟩
  split
  · exact failsAs_pure _
  · exact failsAs_bind.2 ⟨failsAs_mapM fun t _ => asShape_failsAs id t, fun _ _ => failsAs_pure _⟩

/-! ## Parts of a shape -/

@[simp] theorem readNodeKind_failsAs : FailsAs (·.IsFaultOf id) (readNodeKind g id) := by
  refine failsAs_bind.2 ⟨readIri_failsAs g id _, fun kind _ => ?_⟩
  split
  · exact failsAs_pure _
  · split <;> simp

@[simp] theorem readConstraints_failsAs : FailsAs (·.IsFaultOf id) (readConstraints g id) := by
  simp [readConstraints, failsAs_mapM]

@[simp] theorem readLabels_failsAs : FailsAs (·.IsFaultOf id) (readLabels g id) := by
  simp [readLabels]

@[simp] theorem readAnnotations_failsAs : FailsAs (·.IsFaultOf id) (readAnnotations g id) := by
  simp [readAnnotations, failsAs_mapM]

@[simp] theorem readParts_failsAs : FailsAs (·.IsFaultOf id) (readParts g id) := by
  simp [readParts]

@[simp] theorem readVisibility_failsAs : FailsAs (·.IsFaultOf id) (readVisibility g id) := by
  refine failsAs_bind.2 ⟨readString_failsAs g id _, fun visibility _ => ?_⟩
  split
  · exact failsAs_pure _
  · split <;> simp

@[simp] theorem readGroup_failsAs : FailsAs (·.IsFaultOf id) (readGroup g id) := by
  simp [readGroup]

@[simp] theorem readOntology_failsAs (i : Iri) : FailsAs (·.IsFaultOf (.iri i)) (readOntology g i) := by
  simp [readOntology]

/-! ## Shapes -/

theorem readShapePath_failsAs (t : Term) :
    FailsAs (fun e => e.IsFaultOf id ∨ (e = .endless id ∧ g.PathLoops t)) (readShapePath g id t) := by
  unfold readShapePath
  split
  · exact failsAs_ok _
  · exact (failsAs_fault id _).mono fun _ => Or.inl
  · exact (failsAs_fault id _).mono fun _ => Or.inl
  · exact failsAs_error.2 (Or.inl (.list _))
  · rename_i h
    exact failsAs_error.2 (Or.inr ⟨rfl, readPath_pathDepth_eq_tooDeep.1 h⟩)

theorem readShapePath_eq_endless {t : Term} : readShapePath g id t = .error (.endless id) ↔ g.PathLoops t := by
  constructor
  · intro h
    rcases readShapePath_failsAs g id t _ h with hfault | ⟨-, hloops⟩
    · cases hfault
    · exact hloops
  · intro h
    rw [readShapePath, h.readPath_eq_tooDeep]

/-- **A property shape is refused for a fault, or for a path without end.** -/
theorem readPropertyShape_failsAs (t : Term) :
    FailsAs (fun e => e.IsFaultOf id ∨ (e = .endless id ∧ g.PathLoops t)) (readPropertyShape g id t) := by
  have hfault : ∀ {α : Type} {x : Load α}, FailsAs (·.IsFaultOf id) x →
      FailsAs (fun e => e.IsFaultOf id ∨ (e = .endless id ∧ g.PathLoops t)) x := fun h => h.mono fun _ => Or.inl
  simp [readPropertyShape, hfault, readObject_failsAs, readShapePath_failsAs]

/-- **A node shape is refused for a fault of its own, or of a property whose order is read with it.** -/
theorem readNodeShape_failsAs :
    FailsAs (fun e => e.IsFaultOf id ∨ ∃ property, ⟨id, sh "property", .node property⟩ ∈ g.triples ∧
      e.IsFaultOf property) (readNodeShape g id) := by
  have hordered : ∀ t ∈ g.objects id (sh "property"),
      FailsAs (fun e => e.IsFaultOf id ∨ ∃ property, ⟨id, sh "property", .node property⟩ ∈ g.triples ∧
        e.IsFaultOf property) (readOrdered g id t) := by
    intro t ht
    refine failsAs_bind.2 ⟨(asShape_failsAs id t).mono fun _ => Or.inl, fun property hproperty => ?_⟩
    obtain rfl := asShape_eq_ok hproperty
    refine failsAs_bind.2 ⟨?_, fun _ _ => failsAs_pure _⟩
    exact (readNumber_failsAs g property _).mono fun e he => Or.inr ⟨property, Graph.mem_objects.1 ht, he⟩
  refine failsAs_bind.2 ⟨?_, fun _ _ => failsAs_bind.2 ⟨?_, fun _ _ => failsAs_pure _⟩⟩
  · exact failsAs_bind.2 ⟨failsAs_mapM hordered, fun _ _ => failsAs_pure _⟩
  · exact (readParts_failsAs g id).mono fun _ => Or.inl

end

/-! ## Shapes graphs -/

/-- There is a fault on some node, or the path of a shape is without end. -/
def Rdf.Graph.Refuses (g : Graph) (e : LoadError) : Prop :=
  (∃ id, e.IsFaultOf id) ∨ ∃ id t, e = .endless id ∧ g.object? id (sh "path") = some t ∧ g.PathLoops t

section

variable (g : Graph)

theorem readShape_failsAs (id : Node) : FailsAs g.Refuses (readShape g id) := by
  unfold readShape
  split
  · rename_i t ht
    refine (readPropertyShape_failsAs g id t).mono ?_
    rintro e (hfault | ⟨he, hloops⟩)
    · exact Or.inl ⟨id, hfault⟩
    · exact Or.inr ⟨id, t, he, ht, hloops⟩
  · refine (readNodeShape_failsAs g id).mono ?_
    rintro e (hfault | ⟨property, -, hfault⟩)
    · exact Or.inl ⟨id, hfault⟩
    · exact Or.inl ⟨property, hfault⟩

theorem discover_failsAs (fuel : Nat) (known queue : List Node) : FailsAs g.Refuses (discover g fuel known queue) := by
  induction fuel generalizing known queue with
  | zero => exact failsAs_ok _
  | succ fuel ih =>
      cases queue with
      | nil => exact failsAs_ok _
      | cons id queue =>
          refine failsAs_bind.2 ⟨readShape_failsAs g id, fun shape _ => ?_⟩
          exact failsAs_bind.2 ⟨ih _ _, fun _ _ => failsAs_pure _⟩

/-- **A graph is refused for a fault of a node, or for a path without end.** -/
theorem loadShapes_failsAs : FailsAs g.Refuses g.loadShapes := by
  have hfault : ∀ {α : Type} {x : Load α} {id : Node}, FailsAs (·.IsFaultOf id) x → FailsAs g.Refuses x :=
    fun h => h.mono fun _ he => Or.inl ⟨_, he⟩
  refine failsAs_bind.2 ⟨discover_failsAs g _ _ _, fun shapes _ => ?_⟩
  refine failsAs_bind.2 ⟨failsAs_mapM fun id _ => hfault (readGroup_failsAs g id), fun groups _ => ?_⟩
  exact failsAs_bind.2 ⟨failsAs_mapM fun i _ => hfault (readOntology_failsAs g i), fun _ _ => failsAs_pure _⟩

end

/-! ## When reading ends -/

/-- **Reading a path ends exactly if it does not come back to a term that it came through**, and then the depth that
is used suffices. Where it does not end there is no answer for the shape; a graph is loaded or refused unless that
is so for the path of a shape. -/
theorem path_reading_ends_iff (g : Graph) :
    (∀ t, (∃ depth, readPath g depth t ≠ .error .tooDeep) ↔ ¬ g.PathLoops t) ∧
      (∀ t depth, readPath g depth t ≠ .error .tooDeep → readPath g g.pathDepth t = readPath g depth t) ∧
      (∀ id t, readShapePath g id t = .error (.endless id) ↔ g.PathLoops t) ∧
      ∀ id, g.loadShapes = .error (.endless id) → ∃ t, g.object? id (sh "path") = some t ∧ g.PathLoops t := by
  refine ⟨fun t => ?_, fun t depth h => ?_, fun id t => readShapePath_eq_endless g id, fun id h => ?_⟩
  · rw [pathLoops_iff, Classical.not_forall]
  · have hused : readPath g g.pathDepth t ≠ .error .tooDeep := by
      rw [Ne, readPath_pathDepth_eq_tooDeep, pathLoops_iff]
      exact fun hall => h (hall depth)
    rcases Nat.le_total depth g.pathDepth with hle | hle
    · exact readPath_of_le hle h
    · exact (readPath_of_le hle hused).symm
  · rcases loadShapes_failsAs g _ h with ⟨_, hfault⟩ | ⟨_, t, heq, ht, hloops⟩
    · cases hfault
    · cases heq
      exact ⟨t, ht, hloops⟩

/-! ### A path that is its own inverse -/

/-- A path that says of itself that it is its own inverse. -/
def selfInverse : Graph := ⟨[
  ⟨.blank "p", sh "path", .node (.blank "b")⟩,
  ⟨.blank "b", sh "inversePath", .node (.blank "b")⟩]⟩

theorem pathLoops_selfInverse : selfInverse.PathLoops (.node (.blank "b")) := by
  have hform : pathForm selfInverse (.node (.blank "b")) = .ok (.modified .inverse (.node (.blank "b"))) := by
    decide +kernel
  exact ⟨_, .refl, .single ⟨_, [], [], hform, rfl, fun _ hv => absurd hv List.not_mem_nil⟩⟩

theorem readShape_selfInverse : readShape selfInverse (.blank "p") = .error (.endless (.blank "p")) := by
  have hpath : selfInverse.object? (.blank "p") (sh "path") = some (.node (.blank "b")) := by decide +kernel
  have hvisibility : readVisibility selfInverse (.blank "p") = .ok default := by decide +kernel
  have hgroup : readObject selfInverse (.blank "p") (sh "group") (asShape (.blank "p")) = .ok none := by
    decide +kernel
  have hparts : (readParts selfInverse (.blank "p")).toOption.isSome = true := by
    simp (disch := decide +kernel) only [readParts, readConstraints, readAnnotations, Graph.objects_eq_objectsOf]
    decide +kernel
  obtain ⟨shapeOf, hparts⟩ := exists_of_isSome_toOption hparts
  rw [readShape, hpath]
  show readPropertyShape _ _ _ = _
  rw [readPropertyShape, hvisibility, hgroup, hparts, (readShapePath_eq_endless _ _).2 pathLoops_selfInverse]
  rfl

theorem loadShapes_selfInverse : selfInverse.loadShapes = .error (.endless (.blank "p")) := by
  have hseeds : (shapeSeeds selfInverse).eraseDups = [.blank "p"] := by
    have hinstances : ∀ c, selfInverse.instances c = [] := fun _ => List.mergeSort_nil
    rw [shapeSeeds, hinstances, hinstances]
    exact congrArg List.eraseDups (List.mergeSort_singleton (Node.blank "p"))
  have hfuel : selfInverse.nodes.length = 2 := by decide +kernel
  have hshapes : readShapes selfInverse = .error (.endless (.blank "p")) := by
    rw [readShapes, hseeds, hfuel, discover, readShape_selfInverse]
    rfl
  rw [Graph.loadShapes, hshapes]
  rfl

/-- No depth suffices for it, and the graph is not loaded. -/
theorem selfInverse_has_no_end : (∀ depth, readPath selfInverse depth (.node (.blank "b")) = .error .tooDeep) ∧
    selfInverse.loadShapes = .error (.endless (.blank "p")) :=
  ⟨pathLoops_selfInverse.readPath_eq_tooDeep, loadShapes_selfInverse⟩

theorem selfInverse_path_reading :
    readPath selfInverse selfInverse.pathDepth (.node (.blank "p")) = .error .unknownStructure ∧
      ¬ selfInverse.PathLoops (.node (.blank "p")) ∧
      ∃ t, selfInverse.object? (.blank "p") (sh "path") = some t ∧ selfInverse.PathLoops t := by
  obtain ⟨hends, hdepth, -, hload⟩ := path_reading_ends_iff selfInverse
  have hread : readPath selfInverse 1 (.node (.blank "p")) = .error .unknownStructure := by
    have hform : pathForm selfInverse (.node (.blank "p")) = .error .unknownStructure := by decide +kernel
    rw [readPath_succ, hform]
    rfl
  have hdeep : readPath selfInverse 1 (.node (.blank "p")) ≠ .error .tooDeep := by
    rw [hread]
    nofun
  exact ⟨(hdepth _ 1 hdeep).trans hread, (hends _).1 ⟨1, hdeep⟩, hload _ loadShapes_selfInverse⟩

end ShapeTypes
