import ShapeTypes.Proofs.Path.Encoding
import ShapeTypes.Proofs.Path.Ends
import ShapeTypes.Proofs.Rdf.ListChain
import ShapeTypes.Shape.Description

/-!
# Paths are read as they are written

A node is tried as seven kinds of path, one after the other. In a graph that holds what is written and no more about
these nodes, one kind fits: the kind that was written.

* `pathForm_modified`, `pathForm_alternative`, `pathForm_cell` — **the node of a path, or the first cell of a list, is
  taken for nothing else**;
* `Rdf.Graph.ReadsPath` — a term is read as a path, at some depth; `ReadsPath.of_form` — from the readings of its parts;
* `Path.wellFormed_of_readPath` — no other path than a well-formed one is read;
* `PathEncoding.decodes` — **what is written is read**, as a path or as the cells of a list;
* `readShapePath_inverts_encoding` — **so the path of a shape is the one that was written, exactly if it is
  well-formed.**
-/

namespace ShapeTypes

open Rdf

variable {g : Graph} {t : Term} {b : String}

/-! ## The kinds of node -/

namespace PathModifier

theorem predicate_ne_alternativePath (m : PathModifier) : sh "alternativePath" ≠ m.predicate := by
  cases m <;> decide +kernel

theorem predicate_ne_rdfFirst (m : PathModifier) : m.predicate ≠ rdfFirst := by
  cases m <;> decide +kernel

theorem predicate_ne_rdfRest (m : PathModifier) : m.predicate ≠ rdfRest := by
  cases m <;> decide +kernel

theorem predicate_injective {m m' : PathModifier} : m.predicate = m'.predicate → m = m' := by
  cases m <;> cases m' <;> decide +kernel

theorem of?_eq_some {n : Node} {m : PathModifier} (h : g.object? n m.predicate = some t)
    (hother : ∀ m', m' ≠ m → g.object? n m'.predicate = none) : of? g n = some (m, t) := by
  cases m <;> simp [of?, all, h, hother]

theorem of?_eq_none {n : Node} (h : ∀ m : PathModifier, g.object? n m.predicate = none) : of? g n = none := by
  simp [of?, all, h]

end PathModifier

theorem pathForm_modified {m : PathModifier} (h : g.Carries [b] (about b [(m.predicate, t)])) :
    pathForm g (.node (.blank b)) = .ok (.modified m t) := by
  have hobject := h.object?_eq (List.nodup_singleton _)
  have halternative : g.object? (.blank b) (sh "alternativePath") = none := by
    rw [hobject, lookup_cons_of_ne m.predicate_ne_alternativePath, List.lookup_nil]
  have hmodifier : PathModifier.of? g (.blank b) = some (m, t) := by
    refine PathModifier.of?_eq_some ((hobject _).trans List.lookup_cons_self) fun m' hne => ?_
    rw [hobject, lookup_cons_of_ne fun heq => hne (PathModifier.predicate_injective heq), List.lookup_nil]
  simp only [pathForm, halternative, hmodifier]

theorem pathForm_alternative {head : Term} {items : List Term}
    (h : g.Carries [b] (about b [(sh "alternativePath", head)])) (hitems : g.collection head = .ok items) :
    pathForm g (.node (.blank b)) = .ok (.alternative items) := by
  have halternative : g.object? (.blank b) (sh "alternativePath") = some head := by
    rw [h.object?_eq (List.nodup_singleton _), List.lookup_cons_self]
  simp only [pathForm, halternative, pathMembers, hitems]
  rfl

theorem nodup_cell (t rest : Term) : ([(rdfFirst, t), (rdfRest, rest)].map Prod.fst).Nodup := by
  show [rdfFirst, rdfRest].Nodup
  decide +kernel

/-- A cell. It has neither of the predicates that are looked for before its value. -/
theorem pathForm_cell {rest : Term} {items : List Term}
    (h : g.Carries [b] (about b [(rdfFirst, t), (rdfRest, rest)]))
    (hitems : g.collection (.node (.blank b)) = .ok items) :
    pathForm g (.node (.blank b)) = .ok (.sequence items) := by
  have hobject := h.object?_eq (nodup_cell t rest)
  have hother : ∀ p, p ≠ rdfFirst → p ≠ rdfRest → g.object? (.blank b) p = none := by
    intro p hfirst hrest
    rw [hobject, lookup_cons_of_ne hfirst, lookup_cons_of_ne hrest, List.lookup_nil]
  have halternative := hother (sh "alternativePath") (by decide +kernel) (by decide +kernel)
  have hmodifier : PathModifier.of? g (.blank b) = none :=
    PathModifier.of?_eq_none fun m => hother _ m.predicate_ne_rdfFirst m.predicate_ne_rdfRest
  have hfirst : g.object? (.blank b) rdfFirst = some t := (hobject _).trans List.lookup_cons_self
  simp only [pathForm, halternative, hmodifier, hfirst, pathMembers, hitems]
  rfl

/-! ## Reading at some depth -/

/-- The path at `t` is read as `p`, at some depth. -/
def Rdf.Graph.ReadsPath (g : Graph) (t : Term) (p : Path) : Prop := ∃ depth, readPath g depth t = .ok p

theorem exists_depth_of_forall₂ {ts : List Term} {ps : List Path} (h : List.Forall₂ g.ReadsPath ts ps) :
    ∃ depth, List.Forall₂ (fun t p => readPath g depth t = .ok p) ts ps := by
  induction h with
  | nil => exact ⟨0, .nil⟩
  | cons hp _ ih =>
      obtain ⟨depth, hp⟩ := hp
      obtain ⟨depth', hps⟩ := ih
      exact ⟨max depth depth', .cons (readPath_mono (Nat.le_max_left _ _) hp)
        (hps.imp fun _ _ => readPath_mono (Nat.le_max_right _ _))⟩

/-- **A term is read from the readings of its parts.** -/
theorem Rdf.Graph.ReadsPath.of_form {form : PathForm} {ps : List Path} {p : Path} (hform : pathForm g t = .ok form)
    (hparts : List.Forall₂ g.ReadsPath form.parts ps) (hmake : form.make ps = .ok p) : g.ReadsPath t p := by
  obtain ⟨depth, hparts⟩ := exists_depth_of_forall₂ hparts
  refine ⟨depth + 1, ?_⟩
  rw [readPath_succ]
  exact bind_eq_ok.2 ⟨form, hform, bind_eq_ok.2 ⟨ps, mapM_eq_ok_of_forall₂ hparts, hmake⟩⟩

/-! ## Only well-formed paths are read -/

theorem PathForm.wellFormed_of_make {form : PathForm} {ps : List Path} {p : Path} (h : form.make ps = .ok p)
    (hps : ∀ q ∈ ps, q.WellFormed) : p.WellFormed := by
  unfold make at h
  split at h
  case h_1 =>
    cases h
    exact Path.wellFormed_predicate _
  case h_2 =>
    cases h
    exact (Path.wellFormed_modified _ _).2 (hps _ List.mem_cons_self)
  case h_3 => cases h
  case h_4 =>
    cases h
    exact (Path.wellFormed_alternative _).2 hps
  case h_5 =>
    split at h
    · cases h
    · rename_i hlength
      cases h
      exact (Path.wellFormed_sequence _).2 ⟨Nat.le_of_not_lt hlength, hps⟩

/-- **No other path than a well-formed one is read.** -/
theorem Path.wellFormed_of_readPath {depth : Nat} {p : Path} (h : readPath g depth t = .ok p) : p.WellFormed := by
  induction depth generalizing t p with
  | zero => cases h
  | succ depth ih =>
      rw [readPath_succ] at h
      obtain ⟨form, -, h⟩ := bind_eq_ok.1 h
      obtain ⟨ps, hps, hmake⟩ := bind_eq_ok.1 h
      refine PathForm.wellFormed_of_make hmake fun q hq => ?_
      obtain ⟨u, -, hu⟩ := exists_of_mem_forall₂ (forall₂_of_mapM_eq_ok hps).flip hq
      exact ih hu

/-! ## Reading what is written -/

/-- A blank node that is a cell of a list and nothing else. -/
def Rdf.Graph.IsListCell (g : Graph) (n : Node) : Prop :=
  ∃ b t rest, n = .blank b ∧ g.Carries [b] (about b [(rdfFirst, t), (rdfRest, rest)])

theorem Rdf.Graph.IsListCell.isSingleCell {n : Node} (h : g.IsListCell n) : g.IsSingleCell n := by
  obtain ⟨b, t, rest, rfl, h⟩ := h
  exact ⟨h.isSingleAt (nodup_cell t rest) rdfFirst, h.isSingleAt (nodup_cell t rest) rdfRest⟩

theorem Rdf.Graph.Cells.collection_eq {head : Term} {cells : List Node} {items : List Term}
    (h : g.Cells head cells items rdfNil.term) (hcells : ∀ n ∈ cells, g.IsListCell n) :
    g.collection head = .ok items := by
  refine Graph.collection_of_cells (fun n hn => (hcells n hn).isSingleCell) h fun hnil => ?_
  obtain ⟨b, t, rest, hblank, -⟩ := hcells _ hnil
  cases hblank

/-- What is written can be read back. -/
def Written.WellFormed : Written → Prop
  | path p => p.WellFormed
  | list ps => ∀ p ∈ ps, p.WellFormed

/-- A term is read as what is written: as a path, or as the cells of a list whose values are read as paths. -/
def Rdf.Graph.Decodes (g : Graph) (t : Term) : Written → Prop
  | .path p => g.ReadsPath t p
  | .list ps => ∃ cells items, g.Cells t cells items rdfNil.term ∧ (∀ n ∈ cells, g.IsListCell n) ∧
      List.Forall₂ g.ReadsPath items ps

/-- **What is written is read.** -/
theorem PathEncoding.decodes {w : Written} {labels : List String} {triples : List Triple}
    (h : PathEncoding w t labels triples) (hw : w.WellFormed) (hd : labels.Nodup) (hg : g.Carries labels triples) :
    g.Decodes t w := by
  induction h with
  | predicate i => exact ⟨1, rfl⟩
  | modified m b hp ih =>
      obtain ⟨hnode, hrest⟩ := hg.append hd (owned_about b _) hp.owned
      have hread := ih ((Path.wellFormed_modified _ _).1 hw) (List.nodup_append.1 hd).2.1 hrest
      exact .of_form (pathForm_modified hnode) (.cons hread .nil) rfl
  | alternative b hps ih =>
      obtain ⟨hnode, hrest⟩ := hg.append hd (owned_about b _) hps.owned
      obtain ⟨cells, items, hchain, hcells, hread⟩ :=
        ih ((Path.wellFormed_alternative _).1 hw) (List.nodup_append.1 hd).2.1 hrest
      exact .of_form (pathForm_alternative hnode (hchain.collection_eq hcells)) hread rfl
  | sequence hps ih =>
      obtain ⟨hlength, hall⟩ := (Path.wellFormed_sequence _).1 hw
      obtain ⟨cells, items, hchain, hcells, hread⟩ := ih hall hd hg
      have hitems := hchain.collection_eq hcells
      -- A list of two members has a first cell, and this is the node of the path.
      cases hchain with
      | nil =>
          cases hread
          cases hlength
      | cons hfirst hrest hchain =>
          obtain ⟨b, t, rest, rfl, hnode⟩ := hcells _ List.mem_cons_self
          exact .of_form (pathForm_cell hnode hitems) hread (if_neg (Nat.not_lt.2 hlength))
  | nil => exact ⟨[], [], .nil _, nofun, .nil⟩
  | cons b hp hps ihp ihps =>
      obtain ⟨hnode, hboth⟩ := hg.append hd (owned_about b _) (hp.owned.append hps.owned)
      have hd' := (List.nodup_append.1 hd).2.1
      obtain ⟨hfirst, hrest⟩ := hboth.append hd' hp.owned hps.owned
      obtain ⟨hwp, hwps⟩ := List.forall_mem_cons.1 hw
      have hread := ihp hwp (List.nodup_append.1 hd').1 hfirst
      obtain ⟨cells, items, hchain, hcells, hreads⟩ := ihps hwps (List.nodup_append.1 hd').2.1 hrest
      refine ⟨.blank b :: cells, _ :: items, .cons ?_ ?_ hchain, ?_, .cons hread hreads⟩
      · exact hnode.mem_triples_iff.2 List.mem_cons_self
      · exact hnode.mem_triples_iff.2 (List.mem_cons_of_mem _ List.mem_cons_self)
      · exact List.forall_mem_cons.2 ⟨⟨b, _, _, rfl, hnode⟩, hcells⟩

/-! ## The path of a shape -/

theorem readShapePath_eq_ok {id : Node} {p : Path} :
    readShapePath g id t = .ok p ↔ readPath g g.pathDepth t = .ok p := by
  unfold readShapePath
  split <;> rename_i h <;> simp [h, Load.fault]

/-- **Every path can be written, and is read as it is written exactly if it is well-formed**: whatever labels are chosen
for its nodes, as long as they differ, and whatever else the graph holds, as long as it is about other nodes. -/
theorem readShapePath_inverts_encoding (p : Path) : (Written.path p).Writable ∧
    ∀ (g : Graph) (id : Node) (t : Term) (labels : List String) (triples : List Triple),
      PathEncoding (.path p) t labels triples → labels.Nodup → g.Carries labels triples →
        (readShapePath g id t = .ok p ↔ p.WellFormed) := by
  refine ⟨exists_pathEncoding p, fun g id t labels triples h hd hg => ?_⟩
  rw [readShapePath_eq_ok]
  constructor
  · exact Path.wellFormed_of_readPath
  · intro hw
    obtain ⟨depth, hread⟩ : g.ReadsPath t p := h.decodes hw hd hg
    exact readPath_pathDepth_of_ok hread

/-- One step, any number of steps back, then one of two. -/
def chainPath : Path :=
  .sequence [.predicate ⟨"ex:a"⟩, .zeroOrMore (.inverse (.predicate ⟨"ex:b"⟩)),
    .alternative [.predicate ⟨"ex:c"⟩, .predicate ⟨"ex:d"⟩]]

/-- The triples that write it: three cells, a node for each kind of path, and two cells more. -/
def chainTriples : List Triple := [
  ⟨.blank "x", rdfFirst, .node (.iri ⟨"ex:a"⟩)⟩, ⟨.blank "x", rdfRest, .node (.blank "y")⟩,
  ⟨.blank "y", rdfFirst, .node (.blank "many")⟩, ⟨.blank "y", rdfRest, .node (.blank "z")⟩,
  ⟨.blank "many", sh "zeroOrMorePath", .node (.blank "back")⟩,
  ⟨.blank "back", sh "inversePath", .node (.iri ⟨"ex:b"⟩)⟩,
  ⟨.blank "z", rdfFirst, .node (.blank "or")⟩, ⟨.blank "z", rdfRest, rdfNil.term⟩,
  ⟨.blank "or", sh "alternativePath", .node (.blank "u")⟩,
  ⟨.blank "u", rdfFirst, .node (.iri ⟨"ex:c"⟩)⟩, ⟨.blank "u", rdfRest, .node (.blank "v")⟩,
  ⟨.blank "v", rdfFirst, .node (.iri ⟨"ex:d"⟩)⟩, ⟨.blank "v", rdfRest, rdfNil.term⟩]

/-- They stand in a graph with a property that has the path, and another one whose path is written beside it. -/
def chainGraph : Graph := ⟨chainTriples ++ [
  ⟨.iri ⟨"ex:chain"⟩, sh "path", .node (.blank "x")⟩, ⟨.iri ⟨"ex:parent"⟩, sh "path", .node (.blank "p")⟩,
  ⟨.blank "p", sh "inversePath", .node (.iri ⟨"ex:child"⟩)⟩]⟩

/-- The path is well-formed and written with labels that differ; so it is read. -/
theorem readShapePath_chain :
    PathEncoding (.path chainPath) (.node (.blank "x")) ["x", "y", "many", "back", "z", "or", "u", "v"] chainTriples ∧
    chainGraph.Carries ["x", "y", "many", "back", "z", "or", "u", "v"] chainTriples ∧
    readShapePath chainGraph (.iri ⟨"ex:chain"⟩) (.node (.blank "x")) = .ok chainPath := by
  have hwritten : PathEncoding (.path chainPath) (.node (.blank "x"))
      ["x", "y", "many", "back", "z", "or", "u", "v"] chainTriples := by
    have hback := PathEncoding.modified .inverse "back" (.predicate ⟨"ex:b"⟩)
    have hmany := PathEncoding.modified .zeroOrMore "many" hback
    have hmembers := PathEncoding.cons "u" (.predicate ⟨"ex:c"⟩) (.cons "v" (.predicate ⟨"ex:d"⟩) .nil)
    have hlist := PathEncoding.cons "x" (.predicate ⟨"ex:a"⟩)
      (.cons "y" hmany (.cons "z" (.alternative "or" hmembers) .nil))
    exact .sequence hlist
  have hcarries : chainGraph.Carries ["x", "y", "many", "back", "z", "or", "u", "v"] chainTriples :=
    ⟨List.subset_append_left _ _, by decide +kernel⟩
  have hwellFormed : chainPath.WellFormed := by simp [chainPath, Path.WellFormed, Path.AllWellFormed]
  obtain ⟨-, hread⟩ := readShapePath_inverts_encoding chainPath
  exact ⟨hwritten, hcarries, (hread _ _ _ _ _ hwritten (by decide +kernel) hcarries).2 hwellFormed⟩

end ShapeTypes
