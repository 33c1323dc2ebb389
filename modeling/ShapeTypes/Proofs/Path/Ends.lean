import ShapeTypes.Proofs.Lookup
import ShapeTypes.Proofs.Path.Form

/-!
# When reading a path ends

Reading descends into the parts of a path, and nothing remembers the nodes it came through.

* `readPath_of_le` — a depth that suffices leaves nothing to a greater one;
* `Rdf.Graph.PathAsks` — to read the path at one term is to read the one at another;
  `readPath_succ_eq_tooDeep` — **one step: what is too deep asks for what is too deep for one depth less**;
* `Rdf.Graph.PathLoops` — asking comes back to where it was;
* `readPath_pathDepth_eq_tooDeep` — **the depth that is used is too small exactly for these terms**, since among more
  terms than triples one is met again;
* `pathLoops_iff` — **and so is every other depth**; `readPath_pathDepth_of_ok` — what any depth reads, that one does.
-/

namespace ShapeTypes

open Rdf Relation

variable {g : Graph} {t u : Term} {depth : Nat}

/-! ## Depths that suffice -/

theorem readPath_add_one (depth : Nat) (t : Term) (h : readPath g depth t ≠ .error .tooDeep) :
    readPath g (depth + 1) t = readPath g depth t := by
  induction depth generalizing t with
  | zero => exact absurd rfl h
  | succ depth ih =>
      rw [readPath_succ] at h ⊢
      rw [readPath_succ depth]
      cases hform : pathForm g t with
      | error e => rfl
      | ok form =>
          -- What is made of the parts is the same, so it is enough that they are read alike.
          have hparts : form.parts.mapM (readPath g depth) ≠ .error .tooDeep := by
            intro hparts
            exact h (bind_eq_error.2 (Or.inr ⟨form, hform, bind_eq_error.2 (Or.inl hparts)⟩))
          have heq := mapM_eq_of_ne_error (fun part _ => ih part) hparts
          show (form.parts.mapM (readPath g (depth + 1)) >>= form.make) = _
          rw [heq]
          rfl

theorem readPath_of_le {depth' : Nat} (hle : depth ≤ depth') (h : readPath g depth t ≠ .error .tooDeep) :
    readPath g depth' t = readPath g depth t := by
  induction depth', hle using Nat.le_induction with
  | base => rfl
  | succ depth' _ ih => rw [readPath_add_one depth' t (ih ▸ h), ih]

theorem readPath_mono {depth' : Nat} {p : Path} (hle : depth ≤ depth') (h : readPath g depth t = .ok p) :
    readPath g depth' t = .ok p := by
  rw [readPath_of_le hle (by rw [h]; nofun), h]

/-- Two depths that suffice read the same. -/
theorem readPath_eq_of_ne_tooDeep {depth' : Nat} (h : readPath g depth t ≠ .error .tooDeep)
    (h' : readPath g depth' t ≠ .error .tooDeep) : readPath g depth t = readPath g depth' t := by
  rcases Nat.le_total depth depth' with hle | hle
  · exact (readPath_of_le hle h).symm
  · exact readPath_of_le hle h'

/-! ## One step -/

/-- To read the path at `t`, the one at `u` is read: `u` is a part of it, and those before it are readable. -/
def Rdf.Graph.PathAsks (g : Graph) (t u : Term) : Prop :=
  ∃ form before after, pathForm g t = .ok form ∧ form.parts = before ++ u :: after ∧
    ∀ v ∈ before, ∃ depth p, readPath g depth v = .ok p

/-- What is read already at some depth is read at this one, unless it is too deep. -/
theorem readPath_eq_ok_or_tooDeep {v : Term} (h : ∃ depth p, readPath g depth v = .ok p) (depth : Nat) :
    (∃ p, readPath g depth v = .ok p) ∨ readPath g depth v = .error .tooDeep := by
  obtain ⟨depth', p, hp⟩ := h
  by_cases hdeep : readPath g depth v = .error .tooDeep
  · exact Or.inr hdeep
  · have hok : readPath g depth' v ≠ .error .tooDeep := by
      rw [hp]
      nofun
    exact Or.inl ⟨p, (readPath_eq_of_ne_tooDeep hdeep hok).trans hp⟩

/-- **What is too deep asks for what is too deep for one depth less.** -/
theorem readPath_succ_eq_tooDeep : readPath g (depth + 1) t = .error .tooDeep ↔
    ∃ u, g.PathAsks t u ∧ readPath g depth u = .error .tooDeep := by
  rw [readPath_succ]
  constructor
  · intro h
    rcases bind_eq_error.1 h with hform | ⟨form, hform, h⟩
    · exact absurd hform (pathForm_ne_tooDeep g t)
    rcases bind_eq_error.1 h with hparts | ⟨ps, -, hmake⟩
    · obtain ⟨before, u, after, heq, hbefore, hu⟩ := mapM_eq_error.1 hparts
      exact ⟨u, ⟨form, before, after, hform, heq, fun v hv => ⟨depth, hbefore v hv⟩⟩, hu⟩
    · exact absurd hmake (form.make_ne_tooDeep ps)
  · rintro ⟨u, ⟨form, before, after, hform, heq, hbefore⟩, hu⟩
    refine bind_eq_error.2 (Or.inr ⟨form, hform, bind_eq_error.2 (Or.inl ?_)⟩)
    rw [heq]
    exact mapM_append_eq_error (fun v hv => readPath_eq_ok_or_tooDeep (hbefore v hv) depth) hu

/-- Only subjects ask. -/
theorem Rdf.Graph.PathAsks.mem_subjects (h : g.PathAsks t u) : t ∈ g.triples.map fun s => .node s.subject := by
  obtain ⟨form, before, after, hform, heq, -⟩ := h
  have hu : u ∈ form.parts := heq ▸ List.mem_append_right _ List.mem_cons_self
  obtain ⟨n, p, o, rfl, ho⟩ := exists_object?_of_mem_parts hform hu
  exact List.mem_map.2 ⟨_, Graph.mem_triples_of_object? ho, rfl⟩

/-! ## Reading that comes back -/

/-- Reading the path at `t` comes to a term that it comes back to. -/
def Rdf.Graph.PathLoops (g : Graph) (t : Term) : Prop :=
  ∃ u, ReflTransGen g.PathAsks t u ∧ TransGen g.PathAsks u u

/-- A term that leads back to itself asks for another one of which that is true. -/
theorem Rdf.Graph.PathLoops.exists_asks (h : g.PathLoops t) : ∃ u, g.PathAsks t u ∧ g.PathLoops u := by
  obtain ⟨v, htv, hvv⟩ := h
  rcases htv.cases_head with rfl | ⟨u, htu, huv⟩
  · obtain ⟨u, htu, hut⟩ := TransGen.head'_iff.1 hvv
    exact ⟨u, htu, t, hut, hvv⟩
  · exact ⟨u, htu, v, huv, hvv⟩

/-- **No depth suffices for a term that leads to a cycle.** -/
theorem Rdf.Graph.PathLoops.readPath_eq_tooDeep (h : g.PathLoops t) (depth : Nat) :
    readPath g depth t = .error .tooDeep := by
  induction depth generalizing t with
  | zero => rfl
  | succ depth ih =>
      obtain ⟨u, htu, hu⟩ := h.exists_asks
      exact readPath_succ_eq_tooDeep.2 ⟨u, htu, ih hu⟩

/-- The terms that reading comes through when it is too deep: one for each depth, each asked for by the one before
it. -/
theorem exists_asking (h : readPath g depth t = .error .tooDeep) : ∃ asking : List Term,
    asking.length = depth ∧ asking.IsChain g.PathAsks ∧ (∀ u ∈ asking.head?, u = t) ∧
      asking ⊆ g.triples.map fun s => .node s.subject := by
  induction depth generalizing t with
  | zero => exact ⟨[], rfl, .nil, nofun, List.nil_subset _⟩
  | succ depth ih =>
      obtain ⟨u, htu, hu⟩ := readPath_succ_eq_tooDeep.1 h
      obtain ⟨asking, hlength, hchain, hhead, hsubjects⟩ := ih hu
      refine ⟨t :: asking, by rw [List.length_cons, hlength], ?_, ?_, ?_⟩
      · refine List.isChain_cons.2 ⟨fun v hv => ?_, hchain⟩
        rwa [hhead v hv]
      · rintro v ⟨⟩
        rfl
      · exact List.cons_subset.2 ⟨htu.mem_subjects, hsubjects⟩

/-- **The depth that is used is too small for nothing else.** Among more terms than triples one is met again. -/
theorem pathLoops_of_tooDeep (h : readPath g g.pathDepth t = .error .tooDeep) : g.PathLoops t := by
  obtain ⟨asking, hlength, hchain, hhead, hsubjects⟩ := exists_asking h
  refine exists_round_of_isChain hchain hhead hsubjects ?_
  rw [List.length_map, hlength]
  exact Nat.lt_succ_self g.size

/-- **Reading comes back exactly if no depth suffices**; then the one that is used does not. -/
theorem pathLoops_iff : g.PathLoops t ↔ ∀ depth, readPath g depth t = .error .tooDeep :=
  ⟨fun h => h.readPath_eq_tooDeep, fun h => pathLoops_of_tooDeep (h _)⟩

theorem readPath_pathDepth_eq_tooDeep : readPath g g.pathDepth t = .error .tooDeep ↔ g.PathLoops t :=
  ⟨pathLoops_of_tooDeep, fun h => h.readPath_eq_tooDeep _⟩

/-- **The depth that is used reads whatever any depth reads.** -/
theorem readPath_pathDepth_of_ok {p : Path} (h : readPath g depth t = .ok p) : readPath g g.pathDepth t = .ok p := by
  have hok : readPath g depth t ≠ .error .tooDeep := by
    rw [h]
    nofun
  have hdeep : readPath g g.pathDepth t ≠ .error .tooDeep := fun hdeep =>
    hok ((pathLoops_of_tooDeep hdeep).readPath_eq_tooDeep depth)
  rw [readPath_eq_of_ne_tooDeep hdeep hok, h]

end ShapeTypes
