import ShapeTypes.Inference.Infer
import ShapeTypes.Proofs.Arena.Description
import ShapeTypes.Proofs.Inference.Final
import ShapeTypes.Proofs.Inference.Refusals

/-!
# Inference with a log

Whenever a shape is resolved, a log may describe what it was resolved to. That is a step of inference like others: it
does not end if lists never end.

* `ShapesGraph.IsListOf` — a shape is a list of the items of another one;
* `Lawful.exists_isListOf_cycle` — **if lists never end, a shape is a list of itself**, perhaps through others;
* `LoggedWithoutEnd` — so describing a shape that is resolved goes on for ever;
* `alike_resolveLogged`, `alike_resolveAllLogged` — **apart from that, shapes are resolved alike with a log and without
  one**.
-/

namespace ShapeTypes

open Rdf Relation Infer

variable {graph : ShapesGraph} {strict : Bool}

/-! ## Lists of lists -/

/-- A list shape that refers to a shape has the items of that one, or of the one that it stands in for, directly or
through others. -/
def ShapesGraph.IsListOf (graph : ShapesGraph) (id items : Node) : Prop :=
  ∃ shape target, graph.shape? id = some shape ∧ shape.isList = true ∧ shape.constraints.nodes = [target] ∧
    ReflTransGen graph.StandsInFor target items

theorem ShapesGraph.IsListOf.refers {id items : Node} (h : graph.IsListOf id items) :
    TransGen graph.Refers id items := by
  obtain ⟨shape, target, hs, -, hnodes, hpath⟩ := h
  have hrefers : graph.Refers id target := .of_nodes hs (by simp [hnodes])
  exact .head' hrefers (ReflTransGen.mono (fun _ _ => ShapesGraph.refers_of_standIn?) _ _ hpath)

/-- **The items of a shape are in a slot of its own**, or in that of a shape that it stands in for. -/
theorem History.exists_holder {m : Memo} (h : History graph m) (all : Memo) (hsub : m ⊆ all)
    (hown : ∀ id use, (id, .resolved use) ∈ all → graph.standIn? id = none →
      ∃ c, (id, .resolving use.item c) ∈ all) {id : Node} {use : TypeUse} (hmem : (id, .resolved use) ∈ m) :
    ∃ holder, ReflTransGen graph.StandsInFor id holder ∧ ∃ c, (holder, .resolving use.item c) ∈ all := by
  induction h generalizing id use with
  | nil => cases hmem
  | enter hm hl ih =>
      obtain ⟨-, hsub⟩ := List.cons_subset.1 hsub
      exact ih hsub ((List.mem_cons.1 hmem).resolve_left nofun)
  | @leave m id use slot c hm hl hd ih =>
      obtain ⟨-, hsub'⟩ := List.cons_subset.1 hsub
      rcases List.mem_cons.1 hmem with heq | hmem
      · cases heq
        cases hs : graph.standIn? id with
        | none => exact ⟨id, .refl, hown id use (hsub List.mem_cons_self) hs⟩
        | some target =>
            have hleft : ∀ {use' : TypeUse}, (target, .resolved use') ∈ m → use.item = use'.item → ∃ holder,
                ReflTransGen graph.StandsInFor id holder ∧ ∃ c, (holder, .resolving use.item c) ∈ all := by
              intro use' hmem hitem
              obtain ⟨holder, hpath, hh⟩ := ih hsub' hmem
              exact ⟨holder, .head hs hpath, hitem ▸ hh⟩
            cases hd target hs with
            | @known slot c p before hl' hitem =>
                cases p with
                | resolving slot' c' =>
                    refine ⟨target, .single hs, c', ?_⟩
                    rw [hitem]
                    exact hsub' (mem_of_lookup hl')
                | resolved use' => exact hleft (mem_of_lookup hl') hitem
            | fresh hitem => exact hleft List.mem_cons_self hitem
      · exact ih hsub' hmem

namespace Lawful

variable {s : InferenceState} {x y z : Slot}

/-- A slot that stands for a shape is one of that shape, or of one that it stands in for. -/
theorem exists_holder (h : Lawful graph s) (hh : History graph s.memo) {id : Node} (hd : s.Denotes x id) :
    ∃ holder, ReflTransGen graph.StandsInFor id holder ∧ s.Holds holder x := by
  rcases hd with hx | ⟨use, hdone, rfl⟩
  · exact ⟨id, .refl, hx⟩
  · refine hh.exists_holder s.memo (List.Subset.refl _) (fun id use hmem hs => ?_)
      (InferenceState.mem_memo_of_progress? hdone)
    obtain ⟨slot, next, shape, name, finding, hb⟩ := h.built id use (h.resolved id use hmem)
    exact hb.item_eq_slot hs ▸ hb.holds

/-- What is behind a list is none. -/
theorem item?_of_behindList {c : Content} (h : BehindList graph s x c) : c.item? = none := by
  obtain ⟨_, _, _, _, _, hb, hc⟩ := h
  refine Option.eq_none_iff_forall_ne_some.2 fun y hy => ?_
  exact (hb.exists_edge_inner hc (Content.mem_edges_of_item? hy)).1 rfl

/-- **A list of items that are lists themselves** belongs to a shape that is a list of the items of theirs. -/
theorem exists_isListOf (h : Lawful graph s) (hh : History graph s.memo) (hxy : Arena.ListsOver s.slots x y)
    (hyz : Arena.ListsOver s.slots y z) : ∃ id items, s.Holds id x ∧ s.Holds items y ∧ graph.IsListOf id items := by
  obtain ⟨c, hc, hitem⟩ := hxy
  obtain ⟨d, hd, hitem'⟩ := hyz
  have hnotBehind : ∀ {x y : Slot} {c : Content}, c.item? = some y → ¬ BehindList graph s x c := by
    intro x y c hitem hbehind
    cases hitem.symm.trans (item?_of_behindList hbehind)
  have hx : s.Holds c.shape x := (h.covered x c hc).resolve_right (hnotBehind hitem)
  rcases h.progress?_of_holds hx with ⟨_, hp⟩ | ⟨use, hdone⟩
  · -- The place for a shape that is being resolved is no list.
    rw [Option.some.inj (hc.symm.trans (h.reserved _ _ _ hp))] at hitem
    cases hitem
  obtain ⟨slot, next, shape, name, finding, hb⟩ := h.built _ use hdone
  cases h.unique _ _ _ hb.holds hx
  cases hs : graph.standIn? c.shape with
  | some target =>
      rw [Option.some.inj (hc.symm.trans (hb.own_of_standIn? (Option.isSome_of_eq_some hs)))] at hitem
      cases hitem
  | none =>
      have hlaid := hb.laidOut hs
      rw [hb.item_eq_slot hs] at hlaid
      cases hlaid with
      | item _ hfits hslot =>
          cases hc.symm.trans hslot
          exact absurd rfl (hfits.exists_edge (Content.mem_edges_of_item? hitem)).1
      | list hl hfits hslot hnext =>
          -- The items are the type of the shape itself.
          cases hc.symm.trans hslot
          cases hitem
          cases hd.symm.trans hnext
          exact absurd rfl (hfits.exists_edge (Content.mem_edges_of_item? hitem')).1
      | @listOf target _ hl _ hnodes hdenotes hslot =>
          cases hc.symm.trans hslot
          cases hitem
          obtain ⟨holder, hpath, hholds⟩ := h.exists_holder hh hdenotes
          exact ⟨_, holder, hx, hholds, shape, target, hb.found, hl, hnodes, hpath⟩

theorem exists_isListOf_path (h : Lawful graph s) (hh : History graph s.memo)
    (hxy : TransGen (Arena.ListsOver s.slots) x y) (hyz : Arena.ListsOver s.slots y z) :
    ∃ id items, s.Holds id x ∧ s.Holds items y ∧ TransGen graph.IsListOf id items := by
  induction hxy generalizing z with
  | single hxy =>
      obtain ⟨id, items, hx, hy, hlist⟩ := h.exists_isListOf hh hxy hyz
      exact ⟨id, items, hx, hy, .single hlist⟩
  | tail _ hstep ih =>
      obtain ⟨id, between, hx, hw, hpath⟩ := ih hstep
      obtain ⟨between', items, hw', hy, hlist⟩ := h.exists_isListOf hh hstep hyz
      cases h.eq_of_holds hw hw'
      exact ⟨id, items, hx, hy, hpath.tail hlist⟩

/-- **If lists never end, a shape is a list of itself**, perhaps through others. -/
theorem exists_isListOf_cycle (h : Lawful graph s) (hh : History graph s.memo) (hx : Arena.NeverEnds s.slots x) :
    ∃ id, TransGen graph.IsListOf id id := by
  obtain ⟨y, -, hround⟩ := hx
  obtain ⟨z, hyz, -⟩ := TransGen.head'_iff.1 hround
  obtain ⟨id, items, hy, hy', hpath⟩ := h.exists_isListOf_path hh hround hyz
  cases h.eq_of_holds hy hy'
  exact ⟨id, hpath⟩

end Lawful

/-! ## The log -/

/-- Describing a shape that is resolved does not end, and a shape is a list of itself. -/
def LoggedWithoutEnd (graph : ShapesGraph) (e : InferenceError) : Prop :=
  (∃ id, e = .invariant id .endlessDescription) ∧ ∃ id, TransGen graph.IsListOf id id

/-- A description changes nothing if it ends. -/
theorem alike_logResolved {s t : InferenceState} {E : InferenceError → Prop} {id : Node} {use : TypeUse}
    (h : Lawful graph s) (hh : History graph s.memo) (hslots : t.slots = s.slots) :
    Alike (LoggedWithoutEnd graph) E t (logResolved id use >>= fun _ => pure use) (pure use) := by
  cases hdescribed : t.slots.describe? t.names.record use.item with
  | some text =>
      have hrun : (logResolved id use >>= fun _ => pure use).run t = (pure use : Infer TypeUse).run t := by
        simp [logResolved, hdescribed]
      exact ⟨Or.inl hrun, fun _ he => absurd he not_fails_pure⟩
  | none =>
      have hfails : (logResolved id use >>= fun _ => pure use).Fails t (.invariant id .endlessDescription) := by
        simp [logResolved, hdescribed]
      rw [Arena.describe?_eq_none_iff, hslots] at hdescribed
      exact ⟨Or.inr ⟨_, hfails, ⟨id, rfl⟩, h.exists_isListOf_cycle hh hdescribed⟩,
        fun _ he => absurd he not_fails_pure⟩

/-- **A shape is resolved alike with a log of all that is resolved within it**, unless describing one of these does
not end. -/
theorem alike_resolveLogged : ∀ (n : Nat) {nest : List Node}, graph.size < nest.length + n →
    AlikeWithin (LoggedWithoutEnd graph) graph nest (resolveLogged graph strict n) (resolveWithin graph strict n)
  | 0, _, hn, _, _, ha => by
    have := ha.toNested.length_le
    omega
  | n + 1, nest, hn, r, s, ha => by
    have hanswers := answers_resolveWithin graph strict n
    have hdeeper : AlikeWithin (LoggedWithoutEnd graph) graph (r.id :: nest) (resolveLogged graph strict n)
        (resolveWithin graph strict n) := by
      refine alike_resolveLogged n ?_
      simp only [List.length_cons]
      omega
    have hpure : resolveWithin graph strict (n + 1) r.id =
        resolveOnce graph strict (resolveWithin graph strict n) r.id >>= pure := (bind_pure _).symm
    rw [hpure]
    refine .get_left ((alike_resolveOnce hanswers ha fun _ => hdeeper).bind fun use t ht => ?_)
    by_cases hnew : (s.progress? r.id).isNone = true
    · rw [InferenceState.progress?_scopes, if_pos hnew]
      rw [Option.isNone_iff_eq_none] at hnew
      obtain ⟨-, hv⟩ := answers_resolveOnce hanswers r s use t (Or.inr hnew) ht
      have hnested : Nested graph nest (r.answered graph s.scopes t) := ha.toNested.visit (hv _ _ _ .nil)
      exact alike_logResolved hnested.lawful hnested.history rfl
    · rw [InferenceState.progress?_scopes, if_neg hnew]
      exact .pure

/-- **All shapes are resolved alike with a log and without one**, unless a description does not end. -/
theorem alike_resolveAllLogged {names : NameBook} : Alike (LoggedWithoutEnd graph) (Refusal graph) { names }
    (resolveAllLogged graph strict) (resolveAll graph strict) := by
  have halike : AlikeWithin (LoggedWithoutEnd graph) graph [] (resolveLogged graph strict (graph.size + 1))
      (resolveWithin graph strict (graph.size + 1)) := by
    refine alike_resolveLogged _ ?_
    simp only [List.length_nil]
    omega
  refine .forM (J := AtRest graph) (fun id hid s hs => ?_) ⟨.empty, rfl⟩
  obtain ⟨hroot, hrest⟩ := alike_root (answers_resolveWithin graph strict _) halike hid hs
  refine ⟨hroot.bind fun _ _ _ => .pure, fun u t h => ?_⟩
  obtain ⟨use, t', ht, hret⟩ := gives_bind.1 h
  obtain ⟨-, rfl⟩ := gives_pure.1 hret
  exact hrest use _ ht

end ShapeTypes
