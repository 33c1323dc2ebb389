import ShapeTypes.Inference.Infer
import ShapeTypes.Proofs.Cardinality
import ShapeTypes.Proofs.Default
import ShapeTypes.Proofs.Inference.Run

/-!
# Strict and lenient runs

A strict run does what the lenient run does, up to the first default that only strict coercion refuses.

* `InferenceError.Waives` — the refusal of a default, with the cardinality that lenient mode gives the shape;
  `InferenceError.WaivedIn` — the shape was resolved with that cardinality;
* `Infer.RelaxedUpTo` — a computation does the same as another one, or refuses what the other one waives, or is
  about to; `Infer.Relaxed` — it waived it already;
* `RelaxedUpTo.bind`, `Relaxed.mapM`, … — sequences of such computations;
* `relaxed_referredSlot`, …, `relaxed_resolveFirst` — the parts of resolving a shape, given that the shapes it
  asks for are resolved so;
* `relaxed_resolveAll` — **so are all shapes.**
-/

namespace ShapeTypes

open Rdf Infer

/-- The refusal of a default of a shape, with the cardinality that the shape has without strictness. -/
def InferenceError.Waives (e : InferenceError) (id : Node) (c : Cardinality) : Prop :=
  ∃ term target cause d, e = .malformed id (.default cause) ∧ Waived term target cause d ∧ c = .plain (some d)

/-- The shape that is refused was resolved, with the cardinality that it has without strictness. -/
def InferenceError.WaivedIn (e : InferenceError) (s : InferenceState) : Prop :=
  ∃ id use, e.Waives id use.cardinality ∧ (id, .resolved use) ∈ s.memo

theorem InferenceError.WaivedIn.mono {e : InferenceError} {s t : InferenceState} (h : e.WaivedIn s)
    (hst : s.memo ⊆ t.memo) : e.WaivedIn t := by
  obtain ⟨id, use, hw, hmem⟩ := h
  exact ⟨id, use, hw, hst hmem⟩

namespace Infer

variable {α β : Type}

/-- Two computations do the same, or the first refuses what the second waives: if the second ends with a value,
then what was refused is waived in its state, or `Q` says that this is still to come. -/
structure RelaxedUpTo (Q : InferenceError → α → Prop) (x y : Infer α) : Prop where
  keeps : ∀ {s a t}, y.Gives s a t → s.memo ⊆ t.memo
  agrees : ∀ s, x.run s = y.run s ∨ ∃ e, x.Fails s e ∧ ∀ a t, y.Gives s a t → e.WaivedIn t ∨ Q e a

/-- Two computations do the same, or the first refuses what the second waives. -/
abbrev Relaxed (x y : Infer α) : Prop := RelaxedUpTo (fun _ _ => False) x y

theorem RelaxedUpTo.refl {Q : InferenceError → α → Prop} {x : Infer α}
    (h : ∀ {s a t}, x.Gives s a t → t.memo = s.memo) : RelaxedUpTo Q x x where
  keeps hx _ hmem := (h hx).symm ▸ hmem
  agrees _ := Or.inl rfl

/-! ## Sequences -/

/-- **Sequences**: what the first part is about to waive is waived at the end of the second part, or the whole is
about to waive it. -/
theorem RelaxedUpTo.bind {P : InferenceError → α → Prop} {Q : InferenceError → β → Prop} {x y : Infer α}
    {f g : α → Infer β} (hx : RelaxedUpTo P x y) (hf : ∀ a, RelaxedUpTo Q (f a) (g a))
    (hq : ∀ e a s b t, P e a → (g a).Gives s b t → e.WaivedIn t ∨ Q e b) :
    RelaxedUpTo Q (x >>= f) (y >>= g) where
  keeps h := by
    obtain ⟨a, u, hy, hg⟩ := gives_bind.1 h
    exact List.Subset.trans (hx.keeps hy) ((hf a).keeps hg)
  agrees s := by
    rcases hx.agrees s with hsame | ⟨e, hfails, hwaived⟩
    · cases hy : y.run s with
      | error e =>
          refine Or.inl ?_
          rw [StateT.run_bind, StateT.run_bind, hsame, hy]
          rfl
      | ok r =>
          obtain ⟨a, u⟩ := r
          rcases (hf a).agrees u with hsame' | ⟨e, hfails, hwaived⟩
          · refine Or.inl ?_
            rw [StateT.run_bind, StateT.run_bind, hsame, hy]
            exact hsame'
          · refine Or.inr ⟨e, fails_bind.2 (Or.inr ⟨a, u, hsame.trans hy, hfails⟩), fun b t h => ?_⟩
            obtain ⟨a', u', hy', hg⟩ := gives_bind.1 h
            cases hy.symm.trans hy'
            exact hwaived b t hg
    · refine Or.inr ⟨e, fails_bind.2 (Or.inl hfails), fun b t h => ?_⟩
      obtain ⟨a, u, hy, hg⟩ := gives_bind.1 h
      rcases hwaived a u hy with hw | hp
      · exact Or.inl (hw.mono ((hf a).keeps hg))
      · exact hq e a u b t hp hg

theorem Relaxed.bind {Q : InferenceError → β → Prop} {x y : Infer α} {f g : α → Infer β}
    (hx : Relaxed x y) (hf : ∀ a, RelaxedUpTo Q (f a) (g a)) : RelaxedUpTo Q (x >>= f) (y >>= g) :=
  RelaxedUpTo.bind hx hf fun _ _ _ _ _ hno => hno.elim

section

variable {Q : InferenceError → α → Prop}

theorem RelaxedUpTo.pure {a : α} : RelaxedUpTo Q (pure a : Infer α) (Pure.pure a) :=
  .refl fun h => congrArg InferenceState.memo (gives_pure.1 h).2

theorem RelaxedUpTo.get_bind {f g : InferenceState → Infer α} (h : ∀ s, RelaxedUpTo Q (f s) (g s)) :
    RelaxedUpTo Q (get >>= f) (get >>= g) :=
  Relaxed.bind (.refl fun h => congrArg InferenceState.memo (gives_get.1 h).2) h

theorem RelaxedUpTo.malformed {n : Node} {c : Malformed} :
    RelaxedUpTo Q (Infer.malformed n c) (Infer.malformed n c) :=
  .refl fun h => absurd h not_gives_malformed

theorem RelaxedUpTo.ambiguous {n : Node} {c : Ambiguity} :
    RelaxedUpTo Q (Infer.ambiguous n c) (Infer.ambiguous n c) :=
  .refl fun h => absurd h not_gives_ambiguous

theorem RelaxedUpTo.violation {n : Node} {c : Violation} :
    RelaxedUpTo Q (Infer.violation n c) (Infer.violation n c) :=
  .refl fun h => absurd h not_gives_violation

theorem RelaxedUpTo.refused_bind {x : Infer β} (hno : ∀ {s b t}, ¬ x.Gives s b t) {f g : β → Infer α} :
    RelaxedUpTo Q (x >>= f) (x >>= g) where
  keeps h := by
    obtain ⟨_, _, hx, -⟩ := gives_bind.1 h
    exact absurd hx hno
  agrees s := by
    refine Or.inl ?_
    cases hx : x.run s with
    | error e =>
        rw [StateT.run_bind, StateT.run_bind, hx]
        rfl
    | ok r => exact absurd hx hno

end

namespace Relaxed

theorem modify {f : InferenceState → InferenceState} (h : ∀ s, (f s).memo = s.memo) :
    Relaxed (modify f : Infer PUnit) (modify f) :=
  .refl fun {s _ _} hx => by rw [gives_modify.1 hx, h s]

theorem mapM {ι : Type} {f g : ι → Infer α} (h : ∀ i, Relaxed (f i) (g i)) :
    ∀ l : List ι, Relaxed (l.mapM f) (l.mapM g)
  | [] => by
    rw [List.mapM_nil, List.mapM_nil]
    exact .pure
  | i :: l => by
    rw [List.mapM_cons, List.mapM_cons]
    exact (h i).bind fun _ => (mapM h l).bind fun _ => .pure

theorem forM {ι : Type} {f g : ι → Infer PUnit} (h : ∀ i, Relaxed (f i) (g i)) :
    ∀ l : List ι, Relaxed (l.forM f) (l.forM g)
  | [] => .pure
  | i :: l => (h i).bind fun _ => forM h l

theorem detached {x y : Infer α} (h : Relaxed x y) : Relaxed (detached x) (detached y) :=
  Relaxed.bind (.modify fun _ => rfl) fun _ => h.bind fun _ => Relaxed.bind (.modify fun _ => rfl) fun _ => .pure

theorem nameShape {shape : Shape} : Relaxed (Infer.nameShape shape) (Infer.nameShape shape) :=
  .refl fun h => by rw [(gives_nameShape.1 h).2]

theorem scope {n : Node} : Relaxed (Infer.scope n) (Infer.scope n) :=
  .refl fun h => by rw [(gives_scope.1 h).2]

theorem updateScope {n : Node} {f : ConstraintStack → Option StackError × ConstraintStack} :
    Relaxed (Infer.updateScope n f) (Infer.updateScope n f) := by
  refine .refl fun h => ?_
  obtain ⟨_, _, _, _, _, rfl⟩ := gives_updateScope.1 h
  rfl

theorem remember {n : Node} {p : Progress} : Relaxed (Infer.remember n p) (Infer.remember n p) where
  keeps h := by
    rw [gives_remember.1 h]
    exact List.subset_cons_self _ _
  agrees _ := Or.inl rfl

end Relaxed

end Infer

/-! ## The parts of resolving a shape -/

section

variable {graph : ShapesGraph} {resolve resolve' : Node → Infer TypeUse} {shape : Shape}

theorem relaxed_valueBody : Relaxed (valueBody shape) (valueBody shape) :=
  .refl fun h => by rw [(gives_valueBody h).2.2]

theorem relaxed_boundedCardinality {Q : InferenceError → Cardinality → Prop} {id : Node}
    {stack : ConstraintStack} {d : Option DefaultValue} :
    RelaxedUpTo Q (boundedCardinality id stack d) (boundedCardinality id stack d) :=
  .refl fun h => by rw [(gives_boundedCardinality.1 h).2]

theorem relaxed_earlyCardinality : Relaxed (earlyCardinality shape) (earlyCardinality shape) := by
  unfold earlyCardinality
  split
  · exact .pure
  · refine Relaxed.scope.bind fun stack => ?_
    split
    · exact .pure
    · exact relaxed_boundedCardinality

theorem relaxed_settle {slot : Slot} {name : Name} {finding : Finding} :
    Relaxed (settle shape slot name finding) (settle shape slot name finding) := by
  refine .refl fun h => ?_
  rw [(gives_settle h).2]
  unfold InferenceState.settled
  split <;> rfl

variable (hresolve : ∀ id, Relaxed (resolve id) (resolve' id))

include hresolve

theorem relaxed_referredSlot (source id : Node) :
    Relaxed (referredSlot graph resolve source id) (referredSlot graph resolve' source id) := by
  refine .get_bind fun s => ?_
  split
  · exact .pure
  · exact .pure
  · split
    · exact .malformed
    · exact (hresolve id).bind fun _ => .pure

theorem relaxed_compositeBody :
    Relaxed (compositeBody graph resolve shape) (compositeBody graph resolve' shape) := by
  unfold compositeBody
  refine Relaxed.bind (.refl fun h => by rw [(gives_compositeParts h).1]) fun parts => ?_
  obtain ⟨feature, connective, members⟩ := parts
  simp only
  split
  · exact .refused_bind not_gives_violation
  · split
    · exact .refused_bind not_gives_malformed
    · refine (Relaxed.mapM (relaxed_referredSlot hresolve shape.id) members).bind fun slots => ?_
      exact .get_bind fun _ => .pure

theorem relaxed_resolveParent :
    Relaxed (resolveParent graph resolve shape) (resolveParent graph resolve' shape) := by
  unfold resolveParent
  split
  · exact .pure
  · rename_i ancestor _
    refine (relaxed_referredSlot hresolve shape.id ancestor).detached.bind fun parent => .get_bind fun s => ?_
    split
    · exact .pure
    · exact .malformed
  · exact .ambiguous

theorem relaxed_resolveProperty (id : Node) :
    Relaxed (resolveProperty graph resolve shape id) (resolveProperty graph resolve' shape id) := by
  unfold resolveProperty
  split
  · split
    · refine (hresolve id).detached.bind fun use => ?_
      split
      · exact Relaxed.nameShape.bind fun _ => .pure
      · exact .malformed
    · exact .malformed
  · exact .malformed

theorem relaxed_objectBody (slot : Slot) :
    Relaxed (objectBody graph resolve shape slot) (objectBody graph resolve' shape slot) := by
  unfold objectBody
  refine Relaxed.bind (.modify fun _ => rfl) fun _ => ?_
  refine (relaxed_resolveParent hresolve).bind fun parent => ?_
  exact (Relaxed.mapM (relaxed_resolveProperty hresolve) _).bind fun _ => .pure

theorem relaxed_referenceTarget :
    Relaxed (referenceTarget graph resolve shape) (referenceTarget graph resolve' shape) := by
  unfold referenceTarget
  simp only
  split
  · rename_i target _
    split
    · exact .malformed
    · exact (relaxed_referredSlot hresolve shape.id target).detached
  · exact .ambiguous

omit hresolve in
theorem relaxed_afterPathCheck {k k' : PUnit → Infer Finding} (h : Relaxed (k ()) (k' ())) :
    Relaxed
      (match shape.property? with
      | some form =>
        if form.path.predicate?.isNone = true then malformed shape.id (.pathNotPredicate form.path) >>= k
        else k ()
      | _ => k ())
      (match shape.property? with
      | some form =>
        if form.path.predicate?.isNone = true then malformed shape.id (.pathNotPredicate form.path) >>= k'
        else k' ()
      | _ => k' ()) := by
  split
  · split
    · exact .refused_bind not_gives_malformed
    · exact h
  · exact h

theorem relaxed_findingOf (slot : Slot) :
    Relaxed (findingOf graph resolve shape slot) (findingOf graph resolve' shape slot) := by
  unfold findingOf
  refine relaxed_afterPathCheck ?_
  split
  · exact (relaxed_compositeBody hresolve).bind fun _ => .pure
  · split
    · exact (relaxed_objectBody hresolve slot).bind fun _ => .pure
    · split
      · exact relaxed_valueBody.bind fun _ => .pure
      · split
        · exact .malformed
        · exact (relaxed_referenceTarget hresolve).bind fun _ => .pure

/-! ## Defaults -/

omit hresolve in
/-- A refusal that is waived, beside the default that stands for it. -/
theorem relaxed_waived (id : Node) {term : Term} {target : DefaultTarget} {cause : DefaultError} {d : DefaultValue}
    (h : Waived term target cause d) : RelaxedUpTo (fun e d => e.Waives id (.plain (some d)))
      (Infer.malformed id (.default cause)) (pure d) where
  keeps hgives := by
    rw [(gives_pure.1 hgives).2]
    exact List.Subset.refl _
  agrees s := by
    refine Or.inr ⟨_, fails_malformed.2 rfl, fun a t hgives => ?_⟩
    rw [(gives_pure.1 hgives).1]
    exact Or.inr ⟨term, target, cause, d, rfl, h, rfl⟩

omit hresolve in
/-- **Where strictness matters**: a default that is refused is about to be waived. -/
theorem relaxed_itemDefault (id : Node) (term : Term) (item : Slot) :
    RelaxedUpTo (fun e d => e.Waives id (.plain (some d))) (itemDefault true id term item)
      (itemDefault false id term item) := by
  refine .get_bind fun s => ?_
  simp only
  split
  · have hsame : defaultFor term .object true = defaultFor term .object false := rfl
    rw [hsame]
    split
    · exact .pure
    · exact .malformed
  · split
    · rename_i c _
      rcases defaultFor_strict term (defaultTarget c) with hsame | ⟨cause, d, hstrict, hlenient, hw⟩
      · rw [hsame]
        split
        · exact .pure
        · exact .malformed
      · rw [hstrict, hlenient]
        exact relaxed_waived id hw
    · exact .violation

omit hresolve in
theorem relaxed_cardinalityOf (item : Slot) : RelaxedUpTo (fun e c => e.Waives shape.id c)
    (cardinalityOf true shape item) (cardinalityOf false shape item) := by
  unfold cardinalityOf
  split
  · exact .pure
  · refine Relaxed.scope.bind fun stack => ?_
    split
    · rename_i term _
      refine (relaxed_itemDefault shape.id term item).bind (fun d => relaxed_boundedCardinality) ?_
      intro e d s c t hw h
      rw [Cardinality.eq_plain_of_ofBounds (gives_boundedCardinality.1 h).1]
      exact Or.inr hw
    · exact relaxed_boundedCardinality

theorem relaxed_inferUse (slot : Slot) (name : Name) : RelaxedUpTo (fun e use => e.Waives shape.id use.cardinality)
    (inferUse graph true resolve shape slot name) (inferUse graph false resolve' shape slot name) := by
  unfold inferUse
  refine (relaxed_findingOf hresolve slot).bind fun finding => ?_
  refine relaxed_settle.bind fun item => ?_
  refine Relaxed.bind (.modify fun _ => rfl) fun _ => ?_
  refine (relaxed_cardinalityOf item).bind (fun c => .pure) ?_
  intro e c s use t hw h
  rw [(gives_pure.1 h).1]
  exact Or.inr hw

/-- Once the shape is left, what it was refused for is waived. -/
theorem relaxed_resolveFirst (id : Node) :
    Relaxed (resolveFirst graph true resolve id) (resolveFirst graph false resolve' id) := by
  unfold resolveFirst
  split
  · rename_i frame hf
    refine Relaxed.bind (.refl fun h => by rw [(gives_newSlot.1 h).2]) fun slot => ?_
    refine Relaxed.updateScope.bind fun _ => ?_
    refine relaxed_earlyCardinality.bind fun early => ?_
    refine Relaxed.remember.bind fun _ => ?_
    refine Relaxed.nameShape.bind fun name => ?_
    refine (relaxed_inferUse hresolve slot name).bind (fun use => ?_) ?_
    · exact Relaxed.updateScope.bind fun _ => Relaxed.remember.bind fun _ => .pure
    · intro e use s use' t hw h
      obtain ⟨_, u, -, h⟩ := gives_bind.1 h
      obtain ⟨_, v, hremember, h⟩ := gives_bind.1 h
      obtain ⟨-, rfl⟩ := gives_pure.1 h
      obtain rfl := gives_remember.1 hremember
      obtain ⟨-, hid⟩ := ShapesGraph.frame?_eq_some hf
      exact Or.inl ⟨id, use, hid ▸ hw, List.mem_cons_self⟩
  · exact .violation

theorem relaxed_resolveOnce (id : Node) :
    Relaxed (resolveOnce graph true resolve id) (resolveOnce graph false resolve' id) := by
  refine .get_bind fun s => ?_
  split
  · exact .pure
  · exact Relaxed.bind (.modify fun _ => rfl) fun _ => .pure
  · exact relaxed_resolveFirst hresolve id

end

/-! ## All shapes -/

theorem relaxed_resolveWithin (graph : ShapesGraph) : ∀ fuel id,
    Relaxed (resolveWithin graph true fuel id) (resolveWithin graph false fuel id)
  | 0, _ => .violation
  | fuel + 1, id => relaxed_resolveOnce (relaxed_resolveWithin graph fuel) id

/-- **A strict run of all shapes** does what the lenient run does, or refuses what that waives. -/
theorem relaxed_resolveAll (graph : ShapesGraph) : Relaxed (resolveAll graph true) (resolveAll graph false) :=
  .forM (fun id => (relaxed_resolveWithin graph _ id).detached.bind fun _ => .pure) graph.ids

end ShapeTypes
