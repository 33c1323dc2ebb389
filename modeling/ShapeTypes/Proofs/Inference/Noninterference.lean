import ShapeTypes.Inference.Infer
import ShapeTypes.Proofs.Inference.Indifferent

/-!
# Names and presentation do not influence inference

* `ShapesGraph.SameBare` — two graphs have the same shapes in the same order, but for their presentation;
* `indifferent_referredSlot`, …, `indifferent_inferUse` — the parts of resolving a shape, given that the
  shapes it asks for are resolved indifferently;
* `indifferent_resolveAll` — **resolving all shapes of such graphs fails with the same error, or ends in
  states that differ in names and presentation at most.**
-/

namespace ShapeTypes

open Rdf Infer

/-- Two graphs have the same shapes in the same order, but for what names and presents them. -/
def ShapesGraph.SameBare (g h : ShapesGraph) : Prop :=
  g.shapes.entries.map Shape.bare = h.shapes.entries.map Shape.bare

namespace ShapesGraph.SameBare

variable {g h : ShapesGraph} (hg : g.SameBare h)

include hg

theorem ids_eq : g.ids = h.ids := by
  have hids : ∀ l : List Shape, l.map Shape.id = (l.map Shape.bare).map Shape.id := by
    intro l
    rw [List.map_map]
    rfl
  show g.shapes.entries.map Shape.id = h.shapes.entries.map Shape.id
  rw [hids, hg, ← hids]

theorem size_eq : g.size = h.size := by
  have hlength := congrArg List.length hg
  rwa [List.length_map, List.length_map] at hlength

theorem shape?_eq (id : Node) : (g.shape? id).map Shape.bare = (h.shape? id).map Shape.bare := by
  have hfind : ∀ l : List Shape,
      (l.find? fun s => s.id = id).map Shape.bare = (l.map Shape.bare).find? fun s => s.id = id := by
    intro l
    rw [List.find?_map]
    rfl
  show (g.shapes.entries.find? _).map Shape.bare = (h.shapes.entries.find? _).map Shape.bare
  rw [hfind, hg, ← hfind]

theorem shape?_cases (id : Node) : (g.shape? id = none ∧ h.shape? id = none) ∨
    ∃ shape shape', g.shape? id = some shape ∧ h.shape? id = some shape' ∧ shape.SameBare shape' := by
  have heq := shape?_eq hg id
  cases hs : g.shape? id with
  | none =>
      rw [hs, Option.map_none, eq_comm, Option.map_eq_none_iff] at heq
      exact Or.inl ⟨rfl, heq⟩
  | some shape =>
      rw [hs, Option.map_some, eq_comm, Option.map_eq_some_iff] at heq
      obtain ⟨shape', hs', hbare⟩ := heq
      exact Or.inr ⟨shape, shape', rfl, hs', hbare.symm⟩

theorem frame?_eq (id : Node) : (g.frame? id).map Frame.bare = (h.frame? id).map Frame.bare := by
  have hindex : ∀ l : List Shape,
      (l.findIdx? fun s => s.id = id) = (l.map Shape.bare).findIdx? fun s => s.id = id := by
    intro l
    rw [List.findIdx?_map]
    rfl
  have hframe : ∀ k : ShapesGraph, (k.frame? id).map Frame.bare =
      ((k.shapes.entries.map Shape.bare).findIdx? fun s => s.id = id).bind fun i =>
        ((k.shapes.entries.map Shape.bare)[i]?).map fun s => ⟨i, s⟩ := by
    intro k
    rw [← hindex, frame?, Keyed.index?]
    cases k.shapes.entries.findIdx? fun s => s.id = id with
    | none => rfl
    | some i =>
        simp only [Option.bind_eq_bind, Option.bind_some, List.getElem?_map, Option.map_map]
        cases k.shapes.entries[i]? <;> rfl
  rw [hframe, hg, ← hframe]

end ShapesGraph.SameBare

theorem map_eq_of_forall₂ {α β γ : Type} {f : α → γ} {g : β → γ} {l : List α} {l' : List β}
    (h : List.Forall₂ (fun a b => f a = g b) l l') : l.map f = l'.map g := by
  induction h with
  | nil => rfl
  | cons hab _ ih => rw [List.map_cons, List.map_cons, hab, ih]

/-- What a shape is found to be, without names and presentation. -/
def Finding.bare : Finding → Finding
  | .type body => .type body.bare
  | .standsFor slot => .standsFor slot

section

variable {graph graph' : ShapesGraph} {strict : Bool} {resolve resolve' : Node → Infer TypeUse}
  (hgraph : graph.SameBare graph') (hresolve : ∀ id, Indifferent Eq (resolve id) (resolve' id))
  {shape shape' : Shape} (hshape : shape.SameBare shape')

/-! ## References -/

include hgraph hresolve in
theorem indifferent_referredSlot (source id : Node) :
    Indifferent Eq (referredSlot graph resolve source id) (referredSlot graph' resolve' source id) := by
  refine Indifferent.get_bind fun s t hst => ?_
  rw [hst.progress?_eq]
  cases t.progress? id with
  | some p =>
      cases p with
      | resolved use => exact .pure rfl
      | resolving slot c => exact .pure rfl
  | none =>
      rcases hgraph.shape?_cases id with ⟨hs, hs'⟩ | ⟨_, _, hs, hs', -⟩
      · simp only [hs, hs', Option.isNone_none, if_true]
        exact .malformed rfl rfl
      · simp only [hs, hs', Option.isNone_some, Bool.false_eq_true, if_false]
        refine .bind (hresolve id) fun use use' huse => .pure ?_
        rw [huse]

include hshape in
theorem indifferent_compositeParts : Indifferent Eq (compositeParts shape) (compositeParts shape') := by
  unfold compositeParts
  rw [hshape.constraints_eq, hshape.id_eq]
  split
  · exact .ambiguous rfl
  · exact .pure rfl
  · exact .pure rfl
  · exact .violation rfl rfl

/-! ## Composites -/

include hgraph hresolve hshape in
theorem indifferent_compositeBody :
    Indifferent (fun a b => a.bare = b.bare) (compositeBody graph resolve shape)
      (compositeBody graph' resolve' shape') := by
  unfold compositeBody
  rw [hshape.id_eq, hshape.constraints_eq, hshape.properties_eq]
  refine .bind (indifferent_compositeParts hshape) ?_
  rintro ⟨feature, connective, members⟩ _ rfl
  have hrest : Indifferent (fun a b => Body.bare a = Body.bare b)
      (do
        let slots ← members.mapM (referredSlot graph resolve shape'.id)
        let s ← get
        return .composite connective (slots.all s.actsAsObject) slots)
      (do
        let slots ← members.mapM (referredSlot graph' resolve' shape'.id)
        let s ← get
        return .composite connective (slots.all s.actsAsObject) slots) := by
    refine .bind (.mapM_same (indifferent_referredSlot hgraph hresolve shape'.id) members) ?_
    intro slots slots' hslots
    rw [List.forall₂_eq_eq_eq] at hslots
    subst hslots
    refine .get_bind fun s t hst => .pure ?_
    rw [hst.actsAsObject_eq]
  simp only
  split
  · exact .bind (R := fun _ _ => False) (.violation rfl rfl) fun _ _ hno => hno.elim
  · split
    · exact .bind (R := fun _ _ => False) (.malformed rfl rfl) fun _ _ hno => hno.elim
    · exact hrest

/-! ## Objects -/

include hgraph hresolve hshape in
theorem indifferent_resolveParent : Indifferent Eq (resolveParent graph resolve shape)
    (resolveParent graph' resolve' shape') := by
  unfold resolveParent
  rw [hshape.constraints_eq, hshape.id_eq]
  split
  · exact .pure rfl
  · rename_i ancestor _
    refine .bind (.detached (indifferent_referredSlot hgraph hresolve shape'.id ancestor)) ?_
    rintro parent _ rfl
    refine .get_bind fun s t hst => ?_
    rw [hst.actsAsObject_eq]
    split
    · exact .pure rfl
    · exact .malformed rfl rfl
  · exact .ambiguous rfl

include hgraph hresolve hshape in
theorem indifferent_resolveProperty (id : Node) : Indifferent (fun p q => p.bare = q.bare)
    (resolveProperty graph resolve shape id) (resolveProperty graph' resolve' shape' id) := by
  unfold resolveProperty
  rw [hshape.id_eq]
  rcases hgraph.shape?_cases id with ⟨hs, hs'⟩ | ⟨inner, inner', hs, hs', hinner⟩
  · simp only [hs, hs']
    exact .malformed rfl rfl
  · simp only [hs, hs']
    have hforms := hinner.property?_eq
    cases hf : inner.property? with
    | none =>
        rw [hf, Option.map_none, eq_comm, Option.map_eq_none_iff] at hforms
        simp only [hforms]
        exact .malformed rfl rfl
    | some form =>
        rw [hf, Option.map_some, eq_comm, Option.map_eq_some_iff] at hforms
        obtain ⟨form', hf', hbare⟩ := hforms
        simp only [hf']
        refine .bind (.detached (hresolve id)) ?_
        rintro use _ rfl
        have hpath : form.path = form'.path := (congrArg PropertyForm.path hbare).symm
        have hmutable : form.mutable = form'.mutable := (congrArg PropertyForm.mutable hbare).symm
        have hlazy : form.lazy = form'.lazy := (congrArg PropertyForm.lazy hbare).symm
        rw [hpath]
        cases form'.path.predicate? with
        | none => exact .malformed rfl rfl
        | some path =>
            refine .bind .nameShape fun name name' _ => .pure ?_
            simp only [Property.bare, hmutable, hlazy]

include hgraph hresolve hshape in
theorem indifferent_objectBody (slot : Slot) : Indifferent (fun a b => a.bare = b.bare)
    (objectBody graph resolve shape slot) (objectBody graph' resolve' shape' slot) := by
  unfold objectBody
  refine .bind (.modify fun s t hst => { hst with openObjects := by rw [hst.openObjects] }) fun _ _ _ => ?_
  refine .bind (indifferent_resolveParent hgraph hresolve hshape) ?_
  rintro parent _ rfl
  rw [hshape.properties_eq]
  refine .bind (.mapM_same (indifferent_resolveProperty hgraph hresolve hshape) shape'.properties) ?_
  intro properties properties' hproperties
  refine .pure ?_
  simp only [Body.bare, hshape.constraints_eq, map_eq_of_forall₂ hproperties]

/-! ## References and values -/

include hgraph hresolve hshape in
theorem indifferent_referenceTarget : Indifferent Eq (referenceTarget graph resolve shape)
    (referenceTarget graph' resolve' shape') := by
  unfold referenceTarget
  rw [hshape.constraints_eq, hshape.id_eq]
  simp only
  split
  · rename_i target _
    split
    · exact .malformed rfl rfl
    · exact .detached (indifferent_referredSlot hgraph hresolve shape'.id target)
  · exact .ambiguous rfl

include hshape in
theorem indifferent_valueBody :
    Indifferent (fun a b => a.bare = b.bare) (valueBody shape) (valueBody shape') := by
  unfold valueBody
  refine .bind (.scope hshape.id_eq) fun stack stack' hstack => ?_
  rw [hshape.constraints_eq, ConstraintStack.hasValues?_congr hstack, ConstraintStack.oneOf?_congr hstack]
  have hvalues : enumerationValues? stack shape'.constraints = enumerationValues? stack' shape'.constraints := by
    unfold enumerationValues?
    rw [ConstraintStack.oneOf?_congr hstack]
  rw [hvalues]
  simp only
  split
  · exact .pure rfl
  · split
    · rename_i iris _
      have hmember : ∀ i : Iri, Indifferent (fun m m' : Iri × Name => m.1 = m'.1)
          (do return (i, ← nameIri i)) (do return (i, ← nameIri i)) :=
        fun i => .bind .nameIri fun _ _ _ => .pure rfl
      refine .bind (.mapM_same hmember iris) fun members members' hmembers => .pure ?_
      have hmap := map_eq_of_forall₂ hmembers
      have hdefault : ∀ l : List (Iri × Name), l.map (fun m => (m.1, (default : Name))) =
          (l.map (·.1)).map fun i => (i, default) := by
        intro l
        rw [List.map_map]
        rfl
      simp only [Body.bare, hdefault, hmap]
    · split
      · exact .pure rfl
      · exact .pure rfl

/-! ## One shape -/

include hgraph hresolve hshape in
theorem indifferent_findingOf (slot : Slot) : Indifferent (fun a b => a.bare = b.bare)
    (findingOf graph resolve shape slot) (findingOf graph' resolve' shape' slot) := by
  have hrest : Indifferent (fun a b => Finding.bare a = Finding.bare b)
      (do
        if shape.constraints.isComposite then
          return .type (← compositeBody graph resolve shape)
        else if shape.declaresObject then
          return .type (← objectBody graph resolve shape slot)
        else if shape.constraints.nodes.isEmpty then
          return .type (← valueBody shape)
        else if shape.isNode then
          malformed shape.id .nodeOnValueShape
        else
          return .standsFor (← referenceTarget graph resolve shape))
      (do
        if shape'.constraints.isComposite then
          return .type (← compositeBody graph' resolve' shape')
        else if shape'.declaresObject then
          return .type (← objectBody graph' resolve' shape' slot)
        else if shape'.constraints.nodes.isEmpty then
          return .type (← valueBody shape')
        else if shape'.isNode then
          malformed shape'.id .nodeOnValueShape
        else
          return .standsFor (← referenceTarget graph' resolve' shape')) := by
    have htype : ∀ a b : Body, a.bare = b.bare → (Finding.type a).bare = (Finding.type b).bare :=
      fun a b hab => congrArg Finding.type hab
    rw [hshape.constraints_eq, hshape.declaresObject_eq, hshape.isNode_eq]
    split
    · exact .bind (indifferent_compositeBody hgraph hresolve hshape) fun a b hab => .pure (htype a b hab)
    · split
      · exact .bind (indifferent_objectBody hgraph hresolve hshape slot) fun a b hab =>
          .pure (htype a b hab)
      · split
        · exact .bind (indifferent_valueBody hshape) fun a b hab => .pure (htype a b hab)
        · split
          · exact .malformed hshape.id_eq rfl
          · refine .bind (indifferent_referenceTarget hgraph hresolve hshape) fun a b hab => .pure ?_
            rw [hab]
  unfold findingOf
  have hforms := hshape.property?_eq
  cases hf : shape.property? with
  | none =>
      rw [hf, Option.map_none, eq_comm, Option.map_eq_none_iff] at hforms
      simp only [hforms]
      exact hrest
  | some form =>
      rw [hf, Option.map_some, eq_comm, Option.map_eq_some_iff] at hforms
      obtain ⟨form', hf', hbare⟩ := hforms
      have hpath : form.path = form'.path := (congrArg PropertyForm.path hbare).symm
      simp only [hf', hpath]
      split
      · exact .bind (R := fun _ _ => False) (.malformed hshape.id_eq rfl) fun _ _ hno => hno.elim
      · exact hrest

include hshape in
theorem indifferent_boundedCardinality {stack stack' : ConstraintStack} (hstack : stack.bare = stack'.bare)
    (d : Option DefaultValue) : Indifferent Eq (boundedCardinality shape.id stack d)
      (boundedCardinality shape'.id stack' d) := by
  unfold boundedCardinality
  rw [ConstraintStack.minCount?_congr hstack, ConstraintStack.maxCount?_congr hstack,
    ConstraintStack.mutable_congr hstack]
  split
  · exact .pure rfl
  · exact .malformed hshape.id_eq rfl

include hshape in
theorem indifferent_earlyCardinality :
    Indifferent Eq (earlyCardinality shape) (earlyCardinality shape') := by
  unfold earlyCardinality
  rw [hshape.isNode_eq]
  split
  · exact .pure rfl
  · refine .bind (.scope hshape.id_eq) fun stack stack' hstack => ?_
    rw [ConstraintStack.defaultValue?_congr hstack]
    split
    · exact .pure rfl
    · exact indifferent_boundedCardinality hshape hstack none

theorem indifferent_itemDefault {id id' : Node} (hid : id = id') (term : Term) (item : Slot) :
    Indifferent Eq (itemDefault strict id term item) (itemDefault strict id' term item) := by
  subst hid
  refine .get_bind fun s t hst => ?_
  simp only [hst.openObjects, hst.aliases]
  split
  · cases defaultFor term .object strict with
    | ok d => exact .pure rfl
    | error cause => exact .malformed rfl rfl
  · have hget := hst.getElem?_eq (follow t.aliases item)
    cases hc : t.slots[follow t.aliases item]? with
    | none =>
        rw [hc, Option.map_none, Option.map_eq_none_iff] at hget
        simp only [hget]
        exact .violation rfl rfl
    | some c =>
        rw [hc, Option.map_some, Option.map_eq_some_iff] at hget
        obtain ⟨c', hc', hbare⟩ := hget
        have htarget : defaultTarget c' = defaultTarget c := by
          rw [← defaultTarget_bare c', hbare, defaultTarget_bare]
        simp only [hc', htarget]
        cases defaultFor term (defaultTarget c) strict with
        | ok d => exact .pure rfl
        | error cause => exact .malformed rfl rfl

include hshape in
theorem indifferent_cardinalityOf (item : Slot) :
    Indifferent Eq (cardinalityOf strict shape item) (cardinalityOf strict shape' item) := by
  unfold cardinalityOf
  rw [hshape.isNode_eq]
  split
  · exact .pure rfl
  · refine .bind (.scope hshape.id_eq) fun stack stack' hstack => ?_
    rw [ConstraintStack.defaultValue?_congr hstack]
    split
    · rename_i term _
      refine .bind (indifferent_itemDefault hshape.id_eq term item) ?_
      rintro d _ rfl
      exact indifferent_boundedCardinality hshape hstack (some d)
    · exact indifferent_boundedCardinality hshape hstack none

include hshape in
theorem indifferent_settle (slot : Slot) (name name' : Name) {finding finding' : Finding}
    (hfinding : finding.bare = finding'.bare) :
    Indifferent Eq (settle shape slot name finding) (settle shape' slot name' finding') := by
  have hlist : ∀ item, (shape.itemType name (.list item)).bare = (shape'.itemType name' (.list item)).bare :=
    fun item => hshape.bare_itemType rfl name name'
  unfold settle
  rw [hshape.isList_eq]
  cases finding with
  | type body =>
      cases finding' with
      | standsFor target => cases hfinding
      | type body' =>
          have hbody : (shape.itemType name body).bare = (shape'.itemType name' body').bare :=
            hshape.bare_itemType (Finding.type.inj hfinding) name name'
          cases shape'.isList with
          | false => exact .bind (.writeSlot hshape.id_eq hbody) fun _ _ _ => .pure rfl
          | true =>
              refine .bind (.newSlot (congrArg Content.type hbody)) ?_
              rintro inner _ rfl
              exact .bind (.writeSlot hshape.id_eq (hlist inner)) fun _ _ _ => .pure rfl
  | standsFor target =>
      cases finding' with
      | type body' => cases hfinding
      | standsFor target' =>
          cases hfinding
          cases shape'.isList with
          | false => exact .bind (.addAlias hshape.id_eq) fun _ _ _ => .pure rfl
          | true => exact .bind (.writeSlot hshape.id_eq (hlist target)) fun _ _ _ => .pure rfl

include hgraph hresolve hshape in
theorem indifferent_inferUse (slot : Slot) (name name' : Name) :
    Indifferent Eq (inferUse graph strict resolve shape slot name)
      (inferUse graph' strict resolve' shape' slot name') := by
  refine .bind (indifferent_findingOf hgraph hresolve hshape slot) fun finding finding' hfinding => ?_
  refine .bind (indifferent_settle hshape slot name name' hfinding) ?_
  rintro item _ rfl
  refine .bind (.modify fun s t hst => { hst with openObjects := by rw [hst.openObjects] }) fun _ _ _ => ?_
  refine .bind (indifferent_cardinalityOf hshape item) ?_
  rintro c _ rfl
  exact .pure rfl

/-! ## All shapes -/

/-- A frame is put on scopes of the same shapes, or refused. -/
theorem ConstraintStack.bare_push {a b : ConstraintStack} {f f' : Frame} (h : a.bare = b.bare)
    (hf : f.bare = f'.bare) : (a.push f).map id bare = (b.push f').map id bare := by
  have hpush : ∀ (s : ConstraintStack) (g : Frame), (s.push g).map id bare = s.bare.push g.bare := by
    intro s g
    unfold push bare
    rw [List.any_map]
    show Prod.map _ _ (if (s.frames.any fun x => x.shape.id = g.shape.id) = true then _ else _) =
      if (s.frames.any fun x => x.shape.id = g.shape.id) = true then _ else _
    split <;> rfl
  rw [hpush, h, hf, ← hpush]

/-- A frame is taken off scopes of the same shapes, or not there. -/
theorem ConstraintStack.bare_pop {a b : ConstraintStack} {f f' : Frame} (h : a.bare = b.bare)
    (hf : f.bare = f'.bare) : (a.pop f).map id bare = (b.pop f').map id bare := by
  have hpop : ∀ (s : ConstraintStack) (g : Frame), (s.pop g).map id bare = s.bare.pop g.bare := by
    rintro ⟨frames⟩ g
    cases frames with
    | nil => rfl
    | cons top rest =>
        show Prod.map _ _ (if top.entry = g.entry then _ else _) = if top.entry = g.entry then _ else _
        split <;> rfl
  rw [hpop, h, hf, ← hpop]

include hgraph hresolve in
theorem indifferent_resolveFirst (id : Node) : Indifferent Eq (resolveFirst graph strict resolve id)
    (resolveFirst graph' strict resolve' id) := by
  unfold resolveFirst
  have hframes := hgraph.frame?_eq id
  cases hf : graph.frame? id with
  | none =>
      rw [hf, Option.map_none, eq_comm, Option.map_eq_none_iff] at hframes
      simp only [hframes]
      exact .violation rfl rfl
  | some frame =>
      rw [hf, Option.map_some, eq_comm, Option.map_eq_some_iff] at hframes
      obtain ⟨frame', hf', hbare⟩ := hframes
      have hshape : frame.shape.SameBare frame'.shape := (congrArg Frame.shape hbare).symm
      simp only [hf']
      refine .bind (.newSlot rfl) ?_
      rintro slot _ rfl
      refine .bind (.updateScope rfl fun a b hab => ConstraintStack.bare_push hab hbare.symm) fun _ _ _ => ?_
      refine .bind (indifferent_earlyCardinality hshape) ?_
      rintro early _ rfl
      refine .bind (.remember rfl) fun _ _ _ => .bind .nameShape fun name name' _ => ?_
      refine .bind (indifferent_inferUse hgraph hresolve hshape slot name name') ?_
      rintro use _ rfl
      refine .bind (.updateScope rfl fun a b hab => ConstraintStack.bare_pop hab hbare.symm) fun _ _ _ => ?_
      exact .bind (.remember rfl) fun _ _ _ => .pure rfl

include hgraph hresolve in
theorem indifferent_resolveOnce (id : Node) : Indifferent Eq (resolveOnce graph strict resolve id)
    (resolveOnce graph' strict resolve' id) := by
  refine .get_bind fun s t hst => ?_
  rw [hst.progress?_eq]
  cases t.progress? id with
  | none => exact indifferent_resolveFirst hgraph hresolve id
  | some p =>
      cases p with
      | resolved use => exact .pure rfl
      | resolving slot c =>
          exact .bind (.modify fun s t hst => { hst with handedOut := by rw [hst.handedOut] }) fun _ _ _ =>
            .pure rfl

include hgraph in
theorem indifferent_resolveWithin : ∀ (fuel : Nat) (id : Node),
    Indifferent Eq (resolveWithin graph strict fuel id) (resolveWithin graph' strict fuel id)
  | 0, _ => .violation rfl rfl
  | fuel + 1, id => indifferent_resolveOnce hgraph (indifferent_resolveWithin fuel) id

include hgraph in
/-- **Resolving all shapes** fails with the same error, or ends in states that differ in names and
presentation at most. -/
theorem indifferent_resolveAll : Indifferent Eq (resolveAll graph strict) (resolveAll graph' strict) := by
  unfold resolveAll
  rw [hgraph.ids_eq, hgraph.size_eq]
  refine .forM (fun id => ?_) graph'.ids
  exact .bind (.detached (indifferent_resolveWithin hgraph (graph'.size + 1) id)) fun _ _ _ => .pure rfl

end

end ShapeTypes
