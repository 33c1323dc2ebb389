import ShapeTypes.Inference.Infer
import ShapeTypes.Proofs.Inference.Visit
import ShapeTypes.Proofs.Name

/-!
# A successful run of inference is a visit

* `gives_settle`, `gives_earlyCardinality`, `gives_cardinalityOf` — the parts without recursion;
* `Answers` — what resolves single shapes does so as visits do;
* `visit_of_findingOf`, `answers_resolveFirst` — one shape, given that the shapes it asks for are
  resolved so;
* `answers_resolveWithin`, `visit_of_resolveAll` — **every successful run is a visit** of all shapes.
-/

namespace ShapeTypes

open Rdf Infer

/-! ## The parts without recursion -/

section

variable {graph : ShapesGraph} {strict : Bool} {shape : Shape} {s s' : InferenceState}

theorem gives_settle {slot item : Slot} {name : Name} {finding : Finding}
    (h : (settle shape slot name finding).Gives s item s') :
    item = finding.item shape slot ∧ s' = s.settled shape slot name finding := by
  unfold settle at h
  unfold Finding.item InferenceState.settled
  cases finding with
  | type body =>
      cases hl : shape.isList with
      | false =>
          simp only [hl, gives_bind, gives_writeSlot, gives_pure] at h
          obtain ⟨_, _, ⟨_, rfl⟩, rfl, rfl⟩ := h
          exact ⟨rfl, rfl⟩
      | true =>
          simp only [hl, gives_bind, gives_newSlot, gives_writeSlot, gives_pure] at h
          obtain ⟨_, _, ⟨rfl, rfl⟩, _, _, ⟨_, rfl⟩, rfl, rfl⟩ := h
          exact ⟨rfl, rfl⟩
  | standsFor target =>
      cases hl : shape.isList with
      | false =>
          simp only [hl, gives_bind, gives_addAlias, gives_pure] at h
          obtain ⟨_, _, rfl, rfl, rfl⟩ := h
          exact ⟨rfl, rfl⟩
      | true =>
          simp only [hl, gives_bind, gives_writeSlot, gives_pure] at h
          obtain ⟨_, _, ⟨_, rfl⟩, rfl, rfl⟩ := h
          exact ⟨rfl, rfl⟩

theorem gives_boundedCardinality {id : Node} {stack : ConstraintStack} {d : Option DefaultValue}
    {c : Cardinality} :
    (boundedCardinality id stack d).Gives s c s' ↔
      Cardinality.ofBounds stack.minCount? stack.maxCount? d stack.mutable = .ok c ∧ s' = s := by
  unfold boundedCardinality
  split
  · rename_i c' h
    rw [gives_pure, h, Except.ok.injEq, eq_comm (a := c)]
  · rename_i b h
    simp [h]

theorem gives_earlyCardinality {stack : ConstraintStack} {rest : List ConstraintStack} {c : Cardinality}
    (hs : s.scopes = stack :: rest) (h : (earlyCardinality shape).Gives s c s') :
    EarlyCardinality shape stack c ∧ s' = s := by
  unfold earlyCardinality at h
  unfold EarlyCardinality
  split at h
  · rename_i hn
    rw [if_pos (Or.inl hn)]
    exact gives_pure.1 h
  · rename_i hn
    rw [gives_scope_bind hs] at h
    split at h
    · rename_i hd
      rw [if_pos (Or.inr hd)]
      exact gives_pure.1 h
    · rename_i hd
      rw [if_neg (by simp [hn, hd])]
      exact gives_boundedCardinality.1 h

theorem gives_itemDefault {id : Node} {term : Term} {item : Slot} {d : DefaultValue}
    (h : (itemDefault strict id term item).Gives s d s') :
    s' = s ∧ ∃ target, s.targetAt? item = some target ∧ defaultFor term target strict = .ok d := by
  unfold itemDefault at h
  have hrun := gives_get_bind.1 h
  unfold InferenceState.targetAt?
  by_cases ho : s.openObjects.contains (follow s.aliases item) = true
  · rw [if_pos ho] at hrun ⊢
    simp only at hrun
    split at hrun
    · rename_i hd
      obtain ⟨rfl, rfl⟩ := gives_pure.1 hrun
      exact ⟨rfl, .object, rfl, hd⟩
    · exact absurd hrun not_gives_malformed
  · rw [if_neg ho] at hrun ⊢
    cases hc : s.slots[follow s.aliases item]? with
    | none =>
        rw [hc] at hrun
        exact absurd hrun not_gives_violation
    | some c =>
        simp only [hc] at hrun
        split at hrun
        · rename_i hd
          obtain ⟨rfl, rfl⟩ := gives_pure.1 hrun
          exact ⟨rfl, defaultTarget c, rfl, hd⟩
        · exact absurd hrun not_gives_malformed

theorem gives_cardinalityOf {stack : ConstraintStack} {rest : List ConstraintStack} {item : Slot}
    {c : Cardinality} (hs : s.scopes = stack :: rest)
    (h : (cardinalityOf strict shape item).Gives s c s') :
    FinalCardinality strict s shape stack item c ∧ s' = s := by
  unfold cardinalityOf at h
  unfold FinalCardinality FinalDefault
  split at h
  · rename_i hn
    rw [if_pos hn]
    exact gives_pure.1 h
  · rename_i hn
    rw [if_neg hn]
    rw [gives_scope_bind hs] at h
    cases ht : stack.defaultValue? with
    | some term =>
        rw [ht] at h
        obtain ⟨d, t, hd, hrun⟩ := gives_bind.1 h
        obtain ⟨rfl, target, htarget, hdef⟩ := gives_itemDefault hd
        obtain ⟨hbounds, rfl⟩ := gives_boundedCardinality.1 hrun
        exact ⟨⟨some d, ⟨target, d, htarget, hdef, rfl⟩, hbounds⟩, rfl⟩
    | none =>
        rw [ht] at h
        obtain ⟨hc, rfl⟩ := gives_boundedCardinality.1 h
        exact ⟨⟨none, rfl, hc⟩, rfl⟩

/-- The members of an enumeration are named one after the other. -/
theorem gives_mapM_nameIri : ∀ (iris : List Iri) {s t : InferenceState} {members : List (Iri × Name)},
    (iris.mapM fun i => do return (i, ← nameIri i) : Infer _).Gives s members t →
      members = (s.names.nameIris iris).1 ∧ t = { s with names := (s.names.nameIris iris).2 }
  | [], s, t, members, h => by
    obtain ⟨rfl, rfl⟩ := gives_pure.1 (List.mapM_nil (m := Infer) ▸ h)
    exact ⟨rfl, rfl⟩
  | i :: iris, s, t, members, h => by
    rw [List.mapM_cons] at h
    obtain ⟨m, u, hone, h⟩ := gives_bind.1 h
    obtain ⟨rest, v, hrest, hret⟩ := gives_bind.1 h
    obtain ⟨rfl, rfl⟩ := gives_pure.1 hret
    obtain ⟨name, w, hname, hret⟩ := gives_bind.1 hone
    obtain ⟨rfl, rfl⟩ := gives_nameIri.1 hname
    obtain ⟨rfl, rfl⟩ := gives_pure.1 hret
    obtain ⟨rfl, rfl⟩ := gives_mapM_nameIri iris hrest
    exact ⟨rfl, rfl⟩

/-- A type describes single values: it is no object, composite or list. -/
def Body.isValue : Body → Bool
  | .object _ => false
  | .composite .. => false
  | .list _ => false
  | _ => true

theorem Body.edges_of_isValue {body : Body} (h : body.isValue = true) : body.edges = [] := by
  cases body with
  | object => cases h
  | composite => cases h
  | list => cases h
  | identifier => rfl
  | literal => rfl
  | term => rfl
  | enumeration => rfl

/-- The members of an enumeration, with their names. -/
def Body.members : Body → List (Iri × Name)
  | .enumeration members => members
  | _ => []

/-- The IRIs that an enumeration has for members. -/
def Body.iris (body : Body) : List Iri := body.members.map (·.1)

/-- The type of a shape that describes single values. The names of the members of an enumeration are all that
is added to the state. -/
theorem gives_valueBody {body : Body} (h : (valueBody shape).Gives s body s') :
    body.isValue = true ∧ body.members = (s.names.nameIris body.iris).1 ∧
      s' = { s with names := (s.names.nameIris body.iris).2 } := by
  unfold valueBody at h
  obtain ⟨stack, u, hsc, hrun⟩ := gives_bind.1 h
  obtain ⟨-, rfl⟩ := gives_scope.1 hsc
  clear h
  simp only at hrun
  split at hrun
  · obtain ⟨rfl, rfl⟩ := gives_pure.1 hrun
    exact ⟨rfl, rfl, rfl⟩
  · split at hrun
    · rename_i iris _
      obtain ⟨members, v, hm, hret⟩ := gives_bind.1 hrun
      obtain ⟨rfl, rfl⟩ := gives_pure.1 hret
      obtain ⟨rfl, rfl⟩ := gives_mapM_nameIri iris hm
      have hiris : (Body.enumeration (u.names.nameIris iris).1).iris = iris := NameBook.map_fst_nameIris _ _
      rw [hiris]
      exact ⟨rfl, rfl, rfl⟩
    · split at hrun
      · obtain ⟨rfl, rfl⟩ := gives_pure.1 hrun
        exact ⟨rfl, rfl, rfl⟩
      · obtain ⟨rfl, rfl⟩ := gives_pure.1 hrun
        exact ⟨rfl, rfl, rfl⟩

/-- The connective of a composite, as the shape declares it, and the members. -/
theorem gives_compositeParts {parts : String × Connective × List Node}
    (h : (compositeParts shape).Gives s parts s') :
    s' = s ∧ shape.constraints.composition? = some parts.2 ∧ parts.1 = parts.2.1.feature := by
  unfold compositeParts at h
  unfold Constraints.composition?
  split at h
  · exact absurd h not_gives_ambiguous
  · rename_i hc ha
    obtain ⟨rfl, rfl⟩ := gives_pure.1 h
    exact ⟨rfl, by rw [hc, ha], rfl⟩
  · rename_i hc ha
    obtain ⟨rfl, rfl⟩ := gives_pure.1 h
    exact ⟨rfl, by rw [hc, ha], rfl⟩
  · exact absurd h not_gives_violation

end

/-! ## Names -/

section

variable {graph : ShapesGraph} {strict : Bool}

/-- The names of bare IRIs apart, finding what a shape is gives no names. -/
theorem Finds.shapes_names {shape : Shape} {s t t' : InferenceState} {refs props : List TypeUse}
    {finding : Finding} (h : Finds graph shape s refs t props finding t') :
    t'.names.shapes = t.names.shapes := by
  cases h with
  | composite => rfl
  | object => rfl
  | reference => rfl
  | value _ _ _ hbody =>
      rw [(gives_valueBody hbody).2.2]
      exact NameBook.shapes_nameIris _ _

theorem Leaves.names_eq {shape : Shape} {slot : Slot} {name : Name} {stack : ConstraintStack}
    {finding : Finding} {s t : InferenceState} {use : TypeUse}
    (h : Leaves strict shape slot name stack finding s use t) : t.names = s.names := by
  rw [h.state]
  show (s.settled shape slot name finding).names = s.names
  unfold InferenceState.settled
  split <;> rfl

theorem Request.grows_named (r : Request) (names : NameBook) : names.Grows (r.named graph names) := by
  unfold named
  split
  · exact names.grows_nameShape _
  · exact fun _ _ h => h

/-- **Shapes keep the names that they have.** -/
theorem Visit.grows {s s' : InferenceState} {rs : List Request} {us : List TypeUse}
    (h : Visit graph strict s rs us s') : s.names.Grows s'.names := by
  induction h using Visit.induction with
  | nil => exact fun _ _ h => h
  | @known s s' r rs us p _ _ ih =>
      have htouched : (s.touched r p).names = s.names := by
        unfold InferenceState.touched
        split
        · split <;> rfl
        · rfl
      refine NameBook.Grows.trans ?_ ih
      show s.names.Grows (r.named graph (s.touched r p).names)
      rw [htouched]
      exact r.grows_named _
  | @first s t s' r rs use us v _ ih₁ ih₂ ih =>
      have hbegun : s.names.Grows v.begun.names := s.names.grows_nameShape v.shape
      have hleft : v.t₂.names.Grows t.names := by
        intro id n hl
        rw [v.leaves.names_eq, v.finds.shapes_names]
        exact hl
      exact ((((hbegun.trans ih₁).trans ih₂).trans hleft).trans (r.grows_named _)).trans ih

end

/-! ## Shapes that are asked for -/

theorem InferenceState.progress?_scopes (s : InferenceState) (scopes : List ConstraintStack) (id : Node) :
    ({ s with scopes := scopes } : InferenceState).progress? id = s.progress? id := rfl

/-- What resolves single shapes does so as visits do: the answer can be put in front of a visit of further
requests. Where the slot alone matters, shapes that are known are not resolved at all. -/
def Answers (graph : ShapesGraph) (strict : Bool) (resolve : Node → Infer TypeUse) : Prop :=
  ∀ (r : Request) (s : InferenceState) (use : TypeUse) (t : InferenceState),
    (r.wantsUse = true ∨ s.progress? r.id = none) →
    (resolve r.id).Gives { s with scopes := r.openScopes s.scopes } use t →
      t.scopes = r.openScopes s.scopes ∧
      ∀ rs us s', Visit graph strict (r.answered graph s.scopes t) rs us s' →
        Visit graph strict s (r :: rs) (use :: us) s'

section

variable {graph : ShapesGraph} {strict : Bool} {resolve : Node → Infer TypeUse}
variable (hresolve : Answers graph strict resolve)

include hresolve

theorem visit_of_referredSlot {source id : Node} (purpose : Purpose) {s t : InferenceState} {slot : Slot}
    (hp : (⟨purpose, id⟩ : Request).wantsUse = false)
    (h : (referredSlot graph resolve source id).Gives
      { s with scopes := (⟨purpose, id⟩ : Request).openScopes s.scopes } slot t) :
    t.scopes = (⟨purpose, id⟩ : Request).openScopes s.scopes ∧ ∃ use : TypeUse, use.item = slot ∧
      ∀ rs us s', Visit graph strict { t with scopes := s.scopes } rs us s' →
        Visit graph strict s (⟨purpose, id⟩ :: rs) (use :: us) s' := by
  have hnamed : ∀ names, (⟨purpose, id⟩ : Request).named graph names = names := by
    intro names
    cases purpose <;> simp_all [Request.wantsUse, Request.named]
  have hknown : ∀ p : Progress, s.progress? id = some p → ∀ rs us s',
      Visit graph strict s rs us s' → Visit graph strict s (⟨purpose, id⟩ :: rs) (p.use :: us) s' := by
    intro p hprog rs us s' hv
    refine .known hprog ?_
    have hstate : (⟨purpose, id⟩ : Request).answered graph s.scopes (s.touched ⟨purpose, id⟩ p) = s := by
      cases p <;> simp [Request.answered, InferenceState.touched, hp, hnamed]
    rwa [hstate]
  unfold referredSlot at h
  rw [gives_get_bind] at h
  simp only [InferenceState.progress?_scopes] at h
  cases hprog : s.progress? id with
  | some p =>
      rw [hprog] at h
      cases p with
      | resolved use =>
          obtain ⟨rfl, rfl⟩ := gives_pure.1 h
          exact ⟨rfl, use, rfl, hknown _ hprog⟩
      | resolving slot' c =>
          obtain ⟨rfl, rfl⟩ := gives_pure.1 h
          exact ⟨rfl, ⟨c, slot⟩, rfl, hknown _ hprog⟩
  | none =>
      rw [hprog] at h
      simp only at h
      split at h
      · exact absurd h not_gives_malformed
      · obtain ⟨use, u, hrun, hret⟩ := gives_bind.1 h
        obtain ⟨rfl, rfl⟩ := gives_pure.1 hret
        obtain ⟨hsc, hv⟩ := hresolve ⟨purpose, id⟩ s use _ (Or.inr hprog) hrun
        refine ⟨hsc, use, rfl, fun rs us s' hvisit => hv rs us s' ?_⟩
        simpa [Request.answered, hnamed] using hvisit

theorem visit_of_members {source : Node} : ∀ (members : List Node) {s t : InferenceState}
    {slots : List Slot}, (members.mapM (referredSlot graph resolve source)).Gives s slots t →
    t.scopes = s.scopes ∧ ∃ refs : List TypeUse, refs.map (·.item) = slots ∧
      Visit graph strict s (members.map (⟨.member, ·⟩)) refs t
  | [], s, t, slots, h => by
    obtain ⟨rfl, rfl⟩ := gives_pure.1 (List.mapM_nil (m := Infer) ▸ h)
    exact ⟨rfl, [], rfl, .nil⟩
  | id :: members, s, t, slots, h => by
    rw [List.mapM_cons] at h
    obtain ⟨slot, u, hone, h⟩ := gives_bind.1 h
    obtain ⟨rest, v, hrest, hret⟩ := gives_bind.1 h
    obtain ⟨rfl, rfl⟩ := gives_pure.1 hret
    obtain ⟨hsc, use, rfl, hv⟩ := visit_of_referredSlot hresolve .member rfl hone
    obtain ⟨hsc', refs, rfl, hvisit⟩ := visit_of_members members hrest
    have hscopes : u.scopes = s.scopes := hsc
    have hu : { u with scopes := s.scopes } = u := by rw [← hscopes]
    exact ⟨hsc'.trans hscopes, use :: refs, rfl, hv _ _ _ (hu.symm ▸ hvisit)⟩

theorem visit_of_reference {source id : Node} {s t : InferenceState} {slot : Slot}
    (h : (detached (referredSlot graph resolve source id)).Gives s slot t) :
    t.scopes = s.scopes ∧ ∃ use : TypeUse, use.item = slot ∧
      Visit graph strict s [⟨.reference, id⟩] [use] t := by
  obtain ⟨u, hrun, rfl⟩ := gives_detached.1 h
  obtain ⟨hsc, use, rfl, hv⟩ := visit_of_referredSlot hresolve .reference rfl hrun
  refine ⟨by simp [hsc, Request.openScopes], use, rfl, ?_⟩
  have htail : u.scopes.tail = s.scopes := by simp [hsc, Request.openScopes]
  exact hv _ _ _ (htail ▸ .nil)

theorem visit_of_resolveParent {shape : Shape} {s t : InferenceState} {parent : Option Slot}
    (h : (resolveParent graph resolve shape).Gives s parent t) :
    t.scopes = s.scopes ∧ ∃ refs : List TypeUse, FindsParent shape t refs parent ∧
      Visit graph strict s (shape.constraints.nodes.map (⟨.reference, ·⟩)) refs t := by
  unfold resolveParent at h
  unfold FindsParent
  cases hn : shape.constraints.nodes with
  | nil =>
      rw [hn] at h
      obtain ⟨rfl, rfl⟩ := gives_pure.1 h
      exact ⟨rfl, [], Or.inl ⟨rfl, rfl⟩, .nil⟩
  | cons ancestor more =>
      cases more with
      | nil =>
          rw [hn] at h
          obtain ⟨slot, u, hrun, h⟩ := gives_bind.1 h
          rw [gives_get_bind] at h
          split at h
          · rename_i hobj
            obtain ⟨rfl, rfl⟩ := gives_pure.1 h
            obtain ⟨hsc, use, rfl, hv⟩ := visit_of_reference hresolve hrun
            exact ⟨hsc, [use], Or.inr ⟨ancestor, use, rfl, rfl, hobj, rfl⟩, hv⟩
          · exact absurd h not_gives_malformed
      | cons _ _ =>
          rw [hn] at h
          exact absurd h not_gives_ambiguous

theorem visit_of_resolveProperty {owner : Shape} {id : Node} {s t : InferenceState} {p : Property}
    (h : (resolveProperty graph resolve owner id).Gives s p t) :
    t.scopes = s.scopes ∧ DescribesProperty graph id p ∧ t.names.shapes.lookup p.shape = some p.name ∧
      ∀ rs us s', Visit graph strict t rs us s' →
        Visit graph strict s (⟨.property, id⟩ :: rs) (p.use :: us) s' := by
  unfold resolveProperty at h
  cases hs : graph.shape? id with
  | none =>
      rw [hs] at h
      exact absurd h not_gives_malformed
  | some shape =>
      rw [hs] at h
      cases hf : shape.property? with
      | none =>
          simp only [hf] at h
          exact absurd h not_gives_malformed
      | some form =>
          simp only [hf] at h
          obtain ⟨use, u, hrun, h⟩ := gives_bind.1 h
          cases hp : form.path.predicate? with
          | none =>
              rw [hp] at h
              exact absurd h not_gives_malformed
          | some path =>
              rw [hp] at h
              obtain ⟨name, v, hname, hret⟩ := gives_bind.1 h
              obtain ⟨rfl, rfl⟩ := gives_nameShape.1 hname
              obtain ⟨rfl, rfl⟩ := gives_pure.1 hret
              obtain ⟨w, hinner, rfl⟩ := gives_detached.1 hrun
              obtain ⟨hsc, hv⟩ := hresolve ⟨.property, id⟩ s use w (Or.inl rfl) hinner
              have htail : w.scopes.tail = s.scopes := by simp [hsc, Request.openScopes]
              have hid : shape.id = id := (ShapesGraph.shape?_eq_some hs).2
              refine ⟨htail, ⟨shape, form, hs, hf, hp, rfl, rfl, rfl, rfl, rfl, rfl, rfl⟩, ?_,
                fun rs us s' hvisit => hv rs us s' ?_⟩
              · rw [← hid]
                exact NameBook.lookup_nameShape _ _
              simpa [Request.answered, Request.named, hs, htail] using hvisit

theorem visit_of_properties {owner : Shape} : ∀ (ids : List Node) {s t : InferenceState}
    {properties : List Property}, (ids.mapM (resolveProperty graph resolve owner)).Gives s properties t →
    t.scopes = s.scopes ∧ List.Forall₂ (DescribesProperty graph) ids properties ∧
      (∀ p ∈ properties, t.names.shapes.lookup p.shape = some p.name) ∧
      Visit graph strict s (ids.map (⟨.property, ·⟩)) (properties.map (·.use)) t
  | [], s, t, properties, h => by
    obtain ⟨rfl, rfl⟩ := gives_pure.1 (List.mapM_nil (m := Infer) ▸ h)
    exact ⟨rfl, .nil, by simp, .nil⟩
  | id :: ids, s, t, properties, h => by
    rw [List.mapM_cons] at h
    obtain ⟨p, u, hone, h⟩ := gives_bind.1 h
    obtain ⟨rest, v, hrest, hret⟩ := gives_bind.1 h
    obtain ⟨rfl, rfl⟩ := gives_pure.1 hret
    obtain ⟨hsc, hp, hname, hv⟩ := visit_of_resolveProperty hresolve hone
    obtain ⟨hsc', hps, hnames, hvisit⟩ := visit_of_properties ids hrest
    refine ⟨hsc'.trans hsc, .cons hp hps, List.forall_mem_cons.2 ⟨?_, hnames⟩, hv _ _ _ hvisit⟩
    exact hvisit.grows _ _ hname

/-! ## One shape -/

theorem visit_of_compositeBody {shape : Shape} {s t : InferenceState} {body : Body}
    (h : (compositeBody graph resolve shape).Gives s body t) :
    t.scopes = s.scopes ∧ ∃ refs, Visit graph strict s shape.referenceRequests refs t ∧
      Finds graph shape t refs t [] (.type body) t := by
  unfold compositeBody at h
  obtain ⟨⟨feature, connective, members⟩, u, hparts, hrun⟩ := gives_bind.1 h
  obtain ⟨rfl, hcomp, -⟩ := gives_compositeParts hparts
  clear h
  simp only at hrun hcomp
  split at hrun
  · rw [gives_bind] at hrun
    obtain ⟨_, _, hno, _⟩ := hrun
    exact absurd hno not_gives_violation
  · rename_i hlen
    split at hrun
    · rw [gives_bind] at hrun
      obtain ⟨_, _, hno, _⟩ := hrun
      exact absurd hno not_gives_malformed
    · rename_i hparts
      obtain ⟨slots, v, hmembers, hret⟩ := gives_bind.1 hrun
      rw [gives_get_bind] at hret
      obtain ⟨rfl, rfl⟩ := gives_pure.1 hret
      obtain ⟨hsc, refs, rfl, hv⟩ := visit_of_members hresolve members hmembers
      simp only [Bool.or_eq_true, Bool.not_eq_true', not_or, Bool.not_eq_false, List.isEmpty_iff]
        at hparts
      refine ⟨hsc, refs, ?_, .composite hcomp (by omega) hparts.1 hparts.2⟩
      rwa [Shape.referenceRequests, hcomp]

theorem visit_of_objectBody {shape : Shape} {slot : Slot} {s t : InferenceState} {body : Body}
    (hc : shape.constraints.isComposite = false) (ho : shape.declaresObject = true)
    (h : (objectBody graph resolve shape slot).Gives s body t) :
    t.scopes = s.scopes ∧ ∃ refs props t₁,
      Visit graph strict { s with openObjects := slot :: s.openObjects } shape.referenceRequests refs t₁ ∧
      Visit graph strict t₁ shape.propertyRequests props t ∧
      Finds graph shape t₁ refs t props (.type body) t := by
  unfold objectBody at h
  obtain ⟨_, u, hopen, hrun⟩ := gives_bind.1 h
  obtain rfl := gives_modify.1 hopen
  obtain ⟨parent, t₁, hparent, hrun'⟩ := gives_bind.1 hrun
  obtain ⟨properties, t₂, hprops, hret⟩ := gives_bind.1 hrun'
  obtain ⟨rfl, rfl⟩ := gives_pure.1 hret
  obtain ⟨hsc, refs, hfinds, hv⟩ := visit_of_resolveParent hresolve hparent
  obtain ⟨hsc', hdesc, hnames, hv'⟩ := visit_of_properties hresolve shape.properties hprops
  refine ⟨hsc'.trans hsc, refs, properties.map (·.use), t₁, ?_, ?_, .object ho hfinds hdesc hnames⟩
  · have hcomp : shape.constraints.composition? = none := Constraints.composition?_eq_none hc
    rwa [Shape.referenceRequests, hcomp]
  · rwa [Shape.propertyRequests, if_pos ho]

theorem visit_of_referenceTarget {shape : Shape} {s t : InferenceState} {target : Slot}
    (hc : shape.constraints.isComposite = false) (hn : shape.isNode = false)
    (h : (referenceTarget graph resolve shape).Gives s target t) :
    t.scopes = s.scopes ∧ ∃ refs, Visit graph strict s shape.referenceRequests refs t ∧
      Finds graph shape t refs t [] (.standsFor target) t := by
  have hcomp : shape.constraints.composition? = none := Constraints.composition?_eq_none hc
  unfold referenceTarget at h
  simp only at h
  split at h
  · rename_i target' hnodes
    split at h
    · exact absurd h not_gives_malformed
    · rename_i hplain
      obtain ⟨hsc, use, rfl, hv⟩ := visit_of_reference hresolve h
      simp only [Bool.or_eq_true, not_or, Bool.not_eq_true, Option.isSome_eq_false_iff,
        Option.isNone_iff_eq_none] at hplain
      refine ⟨hsc, [use], ?_, .reference hc hn hnodes hplain.1 hplain.2⟩
      rwa [Shape.referenceRequests, hcomp, hnodes]
  · exact absurd h not_gives_ambiguous

omit hresolve in
theorem gives_afterPathCheck {α : Type} {shape : Shape} {s t : InferenceState} {a : α}
    {k : PUnit → Infer α}
    (h : Infer.Gives (match shape.property? with
      | some form =>
        if form.path.predicate?.isNone = true then
          malformed shape.id (.pathNotPredicate form.path) >>= k
        else k ()
      | _ => k ()) s a t) :
    (∀ form, shape.property? = some form → form.path.predicate?.isSome = true) ∧ (k ()).Gives s a t := by
  split at h
  · rename_i form hf
    split at h
    · obtain ⟨_, _, hno, _⟩ := gives_bind.1 h
      exact absurd hno not_gives_malformed
    · rename_i hp
      refine ⟨fun form' hf' => ?_, h⟩
      cases hf.symm.trans hf'
      simpa [Option.isSome_iff_ne_none] using hp
  · rename_i hf
    exact ⟨fun form hf' => absurd hf' (hf form), h⟩

/-- **What a shape is found to be.** -/
theorem visit_of_findingOf {shape : Shape} {slot : Slot} {s t : InferenceState} {finding : Finding}
    (h : (findingOf graph resolve shape slot).Gives s finding t) :
    t.scopes = s.scopes ∧
      (∀ form, shape.property? = some form → form.path.predicate?.isSome = true) ∧
      ∃ refs props t₁ t₂,
        Visit graph strict
          { s with openObjects := if shape.declaresObject then slot :: s.openObjects else s.openObjects }
          shape.referenceRequests refs t₁ ∧
        Visit graph strict t₁ shape.propertyRequests props t₂ ∧
        Finds graph shape t₁ refs t₂ props finding t := by
  unfold findingOf at h
  obtain ⟨hpath, hrun⟩ := gives_afterPathCheck h
  clear h
  split at hrun
  · rename_i hc
    obtain ⟨body, u, hbody, hret⟩ := gives_bind.1 hrun
    obtain ⟨rfl, rfl⟩ := gives_pure.1 hret
    obtain ⟨hsc, refs, hv, hfinds⟩ := visit_of_compositeBody hresolve hbody
    have hno : shape.declaresObject = false := by simp [Shape.declaresObject, hc]
    refine ⟨hsc, hpath, refs, [], t, t, by simpa [hno] using hv, ?_, hfinds⟩
    simpa [Shape.propertyRequests, hno] using .nil
  · rename_i hc
    simp only [Bool.not_eq_true] at hc
    split at hrun
    · rename_i ho
      obtain ⟨body, u, hbody, hret⟩ := gives_bind.1 hrun
      obtain ⟨rfl, rfl⟩ := gives_pure.1 hret
      obtain ⟨hsc, refs, props, t₁, hv, hv', hfinds⟩ := visit_of_objectBody hresolve hc ho hbody
      exact ⟨hsc, hpath, refs, props, t₁, t, by simpa [ho] using hv, hv', hfinds⟩
    · rename_i ho
      simp only [Bool.not_eq_true] at ho
      have hno : Visit graph strict t shape.propertyRequests [] t := by
        simpa [Shape.propertyRequests, ho] using .nil
      have hcomp : shape.constraints.composition? = none := Constraints.composition?_eq_none hc
      split at hrun
      · rename_i hn
        obtain ⟨body, u, hbody, hret⟩ := gives_bind.1 hrun
        obtain ⟨rfl, rfl⟩ := gives_pure.1 hret
        rw [List.isEmpty_iff] at hn
        obtain ⟨-, -, rfl⟩ := gives_valueBody hbody
        refine ⟨rfl, hpath, [], [], s, s, ?_, ?_, .value hc ho hn hbody⟩
        · simpa [ho, Shape.referenceRequests, hcomp, hn] using .nil
        · simpa [Shape.propertyRequests, ho] using .nil
      · split at hrun
        · exact absurd hrun not_gives_malformed
        · rename_i hnode
          simp only [Bool.not_eq_true] at hnode
          obtain ⟨target, u, htarget, hret⟩ := gives_bind.1 hrun
          obtain ⟨rfl, rfl⟩ := gives_pure.1 hret
          obtain ⟨hsc, refs, hv, hfinds⟩ := visit_of_referenceTarget hresolve hc hnode htarget
          exact ⟨hsc, hpath, refs, [], t, t, by simpa [ho] using hv, hno, hfinds⟩

omit hresolve in
theorem settled_scopes {s : InferenceState} {shape : Shape} {slot : Slot} {name : Name}
    {finding : Finding} : (s.settled shape slot name finding).scopes = s.scopes := by
  unfold InferenceState.settled
  split <;> rfl

/-- The type and cardinality of a shape that is on top of the constraint stack. -/
theorem visit_of_inferUse {shape : Shape} {slot : Slot} {name : Name} {s t : InferenceState}
    {stack : ConstraintStack} {rest : List ConstraintStack} {use : TypeUse}
    (hs : s.scopes = stack :: rest)
    (h : (inferUse graph strict resolve shape slot name).Gives s use t) :
    t.scopes = s.scopes ∧
      (∀ form, shape.property? = some form → form.path.predicate?.isSome = true) ∧
      ∃ refs props t₁ t₂ finding t₃,
        Visit graph strict
          { s with openObjects := if shape.declaresObject then slot :: s.openObjects else s.openObjects }
          shape.referenceRequests refs t₁ ∧
        Visit graph strict t₁ shape.propertyRequests props t₂ ∧
        Finds graph shape t₁ refs t₂ props finding t₃ ∧
        Leaves strict shape slot name stack finding t₃ use (t.concluded shape.id use) := by
  unfold inferUse at h
  obtain ⟨finding, t₃, hfinding, h₁⟩ := gives_bind.1 h
  obtain ⟨item, t₄, hsettle, h₂⟩ := gives_bind.1 h₁
  obtain ⟨_, t₅, hclose, h₃⟩ := gives_bind.1 h₂
  obtain ⟨cardinality, t₆, hcard, hret⟩ := gives_bind.1 h₃
  obtain ⟨rfl, rfl⟩ := gives_pure.1 hret
  obtain ⟨hsc, hpath, refs, props, t₁, t₂, hv, hv', hfinds⟩ := visit_of_findingOf hresolve hfinding
  obtain ⟨rfl, rfl⟩ := gives_settle hsettle
  obtain rfl := gives_modify.1 hclose
  have hscopes : ((t₃.settled shape slot name finding).closed slot).scopes = stack :: rest := by
    rw [InferenceState.closed, settled_scopes, hsc, hs]
  obtain ⟨hfinal, rfl⟩ := gives_cardinalityOf hscopes hcard
  exact ⟨hscopes.trans hs.symm, hpath, refs, props, t₁, t₂, finding, t₃, hv, hv', hfinds,
    ⟨rfl, hfinal, rfl⟩⟩

/-- **A shape that is resolved for the first time.** -/
theorem answers_resolveFirst {r : Request} {s t : InferenceState} {use : TypeUse}
    (hnew : s.progress? r.id = none)
    (h : (resolveFirst graph strict resolve r.id).Gives { s with scopes := r.openScopes s.scopes } use t) :
    t.scopes = r.openScopes s.scopes ∧
      ∀ rs us s', Visit graph strict (r.answered graph s.scopes t) rs us s' →
        Visit graph strict s (r :: rs) (use :: us) s' := by
  unfold resolveFirst at h
  cases hf : graph.frame? r.id with
  | none =>
      simp only [hf] at h
      exact absurd h not_gives_violation
  | some frame =>
      simp only [hf] at h
      obtain ⟨slot, s₁, hslot, h₁⟩ := gives_bind.1 h
      obtain ⟨rfl, rfl⟩ := gives_newSlot.1 hslot
      obtain ⟨_, s₂, hpush, h₂⟩ := gives_bind.1 h₁
      obtain ⟨outer, rest, stack, hsc, hstack, rfl⟩ := gives_updateScope.1 hpush
      obtain ⟨early, s₃, hbounds, h₃⟩ := gives_bind.1 h₂
      obtain ⟨hearly, rfl⟩ := gives_earlyCardinality rfl hbounds
      obtain ⟨_, s₄, hrem, h₄⟩ := gives_bind.1 h₃
      obtain rfl := gives_remember.1 hrem
      obtain ⟨name, s₅, hname, h₅⟩ := gives_bind.1 h₄
      obtain ⟨rfl, rfl⟩ := gives_nameShape.1 hname
      obtain ⟨use', s₆, huse, h₆⟩ := gives_bind.1 h₅
      obtain ⟨_, s₇, hpop, h₇⟩ := gives_bind.1 h₆
      obtain ⟨_, s₈, hdone, hret⟩ := gives_bind.1 h₇
      obtain ⟨rfl, rfl⟩ := gives_pure.1 hret
      obtain rfl := gives_remember.1 hdone
      obtain ⟨hscopes, hpath, refs, props, t₁, t₂, finding, t₃, hv, hv', hfinds, hleaves⟩ :=
        visit_of_inferUse hresolve rfl huse
      obtain ⟨stack', rest', outer', hscopes', houter, rfl⟩ := gives_updateScope.1 hpop
      cases hscopes.symm.trans hscopes'
      cases (ConstraintStack.pop_of_push hstack).symm.trans houter
      obtain ⟨-, hid⟩ := ShapesGraph.frame?_eq_some hf
      refine ⟨hsc.symm, fun rs us s' hrest =>
        .first hnew hf hsc hstack hearly hpath ?_ hv' hfinds hleaves ?_⟩
      · rw [InferenceState.begun, hid]
        exact hv
      · rw [hid]
        exact hrest

end

/-! ## All shapes -/

/-- **Resolving a shape once answers as visits do.** -/
theorem answers_resolveOnce {graph : ShapesGraph} {strict : Bool} {resolve : Node → Infer TypeUse}
    (hresolve : Answers graph strict resolve) : Answers graph strict (resolveOnce graph strict resolve) := by
  intro r s use t hr h
  unfold resolveOnce at h
  rw [gives_get_bind] at h
  simp only [InferenceState.progress?_scopes] at h
  cases hprog : s.progress? r.id with
  | none =>
      rw [hprog] at h
      exact answers_resolveFirst hresolve hprog h
  | some p =>
      have hwants : r.wantsUse = true := by simpa [hprog] using hr
      rw [hprog] at h
      cases p with
      | resolved use' =>
          obtain ⟨rfl, rfl⟩ := gives_pure.1 h
          exact ⟨rfl, fun rs us s' hv => .known hprog hv⟩
      | resolving slot c =>
          obtain ⟨_, u, hmod, hret⟩ := gives_bind.1 h
          obtain rfl := gives_modify.1 hmod
          obtain ⟨rfl, rfl⟩ := gives_pure.1 hret
          refine ⟨rfl, fun rs us s' hv => .known hprog ?_⟩
          simpa [InferenceState.touched, hwants, Request.answered] using hv

/-- **Resolving within any bound answers as visits do.** -/
theorem answers_resolveWithin (graph : ShapesGraph) (strict : Bool) : ∀ fuel,
    Answers graph strict (resolveWithin graph strict fuel)
  | 0 => fun _ _ _ _ _ h => absurd h not_gives_violation
  | fuel + 1 => answers_resolveOnce (answers_resolveWithin graph strict fuel)

/-- A shape that is resolved for itself, in a scope of its own. -/
theorem visit_of_root {graph : ShapesGraph} {strict : Bool} {resolve : Node → Infer TypeUse}
    (hresolve : Answers graph strict resolve) {id : Node} {s t : InferenceState} {use : TypeUse}
    (h : (detached (resolve id)).Gives s use t) {rs : List Request} {us : List TypeUse}
    {s' : InferenceState} (hv : Visit graph strict t rs us s') :
    Visit graph strict s (⟨.root, id⟩ :: rs) (use :: us) s' := by
  obtain ⟨w, hinner, rfl⟩ := gives_detached.1 h
  obtain ⟨hsc, hvisit⟩ := hresolve ⟨.root, id⟩ s use w (Or.inl rfl) hinner
  have htail : w.scopes.tail = s.scopes := by simp [hsc, Request.openScopes]
  refine hvisit rs us s' ?_
  simpa [Request.answered, Request.named, htail] using hv

/-- The shapes of a list, each resolved in a scope of its own. -/
theorem visit_of_roots {graph : ShapesGraph} {strict : Bool} {resolve : Node → Infer TypeUse}
    (hresolve : Answers graph strict resolve) : ∀ (ids : List Node) {s s' : InferenceState} {u : PUnit},
    (ids.forM fun id => do let _ ← detached (resolve id)).Gives s u s' →
      ∃ us, Visit graph strict s (ids.map (⟨.root, ·⟩)) us s'
  | [], s, s', u, h => by
    obtain ⟨-, rfl⟩ := gives_pure.1 h
    exact ⟨[], .nil⟩
  | id :: ids, s, s', u, h => by
    obtain ⟨_, t, hone, hrest⟩ := gives_bind.1
      (show Infer.Gives ((do let _ ← detached (resolve id)) >>= fun _ => ids.forM _) s u s' from h)
    obtain ⟨use, v, hrun, hret⟩ := gives_bind.1 hone
    obtain ⟨-, rfl⟩ := gives_pure.1 hret
    obtain ⟨us, hvisit⟩ := visit_of_roots hresolve ids hrest
    exact ⟨use :: us, visit_of_root hresolve hrun hvisit⟩

/-- **Every successful run is a visit of all shapes.** -/
theorem visit_of_resolveAll {graph : ShapesGraph} {strict : Bool} {s s' : InferenceState} {u : Unit}
    (h : (resolveAll graph strict).Gives s u s') :
    ∃ us, Visit graph strict s (graph.ids.map (⟨.root, ·⟩)) us s' :=
  visit_of_roots (answers_resolveWithin graph strict (graph.size + 1)) graph.ids h

end ShapeTypes
