import ShapeTypes.Proofs.Inference.Alike
import ShapeTypes.Proofs.Inference.CompositeKind
import ShapeTypes.Proofs.Inference.Nesting

/-!
# What resolving a shape may refuse

* `Malformed.Attributed`, `Ambiguity.Attributed` — what is wrong with a shape that is refused;
* `Refusal` — a shape of the graph is malformed, ambiguous, or composed of fewer than two members;
* `AlikeWithin` — two ways to resolve the shapes that are asked for end alike, as far as the first one has no
  reasons of its own to fail, and refuse nothing else;
* `alike_referredSlot`, …, `alike_inferUse` — so do the parts of resolving a shape with them;
* `alike_resolveOnce` — **so does resolving a shape**: stacks, scopes and slots are always in order;
* `alike_root` — **and one that no other asks for leaves nothing halfway**.
-/

namespace ShapeTypes

open Rdf Infer

variable {graph : ShapesGraph} {strict : Bool} {D : InferenceError → Prop}

/-- A property shape that stands for the shapes it refers to. -/
def Shape.IsReference (shape : Shape) : Prop :=
  shape.constraints.isComposite = false ∧ shape.isNode = false ∧ shape.constraints.nodes ≠ []

/-- What is wrong with a malformed shape of a graph, or with the scope that it is resolved in. A shape that is
not there is blamed on one that refers to it, or has it as a property. Lazy properties are checked only once all
shapes are resolved. -/
def Malformed.Attributed (graph : ShapesGraph) (id : Node) : Malformed → Prop
  | .boundsReversed bounds => ∃ shape stack d, graph.shape? id = some shape ∧ shape.isNode = false ∧
    graph.InForce id stack ∧
      Cardinality.ofBounds stack.minCount? stack.maxCount? d stack.mutable = .error bounds
  | .pathNotPredicate path => ∃ shape form, graph.shape? id = some shape ∧ shape.property? = some form ∧
    form.path = path ∧ path.predicate? = none
  | .propertyPathNotPredicate => ∃ shape form, graph.shape? id = some shape ∧ shape.property? = some form ∧
    form.path.predicate? = none
  | .nodeOnValueShape => ∃ shape, graph.shape? id = some shape ∧ shape.isNode = true ∧
    shape.constraints.isComposite = false ∧ shape.declaresObject = false ∧ shape.constraints.nodes ≠ []
  | .compositeWithParts _ => ∃ shape, graph.shape? id = some shape ∧ shape.constraints.isComposite = true ∧
    (shape.constraints.nodes ≠ [] ∨ shape.properties ≠ [])
  | .ancestorNotObject ancestor => ∃ shape, graph.shape? id = some shape ∧ shape.declaresObject = true ∧
    shape.constraints.nodes = [ancestor] ∧ ¬ graph.DeclaresObject ancestor
  | .propertyUndefined property => (∃ shape, graph.shape? id = some shape ∧ shape.declaresObject = true ∧
    property ∈ shape.properties) ∧ property ∉ graph.ids
  | .propertyNotProperty property => ∃ shape other, graph.shape? id = some shape ∧
    shape.declaresObject = true ∧ property ∈ shape.properties ∧ graph.shape? property = some other ∧
      other.property? = none
  | .referenceWithValues => ∃ shape target, graph.shape? id = some shape ∧ shape.IsReference ∧
    shape.constraints.nodes = [target] ∧ (shape.constraints.datatype.isSome = true ∨
      ((shape.constraints.oneOf.getD []).any fun t => t.literal?.isSome) = true)
  | .referenceUndefined target => graph.Refers id target ∧ target ∉ graph.ids
  | .lazyNotObject _ => False
  | .default cause => ∃ term target strict, graph.EffectiveDefault id term ∧
    defaultFor term target strict = .error cause

/-- Of what an ambiguous shape of a graph declares too many. -/
def Ambiguity.Attributed (graph : ShapesGraph) (id : Node) : Ambiguity → Prop
  | .connectives => ∃ shape, graph.shape? id = some shape ∧ shape.constraints.conjunction.isSome = true ∧
    shape.constraints.alternatives.isSome = true
  | .ancestors count => ∃ shape, graph.shape? id = some shape ∧ shape.declaresObject = true ∧
    shape.constraints.nodes.length = count ∧ 2 ≤ count
  | .references count => ∃ shape, graph.shape? id = some shape ∧ shape.IsReference ∧
    shape.constraints.nodes.length = count ∧ 2 ≤ count

/-- A shape of the graph is refused: it is malformed, ambiguous, or composed of fewer than two members. -/
inductive Refusal (graph : ShapesGraph) : InferenceError → Prop where
  | malformed {id cause} : id ∈ graph.ids → cause.Attributed graph id → Refusal graph (.malformed id cause)
  | ambiguous {id cause} : id ∈ graph.ids → cause.Attributed graph id → Refusal graph (.ambiguous id cause)
  | tooFewMembers {id shape connective members} : graph.shape? id = some shape →
      shape.constraints.composition? = some (connective, members) → members.length < 2 →
      Refusal graph (.invariant id (.tooFewMembers connective.feature members.length))

theorem ShapesGraph.Refers.of_nodes {shape : Shape} {id target : Node} (h : graph.shape? id = some shape)
    (ht : target ∈ shape.constraints.nodes) : graph.Refers id target :=
  ⟨shape, h, by simp [Constraints.references, ht]⟩

/-- Once the finding on a shape is in its slot, aliases lead from its items to a slot that is there. -/
theorem InferenceState.follow_settled_lt {s : InferenceState} {shape : Shape} {slot : Slot} {name : Name}
    {finding : Finding} (hplace : s.slots[slot]? = some (.placeholder shape.id))
    (htargets : ∀ a ∈ s.aliases, a.target < s.slots.length)
    (hitem : finding.item shape slot < s.slots.length) :
    follow (s.settled shape slot name finding).aliases (finding.item shape slot) <
      (s.settled shape slot name finding).slots.length := by
  rw [settled_eq hplace]
  simp only [List.length_append, List.length_set]
  refine Nat.lt_add_right _ (Alias.follow_lt (fun a ha => ?_) hitem)
  rcases List.mem_append.1 ha with ha | ha
  · exact htargets a ha
  · rw [(Finding.mem_aliases ha).2.2]
    exact hitem

/-! ## The parts without recursion -/

section

variable {shape : Shape} {s : InferenceState} {stack : ConstraintStack} {rest : List ConstraintStack}

theorem alike_valueBody (hs : s.scopes = stack :: rest) :
    Alike D (Refusal graph) s (valueBody shape) (valueBody shape) := by
  refine .scope_bind hs ?_
  simp only
  split
  · exact .pure
  · split
    · refine (Alike.mapM (J := fun _ => True) (fun i _ t _ => ⟨?_, fun _ _ _ => trivial⟩) trivial).bind
        fun _ _ _ => .pure
      exact Alike.nameIri.bind fun _ _ _ => .pure
    · split <;> exact .pure

theorem alike_boundedCardinality (hs : graph.shape? shape.id = some shape) (hn : shape.isNode = false)
    (hf : graph.InForce shape.id stack) {d : Option DefaultValue} :
    Alike D (Refusal graph) s (boundedCardinality shape.id stack d) (boundedCardinality shape.id stack d) := by
  have hid : shape.id ∈ graph.ids := ShapesGraph.mem_ids.2 ⟨shape, hs⟩
  unfold boundedCardinality
  split
  · exact .pure
  · rename_i bounds hbounds
    exact .malformed (.malformed hid ⟨shape, stack, d, hs, hn, hf, hbounds⟩)

theorem alike_earlyCardinality (hs : graph.shape? shape.id = some shape) (hscopes : s.scopes = stack :: rest)
    (hf : graph.InForce shape.id stack) :
    Alike D (Refusal graph) s (earlyCardinality shape) (earlyCardinality shape) := by
  unfold earlyCardinality
  split
  · exact .pure
  · rename_i hn
    refine .scope_bind hscopes ?_
    split
    · exact .pure
    · exact alike_boundedCardinality hs (Bool.eq_false_iff.2 hn) hf

theorem alike_itemDefault (hid : shape.id ∈ graph.ids) {term : Term} (ht : graph.EffectiveDefault shape.id term)
    {item : Slot} (hitem : follow s.aliases item < s.slots.length) :
    Alike D (Refusal graph) s (itemDefault strict shape.id term item)
      (itemDefault strict shape.id term item) := by
  refine .get_bind ?_
  simp only [List.getElem?_eq_getElem hitem]
  split
  · split
    · exact .pure
    · rename_i cause hcause
      exact .malformed (.malformed hid ⟨term, _, strict, ht, hcause⟩)
  · split
    · exact .pure
    · rename_i cause hcause
      exact .malformed (.malformed hid ⟨term, _, strict, ht, hcause⟩)

theorem alike_cardinalityOf (hs : graph.shape? shape.id = some shape) (hscopes : s.scopes = stack :: rest)
    (hf : graph.InForce shape.id stack) {item : Slot} (hitem : follow s.aliases item < s.slots.length) :
    Alike D (Refusal graph) s (cardinalityOf strict shape item) (cardinalityOf strict shape item) := by
  unfold cardinalityOf
  split
  · exact .pure
  · rename_i hn
    refine .scope_bind hscopes ?_
    have hbounds : ∀ {t : InferenceState} {d : Option DefaultValue}, Alike D (Refusal graph) t
        (boundedCardinality shape.id stack d) (boundedCardinality shape.id stack d) :=
      alike_boundedCardinality hs (Bool.eq_false_iff.2 hn) hf
    split
    · rename_i term hterm
      have hid : shape.id ∈ graph.ids := ShapesGraph.mem_ids.2 ⟨shape, hs⟩
      exact (alike_itemDefault hid (hf.effectiveDefault hterm) hitem).bind fun _ _ _ => hbounds
    · exact hbounds

theorem alike_settle {slot : Slot} {name : Name} {finding : Finding} (hslot : slot < s.slots.length) :
    Alike D (Refusal graph) s (settle shape slot name finding) (settle shape slot name finding) := by
  unfold settle
  simp only
  split
  · exact (Alike.writeSlot hslot).bind fun _ _ _ => .pure
  · exact Alike.addAlias.bind fun _ _ _ => .pure
  · refine Alike.newSlot.bind fun inner t ht => ?_
    obtain ⟨rfl, rfl⟩ := gives_newSlot.1 ht
    refine (Alike.writeSlot ?_).bind fun _ _ _ => .pure
    rw [List.length_append]
    exact Nat.lt_add_right _ hslot
  · exact (Alike.writeSlot hslot).bind fun _ _ _ => .pure

end

/-! ## What a shape is -/

/-- Two ways to resolve the shapes that are asked for while some are being resolved end alike, unless the first
one fails for a reason of its own, and the second one refuses nothing else than shapes of the graph. -/
def AlikeWithin (D : InferenceError → Prop) (graph : ShapesGraph) (nest : List Node)
    (resolve₁ resolve₂ : Node → Infer TypeUse) : Prop :=
  ∀ (r : Request) (s : InferenceState), Asked graph nest r s →
    Alike D (Refusal graph) { s with scopes := r.openScopes s.scopes } (resolve₁ r.id) (resolve₂ r.id)

section

variable {nest : List Node} {resolve₁ resolve₂ : Node → Infer TypeUse} {shape : Shape} {s : InferenceState}
variable (hresolve : Answers graph strict resolve₂)
variable (halike : AlikeWithin D graph (shape.id :: nest) resolve₁ resolve₂)

include halike

omit halike in
theorem two_le_length {ns : List Node} (hnil : ns ≠ []) (hone : ∀ n, ns ≠ [n]) : 2 ≤ ns.length := by
  cases ns with
  | nil => exact absurd rfl hnil
  | cons n rest =>
      cases rest with
      | nil => exact absurd rfl (hone n)
      | cons => simp

theorem alike_referredSlot {id : Node} (purpose : Purpose) (hi : Inside graph shape.id nest s)
    (hrefers : graph.Refers shape.id id) (hmember : purpose = .member → graph.Composes shape.id id) :
    Alike D (Refusal graph) { s with scopes := (⟨purpose, id⟩ : Request).openScopes s.scopes }
      (referredSlot graph resolve₁ shape.id id) (referredSlot graph resolve₂ shape.id id) := by
  have hsource : shape.id ∈ graph.ids := hrefers.mem_ids
  refine .get_bind ?_
  simp only [InferenceState.progress?_scopes]
  split
  · exact .pure
  · exact .pure
  · split
    · rename_i hnone
      refine .malformed (.malformed hsource ⟨hrefers, fun hid => ?_⟩)
      obtain ⟨shape, hs⟩ := ShapesGraph.mem_ids.1 hid
      simp [hs] at hnone
    · rename_i hsome
      have hid : id ∈ graph.ids := by
        rw [Option.isNone_iff_eq_none] at hsome
        exact ShapesGraph.mem_ids.2 (Option.ne_none_iff_exists'.1 hsome)
      exact (halike ⟨purpose, id⟩ s (hi.asked hid hmember)).bind fun _ _ _ => .pure

theorem alike_resolveProperty {id : Node} (hs : graph.shape? shape.id = some shape)
    (ho : shape.declaresObject = true) (hid : id ∈ shape.properties) (hi : Inside graph shape.id nest s) :
    Alike D (Refusal graph) s (resolveProperty graph resolve₁ shape id)
      (resolveProperty graph resolve₂ shape id) := by
  have howner : shape.id ∈ graph.ids := ShapesGraph.mem_ids.2 ⟨shape, hs⟩
  unfold resolveProperty
  cases hp : graph.shape? id with
  | none =>
      refine .malformed (.malformed howner ⟨⟨shape, hs, ho, hid⟩, fun hmem => ?_⟩)
      obtain ⟨_, hp'⟩ := ShapesGraph.mem_ids.1 hmem
      cases hp.symm.trans hp'
  | some property =>
      have hdeclared : id ∈ graph.ids := ShapesGraph.mem_ids.2 ⟨property, hp⟩
      simp only
      cases hform : property.property? with
      | none => exact .malformed (.malformed howner ⟨shape, property, hs, ho, hid, hp, hform⟩)
      | some form =>
          refine (Alike.detached (halike ⟨.property, id⟩ s (hi.asked hdeclared nofun))).bind fun use t _ => ?_
          cases hpath : form.path.predicate? with
          | none => exact .malformed (.malformed hdeclared ⟨property, form, hp, hform, hpath⟩)
          | some path => exact Alike.nameShape.bind fun _ _ _ => .pure

theorem alike_referenceTarget (hs : graph.shape? shape.id = some shape) (hr : shape.IsReference)
    (hi : Inside graph shape.id nest s) :
    Alike D (Refusal graph) s (referenceTarget graph resolve₁ shape) (referenceTarget graph resolve₂ shape) := by
  have hid : shape.id ∈ graph.ids := ShapesGraph.mem_ids.2 ⟨shape, hs⟩
  unfold referenceTarget
  simp only
  split
  · rename_i target hn
    split
    · rename_i hvalues
      rw [Bool.or_eq_true] at hvalues
      exact .malformed (.malformed hid ⟨shape, target, hs, hr, hn, hvalues⟩)
    · exact .detached (alike_referredSlot halike .reference hi (.of_nodes hs (by simp [hn])) nofun)
  · rename_i hone
    exact .ambiguous (.ambiguous hid ⟨shape, hs, hr, rfl, two_le_length hr.2.2 hone⟩)

include hresolve

theorem alike_resolveParent (hs : graph.shape? shape.id = some shape) (ho : shape.declaresObject = true)
    (hi : Inside graph shape.id nest s) :
    Alike D (Refusal graph) s (resolveParent graph resolve₁ shape) (resolveParent graph resolve₂ shape) := by
  have hid : shape.id ∈ graph.ids := ShapesGraph.mem_ids.2 ⟨shape, hs⟩
  unfold resolveParent
  split
  · exact .pure
  · rename_i ancestor hn
    have hrefers : graph.Refers shape.id ancestor := .of_nodes hs (by simp [hn])
    refine (Alike.detached (alike_referredSlot halike .reference hi hrefers nofun)).bind fun parent t ht => ?_
    refine .get_bind ?_
    split
    · exact .pure
    · rename_i hacts
      refine .malformed (.malformed hid ⟨shape, hs, ho, hn, fun hobject => hacts ?_⟩)
      -- The slot of a shape that declares an object acts as one from the start.
      obtain ⟨-, use, rfl, hv⟩ := visit_of_reference hresolve ht
      obtain ⟨hanswered, -⟩ := List.forall₂_cons.1 hv.answers
      exact (hi.visit hv).lawful.actsAsObject_of_declares hanswered.denotes hobject
  · rename_i hnil hone
    exact .ambiguous (.ambiguous hid ⟨shape, hs, ho, rfl, two_le_length hnil hone⟩)

theorem alike_members {members : List Node} (hi : Inside graph shape.id nest s)
    (hcomposes : ∀ id ∈ members, graph.Composes shape.id id) :
    Alike D (Refusal graph) s (members.mapM (referredSlot graph resolve₁ shape.id))
      (members.mapM (referredSlot graph resolve₂ shape.id)) := by
  refine .mapM (J := Inside graph shape.id nest) (fun id hid t hi => ?_) hi
  have hmember := hcomposes id hid
  refine ⟨alike_referredSlot halike .member hi hmember.refers fun _ => hmember, fun slot t' h => ?_⟩
  obtain ⟨hsc, use, -, hv⟩ := visit_of_referredSlot hresolve .member rfl h
  have hscopes : t'.scopes = t.scopes := hsc
  have hstate : { t' with scopes := t.scopes } = t' := by rw [← hscopes]
  exact hi.visit (hv [] [] t' (hstate ▸ .nil))

theorem alike_properties (hs : graph.shape? shape.id = some shape) (ho : shape.declaresObject = true)
    (hi : Inside graph shape.id nest s) :
    Alike D (Refusal graph) s (shape.properties.mapM (resolveProperty graph resolve₁ shape))
      (shape.properties.mapM (resolveProperty graph resolve₂ shape)) := by
  refine .mapM (J := Inside graph shape.id nest) (fun id hid t hi => ?_) hi
  refine ⟨alike_resolveProperty halike hs ho hid hi, fun p t' h => ?_⟩
  obtain ⟨-, -, -, hv⟩ := visit_of_resolveProperty hresolve h
  exact hi.visit (hv [] [] t' .nil)

theorem alike_compositeBody (hs : graph.shape? shape.id = some shape)
    (hc : shape.constraints.isComposite = true) (hi : Inside graph shape.id nest s) :
    Alike D (Refusal graph) s (compositeBody graph resolve₁ shape) (compositeBody graph resolve₂ shape) := by
  have hid : shape.id ∈ graph.ids := ShapesGraph.mem_ids.2 ⟨shape, hs⟩
  have hparts : Alike D (Refusal graph) s (compositeParts shape) (compositeParts shape) := by
    unfold compositeParts
    split
    · rename_i hconj halt
      exact .ambiguous (.ambiguous hid ⟨shape, hs, by simp [hconj], by simp [halt]⟩)
    · exact .pure
    · exact .pure
    · rename_i hno hno'
      simp [Constraints.isComposite, hno, hno'] at hc
  refine hparts.bind fun parts t ht => ?_
  obtain ⟨feature, connective, members⟩ := parts
  obtain ⟨rfl, hcomp, hfeature⟩ := gives_compositeParts ht
  obtain rfl : feature = connective.feature := hfeature
  have hcomposes : ∀ id ∈ members, graph.Composes shape.id id := fun id hmem =>
    ⟨shape, connective, members, hs, hcomp, hmem⟩
  simp only
  split
  · rename_i hlt
    exact .fails_bind (.violation (.tooFewMembers hs hcomp hlt)) fun _ _ => not_gives_violation
  · split
    · rename_i hparts
      simp only [Bool.or_eq_true, Bool.not_eq_true', List.isEmpty_eq_false_iff] at hparts
      exact .fails_bind (.malformed (.malformed hid ⟨shape, hs, hc, hparts⟩)) fun _ _ => not_gives_malformed
    · exact (alike_members hresolve halike hi hcomposes).bind fun _ _ _ => .get_bind .pure

theorem alike_objectBody {slot : Slot} (hs : graph.shape? shape.id = some shape)
    (ho : shape.declaresObject = true)
    (hi : Inside graph shape.id nest { s with openObjects := slot :: s.openObjects }) :
    Alike D (Refusal graph) s (objectBody graph resolve₁ shape slot) (objectBody graph resolve₂ shape slot) := by
  refine .modify_bind ((alike_resolveParent hresolve halike hs ho hi).bind fun parent t ht => ?_)
  obtain ⟨-, refs, -, hv⟩ := visit_of_resolveParent hresolve ht
  exact (alike_properties hresolve halike hs ho (hi.visit hv)).bind fun _ _ _ => .pure

omit hresolve halike in
theorem alike_afterPathCheck {α : Type} {k₁ k₂ : PUnit → Infer α} (hs : graph.shape? shape.id = some shape)
    (h : Alike D (Refusal graph) s (k₁ ()) (k₂ ())) :
    Alike D (Refusal graph) s
      (match shape.property? with
      | some form =>
        if form.path.predicate?.isNone = true then malformed shape.id (.pathNotPredicate form.path) >>= k₁
        else k₁ ()
      | _ => k₁ ())
      (match shape.property? with
      | some form =>
        if form.path.predicate?.isNone = true then malformed shape.id (.pathNotPredicate form.path) >>= k₂
        else k₂ ()
      | _ => k₂ ()) := by
  have hid : shape.id ∈ graph.ids := ShapesGraph.mem_ids.2 ⟨shape, hs⟩
  split
  · rename_i form hform
    split
    · rename_i hpath
      rw [Option.isNone_iff_eq_none] at hpath
      exact .fails_bind (.malformed (.malformed hid ⟨shape, form, hs, hform, rfl, hpath⟩)) fun _ _ =>
        not_gives_malformed
    · exact h
  · exact h

/-- **What a shape is.** Its slot counts as an object's already if it declares one. -/
theorem alike_findingOf {slot : Slot} (hs : graph.shape? shape.id = some shape)
    (hi : Inside graph shape.id nest
      { s with openObjects := if shape.declaresObject then slot :: s.openObjects else s.openObjects }) :
    Alike D (Refusal graph) s (findingOf graph resolve₁ shape slot) (findingOf graph resolve₂ shape slot) := by
  have hid : shape.id ∈ graph.ids := ShapesGraph.mem_ids.2 ⟨shape, hs⟩
  have hplain : shape.declaresObject = false → Inside graph shape.id nest s := by
    intro hno
    simpa [hno] using hi
  refine alike_afterPathCheck hs ?_
  split
  · rename_i hc
    have hno : shape.declaresObject = false := by simp [Shape.declaresObject, hc]
    exact (alike_compositeBody hresolve halike hs hc (hplain hno)).bind fun _ _ _ => .pure
  · rename_i hc
    rw [Bool.not_eq_true] at hc
    split
    · rename_i ho
      rw [if_pos ho] at hi
      exact (alike_objectBody hresolve halike hs ho hi).bind fun _ _ _ => .pure
    · rename_i ho
      rw [Bool.not_eq_true] at ho
      have hi := hplain ho
      split
      · obtain ⟨stack, rest, hscopes, -⟩ := hi.exists_scope
        exact (alike_valueBody hscopes).bind fun _ _ _ => .pure
      · rename_i hn
        rw [List.isEmpty_iff] at hn
        split
        · rename_i hnode
          exact .malformed (.malformed hid ⟨shape, hs, hnode, hc, ho, hn⟩)
        · rename_i hnode
          rw [Bool.not_eq_true] at hnode
          exact (alike_referenceTarget halike hs ⟨hc, hnode, hn⟩ hi).bind fun _ _ _ => .pure

/-! ## One shape -/

omit halike in
/-- **The type and cardinality of a shape that was entered.** -/
theorem alike_inferUse {r : Request} (v : Entering graph s r)
    (halike : AlikeWithin D graph (v.shape.id :: nest) resolve₁ resolve₂)
    (hi : Inside graph v.shape.id nest v.begun) :
    Alike D (Refusal graph) { v.begun with openObjects := s.openObjects }
      (inferUse graph strict resolve₁ v.shape s.slots.length v.name)
      (inferUse graph strict resolve₂ v.shape s.slots.length v.name) := by
  have hs : graph.shape? v.shape.id = some v.shape := by
    rw [v.id_shape]
    exact v.shape?_id
  refine (alike_findingOf hresolve halike hs hi).bind fun finding t₃ ht₃ => ?_
  obtain ⟨hsc, -, refs, props, t₁, t₂, hv, hv', hfinds⟩ := visit_of_findingOf hresolve ht₃
  have hlawful : Lawful graph t₂ := ((hi.visit hv).visit hv').lawful
  have hplace : t₂.slots[s.slots.length]? = some (.placeholder v.shape.id) :=
    InferenceState.getElem?_begun (hv.extends.trans hv'.extends)
  have hslot : s.slots.length < t₂.slots.length := (List.getElem?_eq_some_iff.1 hplace).1
  have hfits : Fits graph t₂ v.shape finding :=
    hfinds.fits (hv.answers.imp fun _ _ h => h.mono hv'.extends.keeps) hv'.answers
  have hitem : finding.item v.shape s.slots.length < t₂.slots.length :=
    hfits.item_lt hslot fun _ _ => hlawful.lt_of_denotes
  obtain ⟨names, rfl⟩ := hfinds.state
  refine (alike_settle ?_).bind fun item t₄ ht₄ => ?_
  · exact hslot
  obtain ⟨rfl, rfl⟩ := gives_settle ht₄
  have hscopes : ((({ t₂ with names } : InferenceState).settled v.shape s.slots.length v.name
      finding).closed s.slots.length).scopes = v.stack :: v.rest := settled_scopes.trans hsc
  refine .modify_bind ((alike_cardinalityOf hs hscopes (hi.inForce _ _ rfl) ?_).bind fun _ _ _ => .pure)
  exact InferenceState.follow_settled_lt hplace hlawful.target_lt hitem

end

section

variable {nest : List Node} {resolve₁ resolve₂ : Node → Infer TypeUse} {s : InferenceState} {r : Request}
variable (hresolve : Answers graph strict resolve₂)

include hresolve

/-- **A shape that is resolved for the first time**, others within it. -/
theorem alike_resolveFirst (halike : AlikeWithin D graph (r.id :: nest) resolve₁ resolve₂)
    (ha : Asked graph nest r s) (hnew : s.progress? r.id = none) :
    Alike D (Refusal graph) { s with scopes := r.openScopes s.scopes }
      (resolveFirst graph strict resolve₁ r.id) (resolveFirst graph strict resolve₂ r.id) := by
  obtain ⟨frame, outer, rest, stack, hframe, hopen, hpush⟩ := ha.exists_pushed hnew
  obtain ⟨hshape, hid⟩ := ShapesGraph.frame?_eq_some hframe
  unfold resolveFirst
  simp only [hframe]
  refine Alike.newSlot.bind fun slot s₁ h₁ => ?_
  obtain ⟨rfl, rfl⟩ := gives_newSlot.1 h₁
  refine (Alike.updateScope hopen hpush).bind fun _ s₂ h₂ => ?_
  obtain ⟨outer', rest', stack', hopen', hpush', rfl⟩ := gives_updateScope.1 h₂
  cases hopen.symm.trans hopen'
  cases hpush.symm.trans hpush'
  have hs : graph.shape? frame.shape.id = some frame.shape := hid.symm ▸ hshape
  have hforce : graph.InForce frame.shape.id stack := hid ▸ ha.composed.inForce hopen hframe hpush
  refine (alike_earlyCardinality hs rfl hforce).bind fun early s₃ h₃ => ?_
  obtain ⟨hearly, rfl⟩ := gives_earlyCardinality rfl h₃
  refine Alike.remember.bind fun _ s₄ h₄ => ?_
  obtain rfl := gives_remember.1 h₄
  refine Alike.nameShape.bind fun name s₅ h₅ => ?_
  obtain ⟨rfl, rfl⟩ := gives_nameShape.1 h₅
  let v : Entering graph s r := ⟨frame, outer, stack, rest, early, hnew, hframe, hopen, hpush, hearly⟩
  have hinfer := alike_inferUse hresolve v (by rw [v.id_shape]; exact halike)
    (by rw [v.id_shape]; exact ha.inside v)
  rw [Entering.begun, InferenceState.begun, v.id_shape] at hinfer
  refine hinfer.bind fun use s₆ h₆ => ?_
  obtain ⟨hscopes, -⟩ := visit_of_inferUse hresolve rfl h₆
  refine (Alike.updateScope hscopes (ConstraintStack.pop_of_push hpush)).bind fun _ _ _ => ?_
  exact Alike.remember.bind fun _ _ _ => .pure

/-- **A shape that is asked for**: stacks, scopes and slots are always in order. -/
theorem alike_resolveOnce (ha : Asked graph nest r s)
    (halike : s.progress? r.id = none → AlikeWithin D graph (r.id :: nest) resolve₁ resolve₂) :
    Alike D (Refusal graph) { s with scopes := r.openScopes s.scopes }
      (resolveOnce graph strict resolve₁ r.id) (resolveOnce graph strict resolve₂ r.id) := by
  refine .get_bind ?_
  simp only [InferenceState.progress?_scopes]
  split
  · exact .pure
  · exact .modify_bind .pure
  · rename_i hnew
    exact alike_resolveFirst hresolve (halike hnew) ha hnew

end

/-! ## All shapes -/

/-- No shape is being resolved, and no scope is open. -/
def AtRest (graph : ShapesGraph) (s : InferenceState) : Prop := Nested graph [] s ∧ s.scopes = []

/-- **A shape that no other one asks for**, in a scope of its own. -/
theorem alike_root {resolve₁ resolve₂ : Node → Infer TypeUse} {s : InferenceState} {id : Node}
    (hresolve : Answers graph strict resolve₂) (halike : AlikeWithin D graph [] resolve₁ resolve₂)
    (hid : id ∈ graph.ids) (hs : AtRest graph s) :
    Alike D (Refusal graph) s (detached (resolve₁ id)) (detached (resolve₂ id)) ∧
      ∀ use t, (detached (resolve₂ id)).Gives s use t → AtRest graph t := by
  obtain ⟨hnested, hscopes⟩ := hs
  have hasked : Asked graph [] ⟨.root, id⟩ s :=
    { toNested := hnested, declared := hid, inScope := Request.scopedIn_of_ne_member (by simp) _ _
      composed := Request.inScope_of_ne_member (by simp) _ }
  refine ⟨Alike.detached (halike _ _ hasked), fun use t h => ?_⟩
  have hv := visit_of_root hresolve h .nil
  exact ⟨hnested.visit hv, hv.scopes_eq.trans hscopes⟩

end ShapeTypes
