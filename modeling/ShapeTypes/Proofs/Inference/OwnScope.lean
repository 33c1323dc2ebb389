import ShapeTypes.Proofs.Inference.Leaving
import ShapeTypes.Proofs.Inference.Nesting

/-!
# Shapes in a scope of their own

* `ValueOf` — the type of a shape that describes single values, with the constraints in force;
  `Finds.valueOf` — it is what such a shape is found to be;
* `ConstraintStack.shapes`, `ConstraintStack.IsOf` — the shapes of a scope; a scope that holds one shape
  alone, in which all that is in force is its own;
* `Body.KeepsOwn` — the values that a type keeps are those of its shape; `ValueOf.keepsOwn` — **they are in a
  scope of its own**;
* `Origin.isOf` — **a shape that no composite lists is resolved in a scope of its own.**
-/

namespace ShapeTypes

open Rdf Infer

variable {graph : ShapesGraph} {strict : Bool}

/-! ## Types of single values -/

/-- The type of a shape that describes single values, with the constraints in force. The names of the members
of an enumeration are left open. -/
inductive ValueOf (c : Constraints) (stack : ConstraintStack) : Body → Prop where
  | literal {datatype} : c.datatype = some datatype →
      ValueOf c stack (.literal datatype ((stack.hasValues?.getD []).filterMap (·.literal?))
        ((stack.oneOf?.getD []).filterMap (·.literal?)) c.facets)
  | enumeration {members : List (Iri × Name)} : c.datatype = none →
      (enumerationValues? stack c).bind enumeratedIris? = some (members.map (·.1)) →
      ValueOf c stack (.enumeration members)
  | identifier {kind} : c.datatype = none → (enumerationValues? stack c).bind enumeratedIris? = none →
      identifierKind? c.nodeKind (!c.classes.isEmpty) = some kind →
      ValueOf c stack (.identifier kind ((stack.hasValues?.getD []).filterMap (·.iri?))
        ((stack.oneOf?.getD []).filterMap (·.iri?)) c.classes)
  | term : c.datatype = none → (enumerationValues? stack c).bind enumeratedIris? = none →
      identifierKind? c.nodeKind (!c.classes.isEmpty) = none →
      ValueOf c stack (.term c.nodeKind (stack.hasValues?.getD []) (stack.oneOf?.getD []))

/-- **What a shape that describes single values is found to be.** -/
theorem valueOf_of_gives {shape : Shape} {s t : InferenceState} {stack : ConstraintStack}
    {rest : List ConstraintStack} {body : Body} (hs : s.scopes = stack :: rest)
    (h : (valueBody shape).Gives s body t) : ValueOf shape.constraints stack body := by
  unfold valueBody at h
  rw [gives_scope_bind hs] at h
  split at h
  · rename_i datatype hd
    obtain ⟨rfl, -⟩ := gives_pure.1 h
    exact .literal hd
  · rename_i hd
    split at h
    · rename_i iris hiris
      obtain ⟨members, u, hmembers, hret⟩ := gives_bind.1 h
      obtain ⟨rfl, -⟩ := gives_pure.1 hret
      obtain ⟨rfl, -⟩ := gives_mapM_nameIri iris hmembers
      exact .enumeration hd (by rw [NameBook.map_fst_nameIris]; exact hiris)
    · rename_i hiris
      split at h
      · rename_i kind hkind
        obtain ⟨rfl, -⟩ := gives_pure.1 h
        exact .identifier hd hiris hkind
      · rename_i hkind
        obtain ⟨rfl, -⟩ := gives_pure.1 h
        exact .term hd hiris hkind

/-- A type of single values is the one that the constraints in force give. -/
theorem Finds.valueOf {shape : Shape} {s t t' : InferenceState} {refs props : List TypeUse} {body : Body}
    (h : Finds graph shape s refs t props (.type body) t') (hb : body.isValue = true)
    {stack : ConstraintStack} {rest : List ConstraintStack} (hs : t.scopes = stack :: rest) :
    ValueOf shape.constraints stack body := by
  cases h with
  | composite => cases hb
  | object => cases hb
  | value _ _ _ hgives => exact valueOf_of_gives hs hgives

/-! ## Scopes of one shape -/

namespace ConstraintStack

/-- The shapes of a scope, innermost first. -/
def shapes (stack : ConstraintStack) : List Shape := stack.frames.map (·.shape)

theorem find?_eq_findSome? {α : Type} (stack : ConstraintStack) (f : Shape → Option α) :
    stack.find? f = stack.shapes.findSome? f := by
  rw [find?, shapes, List.findSome?_map]
  rfl

theorem mutable_eq_head? (stack : ConstraintStack) : stack.mutable = stack.shapes.head?.any (·.isMutable) := by
  rw [mutable, top?, shapes, List.head?_map, Option.any_map]

/-- The scope holds one shape, and nothing else. -/
def IsOf (stack : ConstraintStack) (shape : Shape) : Prop := stack.shapes = [shape]

namespace IsOf

variable {stack : ConstraintStack} {shape : Shape} (h : stack.IsOf shape)

include h

/-- **What is in force in a scope of its own is what the shape declares.** -/
theorem find?_eq {α : Type} (f : Shape → Option α) : stack.find? f = f shape := by
  rw [find?_eq_findSome?, show stack.shapes = [shape] from h, List.findSome?_singleton]

theorem minCount?_eq : stack.minCount? = shape.constraints.minCount := h.find?_eq _

theorem maxCount?_eq : stack.maxCount? = shape.constraints.maxCount := h.find?_eq _

theorem defaultValue?_eq : stack.defaultValue? = shape.defaultValue? := h.find?_eq _

theorem mutable_eq : stack.mutable = shape.isMutable := by
  rw [mutable_eq_head?, show stack.shapes = [shape] from h]
  rfl

theorem hasValues?_getD : stack.hasValues?.getD [] = shape.constraints.hasValues := by
  rw [hasValues?, h.find?_eq]
  split
  · rename_i hempty
    rw [List.isEmpty_iff.1 hempty]
    rfl
  · rfl

theorem oneOf?_eq : stack.oneOf? = shape.constraints.oneOf.filter fun list => !list.isEmpty := h.find?_eq _

theorem oneOf?_getD : stack.oneOf?.getD [] = shape.constraints.oneOf.getD [] := by
  rw [h.oneOf?_eq]
  cases shape.constraints.oneOf with
  | none => rfl
  | some list => cases list <;> rfl

/-- An enumeration in a scope of its own has the list of its shape. -/
theorem enumerationValues?_eq : enumerationValues? stack shape.constraints = shape.constraints.oneOf := by
  unfold enumerationValues?
  cases ho : shape.constraints.oneOf with
  | some own => rfl
  | none => simp [h.oneOf?_eq, ho]

end IsOf

end ConstraintStack

/-! ## Values of a shape's own -/

/-- The values that a type keeps are those that the constraints give, as far as they are of its kind, in the
same order. -/
def Body.KeepsOwn (c : Constraints) : Body → Prop
  | .identifier _ hasValues oneOf _ =>
    hasValues = c.hasValues.filterMap (·.iri?) ∧ oneOf = (c.oneOf.getD []).filterMap (·.iri?)
  | .literal _ hasValues oneOf _ =>
    hasValues = c.hasValues.filterMap (·.literal?) ∧ oneOf = (c.oneOf.getD []).filterMap (·.literal?)
  | .term _ hasValues oneOf => hasValues = c.hasValues ∧ oneOf = c.oneOf.getD []
  | .enumeration members => c.oneOf = some (members.map fun m => m.1.term)
  | .object _ | .composite .. | .list _ => True

theorem Body.keepsOwn_of_not_isValue {c : Constraints} {body : Body} (h : body.isValue = false) :
    body.KeepsOwn c := by
  cases body with
  | object => exact trivial
  | composite => exact trivial
  | list => exact trivial
  | _ => cases h

/-- The members of an enumeration are all that its list holds. -/
theorem eq_map_term_of_enumeratedIris? {values : List Term} {iris : List Iri}
    (h : enumeratedIris? values = some iris) : values = iris.map Iri.term := by
  unfold enumeratedIris? at h
  split at h
  · cases h
  · clear * - h
    induction values generalizing iris with
    | nil =>
        rw [List.mapM_nil] at h
        cases h
        rfl
    | cons value values ih =>
        rw [List.mapM_cons] at h
        obtain ⟨iri, hiri, h⟩ := Option.bind_eq_some_iff.1 h
        obtain ⟨iris', hiris, h⟩ := Option.bind_eq_some_iff.1 h
        cases h
        rw [List.map_cons, ← ih hiris]
        unfold Term.iri? at hiri
        split at hiri
        · cases hiri
          rfl
        · cases hiri

/-- **In a scope of its own a shape keeps its own values, and no others.** -/
theorem ValueOf.keepsOwn {shape : Shape} {stack : ConstraintStack} (h : stack.IsOf shape) {body : Body}
    (hb : ValueOf shape.constraints stack body) : body.KeepsOwn shape.constraints := by
  cases hb with
  | literal _ => exact ⟨by rw [h.hasValues?_getD], by rw [h.oneOf?_getD]⟩
  | identifier _ _ _ => exact ⟨by rw [h.hasValues?_getD], by rw [h.oneOf?_getD]⟩
  | term _ _ _ => exact ⟨h.hasValues?_getD, h.oneOf?_getD⟩
  | @enumeration members _ hmembers =>
      rw [h.enumerationValues?_eq] at hmembers
      obtain ⟨values, hvalues, hiris⟩ := Option.bind_eq_some_iff.1 hmembers
      rw [Body.KeepsOwn, hvalues, eq_map_term_of_enumeratedIris? hiris, List.map_map]
      rfl

/-! ## Shapes that no composite lists -/

theorem Resolution.scopes₂ {s t : InferenceState} {r : Request} {use : TypeUse}
    (v : Resolution graph strict s r use t) : v.t₂.scopes = v.stack :: v.rest :=
  v.properties.scopes_eq.trans v.references.scopes_eq

/-- **A scope in force for a shape that no composite lists is of that shape.** -/
theorem ShapesGraph.InForce.isOf {id : Node} {stack : ConstraintStack} (h : graph.InForce id stack)
    (hc : ∀ composite, ¬ graph.Composes composite id) {shape : Shape} (hs : graph.shape? id = some shape) :
    stack.IsOf shape := by
  obtain ⟨frame, frames, hframes, rfl, hcomposed⟩ := h
  cases hcomposed with
  | cons hframe hbelow _ =>
      obtain rfl : frame.shape = shape := Option.some.inj (hframe.symm.trans hs)
      have hnil : frames = [] := by
        cases frames with
        | nil => rfl
        | cons below rest => exact absurd (hbelow below rfl) (hc below.shape.id)
      rw [ConstraintStack.IsOf, ConstraintStack.shapes, hframes, hnil]
      rfl

namespace Origin

variable {id : Node} {use : TypeUse} {s : InferenceState} (o : Origin graph strict id use s)

/-- **A shape that no composite lists is resolved in a scope of its own.** -/
theorem isOf (h : ∀ composite, ¬ graph.Composes composite id) :
    o.resolution.stack.IsOf o.resolution.shape :=
  (o.id_request ▸ o.resolution.inForce o.inScope).isOf h o.shape?_id

/-- The values of a type are those of its shape, in a scope of its own. -/
theorem keepsOwn (h : o.resolution.stack.IsOf o.resolution.shape) {body : Body}
    (hb : o.resolution.finding = .type body) : body.KeepsOwn o.resolution.shape.constraints := by
  cases hvalue : body.isValue with
  | false => exact Body.keepsOwn_of_not_isValue hvalue
  | true =>
      have hfinds := o.resolution.finds
      rw [hb] at hfinds
      exact (hfinds.valueOf hvalue o.resolution.scopes₂).keepsOwn h

end Origin

/-- The cardinality of a property shape is that of the bounds in force, with a default exactly when one is in
force. -/
theorem FinalCardinality.exists_ofBounds {s : InferenceState} {shape : Shape} {stack : ConstraintStack}
    {item : Slot} {c : Cardinality} (h : FinalCardinality strict s shape stack item c)
    (hn : shape.isNode = false) : ∃ d, d.isSome = stack.defaultValue?.isSome ∧
      Cardinality.ofBounds stack.minCount? stack.maxCount? d stack.mutable = .ok c := by
  unfold FinalCardinality at h
  rw [if_neg (by simp [hn])] at h
  obtain ⟨d, hdefault, hbounds⟩ := h
  refine ⟨d, ?_, hbounds⟩
  unfold FinalDefault at hdefault
  split at hdefault
  · rename_i hnone
    rw [hdefault, hnone]
    rfl
  · rename_i term hsome
    obtain ⟨_, value, -, -, rfl⟩ := hdefault
    rw [hsome]
    rfl

end ShapeTypes
