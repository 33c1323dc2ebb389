import ShapeTypes.Inference.Resolve
import ShapeTypes.Proofs.Inference.Outcome
import ShapeTypes.Proofs.Lookup

/-!
# Visits: what a successful run of inference does

Inference asks for shapes one after the other, and enters those it does not know yet. `Visit` says what
such a run does, without the bound on the nesting and without the order of the checks that it passes.

* `ShapesGraph.shape?_eq_some`, `ShapesGraph.frame?_eq_some` — how shapes are found by their identifiers;
* `Request` — a shape that is asked for, with the purpose; `Shape.referenceRequests`,
  `Shape.propertyRequests` — what a shape asks for;
* `InferenceState.begun`, `Finds`, `InferenceState.settled`, `FinalCardinality`,
  `InferenceState.concluded` — from entering a shape to leaving it;
* `Visit` — the requests answered from one state to another;
* `Entering`, `Resolution` — a shape that is asked for and entered, and one that is left as well, with the
  states in between.
-/

namespace ShapeTypes

open Rdf

namespace ShapesGraph

variable {graph : ShapesGraph} {id : Node}

theorem shape?_eq_some {shape : Shape} (h : graph.shape? id = some shape) :
    shape ∈ graph.shapes.entries ∧ shape.id = id :=
  Keyed.get?_eq_some_iff.1 h

theorem shape?_of_mem {shape : Shape} (h : shape ∈ graph.shapes.entries) :
    graph.shape? shape.id = some shape :=
  Keyed.get?_eq_some_iff.2 ⟨h, rfl⟩

theorem nodup_ids (graph : ShapesGraph) : graph.ids.Nodup := graph.shapes.distinct

theorem mem_ids {graph : ShapesGraph} {id : Node} :
    id ∈ graph.ids ↔ ∃ shape, graph.shape? id = some shape := by
  constructor
  · intro h
    obtain ⟨shape, hs, rfl⟩ := List.mem_map.1 h
    exact ⟨shape, shape?_of_mem hs⟩
  · rintro ⟨shape, hs⟩
    obtain ⟨hm, rfl⟩ := shape?_eq_some hs
    exact List.mem_map_of_mem hm

theorem frame?_eq_some {frame : Frame} (h : graph.frame? id = some frame) :
    graph.shape? id = some frame.shape ∧ frame.shape.id = id := by
  unfold frame? at h
  cases hi : graph.shapes.index? id with
  | none => simp [hi] at h
  | some i =>
      obtain ⟨hlt, hkey, -⟩ := List.findIdx?_eq_some_iff_getElem.1 hi
      simp only [hi, Option.bind_eq_bind, Option.bind_some, List.getElem?_eq_getElem hlt, Option.pure_def,
        Option.some.injEq] at h
      subst h
      have hid : graph.shapes.entries[i].id = id := by simpa using hkey
      exact ⟨hid ▸ shape?_of_mem (List.getElem_mem hlt), hid⟩

end ShapesGraph

/-! ## Requests -/

/-- Why a shape is asked for: for itself; as a property of an object; as the target of a reference; as a
member of a composite. -/
inductive Purpose where
  | root
  | property
  | reference
  | member
  deriving DecidableEq

/-- A shape that is asked for. -/
structure Request where
  purpose : Purpose
  id : Node

namespace Request

/-- Whether the cardinality matters to who asks, and not the slot alone. -/
def wantsUse (r : Request) : Bool := r.purpose = .root || r.purpose = .property

/-- Only a member is resolved in the scope of who asks for it. -/
def openScopes (r : Request) (scopes : List ConstraintStack) : List ConstraintStack :=
  if r.purpose = .member then scopes else .empty :: scopes

/-- A property is named once it is resolved. -/
def named (r : Request) (graph : ShapesGraph) (names : NameBook) : NameBook :=
  match r.purpose, graph.shape? r.id with
  | .property, some shape => (names.nameShape shape).2
  | _, _ => names

/-- The state that the asking shape goes on in. -/
def answered (r : Request) (graph : ShapesGraph) (scopes : List ConstraintStack) (s : InferenceState) :
    InferenceState :=
  { s with scopes, names := r.named graph s.names }

end Request

/-- What a shape declares a composite with. -/
def Connective.feature : Connective → String
  | .all => "sh:and"
  | .one => "sh:xone"

/-- The connective of a composite with its members. -/
def Constraints.composition? (c : Constraints) : Option (Connective × List Node) :=
  match c.conjunction, c.alternatives with
  | some members, none => some (.all, members)
  | none, some members => some (.one, members)
  | _, _ => none

theorem Constraints.composition?_eq_none {c : Constraints} (h : c.isComposite = false) :
    c.composition? = none := by
  simp only [isComposite, Bool.or_eq_false_iff, Option.isSome_eq_false_iff, Option.isNone_iff_eq_none] at h
  simp [composition?, h.1, h.2]

theorem Constraints.references_of_composition? {c : Constraints} {connective : Connective}
    {members : List Node} (h : c.composition? = some (connective, members)) :
    c.references = c.nodes ++ members := by
  unfold composition? at h
  unfold references
  split at h
  · rename_i hc ha
    cases h
    simp [hc, ha]
  · rename_i hc ha
    cases h
    simp [hc, ha]
  · cases h

theorem Constraints.mem_references_of_composition? {c : Constraints} {connective : Connective}
    {members : List Node} (h : c.composition? = some (connective, members)) : members ⊆ c.references := by
  rw [references_of_composition? h]
  exact List.subset_append_right _ _

theorem Constraints.references_of_not_isComposite {c : Constraints} (h : c.isComposite = false) :
    c.references = c.nodes := by
  simp only [isComposite, Bool.or_eq_false_iff, Option.isSome_eq_false_iff, Option.isNone_iff_eq_none] at h
  simp [references, h.1, h.2]

theorem Shape.isComposite_of_declaresObject {shape : Shape} (h : shape.declaresObject = true) :
    shape.constraints.isComposite = false := by
  simp only [declaresObject, Bool.and_eq_true, Bool.not_eq_true', Bool.or_eq_false_iff] at h
  exact h.1.2.1.1

theorem Shape.isList_of_declaresObject {shape : Shape} (h : shape.declaresObject = true) :
    shape.isList = false := by
  simp only [declaresObject, Bool.and_eq_true] at h
  have hnode := h.1.1
  unfold isNode at hnode
  unfold isList property?
  split at hnode
  · simp
  · cases hnode

/-- The shapes that a shape refers to otherwise than as properties. -/
def Shape.referenceRequests (shape : Shape) : List Request :=
  match shape.constraints.composition? with
  | some (_, members) => members.map (⟨.member, ·⟩)
  | none => shape.constraints.nodes.map (⟨.reference, ·⟩)

/-- The properties of a shape that declares an object. -/
def Shape.propertyRequests (shape : Shape) : List Request :=
  if shape.declaresObject then shape.properties.map (⟨.property, ·⟩) else []

/-! ## From entering a shape to leaving it -/

/-- What is known of the use of a shape. -/
def Progress.use : Progress → TypeUse
  | .resolving slot cardinality => ⟨cardinality, slot⟩
  | .resolved use => use

namespace InferenceState

/-- The state once a shape that is known was asked for. -/
def touched (s : InferenceState) (r : Request) (p : Progress) : InferenceState :=
  match p with
  | .resolving _ _ => if r.wantsUse then { s with handedOut := r.id :: s.handedOut } else s
  | .resolved _ => s

/-- The state in which a shape asks for others: it has a slot, and an object counts as one already. -/
def begun (s : InferenceState) (shape : Shape) (scopes : List ConstraintStack) (early : Cardinality) :
    InferenceState :=
  { s with
    slots := s.slots ++ [.placeholder shape.id]
    names := (s.names.nameShape shape).2
    memo := (shape.id, .resolving s.slots.length early) :: s.memo
    openObjects := if shape.declaresObject then s.slots.length :: s.openObjects else s.openObjects
    scopes }

/-- The state once the finding on a shape is in its slot. -/
def settled (s : InferenceState) (shape : Shape) (slot : Slot) (name : Name) (finding : Finding) :
    InferenceState :=
  match finding, shape.isList with
  | .type body, false => { s with slots := s.slots.set slot (Content.type (shape.itemType name body)) }
  | .standsFor target, false => { s with aliases := s.aliases ++ [⟨slot, target, shape.id⟩] }
  | .type body, true =>
    { s with slots := (s.slots ++ [Content.type (shape.itemType name body)]).set slot
                (Content.type (shape.itemType name (.list s.slots.length))) }
  | .standsFor target, true =>
    { s with slots := s.slots.set slot (Content.type (shape.itemType name (.list target))) }

/-- What a default of the items in a slot has to fit, as far as their type is known. -/
def targetAt? (s : InferenceState) (item : Slot) : Option DefaultTarget :=
  if s.openObjects.contains (follow s.aliases item) then some .object
  else (s.slots[follow s.aliases item]?).map defaultTarget

/-- The state without the open object in a slot. -/
def closed (s : InferenceState) (slot : Slot) : InferenceState :=
  { s with openObjects := s.openObjects.filter (· ≠ slot) }

/-- The state once a shape is resolved. -/
def concluded (s : InferenceState) (id : Node) (use : TypeUse) : InferenceState :=
  { s with memo := (id, .resolved use) :: s.memo }

end InferenceState

/-- The slot of the items of a shape: its own, unless it stands for another one. -/
def Finding.item (finding : Finding) (shape : Shape) (slot : Slot) : Slot :=
  match finding, shape.isList with
  | .standsFor target, false => target
  | _, _ => slot

/-- The cardinality of a shape before its items are known. -/
def EarlyCardinality (shape : Shape) (stack : ConstraintStack) (c : Cardinality) : Prop :=
  if shape.isNode ∨ stack.defaultValue?.isSome then c = .plain none
  else Cardinality.ofBounds stack.minCount? stack.maxCount? none stack.mutable = .ok c

/-- The default of a shape whose items are in a slot. -/
def FinalDefault (strict : Bool) (s : InferenceState) (stack : ConstraintStack) (item : Slot)
    (d : Option DefaultValue) : Prop :=
  match stack.defaultValue? with
  | none => d = none
  | some term => ∃ target value, s.targetAt? item = some target ∧
      defaultFor term target strict = .ok value ∧ d = some value

/-- The cardinality of a shape whose items are in a slot. -/
def FinalCardinality (strict : Bool) (s : InferenceState) (shape : Shape) (stack : ConstraintStack)
    (item : Slot) (c : Cardinality) : Prop :=
  if shape.isNode then c = .plain none
  else ∃ d, FinalDefault strict s stack item d ∧
    Cardinality.ofBounds stack.minCount? stack.maxCount? d stack.mutable = .ok c

theorem FinalCardinality.congr {s s' : InferenceState} {shape : Shape} {stack : ConstraintStack}
    {item : Slot} {c : Cardinality} (h : FinalCardinality strict s shape stack item c)
    (ht : s'.targetAt? item = s.targetAt? item) : FinalCardinality strict s' shape stack item c := by
  unfold FinalCardinality FinalDefault at h ⊢
  rw [ht]
  exact h

/-- The parent of an object: none, or the one ancestor, which acts as an object. -/
def FindsParent (shape : Shape) (s : InferenceState) (refs : List TypeUse) (parent : Option Slot) : Prop :=
  (shape.constraints.nodes = [] ∧ parent = none) ∨
    ∃ ancestor use, shape.constraints.nodes = [ancestor] ∧ refs = [use] ∧
      s.actsAsObject use.item = true ∧ parent = some use.item

/-- A property as the property shape of an identifier describes it, its name and use apart. -/
def DescribesProperty (graph : ShapesGraph) (id : Node) (p : Property) : Prop :=
  ∃ shape form, graph.shape? id = some shape ∧ shape.property? = some form ∧
    form.path.predicate? = some p.path ∧ p.shape = id ∧ p.mutable = form.mutable ∧
    p.visibility = form.visibility ∧ p.order = form.order ∧ p.lazy = form.lazy ∧
    p.group = form.group ∧ p.doc = shape.doc

/-- What a shape is found to be, from the answers to its references and to its properties, with the states
in which they are answered and the one after. Properties have the names of their shapes. -/
inductive Finds (graph : ShapesGraph) (shape : Shape) : InferenceState → List TypeUse →
    InferenceState → List TypeUse → Finding → InferenceState → Prop where
  | composite {s refs connective members} :
      shape.constraints.composition? = some (connective, members) → 2 ≤ members.length →
      shape.constraints.nodes = [] → shape.properties = [] →
      Finds graph shape s refs s [] (.type (.composite connective
        ((refs.map (·.item)).all s.actsAsObject) (refs.map (·.item)))) s
  | object {s t refs parent properties} :
      shape.declaresObject = true → FindsParent shape s refs parent →
      List.Forall₂ (DescribesProperty graph) shape.properties properties →
      (∀ p ∈ properties, t.names.shapes.lookup p.shape = some p.name) →
      Finds graph shape s refs t (properties.map (·.use)) (.type (.object {
        parent, properties
        closed := shape.constraints.closed.getD false
        ignoredProperties := shape.constraints.ignoredProperties
        classes := shape.constraints.classes
        annotations := graph.annotationsInForce shape })) t
  | reference {s use target} :
      shape.constraints.isComposite = false → shape.isNode = false →
      shape.constraints.nodes = [target] → shape.constraints.datatype = none →
      ((shape.constraints.oneOf.getD []).any fun t => t.literal?.isSome) = false →
      Finds graph shape s [use] s [] (.standsFor use.item) s
  | value {s t body} :
      shape.constraints.isComposite = false → shape.declaresObject = false →
      shape.constraints.nodes = [] → (valueBody shape).Gives s body t →
      Finds graph shape s [] s [] (.type body) t

/-- A shape with a slot is left, with its use: the finding is settled and the cardinality decided. -/
structure Leaves (strict : Bool) (shape : Shape) (slot : Slot) (name : Name) (stack : ConstraintStack)
    (finding : Finding) (s : InferenceState) (use : TypeUse) (t : InferenceState) : Prop where
  item : use.item = finding.item shape slot
  cardinality : FinalCardinality strict ((s.settled shape slot name finding).closed slot) shape stack
    use.item use.cardinality
  state : t = ((s.settled shape slot name finding).closed slot).concluded shape.id use

/-! ## Runs -/

/-- **The requests are answered, from one state to another.** A shape that is known gives what is known of
it. Any other shape gets a slot, asks for its own references and properties, and is left. -/
inductive Visit (graph : ShapesGraph) (strict : Bool) :
    InferenceState → List Request → List TypeUse → InferenceState → Prop where
  | nil {s} : Visit graph strict s [] [] s
  | known {s s' r rs us p} :
      s.progress? r.id = some p →
      Visit graph strict (r.answered graph s.scopes (s.touched r p)) rs us s' →
      Visit graph strict s (r :: rs) (p.use :: us) s'
  | first {s t₁ t₂ t₃ t₄ s' r rs us frame outer stack rest early refs props finding use} :
      s.progress? r.id = none → graph.frame? r.id = some frame →
      r.openScopes s.scopes = outer :: rest → outer.push frame = (none, stack) →
      EarlyCardinality frame.shape stack early →
      (∀ form, frame.shape.property? = some form → form.path.predicate?.isSome = true) →
      Visit graph strict (s.begun frame.shape (stack :: rest) early)
        frame.shape.referenceRequests refs t₁ →
      Visit graph strict t₁ frame.shape.propertyRequests props t₂ →
      Finds graph frame.shape t₁ refs t₂ props finding t₃ →
      Leaves strict frame.shape s.slots.length (s.names.nameShape frame.shape).1 stack finding t₃ use t₄ →
      Visit graph strict (r.answered graph s.scopes t₄) rs us s' →
      Visit graph strict s (r :: rs) (use :: us) s'

/-- A shape that is asked for and entered: it is not known yet, and its frame is put on top of the scope that it is
asked for in. -/
structure Entering (graph : ShapesGraph) (s : InferenceState) (r : Request) where
  frame : Frame
  outer : ConstraintStack
  stack : ConstraintStack
  rest : List ConstraintStack
  early : Cardinality
  new : s.progress? r.id = none
  found : graph.frame? r.id = some frame
  opened : r.openScopes s.scopes = outer :: rest
  pushed : outer.push frame = (none, stack)
  bounds : EarlyCardinality frame.shape stack early

namespace Entering

variable {graph : ShapesGraph} {s : InferenceState} {r : Request}

abbrev shape (v : Entering graph s r) : Shape := v.frame.shape

abbrev name (v : Entering graph s r) : Name := (s.names.nameShape v.shape).1

/-- The state in which the shape asks for others. -/
abbrev begun (v : Entering graph s r) : InferenceState :=
  s.begun v.shape (v.stack :: v.rest) v.early

variable (v : Entering graph s r)

theorem shape?_id : graph.shape? r.id = some v.shape := (ShapesGraph.frame?_eq_some v.found).1

theorem id_shape : v.shape.id = r.id := (ShapesGraph.frame?_eq_some v.found).2

end Entering

/-- A shape that is asked for, entered and left, with the states in between: its references are answered
in `t₁`, its properties in `t₂`, and what it is is found in `t₃`. -/
structure Resolution (graph : ShapesGraph) (strict : Bool) (s : InferenceState) (r : Request)
    (use : TypeUse) (t : InferenceState) extends Entering graph s r where
  refs : List TypeUse
  props : List TypeUse
  t₁ : InferenceState
  t₂ : InferenceState
  t₃ : InferenceState
  finding : Finding
  predicate : ∀ form, frame.shape.property? = some form → form.path.predicate?.isSome = true
  references : Visit graph strict (s.begun frame.shape (stack :: rest) early)
    frame.shape.referenceRequests refs t₁
  properties : Visit graph strict t₁ frame.shape.propertyRequests props t₂
  finds : Finds graph frame.shape t₁ refs t₂ props finding t₃
  leaves : Leaves strict frame.shape s.slots.length (s.names.nameShape frame.shape).1 stack finding t₃ use t

/-- **Induction on a visit**, with all that belongs to the resolution of a shape at hand. -/
@[elab_as_elim]
theorem Visit.induction {graph : ShapesGraph} {strict : Bool}
    {motive : (s : InferenceState) → (rs : List Request) → (us : List TypeUse) → (s' : InferenceState) →
      Visit graph strict s rs us s' → Prop}
    (nil : ∀ {s : InferenceState}, motive s [] [] s .nil)
    (known : ∀ {s s' : InferenceState} {r : Request} {rs us} {p : Progress} (hp : s.progress? r.id = some p)
      (hv : Visit graph strict (r.answered graph s.scopes (s.touched r p)) rs us s'),
      motive _ _ _ _ hv → motive _ _ _ _ (.known hp hv))
    (first : ∀ {s t s' : InferenceState} {r : Request} {rs use us} (v : Resolution graph strict s r use t)
      (hv : Visit graph strict (r.answered graph s.scopes t) rs us s'),
      motive _ _ _ _ v.references → motive _ _ _ _ v.properties → motive _ _ _ _ hv →
      motive _ _ _ _ (.first v.new v.found v.opened v.pushed v.bounds v.predicate v.references
        v.properties v.finds v.leaves hv))
    {s : InferenceState} {rs : List Request} {us : List TypeUse} {s' : InferenceState}
    (h : Visit graph strict s rs us s') : motive s rs us s' h := by
  induction h with
  | nil => exact nil
  | known hp hv ih => exact known hp hv ih
  | first hnew hframe hscope hpush hearly hpath hrefs hprops hfinds hleaves hv ih₁ ih₂ ih =>
      exact first ⟨⟨_, _, _, _, _, hnew, hframe, hscope, hpush, hearly⟩, _, _, _, _, _, _, hpath, hrefs,
        hprops, hfinds, hleaves⟩ hv ih₁ ih₂ ih

theorem Visit.cons_cases {graph : ShapesGraph} {strict : Bool} {s s' : InferenceState} {r : Request}
    {rs : List Request} {us : List TypeUse} (h : Visit graph strict s (r :: rs) us s') :
    (∃ p us', s.progress? r.id = some p ∧ us = p.use :: us' ∧
      Visit graph strict (r.answered graph s.scopes (s.touched r p)) rs us' s') ∨
    ∃ use us' t, us = use :: us' ∧ Nonempty (Resolution graph strict s r use t) ∧
      Visit graph strict (r.answered graph s.scopes t) rs us' s' := by
  cases h with
  | known hp hv => exact Or.inl ⟨_, _, hp, rfl, hv⟩
  | first hnew hframe hscope hpush hearly hpath hrefs hprops hfinds hleaves hv =>
      exact Or.inr ⟨_, _, _, rfl, ⟨⟨⟨_, _, _, _, _, hnew, hframe, hscope, hpush, hearly⟩, _, _, _, _, _, _,
        hpath, hrefs, hprops, hfinds, hleaves⟩⟩, hv⟩

end ShapeTypes
