import ShapeTypes.ConstraintStack
import ShapeTypes.Inference.Resolve

/-!
# What shapes and types are without their presentation

Labels, origins, annotations, visibility, order and groups name and present a shape; all else is what
inference decides by.

* `Shape.bare`, `Shape.SameBare` — a shape without its presentation, and shapes that differ in it at most;
* `Content.bare` — what a slot holds, without what a type copies of the presentation of its shape;
* `Frame.bare`, `ConstraintStack.bare` — scopes of such shapes;
* the lemmas beside each of them — what can be read of either does not depend on the presentation.
-/

namespace ShapeTypes

open Rdf

/-! ## Shapes -/

/-- A property form without what presents the property. -/
def PropertyForm.bare (f : PropertyForm) : PropertyForm :=
  { f with visibility := .everyone, order := none, group := none }

/-- A form without what presents the property. -/
def Form.bare : Form → Form
  | .node properties => .node properties
  | .property f => .property f.bare

namespace Shape

/-- A shape without what names and presents it. -/
def bare (s : Shape) : Shape :=
  { s with labels := {}, definedBy := none, annotations := {}, form := s.form.bare }

/-- Two shapes differ at most in what names and presents them. -/
def SameBare (s t : Shape) : Prop := s.bare = t.bare

@[simp]
theorem property?_bare (s : Shape) : s.bare.property? = s.property?.map PropertyForm.bare := by
  obtain ⟨id, labels, constraints, definedBy, annotations, form⟩ := s
  cases form <;> rfl

@[simp]
theorem properties_bare (s : Shape) : s.bare.properties = s.properties := by
  obtain ⟨id, labels, constraints, definedBy, annotations, form⟩ := s
  cases form <;> rfl

@[simp]
theorem isNode_bare (s : Shape) : s.bare.isNode = s.isNode := by
  obtain ⟨id, labels, constraints, definedBy, annotations, form⟩ := s
  cases form <;> rfl

@[simp]
theorem isList_bare (s : Shape) : s.bare.isList = s.isList := by
  obtain ⟨id, labels, constraints, definedBy, annotations, form⟩ := s
  cases form <;> rfl

@[simp]
theorem isMutable_bare (s : Shape) : s.bare.isMutable = s.isMutable := by
  obtain ⟨id, labels, constraints, definedBy, annotations, form⟩ := s
  cases form <;> rfl

@[simp]
theorem defaultValue?_bare (s : Shape) : s.bare.defaultValue? = s.defaultValue? := by
  obtain ⟨id, labels, constraints, definedBy, annotations, form⟩ := s
  cases form <;> rfl

@[simp]
theorem declaresObject_bare (s : Shape) : s.bare.declaresObject = s.declaresObject := by
  unfold declaresObject
  rw [isNode_bare, properties_bare]
  rfl

namespace SameBare

variable {s t : Shape} (h : s.SameBare t)

include h

theorem id_eq : s.id = t.id := by
  have hid : s.bare.id = t.bare.id := by rw [show s.bare = t.bare from h]
  exact hid

theorem constraints_eq : s.constraints = t.constraints := by
  have hconstraints : s.bare.constraints = t.bare.constraints := by rw [show s.bare = t.bare from h]
  exact hconstraints

theorem properties_eq : s.properties = t.properties := by
  rw [← properties_bare s, h, properties_bare]

theorem isNode_eq : s.isNode = t.isNode := by
  rw [← isNode_bare s, h, isNode_bare]

theorem isList_eq : s.isList = t.isList := by
  rw [← isList_bare s, h, isList_bare]

theorem declaresObject_eq : s.declaresObject = t.declaresObject := by
  rw [← declaresObject_bare s, h, declaresObject_bare]

theorem property?_eq : s.property?.map PropertyForm.bare = t.property?.map PropertyForm.bare := by
  rw [← property?_bare s, h, property?_bare]

end SameBare

end Shape

/-! ## Types -/

/-- A property without its name and what presents it. -/
def Property.bare (p : Property) : Property :=
  { p with name := default, visibility := .everyone, order := none, group := none, doc := {} }

/-- A body without names and annotations. -/
def Body.bare : Body → Body
  | .object o => .object { o with properties := o.properties.map Property.bare, annotations := {} }
  | .enumeration members => .enumeration (members.map fun m => (m.1, default))
  | body => body

/-- A type without its name and documentation. -/
def ItemType.bare (t : ItemType) : ItemType := { t with name := default, doc := {}, body := t.body.bare }

namespace Content

/-- What a slot holds, without names and what presents the shape. -/
def bare : Content → Content
  | placeholder shape => placeholder shape
  | type t => type t.bare

@[simp]
theorem shape_bare (c : Content) : c.bare.shape = c.shape := by
  cases c <;> rfl

@[simp]
theorem actsAsObject_bare (c : Content) : c.bare.actsAsObject = c.actsAsObject := by
  rcases c with shape | ⟨shape, name, doc, body⟩
  · rfl
  · cases body <;> rfl

@[simp]
theorem edges_bare (c : Content) : c.bare.edges = c.edges := by
  rcases c with shape | ⟨shape, name, doc, body⟩
  · rfl
  · cases body with
    | object o => simp [edges, bare, ItemType.bare, Body.bare, type?, Body.edges, Property.bare]
    | _ => rfl

@[simp]
theorem kind_bare (c : Content) : c.bare.kind = c.kind := by
  rcases c with shape | ⟨shape, name, doc, body⟩
  · rfl
  · cases body <;> rfl

theorem bare_mapSlots (f : Slot → Slot) (c : Content) : (c.mapSlots f).bare = c.bare.mapSlots f := by
  rcases c with shape | ⟨shape, name, doc, body⟩
  · rfl
  · cases body with
    | object o =>
        simp [mapSlots, bare, ItemType.bare, Body.bare, Body.mapSlots, Property.bare, Property.mapSlot]
    | _ => rfl

end Content

@[simp]
theorem defaultTarget_bare (c : Content) : defaultTarget c.bare = defaultTarget c := by
  rcases c with shape | ⟨shape, name, doc, body⟩
  · rfl
  · cases body with
    | enumeration members => simp [defaultTarget, Content.bare, ItemType.bare, Body.bare]
    | _ => rfl

/-- The types of shapes that differ in their presentation at most, with bodies that do. -/
theorem Shape.SameBare.bare_itemType {s t : Shape} (h : s.SameBare t) {body body' : Body}
    (hb : body.bare = body'.bare) (name name' : Name) :
    (s.itemType name body).bare = (t.itemType name' body').bare := by
  simp only [ItemType.bare, itemType, h.id_eq, hb]

/-! ## Scopes -/

/-- A frame of a shape without its presentation. -/
def Frame.bare (f : Frame) : Frame := { f with shape := f.shape.bare }

namespace ConstraintStack

/-- A scope of shapes without their presentation. -/
def bare (s : ConstraintStack) : ConstraintStack := ⟨s.frames.map Frame.bare⟩

theorem find?_bare {α : Type} (s : ConstraintStack) (f : Shape → Option α) :
    s.bare.find? f = s.find? fun shape => f shape.bare := by
  simp only [find?, bare, List.findSome?_map]
  rfl

/-- Scopes of shapes that differ in their presentation at most have the same constraints in force. -/
theorem find?_congr {α : Type} {s t : ConstraintStack} (h : s.bare = t.bare) {f : Shape → Option α}
    (hf : ∀ shape : Shape, f shape.bare = f shape) : s.find? f = t.find? f := by
  have hs := find?_bare s f
  have ht := find?_bare t f
  rw [h] at hs
  simp only [hf] at hs ht
  exact hs.symm.trans ht

section

variable {s t : ConstraintStack} (h : s.bare = t.bare)

include h

theorem hasValues?_congr : s.hasValues? = t.hasValues? := find?_congr h fun _ => rfl

theorem oneOf?_congr : s.oneOf? = t.oneOf? := find?_congr h fun _ => rfl

theorem minCount?_congr : s.minCount? = t.minCount? := find?_congr h fun _ => rfl

theorem maxCount?_congr : s.maxCount? = t.maxCount? := find?_congr h fun _ => rfl

theorem defaultValue?_congr : s.defaultValue? = t.defaultValue? := find?_congr h Shape.defaultValue?_bare

theorem mutable_congr : s.mutable = t.mutable := by
  have hbare : ∀ s : ConstraintStack, s.bare.mutable = s.mutable := by
    rintro ⟨frames⟩
    cases frames with
    | nil => rfl
    | cons f _ => exact Shape.isMutable_bare f.shape
  rw [← hbare s, h, hbare]

end

end ConstraintStack

end ShapeTypes
