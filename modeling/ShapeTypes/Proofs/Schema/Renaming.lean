import ShapeTypes.Proofs.Schema.Settled

/-!
# Replacing handles and nothing else

A use, a property, a body and a content are each renamed to another one if its handles are replaced by related ones,
each in its place, and all the rest is the same.

* `TypeUse.Renamed`, `Property.Renamed`, `Body.Renamed`, `Content.Renamed` — renaming, part by part;
* `Content.renamed_mapSlots` — **replacing every reference renames.**
-/

namespace ShapeTypes

open Rdf

variable {R : Slot → Slot → Prop} {f : Slot → Slot}

/-- Only the handle of the use is replaced. -/
def TypeUse.Renamed (R : Slot → Slot → Prop) (u u' : TypeUse) : Prop :=
  ∃ item, R u.item item ∧ u' = { u with item }

/-- Only the use of the property is renamed. -/
def Property.Renamed (R : Slot → Slot → Prop) (p p' : Property) : Prop :=
  ∃ use, p.use.Renamed R use ∧ p' = { p with use }

/-- Only the handles of the body are replaced: the parent of an object and the items of its properties, the members
of a composite, the item of a list. A body without any stays as it is. -/
inductive Body.Renamed (R : Slot → Slot → Prop) : Body → Body → Prop
  | object {o : ObjectBody} {parent : Option Slot} {properties : List Property} : Option.Rel R o.parent parent →
      List.Forall₂ (Property.Renamed R) o.properties properties →
      Renamed R (.object o) (.object { o with parent, properties })
  | composite {connective : Connective} {ofObjects : Bool} {members members' : List Slot} :
      List.Forall₂ R members members' →
      Renamed R (.composite connective ofObjects members) (.composite connective ofObjects members')
  | list {item item' : Slot} : R item item' → Renamed R (.list item) (.list item')
  | bare {b : Body} : b.edges = [] → Renamed R b b

/-- Only the handles of the body are replaced, if there is a type. -/
inductive Content.Renamed (R : Slot → Slot → Prop) : Content → Content → Prop
  | placeholder {shape : Node} : Renamed R (.placeholder shape) (.placeholder shape)
  | type {t : ItemType} {body : Body} : t.body.Renamed R body → Renamed R (.type t) (.type { t with body })

theorem TypeUse.renamed_mapSlot {u : TypeUse} (h : R u.item (f u.item)) : u.Renamed R (u.mapSlot f) :=
  ⟨f u.item, h, rfl⟩

theorem Property.renamed_mapSlot {p : Property} (h : R p.use.item (f p.use.item)) : p.Renamed R (p.mapSlot f) :=
  ⟨p.use.mapSlot f, TypeUse.renamed_mapSlot h, rfl⟩

theorem forall₂_map_self {α β : Type} {P : α → β → Prop} {g : α → β} {l : List α} (h : ∀ a ∈ l, P a (g a)) :
    List.Forall₂ P l (l.map g) := by
  rw [List.forall₂_map_right_iff, List.forall₂_same]
  exact h

theorem Body.renamed_mapSlots {b : Body} (h : ∀ e ∈ b.edges, R e.2 (f e.2)) : b.Renamed R (b.mapSlots f) := by
  cases b with
  | object o =>
      have hparent : ∀ x ∈ o.parent, R x (f x) := fun x hx => h (.parent, x) (by simp [edges, Option.mem_def.1 hx])
      have hproperty : ∀ p ∈ o.properties, R p.use.item (f p.use.item) := fun p hp =>
        h (.property, p.use.item) (List.mem_append_right _ (List.mem_map_of_mem hp))
      refine .object ?_ (forall₂_map_self fun p hp => Property.renamed_mapSlot (hproperty p hp))
      cases hp : o.parent with
      | none => exact .none
      | some x => exact .some (hparent x hp)
  | composite connective ofObjects members =>
      exact .composite (forall₂_map_self fun x hx => h (.member, x) (List.mem_map_of_mem hx))
  | list item => exact .list (h (.item, item) List.mem_cons_self)
  | identifier => exact .bare rfl
  | literal => exact .bare rfl
  | term => exact .bare rfl
  | enumeration => exact .bare rfl

/-- **Replacing every reference renames.** -/
theorem Content.renamed_mapSlots {c : Content} (h : ∀ x ∈ c.children, R x (f x)) : c.Renamed R (c.mapSlots f) := by
  cases c with
  | placeholder => exact .placeholder
  | type t => exact .type (Body.renamed_mapSlots fun e he => h e.2 (List.mem_map_of_mem he))

end ShapeTypes
