import ShapeTypes.Proofs.Cardinality
import ShapeTypes.Proofs.Inference.OwnScope
import ShapeTypes.Proofs.Schema.ObjectTyping

/-!
# Constraints do not cross references

A shape that no composite lists is given a type by its own constraints, wherever it is reached from.

* `Schema.OwnConstraints` — what a schema says of a shape is what the shape declares;
* `Inferred.exists_items` — where the type is that a shape was found to have;
* `infer_ownConstraints` — **every inferred schema keeps to the own constraints of each such shape**.
-/

namespace ShapeTypes

open Rdf

variable {graph : ShapesGraph} {table : PrefixTable} {strict : Bool} {schema : Schema}

/-- **What a schema says of a shape is what the shape declares.** The cardinality of a property shape is that
of its own bounds and mutability, and admits every number of values within the bounds; with a default value
it is plain, with some default. Types keep the values of their shape. A shape without `sh:node` has a type of
its own, behind a list if it declares one. -/
structure Schema.OwnConstraints (s : Schema) (shape : Shape) : Prop where
  cardinality : shape.isNode = false → shape.defaultValue? = none → ∃ use, s.use? shape.id = some use ∧
    Cardinality.ofBounds shape.constraints.minCount shape.constraints.maxCount none shape.isMutable =
      .ok use.cardinality ∧
    ∀ n, Cardinality.Within shape.constraints.minCount shape.constraints.maxCount n → use.cardinality.admits n
  default : shape.isNode = false → shape.defaultValue?.isSome = true → ∃ use d, s.use? shape.id = some use ∧
    use.cardinality = .plain (some d)
  items : shape.constraints.nodes = [] → ∃ use item t, s.use? shape.id = some use ∧
    s.itemsAt? shape.isList use.item = some item ∧ s.content? item = some (.type t) ∧ t.shape = shape.id
  values : ∀ slot t, s.content? slot = some (.type t) → t.shape = shape.id → t.body.KeepsOwn shape.constraints

namespace Inferred

variable (i : Inferred graph table strict schema)

theorem content?_renumber {x : Slot} {t : ItemType} (hx : i.state.slots[x]? = some (.type t))
    (hk : x ∈ i.keep) : ∃ t', schema.content? (Arena.renumber i.keep x) = some (.type t') ∧
      .type t' = i.finished (.type t) := by
  have hcontent := i.content?_eq hk
  rw [hx, Option.map_some] at hcontent
  obtain ⟨shape, name, doc, body⟩ := t
  cases body <;> exact ⟨_, hcontent, rfl⟩

/-- **Where the type is that a shape was found to have**: in its slot, or behind the list there. -/
theorem exists_items {id : Node} {use : TypeUse} {slot next : Slot} {shape : Shape} {name : Name} {body : Body}
    (hb : Built graph i.state id use slot next shape name (.type body)) (hk : i.place use.item ∈ i.keep) :
    ∃ item t, schema.itemsAt? shape.isList (i.located use.item) = some item ∧
      schema.content? item = some (.type t) ∧ .type t = i.finished (.type (shape.itemType name body)) := by
  have hitem : use.item = slot := hb.item
  have hown := hb.own
  rw [← hitem] at hown
  cases hl : shape.isList with
  | false =>
      simp only [Finding.own, hl] at hown
      have hplace := i.place_of_type hown
      rw [hplace] at hk
      obtain ⟨t, ht, hfinished⟩ := i.content?_renumber hown hk
      exact ⟨i.located use.item, t, rfl, by rw [located, hplace, ht], hfinished⟩
  | true =>
      simp only [Finding.own, hl] at hown
      have hinner := hb.inner (.type (shape.itemType name body)) (by simp [Finding.inner, hl])
      have hchild : next ∈ (Content.type (shape.itemType name (.list next))).children :=
        List.mem_singleton_self next
      have hnext := i.place_mem_keep hown hk hchild
      have hplace := i.place_of_type hown
      have hplace' := i.place_of_type hinner
      rw [hplace] at hk
      rw [hplace'] at hnext
      have hlist := i.content?_eq hk
      rw [hown, Option.map_some] at hlist
      obtain ⟨t, ht, hfinished⟩ := i.content?_renumber hinner hnext
      refine ⟨i.located next, t, ?_, by rw [located, hplace', ht], hfinished⟩
      rw [located, hplace, Schema.itemsAt?, hlist]
      rfl

theorem keepsOwn_of_finished {t t' : ItemType} (h : .type t' = i.finished (.type t)) {c : Constraints}
    (hb : t.body.KeepsOwn c) : t'.body.KeepsOwn c := by
  obtain ⟨shape, name, doc, body⟩ := t
  cases body with
  | object => cases h; exact trivial
  | composite => cases h; exact trivial
  | list => cases h; exact trivial
  | _ => cases h; exact hb

variable {id : Node} (hc : ∀ composite, ¬ graph.Composes composite id)

include i hc

theorem exists_ofBounds {shape : Shape} (hs : graph.shape? id = some shape) (hn : shape.isNode = false) :
    ∃ use d, schema.use? id = some use ∧ d.isSome = shape.defaultValue?.isSome ∧
      Cardinality.ofBounds shape.constraints.minCount shape.constraints.maxCount d shape.isMutable =
        .ok use.cardinality := by
  obtain ⟨use, o, rfl⟩ := i.exists_origin hs
  have hown := o.isOf hc
  obtain ⟨d, hdefault, hbounds⟩ := o.finalCardinality.exists_ofBounds hn
  rw [hown.defaultValue?_eq] at hdefault
  rw [hown.minCount?_eq, hown.maxCount?_eq, hown.mutable_eq] at hbounds
  exact ⟨_, d, i.use?_eq (ShapesGraph.mem_ids.2 ⟨_, hs⟩) o.built.done, hdefault, hbounds⟩

/-- The values that the types of a shape keep, if no composite lists it. -/
theorem keepsOwn {slot : Slot} {t : ItemType} (h : schema.content? slot = some (.type t)) (ht : t.shape = id)
    {shape : Shape} (hs : graph.shape? id = some shape) : t.body.KeepsOwn shape.constraints := by
  obtain ⟨x, -, t', hx, hfinished⟩ := i.exists_source h
  refine i.keepsOwn_of_finished hfinished ?_
  have hid : t'.shape = id := by
    have hshape : t.shape = t'.shape := (congrArg Content.shape hfinished).trans (i.shape_finished _)
    exact hshape.symm.trans ht
  by_cases hl : ∃ item, t'.body = .list item
  · obtain ⟨item, hitem⟩ := hl
    rw [hitem]
    exact trivial
  · obtain ⟨use, o, hfinding⟩ := i.final.exists_finds (fun _ _ => exists_origin_of_resolveAll i.run) hx
      (fun item hitem => hl ⟨item, hitem⟩)
    subst hid
    have hshape : o.resolution.shape = shape := Option.some.inj (o.shape?_id.symm.trans hs)
    rw [← hshape]
    exact o.keepsOwn (o.isOf hc) hfinding

end Inferred

/-- **What a schema says of a shape that no composite lists is what the shape declares.** Nothing declared on
a shape that refers to it, or that was being resolved when it was first reached, shows. -/
theorem infer_ownConstraints (h : graph.infer table strict = .ok schema) {shape : Shape}
    (hs : graph.shape? shape.id = some shape) (hc : ∀ composite, ¬ graph.Composes composite shape.id) :
    schema.OwnConstraints shape := by
  obtain ⟨i⟩ := exists_inferred h
  constructor
  case cardinality =>
    intro hn hnone
    obtain ⟨use, d, huse, hd, hbounds⟩ := i.exists_ofBounds hc hs hn
    rw [hnone, Option.isSome_none, Option.isSome_eq_false_iff, Option.isNone_iff_eq_none] at hd
    subst hd
    exact ⟨use, huse, hbounds, fun n hn => Cardinality.admits_of_ofBounds hbounds hn⟩
  case default =>
    intro hn hsome
    obtain ⟨use, d, huse, hd, hbounds⟩ := i.exists_ofBounds hc hs hn
    rw [hsome, Option.isSome_iff_exists] at hd
    obtain ⟨value, rfl⟩ := hd
    exact ⟨use, value, huse, Cardinality.eq_plain_of_ofBounds hbounds⟩
  case items =>
    intro hnodes
    obtain ⟨use, slot, next, name, finding, hb, huse, hkeep⟩ := i.exists_built hs
    cases finding with
    | standsFor target =>
        cases hb.fits with
        | reference _ _ hnodes' _ =>
            rw [hnodes] at hnodes'
            cases hnodes'
    | type body =>
        obtain ⟨item, t, hitem, hcontent, hfinished⟩ := i.exists_items hb hkeep
        exact ⟨_, item, t, huse, hitem, hcontent, (congrArg Content.shape hfinished).trans (i.shape_finished _)⟩
  case values => exact fun slot t ht hshape => i.keepsOwn hc ht hshape hs

/-- A contact, of which there is one of two, is a person or a team. A person has mail addresses, which are
reached from within the contact first. -/
def ShapesGraph.contacts : ShapesGraph where
  shapes := .ofList [
    { id := .blank "contact"
      constraints := {
        minCount := some 1, maxCount := some 1, hasValues := [Iri.term ⟨"e:desk"⟩]
        alternatives := some [.blank "Person", .blank "Team"] }
      form := .property { path := .predicate ⟨"e:contact"⟩ } },
    { id := .blank "Person", form := .node [.blank "mail"] },
    { id := .blank "Team", form := .node [] },
    { id := .blank "mail", constraints := { nodeKind := some ⟨false, true, false⟩, maxCount := some 3 }
      form := .property { path := .predicate ⟨"e:mail"⟩ } }]

theorem mail_ownConstraints : ∃ schema shape, ShapesGraph.contacts.infer default true = .ok schema ∧
    ShapesGraph.contacts.shape? (.blank "mail") = some shape ∧ schema.OwnConstraints shape := by
  have h : (ShapesGraph.contacts.infer default true).toOption.isSome = true := by decide +kernel
  obtain ⟨shape, hs⟩ : ∃ shape, ShapesGraph.contacts.shape? (.blank "mail") = some shape := ⟨_, rfl⟩
  have hid : shape.id = .blank "mail" := (ShapesGraph.shape?_eq_some hs).2
  have hc : ∀ composite, ¬ ShapesGraph.contacts.Composes composite shape.id := by
    rw [hid]
    exact ShapesGraph.not_composes (by decide)
  cases hschema : ShapesGraph.contacts.infer default true with
  | ok schema => exact ⟨schema, shape, rfl, hs, infer_ownConstraints hschema (hid ▸ hs) hc⟩
  | error e =>
      rw [hschema] at h
      cases h

end ShapeTypes
