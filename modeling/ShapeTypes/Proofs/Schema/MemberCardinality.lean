import ShapeTypes.Proofs.Cardinality
import ShapeTypes.Proofs.Inference.MemberScope
import ShapeTypes.Proofs.Schema.Defaults

/-!
# The cardinality of a member of a composite

A member may leave out constraints that its composite declares. Whether they are in force depends on how the
member is reached first.

* `CoercedFrom` — a default is what a term gives for the final type of the items;
* `Schema.HasCardinality` — a shape has the cardinality of some bounds and the default of a term;
* `infer_member_cardinality` — **a member has the bounds and the default of its composite exactly when a shape
  before it leads to the composite**, and its own alone otherwise;
* `net_without_bound` — a member that comes first, and does without the bound of its composite.
-/

namespace ShapeTypes

open Rdf Relation

variable {graph : ShapesGraph} {table : PrefixTable} {strict : Bool} {schema : Schema}

/-- A default is what a term gives for the items that a slot holds, and there is none without a term. On
objects, which take no default, one that was decided before they were known is what the term gives for any. -/
def CoercedFrom (strict : Bool) (content : Content) (term : Option Term) (d : Option DefaultValue) : Prop :=
  match term with
  | none => d = none
  | some term => ∃ value, d = some value ∧ (defaultFor term (defaultTarget content) strict = .ok value ∨
      defaultTarget content = .object ∧ defaultFor term .term strict = .ok value)

/-- A shape has the cardinality of some bounds and mutability, with the default that a term gives. -/
def Schema.HasCardinality (s : Schema) (strict : Bool) (id : Node) (min max : Option Nat) (term : Option Term)
    (mutable : Bool) : Prop :=
  ∃ use content d, s.use? id = some use ∧ s.content? use.item = some content ∧
    CoercedFrom strict content term d ∧ Cardinality.ofBounds min max d mutable = .ok use.cardinality

/-- The cardinality of a property shape is that of what is in force where it was resolved. -/
theorem Inferred.hasCardinality (i : Inferred graph table strict schema) {id : Node} {use : TypeUse}
    (o : Origin graph strict id use i.state) (hn : o.resolution.shape.isNode = false) :
    schema.HasCardinality strict id o.resolution.stack.minCount? o.resolution.stack.maxCount?
      o.resolution.stack.defaultValue? o.resolution.stack.mutable := by
  have hd : i.state.Done id use := o.built.done
  have hid : id ∈ graph.ids := ShapesGraph.mem_ids.2 ⟨_, o.shape?_id⟩
  have hkeep := i.mem_keep_of_done hid hd
  obtain ⟨d, hsome, hbounds⟩ := o.finalCardinality.exists_ofBounds hn
  cases d with
  | none =>
      rw [Option.isSome_none, eq_comm, Option.isSome_eq_false_iff, Option.isNone_iff_eq_none] at hsome
      obtain ⟨t, ht⟩ := i.exists_type_of_mem_keep hkeep
      obtain ⟨content, hcontent, -⟩ := i.exists_content hkeep ht
      exact ⟨_, content, none, i.use?_eq hid hd, hcontent, by rw [hsome]; rfl, hbounds⟩
  | some value =>
      have hplain := Cardinality.eq_plain_of_ofBounds hbounds
      obtain ⟨term, t, hterm, ht, -, hfor⟩ := i.exists_default_of_origin o hn hplain
      obtain ⟨content, hcontent, -, htarget⟩ := i.exists_content hkeep ht
      refine ⟨_, content, some value, i.use?_eq hid hd, hcontent, ?_, hbounds⟩
      rw [hterm]
      refine ⟨value, rfl, ?_⟩
      rw [htarget]
      rcases hfor with hfor | ⟨hfor, -, hany | hobject⟩
      · exact Or.inl hfor
      · rw [hany]
        exact Or.inl hfor
      · exact Or.inr ⟨hobject, hfor⟩

/-- **The cardinality of a member of one composite.** The composite is a property shape that no other one
lists, and nothing else asks for the member. If a shape before the member in the graph leads to the composite,
the member has the bounds and the default of the composite where it has none of its own. If none does, the
member has its own alone. -/
theorem infer_member_cardinality (h : graph.infer table strict = .ok schema) {composite member : Node}
    {outer inner : Shape} (houter : graph.shape? composite = some outer)
    (hinner : graph.shape? member = some inner) (hproperty : inner.isNode = false)
    (hcomposes : graph.Composes composite member)
    (honly : ∀ other, graph.Asks other member → other = composite)
    (hnone : ∀ other, ¬ graph.Composes other composite) :
    (graph.ComposedFirst composite member → schema.HasCardinality strict member
      (inner.constraints.minCount <|> outer.constraints.minCount)
      (inner.constraints.maxCount <|> outer.constraints.maxCount)
      (inner.defaultValue? <|> outer.defaultValue?) inner.isMutable) ∧
    (¬ graph.ComposedFirst composite member → schema.HasCardinality strict member
      inner.constraints.minCount inner.constraints.maxCount inner.defaultValue? inner.isMutable) := by
  obtain ⟨i⟩ := exists_inferred h
  obtain ⟨before, after, hids⟩ := List.append_of_mem (ShapesGraph.mem_ids.2 ⟨inner, hinner⟩)
  constructor
  · intro hfirst
    obtain ⟨use, shape, o, hs, hscope⟩ :=
      exists_origin_of_composedFirst hids honly i.run hfirst hcomposes hnone
    cases hs.symm.trans houter
    have hshape : o.resolution.shape = inner := Option.some.inj (o.shape?_id.symm.trans hinner)
    rw [hshape] at hscope
    have hfind : ∀ {α : Type} (f : Shape → Option α), o.resolution.stack.find? f = (f inner <|> f outer) := by
      intro α f
      rw [ConstraintStack.find?_eq_findSome?, hscope, List.findSome?_cons, List.findSome?_singleton]
      cases f inner <;> rfl
    have hcardinality := i.hasCardinality o (by rw [hshape, hproperty])
    rw [ConstraintStack.minCount?, ConstraintStack.maxCount?, ConstraintStack.defaultValue?, hfind, hfind,
      hfind, ConstraintStack.mutable_eq_head?, hscope] at hcardinality
    exact hcardinality
  · intro hfirst
    obtain ⟨use, o, hscope⟩ := exists_origin_of_not_composedFirst hids honly hcomposes i.run hfirst
    have hshape : o.resolution.shape = inner := Option.some.inj (o.shape?_id.symm.trans hinner)
    have hcardinality := i.hasCardinality o (by rw [hshape, hproperty])
    rw [hshape] at hscope
    rw [hscope.minCount?_eq, hscope.maxCount?_eq, hscope.defaultValue?_eq, hscope.mutable_eq] at hcardinality
    exact hcardinality

/-! ## A member that comes before its composite -/

/-- A net price, of which no bounds are declared. -/
def Shape.net : Shape where
  id := .blank "net"
  form := .property { path := .predicate ⟨"e:price"⟩ }

/-- A gross price, of which no bounds are declared. -/
def Shape.gross : Shape where
  id := .blank "gross"
  form := .property { path := .predicate ⟨"e:price"⟩ }

/-- A price, of which there is at most one, is a net price or a gross price. -/
def Shape.price : Shape where
  id := .blank "price"
  constraints := { maxCount := some 1, alternatives := some [.blank "net", .blank "gross"] }
  form := .property { path := .predicate ⟨"e:price"⟩ }

/-- The price between its members. -/
def ShapesGraph.prices : ShapesGraph where
  shapes := .ofList [.net, .price, .gross]

namespace ShapesGraph

/-- A shape that only one shape refers to, or has as a property. -/
theorem eq_of_asks {member composite : Node}
    (h : ∀ shape ∈ graph.shapes.entries, member ∈ shape.references → shape.id = composite) (other : Node)
    (hasks : graph.Asks other member) : other = composite := by
  obtain ⟨shape, hs, hasked⟩ := hasks
  obtain ⟨hmem, rfl⟩ := ShapesGraph.shape?_eq_some hs
  refine h shape hmem ?_
  rw [Shape.references, List.mem_append]
  exact hasked.symm.imp And.right id

theorem not_composes_price : ∀ other, ¬ prices.Composes other (.blank "price") :=
  not_composes (by decide)

theorem exists_schema_prices : ∃ schema use, prices.infer default true = .ok schema ∧
    schema.use? (.blank "net") = some use ∧ use.cardinality = .set 0 false := by
  have h : (match prices.infer default true with
      | .ok schema => decide ((schema.use? (.blank "net")).map (·.cardinality) = some (.set 0 false))
      | .error _ => false) = true := by decide +kernel
  split at h
  · rename_i schema hs
    obtain ⟨use, huse, hc⟩ := Option.map_eq_some_iff.1 (of_decide_eq_true h)
    exact ⟨schema, use, hs, huse, hc⟩
  · cases h

end ShapesGraph

/-- The gross price comes after the price: there is at most one, as of prices. -/
theorem gross_cardinality : ∃ schema, ShapesGraph.prices.infer default true = .ok schema ∧
    ShapesGraph.prices.ComposedFirst (.blank "price") (.blank "gross") ∧
    schema.HasCardinality true (.blank "gross") none (some 1) none false := by
  obtain ⟨schema, use, hs, -⟩ := ShapesGraph.exists_schema_prices
  have hfirst : ShapesGraph.prices.ComposedFirst (.blank "price") (.blank "gross") :=
    ⟨[.blank "net", .blank "price"], [], .blank "price", rfl, by simp, .refl⟩
  have hcomposes : ShapesGraph.prices.Composes (.blank "price") (.blank "gross") :=
    ⟨.price, .one, [.blank "net", .blank "gross"], rfl, rfl, by simp⟩
  have hprice : ShapesGraph.prices.shape? (.blank "price") = some .price := rfl
  have hgross : ShapesGraph.prices.shape? (.blank "gross") = some .gross := rfl
  have hcardinality := infer_member_cardinality hs hprice hgross rfl hcomposes
    (ShapesGraph.eq_of_asks (by decide)) ShapesGraph.not_composes_price
  exact ⟨schema, hs, hfirst, hcardinality.1 hfirst⟩

/-- The net price comes before the price, and does not have its bound: there may be any number. -/
theorem net_without_bound : ∃ schema use, ShapesGraph.prices.infer default true = .ok schema ∧
    ShapesGraph.prices.shape? (.blank "net") = some .net ∧ Shape.net.isNode = false ∧
    ShapesGraph.prices.shape? (.blank "price") = some .price ∧ Shape.price.isNode = false ∧
    ShapesGraph.prices.Composes (.blank "price") (.blank "net") ∧
    (∀ other, ShapesGraph.prices.Asks other (.blank "net") → other = .blank "price") ∧
    (∀ other, ¬ ShapesGraph.prices.Composes other (.blank "price")) ∧
    (Shape.net.defaultValue? <|> Shape.price.defaultValue?) = none ∧
    schema.use? (.blank "net") = some use ∧
    Cardinality.ofBounds (Shape.net.constraints.minCount <|> Shape.price.constraints.minCount)
      (Shape.net.constraints.maxCount <|> Shape.price.constraints.maxCount) none Shape.net.isMutable ≠
        .ok use.cardinality := by
  obtain ⟨schema, use, hs, huse, hc⟩ := ShapesGraph.exists_schema_prices
  have hcomposes : ShapesGraph.prices.Composes (.blank "price") (.blank "net") :=
    ⟨.price, .one, [.blank "net", .blank "gross"], rfl, rfl, by simp⟩
  refine ⟨schema, use, hs, rfl, rfl, rfl, rfl, hcomposes, ShapesGraph.eq_of_asks (by decide),
    ShapesGraph.not_composes_price, rfl, huse, ?_⟩
  rw [hc]
  decide

end ShapeTypes
