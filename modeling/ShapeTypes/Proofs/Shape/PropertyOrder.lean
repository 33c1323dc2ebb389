import Mathlib.Data.List.Nodup
import ShapeTypes.Proofs.Lookup
import ShapeTypes.Proofs.Rdf.TermText
import ShapeTypes.Proofs.Shape.References

/-!
# The order of the properties of a node shape

* `Numeric.Binary64.TotallyBefore` — the total order of numbers: negative ones before the others, and by their bits;
  `Numeric.Binary64.orderKey_lt_iff` — sorting keys follow it;
* `PropertyPrecedes` — the order of properties: by `sh:order`, those without last, then by the text of the identifier;
  `PropertyPrecedes.irrefl`, `PropertyPrecedes.trans`, `PropertyPrecedes.total` — **it is strict and total**;
* `propertyBefore_iff` — properties are sorted by it;
* `readNodeShape_properties` — **the properties of a node shape are all objects of `sh:property`, each once, in this
  order, and no other list is that.**
-/

namespace ShapeTypes

open Rdf Numeric

/-! ## Numbers -/

namespace Numeric.Binary64

variable {x y : Binary64}

/-- The total order of numbers, zeros of both signs, infinities and NaNs among them: numbers with the sign bit come
first, with the greatest bits first, and then those without it, with the least bits first. -/
def TotallyBefore (x y : Binary64) : Prop :=
  match x.negative, y.negative with
  | true, true => y.bits < x.bits
  | true, false => True
  | false, true => False
  | false, false => x.bits < y.bits

instance : DecidableRel TotallyBefore := fun x y => by
  unfold TotallyBefore
  split <;> infer_instance

/-- The keys that numbers are sorted by follow the total order. -/
theorem orderKey_lt_iff : x.orderKey < y.orderKey ↔ x.TotallyBefore y := by
  have hx := x.bits.toNat_lt
  have hy := y.bits.toNat_lt
  unfold TotallyBefore orderKey
  cases hxn : x.negative <;> cases hyn : y.negative <;>
    simp only [negative, decide_eq_true_eq, decide_eq_false_iff_not, UInt64.lt_iff_toNat_lt] at hxn hyn ⊢
  all_goals simp
  all_goals omega

/-- A zero with a sign comes before one without, numbers before infinity, and infinity before a NaN. -/
example : TotallyBefore ⟨0x8000000000000000⟩ ⟨0⟩ ∧ TotallyBefore ⟨0x7fefffffffffffff⟩ ⟨0x7ff0000000000000⟩ ∧
    TotallyBefore ⟨0x7ff0000000000000⟩ ⟨0x7ff8000000000000⟩ := by
  decide

end Numeric.Binary64

/-! ## The order of properties -/

/-- One property with its order, if it has one, stands before another one. -/
inductive PropertyPrecedes : Option Binary64 × Node → Option Binary64 × Node → Prop where
  /-- Those with an order stand before those without, ... -/
  | ordered {x : Binary64} {a b : Node} : PropertyPrecedes (some x, a) (none, b)
  /-- ... those with different orders as their orders do, ... -/
  | order {x y : Binary64} {a b : Node} : x.TotallyBefore y → PropertyPrecedes (some x, a) (some y, b)
  /-- ... and those with the same order, or without, by the text of their identifiers. -/
  | text {order : Option Binary64} {a b : Node} : a.text < b.text → PropertyPrecedes (order, a) (order, b)

namespace PropertyPrecedes

variable {x y : Binary64} {a b : Node} {p q r : Option Binary64 × Node}

@[simp] theorem some_some_iff :
    PropertyPrecedes (some x, a) (some y, b) ↔ x.orderKey < y.orderKey ∨ x = y ∧ a.text < b.text := by
  rw [Binary64.orderKey_lt_iff]
  constructor
  · rintro (_ | h | h)
    · exact Or.inl h
    · exact Or.inr ⟨rfl, h⟩
  · rintro (h | ⟨rfl, h⟩)
    · exact order h
    · exact text h

@[simp] theorem some_none : PropertyPrecedes (some x, a) (none, b) := ordered

@[simp] theorem not_none_some : ¬ PropertyPrecedes (none, a) (some x, b) := nofun

@[simp] theorem none_none_iff : PropertyPrecedes (none, a) (none, b) ↔ a.text < b.text := by
  constructor
  · rintro (_ | _ | h)
    exact h
  · exact text

theorem irrefl (p : Option Binary64 × Node) : ¬ PropertyPrecedes p p := by
  obtain ⟨_ | x, a⟩ := p <;> simp

theorem trans (h : PropertyPrecedes p q) (h' : PropertyPrecedes q r) : PropertyPrecedes p r := by
  cases h with
  | ordered =>
      cases h' with
      | text => exact ordered
  | @order x y a b h =>
      cases h' with
      | ordered => exact ordered
      | @order _ z _ c h' =>
          rw [← Binary64.orderKey_lt_iff] at h h'
          exact order (Binary64.orderKey_lt_iff.1 (Int.lt_trans h h'))
      | text => exact order h
  | text h =>
      cases h' with
      | ordered => exact ordered
      | order h' => exact order h'
      | text h' => exact text (String.lt_trans h h')

theorem asymm (h : PropertyPrecedes p q) : ¬ PropertyPrecedes q p := fun h' => irrefl p (h.trans h')

theorem total_of_ne {o : Option Binary64} (h : a ≠ b) :
    PropertyPrecedes (o, a) (o, b) ∨ PropertyPrecedes (o, b) (o, a) := by
  rcases Std.lt_trichotomy a.text b.text with hlt | heq | hlt
  · exact Or.inl (text hlt)
  · exact absurd (Node.text_injective heq) h
  · exact Or.inr (text hlt)

/-- **Of two different properties one precedes the other.** -/
theorem total (h : p ≠ q) : PropertyPrecedes p q ∨ PropertyPrecedes q p := by
  obtain ⟨o, a⟩ := p
  obtain ⟨o', b⟩ := q
  match o, o' with
  | none, none => exact total_of_ne fun hab => h (by rw [hab])
  | none, some y => exact Or.inr ordered
  | some x, none => exact Or.inl ordered
  | some x, some y =>
      rcases Int.lt_trichotomy x.orderKey y.orderKey with hlt | heq | hlt
      · exact Or.inl (order (Binary64.orderKey_lt_iff.1 hlt))
      · obtain rfl := Binary64.orderKey_injective heq
        exact total_of_ne fun hab => h (by rw [hab])
      · exact Or.inr (order (Binary64.orderKey_lt_iff.1 hlt))

end PropertyPrecedes

/-- A property may stand before another one exactly if it precedes it, or is the same. -/
theorem propertyBefore_iff {p q : Option Binary64 × Node} :
    propertyBefore p q = true ↔ PropertyPrecedes p q ∨ p = q := by
  have htext : ∀ a b : Node, a.text ≤ b.text ↔ a.text < b.text ∨ a = b := fun a b => by
    rw [Std.le_iff_lt_or_eq, Node.text_injective.eq_iff]
  have hkey : ∀ x y : Binary64, x.orderKey = y.orderKey ↔ x = y := fun x y =>
    ⟨Binary64.orderKey_injective, congrArg _⟩
  obtain ⟨_ | x, a⟩ := p <;> obtain ⟨_ | y, b⟩ := q <;> simp [propertyBefore, htext, hkey]
  grind

instance : DecidableRel PropertyPrecedes := fun p q =>
  decidable_of_iff (propertyBefore p q = true ∧ p ≠ q) (by
    rw [propertyBefore_iff]
    exact ⟨fun h => h.1.resolve_right h.2, fun h => ⟨Or.inl h, fun heq => PropertyPrecedes.irrefl p (heq ▸ h)⟩⟩)

/-- Properties that are sorted stand each before those after it, if none occurs twice. -/
theorem pairwise_mergeSort {l : List (Option Binary64 × Node)} (h : l.Nodup) :
    (l.mergeSort propertyBefore).Pairwise PropertyPrecedes := by
  have htrans : ∀ p q r, propertyBefore p q = true → propertyBefore q r = true → propertyBefore p r = true := by
    intro p q r hpq hqr
    rw [propertyBefore_iff] at hpq hqr ⊢
    rcases hpq with hpq | rfl
    · rcases hqr with hqr | rfl
      · exact Or.inl (hpq.trans hqr)
      · exact Or.inl hpq
    · exact hqr
  have htotal : ∀ p q, (propertyBefore p q || propertyBefore q p) = true := by
    intro p q
    rw [Bool.or_eq_true, propertyBefore_iff, propertyBefore_iff]
    by_cases h : p = q
    · exact Or.inl (Or.inr h)
    · exact (PropertyPrecedes.total h).imp Or.inl Or.inl
  have hsorted := List.pairwise_mergeSort htrans htotal l
  have hnodup : (l.mergeSort propertyBefore).Nodup := (List.mergeSort_perm l _).nodup_iff.2 h
  exact hsorted.imp₂ (fun p q hpq hne => (propertyBefore_iff.1 hpq).resolve_right hne) hnodup

/-! ## Lists in order -/

/-- The properties stand in order, each with the order that `order` gives it. -/
def InPropertyOrder (order : Node → Option Binary64) (ps : List Node) : Prop :=
  ps.Pairwise fun a b => PropertyPrecedes (order a, a) (order b, b)

namespace InPropertyOrder

variable {order : Node → Option Binary64} {ps qs : List Node}

theorem nodup (h : InPropertyOrder order ps) : ps.Nodup := by
  refine List.Pairwise.imp ?_ h
  rintro a b hab rfl
  exact PropertyPrecedes.irrefl _ hab

/-- **Two lists in order that have the same members are one.** -/
theorem unique (hps : InPropertyOrder order ps) (hqs : InPropertyOrder order qs) (hmem : ∀ m, m ∈ qs ↔ m ∈ ps) :
    qs = ps := by
  have hperm : qs.Perm ps := (List.perm_ext_iff_of_nodup hqs.nodup hps.nodup).2 hmem
  exact hperm.eq_of_pairwise (fun a b _ _ hab hba => absurd hba hab.asymm) hqs hps

end InPropertyOrder

/-! ## The properties of a node shape -/

def propertyOrder? (g : Graph) (m : Node) : Option Binary64 := (readNumber g m (sh "order")).toOption.join

section

variable {g : Graph} {id m : Node} {ps : List Node}

theorem readOrdered_eq_ok {t : Term} {p : Option Binary64 × Node} (h : readOrdered g id t = .ok p) :
    t = .node p.2 ∧ readNumber g p.2 (sh "order") = .ok p.1 := by
  unfold readOrdered at h
  obtain ⟨m, hm, h⟩ := bind_eq_ok.1 h
  obtain ⟨order, horder, h⟩ := bind_eq_ok.1 h
  cases h
  exact ⟨asShape_eq_ok hm, horder⟩

theorem propertyOrder?_eq {order : Option Binary64} (h : readNumber g m (sh "order") = .ok order) :
    propertyOrder? g m = order := by
  rw [propertyOrder?, h]
  rfl

/-- The terms that are read are the properties, which come with their orders. -/
theorem forall₂_readOrdered {ts : List Term} {ordered : List (Option Binary64 × Node)}
    (h : List.Forall₂ (fun t p => readOrdered g id t = .ok p) ts ordered) :
    ts = ordered.map (fun p => .node p.2) ∧ ∀ p ∈ ordered, readNumber g p.2 (sh "order") = .ok p.1 := by
  induction h with
  | nil => exact ⟨rfl, nofun⟩
  | cons hp _ ih =>
      obtain ⟨hterm, horder⟩ := readOrdered_eq_ok hp
      exact ⟨by rw [List.map_cons, ← ih.1, hterm], List.forall_mem_cons.2 ⟨horder, ih.2⟩⟩

/-- The properties that are read stand in order, if no triple is held twice. -/
theorem inPropertyOrder_of_orderedProperties (hg : g.triples.Nodup) (h : orderedProperties g id = .ok ps) :
    InPropertyOrder (propertyOrder? g) ps ∧ (∀ m ∈ ps, readNumber g m (sh "order") = .ok (propertyOrder? g m)) ∧
      ∀ o, ⟨id, sh "property", o⟩ ∈ g.triples ↔ ∃ m ∈ ps, o = .node m := by
  unfold orderedProperties at h
  obtain ⟨ordered, hordered, h⟩ := bind_eq_ok.1 h
  cases h
  obtain ⟨hobjects, hread⟩ := forall₂_readOrdered (forall₂_of_mapM_eq_ok hordered)
  have hnodup : ordered.Nodup := by
    have hnodup := Graph.nodup_objects id (sh "property") hg
    rw [hobjects] at hnodup
    exact List.Nodup.of_map _ hnodup
  have hmem : ∀ m, m ∈ (ordered.mergeSort propertyBefore).map (·.2) ↔ ∃ p ∈ ordered, p.2 = m := fun m => by
    simp only [List.mem_map, List.mem_mergeSort]
  refine ⟨List.pairwise_map.2 ((pairwise_mergeSort hnodup).imp_of_mem fun {p q} hp hq hpq => ?_), ?_, ?_⟩
  · rwa [propertyOrder?_eq (hread p (List.mem_mergeSort.1 hp)), propertyOrder?_eq (hread q (List.mem_mergeSort.1 hq))]
  · intro m hm
    obtain ⟨p, hp, rfl⟩ := (hmem m).1 hm
    rw [propertyOrder?_eq (hread p hp), hread p hp]
  · intro o
    rw [← Graph.mem_objects, hobjects, List.mem_map]
    constructor
    · rintro ⟨p, hp, rfl⟩
      exact ⟨p.2, (hmem p.2).2 ⟨p, hp, rfl⟩, rfl⟩
    · rintro ⟨m, hm, rfl⟩
      obtain ⟨p, hp, rfl⟩ := (hmem m).1 hm
      exact ⟨p, hp, rfl⟩

end

/-- The properties of a node shape are the objects that a graph gives it for `sh:property`, in order. -/
structure PropertiesInOrder (g : Graph) (id : Node) (ps : List Node) : Prop where
  /-- They are all the objects of `sh:property`, ... -/
  mem_iff : ∀ o, ⟨id, sh "property", o⟩ ∈ g.triples ↔ ∃ m ∈ ps, o = .node m
  /-- ... each once. -/
  nodup : ps.Nodup
  /-- Their orders are those that the graph gives them, ... -/
  order_eq : ∀ m ∈ ps, readNumber g m (sh "order") = .ok (propertyOrder? g m)
  /-- ... and each stands before all that it precedes by that order, which is strict ... -/
  inOrder : InPropertyOrder (propertyOrder? g) ps
  irrefl : ∀ p, ¬ PropertyPrecedes p p
  trans : ∀ p q r, PropertyPrecedes p q → PropertyPrecedes q r → PropertyPrecedes p r
  /-- ... and total. -/
  total : ∀ p q, p ≠ q → PropertyPrecedes p q ∨ PropertyPrecedes q p
  /-- So no other list of these objects is in order. -/
  unique : ∀ qs : List Node, (∀ o, ⟨id, sh "property", o⟩ ∈ g.triples ↔ ∃ m ∈ qs, o = .node m) →
    InPropertyOrder (propertyOrder? g) qs → qs = ps

/-- **The properties of a node shape are all objects of `sh:property`, each once, in the order of properties.** -/
theorem readNodeShape_properties {triples : List Triple} {id : Node} {shape : Shape}
    (h : readNodeShape (Graph.ofList triples) id = .ok shape) :
    PropertiesInOrder (Graph.ofList triples) id shape.properties := by
  unfold readNodeShape at h
  obtain ⟨properties, hproperties, h⟩ := bind_eq_ok.1 h
  obtain ⟨shapeOf, hparts, h⟩ := bind_eq_ok.1 h
  cases h
  have heq : (shapeOf (.node properties)).properties = properties := by
    obtain ⟨c, -, hshape⟩ := readParts_eq_ok hparts
    rw [Shape.properties, (hshape (.node properties)).2.2]
  obtain ⟨hinOrder, hread, hmem⟩ := inPropertyOrder_of_orderedProperties (nodup_eraseDups _) hproperties
  rw [heq]
  constructor
  case mem_iff => exact hmem
  case nodup => exact hinOrder.nodup
  case order_eq => exact hread
  case inOrder => exact hinOrder
  case irrefl => exact PropertyPrecedes.irrefl
  case trans => exact fun _ _ _ => PropertyPrecedes.trans
  case total => exact fun _ _ => PropertyPrecedes.total
  case unique =>
    intro qs hqs hqsOrder
    refine hinOrder.unique hqsOrder fun m => ?_
    simpa using (hqs (.node m)).symm.trans (hmem (.node m))

/-! ## Five properties -/

/-- A person with properties of four orders, a zero with a sign and a NaN among them, and one without an order. -/
def orderedPerson : List Triple :=
  ["age", "email", "name", "note", "phone"].map (fun p => ⟨.blank "Person", sh "property", .node (.blank p)⟩) ++
    [("age", "2"), ("email", "0"), ("note", "NaN"), ("phone", "-0")].map
      fun (p, order) => ⟨.blank p, sh "order", .literal (.plain order)⟩

theorem exists_readNodeShape_orderedPerson :
    ∃ shape, readNodeShape (Graph.ofList orderedPerson) (.blank "Person") = .ok shape := by
  have hobjects := Graph.objects_eq_objectsOf_of_pairwise (g := Graph.ofList orderedPerson) (s := .blank "Person")
    (p := sh "property") (by decide +kernel)
  refine exists_of_isSome_toOption ?_
  simp (disch := decide +kernel) only [readNodeShape, orderedProperties, hobjects, readParts, readConstraints,
    readAnnotations, Graph.objects_eq_objectsOf]
  decide +kernel

/-- They are read in the order of their numbers, the zero with a sign before the one without and the NaN after all
others, and the one without a number is last. -/
theorem readNodeShape_orderedPerson : ∃ shape,
    readNodeShape (Graph.ofList orderedPerson) (.blank "Person") = .ok shape ∧
      shape.properties = [.blank "phone", .blank "email", .blank "age", .blank "note", .blank "name"] := by
  obtain ⟨shape, hshape⟩ := exists_readNodeShape_orderedPerson
  refine ⟨shape, hshape, ((readNodeShape_properties hshape).unique _ ?_ ?_).symm⟩
  · intro o
    rw [Graph.mem_ofList]
    constructor
    · have hall : ∀ t ∈ orderedPerson, t.subject = .blank "Person" → t.predicate = sh "property" →
          ∃ m ∈ [Node.blank "phone", .blank "email", .blank "age", .blank "note", .blank "name"],
            t.object = .node m := by decide +kernel
      exact fun ho => hall _ ho rfl rfl
    · rintro ⟨m, hm, rfl⟩
      revert m
      decide +kernel
  · unfold InPropertyOrder
    decide +kernel

end ShapeTypes
