import ShapeTypes.Proofs.Curie
import ShapeTypes.Proofs.Schema.Described

/-!
# When node shapes share a name

A node shape without labels is named by its IRI: by the reference of its curie while no other label has it, by the
whole curie once another one does, and by all of the IRI without a curie. References are compared with references
only, so that a name of one kind may be spelled like one of another kind.

* `Shape.NamedByIri`, `CurieRecord.shown` — such a shape, and how its IRI is shown;
* `CurieRecord.Clash` — two IRIs that are shown alike; `shown_eq_shown_iff` — **there are no others**;
* `infer_nodeName_eq_iff` — **node shapes named by different IRIs share a name exactly if their IRIs clash**;
* `staffPerson_names` — two that do.
-/

namespace ShapeTypes

open Rdf

variable {graph : ShapesGraph} {table : PrefixTable} {strict : Bool} {schema : Schema}

/-! ## Names by IRIs -/

/-- A node shape that only its IRI names. -/
structure Shape.NamedByIri (shape : Shape) (i : Iri) : Prop where
  id_eq : shape.id = .iri i
  isNode : shape.isNode = true
  overrideName : shape.labels.overrideName = none
  name : shape.labels.name = none
  label : shape.labels.label = none

instance {shape : Shape} {i : Iri} : Decidable (shape.NamedByIri i) :=
  decidable_of_iff (shape.id = .iri i ∧ shape.isNode = true ∧ shape.labels.overrideName = none ∧
      shape.labels.name = none ∧ shape.labels.label = none)
    ⟨fun ⟨h₁, h₂, h₃, h₄, h₅⟩ => ⟨h₁, h₂, h₃, h₄, h₅⟩, fun h => ⟨h.1, h.2, h.3, h.4, h.5⟩⟩

namespace CurieRecord

variable {r : CurieRecord} {i j : Iri}

/-- How an IRI is shown. -/
def shown (r : CurieRecord) (i : Iri) : String :=
  match r.curie? i with
  | none => i.value
  | some c => if r.isUnique c then c.reference else c.compact

theorem shown_of_none (h : r.curie? i = none) : r.shown i = i.value := by
  rw [shown, h]

theorem shown_of_unique {c : Curie} (h : r.curie? i = some c) (hu : r.isUnique c = true) :
    r.shown i = c.reference := by
  rw [shown, h]
  exact if_pos hu

theorem shown_of_not_unique {c : Curie} (h : r.curie? i = some c) (hu : r.isUnique c = false) :
    r.shown i = c.compact := by
  rw [shown, h]
  exact if_neg (by simp [hu])

/-- An IRI is shown as a whole, by its reference, or by its curie. -/
theorem shown_cases (r : CurieRecord) (i : Iri) :
    (r.curie? i = none ∧ r.shown i = i.value) ∨
      (∃ c, r.curie? i = some c ∧ r.isUnique c = true ∧ r.shown i = c.reference) ∨
      ∃ c, r.curie? i = some c ∧ r.isUnique c = false ∧ r.shown i = c.compact := by
  cases hc : r.curie? i with
  | none => exact Or.inl ⟨rfl, shown_of_none hc⟩
  | some c =>
      cases hu : r.isUnique c with
      | true => exact Or.inr (Or.inl ⟨c, rfl, hu, shown_of_unique hc hu⟩)
      | false => exact Or.inr (Or.inr ⟨c, rfl, hu, shown_of_not_unique hc hu⟩)

end CurieRecord

theorem Shape.NamedByIri.property?_eq {shape : Shape} {i : Iri} (h : shape.NamedByIri i) :
    shape.property? = none := by
  have hn := h.isNode
  unfold Shape.isNode at hn
  unfold Shape.property?
  cases hform : shape.form with
  | node properties => rfl
  | property form =>
      rw [hform] at hn
      cases hn

/-- **Such a shape is named as its IRI is shown.** -/
theorem Shape.NamedByIri.resolved_eq {shape : Shape} {i : Iri} (h : shape.NamedByIri i) (r : CurieRecord) :
    (Name.ofShape r.table shape).resolved r = r.shown i := by
  have hcandidates : Name.ofShape r.table shape =
      ⟨NameBook.identifierCandidates true (r.curie? i) ++ [.fixed .identifier i.value]⟩ := by
    have hcurie : (CurieRecord.create ⟨r.table, []⟩ i).1 = r.curie? i := CurieRecord.fst_create i
    simp [Name.ofShape, NameBook.build, h.property?_eq, h.id_eq, h.isNode, h.overrideName, h.name, h.label,
      NameBook.fixed?, NameBook.pathCandidates, NameBook.shrink, Node.iri?, Node.bare, hcurie]
  rcases r.shown_cases i with ⟨hc, hshown⟩ | ⟨c, hc, hu, hshown⟩ | ⟨c, hc, hu, hshown⟩ <;>
    rw [hcandidates, hshown, hc]
  · rfl
  · simp [Name.resolved, Name.resolvedWithRung, NameBook.identifierCandidates, Candidate.value?, hu]
  · simp [Name.resolved, Name.resolvedWithRung, NameBook.identifierCandidates, Candidate.value?, hu]

/-! ## Clashes -/

/-- Two IRIs are shown alike, each by a name of another kind, or both by curies with different labels: a unique
reference is spelled like a curie, two curies are spelled alike, or the reference or the curie of one IRI is
spelled like all of the other. -/
inductive CurieRecord.Clash (r : CurieRecord) (i j : Iri) : Prop where
  | localCompact {c d} : r.curie? i = some c → r.curie? j = some d → r.isUnique c = true → r.isUnique d = false →
      d.label ≠ "" → c.reference = d.label ++ "_" ++ d.reference → Clash r i j
  | compactCompact {c d} : r.curie? i = some c → r.curie? j = some d → r.isUnique c = false →
      r.isUnique d = false → c.label ≠ d.label → c.compact = d.compact → Clash r i j
  | localRaw {c} : r.curie? i = some c → r.curie? j = none → r.isUnique c = true →
      c.reference = j.value → Clash r i j
  | compactRaw {c} : r.curie? i = some c → r.curie? j = none → r.isUnique c = false →
      c.compact = j.value → Clash r i j

namespace CurieRecord

variable {r : CurieRecord} {i j : Iri}

theorem Clash.shown_eq (h : r.Clash i j) : r.shown i = r.shown j := by
  cases h with
  | localCompact hc hd hu hv hlabel heq =>
      rw [shown_of_unique hc hu, shown_of_not_unique hd hv, Curie.compact, if_neg hlabel, heq]
  | compactCompact hc hd hu hv _ heq => rw [shown_of_not_unique hc hu, shown_of_not_unique hd hv, heq]
  | localRaw hc hd hu heq => rw [shown_of_unique hc hu, shown_of_none hd, heq]
  | compactRaw hc hd hu heq => rw [shown_of_not_unique hc hu, shown_of_none hd, heq]

/-- A unique reference that is spelled like a curie with another reference: the curie has a label. -/
theorem clash_of_local_compact {c d : Curie} (hc : r.curie? i = some c) (hd : r.curie? j = some d)
    (hu : r.isUnique c = true) (hv : r.isUnique d = false) (heq : c.reference = d.compact) : r.Clash i j := by
  have hlabel : d.label ≠ "" := by
    intro hempty
    rw [Curie.compact, if_pos hempty] at heq
    rw [isUnique_congr heq, hv] at hu
    cases hu
  rw [Curie.compact, if_neg hlabel] at heq
  exact .localCompact hc hd hu hv hlabel heq

/-- Curies of different IRIs that are spelled alike have different labels. -/
theorem clash_of_compact_compact {c d : Curie} (hne : i ≠ j) (hc : r.curie? i = some c)
    (hd : r.curie? j = some d) (hu : r.isUnique c = false) (hv : r.isUnique d = false)
    (heq : c.compact = d.compact) : r.Clash i j := by
  refine .compactCompact hc hd hu hv (fun hlabel => hne ?_) heq
  have hreference : c.reference = d.reference := by
    unfold Curie.compact at heq
    rw [hlabel] at heq
    split at heq
    · exact heq
    · exact String.append_right_inj _ |>.1 heq
  have hcd : c = d := by
    cases c
    cases d
    exact congrArg₂ Curie.mk hlabel hreference
  exact r.table.curie?_injective hc (hcd ▸ hd)

/-- **Different IRIs whose curies were recorded are shown alike only if they clash.** -/
theorem shown_eq_shown_iff (hne : i ≠ j) (hi : ∀ c, r.curie? i = some c → c ∈ r.made)
    (hj : ∀ c, r.curie? j = some c → c ∈ r.made) : r.shown i = r.shown j ↔ r.Clash i j ∨ r.Clash j i := by
  constructor
  · intro h
    rcases r.shown_cases i with ⟨hc, hshown⟩ | ⟨c, hc, hu, hshown⟩ | ⟨c, hc, hu, hshown⟩ <;>
      rcases r.shown_cases j with ⟨hd, hshown'⟩ | ⟨d, hd, hv, hshown'⟩ | ⟨d, hd, hv, hshown'⟩ <;>
      rw [hshown, hshown'] at h
    · -- Whole IRIs are different.
      cases i
      cases j
      exact absurd (congrArg Iri.mk h) hne
    · exact Or.inr (.localRaw hd hc hv h.symm)
    · exact Or.inr (.compactRaw hd hc hv h.symm)
    · exact Or.inl (.localRaw hc hd hu h)
    · -- A unique reference belongs to one curie, and that to one IRI.
      obtain rfl := eq_of_isUnique (hi c hc) (hj d hd) hu h
      exact absurd (r.table.curie?_injective hc hd) hne
    · exact Or.inl (clash_of_local_compact hc hd hu hv h)
    · exact Or.inl (.compactRaw hc hd hu h)
    · exact Or.inr (clash_of_local_compact hd hc hv hu h.symm)
    · exact Or.inl (clash_of_compact_compact hne hc hd hu hv h)
  · rintro (h | h)
    · exact h.shown_eq
    · exact h.shown_eq.symm

end CurieRecord

/-! ## Names in the schema -/

/-- Every shape of the graph has an entry, named with the table. -/
theorem Inferred.exists_entry (i : Inferred graph table strict schema) {id : Node} {shape : Shape}
    (hs : graph.shape? id = some shape) :
    ∃ e, schema.entry? id = some e ∧ e.name = .ofShape schema.record.table shape := by
  have hid : id ∈ graph.ids := ShapesGraph.mem_ids.2 ⟨shape, hs⟩
  obtain ⟨use, hd⟩ := i.final.complete id hid
  obtain ⟨e, he, -⟩ := Option.map_eq_some_iff.1 (i.use?_eq hid hd)
  obtain ⟨shape', hs', hname⟩ := i.name_of_mem (List.mem_of_find?_eq_some he)
  have hshape : e.shape = id := by simpa using List.find?_some he
  rw [hshape, hs] at hs'
  cases hs'
  refine ⟨e, he, ?_⟩
  rw [hname, congrArg Schema.record i.schema_eq]
  exact congrArg (Name.ofShape · shape) i.names.table_eq.symm

theorem Inferred.mem_made (i : Inferred graph table strict schema) {shape : Shape} {iri : Iri}
    (hs : graph.shape? (.iri iri) = some shape) (c : Curie) (hc : schema.record.curie? iri = some c) :
    c ∈ schema.record.made := by
  have hrecord : schema.record = i.state.names.record := congrArg Schema.record i.schema_eq
  have hid : shape.id = .iri iri := (ShapesGraph.shape?_eq_some hs).2
  rw [hrecord] at hc ⊢
  refine (i.names.made c).2 (Or.inl ⟨shape, by rw [hid]; exact hs, List.mem_append_right _ ?_⟩)
  rw [hid, ← i.names.table_eq, Option.mem_toList]
  exact hc

/-- **Node shapes named by different IRIs share a name exactly if their IRIs clash.** -/
theorem infer_nodeName_eq_iff (h : graph.infer table strict = .ok schema) {i j : Iri} {shape shape' : Shape}
    (hs : graph.shape? (.iri i) = some shape) (hs' : graph.shape? (.iri j) = some shape')
    (hi : shape.NamedByIri i) (hj : shape'.NamedByIri j) (hne : i ≠ j) :
    ∃ e e', schema.entry? (.iri i) = some e ∧ schema.entry? (.iri j) = some e' ∧
      (e.name.resolved schema.record = e'.name.resolved schema.record ↔
        schema.record.Clash i j ∨ schema.record.Clash j i) := by
  obtain ⟨r⟩ := exists_inferred h
  obtain ⟨e, he, hname⟩ := r.exists_entry hs
  obtain ⟨e', he', hname'⟩ := r.exists_entry hs'
  refine ⟨e, e', he, he', ?_⟩
  rw [hname, hname', hi.resolved_eq, hj.resolved_eq]
  exact CurieRecord.shown_eq_shown_iff hne (r.mem_made hs) (r.mem_made hs')

/-! ## Shapes that share a name -/

/-- Persons, persons of the staff, and persons of the staff again. -/
def ShapesGraph.namesakes : ShapesGraph where
  shapes := .ofList [
    { id := .iri ⟨"http://people.example/Person"⟩, form := .node [] },
    { id := .iri ⟨"http://staff.example/Person"⟩, form := .node [] },
    { id := .iri ⟨"http://people.example/staff_Person"⟩, form := .node [] }]

/-- The prefixes of people and of the staff. -/
def PrefixTable.peopleAndStaff : PrefixTable :=
  PrefixTable.empty.insert "people" "http://people.example/" |>.insert "staff" "http://staff.example/"

/-- The name of a shape in the schema of a graph. -/
def ShapesGraph.nameIn? (graph : ShapesGraph) (table : PrefixTable) (i : Iri) : Option String :=
  match graph.infer table true with
  | .ok schema => (schema.entry? (.iri i)).map fun e => e.name.resolved schema.record
  | .error _ => none

theorem ShapesGraph.exists_of_nameIn? {i : Iri} {s : String} (h : graph.nameIn? table i = some s) :
    ∃ schema, graph.infer table true = .ok schema ∧
      ∃ e, schema.entry? (.iri i) = some e ∧ e.name.resolved schema.record = s := by
  unfold nameIn? at h
  split at h
  · rename_i schema hs
    obtain ⟨e, he, hname⟩ := Option.map_eq_some_iff.1 h
    exact ⟨schema, hs, e, he, hname⟩
  · cases h

theorem ShapesGraph.nameIn?_namesakes :
    namesakes.nameIn? .peopleAndStaff ⟨"http://staff.example/Person"⟩ = some "staff_Person" ∧
      namesakes.nameIn? .peopleAndStaff ⟨"http://people.example/staff_Person"⟩ = some "staff_Person" := by
  decide +kernel

theorem ShapesGraph.exists_schema_namesakes : ∃ schema e e',
    namesakes.infer .peopleAndStaff true = .ok schema ∧
      schema.entry? (.iri ⟨"http://staff.example/Person"⟩) = some e ∧
      schema.entry? (.iri ⟨"http://people.example/staff_Person"⟩) = some e' ∧
      e.name.resolved schema.record = e'.name.resolved schema.record := by
  obtain ⟨hi, hj⟩ := nameIn?_namesakes
  obtain ⟨schema, hs, e, he, hname⟩ := exists_of_nameIn? hi
  obtain ⟨schema', hs', e', he', hname'⟩ := exists_of_nameIn? hj
  cases hs.symm.trans hs'
  exact ⟨schema, e, e', hs, he, he', hname.trans hname'.symm⟩

/-- A person of the staff is named `staff_Person` by its curie, for `Person` alone is not unique; and so is a shape
with that very reference. -/
theorem staffPerson_names : ∃ schema e e' shape shape',
    ShapesGraph.namesakes.infer .peopleAndStaff true = .ok schema ∧
      ShapesGraph.namesakes.shape? (.iri ⟨"http://staff.example/Person"⟩) = some shape ∧
      ShapesGraph.namesakes.shape? (.iri ⟨"http://people.example/staff_Person"⟩) = some shape' ∧
      shape.NamedByIri ⟨"http://staff.example/Person"⟩ ∧
      shape'.NamedByIri ⟨"http://people.example/staff_Person"⟩ ∧
      schema.entry? (.iri ⟨"http://staff.example/Person"⟩) = some e ∧
      schema.entry? (.iri ⟨"http://people.example/staff_Person"⟩) = some e' ∧
      e.name.resolved schema.record = e'.name.resolved schema.record := by
  obtain ⟨schema, e, e', hs, he, he', hname⟩ := ShapesGraph.exists_schema_namesakes
  exact ⟨schema, e, e', _, _, hs, rfl, rfl, ⟨rfl, rfl, rfl, rfl, rfl⟩, ⟨rfl, rfl, rfl, rfl, rfl⟩, he, he', hname⟩

theorem staffPerson_names_iff : ∃ schema e e',
    ShapesGraph.namesakes.infer .peopleAndStaff true = .ok schema ∧
      schema.entry? (.iri ⟨"http://staff.example/Person"⟩) = some e ∧
      schema.entry? (.iri ⟨"http://people.example/staff_Person"⟩) = some e' ∧
      (e.name.resolved schema.record = e'.name.resolved schema.record ↔
        schema.record.Clash ⟨"http://staff.example/Person"⟩ ⟨"http://people.example/staff_Person"⟩ ∨
        schema.record.Clash ⟨"http://people.example/staff_Person"⟩ ⟨"http://staff.example/Person"⟩) := by
  obtain ⟨schema, -, -, hs, -⟩ := ShapesGraph.exists_schema_namesakes
  obtain ⟨e, e', h⟩ := infer_nodeName_eq_iff hs rfl rfl ⟨rfl, rfl, rfl, rfl, rfl⟩ ⟨rfl, rfl, rfl, rfl, rfl⟩
    (by decide : (⟨"http://staff.example/Person"⟩ : Iri) ≠ ⟨"http://people.example/staff_Person"⟩)
  exact ⟨schema, e, e', hs, h⟩

end ShapeTypes
