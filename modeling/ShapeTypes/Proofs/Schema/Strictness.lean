import ShapeTypes.Proofs.Inference.Strictness
import ShapeTypes.Proofs.Schema.Defaults
import ShapeTypes.Proofs.Schema.Failure

/-!
# Strict mode only restricts

* `infer_true_cases` — strict inference does what lenient inference does, or refuses what that waives;
* `Schema.DefaultOn` — a shape has a default, on items that are literals of a datatype;
  `Inferred.defaultOn_of_waives` — **so has a shape whose default was waived**;
* `StrictRefusal` — a property shape is refused for a default that lenient inference replaced;
* `infer_strict` — **a strict schema is the lenient one, and what strict inference alone refuses is such a
  default.**
-/

namespace ShapeTypes

open Rdf Infer

variable {graph : ShapesGraph} {table : PrefixTable} {strict : Bool} {schema : Schema}

/-- Once all shapes are resolved, nothing depends on strictness. -/
theorem infer_true_cases (graph : ShapesGraph) (table : PrefixTable) :
    graph.infer table true = graph.infer table false ∨
      ∃ e, (resolveAll graph true).Fails { names := .ofTable table } e ∧ graph.infer table true = .error e ∧
        ∀ u s, (resolveAll graph false).Gives { names := .ofTable table } u s → e.WaivedIn s := by
  rcases (relaxed_resolveAll graph).agrees { names := .ofTable table } with hsame | ⟨e, hfails, hwaived⟩
  · refine Or.inl ?_
    unfold ShapesGraph.infer
    rw [hsame]
  · refine Or.inr ⟨e, hfails, ?_, fun u s h => (hwaived u s h).resolve_right id⟩
    unfold ShapesGraph.infer
    exact bind_eq_error.2 (Or.inl hfails)

/-! ## Waived defaults in the schema -/

/-- A shape has a default, on items that are literals of a datatype. -/
def Schema.DefaultOn (schema : Schema) (id : Node) (datatype : Iri) (d : DefaultValue) : Prop :=
  ∃ item t hasValues oneOf facets, schema.use? id = some ⟨.plain (some d), item⟩ ∧
    schema.content? item = some (.type t) ∧ t.body = .literal datatype hasValues oneOf facets

theorem exists_literal_of_defaultTarget {content : Content} {datatype : Iri}
    (h : defaultTarget content = .literal datatype) :
    ∃ t hasValues oneOf facets, content = .type t ∧ t.body = .literal datatype hasValues oneOf facets := by
  rcases content with id | t
  · cases h
  · simp only [defaultTarget] at h
    split at h
    · rename_i hbody
      cases h
      exact ⟨t, _, _, _, rfl, hbody⟩
    · cases h
    · cases h
    · cases h
    · split at h <;> cases h
    · cases h
    · cases h

theorem Origin.isNode_eq_false {id : Node} {use : TypeUse} {s : InferenceState} {d : DefaultValue}
    (o : Origin graph strict id use s) (hc : use.cardinality = .plain (some d)) :
    o.resolution.shape.isNode = false := by
  have hfinal := o.finalCardinality
  unfold FinalCardinality at hfinal
  by_contra hn
  rw [if_pos (by simpa using hn), hc] at hfinal
  cases hfinal

/-- **A default that was waived stands in the schema**, on items of the datatype that it was refused for. -/
theorem Inferred.defaultOn_of_waives (i : Inferred graph table strict schema) {id : Node} {use : TypeUse}
    (hmem : (id, .resolved use) ∈ i.state.memo) {term : Term} {datatype : Iri} {cause : DefaultError}
    {d : DefaultValue} (hw : Waived term (.literal datatype) cause d)
    (hc : use.cardinality = .plain (some d)) :
    (∃ shape, graph.shape? id = some shape ∧ shape.isNode = false) ∧ schema.DefaultOn id datatype d := by
  have hd : i.state.Done id use := i.final.history.lookup_of_resolved_mem hmem
  obtain ⟨o⟩ := exists_origin_of_resolveAll i.run hd
  have hn := o.isNode_eq_false hc
  have hs := o.shape?_id
  have hid : id ∈ graph.ids := ShapesGraph.mem_ids.2 ⟨_, hs⟩
  obtain ⟨term', t, -, ht, -, hdefault⟩ := i.exists_default hs hn hd hc
  obtain ⟨content, hcontent, -, htarget⟩ := i.exists_content (i.mem_keep_of_done hid hd) ht
  have hliteral : defaultTarget content = .literal datatype := by
    rw [htarget]
    rcases hdefault with hfor | ⟨hfor, -⟩
    · exact hw.target_eq hfor
    · cases hw.target_eq hfor
  obtain ⟨t', hasValues, oneOf, facets, rfl, hbody⟩ := exists_literal_of_defaultTarget hliteral
  refine ⟨⟨_, hs, hn⟩, _, t', hasValues, oneOf, facets, ?_, hcontent, hbody⟩
  rw [i.use?_eq hid hd, hc]

/-! ## What strict mode refuses -/

/-- A property shape is refused for a default that lenient inference replaced: its effective default is no
boolean although its items are booleans, or no literal although they are strings. -/
inductive StrictRefusal (graph : ShapesGraph) (schema : Schema) : InferenceError → Prop where
  | boolean {id shape term} : graph.shape? id = some shape → shape.isNode = false →
      graph.EffectiveDefault id term → (∀ l, term = .literal l → l.lexical ∉ ["true", "1", "false", "0"]) →
      schema.DefaultOn id (xsd "boolean") (.boolean false) →
      StrictRefusal graph schema (.malformed id (.default (.notBoolean term)))
  | string {id shape term} : graph.shape? id = some shape → shape.isNode = false →
      graph.EffectiveDefault id term → (∀ l, term ≠ .literal l) →
      schema.DefaultOn id (xsd "string") (.string "") →
      StrictRefusal graph schema (.malformed id (.default (.notString term)))

/-- What lenient inference waives, strict inference refused. -/
theorem Inferred.strictRefusal (i : Inferred graph table strict schema) {e : InferenceError}
    (hr : Refusal graph e) (hw : e.WaivedIn i.state) : StrictRefusal graph schema e := by
  obtain ⟨id, use, ⟨term, target, cause, d, rfl, hwaived, hc⟩, hmem⟩ := hw
  cases hr with
  | malformed hid hcause =>
      obtain ⟨term', target', strict', heffective, hfor⟩ := hcause
      obtain rfl := hwaived.term_eq hfor
      cases hwaived with
      | boolean hterm =>
          obtain ⟨⟨shape, hs, hn⟩, hdefault⟩ := i.defaultOn_of_waives hmem (.boolean hterm) hc
          exact .boolean hs hn heffective hterm hdefault
      | string hterm =>
          obtain ⟨⟨shape, hs, hn⟩, hdefault⟩ := i.defaultOn_of_waives hmem (.string hterm) hc
          exact .string hs hn heffective hterm hdefault

/-- **Strict mode only restricts.** A schema that is inferred strictly is inferred leniently as well, and where
strict inference alone fails, it refuses a property shape for a default that lenient inference replaced. -/
theorem infer_strict (graph : ShapesGraph) (table : PrefixTable) :
    (∀ schema, graph.infer table true = .ok schema → graph.infer table false = .ok schema) ∧
      ∀ e schema, graph.infer table true = .error e → graph.infer table false = .ok schema →
        StrictRefusal graph schema e := by
  rcases infer_true_cases graph table with hsame | ⟨e, hfails, hstrict, hwaived⟩
  · rw [hsame]
    refine ⟨fun _ h => h, fun e schema he hs => ?_⟩
    cases he.symm.trans hs
  · refine ⟨fun schema hs => ?_, fun e' schema he hs => ?_⟩
    · cases hstrict.symm.trans hs
    · cases hstrict.symm.trans he
      obtain ⟨i⟩ := exists_inferred hs
      exact i.strictRefusal (refusal_of_resolveAll hfails) (hwaived () i.state i.run)

/-! ## A default that only lenient inference takes -/

/-- Persons are active, or not; they are what the given default says. -/
def ShapesGraph.activity (term : Term) : ShapesGraph where
  shapes := .ofList [
    { id := .blank "Person", form := .node [.blank "active"] },
    { id := .blank "active", constraints := { datatype := some (xsd "boolean") }
      form := .property { path := .predicate ⟨"http://example.org/active"⟩, defaultValue := some term } }]

theorem ShapesGraph.infer_activity_true :
    ∃ schema, (activity (.literal (.plain "true"))).infer default true = .ok schema :=
  exists_of_isSome_toOption (by decide +kernel)

theorem ShapesGraph.infer_activity_maybe :
    ∃ e schema, (activity (.literal (.plain "maybe"))).infer default true = .error e ∧
      (activity (.literal (.plain "maybe"))).infer default false = .ok schema := by
  obtain ⟨e, he⟩ : ∃ e, (activity (.literal (.plain "maybe"))).infer default true = .error e :=
    exists_of_isNone_toOption (by decide +kernel)
  obtain ⟨schema, hs⟩ : ∃ schema, (activity (.literal (.plain "maybe"))).infer default false = .ok schema :=
    exists_of_isSome_toOption (by decide +kernel)
  exact ⟨e, schema, he, hs⟩

theorem activity_strict :
    (∃ schema, (ShapesGraph.activity (.literal (.plain "true"))).infer default true = .ok schema ∧
      (ShapesGraph.activity (.literal (.plain "true"))).infer default false = .ok schema) ∧
    ∃ e schema, (ShapesGraph.activity (.literal (.plain "maybe"))).infer default true = .error e ∧
      (ShapesGraph.activity (.literal (.plain "maybe"))).infer default false = .ok schema ∧
      StrictRefusal (ShapesGraph.activity (.literal (.plain "maybe"))) schema e := by
  obtain ⟨schema, hs⟩ := ShapesGraph.infer_activity_true
  obtain ⟨e, lenient, he, hl⟩ := ShapesGraph.infer_activity_maybe
  exact ⟨⟨schema, hs, (infer_strict _ _).1 schema hs⟩, e, lenient, he, hl, (infer_strict _ _).2 e lenient he hl⟩

end ShapeTypes
