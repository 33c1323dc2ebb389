import ShapeTypes.Proofs.Cardinality
import ShapeTypes.Proofs.Inference.Reentry
import ShapeTypes.Proofs.Schema.Inferred

/-!
# When defaults fit the final types

A default is decided when its shape is left, with what is known of the type of its items then.

* `FinalCardinality.exists_default` — where a default comes from;
* `infer_default_iff` — **a default is the one for the final type unless that takes none**; if it takes none,
  its shape asks for the shape that has the default;
* `employer_default_on_union` — a default that stands on a union of objects.
-/

namespace ShapeTypes

open Rdf Relation

variable {graph : ShapesGraph} {table : PrefixTable} {strict : Bool} {schema : Schema}

/-! ## Where defaults come from -/

/-- **A default is one for what is known of the items**, when the cardinality is decided. -/
theorem FinalCardinality.exists_default {s : InferenceState} {shape : Shape} {stack : ConstraintStack}
    {item : Slot} {d : DefaultValue} (h : FinalCardinality strict s shape stack item (.plain (some d)))
    (hn : shape.isNode = false) : ∃ term content, stack.defaultValue? = some term ∧
      s.slots[follow s.aliases item]? = some content ∧
      defaultFor term (defaultTarget content) strict = .ok d := by
  unfold FinalCardinality at h
  simp only [hn, Bool.false_eq_true, if_false] at h
  obtain ⟨d', hdefault, hbounds⟩ := h
  rw [Cardinality.eq_some_of_ofBounds hbounds, FinalDefault] at hdefault
  split at hdefault
  · cases hdefault
  · rename_i term hterm
    obtain ⟨target, value, htarget, hfor, hvalue⟩ := hdefault
    cases hvalue
    unfold InferenceState.targetAt? at htarget
    split at htarget
    · cases htarget
      cases hfor
    · obtain ⟨content, hcontent, rfl⟩ := Option.map_eq_some_iff.1 htarget
      exact ⟨term, content, hterm, hcontent, hfor⟩

/-! ## What the schema keeps of a type -/

theorem defaultTarget_mapSlots (f : Slot → Slot) (c : Content) :
    defaultTarget (c.mapSlots f) = defaultTarget c := by
  rcases c with id | ⟨shape, name, doc, body⟩
  · rfl
  · cases body <;> rfl

theorem defaultTarget_settleContent {s : InferenceState} (c : Content) :
    defaultTarget (s.settleContent c) = defaultTarget c := by
  rcases c with id | ⟨shape, name, doc, body⟩
  · rfl
  · cases body <;> rfl

/-- The final type of a shape takes the same defaults as the type that inference gave it. -/
theorem Inferred.exists_content (i : Inferred graph table strict schema) {x : Slot} {t : ItemType}
    (hx : x ∈ i.keep) (ht : i.state.slots[x]? = some (.type t)) : ∃ content,
      schema.content? (Arena.renumber i.keep x) = some content ∧ content.shape = t.shape ∧
        defaultTarget content = defaultTarget (.type t) := by
  refine ⟨_, by rw [i.content?_eq hx, ht, Option.map_some], ?_, ?_⟩
  · rw [Content.shape_mapSlots, Content.shape_mapSlots, InferenceState.shape_settleContent]
    rfl
  · rw [defaultTarget_mapSlots, defaultTarget_mapSlots, defaultTarget_settleContent]

/-! ## Defaults and final types -/

/-- Where the default of a shape was decided, and what its items are at last: either their type was known
then, or the shape of their type asks for the shape of the default. -/
theorem Inferred.exists_default_of_origin (i : Inferred graph table strict schema) {id : Node} {use : TypeUse}
    (o : Origin graph strict id use i.state) (hn : o.resolution.shape.isNode = false) {d : DefaultValue}
    (hc : use.cardinality = .plain (some d)) :
    ∃ term t, o.resolution.stack.defaultValue? = some term ∧
      i.state.slots[i.place use.item]? = some (.type t) ∧ ReflTransGen graph.StandsInFor id t.shape ∧
      (defaultFor term (defaultTarget (.type t)) strict = .ok d ∨
        defaultFor term .term strict = .ok d ∧ TransGen graph.Asks t.shape id ∧
          (defaultTarget (.type t) = .term ∨ defaultTarget (.type t) = .object)) := by
  have hall : ∀ id use, i.state.Done id use → ∃ u, u.Keeps i.state ∧ Leaving graph strict id use u := by
    intro id use hd
    obtain ⟨o⟩ := exists_origin_of_resolveAll i.run hd
    exact o.exists_leaving
  have hd : i.state.Done id use := o.built.done
  have k : (o.request.answered graph o.scopes o.after).Keeps i.state := o.kept
  have hu : Leaving graph strict id use (o.request.answered graph o.scopes o.after) := o.leaving
  have hcardinality := o.finalCardinality
  rw [hc] at hcardinality
  obtain ⟨term, content, hterm, hcontent, hfor⟩ := hcardinality.exists_default hn
  obtain ⟨hend, hpath, hplace⟩ := Final.exists_end i.replacements k use.item
  obtain ⟨last, use', t, hstands, -, -, hlast, ht, rfl⟩ := i.final.exists_last i.replacements hd
  refine ⟨term, t, hterm, by rw [Settled.place, hlast]; exact ht, hstands, ?_⟩
  cases content with
  | type t' =>
      -- The type was known, and is the final one.
      have ht' := Final.type_kept hu.lawful k hcontent
      rw [i.final.replaceSlot_of_type i.replacements ht', hlast] at hplace
      rw [hplace, ht] at ht'
      cases ht'
      exact Or.inl hfor
  | placeholder other =>
      obtain ⟨last', uselast, hlastdone, hnone, hplace', hasks⟩ :=
        i.final.exists_last_asks i.replacements k hu hcontent hend
          (fun _ => i.final.item_ne_of_path i.replacements hpath) hall
      obtain ⟨slot, next, shape'', name, finding, hb⟩ := i.final.lawful.built last' uselast hlastdone
      obtain ⟨t', ht', hshape⟩ := hb.exists_type_item hnone
      have hsame : use'.item = uselast.item := by
        rw [← hlast, ← hplace, hplace', i.final.replaceSlot_of_type i.replacements ht']
      have htt : t = t' := by
        rw [hsame, ht'] at ht
        cases ht
        rfl
      obtain ⟨asked, hasked, -⟩ := TransGen.head'_iff.1 hasks
      rw [htt, hshape]
      exact Or.inr ⟨hfor, hasks, hb.defaultTarget_of_asks hnone hasked ht'⟩

/-- The term of such a default is an effective default of the shape. -/
theorem Inferred.exists_default (i : Inferred graph table strict schema) {id : Node} {shape : Shape}
    (hs : graph.shape? id = some shape) (hn : shape.isNode = false) {use : TypeUse}
    (hd : i.state.Done id use) {d : DefaultValue} (hc : use.cardinality = .plain (some d)) :
    ∃ term t, graph.EffectiveDefault id term ∧ i.state.slots[i.place use.item]? = some (.type t) ∧
      ReflTransGen graph.StandsInFor id t.shape ∧
      (defaultFor term (defaultTarget (.type t)) strict = .ok d ∨
        defaultFor term .term strict = .ok d ∧ TransGen graph.Asks t.shape id ∧
          (defaultTarget (.type t) = .term ∨ defaultTarget (.type t) = .object)) := by
  obtain ⟨o⟩ := exists_origin_of_resolveAll i.run hd
  have hshape : o.resolution.frame.shape = shape := Option.some.inj (o.shape?_id.symm.trans hs)
  obtain ⟨term, t, hterm, hdefault⟩ := i.exists_default_of_origin o (by rw [Entering.shape, hshape, hn]) hc
  refine ⟨term, t, ?_, hdefault⟩
  rw [← o.id_request]
  exact o.resolution.effectiveDefault o.inScope hterm

/-- **A default is the one for the final type of its items, unless that takes none.** If it takes none, the
default was decided while the type was not known yet: the shape of the type asks for the shape of the
default, which stands in for it. -/
theorem infer_default_iff (h : graph.infer table strict = .ok schema) {id : Node} {shape : Shape}
    (hs : graph.shape? id = some shape) (hn : shape.isNode = false) {d : DefaultValue} {item : Slot}
    (hu : schema.use? id = some ⟨.plain (some d), item⟩) :
    ∃ content term, schema.content? item = some content ∧ graph.EffectiveDefault id term ∧
      (defaultFor term (defaultTarget content) strict = .ok d ↔ defaultTarget content ≠ .object) ∧
      (defaultTarget content = .object → defaultFor term .term strict = .ok d ∧
        ReflTransGen graph.StandsInFor id content.shape ∧ TransGen graph.Asks content.shape id) := by
  obtain ⟨i⟩ := exists_inferred h
  have hid : id ∈ graph.ids := ShapesGraph.mem_ids.2 ⟨shape, hs⟩
  obtain ⟨use, hd⟩ := i.final.complete id hid
  rw [i.use?_eq hid hd, Option.some.injEq, TypeUse.mk.injEq] at hu
  obtain ⟨hc, rfl⟩ := hu
  obtain ⟨term, t, heffective, ht, hstands, hdefault⟩ := i.exists_default hs hn hd hc
  obtain ⟨content, hcontent, hshape, htarget⟩ := i.exists_content (i.mem_keep_of_done hid hd) ht
  refine ⟨content, term, hcontent, heffective, ?_, ?_⟩
  · rw [htarget]
    constructor
    · intro hfor hobject
      rw [hobject] at hfor
      cases hfor
    · intro hobject
      rcases hdefault with hfor | ⟨hfor, -, hterm | hobject'⟩
      · exact hfor
      · rw [hterm]
        exact hfor
      · exact absurd hobject' hobject
  · rw [htarget, hshape]
    intro hobject
    rcases hdefault with hfor | ⟨hfor, hasks, -⟩
    · rw [hobject] at hfor
      cases hfor
    · exact ⟨hfor, hstands, hasks⟩

/-! ## A default that stands on a union -/

/-- An agent is a person or a company. A person has an employer, which is an agent and has a default. -/
def ShapesGraph.agents : ShapesGraph where
  shapes := .ofList [
    { id := .blank "Agent"
      constraints := { alternatives := some [.blank "Person", .blank "Company"] }
      form := .node [] },
    { id := .blank "Person", form := .node [.blank "employer"] },
    { id := .blank "Company", form := .node [] },
    { id := .blank "employer", constraints := { nodes := [.blank "Agent"] }
      form := .property {
        path := .predicate ⟨"e:worksFor"⟩
        defaultValue := some (.node (.iri ⟨"e:nobody"⟩)) } }]

/-- The use of a shape has a default, but its items are a union of objects. -/
def Schema.hasDefaultOnUnion (s : Schema) (id : Node) : Bool :=
  match s.use? id with
  | some ⟨.plain (some _), item⟩ =>
    (s.content? item).any fun c => c.kind = "ObjectUnion" && defaultTarget c = .object
  | _ => false

theorem Schema.exists_of_hasDefaultOnUnion {id : Node} (h : schema.hasDefaultOnUnion id = true) :
    ∃ d item content, schema.use? id = some ⟨.plain (some d), item⟩ ∧
      schema.content? item = some content ∧ content.kind = "ObjectUnion" ∧
      defaultTarget content = .object := by
  unfold hasDefaultOnUnion at h
  split at h
  · rename_i d item hu
    obtain ⟨content, hcontent, h⟩ := (Option.any_eq_true _ _).1 h
    simp only [Bool.and_eq_true, decide_eq_true_eq] at h
    exact ⟨d, item, content, hu, hcontent, h.1, h.2⟩
  · cases h

theorem ShapesGraph.exists_schema_agents :
    ∃ schema, agents.infer default false = .ok schema ∧
      schema.hasDefaultOnUnion (.blank "employer") = true := by
  have h : (match agents.infer default false with
      | .ok schema => schema.hasDefaultOnUnion (.blank "employer")
      | .error _ => false) = true := by decide +kernel
  split at h
  · rename_i schema hs
    exact ⟨schema, hs, h⟩
  · cases h

/-- The employer has a default, although an agent is a union of objects, which takes none. -/
theorem employer_default_on_union : ∃ schema d item content,
    ShapesGraph.agents.infer default false = .ok schema ∧
      schema.use? (.blank "employer") = some ⟨.plain (some d), item⟩ ∧
      schema.content? item = some content ∧ content.kind = "ObjectUnion" ∧
      ∀ term, defaultFor term (defaultTarget content) false ≠ .ok d := by
  obtain ⟨schema, hs, h⟩ := ShapesGraph.exists_schema_agents
  obtain ⟨d, item, content, hu, hcontent, hkind, htarget⟩ := Schema.exists_of_hasDefaultOnUnion h
  refine ⟨schema, d, item, content, hs, hu, hcontent, hkind, fun term hfor => ?_⟩
  rw [htarget] at hfor
  cases hfor

theorem employer_default_iff : ∃ schema d item content term,
    ShapesGraph.agents.infer default false = .ok schema ∧
      schema.use? (.blank "employer") = some ⟨.plain (some d), item⟩ ∧
      schema.content? item = some content ∧
      ShapesGraph.agents.EffectiveDefault (.blank "employer") term ∧
      (defaultFor term (defaultTarget content) false = .ok d ↔ defaultTarget content ≠ .object) ∧
      (defaultTarget content = .object → defaultFor term .term false = .ok d ∧
        ReflTransGen ShapesGraph.agents.StandsInFor (.blank "employer") content.shape ∧
        TransGen ShapesGraph.agents.Asks content.shape (.blank "employer")) := by
  obtain ⟨schema, hs, h⟩ := ShapesGraph.exists_schema_agents
  obtain ⟨d, item, _, hu, -⟩ := Schema.exists_of_hasDefaultOnUnion h
  obtain ⟨shape, hshape, hn⟩ : ∃ shape, ShapesGraph.agents.shape? (.blank "employer") = some shape ∧
      shape.isNode = false := ⟨_, rfl, rfl⟩
  obtain ⟨content, term, hdefault⟩ := infer_default_iff hs hshape hn hu
  exact ⟨schema, d, item, content, term, hs, hu, hdefault⟩

end ShapeTypes
