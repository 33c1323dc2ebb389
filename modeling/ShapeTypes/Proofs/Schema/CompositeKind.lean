import ShapeTypes.Proofs.Inference.CompositeKind
import ShapeTypes.Proofs.Schema.Acyclic
import ShapeTypes.Proofs.Schema.ObjectTyping

/-!
# Which composites are composites of objects

Whether a composite is one of objects is decided when its shape is left, with what is known of its members
then.

* `infer_generic_member` — **a composite that is not one of objects has a member that does not act as an
  object**, or a member whose shape asks for the composite;
* `team_generic` — a union that is not one of objects, although its members are objects and unions of them.
-/

namespace ShapeTypes

open Rdf Relation

variable {graph : ShapesGraph} {table : PrefixTable} {strict : Bool} {schema : Schema}

/-- **A composite that is not one of objects has a member that does not act as an object.** Otherwise it has
one that was still being resolved: a shape that declares no object itself, and stands in for one that asks
for the composite. -/
theorem infer_generic_member (h : graph.infer table strict = .ok schema) {slot : Slot} {t : ItemType}
    (ht : schema.content? slot = some (.type t)) {connective : Connective} {members : List Slot}
    (hc : t.body = .composite connective false members) : ∃ member ∈ members, ∃ content,
      schema.content? member = some content ∧ (content.actsAsObject = false ∨
        ∃ id, graph.Composes t.shape id ∧ ¬ graph.DeclaresObject id ∧
          ReflTransGen graph.StandsInFor id content.shape ∧ TransGen graph.Asks content.shape t.shape) := by
  obtain ⟨i⟩ := exists_inferred h
  obtain ⟨x, hx, t₀, ht₀, hfinished⟩ := i.exists_source ht
  obtain ⟨members₀, hc₀, rfl⟩ := i.exists_composite_of_finished hfinished hc
  obtain ⟨y, hy, d, hd, hmember⟩ := i.final.exists_generic_member i.replacements i.not_refers_cycle
    (fun _ _ => exists_origin_of_resolveAll i.run) ht₀ hc₀
  have hchild : y ∈ (Content.type t₀).children := by
    simp [Content.children, Content.edges, Content.type?, hc₀, Body.edges, hy]
  have hshape : t.shape = t₀.shape := (congrArg Content.shape hfinished).trans (i.shape_finished _)
  refine ⟨i.located y, List.mem_map_of_mem hy, _, i.content?_child hx ht₀ hchild hd, ?_⟩
  rw [hshape, i.shape_finished, i.actsAsObject_finished]
  exact hmember

/-! ## A union of objects that is not found to be one -/

/-- An agent is a person or a company. A person employs teams, and a team is an agent or a company. -/
def ShapesGraph.teams : ShapesGraph where
  shapes := .ofList [
    { id := .blank "Agent"
      constraints := { alternatives := some [.blank "Person", .blank "Company"] }
      form := .node [] },
    { id := .blank "Person", form := .node [.blank "employs"] },
    { id := .blank "Company", form := .node [] },
    { id := .blank "employs", constraints := { nodes := [.blank "Team"] }
      form := .property { path := .predicate ⟨"e:employs"⟩ } },
    { id := .blank "Team"
      constraints := { alternatives := some [.blank "Agent", .blank "Company"] }
      form := .node [] }]

/-- The slot holds a union that is not one of objects, although its members act as objects. -/
def Schema.isGenericOfObjects (s : Schema) (slot : Slot) : Bool :=
  match s.content? slot with
  | some (.type { body := .composite .one false members, .. }) =>
    members.all fun member => (s.content? member).any (·.actsAsObject)
  | _ => false

theorem Schema.exists_of_isGenericOfObjects {slot : Slot} (h : schema.isGenericOfObjects slot = true) :
    ∃ t members, schema.content? slot = some (.type t) ∧ t.body = .composite .one false members ∧
      ∀ member ∈ members, schema.ActsAsObject member := by
  unfold isGenericOfObjects at h
  split at h
  · rename_i members hcontent
    refine ⟨_, members, hcontent, rfl, fun member hmember => ?_⟩
    exact (Option.any_eq_true _ _).1 (List.all_eq_true.1 h member hmember)
  · cases h

theorem ShapesGraph.exists_schema_teams : ∃ schema use, teams.infer default false = .ok schema ∧
    schema.use? (.blank "Team") = some use ∧ schema.isGenericOfObjects use.item = true := by
  have h : (match teams.infer default false with
      | .ok schema => (schema.use? (.blank "Team")).any fun use => schema.isGenericOfObjects use.item
      | .error _ => false) = true := by decide +kernel
  split at h
  · rename_i schema hs
    obtain ⟨use, hu, h⟩ := (Option.any_eq_true _ _).1 h
    exact ⟨schema, use, hs, hu, h⟩
  · cases h

/-- A team is an agent or a company: a union of objects, or an object. It is not found to be a union of
objects. -/
theorem team_generic : ∃ schema use t members, ShapesGraph.teams.infer default false = .ok schema ∧
    schema.use? (.blank "Team") = some use ∧ schema.content? use.item = some (.type t) ∧
    t.body = .composite .one false members ∧ ∀ member ∈ members, schema.ActsAsObject member := by
  obtain ⟨schema, use, hs, hu, h⟩ := ShapesGraph.exists_schema_teams
  obtain ⟨t, members, hcomposite⟩ := Schema.exists_of_isGenericOfObjects h
  exact ⟨schema, use, t, members, hs, hu, hcomposite⟩

theorem team_member : ∃ (schema : Schema) (t : ItemType) (members : List Slot) (content : Content),
    ShapesGraph.teams.infer default false = .ok schema ∧ t.body = .composite .one false members ∧
      (∃ member ∈ members, schema.content? member = some content) ∧ (content.actsAsObject = false ∨
        ∃ id, ShapesGraph.teams.Composes t.shape id ∧ ¬ ShapesGraph.teams.DeclaresObject id ∧
          ReflTransGen ShapesGraph.teams.StandsInFor id content.shape ∧
          TransGen ShapesGraph.teams.Asks content.shape t.shape) := by
  obtain ⟨schema, use, hs, -, h⟩ := ShapesGraph.exists_schema_teams
  obtain ⟨t, members, ht, hc, -⟩ := Schema.exists_of_isGenericOfObjects h
  obtain ⟨member, hmember, content, hcontent, hcases⟩ := infer_generic_member hs ht hc
  exact ⟨schema, t, members, content, hs, hc, ⟨member, hmember, hcontent⟩, hcases⟩

end ShapeTypes
