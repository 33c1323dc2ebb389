import Mathlib
import ShapeTypes.Proofs.Schema.Settled

/-!
# How a schema is inferred

* `Inferred` — a settled run whose slots passed the checks; `exists_inferred` — **every schema was inferred
  so**;
* `Inferred.use?_eq` — the use of a shape is the one it was resolved to, replaced and renumbered;
* `Inferred.content?_eq` — so is what a slot holds.
-/

namespace ShapeTypes

open Rdf

variable {graph : ShapesGraph} {table : PrefixTable} {strict : Bool}

/-- The schema of a settled run: the slots that can be reached, and the uses of the shapes. -/
def Settled.schema (i : Settled graph table strict) : Schema where
  slots := i.arena.compact i.keep
  entries := entriesOf i.state.names (i.state.finalUses i.replaced graph.ids) i.keep
  record := i.state.names.record

/-- How a schema was inferred: by a settled run whose slots passed the checks. -/
structure Inferred (graph : ShapesGraph) (table : PrefixTable) (strict : Bool) (schema : Schema)
    extends Settled graph table strict where
  lazy : checkLazy graph toSettled.arena (state.finalUses replaced graph.ids) = .ok ()
  acyclic : toSettled.arena.structuralCycle? = none
  schema_eq : schema = toSettled.schema

theorem slotsToKeep_eq_ok {a : Arena} {roots keep : List Slot} (h : slotsToKeep a roots = .ok keep) :
    keep = a.reachable roots ∧ a.structuralCycle? = none := by
  unfold slotsToKeep at h
  simp only at h
  split at h
  · cases h
  · split at h
    · cases h
    · rename_i hc
      cases h
      exact ⟨rfl, hc⟩

/-- **Every schema was inferred so.** -/
theorem exists_inferred {schema : Schema} (h : graph.infer table strict = .ok schema) :
    Nonempty (Inferred graph table strict schema) := by
  unfold ShapesGraph.infer at h
  obtain ⟨⟨_, s⟩, hrun, h⟩ := bind_eq_ok.1 h
  obtain ⟨⟨slots, uses⟩, halias, h⟩ := bind_eq_ok.1 h
  obtain ⟨_, hlazy, h⟩ := bind_eq_ok.1 h
  obtain ⟨keep, hkeep, hret⟩ := bind_eq_ok.1 h
  obtain ⟨r, hr, rfl, rfl⟩ := InferenceState.replaceAliases_eq_ok halias
  obtain ⟨rfl, hc⟩ := slotsToKeep_eq_ok hkeep
  cases hret
  exact ⟨⟨⟨s, r, hrun, hr⟩, hlazy, hc, rfl⟩⟩

namespace Inferred

variable {schema : Schema} (i : Inferred graph table strict schema)

theorem slots_eq : schema.slots = i.arena.compact i.keep := congrArg Schema.slots i.schema_eq

theorem entries_eq : schema.entries =
    entriesOf i.state.names (i.state.finalUses i.replaced graph.ids) i.keep :=
  congrArg Schema.entries i.schema_eq

include i in
theorem shapes_eq : schema.shapes = graph.ids := by
  have hsome : ∀ id ∈ graph.ids, (i.state.use? id).map (fun _ => id) = some id := by
    intro id hid
    obtain ⟨use, hd⟩ := i.final.complete id hid
    rw [i.use?_state.2 hd]
    rfl
  simp only [Schema.shapes, i.entries_eq, entriesOf, InferenceState.finalUses, List.map_filterMap,
    Option.map_map, Function.comp_def]
  rw [List.filterMap_congr hsome, List.filterMap_some]

/-- **The use of a shape is the one it was resolved to, replaced and renumbered.** -/
theorem use?_eq {id : Node} (hid : id ∈ graph.ids) {use : TypeUse} (hd : i.state.Done id use) :
    schema.use? id = some ⟨use.cardinality, Arena.renumber i.keep (i.place use.item)⟩ := by
  have hmem : (id, use.mapSlot i.place) ∈ i.state.finalUses i.replaced graph.ids := i.mem_finalUses hid hd
  have hentry : (⟨id, (i.state.names.shapes.lookup id).getD default,
      (use.mapSlot i.place).mapSlot (Arena.renumber i.keep)⟩ : Entry) ∈ schema.entries := by
    rw [i.entries_eq]
    exact List.mem_map.2 ⟨_, hmem, rfl⟩
  have hnodup : (schema.entries.map (·.shape)).Nodup := (congrArg List.Nodup i.shapes_eq).mpr graph.nodup_ids
  unfold Schema.use? Schema.entry?
  rw [find?_key_of_mem hnodup hentry]
  rfl

/-- Every slot of the schema is the place of one that is kept. -/
theorem exists_mem_keep {slot : Slot} (h : slot < schema.slots.length) :
    ∃ x ∈ i.keep, Arena.renumber i.keep x = slot := by
  rw [i.slots_eq] at h
  exact Arena.exists_mem_keep i.closed.nodup i.closed.lt h

theorem mem_keep_of_done {id : Node} (hid : id ∈ graph.ids) {use : TypeUse} (hd : i.state.Done id use) :
    i.place use.item ∈ i.keep :=
  Arena.root_mem_reachable (fun _ => i.lt_of_root) (List.mem_map_of_mem (i.mem_finalUses hid hd))

theorem content?_eq {x : Slot} (hx : x ∈ i.keep) : schema.content? (Arena.renumber i.keep x) =
    (i.state.slots[x]?).map fun c =>
      ((i.state.settleContent c).mapSlots i.place).mapSlots (Arena.renumber i.keep) := by
  unfold Schema.content?
  rw [i.slots_eq, Arena.getElem?_compact i.closed.lt hx, InferenceState.getElem?_arena, Option.map_map]
  rfl

end Inferred

/-! ## A graph with a schema -/

/-- Persons know at most one person, and have a list of persons who are their friends. -/
def ShapesGraph.people : ShapesGraph where
  shapes := .ofList [
    { id := .blank "Person", form := .node [.blank "knows", .blank "friends"] },
    { id := .blank "knows", constraints := { nodes := [.blank "Person"], maxCount := some 1 }
      form := .property { path := .predicate ⟨"http://example.org/knows"⟩ } },
    { id := .blank "friends", constraints := { nodes := [.blank "Person"] }
      form := .property { path := .predicate ⟨"http://example.org/friends"⟩, list := true } }]

theorem ShapesGraph.exists_schema_people : ∃ schema, people.infer default true = .ok schema :=
  exists_of_isSome_toOption (by decide +kernel)

end ShapeTypes
