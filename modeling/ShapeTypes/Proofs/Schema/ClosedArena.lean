import ShapeTypes.Proofs.Schema.Inferred

/-!
# Schemas are closed

* `Schema.handles` — every slot that a schema mentions;
* `Schema.IsClosed` — each shape has one entry, every handle leads to a slot, every slot holds a type, and
  every slot can be reached;
* `infer_isClosed` — **every inferred schema is closed**.
-/

namespace ShapeTypes

open Rdf Relation

variable {graph : ShapesGraph} {table : PrefixTable} {strict : Bool} {schema : Schema}

/-- The slots that a schema mentions: as the types of shapes, as parents, as the types of properties, as
members and as items. -/
def Schema.handles (s : Schema) : List Slot := s.roots ++ s.slots.flatMap Content.children

/-- One entry for each shape in input order; no handle dangles, no slot is still kept for a type, and every
slot is reached from the type of a shape. -/
structure Schema.IsClosed (s : Schema) (graph : ShapesGraph) : Prop where
  shapes : s.shapes = graph.ids
  nodup : s.shapes.Nodup
  handles : ∀ slot ∈ s.handles, slot < s.slots.length
  finished : ∀ c ∈ s.slots, c.isPlaceholder = false
  reached : ∀ slot < s.slots.length, ∃ root ∈ s.roots, ReflTransGen (Arena.Links s.slots) root slot

namespace Inferred

variable (i : Inferred graph table strict schema)

/-- The types of the shapes are the places of the slots that the search began with. -/
theorem roots_eq : schema.roots =
    (i.state.finalUses i.replaced graph.ids).map fun u => Arena.renumber i.keep u.2.item := by
  simp only [Schema.roots, i.entries_eq, entriesOf, List.map_map]
  rfl

theorem root_mem_keep {x : Slot} (h : x ∈ (i.state.finalUses i.replaced graph.ids).map (·.2.item)) :
    x ∈ i.keep :=
  Arena.root_mem_reachable (fun _ => i.lt_of_root) h

include i

theorem lt_of_handle {slot : Slot} (h : slot ∈ schema.handles) : slot < schema.slots.length := by
  rcases List.mem_append.1 h with h | h
  · rw [i.roots_eq, List.mem_map] at h
    obtain ⟨u, hu, rfl⟩ := h
    rw [i.slots_eq, Arena.length_compact i.closed.lt]
    exact Arena.renumber_lt (i.root_mem_keep (List.mem_map.2 ⟨u, hu, rfl⟩))
  · obtain ⟨c, hc, hslot⟩ := List.mem_flatMap.1 h
    obtain ⟨j, hj, rfl⟩ := List.getElem_of_mem hc
    obtain ⟨x, hx, rfl⟩ := i.exists_mem_keep hj
    have hlink : Arena.Links schema.slots (Arena.renumber i.keep x) slot :=
      ⟨_, List.getElem?_eq_getElem hj, hslot⟩
    rw [i.slots_eq] at hlink
    obtain ⟨y, hy, -, rfl⟩ := Arena.exists_link_compact i.closed hx hlink
    rw [i.slots_eq, Arena.length_compact i.closed.lt]
    exact Arena.renumber_lt hy

theorem isPlaceholder_eq_false {c : Content} (h : c ∈ schema.slots) : c.isPlaceholder = false := by
  obtain ⟨j, hj, rfl⟩ := List.getElem_of_mem h
  obtain ⟨x, hx, hxj⟩ := i.exists_mem_keep hj
  have hget := Arena.getElem?_compact i.closed.lt hx
  rw [← i.slots_eq, hxj, List.getElem?_eq_getElem hj] at hget
  obtain ⟨d, hd, heq⟩ := Option.map_eq_some_iff.1 hget.symm
  rw [← heq, Content.isPlaceholder_mapSlots]
  exact i.toSettled.isPlaceholder_eq_false hx hd

theorem exists_root {slot : Slot} (h : slot < schema.slots.length) :
    ∃ root ∈ schema.roots, ReflTransGen (Arena.Links schema.slots) root slot := by
  obtain ⟨x, hx, rfl⟩ := i.exists_mem_keep h
  obtain ⟨r, hr, hrx⟩ := (Arena.mem_reachable fun _ => i.lt_of_root).1 hx
  obtain ⟨u, hu, rfl⟩ := List.mem_map.1 hr
  refine ⟨Arena.renumber i.keep u.2.item, by rw [i.roots_eq]; exact List.mem_map_of_mem hu, ?_⟩
  -- Along a path from a root every slot is kept, so each step is one between their places.
  have hpath : ∀ y, ReflTransGen (fun x z => z ∈ i.arena.successors x) u.2.item y → y ∈ i.keep ∧
      ReflTransGen (Arena.Links schema.slots) (Arena.renumber i.keep u.2.item)
        (Arena.renumber i.keep y) := by
    intro y hy
    induction hy with
    | refl => exact ⟨i.root_mem_keep hr, .refl⟩
    | tail _ hstep ih =>
        have hlink := (Arena.mem_successors.1 hstep).1
        refine ⟨i.closed.links _ ih.1 _ hlink, ih.2.tail ?_⟩
        rw [i.slots_eq]
        exact Arena.links_compact i.closed ih.1 hlink
  exact (hpath x hrx).2

end Inferred

/-- **Every inferred schema is closed.** -/
theorem infer_isClosed (h : graph.infer table strict = .ok schema) : schema.IsClosed graph := by
  obtain ⟨i⟩ := exists_inferred h
  exact {
    shapes := i.shapes_eq
    nodup := i.shapes_eq ▸ graph.nodup_ids
    handles := fun _ => i.lt_of_handle
    finished := fun _ => i.isPlaceholder_eq_false
    reached := fun _ => i.exists_root }

theorem people_isClosed : ∃ schema, ShapesGraph.people.infer default true = .ok schema ∧
    schema.IsClosed ShapesGraph.people := by
  obtain ⟨schema, h⟩ := ShapesGraph.exists_schema_people
  exact ⟨schema, h, infer_isClosed h⟩

end ShapeTypes
