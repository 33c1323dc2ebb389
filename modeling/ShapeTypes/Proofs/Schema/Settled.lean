import ShapeTypes.Proofs.Arena.Compact
import ShapeTypes.Proofs.Arena.StructuralCycle
import ShapeTypes.Proofs.Inference.Final
import ShapeTypes.Proofs.Inference.Leaving

/-!
# The slots once aliases are replaced

* `InferenceState.arena`, `InferenceState.finalUses` — the slots and uses with every alias replaced;
* `Settled` — all shapes were resolved and every alias was replaced;
* `Settled.step_of_edge`, `Settled.exists_of_step` — **the structural steps between the finished slots** are
  the references that inference left, replaced;
* `Settled.closed`, `Settled.isPlaceholder_eq_false` — **what can be reached from the types of the shapes holds types, and
  refers to nothing else.**
-/

namespace ShapeTypes

open Rdf Relation

variable {graph : ShapesGraph} {table : PrefixTable} {strict : Bool}

namespace InferenceState

/-- The slots with final cardinalities and every alias replaced. -/
def arena (s : InferenceState) (r : List (Slot × Slot)) : Arena :=
  s.settleEarlyUses.slots.map (·.mapSlots (replaceSlot r))

/-- The uses of shapes with every alias replaced. -/
def finalUses (s : InferenceState) (r : List (Slot × Slot)) (ids : List Node) : List (Node × TypeUse) :=
  ids.filterMap fun id => (s.use? id).map fun use => (id, use.mapSlot (replaceSlot r))

variable {s : InferenceState} {r : List (Slot × Slot)}

theorem replaceAliases_eq_ok {ids : List Node} {slots : Arena} {uses : List (Node × TypeUse)}
    (h : s.settleEarlyUses.replaceAliases ids = .ok (slots, uses)) :
    ∃ r, Alias.replacements s.aliases = .ok r ∧ slots = s.arena r ∧ uses = s.finalUses r ids := by
  unfold replaceAliases at h
  split at h
  · cases h
  · rename_i r hr
    cases h
    exact ⟨r, hr, rfl, rfl⟩

/-! ## The finished slots -/

theorem length_arena : (s.arena r).length = s.slots.length := by
  simp [arena, settleEarlyUses]

theorem getElem?_arena {x : Slot} :
    (s.arena r)[x]? = (s.slots[x]?).map fun c => (s.settleContent c).mapSlots (replaceSlot r) := by
  simp [arena, settleEarlyUses, Function.comp_def]

theorem edges_settleContent {c : Content} : (s.settleContent c).edges = c.edges := by
  rcases c with id | ⟨shape, name, doc, body⟩
  · rfl
  · cases body with
    | object o =>
        have hitem : ∀ p : Property, (s.settleProperty p).use.item = p.use.item := by
          intro p
          unfold settleProperty
          split
          · split <;> rfl
          · rfl
        simp [settleContent, Content.edges, Content.type?, Body.edges, hitem]
    | composite => rfl
    | identifier => rfl
    | literal => rfl
    | term => rfl
    | enumeration => rfl
    | list => rfl

theorem shape_settleContent {c : Content} : (s.settleContent c).shape = c.shape := by
  unfold settleContent
  split
  · split <;> rfl
  · rfl

theorem isPlaceholder_settleContent {c : Content} : (s.settleContent c).isPlaceholder = c.isPlaceholder := by
  unfold settleContent
  split
  · split <;> rfl
  · rfl

end InferenceState

theorem Content.edges_mapSlots (f : Slot → Slot) (c : Content) :
    (c.mapSlots f).edges = c.edges.map fun (kind, y) => (kind, f y) := by
  rcases c with id | ⟨shape, name, doc, body⟩
  · rfl
  · cases body with
    | object o =>
        cases hp : o.parent <;>
          simp [Content.edges, Content.mapSlots, Content.type?, Body.mapSlots, Body.edges, hp,
            Property.mapSlot, TypeUse.mapSlot, Function.comp_def]
    | composite =>
        simp [Content.edges, Content.mapSlots, Content.type?, Body.mapSlots, Body.edges,
          Function.comp_def]
    | list => rfl
    | identifier => rfl
    | literal => rfl
    | term => rfl
    | enumeration => rfl

theorem Content.shape_mapSlots (f : Slot → Slot) (c : Content) : (c.mapSlots f).shape = c.shape := by
  cases c <;> rfl

theorem Content.isPlaceholder_mapSlots (f : Slot → Slot) (c : Content) :
    (c.mapSlots f).isPlaceholder = c.isPlaceholder := by
  cases c <;> rfl

/-- The references of a finished slot are those that inference left there, replaced. -/
theorem InferenceState.exists_of_edge_arena {s : InferenceState} {r : List (Slot × Slot)} {x y : Slot}
    {d : Content} {kind : EdgeKind} (hd : (s.arena r)[x]? = some d) (he : (kind, y) ∈ d.edges) :
    ∃ c z, s.slots[x]? = some c ∧ d.shape = c.shape ∧ (kind, z) ∈ c.edges ∧ y = replaceSlot r z := by
  rw [getElem?_arena, Option.map_eq_some_iff] at hd
  obtain ⟨c, hc, rfl⟩ := hd
  rw [Content.edges_mapSlots, edges_settleContent, List.mem_map] at he
  obtain ⟨⟨kind', z⟩, hz, heq⟩ := he
  cases heq
  exact ⟨c, z, hc, by rw [Content.shape_mapSlots, shape_settleContent], hz, rfl⟩

/-! ## Settled runs -/

/-- All shapes were resolved, and every alias was replaced. -/
structure Settled (graph : ShapesGraph) (table : PrefixTable) (strict : Bool) where
  state : InferenceState
  replaced : List (Slot × Slot)
  run : (resolveAll graph strict).Gives { names := .ofTable table } () state
  replacements : Alias.replacements state.aliases = .ok replaced

namespace Settled

variable (i : Settled graph table strict)

/-- The finished slots, those that cannot be reached among them. -/
abbrev arena : Arena := i.state.arena i.replaced

/-- A slot with aliases followed to their end. -/
abbrev place (x : Slot) : Slot := replaceSlot i.replaced x

/-- The slots that the shapes have their types in. -/
abbrev roots : List Slot := (i.state.finalUses i.replaced graph.ids).map (·.2.item)

/-- The slots to be kept. -/
abbrev keep : List Slot := i.arena.reachable i.roots

theorem final : Final graph i.state := final_of_resolveAll i.run

theorem exists_origin {id : Node} {shape : Shape} (hs : graph.shape? id = some shape) :
    ∃ use, ∃ o : Origin graph strict id use i.state, o.resolution.shape = shape := by
  obtain ⟨use, hd⟩ := i.final.complete id (ShapesGraph.mem_ids.2 ⟨shape, hs⟩)
  obtain ⟨o⟩ := exists_origin_of_resolveAll i.run hd
  exact ⟨use, o, Option.some.inj (o.shape?_id.symm.trans hs)⟩

theorem use?_state {id : Node} {use : TypeUse} : i.state.use? id = some use ↔ i.state.Done id use := by
  unfold InferenceState.use? InferenceState.Done
  split
  · rename_i u hu
    simp [hu]
  · rename_i hn
    constructor
    · intro h
      cases h
    · exact fun h => absurd h (hn use)

theorem mem_finalUses {id : Node} (hid : id ∈ graph.ids) {use : TypeUse} (hd : i.state.Done id use) :
    (id, use.mapSlot i.place) ∈ i.state.finalUses i.replaced graph.ids :=
  List.mem_filterMap.2 ⟨id, hid, by rw [i.use?_state.2 hd]; rfl⟩

/-! ### What can be reached -/

theorem lt_of_type {x : Slot} {t : ItemType} (h : i.state.slots[x]? = some (.type t)) :
    x < i.arena.length := by
  rw [InferenceState.length_arena]
  exact (List.getElem?_eq_some_iff.1 h).1

theorem place_of_type {x : Slot} {t : ItemType} (h : i.state.slots[x]? = some (.type t)) : i.place x = x :=
  i.final.replaceSlot_of_type i.replacements h

theorem exists_type_of_root {x : Slot} (h : x ∈ i.roots) : ∃ t, i.state.slots[x]? = some (.type t) := by
  obtain ⟨⟨id, use⟩, hmem, rfl⟩ := List.mem_map.1 h
  obtain ⟨id', -, hu⟩ := List.mem_filterMap.1 hmem
  obtain ⟨use', huse, heq⟩ := Option.map_eq_some_iff.1 hu
  cases heq
  have hlt := i.final.lawful.item_lt _ _ (i.use?_state.1 huse)
  exact i.final.exists_type_replaceSlot i.replacements hlt

theorem exists_type_of_link {x y : Slot} (h : i.arena.Links x y) :
    ∃ t, i.state.slots[y]? = some (.type t) := by
  obtain ⟨d, hd, hy⟩ := h
  obtain ⟨⟨kind, _⟩, he, rfl⟩ := List.mem_map.1 hy
  obtain ⟨c, z, hc, -, hz, rfl⟩ := InferenceState.exists_of_edge_arena hd he
  exact i.final.exists_type_replaceSlot i.replacements (i.final.lt_of_edge hc hz)

theorem lt_of_root {x : Slot} (h : x ∈ i.roots) : x < i.arena.length := by
  obtain ⟨t, ht⟩ := i.exists_type_of_root h
  exact i.lt_of_type ht

theorem lt_of_link {x y : Slot} (h : i.arena.Links x y) : y < i.arena.length := by
  obtain ⟨t, ht⟩ := i.exists_type_of_link h
  exact i.lt_of_type ht

theorem closed : i.arena.Closed i.keep :=
  Arena.closed_reachable (fun _ => i.lt_of_root) fun _ _ _ => i.lt_of_link

theorem exists_type_of_mem_keep {x : Slot} (h : x ∈ i.keep) :
    ∃ t, i.state.slots[x]? = some (.type t) := by
  obtain ⟨root, hroot, hpath⟩ := (Arena.mem_reachable fun _ => i.lt_of_root).1 h
  rcases ReflTransGen.cases_tail hpath with rfl | ⟨y, -, hstep⟩
  · exact i.exists_type_of_root hroot
  · exact i.exists_type_of_link (Arena.mem_successors.1 hstep).1

/-- **No slot that can be reached is still kept for a type.** -/
theorem isPlaceholder_eq_false {x : Slot} (hx : x ∈ i.keep) {c : Content} (hc : i.arena[x]? = some c) :
    c.isPlaceholder = false := by
  obtain ⟨t, ht⟩ := i.exists_type_of_mem_keep hx
  rw [InferenceState.getElem?_arena, ht, Option.map_some] at hc
  cases hc
  rw [Content.isPlaceholder_mapSlots, InferenceState.isPlaceholder_settleContent]
  rfl

theorem placeholdersAt_eq_nil : placeholdersAt i.arena i.keep = [] := by
  refine List.filterMap_eq_nil_iff.2 fun x hx => ?_
  split
  · rename_i hc
    have hplaceholder := i.isPlaceholder_eq_false hx hc
    cases hplaceholder
  · rfl

/-! ### Structural steps -/

/-- A reference of a type that is no property is a structural step. -/
theorem step_of_edge {x y : Slot} {t : ItemType} {kind : EdgeKind}
    (hx : i.state.slots[x]? = some (.type t)) (he : (kind, y) ∈ t.body.edges) (hk : kind ≠ .property) :
    i.arena.Step x (i.place y) := by
  have hcontains : i.arena.Contains x (i.place y) := by
    refine ⟨_, kind, by rw [InferenceState.getElem?_arena, hx]; rfl, ?_, hk⟩
    rw [Content.edges_mapSlots, InferenceState.edges_settleContent]
    exact List.mem_map_of_mem he
  obtain ⟨d, _, hd, hy, -⟩ := id hcontains
  exact Arena.mem_structuralSuccessors.2 ⟨hcontains, i.lt_of_link ⟨d, hd, List.mem_map_of_mem hy⟩⟩

/-- A structural step follows a reference that is no property. -/
theorem exists_of_step {x y : Slot} (h : i.arena.Step x y) : ∃ c z kind, i.state.slots[x]? = some c ∧
    (kind, z) ∈ c.edges ∧ kind ≠ .property ∧ y = i.place z := by
  obtain ⟨⟨d, kind, hd, he, hk⟩, -⟩ := Arena.mem_structuralSuccessors.1 h
  obtain ⟨c, z, hc, -, hz, hy⟩ := InferenceState.exists_of_edge_arena hd he
  exact ⟨c, z, kind, hc, hz, hk, hy⟩

end Settled

end ShapeTypes
