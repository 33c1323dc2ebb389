import ShapeTypes.Proofs.Inference.AliasChain
import ShapeTypes.Proofs.Inference.History

/-!
# The state in which all shapes are resolved

* `Final` — the invariant holds, and no shape is left halfway; `final_of_resolveAll` — a successful run ends
  so;
* `LaidOut`, `Built.laidOut` — where the type of a shape is that stands in for none;
* `Final.exists_built_of_type` — **which shape a type belongs to**;
* `Final.exists_edge` — **every reference of a slot stands for a shape that its own shape refers to, or for
  the items of a list**;
* `Final.exists_type_replaceSlot` — **a slot is replaced by one that holds a type**;
* `Final.replaceSlot_of_denotes` — all slots that stand for a shape are replaced by the same one.
-/

namespace ShapeTypes

open Rdf

variable {graph : ShapesGraph} {strict : Bool}

/-- What the edges of a type stand for, if it agrees with what its shape declares. -/
theorem Fits.exists_edge {s : InferenceState} {shape : Shape} {body : Body} {kind : EdgeKind} {y : Slot}
    (h : Fits graph s shape (.type body)) (he : (kind, y) ∈ body.edges) :
    kind ≠ .item ∧ ∃ id, s.Denotes y id ∧ (kind ≠ .property → id ∈ shape.constraints.references) := by
  cases h with
  | composite hc _ _ _ hm =>
      simp only [Body.edges, List.mem_map, Prod.mk.injEq] at he
      obtain ⟨slot, hslot, rfl, rfl⟩ := he
      obtain ⟨id, hid, hd⟩ := exists_of_mem_forall₂ hm hslot
      exact ⟨by simp, id, hd, fun _ => Constraints.mem_references_of_composition? hc hid⟩
  | object ho hp hps =>
      simp only [Body.edges, List.mem_append, Option.mem_toList, Option.map_eq_some_iff, List.mem_map,
        Prod.mk.injEq] at he
      rcases he with ⟨slot, hslot, rfl, rfl⟩ | ⟨p, hmem, rfl, rfl⟩
      · rcases hp with ⟨-, hnone⟩ | ⟨ancestor, slot', hn, hsome, hd⟩
        · rw [hnone] at hslot
          cases hslot
        · rw [hsome] at hslot
          cases hslot
          exact ⟨by simp, ancestor, hd, fun _ => by simp [Constraints.references, hn]⟩
      · obtain ⟨id, -, hfit⟩ := exists_of_mem_forall₂ (List.Forall₂.flip (R := flip _) hps) hmem
        exact ⟨by simp, id, hfit.2.denotes, fun hne => absurd rfl hne⟩
  | value _ _ _ hb =>
      rw [Body.edges_of_isValue hb] at he
      cases he

/-- How the type of a shape is laid out that stands in for none: in the slot of its items; behind a list there;
or as a list of the items of another shape. -/
inductive LaidOut (graph : ShapesGraph) (s : InferenceState) (shape : Shape) (name : Name) (x : Slot) :
    Finding → Prop where
  | item {body : Body} : shape.isList = false → Fits graph s shape (.type body) →
      s.slots[x]? = some (.type (shape.itemType name body)) → LaidOut graph s shape name x (.type body)
  | list {body : Body} {next : Slot} : shape.isList = true → Fits graph s shape (.type body) →
      s.slots[x]? = some (.type (shape.itemType name (.list next))) →
      s.slots[next]? = some (.type (shape.itemType name body)) → LaidOut graph s shape name x (.type body)
  | listOf {target : Node} {y : Slot} : shape.isList = true → shape.isNode = false →
      shape.constraints.nodes = [target] → s.Denotes y target →
      s.slots[x]? = some (.type (shape.itemType name (.list y))) → LaidOut graph s shape name x (.standsFor y)

namespace Built

variable {s : InferenceState} {id : Node} {use : TypeUse} {slot next : Slot} {shape : Shape} {name : Name}
variable {finding : Finding} {kind : EdgeKind} {y : Slot}

theorem id_shape (h : Built graph s id use slot next shape name finding) : shape.id = id :=
  (ShapesGraph.shape?_eq_some h.found).2

theorem exists_edge_inner (h : Built graph s id use slot next shape name finding) {c : Content}
    (hc : c ∈ finding.inner shape name) (he : (kind, y) ∈ c.edges) :
    kind ≠ .item ∧ ∃ id', s.Denotes y id' ∧ (kind ≠ .property → graph.Refers id id') := by
  have hfits := h.fits
  unfold Finding.inner at hc
  split at hc
  · rw [List.mem_singleton.1 hc] at he
    obtain ⟨hkind, id', hd, hr⟩ := hfits.exists_edge he
    exact ⟨hkind, id', hd, fun hk => ⟨shape, h.found, hr hk⟩⟩
  · cases hc

theorem exists_edge_own (h : Built graph s id use slot next shape name finding)
    (he : (kind, y) ∈ (finding.own shape name next).edges) :
    (∃ id', s.Denotes y id' ∧ (kind ≠ .property → graph.Refers id id')) ∨
      kind = .item ∧ y = next ∧ ∃ t, .type t ∈ finding.inner shape name := by
  have hfits := h.fits
  unfold Finding.own at he
  unfold Finding.inner
  split at he
  · obtain ⟨-, id', hd, hr⟩ := hfits.exists_edge he
    exact Or.inl ⟨id', hd, fun hk => ⟨shape, h.found, hr hk⟩⟩
  · rename_i body hl
    cases List.mem_singleton.1 he
    exact Or.inr ⟨rfl, rfl, shape.itemType name body, by simp [hl]⟩
  · cases he
  · cases List.mem_singleton.1 he
    cases hfits with
    | @reference target _ _ _ hn hd =>
        exact Or.inl ⟨target, hd, fun _ => ⟨shape, h.found, by simp [Constraints.references, hn]⟩⟩

/-- The items of a shape are in its own slot, unless that is an alias. -/
theorem exists_alias (h : Built graph s id use slot next shape name finding) (hne : use.item ≠ slot) :
    ∃ a ∈ s.aliases, a.slot = slot ∧ a.target = use.item := by
  have hi := h.item
  have ha := h.aliases
  unfold Finding.item at hi
  unfold Finding.aliases at ha
  split at hi
  · rename_i target hl
    exact ⟨⟨slot, target, shape.id⟩, ha _ (by simp [hl]), rfl, hi.symm⟩
  · exact absurd hi hne

/-- The slot of a shape that stands in for another one stays a place for it. -/
theorem own_of_standIn? (h : Built graph s id use slot next shape name finding)
    (hs : (graph.standIn? id).isSome) : s.slots[slot]? = some (.placeholder id) := by
  obtain ⟨target, ht⟩ := Option.isSome_iff_exists.1 hs
  simp only [ShapesGraph.standIn?, h.found, Option.bind_some] at ht
  obtain ⟨slot', rfl, hl, -⟩ := h.fits.standsFor ht
  have hown := h.own
  simp only [Finding.own, hl, h.id_shape] at hown
  exact hown

/-- The items of a shape that stands in for another one are those of that one. -/
theorem denotes_of_standIn? (h : Built graph s id use slot next shape name finding) {target : Node}
    (ht : graph.standIn? id = some target) : s.Denotes use.item target := by
  simp only [ShapesGraph.standIn?, h.found, Option.bind_some] at ht
  obtain ⟨x, hfinding, hl, hd⟩ := h.fits.standsFor ht
  have hitem : use.item = x := by simp [h.item, hfinding, Finding.item, hl]
  rw [hitem]
  exact hd

theorem not_mem_aliases (h : Built graph s id use slot next shape name finding)
    (hs : graph.standIn? id = none) (a : Alias) : a ∉ finding.aliases shape slot := by
  intro ha
  have hnone : shape.standIn? = none := by simpa [ShapesGraph.standIn?, h.found] using hs
  simpa [hnone] using h.fits.isSome_standIn? ha

theorem item_eq_slot (h : Built graph s id use slot next shape name finding)
    (hs : graph.standIn? id = none) : use.item = slot := by
  rw [h.item]
  unfold Finding.item
  split
  · rename_i target hl
    exact absurd (by simp [Finding.aliases, hl]) (h.not_mem_aliases hs ⟨slot, target, shape.id⟩)
  · rfl

/-- **How the type of such a shape is laid out.** -/
theorem laidOut (h : Built graph s id use slot next shape name finding) (hs : graph.standIn? id = none) :
    LaidOut graph s shape name use.item finding := by
  have hown := h.own
  rw [← h.item_eq_slot hs] at hown
  cases hl : shape.isList with
  | false =>
      cases finding with
      | type body =>
          simp only [Finding.own, hl] at hown
          exact .item hl h.fits hown
      | standsFor y => exact absurd (by simp [Finding.aliases, hl]) (h.not_mem_aliases hs ⟨slot, y, shape.id⟩)
  | true =>
      cases finding with
      | type body =>
          simp only [Finding.own, hl] at hown
          exact .list hl h.fits hown (h.inner _ (by simp [Finding.inner, hl]))
      | standsFor y =>
          simp only [Finding.own, hl] at hown
          cases h.fits with
          | reference _ hn hnodes hd => exact .listOf hl hn hnodes hd hown

theorem exists_type_item (h : Built graph s id use slot next shape name finding)
    (hs : graph.standIn? id = none) : ∃ t, s.slots[use.item]? = some (.type t) ∧ t.shape = id := by
  cases h.laidOut hs with
  | item _ _ hx => exact ⟨_, hx, h.id_shape⟩
  | list _ _ hx => exact ⟨_, hx, h.id_shape⟩
  | listOf _ _ _ _ hx => exact ⟨_, hx, h.id_shape⟩

end Built

/-- The state after all shapes are resolved. -/
structure Final (graph : ShapesGraph) (s : InferenceState) : Prop where
  lawful : Lawful graph s
  settled : ∀ id, s.progress? id = none ∨ ∃ use, s.Done id use
  complete : ∀ id ∈ graph.ids, ∃ use, s.Done id use
  history : History graph s.memo
  aliases_eq : s.aliases = aliasesOf graph s.memo

/-- **A successful run resolves all shapes.** -/
theorem final_of_resolveAll {names : NameBook} {s : InferenceState} {u : Unit}
    (h : (resolveAll graph strict).Gives { names } u s) : Final graph s := by
  obtain ⟨us, hv⟩ := visit_of_resolveAll h
  have hsettled : ∀ id, s.progress? id = none ∨ ∃ use, s.Done id use := fun id =>
    hv.extends.fresh id (by simp [InferenceState.progress?])
  refine ⟨hv.lawful .empty, hsettled, fun id hid => ?_, hv.history .nil, hv.aliases_eq rfl⟩
  obtain ⟨use, -, hans⟩ := exists_of_mem_forall₂ hv.answers (List.mem_map_of_mem hid)
  rcases hans.denotes with ⟨c, hc⟩ | ⟨use', hd, -⟩
  · rcases hsettled id with hnone | hdone
    · exact absurd hc (InferenceState.not_mem_memo hnone _)
    · exact hdone
  · exact ⟨use', hd⟩

namespace Final

variable {s : InferenceState} {x y : Slot}

/-- The shape of a slot that is reserved is resolved into it. -/
theorem built_of_holds (h : Final graph s) {id : Node} (hx : s.Holds id x) :
    ∃ use next shape name finding, Built graph s id use x next shape name finding := by
  obtain ⟨c, hc⟩ := hx
  rcases h.settled id with hnone | ⟨use, hd⟩
  · exact absurd hc (InferenceState.not_mem_memo hnone _)
  · obtain ⟨slot, next, shape, name, finding, hb⟩ := h.lawful.built id use hd
    have hslot := h.lawful.unique id slot x hb.holds ⟨c, hc⟩
    exact ⟨use, next, shape, name, finding, hslot ▸ hb⟩

theorem exists_own (h : Final graph s) {c : Content} (hc : s.slots[x]? = some c) (hx : s.Holds c.shape x) :
    ∃ use next shape name finding, Built graph s c.shape use x next shape name finding ∧
      c = finding.own shape name next := by
  obtain ⟨use, next, shape, name, finding, hb⟩ := h.built_of_holds hx
  have hown := hb.own
  rw [hc] at hown
  exact ⟨use, next, shape, name, finding, hb, Option.some.inj hown⟩

/-- **A type belongs to a shape that stands in for none**, and is in the slot of its items, or behind the list
there. -/
theorem exists_built_of_type (h : Final graph s) {t : ItemType} (hx : s.slots[x]? = some (.type t)) :
    ∃ use slot next shape name finding, Built graph s t.shape use slot next shape name finding ∧
      graph.standIn? t.shape = none ∧ (x = use.item ∨ finding = .type t.body ∧
        ∃ u, s.slots[use.item]? = some (.type u) ∧ u.body = .list x) := by
  rcases h.lawful.covered x _ hx with hh | ⟨use, slot, shape, name, finding, hb, hi⟩
  · obtain ⟨use, next, shape, name, finding, hb, -⟩ := h.exists_own hx hh
    cases hs : graph.standIn? t.shape with
    | none => exact ⟨use, x, next, shape, name, finding, hb, rfl, Or.inl (hb.item_eq_slot hs).symm⟩
    | some target =>
        have hplace := hb.own_of_standIn? (Option.isSome_of_eq_some hs)
        rw [hx] at hplace
        cases hplace
  · have hl := Finding.isList_of_inner hi
    have hnone : graph.standIn? t.shape = none :=
      (ShapesGraph.standIn?_of_shape? hb.found).trans (Shape.standIn?_of_isList hl)
    have hfinding := Finding.eq_of_inner hi
    have hown := hb.own
    rw [← hb.item_eq_slot hnone, hfinding] at hown
    simp only [Finding.own, hl] at hown
    exact ⟨use, slot, x, shape, name, finding, hb, hnone, Or.inr ⟨hfinding, _, hown, rfl⟩⟩

/-- The slot of the items of a shape that stands in for none holds its type. -/
theorem exists_type_item (h : Final graph s) {id : Node} {use : TypeUse} (hd : s.Done id use)
    (hs : graph.standIn? id = none) : ∃ t, s.slots[use.item]? = some (.type t) ∧ t.shape = id := by
  obtain ⟨slot, next, shape, name, finding, hb⟩ := h.lawful.built id use hd
  exact hb.exists_type_item hs

theorem exists_done_of_denotes (h : Final graph s) {id : Node} (hx : s.Denotes x id) :
    ∃ use, s.Done id use := by
  rcases hx with hh | ⟨use, hd, -⟩
  · obtain ⟨use, _, _, _, _, hb⟩ := h.built_of_holds hh
    exact ⟨use, hb.done⟩
  · exact ⟨use, hd⟩

/-- **What a reference of a slot stands for.** It stands for a shape, which the slot's own shape refers to
unless it is a property; or it is the slot behind a list, of the same shape as the list. -/
theorem exists_edge (h : Final graph s) {c : Content} (hc : s.slots[x]? = some c) {kind : EdgeKind}
    (he : (kind, y) ∈ c.edges) :
    (∃ id, s.Denotes y id ∧ (kind ≠ .property → graph.Refers c.shape id)) ∨
      kind = .item ∧ ∃ d, s.slots[y]? = some d ∧ d.shape = c.shape ∧ BehindList graph s y d := by
  rcases h.lawful.covered x c hc with hx | ⟨use, slot, shape, name, finding, hb, hi⟩
  · obtain ⟨use, next, shape, name, finding, hb, hown⟩ := h.exists_own hc hx
    rw [hown] at he
    rcases hb.exists_edge_own he with hd | ⟨hkind, rfl, t, hi⟩
    · exact Or.inl hd
    · have hshape : (Content.type t).shape = c.shape := (Finding.shape_inner hi).trans hb.id_shape
      exact Or.inr ⟨hkind, .type t, hb.inner _ hi, hshape, use, x, shape, name, finding, hshape ▸ hb, hi⟩
  · exact Or.inl (hb.exists_edge_inner hi he).2

theorem lt_of_edge (h : Final graph s) {c : Content} (hc : s.slots[x]? = some c) {kind : EdgeKind}
    (he : (kind, y) ∈ c.edges) : y < s.slots.length := by
  rcases h.exists_edge hc he with ⟨id, hd, -⟩ | ⟨-, d, hd, -⟩
  · exact h.lawful.lt_of_denotes hd
  · exact (List.getElem?_eq_some_iff.1 hd).1

/-! ## Replacing aliases -/

theorem exists_type (h : Final graph s) (hx : x < s.slots.length) (ha : aliasOf? s.aliases x = none) :
    ∃ t, s.slots[x]? = some (.type t) := by
  obtain ⟨c, hc⟩ : ∃ c, s.slots[x]? = some c := ⟨_, List.getElem?_eq_getElem hx⟩
  rcases h.lawful.covered x c hc with hh | ⟨use, slot, shape, name, finding, hb, hi⟩
  · obtain ⟨use, next, shape, name, finding, hb, hown⟩ := h.exists_own hc hh
    cases c with
    | type t => exact ⟨t, hc⟩
    | placeholder id =>
        obtain ⟨a, hmem, hslot⟩ := Finding.exists_alias hown.symm x
        exact absurd hslot (aliasOf?_none ha a (hb.aliases a hmem))
  · obtain ⟨t, rfl⟩ := Finding.exists_type_of_inner hi
    exact ⟨t, hc⟩

theorem aliasOf?_of_type (h : Final graph s) {t : ItemType} (hx : s.slots[x]? = some (.type t)) :
    aliasOf? s.aliases x = none := by
  cases ha : aliasOf? s.aliases x with
  | none => rfl
  | some a =>
      obtain ⟨hmem, rfl⟩ := aliasOf?_some ha
      obtain ⟨_, _, _, hh, hs⟩ := h.lawful.alias_done a hmem
      obtain ⟨use, next, shape, name, finding, hb⟩ := h.built_of_holds hh
      rw [hb.own_of_standIn? hs] at hx
      cases hx

variable {r : List (Slot × Slot)} (hr : Alias.replacements s.aliases = .ok r)

include hr

theorem replaceSlot_eq_self (ha : aliasOf? s.aliases x = none) : replaceSlot r x = x := by
  obtain ⟨n, hn⟩ := Alias.chain_replaceSlot hr x
  exact (hn.unique (.ends ha)).2

theorem replaceSlot_slot (h : Final graph s) {a : Alias} (ha : a ∈ s.aliases) :
    replaceSlot r a.slot = replaceSlot r a.target := by
  obtain ⟨n, hn⟩ := Alias.chain_replaceSlot hr a.slot
  obtain ⟨m, hm⟩ := Alias.chain_replaceSlot hr a.target
  exact (hn.unique (.step (aliasOf?_of_mem h.lawful.aliases_nodup ha) hm)).2

/-- **A slot is replaced by one that holds a type.** -/
theorem exists_type_replaceSlot (h : Final graph s) (hx : x < s.slots.length) :
    ∃ t, s.slots[replaceSlot r x]? = some (.type t) := by
  obtain ⟨n, hn⟩ := Alias.chain_replaceSlot hr x
  have hlt : replaceSlot r x < s.slots.length := by
    clear hr
    generalize replaceSlot r x = e at hn
    induction hn with
    | ends _ => exact hx
    | step ha _ ih =>
        obtain ⟨hmem, -⟩ := aliasOf?_some ha
        obtain ⟨use, hd, hi, -⟩ := h.lawful.alias_done _ hmem
        exact ih (hi ▸ h.lawful.item_lt _ _ hd)
  exact h.exists_type hlt hn.isEnd

/-- A slot that holds a type stays as it is. -/
theorem replaceSlot_of_type (h : Final graph s) {t : ItemType} (hx : s.slots[x]? = some (.type t)) :
    replaceSlot r x = x :=
  replaceSlot_eq_self hr (h.aliasOf?_of_type hx)

/-- **All slots that stand for a shape are replaced by the same one.** -/
theorem replaceSlot_of_denotes (h : Final graph s) {id : Node} {use : TypeUse} (hx : s.Denotes x id)
    (hd : s.Done id use) : replaceSlot r x = replaceSlot r use.item := by
  rcases hx with hh | ⟨use', hd', rfl⟩
  · obtain ⟨use', next, shape, name, finding, hb⟩ := h.built_of_holds hh
    cases hb.done.unique hd
    by_cases hx : use.item = x
    · rw [hx]
    · obtain ⟨a, ha, hslot, htarget⟩ := hb.exists_alias hx
      rw [← hslot, ← htarget]
      exact h.replaceSlot_slot hr ha
  · rw [hd'.unique hd]

end Final

end ShapeTypes
