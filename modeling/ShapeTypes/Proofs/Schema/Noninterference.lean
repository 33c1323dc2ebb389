import ShapeTypes.Proofs.Inference.Noninterference

/-!
# Names and presentation do not influence schemas

* `Schema.bare` — the uses of the shapes and the types of a schema, without names and presentation;
* `InferenceState.Same.replaceAliases_eq`, `checkLazy_congr`, `slotsToKeep_bare` — what follows resolution
  does not depend on names and presentation either;
* `infer_noninterference` — **shapes that differ in their presentation at most are refused with the same
  error, or given schemas that differ in names and presentation at most.**
-/

namespace ShapeTypes

open Rdf Infer

/-- The uses of the shapes in input order, and the types in their slots, without what names and presents
them. -/
def Schema.bare (s : Schema) : List (Node × TypeUse) × List Content :=
  (s.entries.map fun e => (e.shape, e.use), s.slots.map Content.bare)

/-! ## Slots -/

namespace Arena

variable (a : Arena)

theorem successors_bare : successors (a.map Content.bare) = a.successors := by
  funext slot
  unfold successors
  rw [List.getElem?_map, List.length_map]
  cases a[slot]? with
  | none => rfl
  | some c =>
      show c.bare.children.filter _ = c.children.filter _
      rw [Content.children, Content.edges_bare]
      rfl

theorem structuralSuccessors_bare : structuralSuccessors (a.map Content.bare) = a.structuralSuccessors := by
  funext slot
  unfold structuralSuccessors
  rw [List.getElem?_map, List.length_map]
  cases a[slot]? with
  | none => rfl
  | some c =>
      simp only [Option.map_some]
      rw [Content.edges_bare]

theorem reachable_bare (roots : List Slot) : reachable (a.map Content.bare) roots = a.reachable roots := by
  unfold reachable
  rw [successors_bare, List.length_map]

theorem structuralCycle?_bare : structuralCycle? (a.map Content.bare) = a.structuralCycle? := by
  have hcycle : ∀ slot, cycleThrough (a.map Content.bare) slot = a.cycleThrough slot := by
    intro slot
    unfold cycleThrough structurallyBelow
    rw [structuralSuccessors_bare, List.length_map]
  unfold structuralCycle?
  simp only [hcycle]
  rw [structuralSuccessors_bare, List.length_map]

theorem compact_bare (keep : List Slot) :
    compact (a.map Content.bare) keep = (a.compact keep).map Content.bare := by
  unfold compact
  rw [List.map_filterMap]
  refine List.filterMap_congr fun slot _ => ?_
  rw [List.getElem?_map]
  cases a[slot]? with
  | none => rfl
  | some c =>
      simp only [Option.map_some]
      rw [Content.bare_mapSlots]

end Arena

theorem placeholdersAt_bare (a : Arena) (reached : List Slot) :
    placeholdersAt (a.map Content.bare) reached = placeholdersAt a reached := by
  unfold placeholdersAt
  refine List.filterMap_congr fun slot _ => ?_
  rw [List.getElem?_map]
  cases a[slot]? with
  | none => rfl
  | some c => cases c <;> rfl

theorem slotsToKeep_bare (a : Arena) (roots : List Slot) :
    slotsToKeep (a.map Content.bare) roots = slotsToKeep a roots := by
  have hshapes : ∀ cycle : List Slot,
      (cycle.filterMap fun slot => ((a.map Content.bare)[slot]?).map (·.shape)) =
        cycle.filterMap fun slot => (a[slot]?).map (·.shape) := by
    intro cycle
    refine List.filterMap_congr fun slot _ => ?_
    rw [List.getElem?_map, Option.map_map]
    simp only [Function.comp_def, Content.shape_bare]
  unfold slotsToKeep
  rw [Arena.reachable_bare, Arena.structuralCycle?_bare]
  simp only [placeholdersAt_bare, hshapes]

/-! ## Aliases -/

namespace InferenceState

/-- The cardinality of a property is settled whatever presents it. -/
theorem bare_settleProperty (s : InferenceState) (p : Property) :
    (s.settleProperty p).bare = s.settleProperty p.bare := by
  unfold settleProperty
  have hshape : p.bare.shape = p.shape := rfl
  rw [hshape]
  split
  · cases s.use? p.shape <;> rfl
  · rfl

theorem bare_settleContent (s : InferenceState) (c : Content) :
    (s.settleContent c).bare = s.settleContent c.bare := by
  rcases c with shape | ⟨shape, name, doc, body⟩
  · rfl
  · cases body with
    | object o =>
        simp only [settleContent, Content.bare, ItemType.bare, Body.bare, List.map_map, Function.comp_def,
          bare_settleProperty]
    | _ => rfl

namespace Same

variable {s t : InferenceState} (h : s.Same t)

include h

theorem use?_eq : s.use? = t.use? := by
  funext id
  rw [use?, use?, h.progress?_eq]

theorem settleContent_eq : s.settleContent = t.settleContent := by
  have hproperty : s.settleProperty = t.settleProperty := by
    funext p
    rw [settleProperty, settleProperty, h.handedOut, h.use?_eq]
  funext c
  unfold settleContent
  rw [hproperty]

theorem settleEarlyUses : s.settleEarlyUses.Same t.settleEarlyUses := by
  have hslots : ∀ u : InferenceState, (u.slots.map u.settleContent).map Content.bare =
      (u.slots.map Content.bare).map u.settleContent := by
    intro u
    rw [List.map_map, List.map_map]
    exact List.map_congr_left fun c _ => bare_settleContent u c
  refine { h with slots := ?_ }
  show (s.slots.map s.settleContent).map Content.bare = (t.slots.map t.settleContent).map Content.bare
  rw [hslots, hslots, h.slots, h.settleContent_eq]

/-- Every alias is replaced by the same slot, or the same chain of aliases is refused. -/
theorem replaceAliases_eq (ids : List Node) :
    (s.replaceAliases ids).map (fun r => (r.1.map Content.bare, r.2)) =
      (t.replaceAliases ids).map fun r => (r.1.map Content.bare, r.2) := by
  have hslots : ∀ (u : InferenceState) (f : Slot → Slot), (u.slots.map (·.mapSlots f)).map Content.bare =
      (u.slots.map Content.bare).map (·.mapSlots f) := by
    intro u f
    rw [List.map_map, List.map_map]
    exact List.map_congr_left fun c _ => Content.bare_mapSlots f c
  unfold replaceAliases
  rw [h.aliases, h.use?_eq]
  split
  · rfl
  · simp only [Except.map, hslots, h.slots]

end Same

end InferenceState

/-! ## Lazy properties -/

theorem checkLazyShape_congr {a b : Arena} (h : a.map Content.bare = b.map Content.bare)
    (uses : List (Node × TypeUse)) (id : Node) : checkLazyShape a uses id = checkLazyShape b uses id := by
  have hitem : ∀ (a : Arena) (x : Slot),
      (itemContent? a x).map Content.bare = itemContent? (a.map Content.bare) x := by
    intro a x
    unfold itemContent?
    rw [List.getElem?_map]
    rcases a[x]? with - | shape | ⟨shape, name, doc, body⟩
    · rfl
    · rfl
    · cases body with
      | list inner => exact (List.getElem?_map ..).symm
      | _ => rfl
  unfold checkLazyShape
  cases uses.lookup id with
  | none => rfl
  | some use =>
      have hcontent := hitem a use.item
      rw [h, ← hitem] at hcontent
      simp only
      cases hb : itemContent? b use.item with
      | none =>
          rw [hb, Option.map_none, Option.map_eq_none_iff] at hcontent
          rw [hcontent]
      | some c =>
          rw [hb, Option.map_some, Option.map_eq_some_iff] at hcontent
          obtain ⟨c', hc', hbare⟩ := hcontent
          simp only [hc']
          rw [← Content.actsAsObject_bare c', ← Content.kind_bare c', hbare, Content.actsAsObject_bare,
            Content.kind_bare]

theorem checkLazy_congr {g h : ShapesGraph} (hg : g.SameBare h) {a b : Arena}
    (hab : a.map Content.bare = b.map Content.bare) (uses : List (Node × TypeUse)) :
    checkLazy g a uses = checkLazy h b uses := by
  have hcheck : ∀ (k : ShapesGraph) (c : Arena), checkLazy k c uses =
      ((k.shapes.entries.map Shape.bare).filter fun s => !s.isNode).forM fun s =>
        if s.property?.any (·.lazy) then checkLazyShape c uses s.id else .ok () := by
    intro k c
    show _ = forM ((k.shapes.entries.map Shape.bare).filter fun s => !s.isNode) _
    rw [List.filter_map, List.forM_map]
    simp only [Function.comp_def, Shape.isNode_bare, Shape.property?_bare, Option.any_map]
    rfl
  rw [hcheck, hcheck, hg]
  simp only [checkLazyShape_congr hab]

/-! ## Schemas -/

section

variable {ε α β γ δ : Type}

/-- Outcomes that map to the same are the same error, or values that map to the same. -/
theorem cases_of_map_eq {x : Except ε α} {y : Except ε β} {p : α → γ} {q : β → γ} (h : x.map p = y.map q) :
    (∃ e, x = .error e ∧ y = .error e) ∨ ∃ a b, x = .ok a ∧ y = .ok b ∧ p a = q b := by
  cases x with
  | error e =>
      cases y with
      | error e' =>
          cases h
          exact Or.inl ⟨e, rfl, rfl⟩
      | ok b => cases h
  | ok a =>
      cases y with
      | error e' => cases h
      | ok b => exact Or.inr ⟨a, b, rfl, rfl, Except.ok.inj h⟩

/-- What follows the same error is the same, and so is what follows related values if it maps to the same. -/
theorem map_bind_eq {x : Except ε α} {y : Except ε β} {R : α → β → Prop} {f : α → Except ε γ}
    {g : β → Except ε γ} {k : γ → δ}
    (h : (∃ e, x = .error e ∧ y = .error e) ∨ ∃ a b, x = .ok a ∧ y = .ok b ∧ R a b)
    (hfg : ∀ a b, R a b → (f a).map k = (g b).map k) : (x >>= f).map k = (y >>= g).map k := by
  rcases h with ⟨e, rfl, rfl⟩ | ⟨a, b, rfl, rfl, hab⟩
  · rfl
  · exact hfg a b hab

end

/-- **Names and presentation do not influence schemas.** Shapes in the same order that differ in their
presentation at most, with any ontologies and groups and named with any prefixes, are refused with the same
error, or given the same uses, and the same types but for names and presentation. -/
theorem infer_noninterference {graph graph' : ShapesGraph} (h : graph.SameBare graph')
    (table table' : PrefixTable) (strict : Bool) :
    (graph.infer table strict).map Schema.bare = (graph'.infer table' strict).map Schema.bare := by
  have hstart : InferenceState.Same { names := .ofTable table } { names := .ofTable table' } :=
    ⟨rfl, rfl, rfl, rfl, rfl, rfl⟩
  have hresolve : (∃ e, (resolveAll graph strict).run { names := .ofTable table } = .error e ∧
        (resolveAll graph' strict).run { names := .ofTable table' } = .error e) ∨
      ∃ a b, (resolveAll graph strict).run { names := .ofTable table } = .ok a ∧
        (resolveAll graph' strict).run { names := .ofTable table' } = .ok b ∧ a.2.Same b.2 := by
    have hindifferent : Indifferent Eq (resolveAll graph strict) (resolveAll graph' strict) :=
      indifferent_resolveAll h
    rcases hindifferent _ _ hstart with hfails | ⟨_, _, s, t, hs, ht, -, hst⟩
    · exact Or.inl hfails
    · exact Or.inr ⟨_, _, hs, ht, hst⟩
  refine map_bind_eq hresolve ?_
  rintro ⟨_, s⟩ ⟨_, t⟩ hst
  show (graph.complete s).map Schema.bare = (graph'.complete t).map Schema.bare
  unfold ShapesGraph.complete
  rw [← h.ids_eq]
  refine map_bind_eq (cases_of_map_eq (hst.settleEarlyUses.replaceAliases_eq graph.ids)) ?_
  rintro ⟨slots, uses⟩ ⟨slots', uses'⟩ hr
  obtain ⟨hslots, rfl⟩ := Prod.mk.inj hr
  simp only
  rw [checkLazy_congr h hslots uses, ← slotsToKeep_bare slots, hslots, slotsToKeep_bare]
  cases checkLazy graph' slots' uses with
  | error e => rfl
  | ok _ =>
      cases slotsToKeep slots' (uses.map (·.2.item)) with
      | error e => rfl
      | ok keep =>
          have hentries : ∀ names : NameBook, (entriesOf names uses keep).map (fun e => (e.shape, e.use)) =
              uses.map fun u => (u.1, u.2.mapSlot (Arena.renumber keep)) := by
            intro names
            rw [entriesOf, List.map_map]
            rfl
          show Except.ok (_, (Arena.compact slots keep).map Content.bare) =
            Except.ok (_, (Arena.compact slots' keep).map Content.bare)
          rw [hentries, hentries, ← Arena.compact_bare, ← Arena.compact_bare, hslots]

/-- A street has a length, and streets that it meets; nothing is said of their presentation. -/
def ShapesGraph.streets : ShapesGraph where
  shapes := .ofList [
    { id := .blank "Street", form := .node [.blank "length", .blank "meets"] },
    { id := .blank "length", constraints := { datatype := some ⟨"e:metres"⟩, maxCount := some 1 }
      form := .property { path := .predicate ⟨"e:length"⟩ } },
    { id := .blank "meets", constraints := { nodes := [.blank "Street"] }
      form := .property { path := .predicate ⟨"e:meets"⟩ } }]

/-- The same streets, named, annotated and put in order. -/
def ShapesGraph.presentedStreets : ShapesGraph where
  shapes := .ofList [
    { id := .blank "Street", labels := { name := some "Street", comment := some "A street" }
      definedBy := some ⟨"e:city"⟩, form := .node [.blank "length", .blank "meets"] },
    { id := .blank "length", labels := { overrideName := some "lengthInMetres" }
      constraints := { datatype := some ⟨"e:metres"⟩, maxCount := some 1 }
      form := .property { path := .predicate ⟨"e:length"⟩, visibility := .owner, group := some (.blank "g") } },
    { id := .blank "meets", constraints := { nodes := [.blank "Street"] }
      annotations := { features := ["map"] }
      form := .property { path := .predicate ⟨"e:meets"⟩, order := some default } }]
  ontologies := .ofList [{ id := ⟨"e:city"⟩, annotations := { features := ["city"] } }]
  groups := .ofList [{ id := .blank "g" }]

theorem streets_noninterference : ShapesGraph.streets.SameBare ShapesGraph.presentedStreets ∧
    (ShapesGraph.streets.infer default true).map Schema.bare =
      (ShapesGraph.presentedStreets.infer default true).map Schema.bare := by
  have h : ShapesGraph.streets.SameBare ShapesGraph.presentedStreets := rfl
  exact ⟨h, infer_noninterference h default default true⟩

end ShapeTypes
