import ShapeTypes.Proofs.Inference.Reentry

/-!
# Types that act as objects

Whether a slot acts as an object is asked while shapes are resolved, when its type may not be known yet.

* `Final.exists_finds` — a type in a slot, a list apart, is what its shape was found to be;
* `Final.exists_object_of_acts` — **a slot that acts as an object at any time has a type at last that does**;
* `Final.exists_object_parent`, `Final.exists_object_member` — so do the parents of objects and the members
  of composites of objects.
-/

namespace ShapeTypes

open Rdf Relation

variable {graph : ShapesGraph} {strict : Bool}

/-- What acts as an object: an open one, or a type that does. -/
theorem InferenceState.actsAsObject_iff {s : InferenceState} {y : Slot} : s.actsAsObject y = true ↔
    follow s.aliases y ∈ s.openObjects ∨
      ∃ t, s.slots[follow s.aliases y]? = some (.type t) ∧ t.body.actsAsObject = true := by
  show (s.openObjects.contains (follow s.aliases y) ||
    (s.slots[follow s.aliases y]?).any (·.actsAsObject)) = true ↔ _
  rw [Bool.or_eq_true, List.contains_iff_mem, Option.any_eq_true]
  refine or_congr_right ⟨?_, fun ⟨t, ht, ha⟩ => ⟨.type t, ht, ha⟩⟩
  rintro ⟨c, hc, ha⟩
  cases c with
  | placeholder id => cases ha
  | type t => exact ⟨t, hc, ha⟩

/-! ## What types come from -/

namespace Finding

variable {finding : Finding} {shape : Shape} {name : Name} {t : ItemType}

/-- A type in the slot of a shape is a list, or what the shape was found to be. -/
theorem eq_of_own {next : Slot} (h : finding.own shape name next = .type t)
    (hl : ∀ item, t.body ≠ .list item) : finding = .type t.body := by
  unfold own at h
  split at h
  · cases h
    rfl
  · cases h
    exact absurd rfl (hl next)
  · cases h
  · rename_i target _
    cases h
    exact absurd rfl (hl target)

end Finding

/-- The parent of an object acted as one when it was found. -/
theorem Finds.actsAsObject_parent {shape : Shape} {s t t' : InferenceState} {refs props : List TypeUse}
    {o : ObjectBody} (h : Finds graph shape s refs t props (.type (.object o)) t') {y : Slot}
    (hy : o.parent = some y) : s.actsAsObject y = true := by
  cases h with
  | object _ hparent _ =>
      rcases hparent with ⟨-, hnone⟩ | ⟨ancestor, use, -, -, hacts, hsome⟩
      · rw [hnone] at hy
        cases hy
      · cases hsome.symm.trans hy
        exact hacts
  | value _ _ _ hb => cases (gives_valueBody hb).1

/-- A composite is one of objects if its members acted as objects when it was found. -/
theorem Finds.ofObjects_eq {shape : Shape} {s t t' : InferenceState} {refs props : List TypeUse}
    {connective : Connective} {ofObjects : Bool} {members : List Slot}
    (h : Finds graph shape s refs t props (.type (.composite connective ofObjects members)) t') :
    ofObjects = members.all t.actsAsObject := by
  cases h with
  | composite => rfl
  | value _ _ _ hb => cases (gives_valueBody hb).1

theorem Fits.not_standsFor {s s' : InferenceState} {shape : Shape} {body : Body} {slot : Slot}
    (h : Fits graph s shape (.type body)) : ¬ Fits graph s' shape (.standsFor slot) := by
  intro h'
  cases h' with
  | reference hc hn hnodes _ =>
      cases h with
      | composite hcomp =>
          rw [Constraints.composition?_eq_none hc] at hcomp
          cases hcomp
      | object ho => simp [Shape.declaresObject, hn] at ho
      | value _ _ hnodes' =>
          rw [hnodes] at hnodes'
          cases hnodes'

/-- The slot of a shape that declares an object holds one, and its items are there. -/
theorem Built.exists_object {s : InferenceState} {id : Node} {use : TypeUse} {slot next : Slot} {shape : Shape}
    {name : Name} {finding : Finding} (h : Built graph s id use slot next shape name finding)
    (ho : graph.DeclaresObject id) :
    use.item = slot ∧ ∃ t, s.slots[slot]? = some (.type t) ∧ t.body.actsAsObject = true := by
  obtain ⟨shape', hs, ho⟩ := ho
  cases hs.symm.trans h.found
  obtain ⟨body, rfl, -, -⟩ := h.fits.exists_object ho
  have hown := h.own
  simp only [Finding.own, Shape.isList_of_declaresObject ho] at hown
  exact ⟨h.item, _, hown, rfl⟩

/-- **A shape is found to be one thing only.** -/
theorem Built.finding_unique {s : InferenceState} (hs : Lawful graph s) {id : Node} {use use' : TypeUse}
    {slot slot' next next' : Slot} {shape shape' : Shape} {name name' : Name} {finding finding' : Finding}
    (h : Built graph s id use slot next shape name finding)
    (h' : Built graph s id use' slot' next' shape' name' finding') : finding = finding' := by
  cases h.found.symm.trans h'.found
  cases hs.unique id slot slot' h.holds h'.holds
  cases h.done.unique h'.done
  have hown := Option.some.inj (h.own.symm.trans h'.own)
  cases finding with
  | standsFor target =>
      cases finding' with
      | type body => exact absurd h.fits h'.fits.not_standsFor
      | standsFor target' =>
          cases hl : shape.isList with
          | false =>
              have hitem := h.item.symm.trans h'.item
              simp only [Finding.item, hl] at hitem
              rw [hitem]
          | true =>
              simp only [Finding.own, hl, Content.type.injEq, Shape.itemType] at hown
              cases hown
              rfl
  | type body =>
      cases finding' with
      | standsFor target => exact absurd h'.fits h.fits.not_standsFor
      | type body' =>
          cases hl : shape.isList with
          | false =>
              simp only [Finding.own, hl, Content.type.injEq, Shape.itemType] at hown
              cases hown
              rfl
          | true =>
              simp only [Finding.own, hl, Content.type.injEq, Shape.itemType] at hown
              cases hown
              have hinner := h.inner (.type (shape.itemType name body)) (by simp [Finding.inner, hl])
              have hinner' := h'.inner (.type (shape.itemType name body')) (by simp [Finding.inner, hl])
              cases hinner.symm.trans hinner'
              rfl

namespace Final

variable {s u : InferenceState} {x y : Slot}

/-- **A type in a slot, a list apart, is what its shape was found to be.** -/
theorem exists_finds (h : Final graph s)
    (hall : ∀ id use, s.Done id use → Nonempty (Origin graph strict id use s)) {t : ItemType}
    (hx : s.slots[x]? = some (.type t)) (hl : ∀ item, t.body ≠ .list item) :
    ∃ use, ∃ o : Origin graph strict t.shape use s, o.resolution.finding = .type t.body := by
  obtain ⟨use, slot, next, shape, name, finding, hb, hfinding⟩ : ∃ use slot next shape name finding,
      Built graph s t.shape use slot next shape name finding ∧ finding = .type t.body := by
    rcases h.lawful.covered x _ hx with hh | ⟨use, slot, shape, name, finding, hb, hi⟩
    · obtain ⟨use, next, shape, name, finding, hb, hown⟩ := h.exists_own hx hh
      exact ⟨use, x, next, shape, name, finding, hb, Finding.eq_of_own hown.symm hl⟩
    · exact ⟨use, slot, x, shape, name, finding, hb, Finding.eq_of_inner hi⟩
  obtain ⟨o⟩ := hall _ use hb.done
  exact ⟨use, o, (o.built.finding_unique h.lawful hb).trans hfinding⟩

/-- **A slot that acts as an object at any time has a type at last that does.** -/
theorem exists_object_of_acts (h : Final graph s) {r : List (Slot × Slot)}
    (hr : Alias.replacements s.aliases = .ok r) (hu : Lawful graph u) (k : u.Keeps s)
    (hy : u.actsAsObject y = true) :
    ∃ t, s.slots[replaceSlot r y]? = some (.type t) ∧ t.body.actsAsObject = true := by
  obtain ⟨-, -, hplace⟩ := exists_end hr k y
  obtain ⟨t, ht, hacts⟩ : ∃ t, s.slots[follow u.aliases y]? = some (.type t) ∧
      t.body.actsAsObject = true := by
    rcases InferenceState.actsAsObject_iff.1 hy with hopen | ⟨t, ht, hacts⟩
    · obtain ⟨id, c, hp, ho⟩ := (hu.openObjects _).1 hopen
      have hh : u.Holds id (follow u.aliases y) := ⟨c, InferenceState.mem_memo_of_progress? hp⟩
      obtain ⟨use, next, shape, name, finding, hb⟩ := h.built_of_holds (hh.mono k)
      exact (hb.exists_object ho).2
    · exact ⟨t, type_kept hu k ht, hacts⟩
  rw [← hplace, h.replaceSlot_of_type hr ht]
  exact ⟨t, ht, hacts⟩

section

variable (h : Final graph s) {r : List (Slot × Slot)} (hr : Alias.replacements s.aliases = .ok r)
  (hall : ∀ id use, s.Done id use → Nonempty (Origin graph strict id use s)) {t : ItemType}
  (hx : s.slots[x]? = some (.type t))

include h hr hall hx

/-- **The parent of an object has a type that acts as one.** -/
theorem exists_object_parent {o : ObjectBody} (ho : t.body = .object o) (hy : o.parent = some y) :
    ∃ t, s.slots[replaceSlot r y]? = some (.type t) ∧ t.body.actsAsObject = true := by
  obtain ⟨use, origin, hfinding⟩ := h.exists_finds hall hx (by simp [ho])
  have hacts := (ho ▸ hfinding ▸ origin.resolution.finds).actsAsObject_parent hy
  exact h.exists_object_of_acts hr origin.lawful₁ origin.keeps₁ hacts

/-- **The members of a composite of objects have types that act as objects.** -/
theorem exists_object_member {connective : Connective} {members : List Slot}
    (hc : t.body = .composite connective true members) (hy : y ∈ members) :
    ∃ t, s.slots[replaceSlot r y]? = some (.type t) ∧ t.body.actsAsObject = true := by
  obtain ⟨use, origin, hfinding⟩ := h.exists_finds hall hx (by simp [hc])
  have hall' := (hc ▸ hfinding ▸ origin.resolution.finds).ofObjects_eq
  exact h.exists_object_of_acts hr origin.lawful₂ origin.keeps₂ (List.all_eq_true.1 hall'.symm y hy)

end

end Final

end ShapeTypes
