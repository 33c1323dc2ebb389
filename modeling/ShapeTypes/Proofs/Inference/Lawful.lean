import ShapeTypes.Proofs.Inference.Answers

/-!
# The invariant of inference

* `ShapesGraph.Refers` — a shape refers to another one otherwise than as a property;
* `Fits`, `Built` — what a shape was found to be agrees with what it declares, and the slots hold it;
* `Lawful` — the invariant: memo, slots and aliases agree with each other;
* `Visit.lawful` — **every visit keeps the invariant**.
-/

namespace ShapeTypes

open Rdf

variable {graph : ShapesGraph} {strict : Bool}

/-! ## What shapes were found to be -/

/-- The shape that a property shape stands in for: the one it refers to, if it is neither composed nor a
list. -/
def Shape.standIn? (shape : Shape) : Option Node :=
  match shape.constraints.nodes with
  | [target] =>
    if shape.isNode || shape.isList || shape.constraints.isComposite then none else some target
  | _ => none

/-- The shape that the property shape of an identifier stands in for. -/
def ShapesGraph.standIn? (graph : ShapesGraph) (id : Node) : Option Node :=
  (graph.shape? id).bind (·.standIn?)

/-- Going from a shape to the one it stands in for. -/
def ShapesGraph.StandsInFor (graph : ShapesGraph) (id target : Node) : Prop :=
  graph.standIn? id = some target

/-- A shape refers to another one otherwise than as a property. -/
def ShapesGraph.Refers (graph : ShapesGraph) (source target : Node) : Prop :=
  ∃ shape, graph.shape? source = some shape ∧ target ∈ shape.constraints.references

theorem ShapesGraph.Refers.mem_ids {source target : Node} (h : graph.Refers source target) :
    source ∈ graph.ids := by
  obtain ⟨shape, hs, -⟩ := h
  exact ShapesGraph.mem_ids.2 ⟨shape, hs⟩

/-- The shape of an identifier declares an object. -/
def ShapesGraph.DeclaresObject (graph : ShapesGraph) (id : Node) : Prop :=
  ∃ shape, graph.shape? id = some shape ∧ shape.declaresObject = true

theorem Shape.nodes_of_standIn? {shape : Shape} {target : Node} (h : shape.standIn? = some target) :
    shape.constraints.nodes = [target] := by
  unfold standIn? at h
  split at h
  · rename_i hn
    simp only [Option.ite_none_left_eq_some, Option.some.injEq] at h
    rw [hn, h.2]
  · cases h

theorem Shape.isComposite_of_standIn? {shape : Shape} {target : Node} (h : shape.standIn? = some target) :
    shape.constraints.isComposite = false := by
  unfold standIn? at h
  split at h
  · simp only [Option.ite_none_left_eq_some, Bool.or_eq_true, not_or, Bool.not_eq_true] at h
    exact h.1.2
  · cases h

theorem Shape.isNode_of_declaresObject {shape : Shape} (h : shape.declaresObject = true) : shape.isNode = true := by
  simp only [declaresObject, Bool.and_eq_true] at h
  exact h.1.1

theorem Shape.standIn?_of_isNode {shape : Shape} (h : shape.isNode = true) : shape.standIn? = none := by
  unfold standIn?
  split
  · simp [h]
  · rfl

theorem Shape.standIn?_of_isList {shape : Shape} (h : shape.isList = true) : shape.standIn? = none := by
  unfold standIn?
  split
  · simp [h]
  · rfl

theorem ShapesGraph.standIn?_of_shape? {id : Node} {shape : Shape} (hs : graph.shape? id = some shape) :
    graph.standIn? id = shape.standIn? := by
  rw [standIn?, hs, Option.bind_some]

theorem ShapesGraph.DeclaresObject.standIn?_eq {id : Node} (h : graph.DeclaresObject id) :
    graph.standIn? id = none := by
  obtain ⟨shape, hs, ho⟩ := h
  rw [standIn?_of_shape? hs, Shape.standIn?_of_isNode (Shape.isNode_of_declaresObject ho)]

theorem ShapesGraph.refers_of_standIn? {id target : Node} (h : graph.standIn? id = some target) :
    graph.Refers id target := by
  obtain ⟨shape, hs, ht⟩ := Option.bind_eq_some_iff.1 h
  exact ⟨shape, hs, by simp [Constraints.references, Shape.nodes_of_standIn? ht]⟩

/-- A property of an object agrees with its property shape. -/
def FitsProperty (graph : ShapesGraph) (s : InferenceState) (id : Node) (p : Property) : Prop :=
  DescribesProperty graph id p ∧ s.Answered ⟨.property, id⟩ p.use

/-- The parent of an object agrees with the ancestors of its shape. -/
def FitsParent (s : InferenceState) (shape : Shape) (parent : Option Slot) : Prop :=
  (shape.constraints.nodes = [] ∧ parent = none) ∨
    ∃ ancestor slot, shape.constraints.nodes = [ancestor] ∧ parent = some slot ∧ s.Denotes slot ancestor

/-- What a shape was found to be agrees with what it declares. -/
inductive Fits (graph : ShapesGraph) (s : InferenceState) (shape : Shape) : Finding → Prop where
  | composite {connective members ofObjects slots} :
      shape.constraints.composition? = some (connective, members) → 2 ≤ members.length →
      shape.constraints.nodes = [] → shape.properties = [] → List.Forall₂ s.Denotes slots members →
      Fits graph s shape (.type (.composite connective ofObjects slots))
  | object {body : ObjectBody} :
      shape.declaresObject = true → FitsParent s shape body.parent →
      List.Forall₂ (FitsProperty graph s) shape.properties body.properties →
      Fits graph s shape (.type (.object body))
  | reference {target slot} :
      shape.constraints.isComposite = false → shape.isNode = false →
      shape.constraints.nodes = [target] → s.Denotes slot target → Fits graph s shape (.standsFor slot)
  | value {body : Body} :
      shape.constraints.isComposite = false → shape.declaresObject = false →
      shape.constraints.nodes = [] → body.isValue = true → Fits graph s shape (.type body)

/-- A shape is resolved, and its slots hold what it was found to be. -/
structure Built (graph : ShapesGraph) (s : InferenceState) (id : Node) (use : TypeUse) (slot next : Slot)
    (shape : Shape) (name : Name) (finding : Finding) : Prop where
  found : graph.shape? id = some shape
  done : s.Done id use
  holds : s.Holds id slot
  item : use.item = finding.item shape slot
  own : s.slots[slot]? = some (finding.own shape name next)
  inner : ∀ c ∈ finding.inner shape name, s.slots[next]? = some c
  aliases : ∀ a ∈ finding.aliases shape slot, a ∈ s.aliases
  fits : Fits graph s shape finding

section

variable {s s' : InferenceState} (k : s.Keeps s') {shape : Shape} {finding : Finding}

include k

theorem FitsParent.mono {parent : Option Slot} (h : FitsParent s shape parent) :
    FitsParent s' shape parent := by
  rcases h with h | ⟨ancestor, slot, hn, hp, hd⟩
  · exact Or.inl h
  · exact Or.inr ⟨ancestor, slot, hn, hp, hd.mono k⟩

theorem Fits.mono (h : Fits graph s shape finding) : Fits graph s' shape finding := by
  cases h with
  | composite hc hl hn hp hm => exact .composite hc hl hn hp (hm.imp fun _ _ hd => hd.mono k)
  | object ho hp hps => exact .object ho (hp.mono k) (hps.imp fun _ _ hd => ⟨hd.1, hd.2.mono k⟩)
  | reference hc hn ht hd => exact .reference hc hn ht (hd.mono k)
  | value hc ho hn hb => exact .value hc ho hn hb

theorem Built.mono {id : Node} {use : TypeUse} {slot next : Slot} {name : Name}
    (h : Built graph s id use slot next shape name finding) :
    Built graph s' id use slot next shape name finding where
  found := h.found
  done := k.done _ _ h.done
  holds := h.holds.mono k
  item := h.item
  own := by
    refine k.slots _ _ use h.own ?_
    rw [Finding.shape_own, (ShapesGraph.shape?_eq_some h.found).2]
    exact h.done
  inner := fun c hc => by
    refine k.slots _ _ use (h.inner c hc) ?_
    rw [Finding.shape_inner hc, (ShapesGraph.shape?_eq_some h.found).2]
    exact h.done
  aliases := fun a ha => k.aliases.subset (h.aliases a ha)
  fits := h.fits.mono k

end

/-- What a shape is found to be agrees with what it declares, if the answers denote the shapes asked for. -/
theorem Finds.fits {shape : Shape} {s t t' u : InferenceState} {refs props : List TypeUse}
    {finding : Finding} (h : Finds graph shape s refs t props finding t')
    (hrefs : List.Forall₂ u.Answered shape.referenceRequests refs)
    (hprops : List.Forall₂ u.Answered shape.propertyRequests props) : Fits graph u shape finding := by
  cases h with
  | composite hc hl hn hp =>
      refine .composite hc hl hn hp ?_
      rw [Shape.referenceRequests, hc, List.forall₂_map_left_iff] at hrefs
      rw [List.forall₂_map_left_iff]
      exact hrefs.flip.imp fun _ _ h => h.denotes
  | object ho hp hd =>
      have hc := Shape.isComposite_of_declaresObject ho
      rw [Shape.referenceRequests, Constraints.composition?_eq_none hc] at hrefs
      rw [Shape.propertyRequests, if_pos ho, List.forall₂_map_left_iff, List.forall₂_map_right_iff]
        at hprops
      refine .object ho ?_ (hd.mp (fun _ _ hdesc hans => ⟨hdesc, hans⟩) hprops)
      rcases hp with hnone | ⟨ancestor, use, hn, rfl, -, hparent⟩
      · exact Or.inl hnone
      · rw [hn] at hrefs
        cases hrefs with
        | cons hans _ => exact Or.inr ⟨ancestor, use.item, hn, hparent, hans.denotes⟩
  | reference hc hn ht _ _ =>
      rw [Shape.referenceRequests, Constraints.composition?_eq_none hc, ht] at hrefs
      cases hrefs with
      | cons hans _ => exact .reference hc hn ht hans.denotes
  | value hc ho hn hb => exact .value hc ho hn (gives_valueBody hb).1

theorem Fits.exists_object {s : InferenceState} {shape : Shape} {finding : Finding} (h : Fits graph s shape finding)
    (ho : shape.declaresObject = true) : ∃ body, finding = .type (.object body) ∧
      FitsParent s shape body.parent ∧ List.Forall₂ (FitsProperty graph s) shape.properties body.properties := by
  cases h with
  | composite hc => cases (Constraints.composition?_eq_none (Shape.isComposite_of_declaresObject ho)).symm.trans hc
  | object _ hparent hproperties => exact ⟨_, rfl, hparent, hproperties⟩
  | reference _ hnode => cases hnode.symm.trans (Shape.isNode_of_declaresObject ho)
  | value _ hno => cases hno.symm.trans ho

theorem Fits.standsFor {s : InferenceState} {shape : Shape} {finding : Finding} {target : Node}
    (h : Fits graph s shape finding) (ht : shape.standIn? = some target) :
    ∃ slot, finding = .standsFor slot ∧ shape.isList = false ∧ s.Denotes slot target := by
  unfold Shape.standIn? at ht
  split at ht
  · rename_i target' hn
    simp only [Option.ite_none_left_eq_some, Bool.or_eq_true, not_or, Bool.not_eq_true,
      Option.some.injEq] at ht
    obtain ⟨⟨⟨hnode, hlist⟩, hcomp⟩, rfl⟩ := ht
    cases h with
    | composite _ _ hn' => rw [hn] at hn'; cases hn'
    | object ho => simp [Shape.declaresObject, hnode] at ho
    | reference _ _ hn' hd =>
        rw [hn] at hn'
        cases hn'
        exact ⟨_, rfl, hlist, hd⟩
    | value _ _ hn' => rw [hn] at hn'; cases hn'
  · cases ht

/-- The items of a shape are in its own slot, or in one that stands for a shape. -/
theorem Fits.item_lt {s : InferenceState} {shape : Shape} {finding : Finding} {slot n : Slot}
    (h : Fits graph s shape finding) (hs : slot < n)
    (hd : ∀ (slot : Slot) (id : Node), s.Denotes slot id → slot < n) : finding.item shape slot < n := by
  cases h with
  | reference _ _ _ hdenotes =>
      cases hl : shape.isList with
      | false => simpa [Finding.item, hl] using hd _ _ hdenotes
      | true => simpa [Finding.item, hl] using hs
  | composite => simpa [Finding.item] using hs
  | object => simpa [Finding.item] using hs
  | value => simpa [Finding.item] using hs

theorem Fits.isSome_standIn? {s : InferenceState} {shape : Shape} {finding : Finding} {slot : Slot}
    {a : Alias} (h : Fits graph s shape finding) (ha : a ∈ finding.aliases shape slot) :
    shape.standIn?.isSome := by
  cases h with
  | reference hc hnode hn hd =>
      cases hl : shape.isList with
      | false => simp [Shape.standIn?, hn, hnode, hl, hc]
      | true => simp [Finding.aliases, hl] at ha
  | composite => simp [Finding.aliases] at ha
  | object => simp [Finding.aliases] at ha
  | value => simp [Finding.aliases] at ha

/-! ## The invariant -/

/-- A slot lies behind the list of a shape. -/
def BehindList (graph : ShapesGraph) (s : InferenceState) (x : Slot) (c : Content) : Prop :=
  ∃ use slot shape name finding, Built graph s c.shape use slot x shape name finding ∧
    c ∈ finding.inner shape name

theorem BehindList.mono {s s' : InferenceState} (k : s.Keeps s') {x : Slot} {c : Content}
    (h : BehindList graph s x c) : BehindList graph s' x c := by
  obtain ⟨use, slot, shape, name, finding, hb, hi⟩ := h
  exact ⟨use, slot, shape, name, finding, hb.mono k, hi⟩

/-- **The invariant of inference.** Every shape is entered and resolved once; a slot that is reserved holds
a place for its shape until that is resolved, and then what the shape was found to be; aliases belong to
the shapes that stand in for others; every slot belongs to a shape; and the slots that count as objects
already are those of the objects that are being resolved. -/
structure Lawful (graph : ShapesGraph) (s : InferenceState) : Prop where
  found : ∀ id x, s.Holds id x → ∃ shape, graph.shape? id = some shape
  resolved : ∀ id use, (id, .resolved use) ∈ s.memo → s.Done id use
  unique : ∀ id x y, s.Holds id x → s.Holds id y → x = y
  held : ∀ id x, s.Holds id x → ∃ c, s.slots[x]? = some c ∧ c.shape = id
  reserved : ∀ id x c, s.progress? id = some (.resolving x c) → s.slots[x]? = some (.placeholder id)
  item_lt : ∀ id use, s.Done id use → use.item < s.slots.length
  built : ∀ id use, s.Done id use →
    ∃ slot next shape name finding, Built graph s id use slot next shape name finding
  alias_done : ∀ a ∈ s.aliases, ∃ use, s.Done a.shape use ∧ use.item = a.target ∧
    s.Holds a.shape a.slot ∧ (graph.standIn? a.shape).isSome
  aliases_nodup : (s.aliases.map (·.slot)).Nodup
  covered : ∀ x c, s.slots[x]? = some c → s.Holds c.shape x ∨ BehindList graph s x c
  openObjects : ∀ x, x ∈ s.openObjects ↔
    ∃ id c, s.progress? id = some (.resolving x c) ∧ graph.DeclaresObject id

namespace Lawful

variable {s : InferenceState}

theorem empty {names : NameBook} : Lawful graph { names } where
  found := fun _ _ h => by simp [InferenceState.Holds] at h
  resolved := fun _ _ h => by simp at h
  unique := fun _ _ _ h => by simp [InferenceState.Holds] at h
  held := fun _ _ h => by simp [InferenceState.Holds] at h
  reserved := fun _ _ _ h => by simp [InferenceState.progress?] at h
  item_lt := fun _ _ h => by simp [InferenceState.Done, InferenceState.progress?] at h
  built := fun _ _ h => by simp [InferenceState.Done, InferenceState.progress?] at h
  alias_done := fun _ h => by simp at h
  aliases_nodup := List.nodup_nil
  covered := fun _ _ h => by simp at h
  openObjects := fun _ => by simp [InferenceState.progress?]

theorem lt_of_denotes (h : Lawful graph s) {slot : Slot} {id : Node} (hd : s.Denotes slot id) :
    slot < s.slots.length := by
  rcases hd with hh | ⟨use, hd, rfl⟩
  · obtain ⟨c, hc, -⟩ := h.held id slot hh
    exact (List.getElem?_eq_some_iff.1 hc).1
  · exact h.item_lt id use hd

theorem target_lt (h : Lawful graph s) : ∀ a ∈ s.aliases, a.target < s.slots.length := by
  intro a ha
  obtain ⟨use, hd, htarget, -⟩ := h.alias_done a ha
  rw [← htarget]
  exact h.item_lt _ use hd

theorem eq_of_holds (h : Lawful graph s) {x : Slot} {id id' : Node} (hx : s.Holds id x)
    (hx' : s.Holds id' x) : id = id' := by
  obtain ⟨c, hc, rfl⟩ := h.held id x hx
  obtain ⟨c', hc', rfl⟩ := h.held id' x hx'
  rw [hc] at hc'
  cases hc'
  rfl

/-- A shape with a slot is being resolved into it, or resolved. -/
theorem progress?_of_holds (h : Lawful graph s) {id : Node} {x : Slot} (hx : s.Holds id x) :
    (∃ c, s.progress? id = some (.resolving x c)) ∨ ∃ use, s.Done id use := by
  obtain ⟨c, hmem⟩ := hx
  cases hp : s.progress? id with
  | none => exact absurd hmem (InferenceState.not_mem_memo hp _)
  | some p =>
      cases p with
      | resolving x' c' =>
          rw [h.unique id x x' ⟨c, hmem⟩ ⟨c', InferenceState.mem_memo_of_progress? hp⟩]
          exact Or.inl ⟨c', rfl⟩
      | resolved use => exact Or.inr ⟨use, hp⟩

theorem exists_built {s' : InferenceState} (h : Lawful graph s) (k : s.Keeps s') {id : Node} {use : TypeUse}
    (hd : s.Done id use) :
    ∃ slot next shape name finding, Built graph s' id use slot next shape name finding := by
  obtain ⟨slot, next, shape, name, finding, hb⟩ := h.built id use hd
  exact ⟨slot, next, shape, name, finding, hb.mono k⟩

theorem exists_covered {s' : InferenceState} (h : Lawful graph s) (k : s.Keeps s') {x : Slot} {c : Content}
    (hc : s.slots[x]? = some c) : s'.Holds c.shape x ∨ BehindList graph s' x c :=
  (h.covered x c hc).imp (InferenceState.Holds.mono k) (BehindList.mono k)

theorem exists_alias_done {s' : InferenceState} (h : Lawful graph s) (k : s.Keeps s') {a : Alias}
    (ha : a ∈ s.aliases) : ∃ use, s'.Done a.shape use ∧ use.item = a.target ∧ s'.Holds a.shape a.slot ∧
      (graph.standIn? a.shape).isSome := by
  obtain ⟨use, hd, hi, hh, hs⟩ := h.alias_done a ha
  exact ⟨use, k.done _ _ hd, hi, hh.mono k, hs⟩

/-- What depends on slots, memo, aliases, open objects and handed out shapes alone, the last of which may
grow. -/
theorem of_eq {s' : InferenceState} (h : Lawful graph s) (k : s.Keeps s') (hs : s'.slots = s.slots)
    (hm : s'.memo = s.memo) (ha : s'.aliases = s.aliases) (ho : s'.openObjects = s.openObjects) :
    Lawful graph s' where
  found := by simpa [InferenceState.Holds, hm] using h.found
  resolved := fun id use hmem => k.done id use (h.resolved id use (hm ▸ hmem))
  unique := by simpa [InferenceState.Holds, hm] using h.unique
  held := by simpa [InferenceState.Holds, hm, hs] using h.held
  reserved := by simpa [InferenceState.progress?, hm, hs] using h.reserved
  item_lt := by simpa [InferenceState.Done, InferenceState.progress?, hm, hs] using h.item_lt
  built := fun id use hd => by
    have hd' : s.Done id use := by simpa [InferenceState.Done, InferenceState.progress?, hm] using hd
    exact h.exists_built k hd'
  alias_done := fun a hmem => h.exists_alias_done k (ha ▸ hmem)
  aliases_nodup := by rw [ha]; exact h.aliases_nodup
  covered := fun x c hc => h.exists_covered k (hs ▸ hc)
  openObjects := by simpa [InferenceState.progress?, hm, ho] using h.openObjects

theorem openObjects_begun {r : Request} (h : Lawful graph s) (v : Entering graph s r) {x : Slot} :
    x ∈ v.begun.openObjects ↔
      ∃ id c, v.begun.progress? id = some (.resolving x c) ∧ graph.DeclaresObject id := by
  rw [v.mem_openObjects_begun, h.openObjects x]
  constructor
  · rintro (⟨ho, rfl⟩ | ⟨id, c, hp, ho⟩)
    · refine ⟨r.id, v.early, ?_, v.shape, v.shape?_id, ho⟩
      rw [InferenceState.progress?_begun, if_pos v.id_shape.symm]
    · exact ⟨id, c, v.progress?_begun_of_some hp, ho⟩
  · rintro ⟨id, c, hp, ho⟩
    rw [InferenceState.progress?_begun] at hp
    split at hp
    · rename_i hid
      cases hp
      obtain ⟨shape, hshape, ho⟩ := ho
      rw [hid, v.id_shape, v.shape?_id, Option.some.injEq] at hshape
      exact Or.inl ⟨hshape ▸ ho, rfl⟩
    · exact Or.inr ⟨id, c, hp, ho⟩

theorem begun {r : Request} (h : Lawful graph s) (v : Entering graph s r) : Lawful graph v.begun where
  found := by
    intro id x hx
    rcases v.holds_begun_cases hx with hx | ⟨rfl, -⟩
    · exact h.found id x hx
    · exact ⟨v.shape, by rw [v.id_shape]; exact v.shape?_id⟩
  resolved := by
    intro id use hm
    rcases List.mem_cons.1 hm with hm | hm
    · cases hm
    · exact v.keeps_begun.done id use (h.resolved id use hm)
  unique := by
    intro id x y hx hy
    rcases v.holds_begun_cases hx with hx | ⟨rfl, rfl⟩
    · rcases v.holds_begun_cases hy with hy | ⟨rfl, -⟩
      · exact h.unique id x y hx hy
      · exact absurd hx v.not_holds
    · rcases v.holds_begun_cases hy with hy | ⟨-, rfl⟩
      · exact absurd hy v.not_holds
      · rfl
  held := by
    intro id x hx
    rcases v.holds_begun_cases hx with hx | ⟨rfl, rfl⟩
    · obtain ⟨c, hc, hid⟩ := h.held id x hx
      exact ⟨c, v.getElem?_begun hc, hid⟩
    · exact ⟨_, v.getElem?_begun_own, rfl⟩
  reserved := by
    intro id x c hp
    rw [InferenceState.progress?_begun] at hp
    split at hp
    · rename_i hid
      cases hp
      rw [hid]
      exact v.getElem?_begun_own
    · exact v.getElem?_begun (h.reserved id x c hp)
  item_lt := by
    intro id use hd
    exact Nat.lt_of_lt_of_le (h.item_lt id use (v.done_of_begun hd)) v.keeps_begun.length
  built := by
    intro id use hd
    exact h.exists_built v.keeps_begun (v.done_of_begun hd)
  alias_done := fun _ ha => h.exists_alias_done v.keeps_begun ha
  aliases_nodup := h.aliases_nodup
  covered := by
    intro x c hc
    rcases v.slots_begun_cases hc with hc | ⟨rfl, rfl⟩
    · exact h.exists_covered v.keeps_begun hc
    · exact Or.inl ⟨v.early, List.mem_cons_self⟩
  openObjects := fun _ => h.openObjects_begun v

end Lawful

namespace Resolution

variable {s t : InferenceState} {r : Request} {use : TypeUse} (v : Resolution graph strict s r use t)
variable {scopes : List ConstraintStack}

/-- What the shape was found to be agrees with what it declares. -/
theorem fits : Fits graph v.t₂ v.shape v.finding :=
  v.finds.fits (v.references.answers.imp fun _ _ h => h.mono v.extends₂.keeps) v.properties.answers

/-- **The slots hold what the shape was found to be once it is left.** -/
theorem built : Built graph (r.answered graph scopes t) r.id use s.slots.length v.t₂.slots.length v.shape
    v.name v.finding where
  found := v.shape?_id
  done := v.done_answered
  holds := v.holds_answered.2 ⟨v.early, InferenceState.mem_memo_of_progress? v.progress?_t₂⟩
  item := v.leaves.item
  own := v.getElem?_answered_own
  inner := fun c hc => by
    rw [v.getElem?_answered_inner (Nat.le_refl _), Nat.sub_self, Finding.getElem?_inner]
    exact ⟨rfl, hc⟩
  aliases := fun a ha => by
    rw [v.aliases_answered]
    exact List.mem_append_right _ ha
  fits := v.fits.mono v.keeps_answered

theorem nodup_aliases_answered (h : Lawful graph v.t₂) :
    ((r.answered graph scopes t).aliases.map (·.slot)).Nodup := by
  rw [v.aliases_answered, List.map_append, List.nodup_append]
  refine ⟨h.aliases_nodup, Finding.nodup_aliases, ?_⟩
  rintro x hx _ hy rfl
  obtain ⟨a, ha, rfl⟩ := List.mem_map.1 hx
  obtain ⟨b, hb, hab⟩ := List.mem_map.1 hy
  obtain ⟨use', hd, -, hh, -⟩ := h.alias_done a ha
  obtain ⟨c, hc, hid⟩ := h.held _ _ hh
  rw [← hab, (Finding.mem_aliases hb).1, v.getElem?_slot] at hc
  cases hc
  exact v.ne_of_done hd hid.symm

include v in
/-- A shape that is being resolved when another one was left is not that one. -/
theorem ne_of_resolving_answered {id : Node} {x : Slot} {c : Cardinality}
    (hp : (r.answered graph scopes t).progress? id = some (.resolving x c)) : id ≠ r.id := by
  rintro rfl
  rw [v.done_answered] at hp
  cases hp

theorem mem_openObjects_answered (h : Lawful graph v.t₂) {x : Slot} :
    x ∈ (r.answered graph scopes t).openObjects ↔
      ∃ id c, (r.answered graph scopes t).progress? id = some (.resolving x c) ∧ graph.DeclaresObject id := by
  rw [v.openObjects_answered, List.mem_filter, h.openObjects x, decide_eq_true_eq]
  constructor
  · rintro ⟨⟨id, c, hp, ho⟩, hx⟩
    refine ⟨id, c, (v.progress?_answered ?_).trans hp, ho⟩
    rintro rfl
    rw [v.progress?_t₂] at hp
    cases hp
    exact hx rfl
  · rintro ⟨id, c, hp, ho⟩
    have hid := v.ne_of_resolving_answered hp
    rw [v.progress?_answered hid] at hp
    refine ⟨⟨id, c, hp, ho⟩, ?_⟩
    rintro rfl
    exact hid (h.eq_of_holds ⟨c, InferenceState.mem_memo_of_progress? hp⟩
      ⟨v.early, InferenceState.mem_memo_of_progress? v.progress?_t₂⟩)

theorem lawful (h : Lawful graph v.t₂) : Lawful graph (r.answered graph scopes t) where
  found := fun id x hx => h.found id x (v.holds_answered.1 hx)
  resolved := by
    intro id use' hm
    rw [v.memo_answered] at hm
    rcases List.mem_cons.1 hm with hm | hm
    · cases hm
      exact v.done_answered
    · exact v.keeps_answered.done id use' (h.resolved id use' hm)
  unique := by
    intro id x y hx hy
    exact h.unique id x y (v.holds_answered.1 hx) (v.holds_answered.1 hy)
  held := by
    intro id x hx
    obtain ⟨c, hc, rfl⟩ := h.held id x (v.holds_answered.1 hx)
    by_cases hxs : x = s.slots.length
    · subst hxs
      rw [v.getElem?_slot] at hc
      cases hc
      exact ⟨_, v.getElem?_answered_own, Finding.shape_own.trans v.id_shape⟩
    · obtain ⟨hlt, -⟩ := List.getElem?_eq_some_iff.1 hc
      exact ⟨c, (v.getElem?_answered hlt hxs).trans hc, rfl⟩
  reserved := by
    intro id x c hp
    have hid := v.ne_of_resolving_answered hp
    rw [v.progress?_answered hid] at hp
    refine v.getElem?_answered_of_ne (h.reserved id x c hp) ?_
    rintro ⟨⟩
    exact hid rfl
  item_lt := by
    intro id use' hd
    refine Nat.lt_of_lt_of_le ?_ v.keeps_answered.length
    rcases v.done_answered_cases hd with hd | ⟨rfl, rfl⟩
    · exact h.item_lt id use' hd
    · rw [v.leaves.item]
      exact v.fits.item_lt v.lt_slot fun _ _ => h.lt_of_denotes
  built := by
    intro id use' hd
    rcases v.done_answered_cases hd with hd | ⟨rfl, rfl⟩
    · exact h.exists_built v.keeps_answered hd
    · exact ⟨_, _, _, _, _, v.built⟩
  alias_done := by
    intro a ha
    rw [v.aliases_answered] at ha
    rcases List.mem_append.1 ha with ha | ha
    · exact h.exists_alias_done v.keeps_answered ha
    · obtain ⟨hs, hid, htarget⟩ := Finding.mem_aliases ha
      rw [hid, v.id_shape, hs, htarget]
      refine ⟨use, v.done_answered, v.leaves.item, v.built.holds, ?_⟩
      simpa [ShapesGraph.standIn?, v.shape?_id] using v.fits.isSome_standIn? ha
  aliases_nodup := v.nodup_aliases_answered h
  covered := by
    intro x c hc
    rcases v.slots_answered_cases hc with ⟨-, hc⟩ | ⟨rfl, rfl⟩ | ⟨rfl, hi⟩
    · exact h.exists_covered v.keeps_answered hc
    · rw [Finding.shape_own, v.id_shape]
      exact Or.inl v.built.holds
    · refine Or.inr ⟨use, s.slots.length, v.shape, v.name, v.finding, ?_, hi⟩
      rw [Finding.shape_inner hi, v.id_shape]
      exact v.built
  openObjects := fun _ => v.mem_openObjects_answered h

end Resolution

/-- **Every visit keeps the invariant.** -/
theorem Visit.lawful {s s' : InferenceState} {rs : List Request} {us : List TypeUse}
    (hv : Visit graph strict s rs us s') : Lawful graph s → Lawful graph s' := by
  refine hv.preserves (fun {s r p} _ h => ?_) (fun v h => h.begun v) fun v _ _ _ h => v.lawful h
  obtain ⟨handedOut, heq⟩ := InferenceState.exists_touched (s := s) (r := r) (p := p)
  refine h.of_eq InferenceState.extends_known.keeps ?_ ?_ ?_ ?_ <;> rw [heq] <;> rfl

end ShapeTypes
