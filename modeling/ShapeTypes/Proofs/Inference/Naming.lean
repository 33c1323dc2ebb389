import ShapeTypes.Proofs.Inference.Lawful
import ShapeTypes.Proofs.Name

/-!
# What inference names

* `InferenceState.Knows`, `InferenceState.Enumerates` — the shapes that were entered; the members of the
  enumerations in the slots;
* `ItemType.NamedBy` — a type has the names that a prefix table gives;
* `WellNamed` — the shapes that were entered and the members of enumerations are what was named, and all types
  have the names of the table; `Visit.wellNamed` — **every visit keeps it so.**
-/

namespace ShapeTypes

open Rdf

variable {graph : ShapesGraph} {strict : Bool} {table : PrefixTable}

/-- The properties of an object; other types have none. -/
def Body.properties : Body → List Property
  | .object o => o.properties
  | _ => []

/-- A type has the names that a table gives: to its shape, to its properties, and to the members of an
enumeration. -/
structure ItemType.NamedBy (graph : ShapesGraph) (table : PrefixTable) (t : ItemType) : Prop where
  name : ∃ shape, graph.shape? t.shape = some shape ∧ t.name = .ofShape table shape
  properties : ∀ p ∈ t.body.properties,
    ∃ shape, graph.shape? p.shape = some shape ∧ p.name = .ofShape table shape
  members : t.body.members = t.body.iris.map fun i => (i, .ofIri table i)

namespace InferenceState

/-- A shape of the graph that was entered. -/
def Knows (graph : ShapesGraph) (s : InferenceState) (shape : Shape) : Prop :=
  graph.shape? shape.id = some shape ∧ ∃ p, s.progress? shape.id = some p

/-- A member of an enumeration in a slot. -/
def Enumerates (s : InferenceState) (i : Iri) : Prop :=
  ∃ (x : Slot) (t : ItemType), s.slots[x]? = some (.type t) ∧ i ∈ t.body.iris

end InferenceState

/-- **What was named so far**: the shapes that were entered and the members of enumerations. All types have
the names of the table. -/
structure WellNamed (graph : ShapesGraph) (table : PrefixTable) (s : InferenceState) : Prop where
  book : s.names.Names table (s.Knows graph) s.Enumerates
  types : ∀ (x : Slot) (t : ItemType), s.slots[x]? = some (.type t) → t.NamedBy graph table

theorem ShapesGraph.eq_of_shape? {shape shape' : Shape} (h : graph.shape? shape.id = some shape)
    (h' : graph.shape? shape'.id = some shape') (hid : shape.id = shape'.id) : shape = shape' := by
  rw [hid, h'] at h
  exact (Option.some.inj h).symm

/-! ## What a finding adds -/

namespace Finding

variable {finding : Finding} {shape : Shape} {name : Name} {next : Slot} {t : ItemType}

/-- The members of the enumeration that a shape is found to be. -/
def iris : Finding → List Iri
  | .type body => body.iris
  | .standsFor _ => []

/-- The slots of a shape hold what it was found to be, or a list. -/
theorem type_cases (h : .type t = finding.own shape name next ∨ .type t ∈ finding.inner shape name) :
    t.shape = shape.id ∧ t.name = name ∧ (finding = .type t.body ∨ ∃ item, t.body = .list item) := by
  unfold own inner at h
  cases finding with
  | type body =>
      cases hl : shape.isList with
      | false =>
          simp only [hl, List.not_mem_nil, or_false] at h
          cases h
          exact ⟨rfl, rfl, Or.inl rfl⟩
      | true =>
          simp only [hl, List.mem_singleton] at h
          rcases h with h | h
          · cases h
            exact ⟨rfl, rfl, Or.inr ⟨next, rfl⟩⟩
          · cases h
            exact ⟨rfl, rfl, Or.inl rfl⟩
  | standsFor target =>
      cases hl : shape.isList with
      | false =>
          simp only [hl, List.not_mem_nil, or_false] at h
          cases h
      | true =>
          simp only [hl, List.not_mem_nil, or_false] at h
          cases h
          exact ⟨rfl, rfl, Or.inr ⟨target, rfl⟩⟩

theorem exists_type {body : Body} : .type (shape.itemType name body) = (Finding.type body).own shape name next ∨
    .type (shape.itemType name body) ∈ (Finding.type body).inner shape name := by
  unfold own inner
  cases shape.isList with
  | false => exact Or.inl rfl
  | true => exact Or.inr (List.mem_singleton_self _)

end Finding

/-- Finding what a shape is names the members of its enumeration. -/
theorem Finds.names {shape : Shape} {s t t' : InferenceState} {refs props : List TypeUse} {finding : Finding}
    (h : Finds graph shape s refs t props finding t') {shapes : Shape → Prop} {iris : Iri → Prop}
    (hn : t.names.Names table shapes iris) :
    t'.names.Names table shapes fun i => i ∈ finding.iris ∨ iris i := by
  have hnone : finding.iris = [] → t'.names = t.names →
      t'.names.Names table shapes fun i => i ∈ finding.iris ∨ iris i := by
    intro hiris heq
    rw [heq]
    exact hn.congr (fun _ => Iff.rfl) fun i => by simp [hiris]
  cases h with
  | composite => exact hnone rfl rfl
  | object => exact hnone rfl rfl
  | reference => exact hnone rfl rfl
  | value _ _ _ hbody =>
      rw [(gives_valueBody hbody).2.2]
      exact (hn.nameIris _).2

/-- What a shape is found to be has the names of the table, but for its own. -/
theorem Finds.namedBy {shape : Shape} {s t t' : InferenceState} {refs props : List TypeUse} {body : Body}
    (h : Finds graph shape s refs t props (.type body) t') {iris : Iri → Prop}
    (hn : t.names.Names table (t.Knows graph) iris) :
    (∀ p ∈ body.properties, ∃ shape, graph.shape? p.shape = some shape ∧ p.name = .ofShape table shape) ∧
      body.members = body.iris.map fun i => (i, .ofIri table i) := by
  cases h with
  | composite => exact ⟨by simp [Body.properties], rfl⟩
  | object _ _ _ hnames =>
      refine ⟨fun p hp => ?_, rfl⟩
      have hlookup := hnames p hp
      obtain ⟨shape', hknown, hid⟩ := hn.of_shape _ _ hlookup
      rw [← hid, hn.shape shape' hknown] at hlookup
      exact ⟨shape', hid ▸ hknown.1, (Option.some.inj hlookup).symm⟩
  | value _ _ _ hbody =>
      obtain ⟨hvalue, hmembers, -⟩ := gives_valueBody hbody
      refine ⟨fun p hp => ?_, hmembers.trans (hn.nameIris body.iris).1⟩
      cases body with
      | object => cases hvalue
      | _ => cases hp

namespace WellNamed

variable {s : InferenceState}

/-- **The name of a shape** that is entered, or was entered before. -/
theorem nameShape (h : WellNamed graph table s) {shape : Shape} (hs : graph.shape? shape.id = some shape) :
    (s.names.nameShape shape).1 = .ofShape table shape ∧
      (s.names.nameShape shape).2.Names table (fun s' => s' = shape ∨ s.Knows graph s') s.Enumerates :=
  h.book.nameShape fun _ hknown hid => ShapesGraph.eq_of_shape? hknown.1 hs hid

theorem named_eq {names : NameBook} {shapes : Shape → Prop} {iris : Iri → Prop} {r : Request}
    (h : names.Names table shapes iris) (hr : ∀ shape, graph.shape? r.id = some shape → shapes shape) :
    r.named graph names = names := by
  unfold Request.named
  split
  · rename_i shape _ hs
    rw [h.nameShape_of_mem (hr shape hs)]
  · rfl

theorem empty : WellNamed graph table { names := .ofTable table } where
  book := (NameBook.Names.ofTable table).congr (fun shape => by simp [InferenceState.Knows, InferenceState.progress?])
    fun i => by simp [InferenceState.Enumerates]
  types := fun x t h => by simp at h

theorem known {r : Request} {p : Progress} (h : WellNamed graph table s) (hp : s.progress? r.id = some p) :
    WellNamed graph table (r.answered graph s.scopes (s.touched r p)) := by
  have hnamed : r.named graph s.names = s.names := by
    refine named_eq h.book fun shape hs => ?_
    have hid := (ShapesGraph.shape?_eq_some hs).2
    exact ⟨hid ▸ hs, p, hid ▸ hp⟩
  obtain ⟨handedOut, heq⟩ := InferenceState.exists_touched (s := s) (r := r) (p := p)
  rw [heq, Request.answered]
  simp only [hnamed]
  exact ⟨h.book, h.types⟩

theorem begun {r : Request} (h : WellNamed graph table s) (v : Entering graph s r) :
    WellNamed graph table v.begun := by
  have hshape : graph.shape? v.shape.id = some v.shape := v.id_shape ▸ v.shape?_id
  have htype : ∀ {x : Slot} {t : ItemType}, v.begun.slots[x]? = some (.type t) ↔ s.slots[x]? = some (.type t) := by
    intro x t
    constructor
    · intro hx
      rcases v.slots_begun_cases hx with hx | ⟨-, hx⟩
      · exact hx
      · cases hx
    · exact v.getElem?_begun
  refine ⟨(h.nameShape hshape).2.congr (fun shape => ?_) fun i => ?_, fun x t hx => h.types x t (htype.1 hx)⟩
  · constructor
    · rintro ⟨hs, p, hp⟩
      rw [InferenceState.progress?_begun] at hp
      split at hp
      · rename_i hid
        exact Or.inl (ShapesGraph.eq_of_shape? hs hshape hid)
      · exact Or.inr ⟨hs, p, hp⟩
    · rintro (rfl | ⟨hs, p, hp⟩)
      · exact ⟨hshape, _, by rw [InferenceState.progress?_begun, if_pos rfl]⟩
      · exact ⟨hs, p, v.progress?_begun_of_some hp⟩
  · simp only [InferenceState.Enumerates, htype]

end WellNamed

namespace Resolution

variable {s t : InferenceState} {r : Request} {use : TypeUse} (v : Resolution graph strict s r use t)
variable {scopes : List ConstraintStack}

/-- What the slots hold once the shape is left: the types from before, and those of the shape. -/
theorem type_answered_iff {x : Slot} {u : ItemType} : (r.answered graph scopes t).slots[x]? = some (.type u) ↔
    v.t₂.slots[x]? = some (.type u) ∨
      x = s.slots.length ∧ .type u = v.finding.own v.shape v.name v.t₂.slots.length ∨
        x = v.t₂.slots.length ∧ .type u ∈ v.finding.inner v.shape v.name := by
  constructor
  · intro hx
    rcases v.slots_answered_cases hx with ⟨-, hx⟩ | hx | hx
    · exact Or.inl hx
    · exact Or.inr (Or.inl hx)
    · exact Or.inr (Or.inr hx)
  · rintro (hx | ⟨rfl, hown⟩ | ⟨rfl, hinner⟩)
    · exact v.getElem?_answered_of_ne hx nofun
    · rw [v.getElem?_answered_own, hown]
    · rw [v.getElem?_answered_inner (Nat.le_refl _), Nat.sub_self, Finding.getElem?_inner]
      exact ⟨rfl, hinner⟩

theorem enumerates_answered_iff {i : Iri} :
    (r.answered graph scopes t).Enumerates i ↔ i ∈ v.finding.iris ∨ v.t₂.Enumerates i := by
  constructor
  · rintro ⟨x, u, hx, hi⟩
    rcases v.type_answered_iff.1 hx with hx | hx
    · exact Or.inr ⟨x, u, hx, hi⟩
    · have hu : .type u = v.finding.own v.shape v.name v.t₂.slots.length ∨
          .type u ∈ v.finding.inner v.shape v.name := hx.imp And.right And.right
      rcases (Finding.type_cases hu).2.2 with hf | ⟨item, hitem⟩
      · rw [hf]
        exact Or.inl hi
      · rw [hitem] at hi
        cases hi
  · rintro (hi | ⟨x, u, hx, hi⟩)
    · cases hf : v.finding with
      | standsFor target =>
          rw [hf] at hi
          cases hi
      | type body =>
          rw [hf] at hi
          have hplace : .type (v.shape.itemType v.name body) = v.finding.own v.shape v.name v.t₂.slots.length ∨
              .type (v.shape.itemType v.name body) ∈ v.finding.inner v.shape v.name := by
            rw [hf]
            exact Finding.exists_type
          rcases hplace with hown | hinner
          · exact ⟨_, _, v.type_answered_iff.2 (Or.inr (Or.inl ⟨rfl, hown⟩)), hi⟩
          · exact ⟨_, _, v.type_answered_iff.2 (Or.inr (Or.inr ⟨rfl, hinner⟩)), hi⟩
    · exact ⟨x, u, v.type_answered_iff.2 (Or.inl hx), hi⟩

theorem knows_answered_iff {shape : Shape} :
    (r.answered graph scopes t).Knows graph shape ↔ v.t₂.Knows graph shape := by
  refine and_congr_right fun _ => ?_
  by_cases hid : shape.id = r.id
  · rw [hid]
    exact iff_of_true ⟨_, v.done_answered⟩ ⟨_, v.progress?_t₂⟩
  · rw [v.progress?_answered hid]

/-- **What was named once the shape is left.** -/
theorem wellNamed (hs : WellNamed graph table s) (h₂ : WellNamed graph table v.t₂) :
    WellNamed graph table (r.answered graph scopes t) where
  book := by
    have hfound := v.finds.names h₂.book
    have hnamed : r.named graph t.names = v.t₃.names := by
      rw [v.leaves.names_eq]
      refine WellNamed.named_eq hfound fun shape hshape => ?_
      have hid := (ShapesGraph.shape?_eq_some hshape).2
      exact ⟨hid ▸ hshape, _, hid ▸ v.progress?_t₂⟩
    show (r.named graph t.names).Names table _ _
    rw [hnamed]
    exact hfound.congr (fun _ => v.knows_answered_iff) fun _ => v.enumerates_answered_iff
  types := by
    intro x u hx
    rcases v.type_answered_iff.1 hx with hx | hx
    · exact h₂.types x u hx
    · have hu : .type u = v.finding.own v.shape v.name v.t₂.slots.length ∨
          .type u ∈ v.finding.inner v.shape v.name := hx.imp And.right And.right
      obtain ⟨hid, hname, hbody⟩ := Finding.type_cases hu
      have hshape : graph.shape? v.shape.id = some v.shape := v.id_shape ▸ v.shape?_id
      have hown : ∃ shape, graph.shape? u.shape = some shape ∧ u.name = .ofShape table shape :=
        ⟨v.shape, hid ▸ hshape, hname.trans (hs.nameShape hshape).1⟩
      rcases hbody with hf | ⟨item, hitem⟩
      · have hfinds := v.finds
        rw [hf] at hfinds
        obtain ⟨hproperties, hmembers⟩ := hfinds.namedBy h₂.book
        exact ⟨hown, hproperties, hmembers⟩
      · exact ⟨hown, by simp [hitem, Body.properties], by simp [hitem, Body.members, Body.iris]⟩

end Resolution

/-- **Every visit names what it enters, and the members of its enumerations, as the table does.** -/
theorem Visit.wellNamed {s s' : InferenceState} {rs : List Request} {us : List TypeUse}
    (hv : Visit graph strict s rs us s') : WellNamed graph table s → WellNamed graph table s' :=
  hv.preserves (fun hp h => h.known hp) (fun v h => h.begun v) fun v hs _ _ h₂ => v.wellNamed hs h₂

end ShapeTypes
