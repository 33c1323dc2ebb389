import ShapeTypes.Name
import ShapeTypes.Proofs.Lookup

/-!
# Names do not depend on what was named before

* `CurieRecord.Adds` — a record has the curies of another one and some more, each once;
* `Name.ofShape`, `Name.ofIri` — the candidates that a prefix table alone gives;
* `NameBook.Grows`, `NameBook.nameIris` — shapes keep the names they have; naming several bare IRIs;
* `NameBook.Names` — a book holds the names of some shapes and some bare IRIs, and nothing else;
  `Names.nameShape`, `Names.nameIri` — **naming keeps it so**, and gives the name of the table;
* `Names.resolvedWithRung_eq` — **books that name the same resolve every name alike.**
-/

namespace ShapeTypes

open Rdf

/-! ## Curies -/

namespace CurieRecord

/-- A record has the curies of another one and some more, each once if that one did. -/
structure Adds (r r' : CurieRecord) (curies : List Curie) : Prop where
  table : r'.table = r.table
  nodup : r.made.Nodup → r'.made.Nodup
  made : ∀ c, c ∈ r'.made ↔ c ∈ curies ∨ c ∈ r.made

variable {r r' r'' : CurieRecord}

theorem Adds.refl (r : CurieRecord) : r.Adds r [] := ⟨rfl, fun h => h, fun c => by simp⟩

theorem Adds.trans {cs cs' : List Curie} (h : r.Adds r' cs) (h' : r'.Adds r'' cs') :
    r.Adds r'' (cs ++ cs') where
  table := h'.table.trans h.table
  nodup := fun hd => h'.nodup (h.nodup hd)
  made := fun c => by
    rw [h'.made, h.made, List.mem_append, or_left_comm, or_assoc]

theorem adds_record (c : Curie) : r.Adds (r.record c) [c] where
  table := by
    unfold record
    split <;> rfl
  nodup := by
    intro hd
    unfold record
    split
    · exact hd
    · rename_i hc
      exact List.nodup_cons.2 ⟨hc, hd⟩
  made := fun d => by rw [mem_record, List.mem_singleton]

theorem adds_create (i : Iri) : r.Adds (r.create i).2 (r.curie? i).toList := by
  unfold create
  cases r.curie? i with
  | none => exact .refl r
  | some c => exact adds_record c

theorem fst_create (i : Iri) : (r.create i).1 = r.curie? i := by
  unfold create
  cases r.curie? i <;> rfl

/-- The number of labels of a reference depends on the curies made alone, not on their order. -/
theorem labelCount_eq (hd : r.made.Nodup) (hd' : r'.made.Nodup) (h : ∀ c, c ∈ r.made ↔ c ∈ r'.made)
    (reference : String) : r.labelCount reference = r'.labelCount reference :=
  List.Perm.countP_eq _ ((List.perm_ext_iff_of_nodup hd hd').2 h)

end CurieRecord

/-! ## Names of a table -/

def PrefixTable.curie? (table : PrefixTable) (i : Iri) : Option Curie := CurieRecord.curie? ⟨table, []⟩ i

def Name.ofShape (table : PrefixTable) (s : Shape) : Name := (NameBook.build ⟨table, []⟩ s).1

/-- The name that a table gives a bare IRI. -/
def Name.ofIri (table : PrefixTable) (i : Iri) : Name := (NameBook.buildIri ⟨table, []⟩ i).1

/-- The curies that go with the name of a shape: those of its path and of its identifier. -/
def Shape.curies (table : PrefixTable) (s : Shape) : List Curie :=
  ((s.property?.bind (·.path.predicate?)).bind table.curie?).toList ++ (s.id.iri?.bind table.curie?).toList

namespace NameBook

variable {r r' : CurieRecord}

theorem adds_shrink (i : Option Iri) : r.Adds (shrink r i).2 (i.bind r.table.curie?).toList := by
  cases i with
  | none => exact .refl r
  | some i => exact CurieRecord.adds_create i

theorem fst_shrink (i : Option Iri) : (shrink r i).1 = i.bind r.table.curie? := by
  cases i with
  | none => rfl
  | some i => exact CurieRecord.fst_create i

theorem predicate?_bind (s : Shape) :
    (s.property?.map (·.path)).bind (·.predicate?) = s.property?.bind (·.path.predicate?) := by
  cases s.property? <;> rfl

/-- **The name of a shape depends on the table alone.** -/
theorem fst_build (s : Shape) : (build r s).1 = .ofShape r.table s := by
  have hfirst := (adds_shrink (r := r) ((s.property?.map (·.path)).bind (·.predicate?))).table
  simp only [build, Name.ofShape, fst_shrink, hfirst, (adds_shrink (r := ⟨r.table, []⟩) _).table]

theorem adds_build (s : Shape) : r.Adds (build r s).2 (s.curies r.table) := by
  have hfirst := adds_shrink (r := r) ((s.property?.map (·.path)).bind (·.predicate?))
  have hsecond := adds_shrink (r := (shrink r ((s.property?.map (·.path)).bind (·.predicate?))).2) s.id.iri?
  have hboth := hfirst.trans hsecond
  rw [hfirst.table] at hboth
  rw [Shape.curies, ← predicate?_bind]
  exact hboth

/-- **The name of a bare IRI depends on the table alone.** -/
theorem fst_buildIri (i : Iri) : (buildIri r i).1 = .ofIri r.table i := by
  simp only [buildIri, Name.ofIri, CurieRecord.fst_create]
  rfl

theorem adds_buildIri (i : Iri) : r.Adds (buildIri r i).2 (r.table.curie? i).toList :=
  CurieRecord.adds_create i

/-! ## Books -/

/-- Shapes that have a name in the first book have it in the second one. -/
def Grows (b b' : NameBook) : Prop :=
  ∀ id n, b.shapes.lookup id = some n → b'.shapes.lookup id = some n

theorem Grows.trans {b b' b'' : NameBook} (h : b.Grows b') (h' : b'.Grows b'') : b.Grows b'' :=
  fun id n hl => h' id n (h id n hl)

theorem grows_nameShape (b : NameBook) (s : Shape) : b.Grows (b.nameShape s).2 := by
  intro id n hl
  unfold nameShape
  cases hs : b.shapes.lookup s.id with
  | some m => exact hl
  | none =>
      have hne : id ≠ s.id := by
        rintro rfl
        rw [hs] at hl
        cases hl
      show List.lookup id ((s.id, _) :: b.shapes) = some n
      rw [lookup_cons_of_ne hne]
      exact hl

theorem lookup_nameShape (b : NameBook) (s : Shape) :
    (b.nameShape s).2.shapes.lookup s.id = some (b.nameShape s).1 := by
  unfold nameShape
  cases hs : b.shapes.lookup s.id with
  | some m => exact hs
  | none => exact List.lookup_cons_self

theorem shapes_nameIri (b : NameBook) (i : Iri) : (b.nameIri i).2.shapes = b.shapes := by
  unfold nameIri
  cases b.iris.lookup i <;> rfl

/-- Names bare IRIs one after the other. -/
def nameIris (b : NameBook) : List Iri → List (Iri × Name) × NameBook
  | [] => ([], b)
  | i :: iris =>
    let (members, names) := (b.nameIri i).2.nameIris iris
    ((i, (b.nameIri i).1) :: members, names)

theorem shapes_nameIris (b : NameBook) (iris : List Iri) : (b.nameIris iris).2.shapes = b.shapes := by
  induction iris generalizing b with
  | nil => rfl
  | cons i iris ih => exact (ih _).trans (shapes_nameIri b i)

theorem map_fst_nameIris (b : NameBook) (iris : List Iri) : (b.nameIris iris).1.map (·.1) = iris := by
  induction iris generalizing b with
  | nil => rfl
  | cons i iris ih => exact congrArg (i :: ·) (ih _)

/-- A book holds the names of some shapes and some bare IRIs, and the curies that go with these. -/
structure Names (table : PrefixTable) (shapes : Shape → Prop) (iris : Iri → Prop) (b : NameBook) :
    Prop where
  table_eq : b.record.table = table
  shape : ∀ s, shapes s → b.shapes.lookup s.id = some (.ofShape table s)
  of_shape : ∀ id n, b.shapes.lookup id = some n → ∃ s, shapes s ∧ s.id = id
  iri : ∀ i, iris i → b.iris.lookup i = some (.ofIri table i)
  of_iri : ∀ i n, b.iris.lookup i = some n → iris i
  nodup : b.record.made.Nodup
  made : ∀ c, c ∈ b.record.made ↔ (∃ s, shapes s ∧ c ∈ s.curies table) ∨
    ∃ i, iris i ∧ table.curie? i = some c

namespace Names

variable {table : PrefixTable} {shapes : Shape → Prop} {iris : Iri → Prop} {b b' : NameBook}

theorem ofTable (table : PrefixTable) : (NameBook.ofTable table).Names table (fun _ => False) fun _ => False where
  table_eq := rfl
  shape := fun _ h => h.elim
  of_shape := fun id n h => by simp [NameBook.ofTable] at h
  iri := fun _ h => h.elim
  of_iri := fun i n h => by simp [NameBook.ofTable] at h
  nodup := List.nodup_nil
  made := fun c => by simp [NameBook.ofTable]

theorem congr {shapes' : Shape → Prop} {iris' : Iri → Prop} (h : b.Names table shapes iris)
    (hs : ∀ s, shapes' s ↔ shapes s) (hi : ∀ i, iris' i ↔ iris i) : b.Names table shapes' iris' := by
  obtain rfl : shapes' = shapes := funext fun s => propext (hs s)
  obtain rfl : iris' = iris := funext fun i => propext (hi i)
  exact h

theorem nameShape_of_mem (h : b.Names table shapes iris) {s : Shape} (hs : shapes s) :
    b.nameShape s = (.ofShape table s, b) := by
  rw [NameBook.nameShape, h.shape s hs]

theorem nameShape_of_not_mem (h : b.Names table shapes iris) {s : Shape} (hs : ∀ s', shapes s' → s'.id ≠ s.id) :
    (b.nameShape s).1 = .ofShape table s ∧
      (b.nameShape s).2.Names table (fun s' => s' = s ∨ shapes s') iris := by
  have hnone : b.shapes.lookup s.id = none := by
    cases hl : b.shapes.lookup s.id with
    | none => rfl
    | some n =>
        obtain ⟨s', hs', hid⟩ := h.of_shape s.id n hl
        exact absurd hid (hs s' hs')
  have hadds := adds_build (r := b.record) s
  rw [NameBook.nameShape, hnone]
  refine ⟨(fst_build s).trans (by rw [h.table_eq]), ?_⟩
  constructor
  case table_eq => exact hadds.table.trans h.table_eq
  case shape =>
    rintro s' (rfl | hs')
    · show List.lookup s'.id ((s'.id, _) :: b.shapes) = _
      rw [List.lookup_cons_self, fst_build, h.table_eq]
    · show List.lookup s'.id ((s.id, _) :: b.shapes) = _
      rw [lookup_cons_of_ne (hs s' hs')]
      exact h.shape s' hs'
  case of_shape =>
    intro id n hl
    have hl' : List.lookup id ((s.id, (build b.record s).1) :: b.shapes) = some n := hl
    by_cases hid : id = s.id
    · exact ⟨s, Or.inl rfl, hid.symm⟩
    · rw [lookup_cons_of_ne hid] at hl'
      obtain ⟨s', hs', heq⟩ := h.of_shape id n hl'
      exact ⟨s', Or.inr hs', heq⟩
  case iri => exact h.iri
  case of_iri => exact h.of_iri
  case nodup => exact hadds.nodup h.nodup
  case made =>
    intro c
    simp only [hadds.made, h.made, h.table_eq, exists_eq_or_imp, or_assoc]

/-- **Naming a shape** that is named already, or whose identifier is not. -/
theorem nameShape (h : b.Names table shapes iris) {s : Shape} (hs : ∀ s', shapes s' → s'.id = s.id → s' = s) :
    (b.nameShape s).1 = .ofShape table s ∧
      (b.nameShape s).2.Names table (fun s' => s' = s ∨ shapes s') iris := by
  by_cases hmem : shapes s
  · rw [h.nameShape_of_mem hmem]
    refine ⟨rfl, h.congr (fun s' => or_iff_right_of_imp ?_) fun _ => Iff.rfl⟩
    rintro rfl
    exact hmem
  · exact h.nameShape_of_not_mem fun s' hs' hid => hmem (hs s' hs' hid ▸ hs')

theorem nameIri_of_not_mem (h : b.Names table shapes iris) {i : Iri} (hi : ¬ iris i) :
    (b.nameIri i).1 = .ofIri table i ∧ (b.nameIri i).2.Names table shapes fun i' => i' = i ∨ iris i' := by
  have hnone : b.iris.lookup i = none := by
    cases hl : b.iris.lookup i with
    | none => rfl
    | some n => exact absurd (h.of_iri i n hl) hi
  have hadds := adds_buildIri (r := b.record) i
  rw [NameBook.nameIri, hnone]
  refine ⟨(fst_buildIri i).trans (by rw [h.table_eq]), ?_⟩
  constructor
  case table_eq => exact hadds.table.trans h.table_eq
  case shape => exact h.shape
  case of_shape => exact h.of_shape
  case iri =>
    rintro i' (rfl | hi')
    · show List.lookup i' ((i', _) :: b.iris) = _
      rw [List.lookup_cons_self, fst_buildIri, h.table_eq]
    · have hne : i' ≠ i := fun heq => hi (heq ▸ hi')
      show List.lookup i' ((i, _) :: b.iris) = _
      rw [lookup_cons_of_ne hne]
      exact h.iri i' hi'
  case of_iri =>
    intro i' n hl
    have hl' : List.lookup i' ((i, (buildIri b.record i).1) :: b.iris) = some n := hl
    by_cases heq : i' = i
    · exact Or.inl heq
    · rw [lookup_cons_of_ne heq] at hl'
      exact Or.inr (h.of_iri i' n hl')
  case nodup => exact hadds.nodup h.nodup
  case made =>
    intro c
    simp only [hadds.made, h.made, h.table_eq, Option.mem_toList, exists_eq_or_imp, or_left_comm]

/-- **Naming a bare IRI.** -/
theorem nameIri (h : b.Names table shapes iris) (i : Iri) : (b.nameIri i).1 = .ofIri table i ∧
    (b.nameIri i).2.Names table shapes fun i' => i' = i ∨ iris i' := by
  by_cases hmem : iris i
  · rw [NameBook.nameIri, h.iri i hmem]
    refine ⟨rfl, h.congr (fun _ => Iff.rfl) fun i' => or_iff_right_of_imp ?_⟩
    rintro rfl
    exact hmem
  · exact h.nameIri_of_not_mem hmem

/-- **Naming several bare IRIs.** -/
theorem nameIris (h : b.Names table shapes iris) (l : List Iri) :
    (b.nameIris l).1 = l.map (fun i => (i, .ofIri table i)) ∧
      (b.nameIris l).2.Names table shapes fun i => i ∈ l ∨ iris i := by
  induction l generalizing b iris with
  | nil => exact ⟨rfl, h.congr (fun _ => Iff.rfl) fun i => by simp⟩
  | cons i l ih =>
      obtain ⟨hname, hone⟩ := h.nameIri i
      obtain ⟨hmembers, hall⟩ := ih hone
      refine ⟨?_, hall.congr (fun _ => Iff.rfl) fun i' => ?_⟩
      · show (i, (b.nameIri i).1) :: _ = _
        rw [hname, hmembers]
        rfl
      · rw [List.mem_cons, or_assoc, or_left_comm]

theorem labelCount_eq (h : b.Names table shapes iris) (h' : b'.Names table shapes iris) (reference : String) :
    b.record.labelCount reference = b'.record.labelCount reference :=
  CurieRecord.labelCount_eq h.nodup h'.nodup (fun c => (h.made c).trans (h'.made c).symm) reference

/-- Books that name the same give every candidate the same value. -/
theorem value?_eq (h : b.Names table shapes iris) (h' : b'.Names table shapes iris) (c : Candidate) :
    c.value? b.record = c.value? b'.record := by
  cases c with
  | fixed => rfl
  | localPart rung curie =>
      rw [Candidate.value?, Candidate.value?, CurieRecord.isUnique, CurieRecord.isUnique, h.labelCount_eq h']
  | compact => rfl

/-- **Books that name the same resolve every name alike.** -/
theorem resolvedWithRung_eq (h : b.Names table shapes iris) (h' : b'.Names table shapes iris) (n : Name) :
    n.resolvedWithRung b.record = n.resolvedWithRung b'.record := by
  unfold Name.resolvedWithRung
  simp only [h.value?_eq h']

theorem offers_eq (h : b.Names table shapes iris) (h' : b'.Names table shapes iris) (n : Name) :
    n.offers b.record = n.offers b'.record := by
  unfold Name.offers
  simp only [h.value?_eq h']

end Names

end NameBook

end ShapeTypes
