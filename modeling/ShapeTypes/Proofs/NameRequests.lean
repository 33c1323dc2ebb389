import ShapeTypes.Proofs.Name

/-!
# Names do not depend on the order of requests

A name keeps curies, and these are counted in the record that all names share: what a name resolves to is settled
only when every request is served. By then it depends on which names were asked for, and on nothing else.

* `NameRequest`, `NameBook.give` — a request for a name, and how it is served;
* `NameBook.serve` — serves requests one after the other;
* `Names.give`, `Names.serve` — one request, and all of them, **give the name of the table** and leave a book that
  names what was asked for;
* `serve_order_independent` — **so the order of requests and their repetitions do not matter.**
-/

namespace ShapeTypes

open Rdf

/-- A request for the name of a shape or of a bare IRI. -/
inductive NameRequest where
  | shape (s : Shape)
  | iri (i : Iri)

/-- The name that a table gives. -/
def NameRequest.name (table : PrefixTable) : NameRequest → Name
  | shape s => .ofShape table s
  | iri i => .ofIri table i

namespace NameBook

def give (b : NameBook) : NameRequest → Name × NameBook
  | .shape s => b.nameShape s
  | .iri i => b.nameIri i

/-- Serves requests one after the other, and gives each with its name. -/
def serve (b : NameBook) : List NameRequest → List (NameRequest × Name) × NameBook
  | [] => ([], b)
  | r :: rs =>
    let (name, b) := b.give r
    let (served, b) := b.serve rs
    ((r, name) :: served, b)

namespace Names

variable {table : PrefixTable} {shapes : Shape → Prop} {iris : Iri → Prop} {b : NameBook}

/-- **Serving one request.** -/
theorem give (h : b.Names table shapes iris) (r : NameRequest)
    (hr : ∀ s t, r = .shape s → shapes t → t.id = s.id → t = s) :
    (b.give r).1 = r.name table ∧
      (b.give r).2.Names table (fun s => .shape s = r ∨ shapes s) fun i => .iri i = r ∨ iris i := by
  cases r with
  | shape s =>
      obtain ⟨hname, hnext⟩ := h.nameShape fun t => hr s t rfl
      exact ⟨hname, hnext.congr (fun t => by simp) fun i => by simp⟩
  | iri i =>
      obtain ⟨hname, hnext⟩ := h.nameIri i
      exact ⟨hname, hnext.congr (fun s => by simp) fun j => by simp⟩

/-- **Serving several requests**, if no two different shapes with one identifier are among them and those that are
named already. -/
theorem serve (h : b.Names table shapes iris) (rs : List NameRequest)
    (hrs : ∀ s t, .shape s ∈ rs ∨ shapes s → .shape t ∈ rs ∨ shapes t → s.id = t.id → s = t) :
    (b.serve rs).1 = rs.map (fun r => (r, r.name table)) ∧
      (b.serve rs).2.Names table (fun s => .shape s ∈ rs ∨ shapes s) fun i => .iri i ∈ rs ∨ iris i := by
  induction rs generalizing b shapes iris with
  | nil => exact ⟨rfl, h.congr (fun s => by simp) fun i => by simp⟩
  | cons r rs ih =>
      have hshape : ∀ s, NameRequest.shape s ∈ r :: rs ∨ shapes s ↔
          NameRequest.shape s ∈ rs ∨ NameRequest.shape s = r ∨ shapes s := fun s => by
        rw [List.mem_cons, or_assoc, or_left_comm]
      have hiri : ∀ i, NameRequest.iri i ∈ r :: rs ∨ iris i ↔
          NameRequest.iri i ∈ rs ∨ NameRequest.iri i = r ∨ iris i := fun i => by
        rw [List.mem_cons, or_assoc, or_left_comm]
      simp only [hshape] at hrs
      obtain ⟨hname, hone⟩ := h.give r fun s t hs ht => hrs t s (.inr (.inr ht)) (.inr (.inl hs.symm))
      obtain ⟨hnames, hall⟩ := ih hone hrs
      refine ⟨?_, hall.congr hshape hiri⟩
      calc (r, (b.give r).1) :: ((b.give r).2.serve rs).1
        _ = (r, r.name table) :: rs.map (fun r => (r, r.name table)) := by rw [hname, hnames]

end Names

/-- Two lists of requests get the same names: all requests are served, the names of a request are one name that
offers and resolves to the same in the end, and so every reference has the same number of labels. -/
structure ServedAlike (table : PrefixTable) (rs rs' : List NameRequest) : Prop where
  served : ((ofTable table).serve rs).1.map (·.1) = rs
  served' : ((ofTable table).serve rs').1.map (·.1) = rs'
  name_eq : ∀ r n n', (r, n) ∈ ((ofTable table).serve rs).1 → (r, n') ∈ ((ofTable table).serve rs').1 → n = n'
  offers_eq : ∀ r n, (r, n) ∈ ((ofTable table).serve rs).1 →
    n.offers ((ofTable table).serve rs).2.record = n.offers ((ofTable table).serve rs').2.record
  resolved_eq : ∀ r n, (r, n) ∈ ((ofTable table).serve rs).1 →
    n.resolved ((ofTable table).serve rs).2.record = n.resolved ((ofTable table).serve rs').2.record
  resolvedWithRung_eq : ∀ r n, (r, n) ∈ ((ofTable table).serve rs).1 →
    n.resolvedWithRung ((ofTable table).serve rs).2.record = n.resolvedWithRung ((ofTable table).serve rs').2.record
  labelCount_eq : ∀ reference, ((ofTable table).serve rs).2.record.labelCount reference =
    ((ofTable table).serve rs').2.record.labelCount reference

/-- **The order of requests and their repetitions do not matter**, once all of them are served. -/
theorem serve_order_independent (table : PrefixTable) {rs rs' : List NameRequest} (hsame : ∀ r, r ∈ rs ↔ r ∈ rs')
    (hrs : ∀ s t, .shape s ∈ rs → .shape t ∈ rs → s.id = t.id → s = t) :
    ServedAlike table rs rs' := by
  obtain ⟨hserved, hbook⟩ := (Names.ofTable table).serve rs (by simpa only [or_false] using hrs)
  obtain ⟨hserved', hbook'⟩ := (Names.ofTable table).serve rs' (by simpa only [← hsame, or_false] using hrs)
  simp only [← hsame] at hbook'
  constructor
  case served =>
    rw [hserved, List.map_map]
    exact List.map_id _
  case served' =>
    rw [hserved', List.map_map]
    exact List.map_id _
  case name_eq =>
    intro r n n' hn hn'
    rw [hserved, List.mem_map] at hn
    rw [hserved', List.mem_map] at hn'
    obtain ⟨_, -, ⟨⟩⟩ := hn
    obtain ⟨_, -, ⟨⟩⟩ := hn'
    rfl
  case offers_eq => exact fun _ n _ => hbook.offers_eq hbook' n
  case resolved_eq => exact fun _ n _ => congrArg Prod.snd (hbook.resolvedWithRung_eq hbook' n)
  case resolvedWithRung_eq => exact fun _ n _ => hbook.resolvedWithRung_eq hbook' n
  case labelCount_eq => exact hbook.labelCount_eq hbook'

end NameBook

/-- A request for the name of a property shape with nothing but a path. -/
def NameRequest.ofPath (path : Iri) : NameRequest :=
  .shape { id := .blank path.value, form := .property { path := .predicate path } }

/-- Two properties called `name` and the IRI of one, in two orders; the second property is repeated in one of them. -/
theorem NameBook.serve_namesakes :
    ServedAlike (PrefixTable.empty.insert "ex" "http://example.org/" |>.insert "schema" "http://schema.org/")
      [.ofPath ⟨"http://example.org/name"⟩, .ofPath ⟨"http://schema.org/name"⟩, .iri ⟨"http://example.org/name"⟩]
      [.iri ⟨"http://example.org/name"⟩, .ofPath ⟨"http://schema.org/name"⟩, .ofPath ⟨"http://example.org/name"⟩,
        .ofPath ⟨"http://schema.org/name"⟩] := by
  refine serve_order_independent _ (fun r => ?_) ?_
  · simp only [List.mem_cons, List.not_mem_nil, or_false]
    tauto
  · intro s t hs ht hid
    simp only [NameRequest.ofPath, List.mem_cons, NameRequest.shape.injEq, reduceCtorEq, List.not_mem_nil,
      or_false] at hs ht
    rcases hs with rfl | rfl <;> rcases ht with rfl | rfl <;> first | rfl | exact absurd hid (by decide)

end ShapeTypes
