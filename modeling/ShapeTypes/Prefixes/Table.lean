import ShapeTypes.Rdf.Term

/-!
# Prefix tables

A prefix table binds prefixes to namespaces and shrinks IRIs with them.

* `PrefixTable` — the bindings, in ascending order of the prefixes, one for each; this is part of the type;
* `PrefixTable.insert`, `PrefixTable.extend` — bind, and bind all that another table binds;
* `PrefixTable.shrink?` — splits an IRI at the longest namespace that it begins with.
-/

namespace ShapeTypes

/-- A prefix and its namespace. -/
structure Binding where
  label : String
  space : String
  deriving DecidableEq

/-- The bindings with one added, which replaces the one of its label. -/
def insertBinding (b : Binding) : List Binding → List Binding
  | [] => [b]
  | c :: rest =>
    if b.label < c.label then b :: c :: rest
    else if b.label = c.label then b :: rest
    else c :: insertBinding b rest

theorem mem_insertBinding {b x : Binding} {bs : List Binding} (h : x ∈ insertBinding b bs) :
    x = b ∨ x ∈ bs := by
  induction bs with
  | nil => simpa [insertBinding] using h
  | cons c rest ih =>
    simp only [insertBinding] at h
    split at h
    · simpa using h
    · split at h
      · rcases List.mem_cons.mp h with rfl | h
        · exact .inl rfl
        · exact .inr (List.mem_cons_of_mem _ h)
      · rcases List.mem_cons.mp h with rfl | h
        · exact .inr (List.mem_cons_self ..)
        · exact (ih h).imp id (List.mem_cons_of_mem _)

/-- Ascending labels, each once. -/
def Ascending (bs : List Binding) : Prop := bs.Pairwise fun a b => a.label < b.label

theorem Ascending.insertBinding {b : Binding} {bs : List Binding} (h : Ascending bs) :
    Ascending (insertBinding b bs) := by
  induction bs with
  | nil => simp [ShapeTypes.insertBinding, Ascending]
  | cons c rest ih =>
    obtain ⟨hc, hrest⟩ := List.pairwise_cons.mp h
    simp only [ShapeTypes.insertBinding]
    split
    · rename_i hlt
      refine List.pairwise_cons.mpr ⟨fun x hx => ?_, h⟩
      rcases List.mem_cons.mp hx with rfl | hx
      · exact hlt
      · exact String.lt_trans hlt (hc x hx)
    · split
      · rename_i heq
        exact List.pairwise_cons.mpr ⟨fun x hx => heq ▸ hc x hx, hrest⟩
      · rename_i hlt hne
        refine List.pairwise_cons.mpr ⟨fun x hx => ?_, ih hrest⟩
        rcases mem_insertBinding hx with rfl | hx
        · exact Std.lt_of_le_of_ne hlt (Ne.symm hne)
        · exact hc x hx

/-- What is left of `s` after `lead`, if `s` begins with it. -/
def afterLead? : List Char → List Char → Option (List Char)
  | [], s => some s
  | _ :: _, [] => none
  | c :: lead, d :: s => if c = d then afterLead? lead s else none

theorem afterLead?_eq_some_iff {lead s rest : List Char} :
    afterLead? lead s = some rest ↔ s = lead ++ rest := by
  induction lead generalizing s with
  | nil => simp [afterLead?]
  | cons c lead ih =>
    cases s with
    | nil => simp [afterLead?]
    | cons d s =>
      simp only [afterLead?, List.cons_append, List.cons.injEq]
      split
      · rename_i hcd; simp [ih, hcd]
      · rename_i hcd
        constructor
        · intro h; cases h
        · rintro ⟨rfl, _⟩; exact absurd rfl hcd

/-- Bindings of prefixes to namespaces. -/
structure PrefixTable where
  bindings : List Binding
  ascending : Ascending bindings

namespace PrefixTable

def empty : PrefixTable := ⟨[], List.Pairwise.nil⟩

instance : Inhabited PrefixTable := ⟨empty⟩

/-- Binds a prefix, anew if it is bound. -/
def insert (t : PrefixTable) (label space : String) : PrefixTable :=
  ⟨insertBinding ⟨label, space⟩ t.bindings, t.ascending.insertBinding⟩

/-- Binds all prefixes that another table binds. -/
def extend (t other : PrefixTable) : PrefixTable :=
  other.bindings.foldl (fun t b => t.insert b.label b.space) t

/-- The namespace of a prefix. -/
def get? (t : PrefixTable) (label : String) : Option String :=
  (t.bindings.find? fun b => b.label = label).map (·.space)

def size (t : PrefixTable) : Nat := t.bindings.length

/-- The table of the well-known vocabularies. -/
def wellKnown : PrefixTable :=
  empty.insert "rdf" "http://www.w3.org/1999/02/22-rdf-syntax-ns#"
    |>.insert "rdfs" "http://www.w3.org/2000/01/rdf-schema#"
    |>.insert "xsd" "http://www.w3.org/2001/XMLSchema#"
    |>.insert "owl" "http://www.w3.org/2002/07/owl#"
    |>.insert "sh" "http://www.w3.org/ns/shacl#"

/-- Whether the namespace is not empty and the IRI begins with it. -/
def Binding.matches (b : Binding) (iri : String) : Bool :=
  b.space ≠ "" && (afterLead? b.space.toList iri.toList).isSome

/-- The binding with the longest matching namespace; of equal namespaces the one with the first label. -/
def longest? (iri : String) : List Binding → Option Binding
  | [] => none
  | b :: rest =>
    if Binding.matches b iri then
      match longest? iri rest with
      | some c => if b.space.length < c.space.length then some c else some b
      | none => some b
    else longest? iri rest

/-- Splits an IRI at the longest matching namespace into the label and what follows the namespace. An IRI
that ends with that namespace is not split. -/
def shrink? (t : PrefixTable) (iri : String) : Option (String × String) := do
  let b ← longest? iri t.bindings
  let rest ← afterLead? b.space.toList iri.toList
  if rest.isEmpty then none else some (b.label, String.ofList rest)

end PrefixTable

end ShapeTypes
