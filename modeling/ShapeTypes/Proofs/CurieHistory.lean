import Mathlib.Data.Finset.Card
import Mathlib.Data.List.AList
import ShapeTypes.Proofs.Curie

/-!
# Uniqueness of references is settled by the curies made so far

A record only grows, and all curies are judged by the same record: what is unique may cease to be so when the next
curie is made, also for the curies that were made long before.

* `CurieRecord.isUnique_iff` — a reference is unique if no curie of the record has it with another label;
  `CurieRecord.isUnique_of_adds` — **what a record does not find unique, no later one does**;
  `CurieRecord.isUnique_create_iff` — a new curie is judged as those with its reference are;
* `CurieRecord.createAll`, `adds_createAll` — makes the curies of several IRIs; the record has these, each once;
* `labelsOf`, `ReferenceCounts` — the labels of a reference, among the curies made and counted as these are made;
  `ReferenceCounts.times_ofCreated`, `ReferenceCounts.mem_labels_ofCreated` — **the counts are those of the curies**;
* `CurieRecord.createAll_settles` — **what the record tells about a reference is what the curies made so far tell.**
-/

namespace ShapeTypes

open Rdf

theorem Curie.eq_of_parts {c d : Curie} (hlabel : c.label = d.label) (hreference : c.reference = d.reference) :
    c = d := by
  cases c
  cases d
  exact congrArg₂ Curie.mk hlabel hreference

/-! ## Records that grow -/

namespace CurieRecord

variable {r r' : CurieRecord} {c : Curie} {created : List Curie}

/-- A reference is unique if no curie of the record has it with another label. -/
theorem isUnique_iff (hd : r.made.Nodup) (hc : c ∈ r.made) :
    r.isUnique c = true ↔ ∀ d ∈ r.made, d.reference = c.reference → d.label = c.label := by
  constructor
  · intro hu d hmem heq
    exact congrArg Curie.label (eq_of_isUnique hc hmem hu heq.symm).symm
  · intro h
    have hmem : ∀ d, d ∈ r.made.filter (fun d => d.reference = c.reference) ↔ d = c := by
      intro d
      rw [List.mem_filter, decide_eq_true_eq]
      constructor
      · rintro ⟨hd, heq⟩
        exact Curie.eq_of_parts (h d hd heq) heq
      · rintro rfl
        exact ⟨hc, rfl⟩
    have hperm : (r.made.filter fun d => d.reference = c.reference).Perm [c] :=
      (List.perm_ext_iff_of_nodup (hd.filter _) (List.nodup_singleton c)).2 fun d => by
        rw [hmem, List.mem_singleton]
    rw [isUnique, labelCount, List.countP_eq_length_filter, hperm.length_eq]
    rfl

/-- **What a record does not find unique, no later one does.** -/
theorem isUnique_of_adds (h : r.Adds r' created) (hd : r.made.Nodup) (hc : c ∈ r.made) (hu : r'.isUnique c = true) :
    r.isUnique c = true := by
  have hkept : ∀ d ∈ r.made, d ∈ r'.made := fun d hmem => (h.made d).2 (Or.inr hmem)
  rw [isUnique_iff hd hc]
  rw [isUnique_iff (h.nodup hd) (hkept c hc)] at hu
  exact fun d hmem => hu d (hkept d hmem)

/-- **A new curie is unique exactly if all with its reference are**: it is judged as they are, or it is alone. -/
theorem isUnique_create_iff (hd : r.made.Nodup) {i : Iri} (hc : (r.create i).1 = some c) :
    (r.create i).2.isUnique c = true ↔
      ∀ d ∈ r.made, d.reference = c.reference → (r.create i).2.isUnique d = true := by
  have hnext := adds_create (r := r) i
  rw [← fst_create, hc, Option.toList_some] at hnext
  have hcnext : c ∈ (r.create i).2.made := (hnext.made c).2 (Or.inl (List.mem_singleton_self c))
  constructor
  · intro hu d _ hreference
    rwa [isUnique_congr hreference]
  · intro hall
    by_cases hearlier : ∃ d ∈ r.made, d.reference = c.reference
    · obtain ⟨d, hdr, hreference⟩ := hearlier
      rw [← isUnique_congr hreference]
      exact hall d hdr hreference
    · rw [isUnique_iff (hnext.nodup hd) hcnext]
      intro d hdnext hreference
      rcases (hnext.made d).1 hdnext with hdc | hdr
      · rw [List.mem_singleton.1 hdc]
      · exact absurd ⟨d, hdr, hreference⟩ hearlier

/-! ## Making several curies -/

/-- Makes the curies of some IRIs, one after the other; an IRI that does not shrink has none. -/
def createAll (r : CurieRecord) : List Iri → List Curie × CurieRecord
  | [] => ([], r)
  | i :: iris =>
    let (c, r) := r.create i
    let (created, r) := r.createAll iris
    (c.toList ++ created, r)

/-- **The record has the curies that were made, each once.** -/
theorem adds_createAll (r : CurieRecord) (iris : List Iri) : r.Adds (r.createAll iris).2 (r.createAll iris).1 := by
  induction iris generalizing r with
  | nil => exact .refl r
  | cons i iris ih =>
      have hstep := adds_create (r := r) i
      rw [← fst_create] at hstep
      exact hstep.trans (ih (r.create i).2)

end CurieRecord

/-! ## The labels of a reference -/

/-- The labels that a reference has among some curies. -/
def labelsOf (created : List Curie) (reference : String) : Finset String :=
  ((created.filter fun c => c.reference = reference).map Curie.label).toFinset

theorem mem_labelsOf {created : List Curie} {reference label : String} :
    label ∈ labelsOf created reference ↔ ⟨label, reference⟩ ∈ created := by
  simp only [labelsOf, List.mem_toFinset, List.mem_map, List.mem_filter, decide_eq_true_eq]
  constructor
  · rintro ⟨c, ⟨hc, rfl⟩, rfl⟩
    exact hc
  · intro h
    exact ⟨_, ⟨h, rfl⟩, rfl⟩

/-- A list with each of the labels once is as long as they are many. -/
theorem length_eq_card_labelsOf {created : List Curie} {reference : String} {labels : List String}
    (hd : labels.Nodup) (h : ∀ label, label ∈ labels ↔ ⟨label, reference⟩ ∈ created) :
    labels.length = (labelsOf created reference).card := by
  rw [← List.toFinset_card_of_nodup hd]
  refine congrArg Finset.card (Finset.ext fun label => ?_)
  rw [List.mem_toFinset, h, mem_labelsOf]

theorem CurieRecord.labelCount_eq_card {r : CurieRecord} {created : List Curie} (hd : r.made.Nodup)
    (h : ∀ c, c ∈ r.made ↔ c ∈ created) (reference : String) :
    r.labelCount reference = (labelsOf created reference).card := by
  rw [labelCount, List.countP_eq_length_filter, ← List.length_map Curie.label]
  refine length_eq_card_labelsOf ?_ fun label => ?_
  · refine (hd.filter _).map_on fun c hc d hd heq => ?_
    -- Curies with one reference differ by their labels.
    have hreference := (of_decide_eq_true (List.mem_filter.1 hc).2).trans
      (of_decide_eq_true (List.mem_filter.1 hd).2).symm
    exact Curie.eq_of_parts heq hreference
  · rw [← List.mem_toFinset, ← labelsOf, mem_labelsOf, h]

/-! ## Counting as curies are made -/

/-- For each reference the labels that it was made with, and for each of these how often. -/
abbrev ReferenceCounts := AList fun _ : String => AList fun _ : String => Nat

namespace ReferenceCounts

variable (m : ReferenceCounts)

/-- The labels of a reference. -/
def labels (reference : String) : AList fun _ : String => Nat := (m.lookup reference).getD ∅

/-- How often a curie was made. -/
def times (c : Curie) : Nat := ((m.labels c.reference).lookup c.label).getD 0

/-- Counts one more curie. -/
def count (c : Curie) : ReferenceCounts :=
  m.insert c.reference ((m.labels c.reference).insert c.label (m.times c + 1))

/-- Counts curies one after the other, from none on. -/
def ofCreated (created : List Curie) : ReferenceCounts := created.foldl count ∅

variable {m} {c d : Curie} {reference label : String}

theorem labels_count_self : (m.count c).labels c.reference = (m.labels c.reference).insert c.label (m.times c + 1) := by
  rw [labels, count, AList.lookup_insert, Option.getD_some]

theorem labels_count_of_ne (h : reference ≠ c.reference) : (m.count c).labels reference = m.labels reference := by
  rw [labels, count, AList.lookup_insert_ne h, ← labels]

theorem times_count : (m.count c).times d = m.times d + if c = d then 1 else 0 := by
  by_cases hreference : d.reference = c.reference
  · rw [times, hreference, labels_count_self]
    by_cases hlabel : d.label = c.label
    · obtain rfl := Curie.eq_of_parts hlabel hreference
      rw [AList.lookup_insert, Option.getD_some, if_pos rfl]
    · have hne : c ≠ d := fun heq => hlabel (congrArg Curie.label heq).symm
      rw [AList.lookup_insert_ne hlabel, if_neg hne, ← hreference, ← times, Nat.add_zero]
  · have hne : c ≠ d := fun heq => hreference (congrArg Curie.reference heq).symm
    rw [times, labels_count_of_ne hreference, if_neg hne, ← times, Nat.add_zero]

theorem mem_labels_count :
    label ∈ (m.count c).labels reference ↔ ⟨label, reference⟩ = c ∨ label ∈ m.labels reference := by
  by_cases hreference : reference = c.reference
  · subst hreference
    rw [labels_count_self, AList.mem_insert]
    refine or_congr_left ⟨fun heq => ?_, fun heq => congrArg Curie.label heq⟩
    rw [heq]
  · rw [labels_count_of_ne hreference, or_iff_right fun heq => hreference (congrArg Curie.reference heq)]

/-- **A curie is counted as often as it was made.** -/
theorem times_ofCreated (created : List Curie) (c : Curie) : (ofCreated created).times c = created.count c := by
  have hfrom : ∀ (m : ReferenceCounts), (created.foldl count m).times c = m.times c + created.count c := by
    induction created with
    | nil => exact fun m => rfl
    | cons d created ih =>
        intro m
        rw [List.foldl_cons, ih, times_count, List.count_cons]
        simp only [beq_iff_eq]
        omega
  rw [ofCreated, hfrom]
  exact Nat.zero_add _

/-- **The labels of a reference are those that it was made with.** -/
theorem mem_labels_ofCreated {created : List Curie} :
    label ∈ (ofCreated created).labels reference ↔ ⟨label, reference⟩ ∈ created := by
  have hfrom : ∀ (m : ReferenceCounts), label ∈ (created.foldl count m).labels reference ↔
      label ∈ m.labels reference ∨ ⟨label, reference⟩ ∈ created := by
    induction created with
    | nil => simp
    | cons d created ih =>
        intro m
        rw [List.foldl_cons, ih, mem_labels_count, List.mem_cons, or_comm (a := _ = d), or_assoc]
  rw [ofCreated, hfrom]
  exact or_iff_right (AList.notMem_empty label)

end ReferenceCounts

/-! ## What a record tells -/

namespace CurieRecord

/-- What a record tells about references is settled by the curies created so far. -/
structure SettledBy (r : CurieRecord) (created : List Curie) : Prop where
  /-- A reference is counted with its labels, ... -/
  labelCount_eq : ∀ reference, r.labelCount reference = (labelsOf created reference).card
  /-- ... as many as are found when each curie is counted as it is made, ... -/
  labels_eq : ∀ reference,
    ((ReferenceCounts.ofCreated created).labels reference).keys.length = r.labelCount reference
  /-- ... which counts each as often as it was made. -/
  times_eq : ∀ c, (ReferenceCounts.ofCreated created).times c = created.count c
  /-- It is unique exactly if no curie has it with another label. -/
  isUnique_iff : ∀ c ∈ created, r.isUnique c = true ↔
    ¬ ∃ d ∈ created, d.reference = c.reference ∧ d.label ≠ c.label
  /-- The next curie is unique exactly if all with its reference are. -/
  create_iff : ∀ i c, (r.create i).1 = some c → ((r.create i).2.isUnique c = true ↔
    ∀ d ∈ created, d.reference = c.reference → (r.create i).2.isUnique d = true)
  /-- What is not unique any more never is again. -/
  revoked : ∀ c ∈ created, r.isUnique c = false → ∀ later, (r.createAll later).2.isUnique c = false

/-- **What a record tells is settled by the curies created so far**, whichever IRIs they were created for. -/
theorem createAll_settles (table : PrefixTable) (iris : List Iri) :
    (createAll ⟨table, []⟩ iris).2.SettledBy (createAll ⟨table, []⟩ iris).1 := by
  generalize hr : (createAll ⟨table, []⟩ iris).2 = r
  generalize hcreated : (createAll ⟨table, []⟩ iris).1 = created
  have hadds := adds_createAll ⟨table, []⟩ iris
  rw [hr, hcreated] at hadds
  have hd : r.made.Nodup := hadds.nodup List.nodup_nil
  have hmem : ∀ c, c ∈ r.made ↔ c ∈ created := fun c => by
    rw [hadds.made, or_iff_left List.not_mem_nil]
  have hcount := labelCount_eq_card hd hmem
  constructor
  case labelCount_eq => exact hcount
  case labels_eq =>
    intro reference
    rw [hcount]
    exact length_eq_card_labelsOf (AList.keys_nodup _) fun label => ReferenceCounts.mem_labels_ofCreated
  case times_eq => exact ReferenceCounts.times_ofCreated created
  case isUnique_iff =>
    intro c hc
    rw [CurieRecord.isUnique_iff hd ((hmem c).2 hc)]
    simp only [hmem, not_exists, not_and, not_not]
  case create_iff =>
    intro i c hc
    rw [isUnique_create_iff hd hc]
    simp only [hmem]
  case revoked =>
    intro c hc hu later
    rw [Bool.eq_false_iff] at hu ⊢
    exact fun hlater => hu (isUnique_of_adds (adds_createAll r later) hd ((hmem c).2 hc) hlater)

/-- The same label twice leaves a reference unique; another one ends that, also for the curie made first. -/
example :
    let r : CurieRecord := ⟨PrefixTable.empty.insert "ex" "http://example.org/" |>.insert "o" "http://other.org/", []⟩
    let twice := (r.createAll [⟨"http://example.org/name"⟩, ⟨"http://example.org/name"⟩]).2
    twice.isUnique ⟨"ex", "name"⟩ = true ∧
      (twice.createAll [⟨"http://other.org/name"⟩]).2.isUnique ⟨"ex", "name"⟩ = false := by
  decide +kernel

end CurieRecord

end ShapeTypes
