import Mathlib.Data.List.Nodup
import ShapeTypes.Proofs.Name

/-!
# Curies tell IRIs apart

* `PrefixTable.shrink?_eq_some` — a curie is a label and what an IRI has after the namespace of that label;
* `PrefixTable.curie?_injective` — **so different IRIs have different curies**;
* `CurieRecord.eq_of_isUnique` — a reference that is unique belongs to one curie.
-/

namespace ShapeTypes

open Rdf

namespace PrefixTable

variable {table : PrefixTable}

theorem mem_of_longest? {iri : String} {b : Binding} {bs : List Binding} (h : longest? iri bs = some b) :
    b ∈ bs := by
  induction bs with
  | nil => cases h
  | cons c rest ih =>
      unfold longest? at h
      split at h
      · split at h
        · rename_i d hd
          split at h
          · cases h
            exact List.mem_cons_of_mem _ (ih hd)
          · cases h
            exact List.mem_cons_self
        · cases h
          exact List.mem_cons_self
      · exact List.mem_cons_of_mem _ (ih h)

theorem nodup_labels (table : PrefixTable) : (table.bindings.map (·.label)).Nodup := by
  refine List.pairwise_map.2 (table.ascending.imp ?_)
  intro a b hlt heq
  rw [heq] at hlt
  exact String.lt_irrefl _ hlt

/-- A label is bound once. -/
theorem binding_unique {b c : Binding} (hb : b ∈ table.bindings) (hc : c ∈ table.bindings)
    (h : b.label = c.label) : b = c :=
  List.inj_on_of_nodup_map table.nodup_labels hb hc h

/-- **A curie is a label, and what the IRI has after the namespace of the label.** -/
theorem shrink?_eq_some {iri label reference : String} (h : table.shrink? iri = some (label, reference)) :
    ∃ b ∈ table.bindings, b.label = label ∧ iri = b.space ++ reference := by
  unfold shrink? at h
  simp only [Option.bind_eq_bind, Option.bind_eq_some_iff] at h
  obtain ⟨b, hb, rest, hrest, h⟩ := h
  split at h
  · cases h
  · cases h
    refine ⟨b, mem_of_longest? hb, rfl, ?_⟩
    rw [afterLead?_eq_some_iff] at hrest
    rw [← String.toList_inj, String.toList_append, String.toList_ofList, hrest]

theorem curie?_eq_some {i : Iri} {c : Curie} (h : table.curie? i = some c) :
    table.shrink? i.value = some (c.label, c.reference) := by
  obtain ⟨⟨label, reference⟩, hs, rfl⟩ := Option.map_eq_some_iff.1 h
  exact hs

/-- **Different IRIs have different curies.** -/
theorem curie?_injective {i j : Iri} {c : Curie} (hi : table.curie? i = some c) (hj : table.curie? j = some c) :
    i = j := by
  obtain ⟨b, hb, hlabel, hvalue⟩ := shrink?_eq_some (curie?_eq_some hi)
  obtain ⟨b', hb', hlabel', hvalue'⟩ := shrink?_eq_some (curie?_eq_some hj)
  obtain rfl := binding_unique hb hb' (hlabel.trans hlabel'.symm)
  cases i
  cases j
  exact congrArg Iri.mk (hvalue.trans hvalue'.symm)

end PrefixTable

namespace CurieRecord

variable {r : CurieRecord} {c d : Curie}

/-- Whether a reference is unique does not depend on the label. -/
theorem isUnique_congr (h : c.reference = d.reference) : r.isUnique c = r.isUnique d := by
  rw [isUnique, isUnique, h]

/-- **A unique reference belongs to one curie.** -/
theorem eq_of_isUnique (hc : c ∈ r.made) (hd : d ∈ r.made) (hu : r.isUnique c = true)
    (h : c.reference = d.reference) : c = d := by
  have hcount : (r.made.filter fun x => x.reference = c.reference).length = 1 := by
    rw [← List.countP_eq_length_filter]
    exact of_decide_eq_true hu
  obtain ⟨x, hx⟩ := List.length_eq_one_iff.1 hcount
  have hmem : ∀ y ∈ r.made, y.reference = c.reference → y = x := by
    intro y hy heq
    have hin : y ∈ r.made.filter fun x => x.reference = c.reference := by simp [hy, heq]
    rw [hx] at hin
    exact List.mem_singleton.1 hin
  rw [hmem c hc rfl, hmem d hd h.symm]

end CurieRecord

end ShapeTypes
