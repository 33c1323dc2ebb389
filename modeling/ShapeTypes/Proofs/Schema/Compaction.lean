import ShapeTypes.Proofs.Arena.Description
import ShapeTypes.Proofs.Schema.ClosedArena
import ShapeTypes.Proofs.Schema.Renaming

/-!
# Compaction renames

Before a schema is complete, the slots that nothing reaches are dropped, and the kept ones get new numbers. Old and new
numbers overlap: a new number is the place of a slot among the kept ones, and it is the old number of another slot.

* `infer_eq_compact` — **every inferred schema is made by compaction**;
* `Schema.InWords` — describing a slot comes to an end; `Schema.InWords.describeSlot_eq` — **a description that comes
  to an end is given in full**, whatever the number of slots;
* `Schema.MayKeep` — slots that may be kept alone; `Schema.mayKeep_reachable` — **those that can be reached may be**;
* `Schema.IsCompaction` — only handles are replaced, each by the place of its slot, and descriptions stay the same;
* `Schema.compact_isCompaction` — **so compaction renames.**
-/

namespace ShapeTypes

open Rdf

/-! ## Describing a slot -/

namespace Content

variable {f : Slot → Slot} {record : CurieRecord} {c : Content}

theorem item?_mapSlots : (c.mapSlots f).item? = c.item?.map f := by
  rcases c with shape | ⟨shape, name, doc, body⟩
  · rfl
  · cases body <;> rfl

theorem words_mapSlots : (c.mapSlots f).words record = c.words record := by
  rcases c with shape | ⟨shape, name, doc, body⟩
  · rfl
  · cases body with
    | composite connective ofObjects => cases connective <;> cases ofObjects <;> rfl
    | _ => rfl

end Content

namespace Schema

variable {s : Schema} {keep : List Slot} {x : Slot} {n m : Nat} {text text' : String}

/-- Describing a slot comes to an end, with a text, after so many lists. -/
inductive InWords (s : Schema) : Slot → Nat → String → Prop
  | missing {x : Slot} : s.content? x = none → InWords s x 0 ("<missing " ++ toString x ++ ">")
  | plain {x : Slot} {c : Content} : s.content? x = some c → c.item? = none → InWords s x 0 (c.words s.record)
  | list {x item : Slot} {c : Content} {n : Nat} {text : String} : s.content? x = some c → c.item? = some item →
      InWords s item n text → InWords s x (n + 1) ("List<" ++ text ++ ">")

namespace InWords

theorem unique (h : s.InWords x n text) (h' : s.InWords x m text') : n = m := by
  induction h generalizing m text' with
  | missing hx =>
      cases h' with
      | missing => rfl
      | plain hx' => cases hx.symm.trans hx'
      | list hx' => cases hx.symm.trans hx'
  | plain hx hc =>
      cases h' with
      | missing hx' => cases hx.symm.trans hx'
      | plain => rfl
      | list hx' hc' => cases hx.symm.trans hx'; cases hc.symm.trans hc'
  | list hx hc _ ih =>
      cases h' with
      | missing hx' => cases hx.symm.trans hx'
      | plain hx' hc' => cases hx.symm.trans hx'; cases hc.symm.trans hc'
      | list hx' hc' h' =>
          cases hx.symm.trans hx'
          cases hc.symm.trans hc'
          rw [ih h']

/-- **Lists in one another are no more than there are slots**, if there is an end to them. -/
theorem le_length (h : s.InWords x n text) : n ≤ s.slots.length := by
  have hunique : ∀ x n m, (∃ text, s.InWords x n text) → (∃ text, s.InWords x m text) → n = m :=
    fun _ _ _ ⟨_, h⟩ ⟨_, h'⟩ => h.unique h'
  have hdescends : ∀ x n, (∃ text, s.InWords x (n + 1) text) →
      x ∈ List.range s.slots.length ∧ ∃ item, ∃ text, s.InWords item n text := by
    rintro x n ⟨_, _ | _ | ⟨hx, -, h⟩⟩
    exact ⟨List.mem_range.2 (List.getElem?_eq_some_iff.1 hx).1, _, _, h⟩
  simpa using le_length_of_descends hunique hdescends ⟨text, h⟩

theorem describeFor?_eq (h : s.InWords x n text) {fuel : Nat} (hfuel : n ≤ fuel) :
    Arena.describeFor? s.slots s.record (fuel + 1) x = some text := by
  induction h generalizing fuel with
  | missing hx =>
      rw [content?] at hx
      rw [Arena.describeFor?, hx]
  | plain hx hc =>
      rw [content?] at hx
      rw [Arena.describeFor?, hx]
      simp only [hc]
  | list hx hc _ ih =>
      obtain ⟨f, rfl⟩ : ∃ f, fuel = f + 1 := ⟨fuel - 1, by omega⟩
      rw [content?] at hx
      rw [Arena.describeFor?, hx]
      simp only [hc]
      rw [ih (by omega), Option.map_some]

/-- **A description that comes to an end is given in full.** -/
theorem describeSlot_eq (h : s.InWords x n text) : s.describeSlot x = text := by
  rw [describeSlot, Arena.describe?, h.describeFor?_eq h.le_length, Option.getD_some]

end InWords

/-! ## Compaction -/

/-- Slots that may be kept alone: existing ones, in ascending order, with all that entries use and all that their own
types refer to. -/
structure MayKeep (s : Schema) (keep : List Slot) : Prop where
  ascending : keep.Pairwise (· < ·)
  exist : ∀ x ∈ keep, x < s.slots.length
  roots : s.roots ⊆ keep
  links : ∀ x ∈ keep, ∀ y, Arena.Links s.slots x y → y ∈ keep

/-- The second schema has the kept slots of the first one, in their order. In types and in entries every handle is
replaced by the place of its slot, and nothing else is. A kept slot is described as before, if its description comes
to an end. -/
structure IsCompaction (s : Schema) (keep : List Slot) (s' : Schema) : Prop where
  length : s'.slots.length = keep.length
  contents : ∀ i x, keep[i]? = some x → ∃ c c', s.content? x = some c ∧ s'.content? i = some c' ∧
    c.Renamed (fun y j => keep[j]? = some y) c'
  entries : List.Forall₂ (fun e e' => ∃ use, e' = { e with use } ∧ e.use.Renamed (fun y j => keep[j]? = some y) use)
    s.entries s'.entries
  record : s'.record = s.record
  words : ∀ i x n text, keep[i]? = some x → s.InWords x n text →
    s'.InWords i n text ∧ s.describeSlot x = text ∧ s'.describeSlot i = text

namespace MayKeep

theorem nodup (h : s.MayKeep keep) : keep.Nodup := h.ascending.imp Nat.ne_of_lt

theorem closed (h : s.MayKeep keep) : Arena.Closed s.slots keep where
  nodup := h.nodup
  lt := h.exist
  links := h.links

theorem content?_compact (h : s.MayKeep keep) (hx : x ∈ keep) : (s.compact keep).content? (Arena.renumber keep x) =
    (s.content? x).map (·.mapSlots (Arena.renumber keep)) :=
  Arena.getElem?_compact h.exist hx

theorem exists_content (h : s.MayKeep keep) (hx : x ∈ keep) : ∃ c, s.content? x = some c :=
  ⟨_, List.getElem?_eq_getElem (h.exist x hx)⟩

theorem inWords_compact (h : s.MayKeep keep) (hw : s.InWords x n text) :
    x ∈ keep → (s.compact keep).InWords (Arena.renumber keep x) n text := by
  induction hw with
  | missing hx =>
      intro hk
      obtain ⟨c, hc⟩ := h.exists_content hk
      cases hx.symm.trans hc
  | plain hx hc =>
      intro hk
      have hx' := h.content?_compact hk
      rw [hx, Option.map_some] at hx'
      have hplain := InWords.plain hx' (by rw [Content.item?_mapSlots, hc, Option.map_none])
      rwa [Content.words_mapSlots] at hplain
  | list hx hc _ ih =>
      intro hk
      have hx' := h.content?_compact hk
      rw [hx, Option.map_some] at hx'
      have hitem := h.links _ hk _ ⟨_, hx, Content.mem_children_of_item? hc⟩
      exact .list hx' (by rw [Content.item?_mapSlots, hc, Option.map_some]) (ih hitem)

/-- **Compaction to slots that may be kept alone renames.** -/
theorem isCompaction (h : s.MayKeep keep) : s.IsCompaction keep (s.compact keep) := by
  constructor
  case length => exact Arena.length_compact h.exist
  case contents =>
    intro i x hi
    have hx : x ∈ keep := List.mem_of_getElem? hi
    obtain ⟨c, hc⟩ := h.exists_content hx
    have hc' := h.content?_compact hx
    rw [hc, Option.map_some, Arena.renumber_getElem h.nodup hi] at hc'
    have hrenamed : ∀ y ∈ c.children, keep[Arena.renumber keep y]? = some y := fun y hy =>
      Arena.getElem?_renumber (h.links x hx y ⟨c, hc, hy⟩)
    exact ⟨c, _, hc, hc', Content.renamed_mapSlots hrenamed⟩
  case entries =>
    refine forall₂_map_self fun e he => ⟨_, rfl, TypeUse.renamed_mapSlot ?_⟩
    exact Arena.getElem?_renumber (h.roots (List.mem_map_of_mem he))
  case record => rfl
  case words =>
    intro i x n text hi hw
    have hw' := h.inWords_compact hw (List.mem_of_getElem? hi)
    rw [Arena.renumber_getElem h.nodup hi] at hw'
    exact ⟨hw', hw.describeSlot_eq, hw'.describeSlot_eq⟩

end MayKeep

/-- **The slots that entries reach may be kept alone**, if no handle dangles. -/
theorem mayKeep_reachable (h : ∀ x ∈ s.handles, x < s.slots.length) :
    s.MayKeep (Arena.reachable s.slots s.roots) := by
  have hroots : ∀ x ∈ s.roots, x < s.slots.length := fun x hx => h x (List.mem_append_left _ hx)
  have hlinks : ∀ x y, Arena.Links s.slots x y → y < s.slots.length := fun x y ⟨c, hc, hy⟩ =>
    h y (List.mem_append_right _ (List.mem_flatMap.2 ⟨c, List.mem_of_getElem? hc, hy⟩))
  constructor
  case ascending => exact Arena.reachable_sorted _ _
  case exist => exact fun x hx => Arena.lt_of_mem_reachable hx
  case roots => exact fun x hx => Arena.root_mem_reachable hroots hx
  case links => exact (Arena.closed_reachable hroots fun x y _ => hlinks x y).links

/-- **Compaction renames**, and the slots that can be reached allow it. -/
theorem compact_isCompaction (s : Schema) :
    (∀ keep, s.MayKeep keep → s.IsCompaction keep (s.compact keep)) ∧
      ((∀ x ∈ s.handles, x < s.slots.length) → s.MayKeep (Arena.reachable s.slots s.roots)) :=
  ⟨fun _ => MayKeep.isCompaction, mayKeep_reachable⟩

/-- A list of lists of texts, and a union of itself and of the inner lists. Nothing reaches the first slot and the
fifth one. -/
def nested : Schema where
  slots := [.placeholder (.blank "A"), .type ⟨.blank "B", default, {}, .list 2⟩,
    .type ⟨.blank "C", default, {}, .list 3⟩, .type ⟨.blank "D", default, {}, .literal xsdString [] [] {}⟩,
    .placeholder (.blank "E"), .type ⟨.blank "F", default, {}, .composite .one false [5, 2]⟩]
  entries := [⟨.blank "B", default, ⟨.option, 1⟩⟩, ⟨.blank "F", default, ⟨.plain none, 5⟩⟩]
  record := ⟨default, []⟩

theorem nested_isCompaction : nested.MayKeep [1, 2, 3, 5] ∧
    nested.IsCompaction [1, 2, 3, 5] (nested.compact [1, 2, 3, 5]) ∧
    (nested.compact [1, 2, 3, 5]).content? 3 =
      some (.type ⟨.blank "F", default, {}, .composite .one false [3, 1]⟩) ∧
    nested.InWords 1 2 ("List<" ++ ("List<" ++ ("Literal " ++ xsdString.text) ++ ">") ++ ">") ∧
    (nested.compact [1, 2, 3, 5]).describeSlot 0 = nested.describeSlot 1 := by
  have hreachable : Arena.reachable nested.slots nested.roots = [1, 2, 3, 5] := by decide +kernel
  have hkeep : nested.MayKeep [1, 2, 3, 5] := hreachable ▸ (compact_isCompaction nested).2 (by decide)
  have hcompaction := (compact_isCompaction nested).1 _ hkeep
  have hwords : nested.InWords 1 2 _ := .list rfl rfl (.list rfl rfl (.plain rfl rfl))
  obtain ⟨-, hbefore, hafter⟩ := hcompaction.words 0 1 _ _ rfl hwords
  exact ⟨hkeep, hcompaction, rfl, hwords, hafter.trans hbefore.symm⟩

end Schema

/-! ## Inferred schemas -/

namespace Settled

variable {graph : ShapesGraph} {table : PrefixTable} {strict : Bool} (i : Settled graph table strict)

/-- The schema of a settled run with all of its slots. -/
def draft : Schema where
  slots := i.arena
  entries := (i.state.finalUses i.replaced graph.ids).map fun (id, use) =>
    { shape := id, name := (i.state.names.shapes.lookup id).getD default, use }
  record := i.state.names.record

theorem roots_draft : i.draft.roots = i.roots := by
  simp only [Schema.roots, draft, roots, List.map_map]
  rfl

theorem schema_eq_compact : i.schema = i.draft.compact (Arena.reachable i.draft.slots i.draft.roots) := by
  rw [roots_draft]
  simp only [schema, draft, Schema.compact, entriesOf, List.map_map]
  rfl

theorem lt_of_handle_draft {x : Slot} (h : x ∈ i.draft.handles) : x < i.draft.slots.length := by
  rcases List.mem_append.1 h with h | h
  · exact i.lt_of_root (i.roots_draft ▸ h)
  · obtain ⟨c, hc, hx⟩ := List.mem_flatMap.1 h
    obtain ⟨y, hy⟩ := List.mem_iff_getElem?.1 hc
    exact i.lt_of_link ⟨c, hy, hx⟩

end Settled

/-- **Every inferred schema is made by compaction** to the slots that can be reached, from one whose handles do not
dangle. -/
theorem infer_eq_compact {graph : ShapesGraph} {table : PrefixTable} {strict : Bool} {schema : Schema}
    (h : graph.infer table strict = .ok schema) : ∃ draft : Schema, (∀ x ∈ draft.handles, x < draft.slots.length) ∧
      schema = draft.compact (Arena.reachable draft.slots draft.roots) := by
  obtain ⟨i⟩ := exists_inferred h
  exact ⟨i.draft, fun _ => i.lt_of_handle_draft, i.schema_eq.trans i.schema_eq_compact⟩

end ShapeTypes
