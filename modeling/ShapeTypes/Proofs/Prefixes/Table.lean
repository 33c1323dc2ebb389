import ShapeTypes.Proofs.Curie

/-!
# Shrinking splits at the longest namespace

* `PrefixTable.get?_insert`, `PrefixTable.get?_extend` — what an edit binds, and that it leaves the other prefixes;
* `TableEdit`, `PrefixTable.edited`, `PrefixTable.get?_edited` — a table made by edits binds a prefix as **the last
  edit that binds it** does;
* `PrefixTable.IsLongest`, `PrefixTable.longest?_eq_some_iff` — the binding that the search finds;
* `PrefixTable.SplitsAt`, `PrefixTable.shrink?_eq_some_iff` — where an IRI is split;
* `PrefixTable.shrink?_edited` — **an IRI is split at the longest namespace that the edits bind last, or not at all**,
  and different IRIs are split differently.
-/

namespace ShapeTypes

namespace PrefixTable

variable {t : PrefixTable} {bs : List Binding} {b c : Binding} {iri label space : String}

/-! ## What a table binds -/

theorem get?_eq_some_iff : t.get? label = some space ↔ ⟨label, space⟩ ∈ t.bindings := by
  unfold get?
  rw [Option.map_eq_some_iff]
  constructor
  · rintro ⟨b, hb, rfl⟩
    have hlabel : b.label = label := by simpa using List.find?_some hb
    rw [← hlabel]
    exact List.mem_of_find?_eq_some hb
  · intro hmem
    exact ⟨_, find?_key_of_mem t.nodup_labels hmem, rfl⟩

theorem mem_insertBinding_iff (h : Ascending bs) :
    c ∈ insertBinding b bs ↔ c = b ∨ c ∈ bs ∧ c.label ≠ b.label := by
  induction bs with
  | nil => simp [insertBinding]
  | cons d rest ih =>
      obtain ⟨hd, hrest⟩ := List.pairwise_cons.1 h
      unfold insertBinding
      split
      · rename_i hlt
        -- All labels are greater than the one of `b`.
        have hne : ∀ x ∈ d :: rest, x.label ≠ b.label := by
          intro x hx heq
          rcases List.mem_cons.1 hx with rfl | hx
          · exact String.lt_irrefl _ (heq ▸ hlt)
          · exact String.lt_irrefl _ (heq ▸ String.lt_trans hlt (hd x hx))
        rw [List.mem_cons]
        exact or_congr_right ⟨fun hc => ⟨hc, hne c hc⟩, And.left⟩
      · split
        · rename_i heq
          have hne : ∀ x ∈ rest, x.label ≠ b.label := by
            intro x hx hxb
            exact String.lt_irrefl _ (heq ▸ hxb ▸ hd x hx)
          rw [List.mem_cons, List.mem_cons]
          refine or_congr_right ⟨fun hc => ⟨Or.inr hc, hne c hc⟩, ?_⟩
          rintro ⟨rfl | hc, hcb⟩
          · exact absurd heq.symm hcb
          · exact hc
        · rename_i heq
          rw [List.mem_cons, ih hrest, List.mem_cons]
          constructor
          · rintro (rfl | rfl | ⟨hc, hcb⟩)
            · exact Or.inr ⟨Or.inl rfl, fun hcb => heq hcb.symm⟩
            · exact Or.inl rfl
            · exact Or.inr ⟨Or.inr hc, hcb⟩
          · rintro (rfl | ⟨rfl | hc, hcb⟩)
            · exact Or.inr (Or.inl rfl)
            · exact Or.inl rfl
            · exact Or.inr (Or.inr ⟨hc, hcb⟩)

/-- **A binding overrides the one of its prefix, and no other.** -/
theorem get?_insert (t : PrefixTable) (l s label : String) :
    (t.insert l s).get? label = if l = label then some s else t.get? label := by
  refine Option.ext fun space => ?_
  rw [get?_eq_some_iff, insert, mem_insertBinding_iff t.ascending, Binding.mk.injEq]
  split
  · rename_i hl
    simp [hl, eq_comm]
  · rename_i hl
    rw [get?_eq_some_iff]
    simp [Ne.symm hl]

/-- **A table overrides what it binds, and nothing else.** -/
theorem get?_extend (t other : PrefixTable) (label : String) :
    (t.extend other).get? label = (other.get? label).or (t.get? label) := by
  have hbindings : ∀ (bs : List Binding) (t : PrefixTable), Ascending bs →
      (bs.foldl (fun t b => t.insert b.label b.space) t).get? label =
        ((bs.find? fun b => b.label = label).map (·.space)).or (t.get? label) := by
    intro bs
    induction bs with
    | nil => exact fun t _ => rfl
    | cons b rest ih =>
        intro t h
        obtain ⟨hb, hrest⟩ := List.pairwise_cons.1 h
        rw [List.foldl_cons, ih _ hrest, get?_insert]
        by_cases hl : b.label = label
        · have hnone : rest.find? (fun c => c.label = label) = none := by
            rw [List.find?_eq_none]
            intro c hc heq
            have hlt := hb c hc
            rw [hl, ← of_decide_eq_true heq] at hlt
            exact String.lt_irrefl _ hlt
          simp [hnone, hl]
        · simp [hl]
  exact hbindings other.bindings t other.ascending

end PrefixTable

/-! ## Tables made by edits -/

inductive TableEdit where
  | insert (label space : String)
  | extend (other : PrefixTable)

namespace TableEdit

def apply (t : PrefixTable) : TableEdit → PrefixTable
  | insert label space => t.insert label space
  | extend other => t.extend other

/-- The namespace that the edit binds a prefix to. -/
def space? (label : String) : TableEdit → Option String
  | insert l space => if l = label then some space else none
  | extend other => other.get? label

theorem get?_apply (e : TableEdit) (t : PrefixTable) (label : String) :
    (e.apply t).get? label = (e.space? label).or (t.get? label) := by
  cases e with
  | insert l space =>
      rw [apply, PrefixTable.get?_insert, space?]
      split <;> rfl
  | extend other => exact PrefixTable.get?_extend t other label

/-- The namespace that a list of edits leaves for a prefix: that of the last edit that binds it. -/
def lastSpace? (edits : List TableEdit) (label : String) : Option String :=
  edits.reverse.findSome? (space? label)

end TableEdit

namespace PrefixTable

variable {t : PrefixTable} {bs : List Binding} {b c : Binding} {iri label reference space : String}

/-- The table that edits make, one after the other. -/
def edited (edits : List TableEdit) : PrefixTable := edits.foldl (fun t e => e.apply t) empty

/-- **The last edit that binds a prefix counts.** -/
theorem get?_edited (edits : List TableEdit) (label : String) :
    (edited edits).get? label = TableEdit.lastSpace? edits label := by
  have hfrom : ∀ t : PrefixTable, (edits.foldl (fun t e => e.apply t) t).get? label =
      (TableEdit.lastSpace? edits label).or (t.get? label) := by
    induction edits with
    | nil => exact fun t => rfl
    | cons e edits ih =>
        intro t
        rw [List.foldl_cons, ih, TableEdit.get?_apply, TableEdit.lastSpace?, TableEdit.lastSpace?,
          List.reverse_cons, List.findSome?_append, List.findSome?_singleton, Option.or_assoc]
  rw [edited, hfrom]
  exact Option.or_none

/-! ## The longest namespace -/

theorem matches_iff : Binding.matches b iri = true ↔ b.space ≠ "" ∧ ∃ rest, b.space ++ rest = iri := by
  unfold Binding.matches
  rw [Bool.and_eq_true, decide_eq_true_eq, Option.isSome_iff_exists]
  refine and_congr_right fun _ => ⟨?_, ?_⟩
  · rintro ⟨rest, hrest⟩
    rw [afterLead?_eq_some_iff] at hrest
    exact ⟨String.ofList rest, by rw [← String.toList_inj, String.toList_append, String.toList_ofList, hrest]⟩
  · rintro ⟨rest, rfl⟩
    exact ⟨rest.toList, by rw [afterLead?_eq_some_iff, String.toList_append]⟩

/-- The binding with the longest matching namespace, and with the first label that has it. -/
structure IsLongest (iri : String) (bs : List Binding) (b : Binding) : Prop where
  mem : b ∈ bs
  fits : Binding.matches b iri = true
  longest : ∀ c ∈ bs, Binding.matches c iri = true → c.space.length ≤ b.space.length
  first : ∀ c ∈ bs, Binding.matches c iri = true → c.space.length = b.space.length → b.label ≤ c.label

theorem IsLongest.unique (h : Ascending bs) (hb : IsLongest iri bs b) (hc : IsLongest iri bs c) : b = c := by
  have hlength : b.space.length = c.space.length :=
    Nat.le_antisymm (hc.longest b hb.mem hb.fits) (hb.longest c hc.mem hc.fits)
  have hlabel : b.label = c.label :=
    String.le_antisymm (hb.first c hc.mem hc.fits hlength.symm) (hc.first b hb.mem hb.fits hlength)
  exact @binding_unique ⟨bs, h⟩ b c hb.mem hc.mem hlabel

theorem longest?_eq_none (h : longest? iri bs = none) : ∀ c ∈ bs, ¬ Binding.matches c iri = true := by
  induction bs with
  | nil => simp
  | cons d rest ih =>
      unfold longest? at h
      split at h
      · split at h
        · split at h <;> cases h
        · cases h
      · rename_i hd
        exact List.forall_mem_cons.2 ⟨hd, ih h⟩

/-- A binding that matches no more than a longer one does makes no difference. -/
theorem IsLongest.cons (h : IsLongest iri bs c)
    (hlt : Binding.matches b iri = true → b.space.length < c.space.length) : IsLongest iri (b :: bs) c where
  mem := List.mem_cons_of_mem _ h.mem
  fits := h.fits
  longest := List.forall_mem_cons.2 ⟨fun hb => Nat.le_of_lt (hlt hb), h.longest⟩
  first := List.forall_mem_cons.2 ⟨fun hb heq => absurd heq (Nat.ne_of_lt (hlt hb)), h.first⟩

/-- The first binding that matches is the longest if no later one is longer. -/
theorem isLongest_head (h : Ascending (b :: bs)) (hb : Binding.matches b iri = true)
    (hle : ∀ c ∈ bs, Binding.matches c iri = true → c.space.length ≤ b.space.length) :
    IsLongest iri (b :: bs) b where
  mem := List.mem_cons_self
  fits := hb
  longest := List.forall_mem_cons.2 ⟨fun _ => Nat.le_refl _, hle⟩
  first := List.forall_mem_cons.2 ⟨fun _ _ => String.le_refl _, fun c hc _ _ =>
    Std.le_of_lt ((List.pairwise_cons.1 h).1 c hc)⟩

theorem isLongest_of_longest? (h : Ascending bs) (hb : longest? iri bs = some b) : IsLongest iri bs b := by
  induction bs generalizing b with
  | nil => cases hb
  | cons d rest ih =>
      have hrest : Ascending rest := (List.pairwise_cons.1 h).2
      unfold longest? at hb
      split at hb
      · rename_i hfits
        split at hb
        · rename_i c hc
          have hlongest := ih hrest hc
          split at hb
          · rename_i hlt
            cases hb
            exact hlongest.cons fun _ => hlt
          · rename_i hle
            cases hb
            exact isLongest_head h hfits fun x hx hxfits =>
              Nat.le_trans (hlongest.longest x hx hxfits) (Nat.le_of_not_lt hle)
        · rename_i hnone
          cases hb
          exact isLongest_head h hfits fun x hx hxfits => absurd hxfits (longest?_eq_none hnone x hx)
      · rename_i hfits
        exact (ih hrest hb).cons fun hdfits => absurd hdfits hfits

/-- **The search finds exactly the longest.** -/
theorem longest?_eq_some_iff (h : Ascending bs) : longest? iri bs = some b ↔ IsLongest iri bs b := by
  refine ⟨isLongest_of_longest? h, fun hb => ?_⟩
  cases hc : longest? iri bs with
  | none => exact absurd hb.fits (longest?_eq_none hc b hb.mem)
  | some c => rw [(isLongest_of_longest? h hc).unique h hb]

/-! ## Where an IRI is split -/

/-- An IRI is `space` and `reference`, of which neither is empty: `space` is the longest of the namespaces in
`bound` that the IRI begins with, and `label` is the first that has it. -/
structure SplitsAt (bound : String → Option String) (iri label reference space : String) : Prop where
  bound_eq : bound label = some space
  space_ne : space ≠ ""
  append_eq : space ++ reference = iri
  reference_ne : reference ≠ ""
  longest : ∀ other space' rest, bound other = some space' → space' ++ rest = iri → space'.length ≤ space.length
  first : ∀ other, bound other = some space → label ≤ other

theorem eq_of_append_eq {s s' r r' : String} (h : s ++ r = s' ++ r') (hlength : s.length = s'.length) : s = s' := by
  rw [← String.toList_inj, String.toList_append, String.toList_append] at h
  exact String.toList_inj.1 (List.append_inj_left h hlength)

/-- An IRI is split where the longest binding ends, if something follows. -/
theorem shrink?_eq_some_iff_longest : t.shrink? iri = some (label, reference) ↔
    ∃ b, IsLongest iri t.bindings b ∧ b.label = label ∧ b.space ++ reference = iri ∧ reference ≠ "" := by
  unfold shrink?
  simp only [Option.bind_eq_bind, Option.bind_eq_some_iff, longest?_eq_some_iff t.ascending,
    afterLead?_eq_some_iff]
  refine exists_congr fun b => and_congr_right fun _ => ?_
  constructor
  · rintro ⟨rest, hrest, h⟩
    split at h
    · cases h
    · rename_i hne
      cases h
      refine ⟨rfl, ?_, ?_⟩
      · rw [← String.toList_inj, String.toList_append, String.toList_ofList, hrest]
      · simpa using hne
  · rintro ⟨rfl, rfl, hne⟩
    refine ⟨reference.toList, String.toList_append, ?_⟩
    simpa using hne

/-- **An IRI is split at the longest namespace that is bound.** -/
theorem shrink?_eq_some_iff :
    t.shrink? iri = some (label, reference) ↔ ∃ space, SplitsAt t.get? iri label reference space := by
  rw [shrink?_eq_some_iff_longest]
  constructor
  · rintro ⟨b, hb, rfl, happend, hne⟩
    have hspace : b.space ≠ "" := (matches_iff.1 hb.fits).1
    refine ⟨b.space, get?_eq_some_iff.2 hb.mem, hspace, happend, hne, ?_, ?_⟩
    · intro other space' rest hbound hrest
      by_cases hempty : space' = ""
      · rw [hempty]
        exact Nat.zero_le _
      · exact hb.longest ⟨other, space'⟩ (get?_eq_some_iff.1 hbound) (matches_iff.2 ⟨hempty, rest, hrest⟩)
    · intro other hbound
      exact hb.first ⟨other, b.space⟩ (get?_eq_some_iff.1 hbound) (matches_iff.2 ⟨hspace, _, happend⟩) rfl
  · rintro ⟨space, h⟩
    refine ⟨⟨label, space⟩, ⟨get?_eq_some_iff.1 h.bound_eq, ?_, ?_, ?_⟩, rfl, h.append_eq, h.reference_ne⟩
    · exact matches_iff.2 ⟨h.space_ne, reference, h.append_eq⟩
    · intro c hc hfits
      obtain ⟨-, rest, hrest⟩ := matches_iff.1 hfits
      exact h.longest c.label c.space rest (get?_eq_some_iff.2 hc) hrest
    · intro c hc hfits hlength
      obtain ⟨-, rest, hrest⟩ := matches_iff.1 hfits
      -- Of two namespaces with one length that the IRI begins with, both are one.
      have hspace : c.space = space := eq_of_append_eq (hrest.trans h.append_eq.symm) hlength
      exact h.first c.label (hspace ▸ get?_eq_some_iff.2 hc)

/-- What shrinking does with every IRI, if `bound` tells what is bound. -/
structure ShrinksBy (t : PrefixTable) (bound : String → Option String) : Prop where
  /-- The label and the reference are those of the split at the longest namespace, ... -/
  some_iff : ∀ iri label reference,
    t.shrink? iri = some (label, reference) ↔ ∃ space, SplitsAt bound iri label reference space
  /-- ... nothing is given if there is none, ... -/
  none_iff : ∀ iri, t.shrink? iri = none ↔ ¬ ∃ label reference space, SplitsAt bound iri label reference space
  /-- ... and what is given tells the IRI. -/
  injective : ∀ iri iri' split, t.shrink? iri = some split → t.shrink? iri' = some split → iri = iri'

/-- **A table that edits made shrinks by what they bind last.** -/
theorem shrink?_edited (edits : List TableEdit) : (edited edits).ShrinksBy (TableEdit.lastSpace? edits) := by
  have hbound : (edited edits).get? = TableEdit.lastSpace? edits := funext (get?_edited edits)
  have hsome : ∀ iri label reference, (edited edits).shrink? iri = some (label, reference) ↔
      ∃ space, SplitsAt (TableEdit.lastSpace? edits) iri label reference space := by
    intro iri label reference
    rw [← hbound]
    exact shrink?_eq_some_iff
  constructor
  case some_iff => exact hsome
  case none_iff =>
    intro iri
    simp only [Option.eq_none_iff_forall_ne_some, Prod.forall, ne_eq, hsome, not_exists]
  case injective =>
    rintro iri iri' ⟨label, reference⟩ h h'
    obtain ⟨space, hsplit⟩ := (hsome iri label reference).1 h
    obtain ⟨space', hsplit'⟩ := (hsome iri' label reference).1 h'
    have hspace : space = space' := Option.some.inj (hsplit.bound_eq.symm.trans hsplit'.bound_eq)
    rw [← hsplit.append_eq, ← hsplit'.append_eq, hspace]

/-- Of two labels of the longest namespace the first is taken, also when it was bound last. -/
example :
    let t := edited [.insert "ex" "http://e/", .insert "v" "http://e/v#", .insert "u" "http://e/v#"]
    t.shrink? "http://e/v#Person" = some ("u", "Person") ∧ t.shrink? "http://e/v#" = none := by
  decide +kernel

end PrefixTable

end ShapeTypes
