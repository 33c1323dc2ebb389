import ShapeTypes.Proofs.Rdf.Collection

/-!
# Lists are chains of cells

A list is given by triples alone: each cell has a value and a rest, and the rests lead to the empty list.

* `Graph.Cells` — the cells that lead from one term to another, with their values;
  `Cells.unique`, `Cells.nodup` — **cells that lead to the empty list are given by the head**, and none of them is met
  twice; `Cells.exists_initial` — there are such cells wherever some lead on from the empty list to it again;
* `collectionAfter_cells` — **reading goes along the cells**;
* `Graph.Breaks` — what stands at the end of the cells is no list; `collectionAfter_breaks` — and is refused;
* `exists_cells_after` — reading always goes along some cells, to the empty list or to such an end;
* `collection_eq_ok_iff`, `collection_eq_error_iff` — **so it gives the values of a chain, or says where it breaks.**
-/

namespace ShapeTypes.Rdf.Graph

variable {g : Graph}

/-- The cells that lead from one term to another, with their values: each cell has a value and a rest, and the next
one is its rest. -/
inductive Cells (g : Graph) : Term → List Node → List Term → Term → Prop where
  | nil (t : Term) : Cells g t [] [] t
  | cons {n : Node} {first rest last : Term} {cells : List Node} {items : List Term} :
      ⟨n, rdfFirst, first⟩ ∈ g.triples → ⟨n, rdfRest, rest⟩ ∈ g.triples → Cells g rest cells items last →
      Cells g (.node n) (n :: cells) (first :: items) last

section

variable {head last : Term} {cells : List Node} {items : List Term} {n : Node}

/-- From every cell on, the cells that follow it lead to the same end. -/
theorem Cells.from_mem (h : g.Cells head cells items last) (hn : n ∈ cells) :
    ∃ before after items', cells = before ++ n :: after ∧ g.Cells (.node n) (n :: after) items' last := by
  induction h with
  | nil => cases hn
  | cons hfirst hrest hcells ih =>
      rcases List.mem_cons.1 hn with rfl | hn
      · exact ⟨[], _, _, rfl, .cons hfirst hrest hcells⟩
      · obtain ⟨before, after, items', rfl, hfrom⟩ := ih hn
        exact ⟨_ :: before, after, items', rfl, hfrom⟩

theorem Cells.exists_triples (h : g.Cells head cells items last) (hn : n ∈ cells) :
    (∃ first, ⟨n, rdfFirst, first⟩ ∈ g.triples) ∧ ∃ rest, ⟨n, rdfRest, rest⟩ ∈ g.triples := by
  obtain ⟨before, after, items', -, hfrom⟩ := h.from_mem hn
  cases hfrom with
  | cons hfirst hrest _ => exact ⟨⟨_, hfirst⟩, ⟨_, hrest⟩⟩

/-- **The cells that lead to the empty list are given by the head**, and so are their values. -/
theorem Cells.unique {cells' : List Node} {items' : List Term} (hs : ∀ n ∈ cells, g.IsSingleCell n)
    (h : g.Cells head cells items rdfNil.term) (hnil : .iri rdfNil ∉ cells)
    (h' : g.Cells head cells' items' rdfNil.term) (hnil' : .iri rdfNil ∉ cells') : cells = cells' ∧ items = items' := by
  generalize hlast : rdfNil.term = last at h
  induction h generalizing cells' items' with
  | nil t =>
      subst hlast
      cases h' with
      | nil => exact ⟨rfl, rfl⟩
      | cons => exact absurd List.mem_cons_self hnil'
  | cons hfirst hrest hcells ih =>
      rw [List.mem_cons, not_or] at hnil
      cases h' with
      | nil => exact absurd rfl hnil.1
      | cons hfirst' hrest' hcells' =>
          have hn := hs _ List.mem_cons_self
          obtain rfl := hn.first _ _ hfirst hfirst'
          obtain rfl := hn.rest _ _ hrest hrest'
          have htail := ih (fun n hn => hs n (List.mem_cons_of_mem _ hn)) hnil.2 hcells'
            (fun hmem => hnil' (List.mem_cons_of_mem _ hmem)) hlast
          exact ⟨congrArg _ htail.1, congrArg _ htail.2⟩

/-- **No cell of a list is met twice.** What follows it would be as long as what follows it later. -/
theorem Cells.nodup (hs : ∀ n ∈ cells, g.IsSingleCell n) (h : g.Cells head cells items rdfNil.term)
    (hnil : .iri rdfNil ∉ cells) : cells.Nodup := by
  generalize hlast : rdfNil.term = last at h
  induction h with
  | nil => exact List.nodup_nil
  | cons hfirst hrest hcells ih =>
      subst hlast
      rename_i n first rest cells items
      have hnil' : .iri rdfNil ∉ cells := fun hmem => hnil (List.mem_cons_of_mem _ hmem)
      refine List.nodup_cons.2 ⟨fun hn => ?_, ih (fun n hn => hs n (List.mem_cons_of_mem _ hn)) hnil' rfl⟩
      obtain ⟨before, after, items', rfl, hfrom⟩ := hcells.from_mem hn
      have hnil'' : .iri rdfNil ∉ n :: after := fun hmem => hnil' (List.mem_append_right _ hmem)
      have hsame := ((Cells.cons hfirst hrest hcells).unique hs hnil hfrom hnil'').1
      have hlength := congrArg List.length hsame
      simp only [List.length_cons, List.length_append] at hlength
      omega

/-- Cells that go on behind the empty list lead to it before that. -/
theorem Cells.exists_initial (h : g.Cells head cells items rdfNil.term) : ∃ cells' items',
    g.Cells head cells' items' rdfNil.term ∧ .iri rdfNil ∉ cells' ∧ items' <+: items := by
  generalize hlast : rdfNil.term = last at h
  induction h with
  | nil t => exact ⟨[], [], .nil t, List.not_mem_nil, List.prefix_rfl⟩
  | cons hfirst hrest hcells ih =>
      rename_i n first rest last cells items
      by_cases hn : n = .iri rdfNil
      · subst hlast hn
        exact ⟨[], [], .nil _, List.not_mem_nil, List.nil_prefix⟩
      · obtain ⟨cells', items', hcells', hnil, hprefix⟩ := ih hlast
        refine ⟨n :: cells', first :: items', .cons hfirst hrest hcells', ?_, List.cons_prefix_cons.2 ⟨rfl, hprefix⟩⟩
        rw [List.mem_cons, not_or]
        exact ⟨Ne.symm hn, hnil⟩

/-! ## Reading along the cells -/

/-- **Reading goes along the cells**: it has their values, and reads on where they lead to. -/
theorem collectionAfter_cells {passed : List Node} (hs : ∀ n ∈ cells, g.IsSingleCell n)
    (h : g.Cells head cells items last) (hnil : .iri rdfNil ∉ cells) (hd : cells.Nodup)
    (hp : ∀ n ∈ cells, n ∉ passed) :
    g.collectionAfter passed head = (items ++ ·) <$> g.collectionAfter (cells.reverse ++ passed) last := by
  induction h generalizing passed with
  | nil t => cases h : g.collectionAfter passed t <;> simp [h]
  | cons hfirst hrest hcells ih =>
      rename_i n first rest last cells items
      rw [List.mem_cons, not_or] at hnil
      rw [List.nodup_cons] at hd
      have hn := hs n List.mem_cons_self
      have hp' : ∀ m ∈ cells, m ∉ n :: passed := by
        intro m hm hmem
        rcases List.mem_cons.1 hmem with rfl | hmem
        · exact hd.1 hm
        · exact hp m (List.mem_cons_of_mem _ hm) hmem
      rw [collectionAfter_node (Ne.symm hnil.1) (hp n List.mem_cons_self), hn.first.object?_eq_some_iff.2 hfirst,
        hn.rest.object?_eq_some_iff.2 hrest]
      simp only
      rw [ih (fun m hm => hs m (List.mem_cons_of_mem _ hm)) hnil.2 hd.2 hp', List.reverse_cons, List.append_assoc,
        List.singleton_append]
      cases g.collectionAfter (cells.reverse ++ n :: passed) last <;> rfl

theorem collectionAfter_nil (passed : List Node) : g.collectionAfter passed rdfNil.term = .ok [] := by
  rw [Iri.term, collectionAfter, if_pos rfl]

/-- What stands at the end of the cells is no list: it is a literal, a cell again, or a node without value or rest. -/
inductive Breaks (g : Graph) (cells : List Node) : Term → CollectionError → Prop where
  | literal (l : Literal) : Breaks g cells (.literal l) (.notNode (.literal l))
  | cyclic {n : Node} : n ∈ cells → Breaks g cells (.node n) .cyclic
  | missingFirst {n : Node} : n ≠ .iri rdfNil → (∀ o, ⟨n, rdfFirst, o⟩ ∉ g.triples) →
      Breaks g cells (.node n) .missingFirst
  | missingRest {n : Node} {first : Term} : n ≠ .iri rdfNil → ⟨n, rdfFirst, first⟩ ∈ g.triples →
      (∀ o, ⟨n, rdfRest, o⟩ ∉ g.triples) → Breaks g cells (.node n) .missingRest

theorem Breaks.mono {cells' : List Node} {t : Term} {e : CollectionError} (h : g.Breaks cells t e)
    (hsub : cells ⊆ cells') : g.Breaks cells' t e := by
  cases h with
  | literal l => exact .literal l
  | cyclic hn => exact .cyclic (hsub hn)
  | missingFirst hn hfirst => exact .missingFirst hn hfirst
  | missingRest hn hfirst hrest => exact .missingRest hn hfirst hrest

/-- **What is no list is refused**, each with its error. -/
theorem collectionAfter_breaks {t : Term} {e : CollectionError} (h : g.Cells head cells items t)
    (hnil : .iri rdfNil ∉ cells) (hb : g.Breaks cells t e) : g.collectionAfter cells.reverse t = .error e := by
  cases hb with
  | literal l => rw [collectionAfter]
  | cyclic hn =>
      have hne : _ ≠ Node.iri rdfNil := fun heq => hnil (heq ▸ hn)
      rw [collectionAfter, if_neg hne, dif_pos (List.mem_reverse.2 hn)]
  | missingFirst hne hfirst =>
      rename_i n
      have hp : n ∉ cells.reverse := by
        intro hmem
        obtain ⟨⟨o, ho⟩, -⟩ := h.exists_triples (List.mem_reverse.1 hmem)
        exact hfirst o ho
      rw [collectionAfter_node hne hp, object?_eq_none_iff.2 hfirst]
  | missingRest hne hfirst hrest =>
      rename_i n first
      have hp : n ∉ cells.reverse := by
        intro hmem
        obtain ⟨-, o, ho⟩ := h.exists_triples (List.mem_reverse.1 hmem)
        exact hrest o ho
      obtain ⟨first', hfirst'⟩ := exists_object?_iff.2 ⟨first, hfirst⟩
      rw [collectionAfter_node hne hp, hfirst', object?_eq_none_iff.2 hrest]

end

/-- **Reading always goes along some cells**, each met once, to the empty list or to what is no list. -/
theorem exists_cells_after (g : Graph) (passed : List Node) (head : Term) : ∃ cells items last,
    g.Cells head cells items last ∧ .iri rdfNil ∉ cells ∧ cells.Nodup ∧ (∀ n ∈ cells, n ∉ passed) ∧
      (last = rdfNil.term ∨ ∃ e, g.Breaks (cells ++ passed) last e) := by
  induction passed, head using collectionAfter.induct g with
  | case1 passed l => exact ⟨[], [], _, .nil _, by simp, by simp, by simp, Or.inr ⟨_, .literal l⟩⟩
  | case2 passed => exact ⟨[], [], _, .nil _, by simp, by simp, by simp, Or.inl rfl⟩
  | case3 passed n hn hp => exact ⟨[], [], _, .nil _, by simp, by simp, by simp, Or.inr ⟨_, .cyclic hp⟩⟩
  | case4 passed n hn hp hf =>
      exact ⟨[], [], _, .nil _, by simp, by simp, by simp, Or.inr ⟨_, .missingFirst hn (object?_eq_none_iff.1 hf)⟩⟩
  | case5 passed n hn hp first hf hr =>
      have hfirst := mem_triples_of_object? hf
      have hbreaks : g.Breaks passed _ _ := .missingRest hn hfirst (object?_eq_none_iff.1 hr)
      exact ⟨[], [], _, .nil _, by simp, by simp, by simp, Or.inr ⟨_, hbreaks⟩⟩
  | case6 passed n hn hp first hf rest hr _ _ ih | case7 passed n hn hp first hf rest hr _ _ ih =>
      obtain ⟨cells, items, last, hcells, hnil, hd, hpassed, hlast⟩ := ih
      have hn' : n ∉ cells := fun hmem => hpassed n hmem List.mem_cons_self
      refine ⟨n :: cells, first :: items, last, .cons (mem_triples_of_object? hf) (mem_triples_of_object? hr) hcells,
        ?_, List.nodup_cons.2 ⟨hn', hd⟩, ?_, hlast.imp id ?_⟩
      · rw [List.mem_cons, not_or]
        exact ⟨Ne.symm hn, hnil⟩
      · intro m hm
        rcases List.mem_cons.1 hm with rfl | hm
        · exact hp
        · exact fun hmem => hpassed m hm (List.mem_cons_of_mem _ hmem)
      · rintro ⟨e, he⟩
        exact ⟨e, he.mono (by simp)⟩

/-! ## What reading a list gives -/

section

variable {head : Term} {cells : List Node} {items : List Term}

theorem collection_of_cells (hs : ∀ n ∈ cells, g.IsSingleCell n) (h : g.Cells head cells items rdfNil.term)
    (hnil : .iri rdfNil ∉ cells) : g.collection head = .ok items := by
  rw [collection, collectionAfter_cells hs h hnil (h.nodup hs hnil) fun _ _ => List.not_mem_nil, collectionAfter_nil]
  exact congrArg Except.ok (List.append_nil items)

theorem collection_of_breaks {last : Term} {e : CollectionError} (hs : ∀ n ∈ cells, g.IsSingleCell n)
    (h : g.Cells head cells items last) (hnil : .iri rdfNil ∉ cells) (hd : cells.Nodup)
    (hb : g.Breaks cells last e) : g.collection head = .error e := by
  rw [collection, collectionAfter_cells hs h hnil hd fun _ _ => List.not_mem_nil, List.append_nil,
    collectionAfter_breaks h hnil hb]
  rfl

variable (hg : ∀ n, g.IsSingleCell n)

include hg

/-- **A list is read exactly if its cells lead to the empty list**, and then as their values. -/
theorem collection_eq_ok_iff :
    g.collection head = .ok items ↔ ∃ cells, g.Cells head cells items rdfNil.term ∧ .iri rdfNil ∉ cells := by
  constructor
  · intro h
    obtain ⟨cells, items', last, hcells, hnil, hd, -, rfl | ⟨e, he⟩⟩ := g.exists_cells_after [] head
    · rw [collection_of_cells (fun n _ => hg n) hcells hnil] at h
      cases h
      exact ⟨cells, hcells, hnil⟩
    · rw [List.append_nil] at he
      rw [collection_of_breaks (fun n _ => hg n) hcells hnil hd he] at h
      cases h
  · rintro ⟨cells, hcells, hnil⟩
    exact collection_of_cells (fun n _ => hg n) hcells hnil

/-- **It is refused exactly if its cells lead to what is no list.** -/
theorem collection_eq_error_iff {e : CollectionError} : g.collection head = .error e ↔ ∃ cells items last,
    g.Cells head cells items last ∧ .iri rdfNil ∉ cells ∧ cells.Nodup ∧ g.Breaks cells last e := by
  constructor
  · intro h
    obtain ⟨cells, items, last, hcells, hnil, hd, -, rfl | ⟨e', he⟩⟩ := g.exists_cells_after [] head
    · rw [collection_of_cells (fun n _ => hg n) hcells hnil] at h
      cases h
    · rw [List.append_nil] at he
      rw [collection_of_breaks (fun n _ => hg n) hcells hnil hd he] at h
      cases h
      exact ⟨cells, items, last, hcells, hnil, hd, he⟩
  · rintro ⟨cells, items, last, hcells, hnil, hd, hb⟩
    exact collection_of_breaks (fun n _ => hg n) hcells hnil hd hb

end

end ShapeTypes.Rdf.Graph
