import ShapeTypes.Proofs.Except
import ShapeTypes.Rdf.Turtle.Document

/-!
# The prefix directives of a document

* `directives` — what follows the words of the prefix directives among some tokens;
* `Passes` — reading from one state to another meets no directive;
* `passes_readObject` — so it is within a statement;
* `Tells` — reading from one state to another declares what the directives in between say;
* `Document.forall₂_directives` — **a document declares what its directives say, in their order.**
-/

namespace ShapeTypes.Rdf.Turtle

/-! ## Directives -/

/-- Whether a token is the word of a prefix directive. -/
def Token.isPrefixWord : Token → Bool
  | .tag w => w = "prefix".toList
  | .word w => w.map Char.toLower = "prefix".toList
  | _ => false

/-- What follows the word of each prefix directive. A tag right after a string tells the language of the string. -/
def directives : List Token → List (List Token)
  | [] => []
  | .string _ :: .tag _ :: rest => directives rest
  | t :: rest => if t.isPrefixWord then rest :: directives rest else directives rest

/-- Whether a token has to do with no directive, whatever follows it. -/
def Token.isNeutral : Token → Bool
  | .string _ => false
  | t => !t.isPrefixWord

theorem Token.isNeutral_iff {t : Token} :
    t.isNeutral = true ↔ (∀ text, t ≠ .string text) ∧ t.isPrefixWord = false := by
  cases t with
  | string text => exact ⟨nofun, fun h => absurd rfl (h.1 text)⟩
  | _ => simp [Token.isNeutral]

theorem directives_cons {t : Token} (h : t.isNeutral = true) (rest : List Token) :
    directives (t :: rest) = directives rest := by
  obtain ⟨hstring, hword⟩ := Token.isNeutral_iff.1 h
  rw [directives]
  · rw [hword]
    rfl
  · intro text _ _ heq
    exact absurd heq (hstring text)

theorem directives_string {rest : List Token} (text : List Char) (h : ∀ word after, rest ≠ .tag word :: after) :
    directives (.string text :: rest) = directives rest := by
  rw [directives]
  · rfl
  · intro _ word after _ hrest
    exact absurd hrest (h word after)

theorem directives_prefixWord {t : Token} (h : t.isPrefixWord = true) (rest : List Token) :
    directives (t :: rest) = rest :: directives rest := by
  rw [directives]
  · rw [h]
    rfl
  · rintro _ _ _ rfl
    cases h

/-! ## Runs -/

variable {α β : Type} {r r' r'' : Reader}

theorem run_bind_eq_ok {x : Reading α} {f : α → Reading β} {b : β} :
    (x >>= f).run r = .ok (b, r'') ↔ ∃ a r', x.run r = .ok (a, r') ∧ (f a).run r' = .ok (b, r'') := by
  simp only [StateT.run_bind, bind_eq_ok, Prod.exists]

theorem run_pure_eq_ok {a b : α} : (pure a : Reading α).run r = .ok (b, r') ↔ b = a ∧ r' = r := by
  show Except.ok (a, r) = Except.ok (b, r') ↔ b = a ∧ r' = r
  simp [eq_comm]

theorem run_throw_ne_ok {e : SyntaxError} {a : α} : (throw e : Reading α).run r ≠ .ok (a, r') := by
  intro h
  cases h

theorem run_get_bind_eq_ok {f : Reader → Reading β} {b : β} :
    ((get : Reading Reader) >>= f).run r = .ok (b, r') ↔ (f r).run r = .ok (b, r') := Iff.rfl

theorem run_set_eq_ok {s : Reader} {u : PUnit} : (set s : Reading PUnit).run r = .ok (u, r') ↔ r' = s := by
  show Except.ok (PUnit.unit, s) = Except.ok (u, r') ↔ r' = s
  simp [eq_comm]

theorem run_modify_eq_ok {f : Reader → Reader} {u : PUnit} :
    (modify f : Reading PUnit).run r = .ok (u, r') ↔ r' = f r := by
  show Except.ok (PUnit.unit, f r) = Except.ok (u, r') ↔ r' = f r
  simp [eq_comm]

theorem run_next_eq_ok {t : Token} :
    next.run r = .ok (t, r') ↔ r.left = t :: r'.left ∧ r' = { r with left := r'.left } := by
  unfold next
  rw [run_get_bind_eq_ok]
  cases hleft : r.left with
  | nil => exact ⟨fun h => absurd h run_throw_ne_ok, fun h => nomatch h.1⟩
  | cons u rest =>
      constructor
      · intro h
        obtain ⟨_, _, hset, hpure⟩ := run_bind_eq_ok.1 h
        cases run_set_eq_ok.1 hset
        obtain ⟨rfl, rfl⟩ := run_pure_eq_ok.1 hpure
        exact ⟨rfl, rfl⟩
      · rintro ⟨heq, hr'⟩
        cases heq
        rw [hr']
        rfl

theorem run_peek?_eq_ok {o : Option Token} : peek?.run r = .ok (o, r') ↔ o = r.left.head? ∧ r' = r := by
  unfold peek?
  rw [run_get_bind_eq_ok, run_pure_eq_ok]

theorem run_accept_eq_ok {m : Mark} {b : Bool} (h : (accept m).run r = .ok (b, r')) :
    (b = true ∧ r.left = .mark m :: r'.left ∧ r' = { r with left := r'.left }) ∨ (b = false ∧ r' = r) := by
  unfold accept at h
  rw [run_get_bind_eq_ok] at h
  split at h
  · rename_i n rest hleft
    split at h
    · rename_i hm
      obtain ⟨_, _, hset, hpure⟩ := run_bind_eq_ok.1 h
      cases run_set_eq_ok.1 hset
      obtain ⟨rfl, rfl⟩ := run_pure_eq_ok.1 hpure
      exact .inl ⟨rfl, by rw [hleft, hm], rfl⟩
    · obtain ⟨rfl, rfl⟩ := run_pure_eq_ok.1 h
      exact .inr ⟨rfl, rfl⟩
  · obtain ⟨rfl, rfl⟩ := run_pure_eq_ok.1 h
    exact .inr ⟨rfl, rfl⟩

/-! ## Reading without directives -/

/-- From one state to another no directive is met, and nothing is declared. -/
structure Passes (r r' : Reader) : Prop where
  directives : directives r'.left = directives r.left
  declared : r'.declared = r.declared
  left : r'.left <:+ r.left

theorem Passes.refl (r : Reader) : Passes r r := ⟨rfl, rfl, List.suffix_rfl⟩

theorem Passes.trans (h : Passes r r') (h' : Passes r' r'') : Passes r r'' :=
  ⟨h'.directives.trans h.directives, h'.declared.trans h.declared, h'.left.trans h.left⟩

/-- Reading that meets no directive, wherever it ends well. -/
def Quiet (x : Reading α) : Prop := ∀ ⦃r a r'⦄, x.run r = .ok (a, r') → Passes r r'

theorem Quiet.bind {x : Reading α} {f : α → Reading β} (hx : Quiet x) (hf : ∀ a, Quiet (f a)) : Quiet (x >>= f) := by
  intro r b r'' h
  obtain ⟨a, r', hxa, hfb⟩ := run_bind_eq_ok.1 h
  exact (hx hxa).trans (hf a hfb)

theorem quiet_pure (a : α) : Quiet (pure a : Reading α) := by
  intro r b r' h
  obtain ⟨-, rfl⟩ := run_pure_eq_ok.1 h
  exact .refl _

theorem quiet_throw (e : SyntaxError) : Quiet (throw e : Reading α) := fun _ _ _ h => absurd h run_throw_ne_ok

theorem quiet_get_bind {f : Reader → Reading α} (h : ∀ s, Quiet (f s)) : Quiet (get >>= f) :=
  fun r _ _ hrun => h r (run_get_bind_eq_ok.1 hrun)

theorem quiet_peek? : Quiet peek? := by
  intro r b r' h
  obtain ⟨-, rfl⟩ := run_peek?_eq_ok.1 h
  exact .refl _

theorem passes_next {t : Token} (ht : t.isNeutral = true) (h : next.run r = .ok (t, r')) : Passes r r' := by
  obtain ⟨hleft, hr'⟩ := run_next_eq_ok.1 h
  exact {
    directives := by rw [hleft, directives_cons ht]
    declared := by rw [hr']
    left := ⟨[t], hleft.symm⟩ }

/-- After a token that is neutral if reading goes on with it. -/
theorem quiet_next_bind {f : Token → Reading α}
    (hneutral : ∀ t r a r', (f t).run r = .ok (a, r') → t.isNeutral = true) (hf : ∀ t, Quiet (f t)) :
    Quiet (next >>= f) := by
  intro r a r'' h
  obtain ⟨t, r', ht, ha⟩ := run_bind_eq_ok.1 h
  exact (passes_next (hneutral t r' a r'' ha) ht).trans (hf t ha)

theorem quiet_accept (m : Mark) : Quiet (accept m) := by
  intro r b r' h
  rcases run_accept_eq_ok h with ⟨-, hleft, hr'⟩ | ⟨-, rfl⟩
  · exact {
      directives := by rw [hleft, directives_cons rfl]
      declared := by rw [hr']
      left := ⟨[_], hleft.symm⟩ }
  · exact .refl _

theorem quiet_expect (m : Mark) : Quiet (expect m) := by
  refine quiet_next_bind ?_ ?_
  · intro t r a r' h
    split at h
    · exact absurd h run_throw_ne_ok
    · rename_i hm
      rw [not_not.1 hm]
      rfl
  · intro t
    split
    · exact quiet_throw _
    · exact quiet_pure _

theorem quiet_unlabelledNode : Quiet unlabelledNode := by
  intro r n r' h
  unfold unlabelledNode at h
  rw [run_get_bind_eq_ok] at h
  obtain ⟨_, _, hset, h⟩ := run_bind_eq_ok.1 h
  cases run_set_eq_ok.1 hset
  obtain ⟨rfl, rfl⟩ := run_pure_eq_ok.1 h
  exact ⟨rfl, rfl, List.suffix_rfl⟩

theorem quiet_state (subject : Node) (predicate : Iri) (object : Term) : Quiet (state subject predicate object) := by
  intro r u r' h
  cases run_modify_eq_ok.1 h
  exact ⟨rfl, rfl, List.suffix_rfl⟩

/-! ## Terms -/

theorem run_iriOfReference_eq_ok {text : List Char} {i : Iri} (h : (iriOfReference text).run r = .ok (i, r')) :
    resolveIri? r.base text = some i ∧ r' = r := by
  unfold iriOfReference at h
  rw [run_get_bind_eq_ok] at h
  split at h
  · rename_i j hj
    obtain ⟨rfl, rfl⟩ := run_pure_eq_ok.1 h
    exact ⟨hj, rfl⟩
  · exact absurd h run_throw_ne_ok

theorem quiet_resolveName (label reference : List Char) (suspect : Bool) :
    Quiet (resolveName label reference suspect) := by
  refine quiet_get_bind fun s => ?_
  split
  · exact quiet_throw _
  · dsimp only
    split
    · split
      · exact quiet_pure _
      · exact quiet_throw _
    · exact quiet_pure _

theorem quiet_iriOf (t : Token) : Quiet (iriOf t) := by
  unfold iriOf
  split
  · intro r i r' h
    obtain ⟨-, rfl⟩ := run_iriOfReference_eq_ok h
    exact .refl _
  · exact quiet_resolveName _ _ _
  · exact quiet_throw _

/-- What stands for an IRI begins no directive. -/
theorem isNeutral_of_iriOf {t : Token} {i : Iri} (h : (iriOf t).run r = .ok (i, r')) : t.isNeutral = true := by
  unfold iriOf at h
  split at h
  · rfl
  · rfl
  · exact absurd h run_throw_ne_ok

/-- From after a string to after its literal no directive is met. -/
structure PassesString (r r' : Reader) : Prop where
  directives : ∀ text, Turtle.directives (.string text :: r.left) = Turtle.directives r'.left
  declared : r'.declared = r.declared
  left : r'.left <:+ r.left

theorem passesString_readLiteral {text : List Char} {l : Literal} (h : (readLiteral text).run r = .ok (l, r')) :
    PassesString r r' := by
  unfold readLiteral at h
  obtain ⟨o, s₀, hpeek, hrun⟩ := run_bind_eq_ok.1 h
  obtain ⟨hhead, hs₀⟩ := run_peek?_eq_ok.1 hpeek
  subst s₀
  clear h hpeek
  split at hrun
  · obtain ⟨t, s, hnext, hrun⟩ := run_bind_eq_ok.1 hrun
    obtain ⟨hleft, hs⟩ := run_next_eq_ok.1 hnext
    rw [hleft, List.head?_cons, Option.some.injEq] at hhead
    subst t
    dsimp only at hrun
    split at hrun
    · obtain ⟨-, rfl⟩ := run_pure_eq_ok.1 hrun
      exact {
        directives := fun _ => by rw [hleft, directives]
        declared := by rw [hs]
        left := ⟨[_], hleft.symm⟩ }
    · exact absurd hrun run_throw_ne_ok
  · obtain ⟨t, s, hnext, hrun⟩ := run_bind_eq_ok.1 hrun
    obtain ⟨hleft, hs⟩ := run_next_eq_ok.1 hnext
    rw [hleft, List.head?_cons, Option.some.injEq] at hhead
    subst t
    obtain ⟨u, s', hnext, hrun⟩ := run_bind_eq_ok.1 hrun
    obtain ⟨hleft', hs'⟩ := run_next_eq_ok.1 hnext
    obtain ⟨i, s'', hiri, hrun⟩ := run_bind_eq_ok.1 hrun
    have hpass := quiet_iriOf u hiri
    have hend : r' = s'' := by
      split at hrun
      · obtain ⟨_, _, hthrow, -⟩ := run_bind_eq_ok.1 hrun
        exact absurd hthrow run_throw_ne_ok
      · exact (run_pure_eq_ok.1 hrun).2
    subst r'
    exact {
      directives := fun text => by
        rw [hleft, directives_string text (fun _ _ => by simp), directives_cons rfl, hleft',
          directives_cons (isNeutral_of_iriOf hiri), hpass.directives]
      declared := by rw [hpass.declared, hs', hs]
      left := hpass.left.trans ⟨[_, _], by rw [hleft, hleft']; rfl⟩ }
  · rename_i htag _
    obtain ⟨-, rfl⟩ := run_pure_eq_ok.1 hrun
    exact {
      directives := fun text => directives_string text fun word after hleft =>
        htag word (by rw [hhead, hleft]; rfl)
      declared := rfl
      left := List.suffix_rfl }

theorem quiet_readPredicate : Quiet readPredicate := by
  refine quiet_next_bind ?_ ?_
  · intro t r i r' h
    split at h
    · rename_i ht
      rw [ht]
      rfl
    · exact isNeutral_of_iriOf h
  · intro t
    split
    · exact quiet_pure _
    · exact quiet_iriOf t

/-! ## Statements -/

theorem quiet_readObject {fuel : Nat} (hitems : Quiet (readItems fuel))
    (hpredicates : ∀ n, Quiet (readPredicates fuel n)) : Quiet (readObject (fuel + 1)) := by
  intro r a r' h
  unfold readObject at h
  obtain ⟨t, s, hnext, hrun⟩ := run_bind_eq_ok.1 h
  split at hrun
  · exact (passes_next rfl hnext).trans (quiet_pure _ hrun)
  · rename_i text
    obtain ⟨l, s', hliteral, hpure⟩ := run_bind_eq_ok.1 hrun
    obtain ⟨-, rfl⟩ := run_pure_eq_ok.1 hpure
    obtain ⟨hleft, hs⟩ := run_next_eq_ok.1 hnext
    have hpass := passesString_readLiteral hliteral
    exact {
      directives := by rw [hleft, hpass.directives]
      declared := by rw [hpass.declared, hs]
      left := hpass.left.trans ⟨[_], hleft.symm⟩ }
  · exact (passes_next rfl hnext).trans (quiet_pure _ hrun)
  · rename_i word
    split at hrun
    · rename_i hword
      refine Passes.trans (passes_next ?_ hnext) (quiet_pure _ hrun)
      rcases hword with rfl | rfl <;> rfl
    · exact absurd hrun run_throw_ne_ok
  · refine (passes_next rfl hnext).trans (Quiet.bind quiet_unlabelledNode (fun node => ?_) hrun)
    refine (quiet_accept _).bind fun closed => ?_
    split
    · exact (hpredicates node).bind fun _ => (quiet_expect _).bind fun _ => quiet_pure _
    · exact quiet_pure _
  · exact (passes_next rfl hnext).trans (hitems.bind (fun _ => quiet_pure _) hrun)
  · obtain ⟨i, s', hiri, hpure⟩ := run_bind_eq_ok.1 hrun
    exact (passes_next (isNeutral_of_iriOf hiri) hnext).trans ((quiet_iriOf t hiri).trans (quiet_pure _ hpure))

theorem quiet_read (fuel : Nat) :
    Quiet (readObject fuel) ∧ Quiet (readItems fuel) ∧ (∀ n, Quiet (readPredicates fuel n)) ∧
      (∀ n, Quiet (readFurther fuel n)) ∧ ∀ n p, Quiet (readObjects fuel n p) := by
  induction fuel with
  | zero =>
      exact ⟨quiet_throw _, quiet_throw _, fun _ => quiet_throw _, fun _ => quiet_throw _, fun _ _ => quiet_throw _⟩
  | succ fuel ih =>
      obtain ⟨hobject, hitems, hpredicates, hfurther, hobjects⟩ := ih
      refine ⟨?_, ?_, fun n => ?_, fun n => ?_, fun n p => ?_⟩
      · exact quiet_readObject hitems hpredicates
      · unfold readItems
        refine (quiet_accept _).bind fun done => ?_
        split
        · exact quiet_pure _
        · refine quiet_unlabelledNode.bind fun cell => hobject.bind fun a => (quiet_state _ _ _).bind fun _ => ?_
          exact hitems.bind fun rest => (quiet_state _ _ _).bind fun _ => quiet_pure _
      · unfold readPredicates
        exact quiet_readPredicate.bind fun p => (hobjects n p).bind fun _ => hfurther n
      · unfold readFurther
        refine (quiet_accept _).bind fun more => ?_
        split
        · refine quiet_peek?.bind fun o => ?_
          split
          · exact hfurther n
          · exact hpredicates n
        · exact quiet_pure _
      · unfold readObjects
        refine hobject.bind fun a => (quiet_state _ _ _).bind fun _ => (quiet_accept _).bind fun more => ?_
        split
        · exact hobjects n p
        · exact quiet_pure _

theorem quiet_readPredicates (fuel : Nat) (n : Node) : Quiet (readPredicates fuel n) := (quiet_read fuel).2.2.1 n

theorem quiet_readItems (fuel : Nat) : Quiet (readItems fuel) := (quiet_read fuel).2.1

/-- What follows the word of a prefix directive says: a label, and an IRI reference with the IRI that it stands for. -/
def Denotes (follow : List Token) (b : Binding) : Prop :=
  ∃ label suspect text rest base space, follow = .name label [] suspect :: .iri text :: rest ∧
    b.label = String.ofList label ∧ resolveIri? base text = some space ∧ b.space = space.value

/-- From one state to another what the directives in between say is declared, in their order. -/
def Tells (r r' : Reader) : Prop :=
  ∃ ds bs, directives r.left = ds ++ directives r'.left ∧ r'.declared = bs.reverse ++ r.declared ∧
    List.Forall₂ Denotes ds bs

theorem Passes.tells (h : Passes r r') : Tells r r' := ⟨[], [], h.directives.symm, h.declared, .nil⟩

theorem Tells.trans (h : Tells r r') (h' : Tells r' r'') : Tells r r'' := by
  obtain ⟨ds, bs, hds, hbs, hall⟩ := h
  obtain ⟨ds', bs', hds', hbs', hall'⟩ := h'
  refine ⟨ds ++ ds', bs ++ bs', ?_, ?_, ?_⟩
  · rw [hds, hds', List.append_assoc]
  · rw [hbs', hbs, List.reverse_append, List.append_assoc]
  · exact List.rel_append hall hall'

theorem run_readPrefixDeclaration {u : Unit} (h : readPrefixDeclaration.run r = .ok (u, r')) :
    ∃ b, Denotes r.left b ∧ r'.declared = b :: r.declared ∧ directives r.left = directives r'.left ∧
      r'.left <:+ r.left := by
  unfold readPrefixDeclaration at h
  obtain ⟨t, s, hnext, hrun⟩ := run_bind_eq_ok.1 h
  obtain ⟨hleft, hs⟩ := run_next_eq_ok.1 hnext
  split at hrun
  · rename_i label suspect
    obtain ⟨t, s', hnext, hrun⟩ := run_bind_eq_ok.1 hrun
    obtain ⟨hleft', hs'⟩ := run_next_eq_ok.1 hnext
    split at hrun
    · rename_i text
      obtain ⟨i, s'', hiri, hdeclare⟩ := run_bind_eq_ok.1 hrun
      obtain ⟨hresolve, rfl⟩ := run_iriOfReference_eq_ok hiri
      cases run_modify_eq_ok.1 hdeclare
      refine ⟨⟨String.ofList label, i.value⟩, ?_, ?_, ?_, ⟨[_, _], by rw [hleft, hleft']; rfl⟩⟩
      · exact ⟨label, suspect, text, _, _, i, by rw [hleft, hleft'], rfl, hresolve, rfl⟩
      · rw [hs', hs]
      · rw [hleft, hleft', directives_cons rfl, directives_cons rfl]
    · exact absurd hrun run_throw_ne_ok
  · exact absurd hrun run_throw_ne_ok

theorem quiet_readBaseDeclaration : Quiet readBaseDeclaration := by
  refine quiet_next_bind ?_ ?_
  · intro t r u r' h
    split at h
    · rfl
    · exact absurd h run_throw_ne_ok
  · intro t
    split
    · intro r u r' h
      obtain ⟨i, s, hiri, hmodify⟩ := run_bind_eq_ok.1 h
      obtain ⟨-, rfl⟩ := run_iriOfReference_eq_ok hiri
      cases run_modify_eq_ok.1 hmodify
      exact ⟨rfl, rfl, List.suffix_rfl⟩
    · exact quiet_throw _

theorem passes_readTriples {fuel : Nat} {t : Token} {u : Unit} (h : (readTriples fuel t).run r = .ok (u, r')) :
    t.isNeutral = true ∧ Passes r r' := by
  have hpredicates := quiet_readPredicates fuel
  unfold readTriples at h
  dsimp only at h
  split at h
  · refine ⟨rfl, Quiet.bind quiet_unlabelledNode (fun node => ?_) h⟩
    refine (quiet_accept _).bind fun closed => ?_
    split
    · exact (hpredicates node).bind fun _ => quiet_expect _
    · refine (hpredicates node).bind fun _ => (quiet_expect _).bind fun _ => quiet_peek?.bind fun o => ?_
      split
      · exact (hpredicates node).bind fun _ => quiet_expect _
      · exact quiet_expect _
  · exact ⟨rfl, Quiet.bind (quiet_readItems fuel) (fun n => (hpredicates n).bind fun _ => quiet_expect _) h⟩
  · exact ⟨rfl, Quiet.bind (hpredicates _) (fun _ => quiet_expect _) h⟩
  · obtain ⟨i, s, hiri, hrun⟩ := run_bind_eq_ok.1 h
    exact ⟨isNeutral_of_iriOf hiri,
      (quiet_iriOf t hiri).trans (Quiet.bind (hpredicates _) (fun _ => quiet_expect _) hrun)⟩

/-- A statement that begins with the word of a prefix directive. -/
theorem tells_prefixDeclaration {t : Token} {u : Unit} (ht : t.isPrefixWord = true) (hnext : next.run r = .ok (t, r'))
    (h : readPrefixDeclaration.run r' = .ok (u, r'')) : Tells r r'' ∧ r''.left <:+ r'.left := by
  obtain ⟨hleft, hr'⟩ := run_next_eq_ok.1 hnext
  obtain ⟨b, hdenotes, hdeclared, hdirectives, hsuffix⟩ := run_readPrefixDeclaration h
  refine ⟨⟨[r'.left], [b], ?_, ?_, .cons hdenotes .nil⟩, hsuffix⟩
  · rw [hleft, directives_prefixWord ht, hdirectives]
    rfl
  · rw [hdeclared, hr']
    rfl

theorem tells_readStatement {fuel : Nat} {t : Token} {u : Unit} (hnext : next.run r = .ok (t, r'))
    (h : (readStatement fuel t).run r' = .ok (u, r'')) : Tells r r'' ∧ r''.left <:+ r'.left := by
  unfold readStatement at h
  dsimp only at h
  split at h
  · rename_i word
    split at h
    · rename_i hword
      obtain ⟨u, s, hdeclaration, hdot⟩ := run_bind_eq_ok.1 h
      have htells := tells_prefixDeclaration (by simp [Token.isPrefixWord, hword]) hnext hdeclaration
      have hpass := quiet_expect _ hdot
      exact ⟨htells.1.trans hpass.tells, hpass.left.trans htells.2⟩
    · split at h
      · rename_i hbase
        subst word
        have hpass := (Quiet.bind quiet_readBaseDeclaration fun _ => quiet_expect _) h
        exact ⟨((passes_next rfl hnext).trans hpass).tells, hpass.left⟩
      · obtain ⟨_, _, hthrow, -⟩ := run_bind_eq_ok.1 h
        exact absurd hthrow run_throw_ne_ok
  · rename_i word
    split at h
    · rename_i hword
      exact tells_prefixDeclaration (by simp [Token.isPrefixWord, hword]) hnext h
    · split at h
      · rename_i hbase
        have hneutral : (Token.word word).isNeutral = true := by
          show (!decide (word.map Char.toLower = "prefix".toList)) = true
          rw [hbase]
          rfl
        have hpass := quiet_readBaseDeclaration h
        exact ⟨((passes_next hneutral hnext).trans hpass).tells, hpass.left⟩
      · exact absurd h run_throw_ne_ok
  · obtain ⟨hneutral, hpass⟩ := passes_readTriples h
    exact ⟨((passes_next hneutral hnext).trans hpass).tells, hpass.left⟩

/-- Reading goes on to the end, since each statement has a token. -/
theorem tells_readStatements {depth fuel : Nat} {u : Unit} (hfuel : r.left.length ≤ fuel)
    (h : (readStatements depth fuel).run r = .ok (u, r')) : Tells r r' ∧ r'.left = [] := by
  induction fuel generalizing r with
  | zero =>
      obtain ⟨-, rfl⟩ := run_pure_eq_ok.1 h
      exact ⟨(Passes.refl _).tells, List.eq_nil_of_length_eq_zero (Nat.le_zero.1 hfuel)⟩
  | succ fuel ih =>
      unfold readStatements at h
      obtain ⟨o, s, hpeek, hrun⟩ := run_bind_eq_ok.1 h
      obtain ⟨hhead, hs⟩ := run_peek?_eq_ok.1 hpeek
      subst s
      split at hrun
      · obtain ⟨t, s, hnext, hrun⟩ := run_bind_eq_ok.1 hrun
        obtain ⟨_, s', hstatement, hrest⟩ := run_bind_eq_ok.1 hrun
        obtain ⟨hleft, -⟩ := run_next_eq_ok.1 hnext
        obtain ⟨htells, hsuffix⟩ := tells_readStatement hnext hstatement
        have hlength := hsuffix.length_le
        rw [hleft, List.length_cons] at hfuel
        obtain ⟨htells', hnil⟩ := ih (by omega) hrest
        exact ⟨htells.trans htells', hnil⟩
      · rename_i hnone
        obtain ⟨-, rfl⟩ := run_pure_eq_ok.1 hrun
        refine ⟨(Passes.refl _).tells, List.head?_eq_none_iff.1 ?_⟩
        rw [← hhead]
        simpa using hnone

/-- **A document declares what its prefix directives say, in their order.** -/
theorem Document.forall₂_directives {s : String} {d : Document} (h : Document.read s = .ok d) :
    ∃ ts, tokens s.toList = .ok ts ∧ List.Forall₂ Denotes (directives ts) d.declarations := by
  unfold Document.read at h
  split at h
  · cases h
  · rename_i ts hts
    obtain ⟨⟨u, r⟩, hrun, hd⟩ := bind_eq_ok.1 h
    cases hd
    have htells := tells_readStatements (r := { left := ts }) (Nat.le_refl _) hrun
    obtain ⟨⟨ds, bs, hds, hbs, hall⟩, hnil⟩ := htells
    refine ⟨ts, hts, ?_⟩
    have hall' : directives ts = ds := by simpa [hnil, directives] using hds
    have hdeclared : r.declared.reverse = bs := by simpa using congrArg List.reverse hbs
    rw [hall']
    exact hdeclared ▸ hall

end ShapeTypes.Rdf.Turtle
