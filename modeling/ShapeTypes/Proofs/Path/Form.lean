import ShapeTypes.Path.Reader
import ShapeTypes.Proofs.Except

/-!
# What a term says about a path

Reading a path alternates two steps: what the triples of one node say, and the reading of the terms that these name.

* `PathModifier` — the four kinds of path with one part, in the order in which they are looked for; `Path.induction`;
* `PathForm`, `PathForm.parts`, `pathForm` — what the triples of a node say, and the terms that are still to be read;
* `PathForm.make` — the path that the paths of the parts make;
* `readPath_succ` — **reading a path is to read its form, then its parts in order, then to make the path.**
-/

namespace ShapeTypes

open Rdf

/-- A kind of path that applies to one other path. -/
inductive PathModifier where
  | inverse
  | zeroOrMore
  | oneOrMore
  | zeroOrOne
  deriving DecidableEq

namespace PathModifier

/-- The predicate that leads to the path it applies to. -/
def predicate : PathModifier → Iri
  | inverse => sh "inversePath"
  | zeroOrMore => sh "zeroOrMorePath"
  | oneOrMore => sh "oneOrMorePath"
  | zeroOrOne => sh "zeroOrOnePath"

/-- The path it makes of another one. -/
def path : PathModifier → Path → Path
  | inverse => .inverse
  | zeroOrMore => .zeroOrMore
  | oneOrMore => .oneOrMore
  | zeroOrOne => .zeroOrOne

/-- All kinds, in the order in which they are looked for. -/
def all : List PathModifier := [inverse, zeroOrMore, oneOrMore, zeroOrOne]

/-- The first kind that a node has, with the term it applies to. -/
def of? (g : Graph) (n : Node) : Option (PathModifier × Term) :=
  all.findSome? fun m => (g.object? n m.predicate).map (m, ·)

end PathModifier

/-- Induction along paths, with one case for all kinds that apply to one other path. -/
@[elab_as_elim]
theorem Path.induction {motive : Path → Prop} (predicate : ∀ i, motive (.predicate i))
    (modified : ∀ (m : PathModifier) p, motive p → motive (m.path p))
    (alternative : ∀ ps, (∀ p ∈ ps, motive p) → motive (.alternative ps))
    (sequence : ∀ ps, (∀ p ∈ ps, motive p) → motive (.sequence ps)) (p : Path) : motive p :=
  @Path.rec motive (fun ps => ∀ p ∈ ps, motive p) predicate (modified .inverse) sequence alternative
    (modified .zeroOrMore) (modified .oneOrMore) (modified .zeroOrOne) (fun _ h => absurd h List.not_mem_nil)
    (fun _ _ hp hps => List.forall_mem_cons.2 ⟨hp, hps⟩) p

/-- What the triples of a node say about a path, before its parts are read. -/
inductive PathForm where
  | predicate (iri : Iri)
  | modified (modifier : PathModifier) (part : Term)
  | alternative (parts : List Term)
  | sequence (parts : List Term)
  deriving DecidableEq

namespace PathForm

/-- The terms that are to be read as paths, in the order of reading. -/
def parts : PathForm → List Term
  | predicate _ => []
  | modified _ t => [t]
  | alternative ts => ts
  | sequence ts => ts

/-- The path that the paths of the parts make. -/
def make : PathForm → List Path → Except PathError Path
  | predicate i, _ => .ok (.predicate i)
  | modified m _, [p] => .ok (m.path p)
  | modified _ _, _ => .error .unknownStructure
  | alternative _, ps => .ok (.alternative ps)
  | sequence _, ps => if ps.length < 2 then .error .unknownStructure else .ok (.sequence ps)

theorem make_ne_tooDeep (form : PathForm) (ps : List Path) : form.make ps ≠ .error .tooDeep := by
  unfold make
  split
  case h_5 => split <;> nofun
  all_goals nofun

section

variable (read : Term → Except PathError Path)

/-- The only part is read, then modified. -/
theorem mapM_make_modified (m : PathModifier) (part : Term) :
    [part].mapM read >>= (modified m part).make = m.path <$> read part := by
  rw [List.mapM_cons, List.mapM_nil]
  cases read part <;> rfl

/-- All parts are read before they are counted. -/
theorem mapM_make_sequence (ts : List Term) : ts.mapM read >>= (sequence ts).make = (do
    let ps ← ts.mapM read
    if ps.length < 2 then throw .unknownStructure
    return .sequence ps) := by
  refine congrArg (ts.mapM read >>= ·) (funext fun ps => ?_)
  rw [make]
  split <;> rfl

end

end PathForm

def pathForm (g : Graph) : Term → Except PathError PathForm
  | .node (.iri i) => .ok (.predicate i)
  | .literal l => .error (.notNode (.literal l))
  | .node (.blank b) =>
    match g.object? (.blank b) (sh "alternativePath") with
    | some head => .alternative <$> pathMembers g head
    | none =>
      match PathModifier.of? g (.blank b) with
      | some (m, t) => .ok (.modified m t)
      | none =>
        if (g.object? (.blank b) rdfFirst).isNone then .error .unknownStructure
        else .sequence <$> pathMembers g (.node (.blank b))

variable {g : Graph} {t u : Term} {form : PathForm}

theorem pathMembers_ne_tooDeep (g : Graph) (head : Term) : pathMembers g head ≠ .error .tooDeep := by
  unfold pathMembers
  cases g.collection head <;> nofun

theorem pathForm_ne_tooDeep (g : Graph) (t : Term) : pathForm g t ≠ .error .tooDeep := by
  unfold pathForm
  split
  · nofun
  · nofun
  · split
    · exact fun h => pathMembers_ne_tooDeep g _ (map_eq_error.1 h)
    · split
      · nofun
      · split
        · nofun
        · exact fun h => pathMembers_ne_tooDeep g _ (map_eq_error.1 h)

theorem exists_object?_of_mem_parts (h : pathForm g t = .ok form) (hu : u ∈ form.parts) :
    ∃ n p o, t = .node n ∧ g.object? n p = some o := by
  unfold pathForm at h
  split at h
  · cases h
    exact absurd hu List.not_mem_nil
  · cases h
  · rename_i b
    split at h
    · rename_i head halternative
      exact ⟨.blank b, _, head, rfl, halternative⟩
    · split at h
      · rename_i m part hmodifier
        obtain ⟨m', -, hm'⟩ := List.exists_of_findSome?_eq_some hmodifier
        obtain ⟨o, ho, -⟩ := Option.map_eq_some_iff.1 hm'
        exact ⟨.blank b, _, o, rfl, ho⟩
      · split at h
        · cases h
        · rename_i hfirst
          obtain ⟨o, ho⟩ := Option.ne_none_iff_exists'.1 (fun hnone => hfirst (Option.isNone_iff_eq_none.2 hnone))
          exact ⟨.blank b, _, o, rfl, ho⟩

/-- **Reading a path is to read its form, then its parts in order, then to make the path of them.** -/
theorem readPath_succ (depth : Nat) (t : Term) : readPath g (depth + 1) t = (do
    let form ← pathForm g t
    form.make (← form.parts.mapM (readPath g depth))) := by
  match t with
  | .node (.iri i) => rfl
  | .literal l => rfl
  | .node (.blank b) =>
    simp only [readPath, pathForm, PathModifier.of?, PathModifier.all, List.findSome?_cons, List.findSome?_nil,
      PathModifier.predicate]
    -- The kinds in the order in which they are looked for; each leaves the node to the next one.
    cases g.object? (.blank b) (sh "alternativePath") with
    | some head =>
        dsimp only
        cases pathMembers g head <;> rfl
    | none =>
    cases g.object? (.blank b) (sh "inversePath") with
    | some part => exact (PathForm.mapM_make_modified _ .inverse part).symm
    | none =>
    cases g.object? (.blank b) (sh "zeroOrMorePath") with
    | some part => exact (PathForm.mapM_make_modified _ .zeroOrMore part).symm
    | none =>
    cases g.object? (.blank b) (sh "oneOrMorePath") with
    | some part => exact (PathForm.mapM_make_modified _ .oneOrMore part).symm
    | none =>
    cases g.object? (.blank b) (sh "zeroOrOnePath") with
    | some part => exact (PathForm.mapM_make_modified _ .zeroOrOne part).symm
    | none =>
    cases g.object? (.blank b) rdfFirst with
    | none => rfl
    | some _ =>
    simp only [Option.map_none, Option.isNone_some, Bool.false_eq_true, if_false]
    cases pathMembers g (.node (.blank b)) with
    | error e => rfl
    | ok members => exact (PathForm.mapM_make_sequence _ members).symm

end ShapeTypes
