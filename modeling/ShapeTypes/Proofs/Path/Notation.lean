import Mathlib.Logic.Function.Iterate
import ShapeTypes.Proofs.Lookup
import ShapeTypes.Proofs.Path.Form

/-!
# What the notation of a path tells

The parentheses of a sequence or an alternative, and the brackets of a predicate, tell where it ends. But `^` stands
before what it applies to and `*`, `+`, `?` after it, and none of them puts what it applies to in parentheses: `^<p>*`
is the inverse of a repetition, and the repetition of an inverse as well.

* `PathJoint`, `Path.induction_joint` — the two kinds of path with a list of members;
* `Path.Legible` — no angle brackets in predicates, and two members at least in sequences and alternatives;
* `Path.inversesLast` — the path with every inversion made after the repetitions next to it;
  `Path.chars_inversesLast` — which is written alike;
* `PathLayers`, `Path.layers` — a path as a core, that is a predicate or a list of members, under inversions and
  repetitions;
* `Path.tellsCore` — a core tells where it ends, and which one it is;
* `Path.text_eq_text_iff` — **legible paths are written alike exactly if they differ in no more than in that order**;
* `repeatedInverse_text` — two paths that are written alike.
-/

namespace ShapeTypes

open Rdf

/-! ## Kinds of path -/

/-- A kind of path that has a list of members. -/
inductive PathJoint where
  | sequence
  | alternative
  deriving DecidableEq

namespace PathJoint

def path : PathJoint → List Path → Path
  | sequence => .sequence
  | alternative => .alternative

/-- What is written between two members. -/
def separator : PathJoint → List Char
  | sequence => [' ', '/', ' ']
  | alternative => [' ', '|', ' ']

end PathJoint

/-- Induction along paths, with one case for both kinds that have a list of members. -/
@[elab_as_elim]
theorem Path.induction_joint {motive : Path → Prop} (predicate : ∀ i, motive (.predicate i))
    (modified : ∀ (m : PathModifier) p, motive p → motive (m.path p))
    (joint : ∀ (j : PathJoint) ps, (∀ p ∈ ps, motive p) → motive (j.path ps)) (p : Path) : motive p :=
  Path.induction predicate modified (joint .alternative) (joint .sequence) p

namespace PathModifier

/-- What is written before the path it applies to. -/
def before : PathModifier → List Char
  | inverse => ['^']
  | _ => []

/-- What is written after the path it applies to. -/
def after : PathModifier → List Char
  | inverse => []
  | zeroOrMore => ['*']
  | oneOrMore => ['+']
  | zeroOrOne => ['?']

theorem eq_of_after {m n : PathModifier} {cs cs' : List Char} (hm : m ≠ inverse) (hn : n ≠ inverse)
    (h : m.after ++ cs = n.after ++ cs') : m = n ∧ cs = cs' := by
  cases m <;> cases n <;> simp_all [after]

end PathModifier

namespace Path

/-! ## Legible paths -/

mutual

/-- No predicate in the path, at any depth, has angle brackets, and every sequence and every alternative has two
members at least. -/
def Legible : Path → Prop
  | predicate i => '<' ∉ i.value.toList ∧ '>' ∉ i.value.toList
  | inverse p => Legible p
  | sequence ps => 2 ≤ ps.length ∧ AllLegible ps
  | alternative ps => 2 ≤ ps.length ∧ AllLegible ps
  | zeroOrMore p => Legible p
  | oneOrMore p => Legible p
  | zeroOrOne p => Legible p

/-- So it is in all members of a path. -/
def AllLegible : List Path → Prop
  | [] => True
  | p :: ps => Legible p ∧ AllLegible ps

end

theorem allLegible_iff {ps : List Path} : AllLegible ps ↔ ∀ p ∈ ps, p.Legible := by
  induction ps with
  | nil => simp [AllLegible]
  | cons p ps ih => rw [AllLegible, ih, List.forall_mem_cons]

@[simp] theorem legible_predicate (i : Iri) :
    (predicate i).Legible ↔ '<' ∉ i.value.toList ∧ '>' ∉ i.value.toList := by
  rw [Legible]

@[simp] theorem legible_modified (m : PathModifier) (p : Path) : (m.path p).Legible ↔ p.Legible := by
  cases m <;> rw [PathModifier.path, Legible]

@[simp] theorem legible_joint (j : PathJoint) (ps : List Path) :
    (j.path ps).Legible ↔ 2 ≤ ps.length ∧ ∀ p ∈ ps, p.Legible := by
  cases j <;> rw [PathJoint.path, Legible, allLegible_iff]

/-! ## Inversions after repetitions -/

end Path

/-- Applies to a path before its inversions do. -/
def PathModifier.under (m : PathModifier) : Path → Path
  | .inverse p => .inverse (m.under p)
  | p => m.path p

theorem PathModifier.inverse_under (p : Path) : inverse.under p = .inverse p := by
  induction p using Path.induction_joint with
  | predicate i => rfl
  | modified m p ih =>
      cases m with
      | inverse => exact congrArg Path.inverse ih
      | _ => rfl
  | joint j ps ih => cases j <;> rfl

namespace Path

mutual

/-- The path with every inversion made after the repetitions next to it. -/
def inversesLast : Path → Path
  | predicate i => predicate i
  | inverse p => inverse (inversesLast p)
  | sequence ps => sequence (allInversesLast ps)
  | alternative ps => alternative (allInversesLast ps)
  | zeroOrMore p => PathModifier.zeroOrMore.under (inversesLast p)
  | oneOrMore p => PathModifier.oneOrMore.under (inversesLast p)
  | zeroOrOne p => PathModifier.zeroOrOne.under (inversesLast p)

/-- So it is done in all members of a path. -/
def allInversesLast : List Path → List Path
  | [] => []
  | p :: ps => inversesLast p :: allInversesLast ps

end

theorem allInversesLast_eq_map (ps : List Path) : allInversesLast ps = ps.map inversesLast := by
  induction ps with
  | nil => rfl
  | cons p ps ih => rw [allInversesLast, ih, List.map_cons]

@[simp] theorem inversesLast_predicate (i : Iri) : (predicate i).inversesLast = predicate i := by
  rw [inversesLast]

@[simp] theorem inversesLast_modified (m : PathModifier) (p : Path) :
    (m.path p).inversesLast = m.under p.inversesLast := by
  cases m with
  | inverse => rw [PathModifier.inverse_under, PathModifier.path, inversesLast]
  | _ => rw [PathModifier.path, inversesLast]

@[simp] theorem inversesLast_joint (j : PathJoint) (ps : List Path) :
    (j.path ps).inversesLast = j.path (ps.map inversesLast) := by
  cases j <;> rw [PathJoint.path, inversesLast, allInversesLast_eq_map]

/-! ## The characters of a path -/

/-- The characters of a path in the notation of queries. -/
def chars (p : Path) : List Char := p.text.toList

/-- The members after the first one, each after a separator. -/
def furtherChars (j : PathJoint) (ps : List Path) : List Char := ps.flatMap fun p => j.separator ++ p.chars

theorem chars_predicate (i : Iri) : (predicate i).chars = '<' :: (i.value.toList ++ ['>']) := by
  simp [chars, text, Iri.text]

theorem chars_modified (m : PathModifier) (p : Path) : (m.path p).chars = m.before ++ (p.chars ++ m.after) := by
  cases m <;> simp [chars, text, PathModifier.path, PathModifier.before, PathModifier.after]

theorem chars_joint (j : PathJoint) (ps : List Path) :
    (j.path ps).chars = '(' :: (j.separator.intercalate (ps.map chars) ++ [')']) := by
  have hmap : (texts ps).map String.toList = ps.map chars := by
    rw [texts_eq_map, List.map_map]
    rfl
  rw [← hmap]
  cases j <;> simp [chars, text, PathJoint.path, PathJoint.separator, String.toList_intercalate]

theorem intercalate_chars (j : PathJoint) (p : Path) (ps : List Path) :
    j.separator.intercalate ((p :: ps).map chars) = p.chars ++ furtherChars j ps := by
  induction ps generalizing p with
  | nil => simp [furtherChars]
  | cons q ps ih =>
      rw [List.map_cons, List.map_cons, List.intercalate_cons_cons, ← List.map_cons, ih, furtherChars, furtherChars,
        List.flatMap_cons, List.append_assoc, List.append_assoc]

theorem chars_under (m : PathModifier) (p : Path) : (m.under p).chars = (m.path p).chars := by
  induction p using Path.induction_joint with
  | predicate i => rfl
  | modified m' p ih =>
      cases m' with
      | inverse =>
          have hcomm : m.before ++ ['^'] = '^' :: m.before := by cases m <;> rfl
          calc (m.under (PathModifier.inverse.path p)).chars = '^' :: ((m.under p).chars ++ []) :=
                chars_modified .inverse (m.under p)
            _ = (m.before ++ ['^']) ++ (p.chars ++ m.after) := by
                rw [ih, chars_modified, hcomm, List.append_nil, List.cons_append]
            _ = (m.path (PathModifier.inverse.path p)).chars := by
                rw [chars_modified, chars_modified]
                simp [PathModifier.before, PathModifier.after]
      | _ => rfl
  | joint j ps ih => cases j <;> rfl

/-- **A path is written as it is with its inversions last.** -/
theorem chars_inversesLast (p : Path) : p.inversesLast.chars = p.chars := by
  induction p using Path.induction_joint with
  | predicate i => rw [inversesLast_predicate]
  | modified m p ih => rw [inversesLast_modified, chars_under, chars_modified, chars_modified, ih]
  | joint j ps ih =>
      have hmap : (ps.map inversesLast).map chars = ps.map chars := by
        rw [List.map_map]
        exact List.map_congr_left ih
      rw [inversesLast_joint, chars_joint, chars_joint, hmap]

end Path

/-! ## Layers -/

/-- A path that is written with a beginning and an end of its own. -/
inductive PathCore where
  | predicate (iri : Iri)
  | joint (kind : PathJoint) (members : List Path)

def PathCore.path : PathCore → Path
  | predicate i => .predicate i
  | joint j ps => j.path ps

/-- A core with the inversions and the repetitions that are made of it, these in the order of writing. -/
structure PathLayers where
  core : PathCore
  inversions : Nat := 0
  repetitions : List PathModifier := []

/-- Applies to a path in layers. -/
def PathModifier.addTo (m : PathModifier) (l : PathLayers) : PathLayers :=
  match m with
  | inverse => { l with inversions := l.inversions + 1 }
  | m => { l with repetitions := l.repetitions ++ [m] }

namespace Path

def layers : Path → PathLayers
  | predicate i => { core := .predicate i }
  | inverse p => PathModifier.inverse.addTo p.layers
  | sequence ps => { core := .joint .sequence ps }
  | alternative ps => { core := .joint .alternative ps }
  | zeroOrMore p => PathModifier.zeroOrMore.addTo p.layers
  | oneOrMore p => PathModifier.oneOrMore.addTo p.layers
  | zeroOrOne p => PathModifier.zeroOrOne.addTo p.layers

theorem layers_modified (m : PathModifier) (p : Path) : (m.path p).layers = m.addTo p.layers := by
  cases m <;> rfl

theorem layers_joint (j : PathJoint) (ps : List Path) : (j.path ps).layers = { core := .joint j ps } := by
  cases j <;> rfl

def core (p : Path) : Path := p.layers.core.path

theorem core_modified (m : PathModifier) (p : Path) : (m.path p).core = p.core := by
  cases m <;> rfl

theorem core_joint (j : PathJoint) (ps : List Path) : (j.path ps).core = j.path ps := by
  cases j <;> rfl

theorem legible_core (p : Path) : p.core.Legible ↔ p.Legible := by
  induction p using Path.induction_joint with
  | predicate i => rfl
  | modified m p ih => rw [core_modified, ih, legible_modified]
  | joint j ps ih => rw [core_joint]

theorem inverse_not_mem_repetitions (p : Path) : PathModifier.inverse ∉ p.layers.repetitions := by
  induction p using Path.induction_joint with
  | predicate i => exact List.not_mem_nil
  | modified m p ih =>
      rw [layers_modified]
      cases m <;> simp [PathModifier.addTo, ih]
  | joint j ps ih =>
      rw [layers_joint]
      exact List.not_mem_nil

/-- Inversions are written first, then the core, then the repetitions. -/
theorem chars_layers (p : Path) (rest : List Char) : p.chars ++ rest = List.replicate p.layers.inversions '^' ++
    (p.core.chars ++ (p.layers.repetitions.flatMap PathModifier.after ++ rest)) := by
  induction p using Path.induction_joint generalizing rest with
  | predicate i => rfl
  | modified m p ih =>
      rw [layers_modified, core_modified, chars_modified, List.append_assoc, List.append_assoc, ih]
      cases m <;> simp [PathModifier.addTo, PathModifier.before, PathModifier.after, List.replicate_succ]
  | joint j ps ih =>
      rw [layers_joint, core_joint]
      rfl

theorem under_iterate_inverse (m : PathModifier) (n : Nat) (p : Path) :
    m.under (inverse^[n] p) = inverse^[n] (m.under p) :=
  (show Function.Commute m.under inverse from fun _ => rfl).iterate_right n p

theorem inversesLast_layers (p : Path) : p.inversesLast =
    inverse^[p.layers.inversions] (p.layers.repetitions.foldl (fun q m => m.under q) p.core.inversesLast) := by
  induction p using Path.induction_joint with
  | predicate i => rfl
  | modified m p ih =>
      rw [layers_modified, core_modified, inversesLast_modified, ih, under_iterate_inverse]
      cases m with
      | inverse =>
          rw [PathModifier.inverse_under, ← Function.iterate_succ_apply]
          rfl
      | _ => simp [PathModifier.addTo]
  | joint j ps ih =>
      rw [layers_joint, core_joint]
      rfl

/-! ## Where a path ends -/

/-- No repetition is written at the beginning. -/
def NoRepetitionFirst (rest : List Char) : Prop := ∀ c ∈ rest.head?, c ∉ ['*', '+', '?']

theorem NoRepetitionFirst.ne_after {m : PathModifier} {rest cs : List Char} (h : NoRepetitionFirst rest)
    (hm : m ≠ .inverse) : rest ≠ m.after ++ cs := by
  rintro rfl
  cases m with
  | inverse => exact hm rfl
  | _ => exact h _ rfl (by decide)

theorem after_append_inj {ms ns : List PathModifier} {rest rest' : List Char} (hms : PathModifier.inverse ∉ ms)
    (hns : PathModifier.inverse ∉ ns) (hrest : NoRepetitionFirst rest) (hrest' : NoRepetitionFirst rest')
    (h : ms.flatMap PathModifier.after ++ rest = ns.flatMap PathModifier.after ++ rest') :
    ms = ns ∧ rest = rest' := by
  induction ms generalizing ns with
  | nil =>
      cases ns with
      | nil => exact ⟨rfl, h⟩
      | cons n ns =>
          rw [List.flatMap_nil, List.nil_append, List.flatMap_cons, List.append_assoc] at h
          exact absurd h (hrest.ne_after (Ne.symm (List.ne_of_not_mem_cons hns)))
  | cons m ms ih =>
      rw [List.flatMap_cons, List.append_assoc] at h
      have hm : m ≠ .inverse := Ne.symm (List.ne_of_not_mem_cons hms)
      cases ns with
      | nil =>
          rw [List.flatMap_nil, List.nil_append] at h
          exact absurd h.symm (hrest'.ne_after hm)
      | cons n ns =>
          rw [List.flatMap_cons, List.append_assoc] at h
          obtain ⟨rfl, htail⟩ := PathModifier.eq_of_after hm (Ne.symm (List.ne_of_not_mem_cons hns)) h
          obtain ⟨rfl, rfl⟩ := ih (List.not_mem_of_not_mem_cons hms) (List.not_mem_of_not_mem_cons hns) htail
          exact ⟨rfl, rfl⟩

theorem replicate_append_inj {m n : Nat} {s t : List Char} (hs : s.head? ≠ some '^') (ht : t.head? ≠ some '^')
    (h : List.replicate m '^' ++ s = List.replicate n '^' ++ t) : m = n ∧ s = t := by
  induction m generalizing n with
  | zero =>
      cases n with
      | zero => exact ⟨rfl, h⟩
      | succ n => exact absurd (congrArg List.head? h) hs
  | succ m ih =>
      cases n with
      | zero => exact absurd (congrArg List.head? h).symm ht
      | succ n =>
          obtain ⟨rfl, htail⟩ := ih (List.tail_eq_of_cons_eq h)
          exact ⟨rfl, htail⟩

/-- A core does not begin with an inversion. -/
theorem head?_chars_core (p : Path) (rest : List Char) : (p.core.chars ++ rest).head? ≠ some '^' := by
  unfold core
  cases p.layers.core with
  | predicate i => simp [PathCore.path, chars_predicate]
  | joint j ps => simp [PathCore.path, chars_joint]

/-- The characters of the core of a path tell, in whatever follows them, where they end, and which core it is up
to the order of inversions and repetitions. -/
def TellsCore (p : Path) : Prop :=
  ∀ ⦃k : PathCore⦄ ⦃rest rest' : List Char⦄, k.path.Legible → p.core.chars ++ rest = k.path.chars ++ rest' →
    p.core.inversesLast = k.path.inversesLast ∧ rest = rest'

/-- Then the characters of the whole path tell as much, if no repetition follows them. -/
theorem TellsCore.append_inj {p q : Path} {rest rest' : List Char} (hp : p.TellsCore) (hq : q.Legible)
    (hrest : NoRepetitionFirst rest) (hrest' : NoRepetitionFirst rest')
    (h : p.chars ++ rest = q.chars ++ rest') : p.inversesLast = q.inversesLast ∧ rest = rest' := by
  rw [chars_layers p, chars_layers q] at h
  obtain ⟨hinversions, htail⟩ := replicate_append_inj (head?_chars_core p _) (head?_chars_core q _) h
  obtain ⟨hcore, hafter⟩ := hp ((legible_core q).2 hq) htail
  obtain ⟨hrepetitions, hend⟩ :=
    after_append_inj (inverse_not_mem_repetitions p) (inverse_not_mem_repetitions q) hrest hrest' hafter
  refine ⟨?_, hend⟩
  rw [inversesLast_layers, inversesLast_layers q, hinversions, hrepetitions, hcore]
  rfl

theorem furtherChars_cons (j : PathJoint) (p : Path) (ps : List Path) (rest : List Char) :
    furtherChars j (p :: ps) ++ rest = j.separator ++ (p.chars ++ (furtherChars j ps ++ rest)) := by
  simp [furtherChars]

/-- After a member stands a space or a closing parenthesis. -/
theorem noRepetitionFirst_further (j : PathJoint) (ps : List Path) (rest : List Char) :
    NoRepetitionFirst (furtherChars j ps ++ ')' :: rest) := by
  cases ps with
  | nil => simp [furtherChars, NoRepetitionFirst]
  | cons p ps =>
      rw [furtherChars_cons]
      cases j <;> simp [PathJoint.separator, NoRepetitionFirst]

/-- So do the characters of the members of a list after the first one, and they tell what is between the members. -/
theorem furtherChars_append_inj {j k : PathJoint} {ps qs : List Path} {rest rest' : List Char}
    (hps : ∀ p ∈ ps, p.TellsCore) (hqs : ∀ q ∈ qs, q.Legible)
    (h : furtherChars j ps ++ ')' :: rest = furtherChars k qs ++ ')' :: rest') :
    (ps ≠ [] → j = k) ∧ ps.map inversesLast = qs.map inversesLast ∧ rest = rest' := by
  induction ps generalizing qs with
  | nil =>
      cases qs with
      | nil => exact ⟨absurd rfl, rfl, List.tail_eq_of_cons_eq h⟩
      | cons q qs =>
          rw [furtherChars_cons] at h
          cases k <;> exact absurd (List.head_eq_of_cons_eq h) (by decide)
  | cons p ps ih =>
      obtain ⟨hp, hps⟩ := List.forall_mem_cons.1 hps
      rw [furtherChars_cons] at h
      cases qs with
      | nil => cases j <;> exact absurd (List.head_eq_of_cons_eq h) (by decide)
      | cons q qs =>
          obtain ⟨hq, hqs⟩ := List.forall_mem_cons.1 hqs
          rw [furtherChars_cons] at h
          have hjk : j = k := by
            cases j <;> cases k <;> simp_all [PathJoint.separator]
          subst hjk
          obtain ⟨hmember, htail⟩ := hp.append_inj hq (noRepetitionFirst_further j ps rest)
            (noRepetitionFirst_further j qs rest') (List.append_cancel_left h)
          obtain ⟨-, hmembers, hend⟩ := ih hps hqs htail
          exact ⟨fun _ => rfl, by rw [List.map_cons, List.map_cons, hmember, hmembers], hend⟩

theorem chars_joint_cons (j : PathJoint) (p : Path) (ps : List Path) (rest : List Char) :
    (j.path (p :: ps)).chars ++ rest = '(' :: (p.chars ++ (furtherChars j ps ++ ')' :: rest)) := by
  rw [chars_joint, intercalate_chars]
  simp

/-- So do the characters of a list of two members at least, and they tell what is between the members. -/
theorem joint_append_inj {j k : PathJoint} {ps qs : List Path} {rest rest' : List Char} (hlength : 2 ≤ ps.length)
    (hps : ∀ p ∈ ps, p.TellsCore) (hq : (k.path qs).Legible)
    (h : (j.path ps).chars ++ rest = (k.path qs).chars ++ rest') :
    (j.path ps).inversesLast = (k.path qs).inversesLast ∧ rest = rest' := by
  obtain ⟨hlength', hqs⟩ := (legible_joint k qs).1 hq
  match ps, qs with
  | p :: p' :: ps, q :: qs =>
      obtain ⟨hp, hps⟩ := List.forall_mem_cons.1 hps
      obtain ⟨hq, hqs⟩ := List.forall_mem_cons.1 hqs
      rw [chars_joint_cons, chars_joint_cons] at h
      obtain ⟨hfirst, htail⟩ := hp.append_inj hq (noRepetitionFirst_further j (p' :: ps) rest)
        (noRepetitionFirst_further k qs rest') (List.tail_eq_of_cons_eq h)
      obtain ⟨hjk, hfurther, hend⟩ := furtherChars_append_inj hps hqs htail
      have hall : (p :: p' :: ps).map inversesLast = (q :: qs).map inversesLast :=
        congrArg₂ List.cons hfirst hfurther
      rw [inversesLast_joint, inversesLast_joint, hjk (List.cons_ne_nil p' ps), hall]
      exact ⟨rfl, hend⟩

/-- **Every legible path tells its core.** -/
theorem tellsCore {p : Path} (hp : p.Legible) : p.TellsCore := by
  induction p using Path.induction_joint with
  | predicate i =>
      rintro (i' | ⟨k, qs⟩) rest rest' hq h
      · have hchars : (predicate i).chars ++ rest = (predicate i').chars ++ rest' := h
        rw [chars_predicate, chars_predicate, List.cons_append, List.cons_append, List.append_assoc,
          List.append_assoc] at hchars
        obtain ⟨hvalue, hrest⟩ :=
          eq_and_eq_of_first ((legible_predicate i).1 hp).2 ((legible_predicate i').1 hq).2
            (List.tail_eq_of_cons_eq hchars)
        have hiri : i = i' := congrArg Iri.mk (String.toList_inj.1 hvalue)
        exact ⟨congrArg (fun i => (predicate i).inversesLast) hiri, hrest⟩
      · have hchars : (predicate i).chars ++ rest = (k.path qs).chars ++ rest' := h
        rw [chars_predicate, chars_joint] at hchars
        exact absurd (List.head_eq_of_cons_eq hchars) (by decide)
  | modified m p ih =>
      intro k rest rest' hk h
      rw [core_modified] at h ⊢
      exact ih ((legible_modified m p).1 hp) hk h
  | joint j ps ih =>
      obtain ⟨hlength, hps⟩ := (legible_joint j ps).1 hp
      rintro (i' | ⟨k, qs⟩) rest rest' hq h
      · have hchars : (j.path ps).chars ++ rest = (predicate i').chars ++ rest' := by rwa [core_joint] at h
        rw [chars_predicate, chars_joint] at hchars
        exact absurd (List.head_eq_of_cons_eq hchars) (by decide)
      · rw [core_joint] at h ⊢
        exact joint_append_inj hlength (fun p hp => ih p hp (hps p hp)) hq h

/-- **Legible paths are written alike exactly if they differ in no more than the order of inversions and repetitions
that are next to each other.** -/
theorem text_eq_text_iff {p q : Path} (hp : p.Legible) (hq : q.Legible) :
    p.text = q.text ↔ p.inversesLast = q.inversesLast := by
  constructor
  · intro h
    have hchars : p.chars ++ [] = q.chars ++ [] := by rw [chars, chars, h]
    have hend : NoRepetitionFirst [] := nofun
    exact (TellsCore.append_inj (tellsCore hp) hq hend hend hchars).1
  · intro h
    rw [← String.toList_inj]
    exact (chars_inversesLast p).symm.trans ((congrArg chars h).trans (chars_inversesLast q))

/-! ## Two paths that are written alike -/

/-- Any number of steps from a child up. -/
def repeatedInverse : Path := .zeroOrMore (.inverse (.predicate ⟨"http://example.org/child"⟩))

/-- The inverse of any number of steps down to a child. -/
def invertedRepetition : Path := .inverse (.zeroOrMore (.predicate ⟨"http://example.org/child"⟩))

/-- A name after one of these steps, or the name or these steps. -/
def nameAfter (j : PathJoint) : Path := j.path [repeatedInverse, .predicate ⟨"http://example.org/name"⟩]

theorem legible_repeatedInverse : repeatedInverse.Legible ∧ invertedRepetition.Legible := by
  unfold repeatedInverse invertedRepetition
  simp only [Legible]
  decide

theorem legible_nameAfter (j : PathJoint) : (nameAfter j).Legible := by
  have hname : (predicate ⟨"http://example.org/name"⟩).Legible := (legible_predicate _).2 (by decide)
  simp [nameAfter, legible_repeatedInverse.1, hname]

/-- The two are different and legible, and both are written `^<http://example.org/child>*`. -/
theorem repeatedInverse_text : repeatedInverse.Legible ∧ invertedRepetition.Legible ∧
    repeatedInverse ≠ invertedRepetition ∧ repeatedInverse.text = invertedRepetition.text ∧
    repeatedInverse.text = "^<http://example.org/child>*" := by
  refine ⟨legible_repeatedInverse.1, legible_repeatedInverse.2, nofun, ?_, ?_⟩ <;> decide +kernel

/-- The two are one with the inversions last; a sequence and an alternative are different so as well. -/
theorem repeatedInverse_text_iff :
    (repeatedInverse.Legible ∧ invertedRepetition.Legible ∧
      (repeatedInverse.text = invertedRepetition.text ↔
        repeatedInverse.inversesLast = invertedRepetition.inversesLast)) ∧
    ((nameAfter .sequence).Legible ∧ (nameAfter .alternative).Legible ∧
      (nameAfter .sequence).text ≠ (nameAfter .alternative).text) := by
  obtain ⟨hp, hq⟩ := legible_repeatedInverse
  have hs : (nameAfter .sequence).Legible := legible_nameAfter _
  have ha : (nameAfter .alternative).Legible := legible_nameAfter _
  refine ⟨⟨hp, hq, text_eq_text_iff hp hq⟩, hs, ha, ?_⟩
  rw [ne_eq, text_eq_text_iff hs ha, nameAfter, nameAfter, inversesLast_joint, inversesLast_joint]
  nofun

end Path

end ShapeTypes
