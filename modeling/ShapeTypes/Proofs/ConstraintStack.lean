import ShapeTypes.ConstraintStack

/-!
# The discipline of constraint stacks

Frames are pushed and popped by entries of a pool of shapes. A push asks for the identifier of the shape, and a pop
for the entry itself: different entries may hold shapes with one identifier, or even the same shape.

* `StackOp`, `ConstraintStack.attempt`, `ConstraintStack.attempts` — operations, of which some are refused;
* `ConstraintStack.Attempt`, `ConstraintStack.attempt_spec` — **all that one operation can do**;
* `Balanced` — what was pushed was popped, and nothing else;
* `ConstraintStack.exists_above` — operations that pop only what they pushed leave the frames below them;
* `ConstraintStack.attempts_disciplined` — **what is true after any operations**: identifiers are distinct, what is
  refused changes nothing, and after a balanced visit the frame that was pushed comes off again.
-/

namespace ShapeTypes

open Rdf

/-- An operation on a stack, with an entry of a pool. -/
inductive StackOp where
  | push (entry : Nat)
  | pop (entry : Nat)
  deriving DecidableEq

namespace ConstraintStack

variable (pool : Nat → Shape)

def frameOf (entry : Nat) : Frame := ⟨entry, pool entry⟩

@[simp] theorem entry_frameOf (entry : Nat) : (frameOf pool entry).entry = entry := rfl

@[simp] theorem shape_frameOf (entry : Nat) : (frameOf pool entry).shape = pool entry := rfl

def ids (s : ConstraintStack) : List Node := s.frames.map (·.shape.id)

/-- Attempts an operation: tells why it is refused, if it is, and gives the stack afterwards. -/
def attempt (s : ConstraintStack) : StackOp → Option StackError × ConstraintStack
  | .push entry => s.push (frameOf pool entry)
  | .pop entry => s.pop (frameOf pool entry)

/-- Attempts operations one after the other, and gives each with its outcome. -/
def attempts (s : ConstraintStack) : List StackOp → List (StackOp × Option StackError) × ConstraintStack
  | [] => ([], s)
  | op :: ops =>
    let (outcome, s) := s.attempt pool op
    let (log, s) := s.attempts ops
    ((op, outcome) :: log, s)

/-! ## One operation -/

/-- All that one operation can do. -/
inductive Attempt (s : ConstraintStack) : StackOp → Option StackError → ConstraintStack → Prop where
  | pushed {entry} : (∀ g ∈ s.frames, g.shape.id ≠ (pool entry).id) →
      Attempt s (.push entry) none ⟨frameOf pool entry :: s.frames⟩
  | alreadyOnStack {entry g} : g ∈ s.frames → g.shape.id = (pool entry).id →
      Attempt s (.push entry) (some .alreadyOnStack) s
  | popped {g rest} : s.frames = g :: rest → Attempt s (.pop g.entry) none ⟨rest⟩
  | emptyPop {entry} : s.frames = [] → Attempt s (.pop entry) (some .emptyPop) s
  | notOnTop {entry g rest} : s.frames = g :: rest → g.entry ≠ entry →
      Attempt s (.pop entry) (some (.notOnTop g.shape.id)) s

theorem push_of_new {s : ConstraintStack} {f : Frame} (h : ∀ g ∈ s.frames, g.shape.id ≠ f.shape.id) :
    s.push f = (none, ⟨f :: s.frames⟩) :=
  if_neg (by simpa using h)

theorem push_of_mem {s : ConstraintStack} {f g : Frame} (hg : g ∈ s.frames) (hid : g.shape.id = f.shape.id) :
    s.push f = (some .alreadyOnStack, s) :=
  if_pos (List.any_eq_true.2 ⟨g, hg, decide_eq_true hid⟩)

theorem pop_of_nil {s : ConstraintStack} {f : Frame} (h : s.frames = []) : s.pop f = (some .emptyPop, s) := by
  rw [pop, h]

theorem pop_of_cons {s : ConstraintStack} {f g : Frame} {rest : List Frame} (h : s.frames = g :: rest) :
    s.pop f = if g.entry = f.entry then (none, ⟨rest⟩) else (some (.notOnTop g.shape.id), s) := by
  rw [pop, h]

/-- **An operation does one of these.** -/
theorem attempt_spec (s : ConstraintStack) (op : StackOp) :
    Attempt pool s op (s.attempt pool op).1 (s.attempt pool op).2 := by
  cases op with
  | push entry =>
      by_cases hnew : ∀ g ∈ s.frames, g.shape.id ≠ (pool entry).id
      · rw [attempt, push_of_new (f := frameOf pool entry) hnew]
        exact .pushed hnew
      · obtain ⟨g, hg, hid⟩ : ∃ g ∈ s.frames, g.shape.id = (pool entry).id := by simpa using hnew
        rw [attempt, push_of_mem (f := frameOf pool entry) hg hid]
        exact .alreadyOnStack hg hid
  | pop entry =>
      cases hf : s.frames with
      | nil =>
          rw [attempt, pop_of_nil hf]
          exact .emptyPop hf
      | cons g rest =>
          rw [attempt, pop_of_cons hf, entry_frameOf]
          by_cases hg : g.entry = entry
          · obtain rfl := hg
            rw [if_pos rfl]
            exact .popped hf
          · rw [if_neg hg]
            exact .notOnTop hf hg

variable {pool} {s t : ConstraintStack} {op : StackOp} {outcome : Option StackError}

theorem Attempt.eq_of_refused (h : Attempt pool s op outcome t) (hr : outcome ≠ none) : t = s := by
  cases h with
  | pushed => exact absurd rfl hr
  | alreadyOnStack => rfl
  | popped => exact absurd rfl hr
  | emptyPop => rfl
  | notOnTop => rfl

/-- A push is refused exactly if a frame has the identifier. -/
theorem Attempt.push_refused_iff {entry : Nat} (h : Attempt pool s (.push entry) outcome t) :
    outcome ≠ none ↔ ∃ g ∈ s.frames, g.shape.id = (pool entry).id := by
  cases h with
  | pushed hnew => simpa using hnew
  | alreadyOnStack hg hid => exact ⟨fun _ => ⟨_, hg, hid⟩, fun _ => nofun⟩

/-- A pop is refused exactly if there is no frame, or another entry is on top. -/
theorem Attempt.pop_refused_iff {entry : Nat} (h : Attempt pool s (.pop entry) outcome t) :
    outcome ≠ none ↔ s.top? = none ∨ ∃ g, s.top? = some g ∧ g.entry ≠ entry := by
  cases h with
  | popped hf => simp [top?, hf]
  | emptyPop hf => simp [top?, hf]
  | notOnTop hf hne => simp [top?, hf, hne]

theorem Attempt.nodup (h : Attempt pool s op outcome t) (hs : s.ids.Nodup) : t.ids.Nodup := by
  cases h with
  | pushed hnew => exact List.nodup_cons.2 ⟨by simpa [ids] using hnew, hs⟩
  | popped hf =>
      rw [ids, hf] at hs
      exact (List.nodup_cons.1 hs).2
  | alreadyOnStack | emptyPop | notOnTop => exact hs

theorem Attempt.ofPool (h : Attempt pool s op outcome t) (hs : ∀ f ∈ s.frames, f = frameOf pool f.entry) :
    ∀ f ∈ t.frames, f = frameOf pool f.entry := by
  cases h with
  | pushed => exact List.forall_mem_cons.2 ⟨rfl, hs⟩
  | popped hf => exact fun f hmem => hs f (hf ▸ List.mem_cons_of_mem _ hmem)
  | alreadyOnStack | emptyPop | notOnTop => exact hs

theorem attempts_keeps (P : ConstraintStack → Prop)
    (hstep : ∀ {s op outcome t}, Attempt pool s op outcome t → P s → P t) (hs : P s) (ops : List StackOp) :
    P (s.attempts pool ops).2 := by
  induction ops generalizing s with
  | nil => exact hs
  | cons op ops ih => exact ih (hstep (attempt_spec pool s op) hs)

end ConstraintStack

/-! ## Balanced operations -/

/-- An operation with its outcome: a frame was put on the stack. -/
def isPush : StackOp × Option StackError → Bool
  | (.push _, none) => true
  | _ => false

/-- An operation with its outcome: a frame was taken off. -/
def isPop : StackOp × Option StackError → Bool
  | (.pop _, none) => true
  | _ => false

/-- What was pushed was popped, and never more than that. Operations that were refused do not count. -/
structure Balanced (log : List (StackOp × Option StackError)) : Prop where
  pops_le : ∀ before, before <+: log → before.countP isPop ≤ before.countP isPush
  pops_eq : log.countP isPop = log.countP isPush

namespace ConstraintStack

variable {pool : Nat → Shape} {s t : ConstraintStack} {op : StackOp} {outcome : Option StackError}
  {above base : List Frame}

/-- An operation that takes off no frame but those in `above` leaves the frames below these. -/
theorem Attempt.exists_above (h : Attempt pool s op outcome t) (hs : s.frames = above ++ base)
    (hle : [(op, outcome)].countP isPop ≤ above.length + [(op, outcome)].countP isPush) :
    ∃ above', t.frames = above' ++ base ∧
      above'.length + [(op, outcome)].countP isPop = above.length + [(op, outcome)].countP isPush := by
  cases h with
  | @pushed entry _ => exact ⟨frameOf pool entry :: above, congrArg (List.cons _) hs, rfl⟩
  | @popped g rest hf =>
      cases above with
      | nil => exact absurd hle (by simp [isPop, isPush])
      | cons a above =>
          obtain ⟨-, hrest⟩ := List.cons.inj (hf.symm.trans hs)
          exact ⟨above, hrest, rfl⟩
  | alreadyOnStack | emptyPop | notOnTop => exact ⟨above, hs, rfl⟩

/-- **Operations that pop no more than they pushed, and the frames in `above`, leave the frames below these.** -/
theorem exists_above (above base : List Frame) (ops : List StackOp) (hs : s.frames = above ++ base)
    (hle : ∀ before, before <+: (s.attempts pool ops).1 →
      before.countP isPop ≤ above.length + before.countP isPush) :
    ∃ above', (s.attempts pool ops).2.frames = above' ++ base ∧
      above'.length + (s.attempts pool ops).1.countP isPop =
        above.length + (s.attempts pool ops).1.countP isPush := by
  induction ops generalizing s above with
  | nil => exact ⟨above, hs, rfl⟩
  | cons op ops ih =>
      have hlog : (s.attempts pool (op :: ops)).1 =
          [(op, (s.attempt pool op).1)] ++ ((s.attempt pool op).2.attempts pool ops).1 := rfl
      rw [hlog] at hle ⊢
      obtain ⟨above₁, hs₁, hcount₁⟩ := (attempt_spec pool s op).exists_above hs (hle _ (List.prefix_append ..))
      have hle₁ : ∀ before, before <+: ((s.attempt pool op).2.attempts pool ops).1 →
          before.countP isPop ≤ above₁.length + before.countP isPush := by
        intro before hbefore
        have hboth := hle _ ((List.prefix_append_right_inj _).2 hbefore)
        rw [List.countP_append, List.countP_append] at hboth
        omega
      obtain ⟨above₂, hs₂, hcount₂⟩ := ih above₁ hs₁ hle₁
      refine ⟨above₂, hs₂, ?_⟩
      rw [List.countP_append, List.countP_append]
      omega

/-- **Balanced operations leave the stack as it was.** -/
theorem attempts_of_balanced {ops : List StackOp} (h : Balanced (s.attempts pool ops).1) :
    (s.attempts pool ops).2 = s := by
  obtain ⟨above, hs, hcount⟩ := exists_above [] s.frames ops (List.nil_append _).symm fun before hbefore => by
    rw [List.length_nil, Nat.zero_add]
    exact h.pops_le before hbefore
  have hnil : above = [] := by
    rw [h.pops_eq, List.length_nil] at hcount
    exact List.length_eq_zero_iff.1 (by omega)
  rw [hnil, List.nil_append] at hs
  exact congrArg ConstraintStack.mk hs

/-! ## After any operations -/

/-- All that a stack answers. -/
structure Answers where
  hasValues? : Option (List Term)
  oneOf? : Option (List Term)
  defaultValue? : Option Term
  minCount? : Option Nat
  maxCount? : Option Nat
  mutable : Bool

def answers (s : ConstraintStack) : Answers :=
  ⟨s.hasValues?, s.oneOf?, s.defaultValue?, s.minCount?, s.maxCount?, s.mutable⟩

/-- What is true of a stack that frames of the pool were pushed on and popped from. -/
structure Disciplined (pool : Nat → Shape) (s : ConstraintStack) : Prop where
  /-- The frames are entries of the pool, ... -/
  ofPool : ∀ f ∈ s.frames, f = frameOf pool f.entry
  /-- ... of which no two have one identifier. -/
  nodup : s.ids.Nodup
  /-- An operation that is refused leaves the stack as it is. -/
  refused : ∀ op, (s.attempt pool op).1 ≠ none → (s.attempt pool op).2 = s
  /-- A push is refused exactly if a frame has the identifier, ... -/
  push_refused_iff : ∀ entry,
    (s.attempt pool (.push entry)).1 ≠ none ↔ ∃ g ∈ s.frames, g.shape.id = (pool entry).id
  /-- ... and a pop exactly if the stack is empty or has another entry on top, whatever the identifiers are. -/
  pop_refused_iff : ∀ entry,
    (s.attempt pool (.pop entry)).1 ≠ none ↔ s.top? = none ∨ ∃ g, s.top? = some g ∧ g.entry ≠ entry
  /-- A frame that was pushed comes off after any balanced operations, and all is as it was before. -/
  restored : ∀ entry t ops, s.attempt pool (.push entry) = (none, t) → Balanced (t.attempts pool ops).1 →
    ∃ u, (t.attempts pool ops).2.attempt pool (.pop entry) = (none, u) ∧ u = s ∧ u.answers = s.answers

/-- **Any operations on entries of a pool leave a disciplined stack**, whichever of them are refused. -/
theorem attempts_disciplined (pool : Nat → Shape) (ops : List StackOp) :
    Disciplined pool (empty.attempts pool ops).2 := by
  constructor
  case ofPool =>
    refine attempts_keeps (fun s => ∀ f ∈ s.frames, f = frameOf pool f.entry) Attempt.ofPool ?_ ops
    exact fun f hf => absurd hf List.not_mem_nil
  case nodup =>
    refine attempts_keeps (fun s => s.ids.Nodup) Attempt.nodup ?_ ops
    exact List.nodup_nil
  case refused => exact fun op hr => (attempt_spec pool _ op).eq_of_refused hr
  case push_refused_iff => exact fun entry => (attempt_spec pool _ (.push entry)).push_refused_iff
  case pop_refused_iff => exact fun entry => (attempt_spec pool _ (.pop entry)).pop_refused_iff
  case restored =>
    intro entry t ops hpush hbalanced
    rw [attempts_of_balanced hbalanced]
    exact ⟨_, pop_of_push hpush, rfl, rfl⟩

/-- Two entries hold one shape: the second is neither pushed on the first nor popped instead of it. -/
example :
    let a : Shape := { id := .blank "a", form := .node [] }
    (empty.attempts (fun _ => a) [.push 0, .push 1, .pop 1, .pop 0, .pop 0]).1.map Prod.snd =
      [none, some .alreadyOnStack, some (.notOnTop (.blank "a")), none, some .emptyPop] := by
  decide

end ConstraintStack

end ShapeTypes
