import ShapeTypes.Inference.Infer
import ShapeTypes.Proofs.Inference.Refusals

/-!
# Inference that checks its own bounds

A second way to resolve shapes stops with an alarm as soon as a bound is broken. It comes to the same, so
no bound ever is.

* `InferenceState.Bounded` — what is checked whenever a shape is asked for: each shape is entered once at most,
  and there are no more shapes being resolved, each within the next one, than shapes;
* `InferenceState.Idle` — what is checked whenever a shape is resolved that no other one asked for: nothing is
  left halfway;
* `resolveChecked`, `resolveAllChecked` — resolving shapes with these checks;
* `alike_resolveChecked`, `alike_resolveAllChecked` — **the checks never fail**, and neither does any bound on
  the nesting that is at least the number of shapes;
* `refusal_of_resolveAll` — so shapes of the graph are all that is refused.
-/

namespace ShapeTypes

open Rdf Infer

variable {graph : ShapesGraph} {strict : Bool}

/-! ## Checks -/

namespace InferenceState

/-- The bounds when a shape is asked for within others, the innermost first: these are the unfinished shapes
and no more than there are shapes; no shape was entered twice; and one that is to be entered was not entered
yet, nor are there as many unfinished ones as shapes. -/
structure Bounded (graph : ShapesGraph) (nest : List Node) (id : Node) (s : InferenceState) : Prop where
  unfinished : s.unfinished = nest
  depth : nest.length ≤ graph.size
  once : s.entered.Nodup
  declared : ∀ other ∈ s.entered, other ∈ graph.ids
  first : s.progress? id = none → id ∉ s.entered ∧ nest.length < graph.size

instance {nest : List Node} {id : Node} {s : InferenceState} : Decidable (s.Bounded graph nest id) :=
  decidable_of_iff (s.unfinished = nest ∧ nest.length ≤ graph.size ∧ s.entered.Nodup ∧
      (∀ other ∈ s.entered, other ∈ graph.ids) ∧
      ((s.progress? id).isNone → id ∉ s.entered ∧ nest.length < graph.size))
    ⟨fun ⟨h₁, h₂, h₃, h₄, h₅⟩ => ⟨h₁, h₂, h₃, h₄, fun h => h₅ (Option.isNone_iff_eq_none.2 h)⟩,
      fun h => ⟨h.unfinished, h.depth, h.once, h.declared, fun hn => h.first (Option.isNone_iff_eq_none.1 hn)⟩⟩

/-- Nothing is left halfway: no shape is being resolved, no scope is open, and no object. -/
structure Idle (graph : ShapesGraph) (s : InferenceState) : Prop where
  unfinished : s.unfinished = []
  scopes : s.scopes = []
  openObjects : s.openObjects = []
  once : s.entered.Nodup
  declared : ∀ id ∈ s.entered, id ∈ graph.ids

instance {s : InferenceState} : Decidable (s.Idle graph) :=
  decidable_of_iff (s.unfinished = [] ∧ s.scopes.isEmpty ∧ s.openObjects = [] ∧ s.entered.Nodup ∧
      ∀ id ∈ s.entered, id ∈ graph.ids)
    ⟨fun ⟨h₁, h₂, h₃, h₄, h₅⟩ => ⟨h₁, List.isEmpty_iff.1 h₂, h₃, h₄, h₅⟩,
      fun h => ⟨h.unfinished, List.isEmpty_iff.2 h.scopes, h.openObjects, h.once, h.declared⟩⟩

end InferenceState

/-- Resolves a shape within others, the innermost first, as `resolveWithin` does. Stops with an alarm when
bounds are broken, or shapes are nested too deep. -/
def resolveChecked (graph : ShapesGraph) (strict : Bool) (alarm : InferenceError) :
    Nat → List Node → Node → Infer TypeUse
  | 0, _, _ => throw alarm
  | fuel + 1, nest, id => do
    let s ← get
    if s.Bounded graph nest id then
      resolveOnce graph strict (resolveChecked graph strict alarm fuel (id :: nest)) id
    else throw alarm

/-- Resolves every shape of a graph, each in a scope of its own, as `resolveAll` does. Stops with an alarm
as well when anything is left halfway by one of them. -/
def resolveAllChecked (graph : ShapesGraph) (strict : Bool) (alarm : InferenceError) (fuel : Nat) :
    Infer Unit :=
  graph.ids.forM fun id => do
    let _ ← detached (resolveChecked graph strict alarm fuel [] id)
    let s ← get
    if s.Idle graph then return ()
    else throw alarm

/-! ## The checks never fail -/

theorem Asked.bounded {nest : List Node} {r : Request} {s : InferenceState} (h : Asked graph nest r s) :
    s.Bounded graph nest r.id where
  unfinished := h.unfinished
  depth := h.toNested.length_le
  once := h.toNested.nodup_entered
  declared := fun _ hid => h.toNested.entered_subset hid
  first := fun hnew => ⟨InferenceState.not_mem_entered hnew, h.toNested.length_lt h.declared hnew⟩

theorem Nested.idle {s : InferenceState} (h : Nested graph [] s) (hs : s.scopes = []) : s.Idle graph where
  unfinished := h.unfinished
  scopes := hs
  openObjects := h.openObjects_eq_nil
  once := h.nodup_entered
  declared := fun _ hid => h.entered_subset hid

/-- **The bounds are never broken**, nor is any bound on the nesting that is at least the number of shapes
that are not being resolved. -/
theorem alike_resolveChecked (alarm : InferenceError) : ∀ (n m : Nat) {nest : List Node},
    graph.size < nest.length + n → graph.size < nest.length + m →
    AlikeWithin (fun _ => False) graph nest (resolveChecked graph strict alarm n nest) (resolveWithin graph strict m)
  | 0, _, _, hn, _, _, _, ha => by
    have := ha.toNested.length_le
    omega
  | _, 0, _, _, hm, _, _, ha => by
    have := ha.toNested.length_le
    omega
  | n + 1, m + 1, nest, hn, hm, r, s, ha => by
    refine .get_left ?_
    have hbounded : ({ s with scopes := r.openScopes s.scopes } : InferenceState).Bounded graph nest r.id :=
      ⟨ha.bounded.unfinished, ha.bounded.depth, ha.bounded.once, ha.bounded.declared, ha.bounded.first⟩
    rw [if_pos hbounded]
    refine alike_resolveOnce (answers_resolveWithin graph strict m) ha fun _ => ?_
    refine alike_resolveChecked alarm n m ?_ ?_ <;> simp only [List.length_cons] <;> omega

/-- **All shapes are resolved alike with the checks and without them.** -/
theorem alike_resolveAllChecked (alarm : InferenceError) (extra : Nat) {names : NameBook} :
    Alike (fun _ => False) (Refusal graph) { names }
      (resolveAllChecked graph strict alarm (graph.size + 1 + extra)) (resolveAll graph strict) := by
  have halike : AlikeWithin (fun _ => False) graph [] (resolveChecked graph strict alarm (graph.size + 1 + extra) [])
      (resolveWithin graph strict (graph.size + 1)) := by
    refine alike_resolveChecked alarm _ _ ?_ ?_ <;> simp only [List.length_nil] <;> omega
  refine .forM (J := AtRest graph) (fun id hid s hs => ?_) ⟨.empty, rfl⟩
  obtain ⟨hroot, hrest⟩ := alike_root (answers_resolveWithin graph strict _) halike hid hs
  constructor
  · refine hroot.bind fun use t ht => .get_left ?_
    obtain ⟨hnested, hscopes⟩ := hrest use t ht
    rw [if_pos (hnested.idle hscopes)]
    exact .pure
  · intro u t h
    obtain ⟨use, t', ht, hret⟩ := gives_bind.1 h
    obtain ⟨-, rfl⟩ := gives_pure.1 hret
    exact hrest use _ ht

/-- **Shapes of the graph are all that is refused while shapes are resolved.** -/
theorem refusal_of_resolveAll {names : NameBook} {e : InferenceError}
    (h : (resolveAll graph strict).Fails { names } e) : Refusal graph e :=
  (alike_resolveAllChecked (.unresolvedCycle []) 0).refuses e h

end ShapeTypes
