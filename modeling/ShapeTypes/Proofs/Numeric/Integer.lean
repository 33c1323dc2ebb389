import Mathlib.Data.Nat.Digits.Defs
import Mathlib.Tactic.IntervalCases
import ShapeTypes.Numeric.Integer

/-!
# The integers that texts denote

* `decimal`, `Numeral` — the number of decimal digits, and digits as characters;
* `Integer.Denotes` — a sign, which may be missing, and at least one digit denote an integer;
  `Integer.exists_denotes` — every integer is denoted by some text;
* `Integer.Appends` — what is left of a number when digits are appended, above or below zero;
* `Integer.read_eq_ok_iff` — **reading gives the integer that a text denotes, if it has 64 bits**, and nothing else.
-/

namespace ShapeTypes.Numeric

/-! ## Digits -/

/-- The number of decimal digits, the most significant one first. -/
def decimal (ds : List Nat) : Nat := Nat.ofDigits 10 ds.reverse

theorem decimal_cons (d : Nat) (ds : List Nat) : decimal (d :: ds) = d * 10 ^ ds.length + decimal ds := by
  rw [decimal, List.reverse_cons, Nat.ofDigits_append, Nat.ofDigits_singleton, List.length_reverse, decimal]
  ring

/-- Characters that are decimal digits. -/
structure Numeral (cs : List Char) (ds : List Nat) : Prop where
  lt : ∀ d ∈ ds, d < 10
  chars : cs = ds.map Nat.digitChar

theorem Numeral.ne_nil_iff {cs : List Char} {ds : List Nat} (h : Numeral cs ds) : ds ≠ [] ↔ cs ≠ [] := by
  rw [h.chars, ne_eq, ne_eq, List.map_eq_nil_iff]

theorem digit?_digitChar {d : Nat} (h : d < 10) : digit? (Nat.digitChar d) = some d := by
  interval_cases d <;> decide

theorem digit?_eq_some_iff {c : Char} {d : Nat} : digit? c = some d ↔ d < 10 ∧ c = Nat.digitChar d := by
  constructor
  · intro h
    have hlt := digit?_lt h
    refine ⟨hlt, ?_⟩
    unfold digit? at h
    split at h
    · rename_i hc
      simp only [Bool.and_eq_true, decide_eq_true_eq] at hc
      have hle : 48 ≤ c.toNat := hc.1
      have hcode : c = Char.ofNat (48 + d) := by
        have hd : c.toNat = 48 + d := by
          cases h
          omega
        rw [← hd, Char.ofNat_toNat]
      rw [hcode]
      interval_cases d <;> rfl
    · cases h
  · rintro ⟨hlt, rfl⟩
    exact digit?_digitChar hlt

namespace Integer

/-! ## The integer of a text -/

/-- A sign, which may be missing, and at least one digit denote an integer. -/
inductive Denotes : List Char → Int → Prop where
  | unsigned {cs ds} : Numeral cs ds → ds ≠ [] → Denotes cs (decimal ds)
  | plus {cs ds} : Numeral cs ds → ds ≠ [] → Denotes ('+' :: cs) (decimal ds)
  | minus {cs ds} : Numeral cs ds → ds ≠ [] → Denotes ('-' :: cs) (-(decimal ds))

/-- **Every integer is denoted by some text.** -/
theorem exists_denotes (v : Int) : ∃ s : String, Denotes s.toList v := by
  have hnumeral : ∀ n : Nat, ∃ cs ds, Numeral cs ds ∧ ds ≠ [] ∧ decimal ds = n := by
    intro n
    -- A zero in front, for zero has no digits.
    refine ⟨_, 0 :: (Nat.digits 10 n).reverse, ⟨?_, rfl⟩, List.cons_ne_nil _ _, ?_⟩
    · intro d hd
      rcases List.mem_cons.1 hd with rfl | hd
      · decide
      · exact Nat.digits_lt_base (by decide) (List.mem_reverse.1 hd)
    · rw [decimal_cons, decimal, List.reverse_reverse, Nat.ofDigits_digits, Nat.zero_mul, Nat.zero_add]
  rcases Int.eq_nat_or_neg v with ⟨n, rfl | rfl⟩
  · obtain ⟨cs, ds, hcs, hne, rfl⟩ := hnumeral n
    exact ⟨String.ofList cs, String.toList_ofList.symm ▸ .unsigned hcs hne⟩
  · obtain ⟨cs, ds, hcs, hne, rfl⟩ := hnumeral n
    exact ⟨String.ofList ('-' :: cs), String.toList_ofList.symm ▸ .minus hcs hne⟩

/-! ## Appending digits -/

/-- Digits appended to a number give a number: each moves what stands before it, and is added with the sign. -/
def Appends (sign value : Int) (cs : List Char) (v : Int) : Prop :=
  ∃ ds, Numeral cs ds ∧ v = value * 10 ^ ds.length + sign * decimal ds

variable {sign value v : Int} {c : Char} {cs : List Char}

theorem appends_nil : Appends sign value [] v ↔ v = value := by
  constructor
  · rintro ⟨ds, hds, rfl⟩
    obtain rfl : ds = [] := by simpa using hds.chars.symm
    simp [decimal]
  · rintro rfl
    exact ⟨[], ⟨nofun, rfl⟩, by simp [decimal]⟩

theorem appends_cons : Appends sign value (c :: cs) v ↔
    ∃ d, digit? c = some d ∧ Appends sign (value * 10 + sign * d) cs v := by
  have harith : ∀ (d : Nat) (ds : List Nat), (value * 10 + sign * d) * 10 ^ ds.length + sign * decimal ds =
      value * 10 ^ (d :: ds).length + sign * decimal (d :: ds) := by
    intro d ds
    rw [decimal_cons, List.length_cons, pow_succ]
    push_cast
    ring
  constructor
  · rintro ⟨_ | ⟨d, ds⟩, hds, rfl⟩
    · exact absurd hds.chars (by simp)
    · obtain ⟨rfl, rfl⟩ := List.cons.inj hds.chars
      obtain ⟨hd, hlt⟩ := List.forall_mem_cons.1 hds.lt
      exact ⟨d, digit?_digitChar hd, ds, ⟨hlt, rfl⟩, (harith d ds).symm⟩
  · rintro ⟨d, hd, ds, hds, rfl⟩
    obtain ⟨hlt, rfl⟩ := digit?_eq_some_iff.1 hd
    exact ⟨d :: ds, ⟨List.forall_mem_cons.2 ⟨hlt, hds.lt⟩, by rw [hds.chars, List.map_cons]⟩, harith d ds⟩

theorem le_of_appends (hvalue : 0 ≤ value) (h : Appends 1 value cs v) : value ≤ v := by
  induction cs generalizing value with
  | nil => exact Int.le_of_eq (appends_nil.1 h).symm
  | cons c cs ih =>
      obtain ⟨d, -, h⟩ := appends_cons.1 h
      have hle := ih (by omega) h
      omega

theorem ge_of_appends (hvalue : value ≤ 0) (h : Appends (-1) value cs v) : v ≤ value := by
  induction cs generalizing value with
  | nil => exact Int.le_of_eq (appends_nil.1 h)
  | cons c cs ih =>
      obtain ⟨d, -, h⟩ := appends_cons.1 h
      have hle := ih (by omega) h
      omega

/-- Reading upwards appends digits, up to the greatest integer. -/
theorem readUp_eq_ok_iff (hvalue : 0 ≤ value) (hle : value ≤ greatest) :
    readUp value cs = .ok v ↔ Appends 1 value cs v ∧ v ≤ greatest := by
  induction cs generalizing value with
  | nil =>
      rw [appends_nil, readUp, Except.ok.injEq, eq_comm]
      exact ⟨fun h => ⟨h, h ▸ hle⟩, And.left⟩
  | cons c cs ih =>
      rw [appends_cons, readUp]
      cases hc : digit? c with
      | none => simp
      | some d =>
          dsimp only
          simp only [Option.some.injEq, exists_eq_left', Int.one_mul]
          split
          · rename_i hlt
            -- What follows does not make the number smaller again.
            refine ⟨nofun, fun ⟨h, hv⟩ => ?_⟩
            have hnext := le_of_appends (by omega) h
            omega
          · exact ih (by omega) (by omega)

/-- Reading downwards appends digits, down to the least integer. -/
theorem readDown_eq_ok_iff (hvalue : value ≤ 0) (hle : least ≤ value) :
    readDown value cs = .ok v ↔ Appends (-1) value cs v ∧ least ≤ v := by
  induction cs generalizing value with
  | nil =>
      rw [appends_nil, readDown, Except.ok.injEq, eq_comm]
      exact ⟨fun h => ⟨h, h ▸ hle⟩, And.left⟩
  | cons c cs ih =>
      rw [appends_cons, readDown]
      cases hc : digit? c with
      | none => simp
      | some d =>
          dsimp only
          simp only [Option.some.injEq, exists_eq_left', Int.neg_mul, Int.one_mul, ← Int.sub_eq_add_neg]
          split
          · rename_i hlt
            refine ⟨nofun, fun ⟨h, hv⟩ => ?_⟩
            have hnext := ge_of_appends (by omega) h
            omega
          · exact ih (by omega) (by omega)

/-! ## Reading -/

theorem readUp_zero_eq_ok_iff :
    readUp 0 cs = .ok v ↔ ∃ ds, Numeral cs ds ∧ v = decimal ds ∧ v ≤ greatest := by
  rw [readUp_eq_ok_iff (Int.le_refl 0) (by decide)]
  simp only [Appends, Int.zero_mul, Int.zero_add, Int.one_mul, exists_and_right, ← and_assoc]

theorem readDown_zero_eq_ok_iff :
    readDown 0 cs = .ok v ↔ ∃ ds, Numeral cs ds ∧ v = -(decimal ds) ∧ least ≤ v := by
  rw [readDown_eq_ok_iff (Int.le_refl 0) (by decide)]
  simp only [Appends, Int.zero_mul, Int.zero_add, Int.neg_mul, Int.one_mul, exists_and_right, ← and_assoc]

/-- The digits alone are read as if a plus sign stood before them. -/
theorem readChars_of_numeral {ds : List Nat} (h : Numeral cs ds) (hne : ds ≠ []) : readChars cs = readUp 0 cs := by
  obtain ⟨d, ds, rfl⟩ := List.exists_cons_of_ne_nil hne
  obtain rfl := h.chars
  have hdigit : digit? (Nat.digitChar d) = some d := digit?_digitChar (h.lt d List.mem_cons_self)
  rw [List.map_cons]
  have hplus : Nat.digitChar d ≠ '+' := fun heq => by rw [heq] at hdigit; cases hdigit
  have hminus : Nat.digitChar d ≠ '-' := fun heq => by rw [heq] at hdigit; cases hdigit
  rw [readChars] <;> simp [hplus, hminus]

/-- **Reading gives the integer that characters denote, if it has 64 bits.** -/
theorem readChars_eq_ok_iff : readChars cs = .ok v ↔ Denotes cs v ∧ least ≤ v ∧ v ≤ greatest := by
  have hzero : least ≤ 0 ∧ 0 ≤ greatest := by decide
  constructor
  · intro h
    unfold readChars at h
    split at h
    · cases h
    · cases h
    · cases h
    case h_4 rest hne =>
      obtain ⟨ds, hds, rfl, hv⟩ := readUp_zero_eq_ok_iff.1 h
      exact ⟨.plus hds (hds.ne_nil_iff.2 hne), by omega, hv⟩
    case h_5 rest hne =>
      obtain ⟨ds, hds, rfl, hv⟩ := readDown_zero_eq_ok_iff.1 h
      exact ⟨.minus hds (hds.ne_nil_iff.2 hne), hv, by omega⟩
    case h_6 hne _ _ _ _ =>
      obtain ⟨ds, hds, rfl, hv⟩ := readUp_zero_eq_ok_iff.1 h
      exact ⟨.unsigned hds (hds.ne_nil_iff.2 hne), by omega, hv⟩
  · rintro ⟨h, hleast, hgreatest⟩
    cases h with
    | unsigned hcs hne =>
        rw [readChars_of_numeral hcs hne]
        exact readUp_zero_eq_ok_iff.2 ⟨_, hcs, rfl, hgreatest⟩
    | plus hcs hne =>
        rw [readChars]
        · exact readUp_zero_eq_ok_iff.2 ⟨_, hcs, rfl, hgreatest⟩
        · exact hcs.ne_nil_iff.1 hne
    | minus hcs hne =>
        rw [readChars]
        · exact readDown_zero_eq_ok_iff.2 ⟨_, hcs, rfl, hleast⟩
        · exact hcs.ne_nil_iff.1 hne

/-- **Reading gives the integer that a text denotes, if it has 64 bits.** -/
theorem read_eq_ok_iff {s : String} : read s = .ok v ↔ Denotes s.toList v ∧ least ≤ v ∧ v ≤ greatest :=
  readChars_eq_ok_iff

end Integer

end ShapeTypes.Numeric
