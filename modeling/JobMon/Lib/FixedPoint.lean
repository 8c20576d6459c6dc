import Mathlib.Algebra.Order.Field.Rat
import Mathlib.Algebra.Order.Round
import Mathlib.Data.Rat.Floor
import Mathlib.Tactic.FieldSimp
import Mathlib.Tactic.Linarith
import Mathlib.Tactic.Positivity
import Mathlib.Tactic.Ring

/-!
# Decimals with a fixed number of places

* `lastUnits` — a number rounded to `places` decimals, ties away from zero, as a number
  of units of the last place; `rounded` is what that stands for.
* `abs_rounded_sub_le` — rounding is off by half a unit of the last place at most.
* `toFixed` — the rounded number as text.
* `read` — the number a plain decimal text stands for.
* `read_toFixed` — **what was printed is read back rounded**.
-/

namespace FixedPoint

/-! ## Rounding -/

/-- The magnitude of `x` in units of the last of `places` decimals. -/
def lastUnits (places : ℕ) (x : ℚ) : ℕ := (round (|x| * 10 ^ places)).toNat

/-- `x` rounded to `places` decimals. -/
def rounded (places : ℕ) (x : ℚ) : ℚ :=
  if x < 0 then -(lastUnits places x / 10 ^ places) else lastUnits places x / 10 ^ places

theorem abs_lastUnits_sub_le (places : ℕ) (x : ℚ) :
    |(lastUnits places x : ℚ) - |x| * 10 ^ places| ≤ 1 / 2 := by
  have hnonneg : (0 : ℤ) ≤ round (|x| * 10 ^ places) := by
    rw [round_eq]
    exact Int.floor_nonneg.2 (by positivity)
  have hcast : (lastUnits places x : ℚ) = round (|x| * 10 ^ places) := by
    rw [lastUnits]
    exact_mod_cast Int.toNat_of_nonneg hnonneg
  rw [hcast, abs_sub_comm]
  exact abs_sub_round _

/-- **Rounding is off by half a unit of the last place at most.** -/
theorem abs_rounded_sub_le (places : ℕ) (x : ℚ) :
    |rounded places x - x| ≤ 1 / 2 / 10 ^ places := by
  have hpow : (0 : ℚ) < 10 ^ places := by positivity
  have hoff : |(lastUnits places x : ℚ) / 10 ^ places - (|x|)| ≤ 1 / 2 / 10 ^ places := by
    have hscaled : (lastUnits places x : ℚ) / 10 ^ places - |x| =
        ((lastUnits places x : ℚ) - |x| * 10 ^ places) / 10 ^ places := by
      field_simp
    rw [hscaled, abs_div, abs_of_pos hpow]
    exact div_le_div_of_nonneg_right (abs_lastUnits_sub_le places x) hpow.le
  rw [rounded]
  split_ifs with hx
  · rw [abs_of_neg hx] at hoff
    rw [show -((lastUnits places x : ℚ) / 10 ^ places) - x =
      -((lastUnits places x : ℚ) / 10 ^ places - -x) by ring, abs_neg]
    exact hoff
  · rwa [abs_of_nonneg (not_lt.1 hx)] at hoff

/-! ## Printing -/

/-- `n` units of the last of `places` decimals, as text. -/
def printUnits (places n : ℕ) : List Char :=
  if places = 0 then Nat.toDigits 10 n
  else Nat.toDigits 10 (n / 10 ^ places) ++
    '.' :: List.leftpad places '0' (Nat.toDigits 10 (n % 10 ^ places))

/-- `x` with `places` decimals; a negative number keeps its sign when it is rounded to
zero. -/
def toFixed (places : ℕ) (x : ℚ) : List Char :=
  if x < 0 then '-' :: printUnits places (lastUnits places x)
  else printUnits places (lastUnits places x)

/-! ## Reading -/

/-- The number digits stand for, with a point and more digits or without. -/
def readUnsigned (cs : List Char) : Option ℚ :=
  let whole := cs.takeWhile Char.isDigit
  if whole = [] then none
  else
    match cs.dropWhile Char.isDigit with
    | [] => some (Nat.ofDigitChars 10 whole 0)
    | '.' :: fraction =>
      if fraction ≠ [] ∧ fraction.all Char.isDigit then
        some (Nat.ofDigitChars 10 whole 0 + Nat.ofDigitChars 10 fraction 0 / 10 ^ fraction.length)
      else none
    | _ => none

/-- The number a plain decimal stands for, with a minus sign or without. -/
def read : List Char → Option ℚ
  | '-' :: cs => (readUnsigned cs).map fun x => -x
  | cs => readUnsigned cs

theorem isDigit_of_mem_digits {n : ℕ} {c : Char} (h : c ∈ Nat.toDigits 10 n) :
    c.isDigit = true :=
  Nat.isDigit_of_mem_toDigits (by decide) (by decide) h

theorem isDigit_of_mem_leftpad {places n : ℕ} {c : Char}
    (h : c ∈ List.leftpad places '0' (Nat.toDigits 10 n)) : c.isDigit = true := by
  rcases List.mem_append.1 h with h | h
  · rw [List.eq_of_mem_replicate h]
    decide
  · exact isDigit_of_mem_digits h

/-- Zeros in front do not change the number. -/
theorem ofDigitChars_leftpad (places n : ℕ) :
    Nat.ofDigitChars 10 (List.leftpad places '0' (Nat.toDigits 10 n)) 0 = n := by
  rw [List.leftpad, Nat.ofDigitChars_append, Nat.ofDigitChars_replicate_zero, Nat.mul_zero,
    Nat.ofDigitChars_ten_toDigits]

/-- A number below `10 ^ places` has room in `places` digits. -/
theorem length_leftpad_digits {places n : ℕ} (h : n < 10 ^ places) (hpos : 0 < places) :
    (List.leftpad places '0' (Nat.toDigits 10 n)).length = places := by
  rw [List.length_leftpad, Nat.max_eq_left]
  exact (Nat.length_toDigits_le_iff (by decide) hpos).2 h

/-- The digits in front of anything else. -/
theorem span_digits (n : ℕ) {rest : List Char} (h : ∀ c ∈ rest.head?, c.isDigit = false) :
    (Nat.toDigits 10 n ++ rest).takeWhile Char.isDigit = Nat.toDigits 10 n ∧
      (Nat.toDigits 10 n ++ rest).dropWhile Char.isDigit = rest := by
  have hdigits : ∀ c ∈ Nat.toDigits 10 n, c.isDigit = true := fun c hc => isDigit_of_mem_digits hc
  rw [List.takeWhile_append_of_pos hdigits, List.dropWhile_append_of_pos hdigits]
  cases rest with
  | nil => simp
  | cons c rest => simp [h c rfl]

theorem readUnsigned_printUnits (places n : ℕ) :
    readUnsigned (printUnits places n) = some ((n : ℚ) / 10 ^ places) := by
  rw [printUnits]
  by_cases hplaces : places = 0
  · obtain ⟨htake, hdrop⟩ := @span_digits n [] (by simp)
    rw [List.append_nil] at htake hdrop
    simp [readUnsigned, htake, hdrop, hplaces, Nat.ofDigitChars_ten_toDigits,
      Nat.toDigits_ne_nil]
  · set fraction := List.leftpad places '0' (Nat.toDigits 10 (n % 10 ^ places)) with hfraction
    have hpow : 0 < 10 ^ places := by positivity
    have hlen : fraction.length = places :=
      length_leftpad_digits (Nat.mod_lt n hpow) (Nat.pos_of_ne_zero hplaces)
    have hne : fraction ≠ [] := by
      rw [← List.length_pos_iff, hlen]
      exact Nat.pos_of_ne_zero hplaces
    have hdigits : fraction.all Char.isDigit = true :=
      List.all_eq_true.2 fun c hc => isDigit_of_mem_leftpad hc
    have hvalue : Nat.ofDigitChars 10 fraction 0 = n % 10 ^ places := ofDigitChars_leftpad _ _
    obtain ⟨htake, hdrop⟩ := @span_digits (n / 10 ^ places) ('.' :: fraction) (by simp)
    have hsplit : (n : ℚ) = (n / 10 ^ places : ℕ) * 10 ^ places + (n % 10 ^ places : ℕ) := by
      exact_mod_cast (Nat.div_add_mod' n (10 ^ places)).symm
    rw [if_neg hplaces]
    simp only [readUnsigned, htake, hdrop, Nat.toDigits_ne_nil, if_false]
    rw [if_pos ⟨hne, hdigits⟩, hvalue, hlen, Nat.ofDigitChars_ten_toDigits]
    congr 1
    rw [eq_div_iff (by positivity), add_mul, div_mul_cancel₀ _ (by positivity), ← hsplit]

/-- What is printed is made of digits and a point, and starts with a digit. -/
theorem exists_printUnits_eq (places n : ℕ) : ∃ d cs, printUnits places n = d :: cs ∧
    d.isDigit = true ∧ ∀ c ∈ cs, c = '.' ∨ c.isDigit = true := by
  have hfirst (m : ℕ) : ∃ d ds, Nat.toDigits 10 m = d :: ds ∧ d.isDigit = true ∧
      ∀ c ∈ ds, c.isDigit = true := by
    obtain ⟨d, ds, hds⟩ := List.exists_cons_of_ne_nil (Nat.toDigits_ne_nil (b := 10) (n := m))
    have hall : ∀ c ∈ d :: ds, c.isDigit = true := fun c hc =>
      isDigit_of_mem_digits (hds ▸ hc)
    exact ⟨d, ds, hds, List.forall_mem_cons.1 hall⟩
  rw [printUnits]
  split_ifs
  · obtain ⟨d, ds, hds, hd, hall⟩ := hfirst n
    exact ⟨d, ds, hds, hd, fun c hc => Or.inr (hall c hc)⟩
  · obtain ⟨d, ds, hds, hd, hall⟩ := hfirst (n / 10 ^ places)
    refine ⟨d, _, by rw [hds, List.cons_append], hd, ?_⟩
    intro c hc
    rcases List.mem_append.1 hc with hc | hc
    · exact Or.inr (hall c hc)
    · rcases List.mem_cons.1 hc with rfl | hc
      · exact Or.inl rfl
      · exact Or.inr (isDigit_of_mem_leftpad hc)

/-- A digit is not a sign. -/
theorem read_printUnits (places n : ℕ) :
    read (printUnits places n) = some ((n : ℚ) / 10 ^ places) := by
  obtain ⟨d, cs, hcs, hd, -⟩ := exists_printUnits_eq places n
  rw [← readUnsigned_printUnits, hcs]
  unfold read
  split
  · rename_i heq
    cases heq
    cases hd
  · rfl

/-- The characters of a printed number. -/
theorem mem_toFixed {places : ℕ} {x : ℚ} {c : Char} (h : c ∈ toFixed places x) :
    c = '-' ∨ c = '.' ∨ c.isDigit = true := by
  obtain ⟨d, cs, hcs, hd, hall⟩ := exists_printUnits_eq places (lastUnits places x)
  have hprinted : c ∈ printUnits places (lastUnits places x) → c = '.' ∨ c.isDigit = true := by
    rw [hcs, List.mem_cons]
    rintro (rfl | hc)
    · exact Or.inr hd
    · exact hall c hc
  rw [toFixed] at h
  split_ifs at h
  · rcases List.mem_cons.1 h with rfl | h
    · exact Or.inl rfl
    · exact Or.inr (hprinted h)
  · exact Or.inr (hprinted h)

/-- **What was printed is read back rounded.** -/
theorem read_toFixed (places : ℕ) (x : ℚ) : read (toFixed places x) = some (rounded places x) := by
  rw [toFixed, rounded]
  split_ifs with hx
  · simp [read, readUnsigned_printUnits]
  · exact read_printUnits places _

end FixedPoint
