import Mathlib.Algebra.Order.Field.Rat
import Mathlib.Data.List.TakeDrop
import Mathlib.Data.Rat.Floor
import Mathlib.Tactic.Linarith

/-!
# Lists shown page by page

* `slice` — the elements between two positions; a negative position counts from the
  end of the list, as those of arrays do.
* `page`, `pageCount` — the pages of a list, counted from zero, and how many there
  are; `ceil_div_eq_pageCount` says that it is the quotient rounded up.
* `page_ne_nil_iff`, `length_page_le` — the pages that have something on them, and how
  much.
* `flatMap_page_pageCount` — **the pages make up the list**.
-/

namespace Pages

variable {α : Type} {l : List α} {limit n k m : ℕ}

/-! ## Slices -/

/-- A position of a list with `length` elements. -/
def position (length : ℕ) (i : ℤ) : ℕ :=
  if i < 0 then (length + i).toNat else min i.toNat length

/-- The elements from one position up to another one. -/
def slice (l : List α) (start stop : ℤ) : List α :=
  (l.drop (position l.length start)).take
    (position l.length stop - position l.length start)

theorem position_natCast (length i : ℕ) : position length (i : ℤ) = min i length := by
  rw [position, if_neg (by omega), Int.toNat_natCast]

/-- A slice that does not start before the list. -/
theorem slice_natCast (l : List α) (i n : ℕ) : slice l i (i + n) = (l.drop i).take n := by
  have hstop : position l.length ((i : ℤ) + n) = min (i + n) l.length := by
    rw [← Nat.cast_add, position_natCast]
  rw [slice, position_natCast, hstop]
  rcases Nat.le_total i l.length with hi | hi
  · rw [min_eq_left hi]
    rcases Nat.le_total (i + n) l.length with hn | hn
    · rw [min_eq_left hn, Nat.add_sub_cancel_left]
    · have hlen : (l.drop i).length ≤ n := by simp; omega
      rw [min_eq_right hn, List.take_of_length_le hlen, List.take_of_length_le (by simp)]
  · simp [hi]

/-! ## Pages -/

/-- The `k`-th page. -/
def page (limit : ℕ) (l : List α) (k : ℕ) : List α := (l.drop (limit * k)).take limit

/-- How many pages there are of `n` elements. -/
def pageCount (limit n : ℕ) : ℕ := (n + limit - 1) / limit

theorem lt_pageCount_iff (h : 0 < limit) : k < pageCount limit n ↔ limit * k < n := by
  rw [pageCount, ← Nat.succ_le_iff, Nat.le_div_iff_mul_le h, Nat.succ_mul, Nat.mul_comm]
  omega

theorem pageCount_le_iff (h : 0 < limit) : pageCount limit n ≤ k ↔ n ≤ limit * k := by
  rw [← not_lt, lt_pageCount_iff h, not_lt]

/-- The number of pages is the quotient rounded up. -/
theorem ceil_div_eq_pageCount (h : 0 < limit) :
    ((n : ℚ) / limit).ceil = (pageCount limit n : ℤ) := by
  have hpos : (0 : ℚ) < limit := by exact_mod_cast h
  refine eq_of_forall_ge_iff fun c => ?_
  rw [Rat.ceil_le_iff, div_le_iff₀ hpos]
  rcases lt_or_ge c 0 with hc | hc
  · -- neither the quotient nor the number of pages is negative
    have hneg : (c : ℚ) * limit < 0 := mul_neg_of_neg_of_pos (by exact_mod_cast hc) hpos
    have hn : (0 : ℚ) ≤ n := Nat.cast_nonneg n
    exact iff_of_false (by linarith) (by omega)
  · obtain ⟨k, rfl⟩ := Int.eq_ofNat_of_zero_le hc
    rw [Nat.cast_le, pageCount_le_iff h, Nat.mul_comm]
    exact_mod_cast Iff.rfl

theorem length_page_le (limit : ℕ) (l : List α) (k : ℕ) : (page limit l k).length ≤ limit := by
  simp [page]

/-- The pages that have something on them. -/
theorem page_ne_nil_iff (h : 0 < limit) : page limit l k ≠ [] ↔ k < pageCount limit l.length := by
  rw [lt_pageCount_iff h, ← List.length_pos_iff, page, List.length_take, List.length_drop]
  omega

/-- The first pages show the first elements. -/
theorem flatMap_page (limit : ℕ) (l : List α) (m : ℕ) :
    (List.range m).flatMap (page limit l) = l.take (limit * m) := by
  induction m with
  | zero => simp
  | succ m ih => simp [List.range_succ, ih, page, Nat.mul_succ, List.take_add]

/-- **The pages make up the list**, in order and without gap or overlap. -/
theorem flatMap_page_pageCount (h : 0 < limit) (l : List α) :
    (List.range (pageCount limit l.length)).flatMap (page limit l) = l := by
  rw [flatMap_page, List.take_of_length_le ((pageCount_le_iff h).1 (Nat.le_refl _))]

end Pages
