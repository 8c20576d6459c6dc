import Mathlib.Data.List.Basic
import Mathlib.Tactic.Common

/-!
# Reading delimited text

A text that was put together from parts can be taken apart again, as long as one
knows of every part whether a delimiter occurs in it.

* `upTo`, `past` — what stands before and after the first occurrence of a
  delimiter.
* `upTo_append_of_mem`, `past_append_of_mem` — the delimiter is in the first part.
* `upTo_append_of_not_mem`, `past_append_of_not_mem` — it is not.
-/

namespace Delimited

variable {α : Type} [DecidableEq α]

/-- What stands before the first `d`. -/
def upTo (d : α) (l : List α) : List α := l.takeWhile fun x => x ≠ d

/-- What stands after the first `d`. -/
def past (d : α) (l : List α) : List α := (l.dropWhile fun x => x ≠ d).tail

variable {d : α} {l rest : List α}

theorem past_append_of_mem (h : d ∈ l) : past d (l ++ rest) = past d l ++ rest := by
  induction l with
  | nil => cases h
  | cons x l ih =>
    by_cases hx : x = d
    · simp [past, hx]
    · have hmem : d ∈ l := by
        rcases List.mem_cons.1 h with h | h
        · exact absurd h.symm hx
        · exact h
      have hstep : ∀ l', past d (x :: l') = past d l' := by
        intro l'
        simp [past, hx]
      rw [List.cons_append, hstep, hstep, ih hmem]

theorem past_append_of_not_mem (h : d ∉ l) : past d (l ++ rest) = past d rest := by
  induction l with
  | nil => rfl
  | cons x l ih =>
    rw [List.mem_cons, not_or] at h
    have hx : x ≠ d := Ne.symm h.1
    rw [← ih h.2]
    simp [past, hx]

theorem upTo_append_of_mem (h : d ∈ l) : upTo d (l ++ rest) = upTo d l := by
  induction l with
  | nil => cases h
  | cons x l ih =>
    by_cases hx : x = d
    · simp [upTo, hx]
    · have hmem : d ∈ l := by
        rcases List.mem_cons.1 h with h | h
        · exact absurd h.symm hx
        · exact h
      have hstep : ∀ l', upTo d (x :: l') = x :: upTo d l' := by
        intro l'
        simp [upTo, hx]
      rw [List.cons_append, hstep, hstep, ih hmem]

theorem upTo_append_of_not_mem (h : d ∉ l) : upTo d (l ++ rest) = l ++ upTo d rest := by
  induction l with
  | nil => rfl
  | cons x l ih =>
    rw [List.mem_cons, not_or] at h
    have hx : x ≠ d := Ne.symm h.1
    rw [List.cons_append, List.cons_append, ← ih h.2]
    simp [upTo, hx]

end Delimited
