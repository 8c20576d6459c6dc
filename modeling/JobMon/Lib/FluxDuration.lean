import JobMon.Lib.FluxLex
import Mathlib.Algebra.Group.Prod
import Mathlib.Algebra.GroupWithZero.Nat
import Mathlib.Algebra.BigOperators.Group.List.Basic

/-!
# What a Flux duration literal denotes

A duration literal is a row of numbers with units.  Months have no fixed length, so
a length is a number of months and a number of nanoseconds.

* `literal`, `total` — the text of such a row, and the length it stands for.
* `Denotes` — a text is a duration literal of this length.
* `literal_injective` — a literal is read in one way only.
* `Denotes.unique` — so it has one length.
* `Denotes.isDuration` — the reader takes it as a duration.
-/

namespace FluxLex

/-- The units of durations. -/
inductive DurationUnit
  | year | month | week | day | hour | minute | second | milli | micro | microGreek | nano
  deriving DecidableEq

namespace DurationUnit

def symbol : DurationUnit → List Char
  | year => ['y']
  | month => ['m', 'o']
  | week => ['w']
  | day => ['d']
  | hour => ['h']
  | minute => ['m']
  | second => ['s']
  | milli => ['m', 's']
  | micro => ['u', 's']
  | microGreek => ['µ', 's']
  | nano => ['n', 's']

/-- Months and nanoseconds. -/
def length : DurationUnit → ℕ × ℕ
  | year => (12, 0)
  | month => (1, 0)
  | week => (0, 604800000000000)
  | day => (0, 86400000000000)
  | hour => (0, 3600000000000)
  | minute => (0, 60000000000)
  | second => (0, 1000000000)
  | milli => (0, 1000000)
  | micro => (0, 1000)
  | microGreek => (0, 1000)
  | nano => (0, 1)

theorem symbol_mem (u : DurationUnit) : u.symbol ∈ durationUnits := by
  cases u <;> decide

theorem symbol_injective {u v : DurationUnit} (h : u.symbol = v.symbol) : u = v := by
  cases u <;> cases v <;> first | rfl | exact absurd h (by decide)

theorem symbol_not_digit (u : DurationUnit) : ∀ c ∈ u.symbol, c.isDigit = false := by
  have hall : (u.symbol.all fun c => !c.isDigit) = true := by
    cases u <;> decide
  intro c hc
  simpa using List.all_eq_true.1 hall c hc

theorem symbol_ne_nil (u : DurationUnit) : u.symbol ≠ [] := by
  cases u <;> decide

end DurationUnit

/-- A number with a unit. -/
abbrev Quantity := ℕ × DurationUnit

/-- The text of a row of numbers with units. -/
def literal (ps : List Quantity) : List Char :=
  ps.flatMap fun p => Nat.toDigits 10 p.1 ++ p.2.symbol

/-- The length of a row of numbers with units. -/
def total (ps : List Quantity) : ℕ × ℕ := (ps.map fun p => p.1 • p.2.length).sum

/-- The text is a duration literal of this length. -/
def Denotes (cs : List Char) (length : ℕ × ℕ) : Prop :=
  ∃ ps, ps ≠ [] ∧ literal ps = cs ∧ total ps = length

theorem literal_cons (p : Quantity) (ps : List Quantity) :
    literal (p :: ps) = Nat.toDigits 10 p.1 ++ (p.2.symbol ++ literal ps) := by
  simp [literal]

theorem total_nil : total [] = 0 := rfl

theorem total_cons (p : Quantity) (ps : List Quantity) :
    total (p :: ps) = p.1 • p.2.length + total ps := by
  simp [total]

theorem isDigit_of_mem_toDigits {n : ℕ} {c : Char} (h : c ∈ Nat.toDigits 10 n) :
    c.isDigit = true :=
  Nat.isDigit_of_mem_toDigits (by decide) (by decide) h

/-! ## One reading -/

/-- A text that begins with a stretch of characters of one class, followed by something
that does not go on with it, is taken apart in one way. -/
theorem append_inj_of_class {p : Char → Bool} {xs xs' ys ys' : List Char}
    (hxs : ∀ c ∈ xs, p c = true) (hxs' : ∀ c ∈ xs', p c = true)
    (hys : ∀ c cs, ys = c :: cs → p c = false) (hys' : ∀ c cs, ys' = c :: cs → p c = false)
    (h : xs ++ ys = xs' ++ ys') : xs = xs' ∧ ys = ys' := by
  induction xs generalizing xs' with
  | nil =>
    cases xs' with
    | nil => exact ⟨rfl, h⟩
    | cons c cs =>
      have hfalse := hys c (cs ++ ys') (by simpa using h)
      rw [hxs' c List.mem_cons_self] at hfalse
      cases hfalse
  | cons c cs ih =>
    cases xs' with
    | nil =>
      have hfalse := hys' c (cs ++ ys) (by simpa using h.symm)
      rw [hxs c List.mem_cons_self] at hfalse
      cases hfalse
    | cons c' cs' =>
      simp only [List.cons_append, List.cons.injEq] at h
      obtain ⟨rfl, hrest⟩ := h
      obtain ⟨rfl, rfl⟩ := ih (fun d hd => hxs d (List.mem_cons_of_mem _ hd))
        (fun d hd => hxs' d (List.mem_cons_of_mem _ hd)) hrest
      exact ⟨rfl, rfl⟩

/-- A literal begins with a digit. -/
theorem isDigit_of_literal_eq_cons {ps : List Quantity} {c : Char} {cs : List Char}
    (h : literal ps = c :: cs) : c.isDigit = true := by
  cases ps with
  | nil => cases h
  | cons p ps =>
    obtain ⟨d, ds, hds⟩ := List.exists_cons_of_ne_nil (Nat.toDigits_ne_nil (b := 10) (n := p.1))
    rw [literal_cons, hds, List.cons_append, List.cons.injEq] at h
    rw [← h.1]
    exact isDigit_of_mem_toDigits (by rw [hds]; exact List.mem_cons_self)

theorem not_digit_of_symbol_append {u : DurationUnit} {rest cs : List Char} {c : Char}
    (h : u.symbol ++ rest = c :: cs) : c.isDigit = false := by
  obtain ⟨d, ds, hds⟩ := List.exists_cons_of_ne_nil u.symbol_ne_nil
  rw [hds, List.cons_append, List.cons.injEq] at h
  rw [← h.1]
  exact u.symbol_not_digit d (by rw [hds]; exact List.mem_cons_self)

theorem toDigits_injective {m n : ℕ} (h : Nat.toDigits 10 m = Nat.toDigits 10 n) : m = n := by
  have hvalue : Nat.ofDigitChars 10 (Nat.toDigits 10 m) 0 = m := Nat.ofDigitChars_ten_toDigits
  rw [h, Nat.ofDigitChars_ten_toDigits] at hvalue
  exact hvalue.symm

/-- **A literal is read in one way only.** -/
theorem literal_injective {ps qs : List Quantity} (h : literal ps = literal qs) : ps = qs := by
  induction ps generalizing qs with
  | nil =>
    cases qs with
    | nil => rfl
    | cons q qs =>
      rw [literal_cons] at h
      simp [literal, Nat.toDigits_ne_nil] at h
  | cons p ps ih =>
    cases qs with
    | nil =>
      rw [literal_cons] at h
      simp [literal, Nat.toDigits_ne_nil] at h
    | cons q qs =>
      rw [literal_cons, literal_cons] at h
      -- the digits of the first number end where its unit begins
      obtain ⟨hnumber, hrest⟩ := append_inj_of_class (p := Char.isDigit)
        (fun c hc => isDigit_of_mem_toDigits hc) (fun c hc => isDigit_of_mem_toDigits hc)
        (fun c cs hc => not_digit_of_symbol_append hc)
        (fun c cs hc => not_digit_of_symbol_append hc) h
      -- and the unit ends where the next number begins
      obtain ⟨hunit, hrows⟩ := append_inj_of_class (p := fun c => !c.isDigit)
        (fun c hc => by simp [p.2.symbol_not_digit c hc])
        (fun c hc => by simp [q.2.symbol_not_digit c hc])
        (fun c cs hc => by simp [isDigit_of_literal_eq_cons hc])
        (fun c cs hc => by simp [isDigit_of_literal_eq_cons hc]) hrest
      rw [ih hrows, Prod.ext (toDigits_injective hnumber) (DurationUnit.symbol_injective hunit)]

/-- **A text denotes one length at most.** -/
theorem Denotes.unique {cs : List Char} {l l' : ℕ × ℕ} (h : Denotes cs l) (h' : Denotes cs l') :
    l = l' := by
  obtain ⟨ps, -, hps, rfl⟩ := h
  obtain ⟨qs, -, hqs, rfl⟩ := h'
  rw [literal_injective (hps.trans hqs.symm)]

/-! ## The reader -/

theorem durationFrom_symbol (u : DurationUnit) (rest : List Char) :
    durationFrom .digits (u.symbol ++ rest) = durationFrom (.unit u.symbol) rest := by
  cases u <;> rfl

theorem durationFrom_literal {s : DurationState}
    (hs : s = .start ∨ ∃ u ∈ durationUnits, s = .unit u) {ps : List Quantity} (hne : ps ≠ []) :
    durationFrom s (literal ps) = true := by
  induction ps generalizing s with
  | nil => exact absurd rfl hne
  | cons p ps ih =>
    rw [literal_cons, durationFrom_number hs Nat.toDigits_ne_nil
      (fun c hc => isDigit_of_mem_toDigits hc), durationFrom_symbol]
    by_cases hps : ps = []
    · subst hps
      exact decide_eq_true p.2.symbol_mem
    · exact ih (.inr ⟨_, p.2.symbol_mem, rfl⟩) hps

/-- **What denotes a length is read as a duration.** -/
theorem Denotes.isDuration {cs : List Char} {l : ℕ × ℕ} (h : Denotes cs l) :
    isDuration cs = true := by
  obtain ⟨ps, hne, rfl, -⟩ := h
  exact durationFrom_literal (.inl rfl) hne

example : Denotes "1h30m0s".toList (0, 5400000000000) :=
  ⟨[(1, .hour), (30, .minute), (0, .second)], by decide, by decide, by decide⟩

end FluxLex
