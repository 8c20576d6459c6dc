import Mathlib.Data.List.Count
import Mathlib.Order.Lattice
import Mathlib.Tactic.Common

/-!
# Windows that lie side by side

Windows of a linear order, each with a start and a stop, that lead down from `hi` to `lo`: every
one stops where the one before it starts.

* `Tiles` — the windows lie side by side.
* `tiles_append_iff` — more windows below.
* `Descends` — the windows lie one below the other, with gaps.
* `Tiles.countP_covers` — **every point between `lo` and `hi` is in one window**, and no other
  point is in any.
-/

namespace Tiling

variable {α : Type} [LinearOrder α]

/-- The windows lead from `hi` down to `lo`. -/
def Tiles : α → List (α × α) → α → Prop
  | hi, [], lo => lo = hi
  | hi, w :: ws, lo => w.2 = hi ∧ w.1 ≤ hi ∧ Tiles w.1 ws lo

/-- The point is in the window. -/
def covers (n : α) (w : α × α) : Bool := w.1 ≤ n && n < w.2

variable {hi lo n : α} {ws ws' : List (α × α)} {w : α × α}

theorem tiles_append_iff :
    Tiles hi (ws ++ ws') lo ↔ ∃ mid, Tiles hi ws mid ∧ Tiles mid ws' lo := by
  induction ws generalizing hi with
  | nil => simp [Tiles]
  | cons w ws ih => simp [Tiles, ih, and_assoc]

/-- One more window at the lower end. -/
theorem Tiles.snoc (h : Tiles hi ws lo) {start : α} (hstart : start ≤ lo) :
    Tiles hi (ws ++ [(start, lo)]) start :=
  tiles_append_iff.2 ⟨lo, h, rfl, hstart, rfl⟩

theorem Tiles.le (h : Tiles hi ws lo) : lo ≤ hi := by
  induction ws generalizing hi with
  | nil => exact h.le
  | cons w ws ih =>
    obtain ⟨-, hstart, hrest⟩ := h
    exact (ih hrest).trans hstart

/-- **Every point is in one window.** -/
theorem Tiles.countP_covers (h : Tiles hi ws lo) (n : α) :
    ws.countP (covers n) = if lo ≤ n ∧ n < hi then 1 else 0 := by
  induction ws generalizing hi with
  | nil =>
    have hlo : lo = hi := h
    rw [List.countP_nil, if_neg]
    rintro ⟨hle, hlt⟩
    exact absurd (hlo ▸ hlt) (not_lt.2 hle)
  | cons w ws ih =>
    obtain ⟨hstop, hstart, hrest⟩ := h
    rw [List.countP_cons, ih hrest]
    by_cases hbelow : n < w.1
    · -- further down
      have hlt : n < hi := hbelow.trans_le hstart
      simp [covers, hbelow, hlt, not_le.2 hbelow]
    · have hle : w.1 ≤ n := not_lt.1 hbelow
      have hlo : lo ≤ n := hrest.le.trans hle
      simp [covers, hbelow, hle, hlo, hstop]

/-- The windows lie below `hi` and above `lo`, every one below the one before it. -/
def Descends : α → List (α × α) → α → Prop
  | hi, [], lo => lo ≤ hi
  | hi, w :: ws, lo => w.2 ≤ hi ∧ w.1 ≤ w.2 ∧ Descends w.1 ws lo

theorem Descends.le (h : Descends hi ws lo) : lo ≤ hi := by
  induction ws generalizing hi with
  | nil => exact h
  | cons w ws ih =>
    obtain ⟨hstop, hstart, hrest⟩ := h
    exact ((ih hrest).trans hstart).trans hstop

theorem Descends.mono {hi' : α} (h : Descends hi ws lo) (hle : hi ≤ hi') : Descends hi' ws lo := by
  cases ws with
  | nil => exact (show lo ≤ hi from h).trans hle
  | cons w ws =>
    obtain ⟨hstop, hrest⟩ := h
    exact ⟨hstop.trans hle, hrest⟩

/-- Any of the windows may be missing. -/
theorem Descends.sublist (h : Descends hi ws lo) (hsub : ws'.Sublist ws) : Descends hi ws' lo := by
  induction hsub generalizing hi with
  | slnil => exact h
  | cons w _ ih =>
    obtain ⟨hstop, hstart, hrest⟩ := h
    exact (ih hrest).mono (hstart.trans hstop)
  | cons_cons w _ ih =>
    obtain ⟨hstop, hstart, hrest⟩ := h
    exact ⟨hstop, hstart, ih hrest⟩

/-- One more window at the lower end. -/
theorem Descends.snoc (h : Descends hi ws lo) {start : α} (hstart : start ≤ lo) :
    Descends hi (ws ++ [(start, lo)]) start := by
  induction ws generalizing hi with
  | nil => exact ⟨h, hstart, le_refl start⟩
  | cons w ws ih =>
    obtain ⟨hstop, hle, hrest⟩ := h
    exact ⟨hstop, hle, ih hrest⟩

end Tiling
