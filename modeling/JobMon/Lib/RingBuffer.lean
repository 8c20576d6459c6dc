import Mathlib.Data.List.Rotate
import Mathlib.Data.List.DropRight
import Mathlib.Tactic.Common

/-!
# Ring buffers

A ring of cells with a pointer to one of them, as in Go's `container/ring`.

* `set`, `next`, `toList` — the cell at the pointer is filled, the pointer moves on, and all
  cells are visited, beginning at the pointer.
* `toList_record` — what is recorded comes last, and what came first is gone.
* `values_recordAll` — a ring of `n` cells holds the last `n` values, the oldest one first.
-/

/-- Cells, and a pointer to one of them. -/
structure RingBuffer (α : Type) where
  cells : List (Option α)
  pos : ℕ
  pos_lt : pos < cells.length

namespace RingBuffer

variable {α : Type}

/-- `ring.New`: empty cells. -/
def new (n : ℕ) (h : 0 < n) : RingBuffer α where
  cells := List.replicate n none
  pos := 0
  pos_lt := by simpa using h

/-- `r.Value = v`. -/
def set (r : RingBuffer α) (v : α) : RingBuffer α where
  cells := r.cells.set r.pos (some v)
  pos := r.pos
  pos_lt := by simpa using r.pos_lt

/-- `r.Next()`. -/
def next (r : RingBuffer α) : RingBuffer α where
  cells := r.cells
  pos := (r.pos + 1) % r.cells.length
  pos_lt := Nat.mod_lt _ (Nat.zero_lt_of_lt r.pos_lt)

/-- The cells in the order in which `r.Do` visits them. -/
def toList (r : RingBuffer α) : List (Option α) := r.cells.drop r.pos ++ r.cells.take r.pos

/-- Fill the cell and move on. -/
def record (r : RingBuffer α) (v : α) : RingBuffer α := (r.set v).next

/-- Record one value after the other. -/
def recordAll (r : RingBuffer α) (vs : List α) : RingBuffer α := vs.foldl record r

/-- The values in the order in which they are visited. -/
def values (r : RingBuffer α) : List α := r.toList.filterMap id

theorem toList_eq_rotate (r : RingBuffer α) : r.toList = r.cells.rotate r.pos :=
  (List.rotate_eq_drop_append_take r.pos_lt.le).symm

theorem toList_new (n : ℕ) (h : 0 < n) :
    (new n h : RingBuffer α).toList = List.replicate n none := by
  simp [new, toList]

theorem length_toList (r : RingBuffer α) : r.toList.length = r.cells.length := by
  rw [toList_eq_rotate, List.length_rotate]

theorem toList_set (r : RingBuffer α) (v : α) : (r.set v).toList = some v :: r.toList.tail := by
  have hlt := r.pos_lt
  have hcell : r.cells.drop r.pos = r.cells[r.pos] :: r.cells.drop (r.pos + 1) :=
    List.drop_eq_getElem_cons hlt
  have hdrop : (r.cells.set r.pos (some v)).drop r.pos = some v :: r.cells.drop (r.pos + 1) := by
    rw [List.drop_set, if_neg (lt_irrefl _), Nat.sub_self, hcell, List.set_cons_zero]
  rw [toList, toList, set, hdrop, hcell, List.take_set_of_le (le_refl _)]
  rfl

theorem toList_next (r : RingBuffer α) : r.next.toList = r.toList.rotate 1 := by
  rw [toList_eq_rotate, toList_eq_rotate, List.rotate_rotate]
  exact List.rotate_mod r.cells (r.pos + 1)

/-- **What is recorded comes last**, in place of what came first. -/
theorem toList_record (r : RingBuffer α) (v : α) :
    (r.record v).toList = r.toList.tail ++ [some v] := by
  rw [record, toList_next, toList_set, List.rotate_cons_succ, List.rotate_zero]

/-- Recording keeps the number of cells and drops what came first. -/
theorem toList_recordAll (r : RingBuffer α) (vs : List α) :
    (r.recordAll vs).toList = (r.toList ++ vs.map some).drop vs.length := by
  induction vs generalizing r with
  | nil => simp [recordAll]
  | cons v vs ih =>
    have hne : r.toList ≠ [] := by
      rw [← List.length_pos_iff, length_toList]
      exact Nat.zero_lt_of_lt r.pos_lt
    obtain ⟨c, cs, hcells⟩ := List.exists_cons_of_ne_nil hne
    show ((r.record v).recordAll vs).toList = _
    rw [ih, toList_record, hcells]
    simp

/-- **A new ring of `n` cells holds the last `n` values**, the oldest one first. -/
theorem values_recordAll (n : ℕ) (h : 0 < n) (vs : List α) :
    ((new n h).recordAll vs).values = vs.rtake n := by
  rw [values, toList_recordAll, toList_new, List.drop_append, List.drop_replicate,
    List.length_replicate, ← List.map_drop, List.filterMap_append]
  have hempty : (List.replicate (n - vs.length) (none : Option α)).filterMap id = [] := by
    rw [List.filterMap_eq_nil_iff]
    intro v hv
    exact List.eq_of_mem_replicate hv
  rw [hempty, List.nil_append, List.filterMap_map]
  exact List.filterMap_some

example : ((new 2 (by decide)).recordAll [1, 2, 3]).values = [2, 3] := by decide

end RingBuffer
