import Mathlib.Data.List.Basic
import Mathlib.Tactic.Common
import Mathlib.Tactic.Ring

/-!
# Positions in a concatenation

A list of blocks, laid end to end, and the positions of the result.

* `offset` — where a block begins.
* `InBlock`, `exists_inBlock`, `InBlock.le` — the block of a position; it grows with the
  position.
* `getElem?_flatten` — what stands at a position.
* `inBlock_of_distinct` — as many increasing positions as there are blocks, no two in one
  block: the `k`-th of them is in the `k`-th block.
* `regular_iff` — the blocks that hold the positions of a table with rows of length `c`.
-/

namespace Blocks

variable {α : Type*} {blocks : List (List α)}

/-- Where block `k` begins. -/
def offset (blocks : List (List α)) (k : ℕ) : ℕ := (blocks.take k).flatten.length

/-- The position `p` is in block `k`. -/
def InBlock (blocks : List (List α)) (k p : ℕ) : Prop :=
  ∃ b, blocks[k]? = some b ∧ offset blocks k ≤ p ∧ p < offset blocks k + b.length

@[simp] theorem offset_zero : offset blocks 0 = 0 := rfl

theorem offset_length : offset blocks blocks.length = blocks.flatten.length := by
  rw [offset, List.take_length]

theorem offset_succ {k : ℕ} {b : List α} (h : blocks[k]? = some b) :
    offset blocks (k + 1) = offset blocks k + b.length := by
  rw [offset, List.take_add_one, h, Option.toList_some, List.flatten_append, List.length_append]
  simp [offset]

theorem offset_mono {k k' : ℕ} (h : k ≤ k') : offset blocks k ≤ offset blocks k' := by
  have hprefix : blocks.take k <+: blocks.take k' := List.take_prefix_take_left h
  obtain ⟨rest, hrest⟩ := hprefix
  rw [offset, offset, ← hrest, List.flatten_append, List.length_append]
  omega

theorem InBlock.lt_length {k p : ℕ} (h : InBlock blocks k p) : k < blocks.length := by
  obtain ⟨b, hb, -⟩ := h
  exact (List.getElem?_eq_some_iff.1 hb).1

theorem InBlock.lt_offset_succ {k p : ℕ} (h : InBlock blocks k p) :
    p < offset blocks (k + 1) := by
  obtain ⟨b, hb, -, hlt⟩ := h
  rwa [offset_succ hb]

theorem InBlock.offset_le {k p : ℕ} (h : InBlock blocks k p) : offset blocks k ≤ p := by
  obtain ⟨b, -, hle, -⟩ := h
  exact hle

/-- Every position is in a block. -/
theorem exists_inBlock {p : ℕ} (h : p < blocks.flatten.length) : ∃ k, InBlock blocks k p := by
  have hbelow : ∀ k, k ≤ blocks.length → p < offset blocks k → ∃ j, InBlock blocks j p := by
    intro k
    induction k with
    | zero =>
      intro _ hp
      simp at hp
    | succ k ih =>
      intro hk hp
      have hb : blocks[k]? = some blocks[k] := List.getElem?_eq_getElem hk
      rw [offset_succ hb] at hp
      rcases lt_or_ge p (offset blocks k) with hlt | hge
      · exact ih (by omega) hlt
      · exact ⟨k, _, hb, hge, hp⟩
  exact hbelow _ le_rfl (by rwa [offset_length])

/-- A later position is in no earlier block. -/
theorem InBlock.le {k k' p p' : ℕ} (h : InBlock blocks k p) (h' : InBlock blocks k' p')
    (hle : p ≤ p') : k ≤ k' := by
  by_contra hlt
  have hmono : offset blocks (k' + 1) ≤ offset blocks k := offset_mono (by omega)
  have := h'.lt_offset_succ
  have := h.offset_le
  omega

/-- What stands at a position of a block. -/
theorem getElem?_flatten {k i : ℕ} {b : List α} (hb : blocks[k]? = some b) (hi : i < b.length) :
    blocks.flatten[offset blocks k + i]? = b[i]? := by
  obtain ⟨hk, rfl⟩ := List.getElem?_eq_some_iff.1 hb
  have hsplit : blocks.flatten =
      (blocks.take k).flatten ++ (blocks[k] ++ (blocks.drop (k + 1)).flatten) := by
    rw [← List.flatten_cons, ← List.drop_eq_getElem_cons hk, ← List.flatten_append,
      List.take_append_drop]
  rw [hsplit, List.getElem?_append_right (by simp [offset]), List.getElem?_append_left]
  · simp [offset]
  · simpa [offset] using hi

/-- What stands at a position of a block is in the block. -/
theorem InBlock.mem {k p : ℕ} {b : List α} {a : α} (h : InBlock blocks k p)
    (hb : blocks[k]? = some b) (ha : blocks.flatten[p]? = some a) : a ∈ b := by
  obtain ⟨b', hb', hle, hlt⟩ := h
  obtain rfl : b' = b := Option.some.inj (hb'.symm.trans hb)
  obtain ⟨i, rfl⟩ := Nat.exists_eq_add_of_le hle
  rw [getElem?_flatten hb (by omega)] at ha
  exact List.mem_of_getElem? ha

/-! ## One position for each block -/

/-- An increasing function on `0, …, m - 1` with values there is the identity. -/
theorem eq_of_increasing {f : ℕ → ℕ} {m : ℕ} (hlt : ∀ i j, i < j → j < m → f i < f j)
    (hm : ∀ i < m, f i < m) {i : ℕ} (hi : i < m) : f i = i := by
  have hlow : ∀ i < m, i ≤ f i := by
    intro i
    induction i with
    | zero =>
      intro _
      exact Nat.zero_le _
    | succ i ih =>
      intro hi
      have := ih (by omega)
      have := hlt i (i + 1) (by omega) hi
      omega
  have hhigh : ∀ d, i + d < m → f i + d ≤ f (i + d) := by
    intro d
    induction d with
    | zero =>
      intro _
      exact le_rfl
    | succ d ih =>
      intro hd
      have := ih (by omega)
      have := hlt (i + d) (i + (d + 1)) (by omega) hd
      omega
  have h1 := hlow i hi
  have h2 := hhigh (m - 1 - i) (by omega)
  have h3 := hm (i + (m - 1 - i)) (by omega)
  omega

/-- **As many positions as blocks**, increasing and no two in one block: one in each. -/
theorem inBlock_of_distinct {pos : ℕ → ℕ}
    (hpos : ∀ i j, i < j → j < blocks.length → pos i < pos j)
    (hin : ∀ i < blocks.length, pos i < blocks.flatten.length)
    (hdistinct : ∀ i < blocks.length, ∀ j < blocks.length, ∀ k,
      InBlock blocks k (pos i) → InBlock blocks k (pos j) → i = j) :
    ∀ i < blocks.length, InBlock blocks i (pos i) := by
  choose! block hblock using fun i hi => exists_inBlock (hin i hi)
  have hincreasing : ∀ i j, i < j → j < blocks.length → block i < block j := by
    intro i j hij hj
    have hi : i < blocks.length := by omega
    refine lt_of_le_of_ne ((hblock i hi).le (hblock j hj) (hpos i j hij hj).le) fun heq => ?_
    have hsame := hblock j hj
    rw [← heq] at hsame
    have := hdistinct i hi j hj _ (hblock i hi) hsame
    omega
  intro i hi
  have hid := eq_of_increasing hincreasing (fun i hi => (hblock i hi).lt_length) hi
  have := hblock i hi
  rwa [hid] at this

/-! ## Tables -/

theorem getElem_mem_dropLast {k : ℕ} (hk : k + 1 < blocks.length) :
    blocks[k] ∈ blocks.dropLast := by
  rw [← List.getElem_dropLast (by rw [List.length_dropLast]; omega)]
  exact List.getElem_mem _

/-- Block `k` begins at `k * c` when the blocks before the last have length `c`. -/
theorem offset_of_dropLast {c : ℕ} (h : ∀ b ∈ blocks.dropLast, b.length = c) {k : ℕ}
    (hk : k < blocks.length) : offset blocks k = k * c := by
  induction k with
  | zero => simp
  | succ k ih =>
    have hb : blocks[k]? = some blocks[k] := List.getElem?_eq_getElem (by omega)
    rw [offset_succ hb, ih (by omega), h _ (getElem_mem_dropLast hk)]
    ring

/-- **A table in blocks.**  The positions of row `k` are in block `k`, for every row:
exactly when the blocks are the rows, but for a longer last one. -/
theorem regular_iff {c : ℕ} (hc : 0 < c) :
    (∀ k < blocks.length, ∀ i < c, InBlock blocks k (k * c + i)) ↔
      (∀ b ∈ blocks.dropLast, b.length = c) ∧ ∀ b ∈ blocks.getLast?, c ≤ b.length := by
  constructor
  · intro h
    have hoffset : ∀ k < blocks.length, offset blocks k = k * c := by
      intro k hk
      refine le_antisymm (by simpa using (h k hk 0 hc).offset_le) ?_
      cases k with
      | zero => simp
      | succ k =>
        have := (h k (by omega) (c - 1) (by omega)).lt_offset_succ
        rw [Nat.succ_mul]
        omega
    constructor
    · intro b hb
      obtain ⟨k, hk, rfl⟩ := List.mem_iff_getElem.1 hb
      rw [List.length_dropLast] at hk
      rw [List.getElem_dropLast]
      have hstep := offset_succ (List.getElem?_eq_getElem (show k < blocks.length by omega))
      rw [hoffset _ (by omega), hoffset _ (by omega), Nat.succ_mul] at hstep
      omega
    · intro b hb
      have hne : blocks ≠ [] := by
        rintro rfl
        simp at hb
      have hlast : blocks[blocks.length - 1]? = some b := by
        rw [← List.getLast?_eq_getElem?]
        exact hb
      have hlen := List.length_pos_iff.2 hne
      have := (h (blocks.length - 1) (by omega) (c - 1) (by omega)).lt_offset_succ
      rw [offset_succ hlast, hoffset _ (by omega)] at this
      omega
  · rintro ⟨hrows, hlast⟩ k hk i hi
    have hb : blocks[k]? = some blocks[k] := List.getElem?_eq_getElem hk
    have hlen : c ≤ blocks[k].length := by
      rcases Nat.lt_or_ge (k + 1) blocks.length with hlt | hge
      · rw [hrows _ (getElem_mem_dropLast hlt)]
      · refine hlast _ ?_
        have hidx : blocks.length - 1 = k := by omega
        rw [List.getLast?_eq_getElem?, hidx, hb]
        rfl
    refine ⟨_, hb, ?_, ?_⟩
    · rw [offset_of_dropLast hrows hk]
      omega
    · rw [offset_of_dropLast hrows hk]
      omega

end Blocks
