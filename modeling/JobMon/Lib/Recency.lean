import Mathlib.Data.List.Nodup
import Mathlib.Data.List.Basic
import Mathlib.Tactic.Common

/-!
# Most recently used first

What a cache with least-recently-used eviction should hold is a function of
nothing but the history of uses: write the history newest first, keep the
latest use of every key, and cut the list at the capacity.  This file states
that function and what one more use does to it, over arbitrary keys and
entries, so that an implementation that moves list cells around can be compared
with it.

* `latest` — the latest use of every key, newest first; `nodup_latest` says no
  key occurs twice.
* `age`, `pairwise_age_latest` — how many uses ago a key was last used; `latest`
  is sorted by it.
* `window` — the `n` most recently used entries.
* `window_cons_of_mem` — using a key that is in the window moves it to the front
  and evicts nothing.
* `window_cons_of_not_mem` — using a key that is not pushes it in front, and the
  entry that falls out is the last one, which `age_lt_of_window_eq` says is the
  one whose last use is oldest.
-/

namespace Recency

variable {κ ρ : Type} [DecidableEq κ] (key : ρ → κ)

/-- All entries but those with key `k`. -/
def without (k : κ) (l : List ρ) : List ρ := l.filter (fun x => key x ≠ k)

/-- The latest use of every key in a history written newest first. -/
def latest : List ρ → List ρ
  | [] => []
  | u :: us => u :: without key (key u) (latest us)

/-- The `n` most recently used entries of a history. -/
def window (n : ℕ) (us : List ρ) : List ρ := (latest key us).take n

/-- How many uses ago key `k` was last used. -/
def age (us : List ρ) (k : κ) : ℕ := us.findIdx (fun x => key x = k)

variable {key}

/-! ## Dropping a key -/

theorem mem_without {k : κ} {l : List ρ} {x : ρ} : x ∈ without key k l ↔ x ∈ l ∧ key x ≠ k := by
  simp [without]

theorem without_eq_self {k : κ} {l : List ρ} (h : k ∉ l.map key) : without key k l = l := by
  refine List.filter_eq_self.2 fun x hx => ?_
  have : key x ≠ k := fun hk => h (hk ▸ List.mem_map_of_mem hx)
  simpa using this

theorem without_cons_self (x : ρ) (l : List ρ) :
    without key (key x) (x :: l) = without key (key x) l := by
  simp [without]

theorem without_cons_of_ne {k : κ} {x : ρ} (h : key x ≠ k) (l : List ρ) :
    without key k (x :: l) = x :: without key k l := by
  simp [without, h]

theorem nodup_without {k : κ} {l : List ρ} (h : (l.map key).Nodup) :
    ((without key k l).map key).Nodup :=
  (List.filter_sublist.map key).nodup h

/-- Removing the first entry of a key removes the key, when keys are distinct. -/
theorem eraseP_eq_without {k : κ} {l : List ρ} (h : (l.map key).Nodup) :
    l.eraseP (fun x => key x = k) = without key k l := by
  induction l with
  | nil => rfl
  | cons x l ih =>
    rw [List.map_cons, List.nodup_cons] at h
    by_cases hx : key x = k
    · rw [List.eraseP_cons_of_pos (by simpa using hx), ← hx, without_cons_self,
        without_eq_self h.1]
    · rw [List.eraseP_cons_of_neg (by simpa using hx), without_cons_of_ne hx, ih h.2]

/-- An entry and the entries with another key are all there is, when keys are
distinct. -/
theorem perm_cons_without {x : ρ} {l : List ρ} (h : (l.map key).Nodup) (hx : x ∈ l) :
    l.Perm (x :: without key (key x) l) := by
  induction l with
  | nil => cases hx
  | cons y l ih =>
    rw [List.map_cons, List.nodup_cons] at h
    rcases List.mem_cons.1 hx with rfl | hx
    · rw [without_cons_self, without_eq_self h.1]
    · have hne : key y ≠ key x := fun hk => h.1 (hk ▸ List.mem_map_of_mem hx)
      rw [without_cons_of_ne hne]
      exact ((ih h.2 hx).cons y).trans (List.Perm.swap x y _)

/-! ## The latest uses -/

theorem nodup_latest (us : List ρ) : ((latest key us).map key).Nodup := by
  induction us with
  | nil => exact List.nodup_nil
  | cons u us ih =>
    rw [latest, List.map_cons, List.nodup_cons]
    refine ⟨?_, nodup_without ih⟩
    intro h
    obtain ⟨x, hx, hk⟩ := List.mem_map.1 h
    exact (mem_without.1 hx).2 hk

/-- **The latest uses are sorted by age.** -/
theorem pairwise_age_latest (us : List ρ) :
    (latest key us).Pairwise (fun x y => age key us (key x) < age key us (key y)) := by
  induction us with
  | nil => exact List.Pairwise.nil
  | cons u us ih =>
    have hne : ∀ x ∈ without key (key u) (latest key us), age key (u :: us) (key x)
        = age key us (key x) + 1 := by
      intro x hx
      have hk : key u ≠ key x := fun h => (mem_without.1 hx).2 h.symm
      simp [age, List.findIdx_cons, hk]
    rw [latest, List.pairwise_cons]
    constructor
    · intro x hx
      rw [hne x hx]
      simp [age, List.findIdx_cons]
    · refine List.Pairwise.imp_of_mem ?_ (ih.sublist List.filter_sublist)
      intro x y hx hy hxy
      rw [hne x hx, hne y hy]
      omega

/-! ## The window -/

theorem nodup_window (n : ℕ) (us : List ρ) : ((window key n us).map key).Nodup :=
  ((List.take_sublist n _).map key).nodup (nodup_latest us)

theorem length_window_le (n : ℕ) (us : List ρ) : (window key n us).length ≤ n := by
  rw [window, List.length_take]
  exact Nat.min_le_left _ _

@[simp] theorem window_nil (n : ℕ) : window key n ([] : List ρ) = [] := by
  simp [window, latest]

/-- Dropping a key that occurs among the first `n + 1` entries leaves `n` of
them. -/
theorem take_without_of_mem {k : κ} {l : List ρ} {n : ℕ} (hnd : (l.map key).Nodup)
    (h : k ∈ (l.take (n + 1)).map key) :
    (without key k l).take n = without key k (l.take (n + 1)) := by
  induction l generalizing n with
  | nil => simp [without]
  | cons x l ih =>
    rw [List.map_cons, List.nodup_cons] at hnd
    by_cases hx : key x = k
    · subst hx
      have htake : key x ∉ (l.take n).map key := fun hm =>
        hnd.1 (List.map_subset key (List.take_subset n l) hm)
      rw [without_cons_self, without_eq_self hnd.1, List.take_succ_cons, without_cons_self,
        without_eq_self htake]
    · cases n with
      | zero =>
        rw [List.take_succ_cons, List.take_zero, List.map_singleton, List.mem_singleton] at h
        exact absurd h.symm hx
      | succ n =>
        rw [List.take_succ_cons, List.map_cons, List.mem_cons] at h
        have hk : k ∈ (l.take (n + 1)).map key := h.resolve_left (fun hc => hx hc.symm)
        rw [without_cons_of_ne hx, List.take_succ_cons, List.take_succ_cons,
          without_cons_of_ne hx, ih hnd.2 hk]

/-- Dropping a key that does not occur among the first `n` entries leaves them
alone. -/
theorem take_without_of_not_mem {k : κ} {l : List ρ} {n : ℕ} (h : k ∉ (l.take n).map key) :
    (without key k l).take n = l.take n := by
  induction l generalizing n with
  | nil => simp [without]
  | cons x l ih =>
    cases n with
    | zero => simp
    | succ n =>
      rw [List.take_succ_cons, List.map_cons, List.mem_cons, not_or] at h
      rw [without_cons_of_ne (Ne.symm h.1), List.take_succ_cons, List.take_succ_cons, ih h.2]

/-- **A use inside the window** moves its key to the front and evicts nothing. -/
theorem window_cons_of_mem {n : ℕ} {us : List ρ} {u : ρ}
    (h : key u ∈ (window key n us).map key) :
    window key n (u :: us) = u :: without key (key u) (window key n us) := by
  cases n with
  | zero => simp [window] at h
  | succ n =>
    rw [window, latest, List.take_succ_cons, take_without_of_mem (nodup_latest us) h, window]

/-- **A use outside the window** goes to the front; what falls out, when the
window was full, is its last entry. -/
theorem window_cons_of_not_mem {n : ℕ} {us : List ρ} {u : ρ}
    (h : key u ∉ (window key (n + 1) us).map key) :
    window key (n + 1) (u :: us) = u :: (window key (n + 1) us).take n := by
  have hn : key u ∉ ((latest key us).take n).map key := by
    intro hm
    refine h (List.map_subset key ?_ hm)
    exact (List.take_prefix_take_left (Nat.le_succ n)).subset
  rw [window, latest, List.take_succ_cons, take_without_of_not_mem hn, window, List.take_take,
    Nat.min_eq_left (Nat.le_succ n)]

/-- **The last entry of the window is the one whose last use is oldest.** -/
theorem age_lt_of_window_eq {n : ℕ} {us kept : List ρ} {oldest : ρ}
    (h : window key n us = kept ++ [oldest]) {x : ρ} (hx : x ∈ kept) :
    age key us (key x) < age key us (key oldest) := by
  have hsorted : (window key n us).Pairwise
      (fun x y => age key us (key x) < age key us (key y)) :=
    (pairwise_age_latest us).sublist (List.take_sublist n _)
  rw [h, List.pairwise_append] at hsorted
  exact hsorted.2.2 x hx oldest (List.mem_singleton_self oldest)

end Recency
