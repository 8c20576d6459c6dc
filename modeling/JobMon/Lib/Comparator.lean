import Mathlib.Data.Int.Order.Basic
import Mathlib.Data.List.Nodup
import Mathlib.Data.List.Pairwise
import Mathlib.Data.List.Sort
import Mathlib.Tactic.Common

/-!
# Sorting with a comparison function

An array is sorted with a function that says by its sign which of two elements comes
first.  What the sort yields is only known when the function is consistent.

* `Opposite`, `Consistent` — the two orders of a pair have opposite signs, and signs are
  transitive.
* `Consistent.perm` — consistency is about the elements, not their order.
* `ArraySort` — what a sort is relied on for; `stableSort` is one.
* `ArraySort.sort_sort` — **sorting once more changes nothing**.
* `ArraySort.sort_eq_of_perm` — without ties the elements alone say what is yielded.
* `turningSort` — a sort that does not put up with an inconsistent function.
-/

namespace Comparator

variable {α : Type}

/-! ## Consistency -/

/-- The two orders of a pair have opposite signs. -/
def Opposite (cmp : α → α → ℤ) (a b : α) : Prop := (cmp a b).sign = -(cmp b a).sign

/-- Signs are transitive among three elements. -/
def TransitiveAt (cmp : α → α → ℤ) (a b c : α) : Prop :=
  (cmp a b < 0 → cmp b c < 0 → cmp a c < 0) ∧ (cmp a b = 0 → cmp b c = 0 → cmp a c = 0) ∧
    (0 < cmp a b → 0 < cmp b c → 0 < cmp a c)

/-- A function that is consistent on a list: for any two of its elements the signs are
opposite, and they are transitive. -/
structure Consistent (cmp : α → α → ℤ) (l : List α) : Prop where
  opposite : l.Pairwise (Opposite cmp)
  transitive : ∀ a ∈ l, ∀ b ∈ l, ∀ c ∈ l, TransitiveAt cmp a b c

variable {cmp : α → α → ℤ} {l l' : List α} {a b c : α}

theorem opposite_iff : Opposite cmp a b ↔
    (cmp a b < 0 ∧ 0 < cmp b a) ∨ (cmp a b = 0 ∧ cmp b a = 0) ∨ (0 < cmp a b ∧ cmp b a < 0) := by
  rw [Opposite]
  rcases lt_trichotomy (cmp a b) 0 with hab | hab | hab
  · rcases lt_trichotomy (cmp b a) 0 with hba | hba | hba <;>
      simp [Int.sign_eq_neg_one_of_neg, Int.sign_eq_one_of_pos, hab, hba] <;> omega
  · rcases lt_trichotomy (cmp b a) 0 with hba | hba | hba <;>
      simp [Int.sign_eq_neg_one_of_neg, Int.sign_eq_one_of_pos, hab, hba] <;> omega
  · rcases lt_trichotomy (cmp b a) 0 with hba | hba | hba <;>
      simp [Int.sign_eq_neg_one_of_neg, Int.sign_eq_one_of_pos, hab, hba] <;> omega

theorem Opposite.symm (h : Opposite cmp a b) : Opposite cmp b a := by
  rw [opposite_iff] at h ⊢
  omega

theorem Opposite.nonpos_iff (h : Opposite cmp a b) : cmp a b ≤ 0 ↔ 0 ≤ cmp b a := by
  rw [opposite_iff] at h
  omega

/-- Without ties one of the two orders of a pair comes first. -/
theorem Opposite.not_both (h : Opposite cmp a b) (hne : cmp a b ≠ 0) :
    ¬ (cmp a b ≤ 0 ∧ cmp b a ≤ 0) := by
  rw [opposite_iff] at h
  omega

/-- **Consistency is about the elements**, not their order. -/
theorem Consistent.perm (h : Consistent cmp l) (hperm : l.Perm l') : Consistent cmp l' where
  opposite := (hperm.pairwise_iff fun hab => Opposite.symm hab).1 h.opposite
  transitive a ha b hb c hc :=
    h.transitive a (hperm.mem_iff.2 ha) b (hperm.mem_iff.2 hb) c (hperm.mem_iff.2 hc)

theorem Consistent.sublist (h : Consistent cmp l) (hsub : l'.Sublist l) : Consistent cmp l' where
  opposite := h.opposite.sublist hsub
  transitive a ha b hb c hc :=
    h.transitive a (hsub.subset ha) b (hsub.subset hb) c (hsub.subset hc)

/-- Coming no later is transitive, where the signs of the three pairs are opposite. -/
theorem TransitiveAt.nonpos (hab : Opposite cmp a b) (hbc : Opposite cmp b c)
    (hac : Opposite cmp a c) (hcab : TransitiveAt cmp c a b) (hbca : TransitiveAt cmp b c a)
    (habc : TransitiveAt cmp a b c) (h : cmp a b ≤ 0) (h' : cmp b c ≤ 0) : cmp a c ≤ 0 := by
  rw [opposite_iff] at hab hbc hac
  obtain ⟨hcab, -, -⟩ := hcab
  obtain ⟨hbca, -, -⟩ := hbca
  obtain ⟨-, habc, -⟩ := habc
  omega

/-! ## Sorting -/

/-- What a sort is relied on for: it yields the elements, and where the function is
consistent on them, it yields them in order and leaves them alone when they are. -/
structure ArraySort (α : Type) where
  sort : (α → α → ℤ) → List α → List α
  perm : ∀ cmp l, (sort cmp l).Perm l
  sorted : ∀ cmp l, Consistent cmp l → (sort cmp l).Pairwise fun a b => cmp a b ≤ 0
  stable : ∀ cmp l, Consistent cmp l → (l.Pairwise fun a b => cmp a b ≤ 0) → sort cmp l = l

/-- **Sorting once more changes nothing.** -/
theorem ArraySort.sort_sort (s : ArraySort α) (h : Consistent cmp l) :
    s.sort cmp (s.sort cmp l) = s.sort cmp l :=
  s.stable cmp _ (h.perm (s.perm cmp l).symm) (s.sorted cmp l h)

/-- Without ties the elements alone say what is yielded. -/
theorem ArraySort.sort_eq_of_perm (s : ArraySort α) (h : Consistent cmp l) (hperm : l.Perm l')
    (hties : ∀ a b, cmp a b ≠ 0) : s.sort cmp l' = s.sort cmp l := by
  have h' := h.perm hperm
  refine List.Perm.eq_of_pairwise ?_ (s.sorted cmp l' h') (s.sorted cmp l h)
    (((s.perm cmp l').trans hperm.symm).trans (s.perm cmp l).symm)
  intro a b ha hb hab hba
  by_contra hne
  have : Std.Symm (Opposite cmp) := ⟨fun _ _ hopp => hopp.symm⟩
  have hopp : Opposite cmp a b :=
    h'.opposite.forall ((s.perm cmp l').mem_iff.1 ha)
      (hperm.mem_iff.1 ((s.perm cmp l).mem_iff.1 hb)) hne
  exact hopp.not_both (hties a b) ⟨hab, hba⟩

/-! ## A stable sort -/

/-- `a` comes no later than `b`. -/
def NoLater (cmp : α → α → ℤ) (a b : α) : Prop := cmp a b ≤ 0

instance (cmp : α → α → ℤ) : DecidableRel (NoLater cmp) := fun a b => Int.decLe (cmp a b) 0

theorem sorted_orderedInsert (h : Consistent cmp (a :: l)) (hl : l.Pairwise (NoLater cmp)) :
    (l.orderedInsert (NoLater cmp) a).Pairwise (NoLater cmp) := by
  induction l with
  | nil => simp
  | cons b l ih =>
    obtain ⟨hb, hl'⟩ := List.pairwise_cons.1 hl
    obtain ⟨hopp, hopp'⟩ := List.pairwise_cons.1 h.opposite
    by_cases hab : NoLater cmp a b
    · rw [List.orderedInsert_cons_of_le _ _ hab]
      refine List.pairwise_cons.2 ⟨?_, hl⟩
      intro c hc
      rcases List.mem_cons.1 hc with rfl | hcl
      · exact hab
      · have hmem : c ∈ a :: b :: l := List.mem_cons_of_mem _ hc
        exact TransitiveAt.nonpos (hopp b (by simp)) ((List.pairwise_cons.1 hopp').1 c hcl)
          (hopp c hc) (h.transitive c hmem a (by simp) b (by simp))
          (h.transitive b (by simp) c hmem a (by simp))
          (h.transitive a (by simp) b (by simp) c hmem) hab (hb c hcl)
    · rw [List.orderedInsert_of_not_le _ _ hab]
      refine List.pairwise_cons.2 ⟨?_, ih (h.sublist ?_) hl'⟩
      · intro c hc
        rcases (List.mem_orderedInsert _).1 hc with rfl | hcl
        · exact (hopp b (by simp)).symm.nonpos_iff.2 (not_le.1 hab).le
        · exact hb c hcl
      · exact (List.sublist_cons_self b l).cons_cons a

theorem sorted_insertionSort (h : Consistent cmp l) :
    (l.insertionSort (NoLater cmp)).Pairwise (NoLater cmp) := by
  induction l with
  | nil => simp
  | cons a l ih =>
    rw [List.insertionSort_cons]
    refine sorted_orderedInsert ?_ (ih (h.sublist (List.sublist_cons_self a l)))
    exact h.perm ((List.perm_insertionSort _ l).symm.cons a)

/-- Insertion sort. -/
def stableSort (α : Type) : ArraySort α where
  sort cmp l := l.insertionSort (NoLater cmp)
  perm _ l := List.perm_insertionSort _ l
  sorted _ _ h := sorted_insertionSort h
  stable _ _ _ h := List.Pairwise.insertionSort_eq h

/-! ## A sort that needs consistency -/

instance (cmp : α → α → ℤ) (a b : α) : Decidable (Opposite cmp a b) :=
  inferInstanceAs (Decidable ((cmp a b).sign = -(cmp b a).sign))

instance (cmp : α → α → ℤ) (a b c : α) : Decidable (TransitiveAt cmp a b c) :=
  inferInstanceAs (Decidable (_ ∧ _ ∧ _))

theorem consistent_iff : Consistent cmp l ↔
    l.Pairwise (Opposite cmp) ∧ ∀ a ∈ l, ∀ b ∈ l, ∀ c ∈ l, TransitiveAt cmp a b c :=
  ⟨fun h => ⟨h.opposite, h.transitive⟩, fun h => ⟨h.1, h.2⟩⟩

instance (cmp : α → α → ℤ) (l : List α) : Decidable (Consistent cmp l) :=
  decidable_of_iff' _ consistent_iff

/-- Turns the list round where the function is not consistent. -/
def turningSort (α : Type) : ArraySort α where
  sort cmp l := if Consistent cmp l then (stableSort α).sort cmp l else l.reverse
  perm cmp l := by
    split
    · exact (stableSort α).perm cmp l
    · exact l.reverse_perm
  sorted cmp l h := by
    rw [if_pos h]
    exact (stableSort α).sorted cmp l h
  stable cmp l h hl := by
    rw [if_pos h]
    exact (stableSort α).stable cmp l h hl

theorem sort_turningSort (h : ¬ Consistent cmp l) : (turningSort α).sort cmp l = l.reverse :=
  if_neg h

/-- A list without repetitions that is the same turned round has at most one element. -/
theorem pairwise_of_reverse_eq {R : α → α → Prop} (hnodup : l.Nodup) (h : l.reverse = l) :
    l.Pairwise R := by
  match l with
  | [] => exact List.Pairwise.nil
  | [a] => exact List.pairwise_singleton R a
  | a :: b :: l =>
    have hlast : (b :: l).getLast? = some a := by
      have := congrArg List.head? h
      rwa [List.head?_reverse, List.getLast?_cons_cons] at this
    exact absurd (List.mem_of_getLast? hlast) (List.nodup_cons.1 hnodup).1

end Comparator
