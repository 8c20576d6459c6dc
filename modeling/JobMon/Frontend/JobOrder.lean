import Mathlib.Data.List.Sort
import JobMon.Lib.Comparator
import JobMon.Job.Types
import JobMon.Frontend.Pagination

/-!
# The order of the job list

`Jobs` sorts the list it was given in place each time it is rendered, by the key that is
selected in `JobListDisplaySettings`.

* `compare` — the two comparison functions.
* `renderSort`, `renderAt` — what a rendering shows and what it leaves of the array, the
  first time and every later time.
* `opposite_compare_iff`, `transitive_compare` — where the functions are consistent.
* `order_wellDefined_iff` — the lists whose order does not change between renderings, so that
  turning the pages shows each job once.
-/

namespace JobMon

open Comparator

namespace Jobs

/-! ## Comparison -/

/-- The keys of a job that the list can be sorted by. -/
inductive SortField
  | startTime
  | stopTime
  | numNodes
  | id
  deriving DecidableEq

/-- What can be selected to sort by. -/
inductive SortBy
  | joblength
  | field (key : SortField)
  deriving DecidableEq

/-- `a[sortBy]`. -/
def SortField.value : SortField → JobMetadata → ℤ
  | startTime, a => a.startTime
  | stopTime, a => a.stopTime
  | numNodes, a => a.numNodes
  | id, a => a.id

/-- The function the list is sorted with. -/
def compare : SortBy → JobMetadata → JobMetadata → ℤ
  | .field key, a, b => if key.value a < key.value b then 1 else -1
  | .joblength, a, b =>
    if !a.isRunning && !b.isRunning then
      -(|a.stopTime - a.startTime| - |b.stopTime - b.startTime|)
    else if a.isRunning && !b.isRunning then -1
    else if b.isRunning && !a.isRunning then 1
    else if a.startTime < b.startTime then -1 else 1

/-! ## Rendering -/

/-- What rendering leaves of the array, and the jobs it shows.  The array is turned round
in place, but not what is filtered from it. -/
def renderSort (sort : ArraySort JobMetadata) (sortBy : SortBy) (sortByDescending : Bool)
    (jobs : List JobMetadata) : List JobMetadata × List JobMetadata :=
  let sorted := sort.sort (compare sortBy) jobs
  match sortBy with
  | .field _ =>
    let mutableJobs := if sortByDescending then sorted else sorted.reverse
    (mutableJobs, mutableJobs)
  | .joblength =>
    let running := sorted.filter fun j => j.isRunning
    let finished := sorted.filter fun j => !j.isRunning
    (sorted, if sortByDescending then finished ++ running else finished.reverse ++ running.reverse)

/-- The array once it has been rendered `n` times. -/
def arrayAfter (sort : ArraySort JobMetadata) (sortBy : SortBy) (sortByDescending : Bool)
    (jobs : List JobMetadata) (n : ℕ) : List JobMetadata :=
  (fun arr => (renderSort sort sortBy sortByDescending arr).1)^[n] jobs

/-- The next rendering then. -/
def renderAt (sort : ArraySort JobMetadata) (sortBy : SortBy) (sortByDescending : Bool)
    (jobs : List JobMetadata) (n : ℕ) : List JobMetadata × List JobMetadata :=
  renderSort sort sortBy sortByDescending (arrayAfter sort sortBy sortByDescending jobs n)

/-! ## Consistency -/

/-- Jobs that the selected key tells apart; the length does so unless both are running. -/
def Apart : SortBy → JobMetadata → JobMetadata → Prop
  | .field key, a, b => key.value a ≠ key.value b
  | .joblength, a, b =>
    a.isRunning = true → b.isRunning = true → a.startTime ≠ b.startTime

/-- **Where the two orders of a pair have opposite signs.** -/
theorem opposite_compare_iff (sortBy : SortBy) (a b : JobMetadata) :
    Opposite (compare sortBy) a b ↔ Apart sortBy a b := by
  rw [opposite_iff]
  cases sortBy with
  | field key =>
    simp only [compare, Apart]
    split_ifs <;> simp <;> omega
  | joblength =>
    simp only [compare, Apart]
    cases a.isRunning <;> cases b.isRunning <;> simp
    · omega
    · split_ifs <;> simp <;> omega

/-- Signs are transitive, whatever is selected. -/
theorem transitive_compare (sortBy : SortBy) (a b c : JobMetadata) :
    TransitiveAt (compare sortBy) a b c := by
  cases sortBy with
  | field key =>
    simp only [TransitiveAt, compare]
    split_ifs <;> simp <;> omega
  | joblength =>
    simp only [TransitiveAt, compare]
    cases a.isRunning <;> cases b.isRunning <;> cases c.isRunning <;> simp
    · omega
    · split_ifs <;> simp <;> omega

theorem consistent_compare_iff {sortBy : SortBy} {jobs : List JobMetadata} :
    Consistent (compare sortBy) jobs ↔ jobs.Pairwise (Apart sortBy) := by
  have hopp : Opposite (compare sortBy) = Apart sortBy := by
    funext a b
    exact propext (opposite_compare_iff sortBy a b)
  rw [consistent_iff, hopp]
  exact and_iff_left fun a _ b _ c _ => transitive_compare sortBy a b c

/-- A field never ties two jobs. -/
theorem compare_field_ne_zero (key : SortField) (a b : JobMetadata) :
    compare (.field key) a b ≠ 0 := by
  simp only [compare]
  split_ifs <;> simp

/-! ## One rendering -/

section Rendering

variable {sort : ArraySort JobMetadata} {sortBy : SortBy} {sortByDescending : Bool}
  {jobs : List JobMetadata}

/-- The array keeps its jobs. -/
theorem perm_array : (renderSort sort sortBy sortByDescending jobs).1.Perm jobs := by
  have hsort := sort.perm (compare sortBy) jobs
  cases sortBy with
  | field key =>
    simp only [renderSort]
    split
    · exact hsort
    · exact (List.reverse_perm _).trans hsort
  | joblength => exact hsort

/-- All jobs are shown. -/
theorem perm_shown : (renderSort sort sortBy sortByDescending jobs).2.Perm jobs := by
  have hsort := sort.perm (compare sortBy) jobs
  cases sortBy with
  | field key =>
    have harray : (renderSort sort (.field key) sortByDescending jobs).1.Perm jobs := perm_array
    exact harray
  | joblength =>
    have hparts : (((sort.sort (compare .joblength) jobs).filter fun j => !j.isRunning) ++
        (sort.sort (compare .joblength) jobs).filter fun j => j.isRunning).Perm
          (sort.sort (compare .joblength) jobs) := by
      refine List.perm_append_comm.trans ?_
      exact List.filter_append_perm (fun j : JobMetadata => j.isRunning) _
    simp only [renderSort]
    split
    · exact hparts.trans hsort
    · exact (((List.reverse_perm _).append (List.reverse_perm _)).trans hparts).trans hsort

/-- What is sorted alike is shown alike. -/
theorem renderSort_congr {jobs' : List JobMetadata}
    (h : sort.sort (compare sortBy) jobs = sort.sort (compare sortBy) jobs') :
    renderSort sort sortBy sortByDescending jobs =
      renderSort sort sortBy sortByDescending jobs' := by
  simp only [renderSort, h]

/-- With the largest first the array is left as it is sorted. -/
theorem array_descending :
    (renderSort sort sortBy true jobs).1 = sort.sort (compare sortBy) jobs := by
  cases sortBy <;> rfl

/-- **Rendering what a rendering has left** shows the same and leaves the same. -/
theorem renderSort_renderSort (h : Consistent (compare sortBy) jobs) :
    renderSort sort sortBy sortByDescending (renderSort sort sortBy sortByDescending jobs).1 =
      renderSort sort sortBy sortByDescending jobs := by
  refine renderSort_congr ?_
  cases sortBy with
  | field key => exact sort.sort_eq_of_perm h perm_array.symm (compare_field_ne_zero key)
  | joblength => exact sort.sort_sort h

/-! ## Any number of renderings -/

theorem arrayAfter_succ (n : ℕ) : arrayAfter sort sortBy sortByDescending jobs (n + 1) =
    (renderAt sort sortBy sortByDescending jobs n).1 :=
  Function.iterate_succ_apply' _ n jobs

theorem perm_arrayAfter (n : ℕ) :
    (arrayAfter sort sortBy sortByDescending jobs n).Perm jobs := by
  induction n with
  | zero => exact List.Perm.refl jobs
  | succ n ih =>
    rw [arrayAfter_succ]
    exact perm_array.trans ih

theorem renderAt_eq (h : Consistent (compare sortBy) jobs) (n : ℕ) :
    renderAt sort sortBy sortByDescending jobs n =
      renderAt sort sortBy sortByDescending jobs 0 := by
  induction n with
  | zero => rfl
  | succ n ih =>
    rw [renderAt, arrayAfter_succ, renderAt,
      renderSort_renderSort (h.perm (perm_arrayAfter n).symm)]
    exact ih

end Rendering

/-! ## The order of the list -/

/-- Later renderings show and leave what the first one does. -/
def Unchanged (sortBy : SortBy) (jobs : List JobMetadata) : Prop :=
  ∀ sort sortByDescending n, renderAt sort sortBy sortByDescending jobs n =
    renderAt sort sortBy sortByDescending jobs 0

/-- Turning the pages, each shown by a rendering of its own, shows each job once. -/
def EachJobOnce (sortBy : SortBy) (jobs : List JobMetadata) : Prop :=
  ∀ sort sortByDescending limit, 0 < limit → ∀ turn : ℕ → ℕ,
    ((List.range (Pagination.lastPage jobs.length limit).toNat).flatMap fun k : ℕ =>
      JobList.slice limit (renderAt sort sortBy sortByDescending jobs (turn k)).2 (k + 1)).Perm jobs

/-- What the order of a list is to be. -/
structure WellDefined (sortBy : SortBy) (jobs : List JobMetadata) : Prop where
  consistent : Consistent (compare sortBy) jobs
  unchanged : Unchanged sortBy jobs
  eachJobOnce : EachJobOnce sortBy jobs

theorem eachJobOnce_of_unchanged {sortBy : SortBy} {jobs : List JobMetadata}
    (h : Unchanged sortBy jobs) : EachJobOnce sortBy jobs := by
  intro sort sortByDescending limit hlimit turn
  have hperm : (renderAt sort sortBy sortByDescending jobs 0).2.Perm jobs := perm_shown
  simp only [h sort sortByDescending (turn _), ← hperm.length_eq]
  rw [(Pagination.complete_jobList hlimit _).1]
  exact hperm

/-- A sort that minds turns the list round at each rendering. -/
theorem consistent_of_unchanged {sortBy : SortBy} {jobs : List JobMetadata} (hnodup : jobs.Nodup)
    (h : Unchanged sortBy jobs) : Consistent (compare sortBy) jobs := by
  by_contra hnot
  have hrev : ¬ Consistent (compare sortBy) jobs.reverse := fun hc =>
    hnot (hc.perm jobs.reverse_perm)
  have hfirst : (renderAt (turningSort JobMetadata) sortBy true jobs 0).1 = jobs.reverse :=
    array_descending.trans (sort_turningSort hnot)
  have hsecond : (renderAt (turningSort JobMetadata) sortBy true jobs 1).1 = jobs := by
    rw [renderAt, arrayAfter_succ, hfirst, array_descending, sort_turningSort hrev,
      List.reverse_reverse]
  have hround : jobs.reverse = jobs := by rw [← hfirst, ← h, hsecond]
  exact hnot (consistent_compare_iff.2 (pairwise_of_reverse_eq hnodup hround))

/-- **When the order is well defined.**  A pair of jobs has opposite signs exactly when the
key tells the two apart, and signs are always transitive; so the order of a list is well
defined exactly when the key tells all its jobs apart, and if it does not, there are sorts
that change the order of the list from one rendering to the next. -/
theorem order_wellDefined_iff (sortBy : SortBy) :
    (∀ a b, Opposite (compare sortBy) a b ↔ Apart sortBy a b) ∧
    (∀ a b c, TransitiveAt (compare sortBy) a b c) ∧
    ∀ jobs : List JobMetadata, (WellDefined sortBy jobs ↔ jobs.Pairwise (Apart sortBy)) ∧
      (jobs.Nodup → (Unchanged sortBy jobs ↔ jobs.Pairwise (Apart sortBy))) := by
  refine ⟨opposite_compare_iff sortBy, transitive_compare sortBy, fun jobs => ?_⟩
  have hunchanged (h : jobs.Pairwise (Apart sortBy)) : Unchanged sortBy jobs :=
    fun _ _ n => renderAt_eq (consistent_compare_iff.2 h) n
  refine ⟨⟨fun h => consistent_compare_iff.1 h.consistent, fun h => ?_⟩, fun hnodup => ?_⟩
  · exact ⟨consistent_compare_iff.2 h, hunchanged h, eachJobOnce_of_unchanged (hunchanged h)⟩
  · exact ⟨fun h => consistent_compare_iff.1 (consistent_of_unchanged hnodup h), hunchanged⟩

/-- Two jobs of an array job, on one node each. -/
def arrayJobs : List JobMetadata :=
  [{ id := 1, numNodes := 1, startTime := 10 }, { id := 2, numNodes := 1, startTime := 20 }]

/-- Sorted by the number of nodes, each of the two comes before the other one, and the order
changes from one rendering to the next. -/
theorem arrayJobs_not_wellDefined :
    arrayJobs.map (fun a => arrayJobs.map (compare (.field .numNodes) a)) = [[-1, -1], [-1, -1]] ∧
      ¬ WellDefined (.field .numNodes) arrayJobs ∧ ¬ Unchanged (.field .numNodes) arrayJobs := by
  have hnot : ¬ arrayJobs.Pairwise (Apart (.field .numNodes)) := by
    intro h
    exact (List.pairwise_cons.1 h).1 _ List.mem_cons_self rfl
  refine ⟨by decide, fun h => hnot (consistent_compare_iff.1 h.consistent), fun h => ?_⟩
  exact hnot (consistent_compare_iff.1 (consistent_of_unchanged (by decide) h))

/-- Their starts tell them apart. -/
theorem order_wellDefined_iff_arrayJobs :
    WellDefined (.field .startTime) arrayJobs ∧ Unchanged (.field .startTime) arrayJobs := by
  have happart : arrayJobs.Pairwise (Apart (.field .startTime)) := by
    simp [arrayJobs, Apart, SortField.value]
  obtain ⟨-, -, hlists⟩ := order_wellDefined_iff (.field .startTime)
  exact ⟨(hlists arrayJobs).1.2 happart, ((hlists arrayJobs).2 (by decide)).2 happart⟩

end Jobs

end JobMon
