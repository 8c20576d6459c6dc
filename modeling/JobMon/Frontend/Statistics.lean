import Mathlib.Algebra.BigOperators.Group.List.Basic
import Mathlib.Algebra.Order.BigOperators.Group.List
import Mathlib.Algebra.Order.Ring.Int
import JobMon.Lib.Comparator
import JobMon.Lib.Table
import JobMon.Job.Types
import JobMon.Frontend.MetricDataCharts

/-!
# The statistics page

`renderComputedAttribute` of `components/statistics/StatItem.tsx` adds up the lengths or
the compute times of jobs, group by group, and shows the largest groups.

* `groupBy` — `groupBy` of `utils.ts`; a group is looked for with `in`, which finds what
  every object has, too.
* `groupTotals`, `shown` — the sums, and the twenty that are shown.
* `exists_groupBy` — the group of a key holds the jobs with this key.
* `AddsUp` — what the statistics are to say.
* `addsUp_iff` — they do unless there is a running job, which has no stop time yet.
-/

namespace JobMon

open Keyed Charts Comparator

namespace Statistics

/-! ## Groups -/

/-- The properties that every object has. -/
def builtIn : List String :=
  ["constructor", "__defineGetter__", "__defineSetter__", "hasOwnProperty", "__lookupGetter__",
    "__lookupSetter__", "isPrototypeOf", "propertyIsEnumerable", "toString", "valueOf",
    "__proto__", "toLocaleString"]

/-- One round of the loop of `groupBy`.  `none`: the key names a property that every object
has, which is no array and has no `push`. -/
def addToGroup {T : Type} (keyFunc : T → String) (groups : Map String (List T)) (obj : T) :
    Option (Map String (List T)) :=
  match groups.lookup (keyFunc obj) with
  | some group => some (groups.upsert (keyFunc obj, group ++ [obj]))
  | none =>
    if keyFunc obj ∈ builtIn then none else some (groups.upsert (keyFunc obj, [obj]))

/-- `groupBy`. -/
def groupBy {T : Type} (data : List T) (keyFunc : T → String) : Option (Map String (List T)) :=
  data.foldlM (addToGroup keyFunc) Table.empty

/-! ## Sums -/

/-- The panels that show sums. -/
inductive ComputedPanel
  | computeTime
  | jobLength
  deriving DecidableEq

/-- What can be selected to group by. -/
inductive GroupKey
  | id
  | groupName
  | userName
  | partition
  deriving DecidableEq

/-- `obj[groupKey].toString()`. -/
def GroupKey.text : GroupKey → JobMetadata → String
  | id, j => toString j.id
  | groupName, j => j.groupName
  | userName, j => j.userName
  | partition, j => j.partition

/-- What a group is reduced to. -/
def total : ComputedPanel → List JobMetadata → ℤ
  | .computeTime, group =>
    group.foldl (fun acc cv => acc + cv.numNodes * (cv.stopTime - cv.startTime)) 0
  | .jobLength, group => group.foldl (fun acc cv => acc + cv.stopTime - cv.startTime) 0

/-- The sums of all groups. -/
def groupTotals (panel : ComputedPanel) (groupKey : GroupKey) (jobs : List JobMetadata) :
    Option (List (String × ℤ)) :=
  (groupBy jobs groupKey.text).map fun groups =>
    (objectKeys groups).map fun g => (g, total panel ((groups.lookup g).getD []))

/-- The groups that are shown, `tuples.slice(0, 20)` once they are sorted. -/
def shown (tuples : List (String × ℤ)) : List (String × ℤ) :=
  ((stableSort (String × ℤ)).sort (fun a b => b.2 - a.2) tuples).take 20

/-! ## What is to be shown -/

/-- What a job adds. -/
def amount : ComputedPanel → JobMetadata → ℤ
  | .computeTime, j => j.numNodes * (j.stopTime - j.startTime)
  | .jobLength, j => j.stopTime - j.startTime

/-- The sum of a group; there is no such group if the sum is zero here. -/
def sumOf (tuples : List (String × ℤ)) (g : String) : ℤ := (tuples.lookup g).getD 0

/-- The `n` largest sums, in descending order. -/
structure IsLargest (n : ℕ) (tuples shown : List (String × ℤ)) : Prop where
  descending : shown.Pairwise fun a b => b.2 ≤ a.2
  largest : ∃ others, (shown ++ others).Perm tuples ∧ shown.length = min n tuples.length ∧
    ∀ a ∈ shown, ∀ b ∈ others, b.2 ≤ a.2

/-- What the sums of a list of jobs are to say.  What a job contributes is what becomes of
them without it. -/
structure AddsUp (panel : ComputedPanel) (groupKey : GroupKey) (jobs : List JobMetadata)
    (tuples : List (String × ℤ)) : Prop where
  /-- No group is listed twice. -/
  nodup : (tuples.map Prod.fst).Nodup
  nonneg : ∀ t ∈ tuples, 0 ≤ t.2
  /-- A finished job is in one group, and contributes its amount there and nowhere else. -/
  finished : ∀ before j after, jobs = before ++ j :: after → j.isRunning = false →
    groupKey.text j ∈ tuples.map Prod.fst ∧
      ∃ others, groupTotals panel groupKey (before ++ after) = some others ∧
        ∀ g, sumOf tuples g = sumOf others g + if g = groupKey.text j then amount panel j else 0
  /-- A running job contributes nothing negative. -/
  running : ∀ before j after, jobs = before ++ j :: after → j.isRunning = true →
    ∃ others, groupTotals panel groupKey (before ++ after) = some others ∧
      ∀ g, sumOf others g ≤ sumOf tuples g
  shown : IsLargest 20 tuples (shown tuples)

/-- A job as the backend returns it: it has a number of nodes, and while it runs its stop
time is that of its start request, which has none. -/
structure Returned (j : JobMetadata) : Prop where
  numNodes : 0 ≤ j.numNodes
  finished : j.isRunning = false → j.startTime ≤ j.stopTime
  running : j.isRunning = true → j.stopTime = 0

/-! ## The groups -/

section Groups

variable {T : Type} {keyFunc : T → String} {data : List T}

/-- The elements with a key. -/
def groupOf (keyFunc : T → String) (data : List T) (k : String) : List T :=
  data.filter fun obj => keyFunc obj = k

/-- The groups are those of `data`, and none of them is empty. -/
def Holds (keyFunc : T → String) (groups : Map String (List T)) (data : List T) : Prop :=
  ∀ k, groups.lookup k =
    if groupOf keyFunc data k = [] then none else some (groupOf keyFunc data k)

theorem groupOf_append (data data' : List T) (k : String) :
    groupOf keyFunc (data ++ data') k = groupOf keyFunc data k ++ groupOf keyFunc data' k :=
  List.filter_append ..

theorem groupOf_singleton (obj : T) (k : String) :
    groupOf keyFunc [obj] k = if keyFunc obj = k then [obj] else [] := by
  simp [groupOf, List.filter_cons]

theorem groupOf_ne_nil_iff {k : String} :
    groupOf keyFunc data k ≠ [] ↔ ∃ obj ∈ data, keyFunc obj = k := by
  simp [groupOf, List.filter_eq_nil_iff]

/-- The keys are those that occur. -/
theorem Holds.mem_keys_iff {groups : Map String (List T)} {k : String}
    (h : Holds keyFunc groups data) :
    k ∈ groups.rows.map Prod.fst ↔ groupOf keyFunc data k ≠ [] := by
  have hlookup := h k
  constructor
  · intro hk hnil
    obtain ⟨⟨k', group⟩, hmem, rfl⟩ := List.mem_map.1 hk
    rw [if_pos hnil, Map.lookup_eq_some_iff.2 hmem] at hlookup
    cases hlookup
  · intro hne
    rw [if_neg hne] at hlookup
    exact List.mem_map_of_mem (Map.lookup_eq_some_iff.1 hlookup)

/-- One round adds one element. -/
theorem holds_addToGroup {groups : Map String (List T)} {obj : T}
    (h : Holds keyFunc groups data) (hkey : keyFunc obj ∉ builtIn) :
    ∃ groups', addToGroup keyFunc groups obj = some groups' ∧
      Holds keyFunc groups' (data ++ [obj]) := by
  have hupsert : Holds keyFunc
      (groups.upsert (keyFunc obj, groupOf keyFunc data (keyFunc obj) ++ [obj]))
        (data ++ [obj]) := by
    intro k
    rw [Map.lookup_upsert, groupOf_append, groupOf_singleton]
    by_cases hk : k = keyFunc obj
    · simp [hk]
    · simp [hk, Ne.symm hk, h k]
  refine ⟨_, ?_, hupsert⟩
  rw [addToGroup, h (keyFunc obj)]
  by_cases hnil : groupOf keyFunc data (keyFunc obj) = []
  · simp [hnil, hkey]
  · simp [hnil]

/-- **The group of a key** holds the elements with this key, in their order. -/
theorem exists_groupBy (h : ∀ obj ∈ data, keyFunc obj ∉ builtIn) :
    ∃ groups, groupBy data keyFunc = some groups ∧ Holds keyFunc groups data := by
  induction data using List.reverseRecOn with
  | nil => exact ⟨Table.empty, rfl, fun k => rfl⟩
  | append_singleton data obj ih =>
    obtain ⟨groups, hgroups, hholds⟩ := ih fun obj hobj => h obj (List.mem_append_left _ hobj)
    obtain ⟨groups', hadd, hholds'⟩ :=
      holds_addToGroup hholds (h obj (List.mem_append_right _ List.mem_cons_self))
    refine ⟨groups', ?_, hholds'⟩
    rw [groupBy, List.foldlM_append, ← groupBy, hgroups]
    simp [hadd]

end Groups

/-- The sum of a group is that of what its jobs add. -/
theorem total_eq_sum (panel : ComputedPanel) (group : List JobMetadata) :
    total panel group = (group.map (amount panel)).sum := by
  have hfold : ∀ (f : ℤ → JobMetadata → ℤ), (∀ acc j, f acc j = acc + amount panel j) →
      ∀ acc, group.foldl f acc = acc + (group.map (amount panel)).sum := by
    intro f hf
    induction group with
    | nil => simp
    | cons j group ih => simp [ih, hf, add_assoc]
  cases panel with
  | computeTime => exact (hfold _ (fun _ _ => rfl) 0).trans (zero_add _)
  | jobLength => exact (hfold _ (fun acc j => by simp [amount]; omega) 0).trans (zero_add _)

/-! ## The sums of all groups -/

section Totals

variable {panel : ComputedPanel} {groupKey : GroupKey} {jobs : List JobMetadata}

/-- The sum over the jobs with a key. -/
def keySum (panel : ComputedPanel) (groupKey : GroupKey) (jobs : List JobMetadata) (g : String) :
    ℤ :=
  ((groupOf groupKey.text jobs g).map (amount panel)).sum

theorem keySum_append (jobs jobs' : List JobMetadata) (g : String) :
    keySum panel groupKey (jobs ++ jobs') g =
      keySum panel groupKey jobs g + keySum panel groupKey jobs' g := by
  simp [keySum, groupOf_append]

theorem keySum_singleton (j : JobMetadata) (g : String) :
    keySum panel groupKey [j] g = if g = groupKey.text j then amount panel j else 0 := by
  rw [keySum, groupOf_singleton]
  by_cases hg : g = groupKey.text j
  · simp [hg]
  · simp [hg, Ne.symm hg]

/-- What a job adds to the sums. -/
theorem keySum_split (before : List JobMetadata) (j : JobMetadata) (after : List JobMetadata)
    (g : String) : keySum panel groupKey (before ++ j :: after) g =
      keySum panel groupKey (before ++ after) g +
        if g = groupKey.text j then amount panel j else 0 := by
  rw [← List.singleton_append, keySum_append, keySum_append, keySum_append, keySum_singleton]
  omega

/-- **The sums that are computed**: one for each key that occurs. -/
theorem exists_groupTotals (panel : ComputedPanel) (h : ∀ j ∈ jobs, groupKey.text j ∉ builtIn) :
    ∃ tuples, groupTotals panel groupKey jobs = some tuples ∧ (tuples.map Prod.fst).Nodup ∧
      (∀ g, g ∈ tuples.map Prod.fst ↔ ∃ j ∈ jobs, groupKey.text j = g) ∧
      (∀ t ∈ tuples, t.2 = keySum panel groupKey jobs t.1) ∧
      ∀ g, sumOf tuples g = keySum panel groupKey jobs g := by
  obtain ⟨groups, hgroups, hholds⟩ := exists_groupBy h
  have hkeys : ∀ g, g ∈ objectKeys groups ↔ ∃ j ∈ jobs, groupKey.text j = g := by
    intro g
    rw [(objectKeys_perm groups).mem_iff, ← groupOf_ne_nil_iff, hholds.mem_keys_iff]
  have hlookup : ∀ g, total panel ((groups.lookup g).getD []) = keySum panel groupKey jobs g := by
    intro g
    rw [total_eq_sum, hholds g, keySum]
    split_ifs with hnil
    · rw [hnil]
      rfl
    · rfl
  have hfst : ((objectKeys groups).map fun g =>
      (g, total panel ((groups.lookup g).getD []))).map Prod.fst = objectKeys groups := by
    simp [Function.comp_def]
  refine ⟨_, by rw [groupTotals, hgroups]; rfl, ?_, ?_, ?_, ?_⟩
  · rw [hfst]
    exact (objectKeys_perm groups).nodup_iff.2 groups.nodup
  · rw [hfst]
    exact hkeys
  · intro t ht
    obtain ⟨g, -, rfl⟩ := List.mem_map.1 ht
    exact hlookup g
  · intro g
    rw [sumOf]
    by_cases hg : g ∈ objectKeys groups
    · rw [List.lookup_graph _ hg, Option.getD_some, hlookup]
    · have hnil : groupOf groupKey.text jobs g = [] := by
        by_contra hne
        exact hg ((hkeys g).2 (groupOf_ne_nil_iff.1 hne))
      rw [keySum, hnil, List.lookup_eq_none_iff.2]
      · rfl
      · intro t ht
        obtain ⟨g', hg', rfl⟩ := List.mem_map.1 ht
        exact bne_iff_ne.2 fun heq => hg (heq ▸ hg')

/-- **What a job contributes**: its amount to its group, and nothing elsewhere. -/
theorem exists_without {tuples : List (String × ℤ)} {before after : List JobMetadata}
    {j : JobMetadata} (h : ∀ j' ∈ before ++ j :: after, groupKey.text j' ∉ builtIn)
    (htuples : groupTotals panel groupKey (before ++ j :: after) = some tuples) :
    ∃ others, groupTotals panel groupKey (before ++ after) = some others ∧
      ∀ g, sumOf tuples g = sumOf others g + if g = groupKey.text j then amount panel j else 0 := by
  have hsub : before ++ after ⊆ before ++ j :: after :=
    ((List.sublist_cons_self j after).append_left before).subset
  obtain ⟨tuples', htuples', -, -, -, hsum⟩ := exists_groupTotals panel h
  obtain ⟨others, hothers, -, -, -, hsum'⟩ :=
    exists_groupTotals panel fun j' hj' => h j' (hsub hj')
  obtain rfl : tuples' = tuples := Option.some.inj (htuples'.symm.trans htuples)
  exact ⟨others, hothers, fun g => by rw [hsum, hsum', keySum_split]⟩

end Totals

/-! ## The largest groups -/

/-- The order of the sums is consistent. -/
theorem consistent_tuples (tuples : List (String × ℤ)) :
    Consistent (fun a b : String × ℤ => b.2 - a.2) tuples where
  opposite := List.pairwise_of_forall fun a b => by
    rw [opposite_iff]
    omega
  transitive a _ b _ c _ := by
    rw [TransitiveAt]
    omega

/-- **The groups shown are the largest ones.** -/
theorem isLargest_shown (tuples : List (String × ℤ)) : IsLargest 20 tuples (shown tuples) := by
  set sorted := (stableSort (String × ℤ)).sort (fun a b => b.2 - a.2) tuples with hsorted
  have hperm : sorted.Perm tuples := (stableSort _).perm _ tuples
  have hdesc : sorted.Pairwise fun a b => b.2 ≤ a.2 := by
    refine ((stableSort _).sorted _ tuples (consistent_tuples tuples)).imp fun hab => ?_
    omega
  have hparts := hdesc
  rw [← List.take_append_drop 20 sorted, List.pairwise_append] at hparts
  refine ⟨hparts.1, sorted.drop 20, ?_, ?_, hparts.2.2⟩
  · rw [shown, ← hsorted, List.take_append_drop]
    exact hperm
  · rw [shown, ← hsorted, List.length_take, hperm.length_eq]

/-! ## Running jobs -/

/-- What does no harm: nothing is taken off for a job that did not start after the epoch,
and no compute time for one without nodes. -/
def Harmless : ComputedPanel → JobMetadata → Prop
  | .computeTime, j => j.startTime ≤ 0 ∨ j.numNodes = 0
  | .jobLength, j => j.startTime ≤ 0

theorem Returned.amount_nonneg_iff {panel : ComputedPanel} {j : JobMetadata} (h : Returned j) :
    0 ≤ amount panel j ↔ (j.isRunning = true → Harmless panel j) := by
  have hnodes := h.numNodes
  cases hrunning : j.isRunning with
  | false =>
    have hlength : 0 ≤ j.stopTime - j.startTime := Int.sub_nonneg.2 (h.finished hrunning)
    cases panel with
    | computeTime => simpa [amount] using mul_nonneg hnodes hlength
    | jobLength => simpa [amount] using hlength
  | true =>
    cases panel with
    | computeTime =>
      simp only [amount, Harmless, h.running hrunning, forall_const]
      rcases hnodes.eq_or_lt with hzero | hpos
      · simp [← hzero]
      · rw [mul_nonneg_iff_of_pos_left hpos]
        omega
    | jobLength =>
      simp only [amount, Harmless, h.running hrunning, forall_const]
      omega

/-- **When the statistics add up**: exactly when no running job takes something off. -/
theorem addsUp_iff (panel : ComputedPanel) (groupKey : GroupKey) (jobs : List JobMetadata)
    (hjobs : ∀ j ∈ jobs, Returned j) (hkeys : ∀ j ∈ jobs, groupKey.text j ∉ builtIn) :
    ∃ tuples, groupTotals panel groupKey jobs = some tuples ∧
      (AddsUp panel groupKey jobs tuples ↔
        ∀ j ∈ jobs, j.isRunning = true → Harmless panel j) := by
  obtain ⟨tuples, htuples, hnodup, hmem, hvalue, -⟩ := exists_groupTotals panel hkeys
  refine ⟨tuples, htuples, fun h j hj => ?_, fun h => ?_⟩
  · rw [← (hjobs j hj).amount_nonneg_iff]
    cases hrunning : j.isRunning with
    | false => exact (hjobs j hj).amount_nonneg_iff.2 (by simp [hrunning])
    | true =>
      obtain ⟨before, after, rfl⟩ := List.append_of_mem hj
      obtain ⟨others, hothers, hle⟩ := h.running before j after rfl hrunning
      obtain ⟨others', hothers', hsum⟩ := exists_without hkeys htuples
      obtain rfl : others' = others := Option.some.inj (hothers'.symm.trans hothers)
      have hgroup := hle (groupKey.text j)
      rw [hsum, if_pos rfl] at hgroup
      omega
  · have hamount : ∀ j ∈ jobs, 0 ≤ amount panel j :=
      fun j hj => (hjobs j hj).amount_nonneg_iff.2 (h j hj)
    refine ⟨hnodup, fun t ht => ?_, ?_, ?_, isLargest_shown tuples⟩
    · rw [hvalue t ht]
      refine List.sum_nonneg fun x hx => ?_
      obtain ⟨j, hj, rfl⟩ := List.mem_map.1 hx
      exact hamount j (List.mem_of_mem_filter hj)
    · rintro before j after rfl -
      exact ⟨(hmem _).2 ⟨j, List.mem_append_right _ List.mem_cons_self, rfl⟩,
        exists_without hkeys htuples⟩
    · rintro before j after rfl -
      obtain ⟨others, hothers, hsum⟩ := exists_without hkeys htuples
      refine ⟨others, hothers, fun g => ?_⟩
      have hj := hamount j (List.mem_append_right _ List.mem_cons_self)
      rw [hsum]
      split_ifs <;> omega

/-- A job of user `u` that ended after a minute, and one that is still running. -/
def oneRunning : List JobMetadata :=
  [{ id := 1, userName := "u", numNodes := 1, startTime := 1000, stopTime := 1060 },
    { id := 2, userName := "u", numNodes := 1, startTime := 2000, isRunning := true }]

/-- The running job turns the sum of its user negative. -/
theorem oneRunning_negative :
    groupTotals .jobLength .userName oneRunning = some [("u", -1940)] ∧
      ∀ tuples, groupTotals .jobLength .userName oneRunning = some tuples →
        ¬ AddsUp .jobLength .userName oneRunning tuples := by
  have hsums : groupTotals .jobLength .userName oneRunning = some [("u", -1940)] := by
    decide +kernel
  refine ⟨hsums, fun tuples htuples h => ?_⟩
  rw [hsums] at htuples
  cases htuples
  exact absurd (h.nonneg ("u", -1940) List.mem_cons_self) (by decide)

/-- Finished jobs of two users, on one to three nodes. -/
def twoUsers : List JobMetadata :=
  [{ id := 1, userName := "u", numNodes := 1, startTime := 1000, stopTime := 1060 },
    { id := 2, userName := "v", numNodes := 2, startTime := 1000, stopTime := 1100 },
    { id := 3, userName := "u", numNodes := 3, startTime := 2000, stopTime := 2040 }]

/-- Their compute times add up. -/
theorem addsUp_iff_finished :
    groupTotals .computeTime .userName twoUsers = some [("u", 180), ("v", 200)] ∧
      AddsUp .computeTime .userName twoUsers [("u", 180), ("v", 200)] := by
  have hsums : groupTotals .computeTime .userName twoUsers = some [("u", 180), ("v", 200)] := by
    decide +kernel
  have hjobs : ∀ j ∈ twoUsers, Returned j := by
    simp only [twoUsers, List.forall_mem_cons]
    exact ⟨⟨by decide, by decide, by decide⟩, ⟨by decide, by decide, by decide⟩,
      ⟨by decide, by decide, by decide⟩, by simp⟩
  obtain ⟨tuples, htuples, hiff⟩ :=
    addsUp_iff .computeTime .userName twoUsers hjobs (by decide)
  rw [hsums] at htuples
  cases htuples
  exact ⟨hsums, hiff.2 (by simp [twoUsers])⟩

end Statistics

end JobMon
