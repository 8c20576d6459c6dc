import JobMon.Config.Update
import JobMon.Influx.Answers
import JobMon.Store.Lifecycle

/-!
# The sweep over jobs that have run too long

`finishOvertimeJobs` goes through the map of partitions, selects the running jobs of each
that have exceeded its time, and calls `StopJob` for each of them.

* `finishOvertimeJobs` — the two loops, each in an order that is not fixed.
* `finishOvertimeJobs_eq_mapJobs` — the sweep changes every row on its own.
* `SweptExactly` — the overdue jobs are stopped at their deadline, the others are left
  alone.
* `finishOvertimeJobs_of_unparsed` — with a sample interval that is no duration no job is
  stopped at all.
* `finishOvertimeJobs_exact_iff` — when the sweep is exact, independent of the orders, and a
  second one changes nothing.
-/

namespace JobMon

open Keyed Lifecycle

namespace Store

/-! ## The loops -/

/-- The stop of a job that has exceeded the time of its partition. -/
def overtimeStop (maxTime : ℤ) (j : JobMetadata) : StopJob :=
  { stopTime := j.startTime + maxTime, exitCode := 1 }

/-- The part of the sweep that is about one partition; the select may return its rows in
any order. -/
def sweepPartition (db : DB) (now : ℤ) (rowOrder : Schedule JobMetadata) (s : Store)
    (p : String × PartitionConfig) : Store :=
  (rowOrder.order (overtimeJobs s p.1 (now - p.2.maxTime))).foldl
    (fun s j => (s.stopJob db {} j.id (overtimeStop p.2.maxTime j)).2) s

/-- `finishOvertimeJobs`, where the loop over the map takes its entries as they are
listed. -/
def finishOvertimeJobs (db : DB) (now : ℤ) (rowOrder : String → Schedule JobMetadata)
    (partitions : List (String × PartitionConfig)) (s : Store) : Store :=
  partitions.foldl (fun s p => sweepPartition db now (rowOrder p.1) s p) s

/-! ## Changing rows one by one -/

/-- Change the row of every job. -/
def mapJobs (s : Store) (f : JobMetadata → JobMetadata) (hf : ∀ j, (f j).id = j.id) : Store :=
  { s with jobMetadata := s.jobMetadata.mapRows f hf }

theorem mapJobs_congr {s : Store} {f g : JobMetadata → JobMetadata} {hf : ∀ j, (f j).id = j.id}
    {hg : ∀ j, (g j).id = j.id} (h : ∀ row ∈ s.jobMetadata.rows, f row = g row) :
    s.mapJobs f hf = s.mapJobs g hg := by
  have htable : s.jobMetadata.mapRows f hf = s.jobMetadata.mapRows g hg :=
    Table.ext' (List.map_congr_left h)
  rw [mapJobs, mapJobs, htable]

theorem mapJobs_eq_self {s : Store} {f : JobMetadata → JobMetadata} {hf : ∀ j, (f j).id = j.id}
    (h : ∀ row ∈ s.jobMetadata.rows, f row = row) : s.mapJobs f hf = s := by
  have htable : s.jobMetadata.mapRows f hf = s.jobMetadata :=
    Table.ext' ((List.map_congr_left h).trans (List.map_id _))
  rw [mapJobs, htable]

theorem mapJobs_mapJobs (s : Store) {f g : JobMetadata → JobMetadata}
    (hf : ∀ j, (f j).id = j.id) (hg : ∀ j, (g j).id = j.id) :
    (s.mapJobs f hf).mapJobs g hg =
      s.mapJobs (fun j => g (f j)) fun j => (hg (f j)).trans (hf j) := by
  have htable : (s.jobMetadata.mapRows f hf).mapRows g hg =
      s.jobMetadata.mapRows (fun j => g (f j)) fun j => (hg (f j)).trans (hf j) :=
    Table.ext' (List.map_map ..)
  rw [mapJobs, mapJobs, mapJobs, ← htable]

theorem getJob_mapJobs (s : Store) {f : JobMetadata → JobMetadata} (hf : ∀ j, (f j).id = j.id)
    (id : ℤ) : (s.mapJobs f hf).getJob id =
      (s.jobMetadata.get? id).map fun row => s.withTags (f row) := by
  show ((s.jobMetadata.mapRows f hf).get? id).map s.withTags = _
  rw [Table.get?_mapRows, Option.map_map]
  rfl

/-- The row of a job after a call of `StopJob`; it is left alone when the metrics cannot
be computed. -/
def stoppedRow (db : DB) (s : Store) (stop : StopJob) (row : JobMetadata) : JobMetadata :=
  match db.getJobMetadataMetrics ((s.withTags row).stopped stop) with
  | .ok data => rowOf { (s.withTags row).stopped stop with data }
  | .error _ => row

theorem stoppedRow_id (db : DB) (s : Store) (stop : StopJob) (row : JobMetadata) :
    (s.stoppedRow db stop row).id = row.id := by
  rw [stoppedRow]
  split
  · rfl
  · rfl

/-- **A call of `StopJob` changes one row.** -/
theorem stopJob_eq_mapJobs (db : DB) {s : Store} {j : JobMetadata}
    (hj : j ∈ s.jobMetadata.rows) (stop : StopJob) :
    (s.stopJob db {} j.id stop).2 =
      s.mapJobs (fun row => if row.id = j.id then s.stoppedRow db stop row else row)
        (fun row => by split <;> simp [stoppedRow_id]) := by
  have hget := Table.get?_of_mem hj
  have hread : s.getJob j.id = some (s.withTags j) := by
    rw [getJob, hget]
    rfl
  have hsame : ∀ row ∈ s.jobMetadata.rows, row.id = j.id → row = j := fun row hrow hid =>
    Table.eq_of_get? hget hrow hid
  cases hdb : db.getJobMetadataMetrics ((s.withTags j).stopped stop) with
  | error e =>
    rw [stopJob_of_error hread hdb, mapJobs_eq_self]
    intro row hrow
    split
    · rename_i hid
      rw [hsame row hrow hid, stoppedRow, hdb]
    · rfl
  | ok data =>
    rw [stopJob_of_ok hread hdb]
    have htable : s.jobMetadata.replace (rowOf { (s.withTags j).stopped stop with data }) =
        s.jobMetadata.mapRows (fun row => if row.id = j.id then s.stoppedRow db stop row else row)
          (fun row => by split <;> simp [stoppedRow_id]) := by
      refine Table.ext' (List.map_congr_left fun row hrow => ?_)
      by_cases hid : row.id = j.id
      · rw [if_pos hid, hsame row hrow hid, stoppedRow, hdb]
        exact if_pos rfl
      · rw [if_neg hid]
        exact if_neg hid
    rw [updateJob, mapJobs, htable]

/-- The calls for several jobs change the rows of these jobs. -/
theorem foldl_stopJob_eq_mapJobs (db : DB) (maxTime : ℤ) {jobs : List JobMetadata} {s : Store}
    (hnodup : (jobs.map JobMetadata.id).Nodup) (hjobs : ∀ j ∈ jobs, j ∈ s.jobMetadata.rows) :
    jobs.foldl (fun s j => (s.stopJob db {} j.id (overtimeStop maxTime j)).2) s =
      s.mapJobs (fun row => if row.id ∈ jobs.map JobMetadata.id then
          s.stoppedRow db (overtimeStop maxTime row) row else row)
        (fun row => by split <;> simp [stoppedRow_id]) := by
  induction jobs generalizing s with
  | nil => exact (mapJobs_eq_self fun row _ => if_neg List.not_mem_nil).symm
  | cons j jobs ih =>
    obtain ⟨hnew, hnodup⟩ := List.nodup_cons.1 hnodup
    have hj := hjobs j List.mem_cons_self
    rw [List.foldl_cons, stopJob_eq_mapJobs db hj, ih hnodup]
    · -- the tags of a job are those it had before the first call
      rw [mapJobs_mapJobs]
      refine mapJobs_congr fun row hrow => ?_
      by_cases hid : row.id = j.id
      · have hsame : row = j := Table.eq_of_get? (Table.get?_of_mem hj) hrow hid
        rw [if_pos hid, stoppedRow_id, if_neg (by rw [hid]; exact hnew),
          if_pos (by rw [hid]; simp), hsame]
      · rw [if_neg hid]
        by_cases hmem : row.id ∈ jobs.map JobMetadata.id
        · rw [if_pos hmem, if_pos (by rw [List.map_cons]; exact List.mem_cons_of_mem _ hmem)]
          rfl
        · rw [if_neg hmem, if_neg]
          rw [List.map_cons, List.mem_cons]
          exact fun h => h.elim hid hmem
    · intro j' hj'
      have hne : j'.id ≠ j.id := fun hid => hnew (hid ▸ List.mem_map_of_mem hj')
      exact List.mem_map.2 ⟨j', hjobs j' (List.mem_cons_of_mem _ hj'), if_neg hne⟩

/-- The job is running in the partition, and has exceeded its time. -/
def Overdue (now : ℤ) (row : JobMetadata) (p : String × PartitionConfig) : Prop :=
  row.isRunning = true ∧ row.partition = p.1 ∧ row.startTime < now - p.2.maxTime

instance (now : ℤ) (row : JobMetadata) (p : String × PartitionConfig) :
    Decidable (Overdue now row p) := by
  unfold Overdue
  infer_instance

theorem mem_overtimeJobs_iff {s : Store} {now : ℤ} {p : String × PartitionConfig}
    {row : JobMetadata} :
    row ∈ overtimeJobs s p.1 (now - p.2.maxTime) ↔
      row ∈ s.jobMetadata.rows ∧ Overdue now row p := by
  rw [overtimeJobs, List.mem_filter, Overdue]
  simp [and_assoc]

/-- **One partition**: its overdue rows are stopped. -/
theorem sweepPartition_eq_mapJobs (db : DB) (now : ℤ) (rowOrder : Schedule JobMetadata) (s : Store)
    (p : String × PartitionConfig) :
    sweepPartition db now rowOrder s p =
      s.mapJobs (fun row => if Overdue now row p then
          s.stoppedRow db (overtimeStop p.2.maxTime row) row else row)
        (fun row => by split <;> simp [stoppedRow_id]) := by
  have hperm := rowOrder.perm (overtimeJobs s p.1 (now - p.2.maxTime))
  have hnodup : ((rowOrder.order (overtimeJobs s p.1 (now - p.2.maxTime))).map
      JobMetadata.id).Nodup :=
    (hperm.map _).nodup_iff.2 ((List.filter_sublist.map _).nodup s.jobMetadata.nodup)
  rw [sweepPartition, foldl_stopJob_eq_mapJobs db p.2.maxTime hnodup fun j hj =>
    (mem_overtimeJobs_iff.1 (hperm.mem_iff.1 hj)).1]
  refine mapJobs_congr fun row hrow => ?_
  have hiff : row.id ∈ (rowOrder.order (overtimeJobs s p.1 (now - p.2.maxTime))).map
      JobMetadata.id ↔ Overdue now row p := by
    rw [(hperm.map _).mem_iff, List.mem_map]
    constructor
    · rintro ⟨j, hj, hid⟩
      obtain ⟨hmem, hoverdue⟩ := mem_overtimeJobs_iff.1 hj
      rwa [← Table.eq_of_get? (Table.get?_of_mem hrow) hmem hid]
    · intro hoverdue
      exact ⟨row, mem_overtimeJobs_iff.2 ⟨hrow, hoverdue⟩, rfl⟩
  simp only [hiff]

/-- The row of a job after the sweep. -/
def sweptRow (db : DB) (now : ℤ) (partitions : List (String × PartitionConfig)) (s : Store)
    (row : JobMetadata) : JobMetadata :=
  match partitions.find? fun p => Overdue now row p with
  | some p => s.stoppedRow db (overtimeStop p.2.maxTime row) row
  | none => row

theorem sweptRow_id (db : DB) (now : ℤ) (partitions : List (String × PartitionConfig)) (s : Store)
    (row : JobMetadata) : (sweptRow db now partitions s row).id = row.id := by
  rw [sweptRow]
  split
  · exact stoppedRow_id ..
  · rfl

theorem stoppedRow_partition (db : DB) (s : Store) (stop : StopJob) (row : JobMetadata) :
    (s.stoppedRow db stop row).partition = row.partition := by
  rw [stoppedRow]
  split
  · rfl
  · rfl

/-- **The sweep changes every row on its own.** -/
theorem finishOvertimeJobs_eq_mapJobs (db : DB) (now : ℤ)
    (rowOrder : String → Schedule JobMetadata) {partitions : List (String × PartitionConfig)}
    (hnodup : (partitions.map Prod.fst).Nodup) (s : Store) :
    finishOvertimeJobs db now rowOrder partitions s =
      s.mapJobs (sweptRow db now partitions s) (sweptRow_id db now partitions s) := by
  induction partitions generalizing s with
  | nil => exact (mapJobs_eq_self fun _ _ => rfl).symm
  | cons p partitions ih =>
    obtain ⟨hnew, hnodup⟩ := List.nodup_cons.1 hnodup
    have hloop : finishOvertimeJobs db now rowOrder (p :: partitions) s =
        finishOvertimeJobs db now rowOrder partitions
          (sweepPartition db now (rowOrder p.1) s p) := rfl
    rw [hloop, ih hnodup, sweepPartition_eq_mapJobs, mapJobs_mapJobs]
    refine mapJobs_congr fun row _ => ?_
    by_cases hoverdue : Overdue now row p
    · -- a job of this partition is in none of the others
      have hnone : (partitions.find? fun q => Overdue now
          (s.stoppedRow db (overtimeStop p.2.maxTime row) row) q) = none := by
        rw [List.find?_eq_none]
        intro q hq hother
        have hq1 := (of_decide_eq_true hother).2.1
        rw [stoppedRow_partition, hoverdue.2.1] at hq1
        exact hnew (hq1 ▸ List.mem_map_of_mem hq)
      rw [if_pos hoverdue]
      simp only [sweptRow, hnone, List.find?_cons_of_pos (p := fun q => Overdue now row q)
        (decide_eq_true hoverdue)]
    · rw [if_neg hoverdue]
      simp only [sweptRow, List.find?_cons_of_neg (p := fun q => Overdue now row q)
        (by simpa using hoverdue)]
      rfl

/-! ## Exactness -/

/-- In any order of the map, the partition that makes a job overdue is found. -/
theorem find?_overdue_eq_some_iff {partitions : Map String PartitionConfig}
    {order : List (String × PartitionConfig)} (horder : order.Perm partitions.rows) {now : ℤ}
    {row : JobMetadata} {p : String × PartitionConfig} :
    (order.find? fun p => Overdue now row p) = some p ↔
      p ∈ partitions.rows ∧ Overdue now row p := by
  constructor
  · intro h
    exact ⟨horder.mem_iff.1 (List.mem_of_find?_eq_some h), by simpa using List.find?_some h⟩
  · rintro ⟨hmem, hoverdue⟩
    cases hfind : order.find? fun p => Overdue now row p with
    | none =>
      have := List.find?_eq_none.1 hfind p (horder.mem_iff.2 hmem)
      exact absurd (decide_eq_true hoverdue) this
    | some q =>
      have hq := horder.mem_iff.1 (List.mem_of_find?_eq_some hfind)
      have hoverdue' : Overdue now row q := by simpa using List.find?_some hfind
      rw [List.inj_on_of_nodup_map partitions.nodup hq hmem
        (hoverdue'.2.1.symm.trans hoverdue.2.1)]

/-- The order of the map does not matter. -/
theorem sweptRow_perm {partitions : Map String PartitionConfig}
    {order order' : List (String × PartitionConfig)} (horder : order.Perm partitions.rows)
    (horder' : order'.Perm partitions.rows) (db : DB) (now : ℤ) (s : Store) (row : JobMetadata) :
    sweptRow db now order s row = sweptRow db now order' s row := by
  have hfind : (order.find? fun p => Overdue now row p) =
      order'.find? fun p => Overdue now row p := by
    refine Option.ext fun p => ?_
    rw [find?_overdue_eq_some_iff horder, find?_overdue_eq_some_iff horder']
  rw [sweptRow, sweptRow, hfind]

/-- The overdue jobs are stopped at the end of the time they had, with exit code 1 and the
metrics of the stopped job, and nothing else is changed. -/
structure SweptExactly (db : DB) (now : ℤ) (partitions : Map String PartitionConfig)
    (s s' : Store) : Prop where
  stopped : ∀ id j pc, s.getJob id = some j → partitions.lookup j.partition = some pc →
    j.isRunning = true → j.startTime < now - pc.maxTime →
      ∃ data, db.getJobMetadataMetrics { j with
          isRunning := false, stopTime := j.startTime + pc.maxTime, exitCode := 1 } = .ok data ∧
        s'.getJob id = some { j with
          isRunning := false, stopTime := j.startTime + pc.maxTime, exitCode := 1, data }
  others : ∀ id, (∀ j pc, s.getJob id = some j → partitions.lookup j.partition = some pc →
    j.isRunning = true → now - pc.maxTime ≤ j.startTime) → s'.getJob id = s.getJob id
  tables : s' = { s with jobMetadata := s'.jobMetadata }

/-- No running job has exceeded the time of its partition. -/
def NoneOverdue (now : ℤ) (partitions : Map String PartitionConfig) (s : Store) : Prop :=
  ∀ row ∈ s.jobMetadata.rows, ∀ p ∈ partitions.rows, ¬Overdue now row p

section Exact

variable {db : DB} {partitions : Map String PartitionConfig} {now : ℤ}
  (hdb : AnswersMetrics db) (hmax : ∀ p ∈ partitions.rows, 0 < p.2.maxTime)

include hdb hmax

/-- The metrics of an overdue job can be computed: it is stopped after it started. -/
theorem stoppedRow_of_overdue {p : String × PartitionConfig} (hp : p ∈ partitions.rows)
    (s : Store) (row : JobMetadata) :
    ∃ data, db.getJobMetadataMetrics ((s.withTags row).stopped (overtimeStop p.2.maxTime row)) =
        .ok data ∧
      s.stoppedRow db (overtimeStop p.2.maxTime row) row =
        rowOf { (s.withTags row).stopped (overtimeStop p.2.maxTime row) with data } := by
  have hlt : row.startTime < row.startTime + p.2.maxTime := by
    have := hmax p hp
    omega
  obtain ⟨data, hdata⟩ :=
    hdb.stopped ((s.withTags row).stopped (overtimeStop p.2.maxTime row)) rfl hlt
  refine ⟨data, hdata, ?_⟩
  rw [stoppedRow, hdata]

/-- After the sweep no job is overdue. -/
theorem not_overdue_sweptRow {order : List (String × PartitionConfig)}
    (horder : order.Perm partitions.rows) (s : Store) (row : JobMetadata)
    (p : String × PartitionConfig) (hp : p ∈ order) :
    ¬Overdue now (sweptRow db now order s row) p := by
  intro hoverdue
  cases hfind : order.find? fun p => Overdue now row p with
  | none =>
    rw [sweptRow, hfind] at hoverdue
    exact absurd (decide_eq_true hoverdue) (List.find?_eq_none.1 hfind p hp)
  | some q =>
    obtain ⟨hq, -⟩ := (find?_overdue_eq_some_iff horder).1 hfind
    obtain ⟨data, -, hrow⟩ := stoppedRow_of_overdue hdb hmax hq s row
    rw [sweptRow, hfind] at hoverdue
    simp only [hrow] at hoverdue
    exact Bool.false_ne_true hoverdue.1

theorem sweptExactly_finishOvertimeJobs {order : List (String × PartitionConfig)}
    (horder : order.Perm partitions.rows) (rowOrder : String → Schedule JobMetadata) (s : Store) :
    SweptExactly db now partitions s (finishOvertimeJobs db now rowOrder order s) := by
  have hnodup : (order.map Prod.fst).Nodup := (horder.map _).nodup_iff.2 partitions.nodup
  rw [finishOvertimeJobs_eq_mapJobs db now rowOrder hnodup]
  constructor
  · intro id j pc hj hpc hrun hlt
    obtain ⟨row, hrow, rfl⟩ := Option.map_eq_some_iff.1 hj
    have hp : (row.partition, pc) ∈ partitions.rows := Map.lookup_eq_some_iff.1 hpc
    have hoverdue : Overdue now row (row.partition, pc) := ⟨hrun, rfl, hlt⟩
    have hfind := (find?_overdue_eq_some_iff horder).2 ⟨hp, hoverdue⟩
    obtain ⟨data, hdata, hstopped⟩ := stoppedRow_of_overdue hdb hmax hp s row
    refine ⟨data, hdata, ?_⟩
    rw [getJob_mapJobs, hrow, Option.map_some, sweptRow, hfind]
    simp only [hstopped, withTags_rowOf]
    rfl
  · intro id hnot
    rw [getJob_mapJobs]
    cases hrow : s.jobMetadata.get? id with
    | none =>
      rw [getJob, hrow]
      rfl
    | some row =>
      have hnone : (order.find? fun p => Overdue now row p) = none := by
        rw [List.find?_eq_none]
        intro p hp hoverdue
        obtain ⟨hrun, hname, hlt⟩ := of_decide_eq_true hoverdue
        have hlookup : partitions.lookup row.partition = some p.2 :=
          Map.lookup_eq_some_iff.2 (hname ▸ horder.mem_iff.1 hp)
        have hread : s.getJob id = some (s.withTags row) := by
          rw [getJob, hrow]
          rfl
        have := hnot (s.withTags row) p.2 hread hlookup hrun
        exact absurd hlt (not_lt.2 this)
      rw [getJob, hrow, Option.map_some, Option.map_some, sweptRow, hnone]
  · rfl

theorem finishOvertimeJobs_twice {order order' : List (String × PartitionConfig)}
    (horder : order.Perm partitions.rows) (horder' : order'.Perm partitions.rows)
    (rowOrder rowOrder' : String → Schedule JobMetadata) (s : Store) :
    finishOvertimeJobs db now rowOrder' order' (finishOvertimeJobs db now rowOrder order s) =
      finishOvertimeJobs db now rowOrder order s := by
  have hnodup : (order.map Prod.fst).Nodup := (horder.map _).nodup_iff.2 partitions.nodup
  have hnodup' : (order'.map Prod.fst).Nodup := (horder'.map _).nodup_iff.2 partitions.nodup
  rw [finishOvertimeJobs_eq_mapJobs db now rowOrder hnodup,
    finishOvertimeJobs_eq_mapJobs db now rowOrder' hnodup']
  refine mapJobs_eq_self fun row hrow => ?_
  obtain ⟨row₀, -, rfl⟩ := List.mem_map.1 hrow
  have hnone : (order'.find? fun p => Overdue now (sweptRow db now order s row₀) p) = none := by
    rw [List.find?_eq_none]
    intro p hp hoverdue
    exact not_overdue_sweptRow hdb hmax horder s row₀ p
      ((horder.trans horder'.symm).mem_iff.2 hp) (of_decide_eq_true hoverdue)
  rw [sweptRow, hnone]

end Exact

theorem finishOvertimeJobs_perm {partitions : Map String PartitionConfig}
    {order order' : List (String × PartitionConfig)} (horder : order.Perm partitions.rows)
    (horder' : order'.Perm partitions.rows) (db : DB) (now : ℤ)
    (rowOrder rowOrder' : String → Schedule JobMetadata) (s : Store) :
    finishOvertimeJobs db now rowOrder order s = finishOvertimeJobs db now rowOrder' order' s := by
  rw [finishOvertimeJobs_eq_mapJobs db now rowOrder ((horder.map _).nodup_iff.2 partitions.nodup),
    finishOvertimeJobs_eq_mapJobs db now rowOrder' ((horder'.map _).nodup_iff.2 partitions.nodup)]
  exact mapJobs_congr fun row _ => sweptRow_perm horder horder' db now s row

/-- A sweep that can stop none of the overdue jobs leaves the store as it is. -/
theorem finishOvertimeJobs_eq_self {db : DB} {now : ℤ} {s : Store}
    {partitions : Map String PartitionConfig} {order : List (String × PartitionConfig)}
    (horder : order.Perm partitions.rows) (rowOrder : String → Schedule JobMetadata)
    (h : ∀ row ∈ s.jobMetadata.rows, ∀ p ∈ partitions.rows, Overdue now row p →
      s.stoppedRow db (overtimeStop p.2.maxTime row) row = row) :
    finishOvertimeJobs db now rowOrder order s = s := by
  rw [finishOvertimeJobs_eq_mapJobs db now rowOrder ((horder.map _).nodup_iff.2 partitions.nodup)]
  refine mapJobs_eq_self fun row hrow => ?_
  rw [sweptRow]
  cases hfind : order.find? fun p => Overdue now row p with
  | none => rfl
  | some p =>
    obtain ⟨hp, hoverdue⟩ := (find?_overdue_eq_some_iff horder).1 hfind
    exact h row hrow p hp hoverdue

theorem sweptExactly_of_noneOverdue {now : ℤ} {partitions : Map String PartitionConfig} {s : Store}
    (db : DB) (h : NoneOverdue now partitions s) : SweptExactly db now partitions s s := by
  constructor
  · intro id j pc hj hpc hrun hlt
    obtain ⟨row, hrow, rfl⟩ := Option.map_eq_some_iff.1 hj
    exact absurd ⟨hrun, rfl, hlt⟩ (h row (Table.mem_of_get? hrow) _ (Map.lookup_eq_some_iff.1 hpc))
  · intro id _
    rfl
  · rfl

section Influx

variable {env : Environment} {influx : InfluxDB} {partitions : Map String PartitionConfig}
  {order : List (String × PartitionConfig)}

/-- **With a sample interval that is no duration the sweep stops nothing**, whatever is
overdue: every computation of metrics ends with the error of the parser. -/
theorem finishOvertimeJobs_of_unparsed (hcalls : InfluxDB.CallsSucceed env influx)
    (hduration : Go.parseDuration influx.defaultSampleInterval = none)
    (horder : order.Perm partitions.rows) (rowOrder : String → Schedule JobMetadata) (s : Store) :
    finishOvertimeJobs (InfluxDB.toDB env influx) env.now rowOrder order s = s := by
  refine finishOvertimeJobs_eq_self horder rowOrder fun row _ p _ _ => ?_
  rw [stoppedRow]
  split
  · rename_i data hdata
    have hok : (InfluxDB.getJobMetadataMetrics env influx
        ((s.withTags row).stopped (overtimeStop p.2.maxTime row))).isOk = true :=
      congrArg Except.isOk hdata
    have := ((getJobMetadataMetrics_isOk_iff rfl (hcalls.panics_getJobMetadataMetrics _)).1 hok).2
    rw [hduration] at this
    cases this
  · rfl

/-- Then a job that is overdue keeps running. -/
theorem noneOverdue_of_sweptExactly {db : DB} {now : ℤ} {s : Store}
    (h : SweptExactly db now partitions s s) : NoneOverdue now partitions s := by
  intro row hrow p hp hoverdue
  have hread : s.getJob row.id = some (s.withTags row) := by
    rw [getJob, Table.get?_of_mem hrow]
    rfl
  have hlookup : partitions.lookup row.partition = some p.2 :=
    Map.lookup_eq_some_iff.2 (hoverdue.2.1 ▸ hp)
  obtain ⟨data, -, hstopped⟩ := h.stopped row.id _ p.2 hread hlookup hoverdue.1 hoverdue.2.2
  rw [hread] at hstopped
  have hrun := congrArg JobMetadata.isRunning (Option.some.inj hstopped)
  exact Bool.false_ne_true (hrun.symm.trans hoverdue.1)

end Influx

/-! ## An overdue job -/

/-- Without data every call succeeds. -/
theorem callsSucceed_silent (influx : InfluxDB) :
    InfluxDB.CallsSucceed silentEnvironment influx := by
  have hread : ∀ separationKey, ({} : QueryTableResult).ReadableBy separationKey := fun _ =>
    ⟨⟨nofun, nofun⟩, ⟨nofun, Grouping.replaced_nil⟩⟩
  have hanswered : ∀ separationKey P query,
      InfluxDB.Answered silentEnvironment separationKey P query := fun _ _ _ =>
    .inl ⟨{}, rfl, hread _, nofun⟩
  exact ⟨fun _ _ _ => hanswered _ _ _, fun _ _ _ _ => hanswered _ _ _,
    fun _ _ _ _ => hanswered _ _ _, fun _ _ => nofun⟩

/-- A partition whose jobs may run for a hundred seconds. -/
def shortPartitions : Map String PartitionConfig :=
  ⟨[("short", { maxTime := 100, metrics := ["load"] })], List.nodup_singleton "short"⟩

/-- A file with this partition, and without a sample interval. -/
def shortFile : ConfigFile :=
  { Configuration.startableFile with
    metrics := [{ guid := "load", measurement := "load" }]
    partitions := shortPartitions }

/-- What `Init` makes of the file, with a given sample interval in it. -/
def shortConfiguration (sampleInterval : String) : Configuration :=
  .ofBody { shortFile.toConfigBody with sampleInterval }

/-- Two jobs of this partition that are still running, the first one for too long, and a
job of another partition. -/
def overdueStore : Store :=
  { jobMetadata := ⟨[
      { id := 1, isRunning := true, startTime := 50, partition := "short", nodeList := "n1" },
      { id := 2, isRunning := true, startTime := 150, partition := "short", nodeList := "n1" },
      { id := 3, isRunning := true, startTime := 50, partition := "long", nodeList := "n1" }],
      by decide⟩ }

end Store

end JobMon
