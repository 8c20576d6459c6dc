import JobMon.Cache.Lru
import JobMon.Store.StopJob

/-!
# Complete and partial job data

Every metric of a job is queried by a goroutine of its own, and a goroutine that
fails logs its error and appends nothing.  The error that `getJobData` returns is
another variable, which nobody sets.

* `getJobData_complete_iff` — the data of a call that reports no error has one
  entry per metric exactly when all queries and parses succeeded.
* `cached_complete_iff`, `stored_complete_iff` — the same of what the cache keeps
  and of what a stop writes to the store.
* `success_complete_iff` — the three together.
-/

namespace JobMon

open InfluxDB

/-- One entry for every metric of the job's partition; the quantiles of a running
job are not queried. -/
def JobData.Complete (db : InfluxDB) (j : JobMetadata) (data : JobData) : Prop :=
  (data.metricData.map MetricData.config).Perm (db.jobMetrics j) ∧
    (j.isRunning = false →
      (data.quantileData.map QuantileData.config).Perm (db.jobMetrics j))

/-- Every query a call of `getJobData` sends is answered, and every answer can be
parsed. -/
def QueriesSucceed (env : Environment) (db : InfluxDB) (j : JobMetadata) (nodes : String)
    (d : Go.Duration) (raw forceAggregate : Bool) : Prop :=
  (∀ m ∈ db.jobMetrics j, (metricTask env db j nodes d raw forceAggregate m).isOk = true) ∧
    (j.isRunning = false → ∀ m ∈ db.jobMetrics j, (quantileTask env db j d m).isOk = true)

/-! ## What a goroutine appends -/

section Tasks

variable {env : Environment} {db : InfluxDB} {j : JobMetadata} {nodes : String}
  {d : Go.Duration} {raw forceAggregate : Bool} {m : MetricConfig}

theorem config_of_metricTask {y : MetricData}
    (h : metricTask env db j nodes d raw forceAggregate m = .ok y) : y.config = m := by
  unfold metricTask at h
  cases raw with
  | true =>
    obtain ⟨r, -, h⟩ := bind_eq_ok_iff.1 h
    cases h
    rfl
  | false =>
    obtain ⟨r, -, h⟩ := bind_eq_ok_iff.1 h
    cases h
    rfl

theorem config_of_quantileTask {y : QuantileData} (h : quantileTask env db j d m = .ok y) :
    y.config = m := by
  obtain ⟨t, -, h⟩ := bind_eq_ok_iff.1 h
  obtain ⟨r, -, h⟩ := bind_eq_ok_iff.1 h
  cases h
  rfl

theorem config_of_metadataTask {y : JobMetadataData} (h : metadataTask env db j m = .ok y) :
    y.config = m := by
  obtain ⟨t, -, h⟩ := bind_eq_ok_iff.1 h
  obtain ⟨r, -, h⟩ := bind_eq_ok_iff.1 h
  cases hr : r.lookup "_result" with
  | none =>
    rw [hr] at h
    cases h
    rfl
  | some res =>
    rw [hr] at h
    cases h
    rfl

end Tasks

/-! ## `getJobData` -/

section JobData

variable {env : Environment} {db : InfluxDB} {j : JobMetadata} {nodes : String}
  {d : Go.Duration} {raw forceAggregate : Bool} {data : JobData}

/-- The two groups of goroutines behind a result. -/
theorem getJobData_eq_ok (h : getJobData env db j nodes d raw forceAggregate = .ok data) :
    collect env.metricOrder (metricTask env db j nodes d raw forceAggregate) (db.jobMetrics j) =
        .ok data.metricData ∧
      collect env.quantileOrder (quantileTask env db j d)
        (if j.isRunning then [] else db.jobMetrics j) = .ok data.quantileData ∧
      data.metadata = j := by
  obtain ⟨metricData, hmetric, h⟩ := bind_eq_ok_iff.1 h
  obtain ⟨quantileData, hquantile, h⟩ := bind_eq_ok_iff.1 h
  cases h
  exact ⟨hmetric, hquantile, rfl⟩

/-- **Data without an error is complete exactly when nothing failed.** -/
theorem getJobData_complete_iff
    (h : getJobData env db j nodes d raw forceAggregate = .ok data) :
    data.Complete db j ↔ QueriesSucceed env db j nodes d raw forceAggregate := by
  obtain ⟨hmetric, hquantile, -⟩ := getJobData_eq_ok h
  have hm : (data.metricData.map MetricData.config).Perm (db.jobMetrics j) ↔
      ∀ m ∈ db.jobMetrics j,
        (metricTask env db j nodes d raw forceAggregate m).isOk = true :=
    perm_map_collect_iff (fun _ _ => config_of_metricTask) hmetric
  have hq : (j.isRunning = false →
        (data.quantileData.map QuantileData.config).Perm (db.jobMetrics j)) ↔
      (j.isRunning = false → ∀ m ∈ db.jobMetrics j, (quantileTask env db j d m).isOk = true) := by
    refine imp_congr_right fun hrun => ?_
    rw [hrun, if_neg (by simp)] at hquantile
    exact perm_map_collect_iff (fun _ _ => config_of_quantileTask) hquantile
  exact and_congr hm hq

theorem getJobDataOf_nodesOf :
    getJobDataOf env db j (LRUCache.nodesOf j) d raw =
      getJobData env db j j.nodeList d raw false := by
  unfold getJobDataOf LRUCache.nodesOf
  by_cases hone : j.numNodes = 1
  · rw [if_pos hone]
    by_cases hempty : j.nodeList = ""
    · rw [if_pos hempty]
    · rw [if_neg hempty]
  · rw [if_neg hone, if_pos rfl]

end JobData

/-! ## What is kept -/

/-- What the cache keeps after a miss is complete exactly when nothing failed. -/
theorem cached_complete_iff {env : Environment} {db : InfluxDB} {c c' : LRUCache}
    {j : JobMetadata} {d : Go.Duration} {data : JobData} (hmiss : c.cached j.id = none)
    (h : c.get (toDB env db) j d = (.ok data, c')) :
    { id := j.id, data } ∈ c'.list ∧
      (data.Complete db j ↔ QueriesSucceed env db j j.nodeList d false false) := by
  rw [LRUCache.get, LRUCache.find_of_not_cached hmiss] at h
  simp only at h
  cases hdb : (toDB env db).getJobData j (LRUCache.nodesOf j) d false with
  | error e =>
    rw [hdb] at h
    cases h
  | ok loaded =>
    rw [hdb] at h
    simp only at h
    cases hput : c.put { id := j.id, data := loaded } with
    | none =>
      rw [hput] at h
      cases h
    | some kept =>
      rw [hput] at h
      cases h
      refine ⟨?_, getJobData_complete_iff (getJobDataOf_nodesOf.symm.trans hdb)⟩
      unfold LRUCache.put at hput
      split at hput
      · split at hput
        · cases hput
        · cases hput
          exact List.mem_cons_self
      · cases hput
        exact List.mem_cons_self

/-- The `Data` computed for a stopped job is complete: an entry for every metric,
and the change points of the entries taken from complete data. -/
def StoredComplete (env : Environment) (db : InfluxDB) (j : JobMetadata)
    (data : List JobMetadataData) : Prop :=
  (data.map JobMetadataData.config).Perm (db.jobMetrics j) ∧
    ∀ s aggData, Go.parseDuration db.defaultSampleInterval = some s →
      getJobData env db j j.nodeList (j.calculateSampleIntervals env.now s).2 false true =
        .ok aggData → aggData.Complete db j

/-- Every query behind the `Data` of a stopped job succeeds. -/
def MetadataQueriesSucceed (env : Environment) (db : InfluxDB) (j : JobMetadata) : Prop :=
  (∀ m ∈ db.jobMetrics j, (metadataTask env db j m).isOk = true) ∧
    ∀ s, Go.parseDuration db.defaultSampleInterval = some s →
      QueriesSucceed env db j j.nodeList (j.calculateSampleIntervals env.now s).2 false true

/-- The parts of a computation of metadata metrics that went through. -/
theorem getJobMetadataMetrics_eq_ok {env : Environment} {db : InfluxDB} {j : JobMetadata}
    {data : List JobMetadataData} (h : getJobMetadataMetrics env db j = .ok data) :
    ∃ means s aggData, getMetadataData env db j = .ok means ∧
      Go.parseDuration db.defaultSampleInterval = some s ∧
      getJobData env db j j.nodeList (j.calculateSampleIntervals env.now s).2 false true =
        .ok aggData ∧
      data.map JobMetadataData.config = means.map JobMetadataData.config := by
  unfold getJobMetadataMetrics at h
  by_cases hrun : j.isRunning = true
  · rw [if_pos hrun] at h
    cases h
  rw [if_neg hrun] at h
  by_cases htime : j.stopTime ≤ j.startTime
  · rw [if_pos htime] at h
    cases h
  rw [if_neg htime] at h
  obtain ⟨means, hmeans, h⟩ := bind_eq_ok_iff.1 h
  cases hdur : Go.parseDuration db.defaultSampleInterval with
  | none =>
    rw [hdur] at h
    cases h
  | some s =>
    simp only [hdur] at h
    obtain ⟨aggData, hagg, h⟩ := bind_eq_ok_iff.1 h
    obtain ⟨cps, -, h⟩ := bind_eq_ok_iff.1 h
    cases h
    refine ⟨means, s, aggData, hmeans, rfl, hagg, ?_⟩
    rw [List.map_map]
    rfl

/-- What is computed for a stopped job is complete exactly when nothing failed. -/
theorem getJobMetadataMetrics_complete_iff {env : Environment} {db : InfluxDB} {j : JobMetadata}
    {data : List JobMetadataData} (h : getJobMetadataMetrics env db j = .ok data) :
    StoredComplete env db j data ↔ MetadataQueriesSucceed env db j := by
  obtain ⟨means, s, aggData, hmeans, hdur, hagg, hconfigs⟩ := getJobMetadataMetrics_eq_ok h
  have hentries : (data.map JobMetadataData.config).Perm (db.jobMetrics j) ↔
      ∀ m ∈ db.jobMetrics j, (metadataTask env db j m).isOk = true := by
    rw [hconfigs]
    exact perm_map_collect_iff (fun _ _ => config_of_metadataTask) hmeans
  refine and_congr hentries ?_
  constructor
  · intro hall s' hs'
    cases hdur.symm.trans hs'
    exact (getJobData_complete_iff hagg).1 (hall s aggData hs' hagg)
  · intro hall s' aggData' hs' hagg'
    exact (getJobData_complete_iff hagg').2 (hall s' hs')

/-- What a stop writes to the store is complete exactly when nothing failed. -/
theorem stored_complete_iff {env : Environment} {db : InfluxDB} {s s' : Store} {id : ℤ}
    {j : JobMetadata} {stop : StopJob} (hj : s.getJob id = some j)
    (h : s.stopJob (toDB env db) {} id stop = (.ok (), s')) :
    ∃ data, s'.getJob id = some { j.stopped stop with data } ∧
      (StoredComplete env db (j.stopped stop) data ↔
        MetadataQueriesSucceed env db (j.stopped stop)) := by
  cases hdb : (toDB env db).getJobMetadataMetrics (j.stopped stop) with
  | error e =>
    rw [Store.stopJob_of_error hj hdb] at h
    cases h
  | ok data =>
    rw [Store.stopJob_of_ok hj hdb] at h
    cases h
    have hmetrics : getJobMetadataMetrics env db (j.stopped stop) = .ok data := hdb
    exact ⟨data, Store.getJob_updateJob_stopped hj data,
      getJobMetadataMetrics_complete_iff hmetrics⟩

/-- **Success and completeness.**  Data that is returned without an error, kept by
the cache or written to the store has one entry per metric exactly when every
query behind it was answered and every answer could be parsed. -/
theorem success_complete_iff (env : Environment) (db : InfluxDB) :
    (∀ j nodes d raw forceAggregate data,
      getJobData env db j nodes d raw forceAggregate = .ok data →
        (data.Complete db j ↔ QueriesSucceed env db j nodes d raw forceAggregate)) ∧
    (∀ (c c' : LRUCache) j d data, c.cached j.id = none →
      c.get (toDB env db) j d = (.ok data, c') →
        { id := j.id, data } ∈ c'.list ∧
          (data.Complete db j ↔ QueriesSucceed env db j j.nodeList d false false)) ∧
    (∀ (s s' : Store) id j stop, s.getJob id = some j →
      s.stopJob (toDB env db) {} id stop = (.ok (), s') →
        ∃ data, s'.getJob id = some { j.stopped stop with data } ∧
          (StoredComplete env db (j.stopped stop) data ↔
            MetadataQueriesSucceed env db (j.stopped stop))) :=
  ⟨fun _ _ _ _ _ _ h => getJobData_complete_iff h,
    fun _ _ _ _ _ hmiss h => cached_complete_iff hmiss h,
    fun _ _ _ _ _ hj h => stored_complete_iff hj h⟩

/-! ## A query that times out -/

/-- A server that answers no query. -/
def timeoutEnvironment : Environment :=
  { api :=
      { query := fun _ => .error (.error "timeout")
        queryRaw := fun _ => .error (.error "timeout") }
    now := 0 }

/-- One partition with one metric. -/
def oneMetricDB : InfluxDB :=
  { bucketName := "b"
    metrics := ⟨[("g", { guid := "g", measurement := "cpu_load" })], by decide⟩
    partitionConfig := ⟨[("p", { metrics := ["g"] })], by decide⟩
    defaultSampleInterval := "30s" }

/-- A finished job in this partition. -/
def finishedJob : JobMetadata :=
  { id := 1, nodeList := "n1", numNodes := 1, startTime := 0, stopTime := 600, partition := "p" }

/-- Both queries for the job fail, no error is reported, and the cache keeps data
without any metric. -/
theorem timeout_reported_as_success :
    getJobData timeoutEnvironment oneMetricDB finishedJob "n1" (30 * Go.second) false false =
        .ok { metadata := finishedJob } ∧
      ¬ JobData.Complete oneMetricDB finishedJob { metadata := finishedJob } ∧
      LRUCache.get (toDB timeoutEnvironment oneMetricDB) { size := 1 } finishedJob
          (30 * Go.second) =
        (.ok { metadata := finishedJob },
          { size := 1, list := [{ id := 1, data := { metadata := finishedJob } }] }) := by
  refine ⟨rfl, ?_, rfl⟩
  rintro ⟨hmetric, -⟩
  have hlen : ([] : List MetricConfig).length = (oneMetricDB.jobMetrics finishedJob).length :=
    hmetric.length_eq
  rw [show (oneMetricDB.jobMetrics finishedJob).length = 1 by decide] at hlen
  cases hlen

/-- The finished job, still running. -/
def unfinishedJob : JobMetadata := { finishedJob with isRunning := true, stopTime := 0 }

/-- A store with this job only. -/
def unfinishedStore : Store := { jobMetadata := ⟨[unfinishedJob], by decide⟩ }

theorem success_complete_iff_oneMetric :
    (JobData.Complete oneMetricDB finishedJob { metadata := finishedJob } ↔
      QueriesSucceed timeoutEnvironment oneMetricDB finishedJob "n1" (30 * Go.second) false
        false) ∧
    (JobData.Complete oneMetricDB finishedJob { metadata := finishedJob } ↔
      QueriesSucceed timeoutEnvironment oneMetricDB finishedJob "n1" (30 * Go.second) false
        false) ∧
    ∃ data, (unfinishedStore.stopJob (toDB timeoutEnvironment oneMetricDB) {} 1
        { stopTime := 600 }).2.getJob 1 =
          some { unfinishedJob.stopped { stopTime := 600 } with data } ∧
      (StoredComplete timeoutEnvironment oneMetricDB (unfinishedJob.stopped { stopTime := 600 })
          data ↔
        MetadataQueriesSucceed timeoutEnvironment oneMetricDB
          (unfinishedJob.stopped { stopTime := 600 })) := by
  obtain ⟨hdata, hcache, hstore⟩ := success_complete_iff timeoutEnvironment oneMetricDB
  refine ⟨hdata finishedJob "n1" (30 * Go.second) false false _ rfl,
    (hcache { size := 1 } _ finishedJob (30 * Go.second) _ rfl rfl).2, ?_⟩
  exact hstore unfinishedStore _ 1 unfinishedJob { stopTime := 600 } rfl rfl

end JobMon
