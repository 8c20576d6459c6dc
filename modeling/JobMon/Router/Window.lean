import JobMon.Influx.Issued
import JobMon.Router.Read

/-!
# The time window of a request

Which queries a request about a job leads to, and whether their time range stays
inside the life of the job.

* `JobDataCall.queries`, `MetricCall.queries`, `loadMetricsQueries` — the queries;
  `getJob_congr`, `getMetric_congr` and `loadMetrics_congr` say that there are no
  others.
* `lastHour_inside_iff`, `loadMetricsRecord_inside_iff` — when the range stays
  inside.
* `queried_window_not_inside` — a job that has just started, and one that has ended.
-/

namespace JobMon

open Keyed InfluxDB

/-! ## The queries of a request -/

/-- The queries behind a call of `GetJob`, when it is not served from the cache. -/
def JobDataCall.queries (db : InfluxDB) (call : JobDataCall) : List (Option FluxQuery) :=
  db.sent call.record (if call.nodes = "" then call.record.nodeList else call.nodes)
    call.sampleInterval call.raw false

/-- The query behind a call of `GetMetric`. -/
def MetricCall.queries (db : InfluxDB) (call : MetricCall) : List (Option FluxQuery) :=
  [db.aggregateQuery call.metric call.record call.record.nodeList call.aggFn call.sampleInterval]

/-- The queries behind a `LoadMetrics` message. -/
def loadMetricsQueries (now : ℤ) (b : Backend) (conn : LiveConnection) (startTime stopTime : ℤ) :
    List (Option FluxQuery) :=
  let (record, bestInterval) := loadMetricsCall now b conn startTime stopTime
  b.db.sent record record.nodeList bestInterval false false

/-- What a call that `GetJob` makes is about. -/
theorem getJobCall_eq_ok {now : ℤ} {b : Backend} {user : UserInfo} {req : GetJobRequest}
    {call : JobDataCall} (h : getJobCall now b user req = .ok call) :
    ∃ id, Go.atoi req.id = .ok id ∧ b.store.getJob id = some call.job ∧
      mayAccess user call.job = true ∧
      (req.node = "" ∨ nodesBelong call.job req.node = true) ∧
      call.record = lastHour now call.job ∧
      call.nodes = (if call.job.isRunning then "" else req.node) ∧
      (call.throughCache = true → req.node = "" ∧ call.job.isRunning = false ∧
        req.raw = false ∧ call.sampleInterval =
          (call.job.calculateSampleIntervals now b.sampleInterval).2) ∧
      call.raw = req.raw := by
  unfold getJobCall at h
  cases hid : Go.atoi req.id with
  | error e =>
    rw [hid] at h
    cases h
  | ok id =>
    simp only [hid] at h
    cases hj : b.store.getJob id with
    | none =>
      rw [hj] at h
      cases h
    | some j =>
      simp only [hj] at h
      split at h
      · cases h
      · rename_i haccess
        split at h
        · cases h
        · rename_i hnode
          cases h
          refine ⟨id, rfl, hj, by simpa using haccess, ?_, rfl, rfl, ?_, rfl⟩
          · by_cases hempty : req.node = ""
            · exact Or.inl hempty
            · right
              by_contra hbelong
              exact hnode ⟨hempty, by simpa using hbelong⟩
          · intro hcache
            obtain ⟨hnode, hinterval, hrun, hraw⟩ := of_decide_eq_true hcache
            exact ⟨hnode, hrun, hraw, if_pos hinterval⟩

theorem getMetricCall_eq_ok {now : ℤ} {b : Backend} {user : UserInfo} {req : GetMetricRequest}
    {call : MetricCall} (h : getMetricCall now b user req = .ok call) :
    ∃ id, Go.atoi req.id = .ok id ∧ b.store.getJob id = some call.job ∧
      mayAccess user call.job = true ∧ call.record = lastHour now call.job ∧
      (b.config.metrics.find? fun c => c.guid = req.metric) = some call.metric ∧
      call.aggFn = req.aggFn ∧ req.aggFn ≠ "" := by
  unfold getMetricCall at h
  split at h
  · cases h
  split at h
  · cases h
  rename_i haggFn
  cases hid : Go.atoi req.id with
  | error e =>
    rw [hid] at h
    cases h
  | ok id =>
    simp only [hid] at h
    cases hj : b.store.getJob id with
    | none =>
      rw [hj] at h
      cases h
    | some j =>
      simp only [hj] at h
      split at h
      · cases h
      · rename_i haccess
        cases hmetric : b.config.metrics.find? fun c => c.guid = req.metric with
        | none =>
          rw [hmetric] at h
          cases h
        | some metric =>
          rw [hmetric] at h
          cases h
          exact ⟨id, rfl, hj, by simpa using haccess, rfl, rfl, rfl, haggFn⟩

/-! ## There are no other queries -/

section Congruence

variable {env : Environment} {api' : FluxAPI} {b : Backend} {user : UserInfo}

/-- Through the cache the queries are those for all nodes of the job. -/
theorem queries_of_throughCache {req : GetJobRequest} {call : JobDataCall} {now : ℤ}
    (hcall : getJobCall now b user req = .ok call) (hthrough : call.throughCache = true) :
    call.queries b.db = b.db.sent call.record
      (if LRUCache.nodesOf call.record = "" then call.record.nodeList
        else LRUCache.nodesOf call.record) call.sampleInterval false false := by
  obtain ⟨id, -, -, -, -, hrecord, hnodes, hcache, hraw⟩ := getJobCall_eq_ok hcall
  obtain ⟨hnode, hrun, hrawFalse, -⟩ := hcache hthrough
  have hempty : call.nodes = "" := by rw [hnodes, hrun, hnode]; rfl
  have hall : (if LRUCache.nodesOf call.record = "" then call.record.nodeList
      else LRUCache.nodesOf call.record) = call.record.nodeList := by
    unfold LRUCache.nodesOf
    by_cases hone : call.record.numNodes = 1
    · simp [hone]
    · simp [hone]
  rw [JobDataCall.queries, hempty, if_pos rfl, hraw, hrawFalse, hall]

theorem run_congr {req : GetJobRequest} {call : JobDataCall}
    (hcall : getJobCall env.now b user req = .ok call)
    (h : env.api.AgreeOn api' (call.queries b.db)) :
    call.run env b = call.run (env.withAPI api') b := by
  unfold JobDataCall.run
  cases hthrough : call.throughCache with
  | false =>
    simp only [Bool.false_eq_true, if_false]
    rw [getJobDataOf_congr h]
  | true =>
    rw [queries_of_throughCache hcall hthrough] at h
    have hsame : (toDB env b.db).getJobData call.record (LRUCache.nodesOf call.record)
        call.sampleInterval false = (toDB (env.withAPI api') b.db).getJobData call.record
        (LRUCache.nodesOf call.record) call.sampleInterval false := getJobDataOf_congr h
    simp only [if_true, LRUCache.get, hsame]

/-- The answer of `GetJob` depends on the server through the queries of its call
only. -/
theorem getJob_congr {req : GetJobRequest}
    (h : ∀ call, getJobCall env.now b user req = .ok call →
      env.api.AgreeOn api' (call.queries b.db)) :
    getJob env b user req = getJob (env.withAPI api') b user req := by
  cases hcall : getJobCall env.now b user req with
  | error response =>
    have hcall' : getJobCall (env.withAPI api').now b user req = .error response := hcall
    simp only [getJob, hcall, hcall']
  | ok call =>
    have hcall' : getJobCall (env.withAPI api').now b user req = .ok call := hcall
    simp only [getJob, hcall, hcall', run_congr hcall (h call hcall)]

theorem getMetric_congr {req : GetMetricRequest}
    (h : ∀ call, getMetricCall env.now b user req = .ok call →
      env.api.AgreeOn api' (call.queries b.db)) :
    getMetric env b user req = getMetric (env.withAPI api') b user req := by
  cases hcall : getMetricCall env.now b user req with
  | error response =>
    have hcall' : getMetricCall (env.withAPI api').now b user req = .error response := hcall
    simp only [getMetric, hcall, hcall']
  | ok call =>
    have hcall' : getMetricCall (env.withAPI api').now b user req = .ok call := hcall
    simp only [getMetric, hcall, hcall', getMetricDataWithAggFn_congr (h call hcall)]

theorem loadMetrics_congr {conn : LiveConnection} {startTime stopTime : ℤ}
    (h : env.api.AgreeOn api' (loadMetricsQueries env.now b conn startTime stopTime)) :
    loadMetrics env b conn (.loadMetrics startTime stopTime) =
      loadMetrics (env.withAPI api') b conn (.loadMetrics startTime stopTime) := by
  have hsame := @getJobDataOf_congr b.db (loadMetricsCall env.now b conn startTime stopTime).1 ""
    (loadMetricsCall env.now b conn startTime stopTime).2 false env api' h
  simp only [loadMetrics, Environment.withAPI] at hsame ⊢
  rw [hsame]

end Congruence

/-! ## Inside the life of a job -/

/-- Where the life of a job ends: now, while it is running. -/
def JobMetadata.lifetimeEnd (now : ℤ) (j : JobMetadata) : ℤ :=
  if j.isRunning then now else j.stopTime

/-- The time range of the queries about a record stays inside the life of the job. -/
def WindowInside (now : ℤ) (j record : JobMetadata) : Prop :=
  ∀ r, queryRange record = some r → j.startTime ≤ r.1 ∧ r.2 ≤ j.lifetimeEnd now

theorem windowInside_iff {now : ℤ} {j record : JobMetadata} :
    WindowInside now j record ↔
      (0 ≤ record.startTime ∧ record.startTime < record.stopTime →
        j.startTime ≤ record.startTime ∧ record.stopTime ≤ j.lifetimeEnd now) := by
  constructor
  · intro h hbuilt
    exact h (record.startTime, record.stopTime) (queryRange_eq_some_iff.2 ⟨hbuilt, rfl⟩)
  · intro h r hr
    obtain ⟨hbuilt, rfl⟩ := queryRange_eq_some_iff.1 hr
    exact h hbuilt

/-- **The last hour of a running job** reaches back before its start, unless it has
been running for an hour. -/
theorem lastHour_inside_iff (now : ℤ) (j : JobMetadata) :
    WindowInside now j (lastHour now j) ↔
      j.isRunning = false ∨ j.startTime ≤ now - 3600 ∨ now < 3600 := by
  rw [windowInside_iff, lastHour, JobMetadata.lifetimeEnd]
  cases hrun : j.isRunning with
  | false => simp
  | true =>
    simp only [if_true, Bool.true_eq_false, false_or]
    omega

/-- **The window of a message** stays inside when its end does, or when no query is
built for it. -/
theorem loadMetricsRecord_inside_iff {now startTime stopTime : ℤ} {j live : JobMetadata}
    (hstart : live.startTime = j.startTime) :
    WindowInside now j (loadMetricsRecord live startTime stopTime) ↔
      stopTime ≤ j.lifetimeEnd now ∨ stopTime ≤ max j.startTime startTime ∨
        max j.startTime startTime < 0 := by
  have hmax : (loadMetricsRecord live startTime stopTime).startTime =
      max j.startTime startTime := by
    rw [loadMetricsRecord, hstart]
    by_cases hle : j.startTime ≤ startTime
    · rw [if_pos hle, max_eq_right hle]
    · rw [if_neg hle, max_eq_left (by omega)]
  rw [windowInside_iff, hmax]
  show (0 ≤ max j.startTime startTime ∧ max j.startTime startTime < stopTime →
    j.startTime ≤ max j.startTime startTime ∧ stopTime ≤ j.lifetimeEnd now) ↔ _
  omega

/-! ## What the queries ask for -/

/-- All these queries have the time range of the record. -/
def AskFor (record : JobMetadata) (queries : List (Option FluxQuery)) : Prop :=
  ∀ q, some q ∈ queries → queryRange record = some q.range

theorem JobDataCall.askFor (db : InfluxDB) (call : JobDataCall) :
    AskFor call.record (call.queries db) := fun _ hq => (about_of_mem_sent hq).range

theorem MetricCall.askFor (db : InfluxDB) (call : MetricCall) :
    AskFor call.record (call.queries db) := fun _ hq =>
  (about_aggregateQuery (List.mem_singleton_self _) (List.mem_singleton.1 hq).symm).range

theorem loadMetrics_askFor (now : ℤ) (b : Backend) (conn : LiveConnection)
    (startTime stopTime : ℤ) :
    AskFor (loadMetricsRecord conn.job startTime stopTime)
      (loadMetricsQueries now b conn startTime stopTime) := fun _ hq =>
  (about_of_mem_sent hq).range

/-! ## A job that has just started -/

/-- One partition with one metric. -/
def oneMetricConfig : Configuration :=
  { dbBucket := "b"
    sampleInterval := "30s"
    cacheSize := 1
    metrics := [{ guid := "g", measurement := "cpu_load" }]
    partitions := ⟨[("p", { metrics := ["g"] })], List.nodup_singleton "p"⟩ }

/-- A job that started a minute before the time 10000. -/
def newJob : JobMetadata :=
  { id := 1, userName := "u", nodeList := "n1", numNodes := 1, startTime := 9940
    isRunning := true, partition := "p" }

/-- A job that ran from 600 to 1200. -/
def oldJob : JobMetadata :=
  { id := 2, userName := "u", nodeList := "n1", numNodes := 1, startTime := 600, stopTime := 1200
    partition := "p" }

/-- A backend with these two jobs. -/
def twoJobsBackend : Backend :=
  .start oneMetricConfig { jobMetadata := ⟨[newJob, oldJob], by decide⟩ }

/-- For the job that has just started, `GetJob` and `GetMetric` ask for what was
measured on its node since the time 6400; for the job that has ended, a message
gets what was measured afterwards. -/
theorem queried_window_not_inside :
    (∃ call q, getJobCall 10000 twoJobsBackend { username := "u" } { id := "1" } = .ok call ∧
      call.job = newJob ∧ some q ∈ call.queries twoJobsBackend.db ∧ q.range = (6400, 10000)) ∧
    (∃ call q, getMetricCall 10000 twoJobsBackend { username := "u" }
        { id := "1", metric := "g", aggFn := "max" } = .ok call ∧
      call.job = newJob ∧ some q ∈ call.queries twoJobsBackend.db ∧ q.range = (6400, 10000)) ∧
    (∃ q, some q ∈ loadMetricsQueries 10000 twoJobsBackend { job := oldJob } 600 9000 ∧
      q.range = (600, 9000)) ∧
    ¬ (newJob.startTime ≤ 6400) ∧ ¬ (9000 ≤ oldJob.lifetimeEnd 10000) := by
  refine ⟨⟨_, _, rfl, rfl, List.mem_cons_self, rfl⟩, ⟨_, _, rfl, rfl, List.mem_cons_self, rfl⟩,
    ⟨_, List.mem_cons_self, rfl⟩, by decide, by decide⟩

end JobMon
