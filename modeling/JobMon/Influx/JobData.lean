import JobMon.Influx.Query
import JobMon.Influx.Result

/-!
# Job data from InfluxDB

`influxdb.go` and `analysis.go`: which queries a job needs, and what is made of
their answers.

* `Environment` — everything outside the code that decides what happens: the
  answers of the server, the clock, the order in which goroutines finish, and
  the change point library.
* `collect` — what a group of goroutines leaves in the slice they all append to.
* `perm_map_collect_iff` — such a group drops nothing exactly when all of it
  succeeds.

Goroutines that append to one slice are run one after the other, in an order the
environment chooses.  A panic in any of them ends the process.
-/

namespace JobMon

open Keyed

/-! ## The environment -/

/-- An order in which the goroutines for a list of items finish. -/
structure Schedule (α : Type) where
  order : List α → List α
  perm : ∀ l, (order l).Perm l

/-- The goroutines finish in the order they were started. -/
def Schedule.inOrder {α : Type} : Schedule α := ⟨id, fun _ => List.Perm.refl _⟩

/-- The query API of the client library: the answer to a query text. -/
structure FluxAPI where
  query : String → Result QueryTableResult
  queryRaw : String → Result String

/-- What happens outside the code while a request is served. -/
structure Environment where
  api : FluxAPI
  /-- `time.Now().Unix()`. -/
  now : ℤ
  metricOrder : Schedule MetricConfig := Schedule.inOrder
  quantileOrder : Schedule MetricConfig := Schedule.inOrder
  metadataOrder : Schedule MetricConfig := Schedule.inOrder
  lastOrder : Schedule MetricConfig := Schedule.inOrder
  changePointOrder : Schedule MetricData := Schedule.inOrder
  /-- `changepoint.NonParametric`. -/
  nonParametric : List Float64 → List ℕ := fun _ => []

/-- The methods of the `DB` interface that return data. -/
structure DB where
  getJobData : JobMetadata → String → Go.Duration → Bool → Result JobData
  getJobMetadataMetrics : JobMetadata → Result (List JobMetadataData)
  getMetricDataWithAggFn :
    JobMetadata → MetricConfig → String → Go.Duration → Result MetricData

/-- What `InfluxDB` holds of the configuration. -/
structure InfluxDB where
  bucketName : String := ""
  metrics : Map String MetricConfig := Table.empty
  partitionConfig : Map String PartitionConfig := Table.empty
  defaultSampleInterval : String := ""
  metricQuantiles : List String := []
  deriving DecidableEq

namespace InfluxDB

/-- `InfluxDB.Init`, as far as it is about the configuration; its Fatal checks are
`Configuration.Startable`. -/
def init (c : Configuration) : InfluxDB :=
  { bucketName := c.dbBucket
    metrics := c.metrics.foldl (fun metrics mc => metrics.upsert (mc.guid, mc)) Table.empty
    partitionConfig := c.partitions
    defaultSampleInterval := c.sampleInterval
    metricQuantiles := c.metricQuantiles }

variable (env : Environment) (db : InfluxDB)

/-- `db.metrics[guid]`: a GUID that is not configured yields an empty metric. -/
def metric (guid : String) : MetricConfig := (db.metrics.lookup guid).getD {}

/-- `getPartition`: the first virtual partition that holds all nodes of the job,
else the partition itself. -/
def getPartition (j : JobMetadata) : BasePartitionConfig :=
  let pc := (db.partitionConfig.lookup j.partition).getD {}
  let nodes := Go.split j.nodeList '|'
  match pc.virtualPartitions.rows.find? fun vp =>
      nodes.all fun n => Utils.contains vp.2.nodes n with
  | some vp => vp.2.toBasePartitionConfig
  | none => pc.toBasePartitionConfig

/-- The metrics of the partition of a job. -/
def jobMetrics (j : JobMetadata) : List MetricConfig := (db.getPartition j).metrics.map db.metric

/-! ## Single queries -/

/-- The measurement an aggregation task writes. -/
def aggregateMeasurement (measurement aggFn : String) : String :=
  if aggFn ≠ "" then measurement ++ "_" ++ aggFn else measurement

/-- The query of `querySimpleMeasurement` and `querySimpleMeasurementRaw`. -/
def simpleQuery (metric : MetricConfig) (j : JobMetadata) (nodes : String)
    (sampleInterval : Go.Duration) : Option FluxQuery :=
  createSimpleMeasurementQuery db.bucketName j.startTime j.stopTime metric.measurement metric.type
    nodes sampleInterval metric.filterFunc metric.postQueryOp

/-- The query of `queryAggregateMeasurement` and `queryAggregateMeasurementRaw`. -/
def aggregateQuery (metric : MetricConfig) (j : JobMetadata) (nodes aggFn : String)
    (sampleInterval : Go.Duration) : Option FluxQuery :=
  createAggregateMeasurementQuery db.bucketName j.startTime j.stopTime
    (aggregateMeasurement metric.measurement aggFn) nodes sampleInterval metric.filterFunc
    metric.postQueryOp

/-- The query of `queryQuantileMeasurement`: over aggregated values, without the
metric's filter, for a job with more than one node. -/
def quantileQuery (metric : MetricConfig) (j : JobMetadata) (quantiles : List String)
    (sampleInterval : Go.Duration) : Option FluxQuery :=
  if j.numNodes > 1 then
    createQuantileMeasurementQuery db.bucketName j.startTime j.stopTime
      (aggregateMeasurement metric.measurement metric.aggFn) j.nodeList sampleInterval ""
      metric.postQueryOp quantiles
  else
    createQuantileMeasurementQuery db.bucketName j.startTime j.stopTime metric.measurement
      j.nodeList sampleInterval metric.filterFunc metric.postQueryOp quantiles

/-- The query of `queryMetadataMeasurements`. -/
def metadataQuery (metric : MetricConfig) (j : JobMetadata) : FluxQuery :=
  metadataMeasurementsQuery db.bucketName j.startTime j.stopTime
    (aggregateMeasurement metric.measurement metric.aggFn) j.nodeList metric.filterFunc
    metric.postQueryOp

/-- Which query `query` sends, and the key that separates its series: detailed
data for a single node, unless aggregation is forced, and one series per node
otherwise. -/
def queryFor (metric : MetricConfig) (j : JobMetadata) (nodes : String)
    (sampleInterval : Go.Duration) (forceAggregate : Bool) : Option FluxQuery × String :=
  if Go.count nodes '|' + 1 = 1 ∧ forceAggregate = false then
    (db.simpleQuery metric j nodes sampleInterval, metric.separationKey)
  else if metric.type ≠ "node" then
    (db.aggregateQuery metric j nodes metric.aggFn sampleInterval, "hostname")
  else (db.simpleQuery metric j nodes sampleInterval, "hostname")

/-- `query`. -/
def query (metric : MetricConfig) (j : JobMetadata) (nodes : String)
    (sampleInterval : Go.Duration) (forceAggregate : Bool) :
    Result (Map String (List QueryResult)) := do
  let (q, separationKey) := db.queryFor metric j nodes sampleInterval forceAggregate
  let queryResult ← env.api.query (queryText q)
  parseQueryResult queryResult separationKey

/-- The query `queryRaw` sends. -/
def queryForRaw (metric : MetricConfig) (j : JobMetadata) (node : String)
    (sampleInterval : Go.Duration) (forceAggregate : Bool) : Option FluxQuery :=
  if metric.type ≠ "node" ∧ forceAggregate = true then
    db.aggregateQuery metric j node metric.aggFn sampleInterval
  else db.simpleQuery metric j node sampleInterval

/-- `queryRaw`. -/
def queryRaw (metric : MetricConfig) (j : JobMetadata) (node : String)
    (sampleInterval : Go.Duration) (forceAggregate : Bool) : Result String :=
  env.api.queryRaw (queryText (db.queryForRaw metric j node sampleInterval forceAggregate))

/-! ## Groups of goroutines -/

/-- What the goroutines for `items` leave in the slice they append to: one that
fails appends nothing and its error is only logged. -/
def collect {α β : Type} (schedule : Schedule α) (f : α → Result β) (items : List α) :
    Result (List β) :=
  if items.any fun x => (f x).panics then .error .panic
  else .ok ((schedule.order items).filterMap fun x => (f x).toOption)

/-- The metric goroutine of `getJobData`. -/
def metricTask (j : JobMetadata) (nodes : String) (sampleInterval : Go.Duration) (raw : Bool)
    (forceAggregate : Bool) (metric : MetricConfig) : Result MetricData :=
  if raw then do
    let result ← queryRaw env db metric j nodes sampleInterval forceAggregate
    pure { config := metric, rawData := result }
  else do
    let result ← query env db metric j nodes sampleInterval forceAggregate
    pure { config := metric, data := result }

/-- The quantile goroutine of `getJobData`. -/
def quantileTask (j : JobMetadata) (sampleInterval : Go.Duration) (metric : MetricConfig) :
    Result QuantileData := do
  let tempRes ← env.api.query
    (queryText (db.quantileQuery metric j db.metricQuantiles sampleInterval))
  let result ← parseQueryResult tempRes "_field"
  pure { config := metric, data := result, quantiles := db.metricQuantiles }

/-- `getJobData`.  The error it returns is never set: the goroutines declare
their own. -/
def getJobData (j : JobMetadata) (nodes : String) (sampleInterval : Go.Duration)
    (raw forceAggregate : Bool) : Result JobData := do
  let metrics := db.jobMetrics j
  let metricData ← collect env.metricOrder
    (metricTask env db j nodes sampleInterval raw forceAggregate) metrics
  let quantileData ← collect env.quantileOrder (quantileTask env db j sampleInterval)
    (if j.isRunning then [] else metrics)
  pure { metadata := j, metricData, quantileData }

/-- The mean or the maximum: the value of the `i`-th row, when it is a number. -/
def metadataValue (rows : List QueryResult) (i : ℕ) : Float64 :=
  match rows[i]? with
  | none => {}
  | some row =>
    match column row "_value" with
    | .float v => v
    | _ => {}

/-- The goroutine of `getMetadataData`: zero values when there is no result. -/
def metadataTask (j : JobMetadata) (m : MetricConfig) : Result JobMetadataData := do
  let tempRes ← env.api.query (queryText (some (db.metadataQuery m j)))
  let result ← parseQueryResult tempRes "result"
  match result.lookup "_result" with
  | some res => pure { config := m, mean := metadataValue res 0, max := metadataValue res 1 }
  | none => pure { config := m }

/-- `getMetadataData`. -/
def getMetadataData (j : JobMetadata) : Result (List JobMetadataData) :=
  collect env.metadataOrder (metadataTask env db j) (db.jobMetrics j)

/-! ## Change points -/

/-- The values of a series; `none` when one of them is nil. -/
def seriesValues : List QueryResult → Result (Option (List Float64))
  | [] => .ok (some [])
  | row :: rows =>
    match column row "_value" with
    | .nil => .ok none
    | .float v => do
      let values ← seriesValues rows
      pure (values.map (v :: ·))
    | _ => .error .panic

/-- The time of the `i`-th point of a series. -/
def pointTime (series : List QueryResult) (i : ℕ) : Result Time :=
  match series[i]? with
  | none => .error .panic
  | some row =>
    match column row "_time" with
    | .time t => .ok t
    | _ => .error .panic

/-- The goroutine of `ChangePointDetection` for one metric: it stops at the first
series with a nil value, and a later series overwrites an earlier one. -/
def metricChangePoints (measurement : String) :
    List (String × List QueryResult) → Map String (List Time) → Result (Map String (List Time))
  | [], cps => .ok cps
  | (_, series) :: rest, cps => do
    match ← seriesValues series with
    | none => pure cps
    | some values => do
      let times ← (env.nonParametric values).mapM (pointTime series)
      metricChangePoints measurement rest (cps.upsert (measurement, times))

/-- `ChangePointDetection`. -/
def changePointDetection (data : JobData) : Result (Map String (List Time)) :=
  (env.changePointOrder.order data.metricData).foldlM
    (fun cps m => metricChangePoints env m.config.measurement m.data.rows cps) Table.empty

/-! ## The methods of the interface -/

/-- The error `time.ParseDuration` returns. -/
def invalidDuration (text : String) : Fault :=
  .error ("time: invalid duration " ++ FluxQuery.quoted text)

/-- `GetJobMetadataMetrics`. -/
def getJobMetadataMetrics (j : JobMetadata) : Result (List JobMetadataData) :=
  if j.isRunning then .error (.error "job is still running")
  else if j.stopTime ≤ j.startTime then
    .error (.error "job stop time is less or equal to start")
  else do
    let data ← getMetadataData env db j
    match Go.parseDuration db.defaultSampleInterval with
    | none => .error (invalidDuration db.defaultSampleInterval)
    | some s => do
      let interval := (j.calculateSampleIntervals env.now s).2
      let aggData ← getJobData env db j j.nodeList interval false true
      let cps ← changePointDetection env aggData
      pure (data.map fun d =>
        { d with changePoints := (cps.lookup d.config.measurement).getD [] })

/-- `GetMetricDataWithAggFn`. -/
def getMetricDataWithAggFn (j : JobMetadata) (m : MetricConfig) (aggFn : String)
    (sampleInterval : Go.Duration) : Result MetricData := do
  let tempResult ← env.api.query
    (queryText (db.aggregateQuery m j j.nodeList aggFn sampleInterval))
  let result ← parseQueryResult tempResult "hostname"
  pure { data := result, config := { m with aggFn := aggFn } }

/-- The query of a goroutine of `queryLastDatapoints`, and its separation key. -/
def lastQuery (j : JobMetadata) (sampleInterval : Go.Duration) (m : MetricConfig) :
    Option FluxQuery × String :=
  if j.numNodes = 1 then (db.simpleQuery m j j.nodeList sampleInterval, m.separationKey)
  else (db.aggregateQuery m j j.nodeList m.aggFn sampleInterval, "hostname")

/-- The metric a goroutine of `queryLastDatapoints` works with. -/
def lastMetric (m : MetricConfig) : MetricConfig :=
  { m with postQueryOp := m.postQueryOp ++ "|> last()" }

/-- The goroutine of `queryLastDatapoints`. -/
def lastTask (j : JobMetadata) (sampleInterval : Go.Duration) (m : MetricConfig) :
    Result MetricData := do
  let (q, separationKey) := db.lastQuery j sampleInterval (lastMetric m)
  let queryResult ← env.api.query (queryText q)
  let result ← parseQueryResult queryResult separationKey
  pure { config := lastMetric m, data := result }

/-- The record `queryLastDatapoints` asks for. -/
def lastRecord (now : ℤ) (j : JobMetadata) : JobMetadata :=
  if j.isRunning then { j with stopTime := now } else j

/-- `queryLastDatapoints`.  Its goroutines share one error variable, so what counts
is whether the query of the last one failed; without metrics it is the error of
the sample interval. -/
def queryLastDatapoints (job : JobMetadata) : Result (List MetricData) := do
  let j := lastRecord env.now job
  let interval := Go.parseDuration db.defaultSampleInterval
  let sampleInterval := interval.getD (30 * Go.second)
  let metrics := db.jobMetrics j
  let metricData ← collect env.lastOrder (lastTask env db j sampleInterval) metrics
  match (env.lastOrder.order metrics).getLast? with
  | some m => do
    let _ ← env.api.query (queryText (db.lastQuery j sampleInterval (lastMetric m)).1)
    pure metricData
  | none =>
    if interval.isSome then pure metricData
    else .error (invalidDuration db.defaultSampleInterval)

/-- `GetJobData`: all nodes of the job when none are given. -/
def getJobDataOf (j : JobMetadata) (nodes : String) (sampleInterval : Go.Duration) (raw : Bool) :
    Result JobData :=
  getJobData env db j (if nodes = "" then j.nodeList else nodes) sampleInterval raw false

/-- `InfluxDB` as an implementation of the interface. -/
def toDB : DB :=
  { getJobData := getJobDataOf env db
    getJobMetadataMetrics := getJobMetadataMetrics env db
    getMetricDataWithAggFn := getMetricDataWithAggFn env db }

/-! ## When nothing is dropped -/

section Collect

variable {α β : Type} {schedule : Schedule α} {f : α → Result β} {items : List α} {ys : List β}

theorem collect_eq_ok_iff :
    collect schedule f items = .ok ys ↔
      (∀ x ∈ items, (f x).panics = false) ∧
        ys = (schedule.order items).filterMap fun x => (f x).toOption := by
  unfold collect
  by_cases h : (items.any fun x => (f x).panics) = true
  · rw [if_pos h]
    obtain ⟨x, hx, hp⟩ := List.any_eq_true.1 h
    constructor
    · intro hc
      cases hc
    · intro hc
      rw [hc.1 x hx] at hp
      cases hp
  · rw [if_neg h, Except.ok.injEq]
    have hall : ∀ x ∈ items, (f x).panics = false := by
      intro x hx
      by_contra hp
      exact h (List.any_eq_true.2 ⟨x, hx, by simpa using hp⟩)
    exact ⟨fun hy => ⟨hall, hy.symm⟩, fun hy => hy.2.symm⟩

/-- Such a group fails in one way only. -/
theorem collect_error {e : Fault} (h : collect schedule f items = .error e) : e = .panic := by
  unfold collect at h
  by_cases hp : (items.any fun x => (f x).panics) = true
  · rw [if_pos hp] at h
    cases h
    rfl
  · rw [if_neg hp] at h
    cases h

/-- What the goroutines left belongs to the items that succeeded. -/
theorem map_filterMap_toOption {key : β → α} (hkey : ∀ x y, f x = .ok y → key y = x)
    (l : List α) :
    (l.filterMap fun x => (f x).toOption).map key = l.filter fun x => (f x).isOk := by
  induction l with
  | nil => rfl
  | cons x l ih =>
    cases hx : f x with
    | error e => simpa [hx, Except.toOption, Except.isOk, Except.toBool] using ih
    | ok y => simpa [hx, Except.toOption, Except.isOk, Except.toBool, hkey x y hx] using ih

/-- **A group of goroutines leaves one entry for every item exactly when every
one of them succeeds.** -/
theorem perm_map_collect_iff {key : β → α} (hkey : ∀ x y, f x = .ok y → key y = x)
    (h : collect schedule f items = .ok ys) :
    (ys.map key).Perm items ↔ ∀ x ∈ items, (f x).isOk = true := by
  rw [(collect_eq_ok_iff.1 h).2, map_filterMap_toOption hkey]
  have hperm : ((schedule.order items).filter fun x => (f x).isOk).Perm
      (items.filter fun x => (f x).isOk) := (schedule.perm items).filter _
  constructor
  · intro hp
    have hlen : (items.filter fun x => (f x).isOk).length = items.length := by
      rw [← hperm.length_eq, hp.length_eq]
    exact List.length_filter_eq_length_iff.1 hlen
  · intro hall
    rwa [List.filter_eq_self.2 hall] at hperm

/-- **A group of goroutines leaves `g x` for every item `x` exactly when every
one of them yields it.** -/
theorem perm_collect_iff {key : β → α} {g : α → β} (hkey : ∀ x y, f x = .ok y → key y = x)
    (hg : ∀ x, key (g x) = x) :
    (∃ ys, collect schedule f items = .ok ys ∧ ys.Perm (items.map g)) ↔
      ∀ x ∈ items, f x = .ok (g x) := by
  constructor
  · rintro ⟨ys, hys, hperm⟩ x hx
    have hkeys : (ys.map key).Perm items := by
      have hid : key ∘ g = id := funext hg
      have := hperm.map key
      rwa [List.map_map, hid, List.map_id] at this
    have hok := (perm_map_collect_iff hkey hys).1 hkeys x hx
    cases hfx : f x with
    | error e => simp [hfx, Except.isOk, Except.toBool] at hok
    | ok y =>
      have hy : y ∈ ys := by
        rw [(collect_eq_ok_iff.1 hys).2, List.mem_filterMap]
        exact ⟨x, (schedule.perm items).mem_iff.2 hx, by rw [hfx]; rfl⟩
      obtain ⟨x', -, rfl⟩ := List.mem_map.1 (hperm.mem_iff.1 hy)
      rw [← hkey x _ hfx, hg]
  · intro hall
    refine ⟨(schedule.order items).map g, collect_eq_ok_iff.2 ⟨?_, ?_⟩,
      (schedule.perm items).map g⟩
    · intro x hx
      rw [hall x hx]
      rfl
    · rw [← List.filterMap_eq_map]
      refine List.filterMap_congr ?_
      intro x hx
      rw [hall x ((schedule.perm items).mem_iff.1 hx)]
      rfl

end Collect

end InfluxDB

end JobMon
