import JobMon.Config.Update
import JobMon.Influx.Issued

/-!
# Aggregation tasks

`createAggregationTask` and `updateAggregationTasks` of `influxdb.go`: the tasks
that write the aggregated measurements, and the readers that expect them under a
name they put together on their own.

* `DefaultRead` — the queries that read the default aggregation of a metric.
* `exists_task_updateAggregationTasks` — when the task API does not fail, every
  function that can be chosen for a metric has its task, the metric's own one when
  no other metric has the same measurement (`own_task_of_unshared`).
* `aggregatesWritten_iff` — what the readers read by default is written exactly
  when the default function of every metric is one that can be chosen.
* `unlisted_not_aggregatesWritten` — `Init` accepts a configuration where it is
  not.
-/

namespace JobMon

open Keyed

/-! ## The tasks -/

/-- A task of the time-series database, as `createAggregationTask` describes it. -/
structure AggregationTask where
  name : String
  bucket : String
  org : String
  /-- The raw measurement, and the type it is restricted to unless that is empty. -/
  measurement : String
  type : String
  filterFunc : String
  postQueryOp : String
  every : String
  fn : String
  /-- The `_measurement` the task writes. -/
  aggMeasurement : String
  deriving DecidableEq

/-- The script of a task. -/
def AggregationTask.script (t : AggregationTask) : String :=
  "from(bucket: " ++ FluxQuery.quoted t.bucket ++ ")|> range(start: -task.every)" ++
    FluxQuery.columnFilter "_measurement" t.measurement ++
    (if t.type ≠ "" then FluxQuery.columnFilter "type" t.type else "") ++
    t.filterFunc ++ t.postQueryOp ++
    "|> group(columns: [\"_measurement\", \"hostname\"], mode:\"by\")" ++
    "|> aggregateWindow(every: " ++ t.every ++ ", fn: " ++ t.fn ++ ", createEmpty: false)" ++
    "|> group(columns: [\"hostname\"], mode:\"by\")" ++
    "|> keep(columns: [\"hostname\", \"_start\", \"_stop\", \"_time\", \"_value\", \"cluster\"])" ++
    "|> set(key: \"_measurement\", value: " ++ FluxQuery.quoted t.aggMeasurement ++ ")" ++
    "|> set(key: \"_field\", value: " ++ FluxQuery.quoted t.aggMeasurement ++ ")" ++
    "|> to(bucket: " ++ FluxQuery.quoted t.bucket ++ ", org: " ++ FluxQuery.quoted t.org ++ ")"

/-- How the task API behaves during an update. -/
structure TasksAPI where
  findTasksFails : String → Bool := fun _ => false
  createTaskFails : String → Bool := fun _ => false
  /-- The order in which the loop meets the metrics. -/
  order : Schedule MetricConfig := Schedule.inOrder

/-- No call fails. -/
structure TasksAPI.Sound (api : TasksAPI) : Prop where
  findTasks : ∀ name, api.findTasksFails name = false
  createTask : ∀ name, api.createTaskFails name = false

namespace InfluxDB

variable (db : InfluxDB) (org : String)

/-- The name of an aggregation task. -/
def aggTaskName (metric : MetricConfig) (aggFn : String) : String :=
  db.bucketName ++ "_" ++ metric.measurement ++ "_" ++ aggFn

/-- `createAggregationTask`: the task that is created. -/
def createAggregationTask (metric : MetricConfig) (aggFn : String) : AggregationTask :=
  { name := db.aggTaskName metric aggFn
    bucket := db.bucketName
    org
    measurement := metric.measurement
    type := metric.type
    filterFunc := metric.filterFunc
    postQueryOp := metric.postQueryOp
    every := if metric.sampleInterval = "" then db.defaultSampleInterval else metric.sampleInterval
    fn := aggFn
    aggMeasurement := metric.measurement ++ "_" ++ aggFn }

/-- The tasks `createAggregationTask` is asked for on behalf of a metric. -/
def tasksFor (metric : MetricConfig) : List AggregationTask :=
  metric.availableAggFns.map (db.createAggregationTask org metric)

/-- One round of the loop: a task that is missing is created. -/
def updateAggregationTask (api : TasksAPI) (tasks : List AggregationTask)
    (new : AggregationTask) : List AggregationTask :=
  if api.findTasksFails new.name then tasks
  else if (tasks.filter fun t => t.name = new.name).length > 1 then tasks
  else if (tasks.filter fun t => t.name = new.name).length > 0 then tasks
  else if api.createTaskFails new.name then tasks
  else tasks ++ [new]

/-- `updateAggregationTasks`: for each configured metric and each of its
aggregation functions. -/
def updateAggregationTasks (api : TasksAPI) (tasks : List AggregationTask) :
    List AggregationTask :=
  ((api.order.order (db.metrics.rows.map Prod.snd)).flatMap (db.tasksFor org)).foldl
    (updateAggregationTask api) tasks

/-! ## What an update leaves behind -/

/-- The name of a task says what it writes. -/
def TasksNamed (tasks : List AggregationTask) : Prop :=
  ∀ t ∈ tasks, t.name = db.bucketName ++ "_" ++ t.aggMeasurement

variable {db org} {api : TasksAPI} {tasks : List AggregationTask}

theorem mem_updateAggregationTask {new t : AggregationTask}
    (h : t ∈ updateAggregationTask api tasks new) : t ∈ tasks ∨ t = new := by
  unfold updateAggregationTask at h
  split at h
  · exact Or.inl h
  split at h
  · exact Or.inl h
  split at h
  · exact Or.inl h
  split at h
  · exact Or.inl h
  rcases List.mem_append.1 h with h | h
  · exact Or.inl h
  · exact Or.inr (List.mem_singleton.1 h)

/-- A round keeps the tasks there are, and without failures the one it is about is
there afterwards. -/
theorem subset_updateAggregationTask (new : AggregationTask) :
    tasks ⊆ updateAggregationTask api tasks new := by
  unfold updateAggregationTask
  repeat' split
  all_goals simp

theorem exists_updateAggregationTask (hapi : api.Sound) (new : AggregationTask) :
    ∃ t ∈ updateAggregationTask api tasks new, t.name = new.name := by
  unfold updateAggregationTask
  rw [if_neg (by simp [hapi.findTasks])]
  by_cases hfound : (tasks.filter fun t => t.name = new.name).length > 0
  · obtain ⟨t, ht⟩ := List.exists_mem_of_length_pos hfound
    obtain ⟨hmem, hname⟩ := List.mem_filter.1 ht
    rw [if_pos hfound, ite_self]
    exact ⟨t, hmem, by simpa using hname⟩
  · rw [if_neg (by omega), if_neg hfound, if_neg (by simp [hapi.createTask])]
    exact ⟨new, by simp, rfl⟩

theorem mem_foldl_updateAggregationTask {news : List AggregationTask} {t : AggregationTask}
    (h : t ∈ news.foldl (updateAggregationTask api) tasks) : t ∈ tasks ∨ t ∈ news := by
  induction news generalizing tasks with
  | nil => exact Or.inl h
  | cons new news ih =>
    rcases ih h with h | h
    · rcases mem_updateAggregationTask h with h | rfl
      · exact Or.inl h
      · exact Or.inr List.mem_cons_self
    · exact Or.inr (List.mem_cons_of_mem _ h)

theorem subset_foldl_updateAggregationTask (news : List AggregationTask) :
    tasks ⊆ news.foldl (updateAggregationTask api) tasks := by
  induction news generalizing tasks with
  | nil => exact List.Subset.refl _
  | cons new news ih => exact List.Subset.trans (subset_updateAggregationTask new) ih

theorem exists_foldl_updateAggregationTask (hapi : api.Sound) {news : List AggregationTask}
    {new : AggregationTask} (hnew : new ∈ news) :
    ∃ t ∈ news.foldl (updateAggregationTask api) tasks, t.name = new.name := by
  induction news generalizing tasks with
  | nil => cases hnew
  | cons new' news ih =>
    rcases List.mem_cons.1 hnew with rfl | hnew
    · obtain ⟨t, ht, hname⟩ : ∃ t ∈ updateAggregationTask api tasks new, t.name = new.name :=
        exists_updateAggregationTask hapi new
      exact ⟨t, subset_foldl_updateAggregationTask news ht, hname⟩
    · exact ih hnew

theorem mem_tasksFor_iff {m : MetricConfig} {t : AggregationTask} :
    t ∈ db.tasksFor org m ↔ ∃ f ∈ m.availableAggFns, db.createAggregationTask org m f = t :=
  List.mem_map

theorem name_createAggregationTask (m : MetricConfig) (f : String) :
    (db.createAggregationTask org m f).name =
      db.bucketName ++ "_" ++ (db.createAggregationTask org m f).aggMeasurement := by
  show db.bucketName ++ "_" ++ m.measurement ++ "_" ++ f =
    db.bucketName ++ "_" ++ (m.measurement ++ "_" ++ f)
  simp only [String.append_assoc]

theorem tasksNamed_updateAggregationTasks (h : db.TasksNamed tasks) :
    db.TasksNamed (db.updateAggregationTasks org api tasks) := by
  intro t ht
  rcases mem_foldl_updateAggregationTask ht with ht | ht
  · exact h t ht
  · obtain ⟨m, -, htask⟩ := List.mem_flatMap.1 ht
    obtain ⟨f, -, rfl⟩ := mem_tasksFor_iff.1 htask
    exact name_createAggregationTask m f

/-- **Without failures, every function that can be chosen has its task** after an
update. -/
theorem exists_task_updateAggregationTasks (hapi : api.Sound) (h : db.TasksNamed tasks)
    {p : String × MetricConfig} (hp : p ∈ db.metrics.rows) {f : String}
    (hf : f ∈ p.2.availableAggFns) :
    ∃ t ∈ db.updateAggregationTasks org api tasks, t.name = db.aggTaskName p.2 f ∧
      t.aggMeasurement = p.2.measurement ++ "_" ++ f := by
  have hnew : db.createAggregationTask org p.2 f ∈
      (api.order.order (db.metrics.rows.map Prod.snd)).flatMap (db.tasksFor org) := by
    refine List.mem_flatMap.2 ⟨p.2, ?_, mem_tasksFor_iff.2 ⟨f, hf, rfl⟩⟩
    exact (api.order.perm _).mem_iff.2 (List.mem_map_of_mem hp)
  obtain ⟨t, ht, hname⟩ : ∃ t ∈ db.updateAggregationTasks org api tasks,
      t.name = (db.createAggregationTask org p.2 f).name :=
    exists_foldl_updateAggregationTask hapi hnew
  refine ⟨t, ht, hname, ?_⟩
  have hnamed : db.TasksNamed (db.updateAggregationTasks org api tasks) :=
    tasksNamed_updateAggregationTasks h
  have hwritten := hnamed t ht
  rw [hname, name_createAggregationTask, String.append_right_inj] at hwritten
  exact hwritten.symm

/-- An update adds nothing but tasks of the configured metrics. -/
theorem mem_updateAggregationTasks {t : AggregationTask}
    (h : t ∈ db.updateAggregationTasks org api tasks) :
    t ∈ tasks ∨ ∃ p ∈ db.metrics.rows, ∃ f ∈ p.2.availableAggFns,
      t = db.createAggregationTask org p.2 f := by
  rcases mem_foldl_updateAggregationTask h with h | h
  · exact Or.inl h
  · obtain ⟨m, hm, htask⟩ := List.mem_flatMap.1 h
    obtain ⟨p, hp, rfl⟩ := List.mem_map.1 ((api.order.perm _).mem_iff.1 hm)
    obtain ⟨f, hf, rfl⟩ := mem_tasksFor_iff.1 htask
    exact Or.inr ⟨p, hp, f, hf, rfl⟩

/-- A task name that was not taken, and that no other metric asks for, gets the task of
the metric itself, with its type, its filter and its interval. -/
theorem own_task_of_unshared (hapi : api.Sound) (h : db.TasksNamed tasks)
    {p : String × MetricConfig} (hp : p ∈ db.metrics.rows) {f : String}
    (hf : f ∈ p.2.availableAggFns) (hfree : ∀ t ∈ tasks, t.name ≠ db.aggTaskName p.2 f)
    (hshared : ∀ p' ∈ db.metrics.rows, ∀ f' ∈ p'.2.availableAggFns,
      db.aggTaskName p'.2 f' = db.aggTaskName p.2 f → p'.2 = p.2 ∧ f' = f) :
    db.createAggregationTask org p.2 f ∈ db.updateAggregationTasks org api tasks := by
  obtain ⟨t, ht, hname, -⟩ : ∃ t ∈ db.updateAggregationTasks org api tasks,
      t.name = db.aggTaskName p.2 f ∧ t.aggMeasurement = p.2.measurement ++ "_" ++ f :=
    exists_task_updateAggregationTasks hapi h hp hf
  rcases mem_updateAggregationTasks ht with hold | ⟨p', hp', f', hf', rfl⟩
  · exact absurd hname (hfree t hold)
  · obtain ⟨hmetric, rfl⟩ := hshared p' hp' f' hf' hname
    exact hmetric ▸ ht

-- two metrics of one measurement share the name, and the first one met gets the task
example :
    let load : MetricConfig :=
      { guid := "a", type := "cpu", measurement := "load", availableAggFns := ["sum"] }
    let nodeLoad : MetricConfig := { load with guid := "b", type := "node" }
    let db := init { metrics := [load, nodeLoad] }
    db.updateAggregationTasks "org" {} [] = [db.createAggregationTask "org" load "sum"] := by
  decide

/-! ## The readers -/

/-- A query that reads the default aggregation of a metric: the aggregated branch of
`query`, `queryRaw` and `queryLastDatapoints`, the quantiles of a job with more
than one node, and the metadata of any job. -/
inductive DefaultRead (db : InfluxDB) (m : MetricConfig) (j : JobMetadata) : FluxQuery → Prop
  | query {nodes : String} {d : Go.Duration} {forceAggregate : Bool} {q : FluxQuery}
    (h : (db.queryFor m j nodes d forceAggregate).1 = some q) (hkind : q.kind = .aggregate) :
    DefaultRead db m j q
  | queryRaw {node : String} {d : Go.Duration} {forceAggregate : Bool} {q : FluxQuery}
    (h : db.queryForRaw m j node d forceAggregate = some q) (hkind : q.kind = .aggregate) :
    DefaultRead db m j q
  | quantile {quantiles : List String} {d : Go.Duration} {q : FluxQuery} (hnodes : j.numNodes > 1)
    (h : db.quantileQuery m j quantiles d = some q) : DefaultRead db m j q
  | metadata : DefaultRead db m j (db.metadataQuery m j)
  | last {d : Go.Duration} {q : FluxQuery} (h : (db.lastQuery j d (lastMetric m)).1 = some q)
    (hkind : q.kind = .aggregate) : DefaultRead db m j q

variable {m : MetricConfig} {j : JobMetadata} {q : FluxQuery}

/-- A raw query is not an aggregated one. -/
theorem simpleQuery_kind {nodes : String} {d : Go.Duration}
    (h : db.simpleQuery m j nodes d = some q) : q.kind ≠ .aggregate := by
  rw [eq_of_buildQuery h]
  exact fun hc => by cases hc

theorem measurement_of_simple_or_aggregate {m' : MetricConfig} {nodes : String} {d : Go.Duration}
    (h : db.simpleQuery m' j nodes d = some q ∨ db.aggregateQuery m' j nodes m'.aggFn d = some q)
    (hkind : q.kind = .aggregate) :
    q.measurement = aggregateMeasurement m'.measurement m'.aggFn := by
  rcases h with h | h
  · exact absurd hkind (simpleQuery_kind h)
  · exact congrArg FluxQuery.measurement (eq_of_buildQuery h)

/-- **All of them read the same measurement.** -/
theorem DefaultRead.measurement (h : DefaultRead db m j q) :
    q.measurement = aggregateMeasurement m.measurement m.aggFn := by
  cases h with
  | query h hkind => exact measurement_of_simple_or_aggregate (queryFor_cases h) hkind
  | queryRaw h hkind => exact measurement_of_simple_or_aggregate (queryForRaw_cases h) hkind
  | quantile hnodes h =>
    rw [quantileQuery, if_pos hnodes] at h
    exact congrArg FluxQuery.measurement (eq_of_buildQuery h)
  | metadata => rfl
  | last h hkind =>
    -- `lastMetric` changes neither of the two
    have hmeasurement := measurement_of_simple_or_aggregate (lastQuery_cases h) hkind
    exact hmeasurement

/-! ## When the readers read what is written -/

/-- The query reads the raw measurement of a metric without a default aggregation, or
what a task for this metric writes. -/
def ReadsWritten (db : InfluxDB) (org : String) (m : MetricConfig) (q : FluxQuery) : Prop :=
  (m.aggFn = "" ∧ q.measurement = m.measurement) ∨
    ∃ t ∈ db.tasksFor org m, q.measurement = t.aggMeasurement

/-- The default aggregations of a configuration are written: what its readers read,
and what its tasks write after an update in which no call failed.

Metrics that share a `Measurement` share the names of their tasks too, so there is one
task for them, with the type and the filter of the metric that was met first. What is
written under the name is then asked for, not for which of the metrics;
`own_task_of_unshared` says when it is the metric's own. -/
structure AggregatesWritten (org : String) (c : Configuration) : Prop where
  reads : ∀ m ∈ c.metrics, ∀ j q, DefaultRead (init c) m j q → (init c).ReadsWritten org m q
  hasTask : ∀ api tasks, TasksAPI.Sound api → (init c).TasksNamed tasks →
    ∀ p ∈ (init c).metrics.rows, p.2.aggFn ≠ "" →
      ∃ t ∈ (init c).updateAggregationTasks org api tasks,
        t.aggMeasurement = aggregateMeasurement p.2.measurement p.2.aggFn

/-- The default aggregation of a metric is one of those that can be chosen. -/
def DefaultListed (m : MetricConfig) : Prop := m.aggFn = "" ∨ m.aggFn ∈ m.availableAggFns

instance (m : MetricConfig) : Decidable (DefaultListed m) :=
  inferInstanceAs (Decidable (_ ∨ _))

theorem readsWritten_iff (hq : q.measurement = aggregateMeasurement m.measurement m.aggFn) :
    db.ReadsWritten org m q ↔ DefaultListed m := by
  rw [ReadsWritten, DefaultListed, hq]
  by_cases hnone : m.aggFn = ""
  · have hraw : aggregateMeasurement m.measurement m.aggFn = m.measurement :=
      if_neg (by simpa using hnone)
    exact ⟨fun _ => Or.inl hnone, fun _ => Or.inl ⟨hnone, hraw⟩⟩
  · have hagg : aggregateMeasurement m.measurement m.aggFn = m.measurement ++ "_" ++ m.aggFn :=
      if_pos hnone
    rw [hagg]
    constructor
    · rintro (⟨hempty, -⟩ | ⟨t, ht, hname⟩)
      · exact absurd hempty hnone
      · obtain ⟨f, hf, rfl⟩ := mem_tasksFor_iff.1 ht
        have hsame : m.aggFn = f := by
          have happ : m.measurement ++ "_" ++ m.aggFn = m.measurement ++ "_" ++ f := hname
          rwa [String.append_right_inj] at happ
        exact Or.inr (hsame ▸ hf)
    · rintro (hempty | hlisted)
      · exact absurd hempty hnone
      · exact Or.inr ⟨_, mem_tasksFor_iff.2 ⟨_, hlisted, rfl⟩, rfl⟩

/-- What the database holds comes from the configuration. -/
theorem mem_metrics_of_init {c : Configuration} {p : String × MetricConfig}
    (h : p ∈ (init c).metrics.rows) : p.2 ∈ c.metrics := by
  have hfold : ∀ (l : List MetricConfig) (t : Map String MetricConfig),
      (∀ p ∈ t.rows, p.2 ∈ c.metrics) → (∀ m ∈ l, m ∈ c.metrics) →
      ∀ p ∈ (l.foldl (fun t mc => t.upsert (mc.guid, mc)) t).rows, p.2 ∈ c.metrics := by
    intro l
    induction l with
    | nil => exact fun t ht _ => ht
    | cons mc l ih =>
      intro t ht hl
      refine ih _ ?_ fun m hm => hl m (List.mem_cons_of_mem _ hm)
      intro p hp
      have hlook := Table.get?_of_mem hp
      rw [Table.get?_upsert] at hlook
      split at hlook
      · cases hlook
        exact hl mc List.mem_cons_self
      · exact ht p (Table.mem_of_get? hlook)
  exact hfold c.metrics Table.empty (fun p hp => by cases hp) (fun m hm => hm) p h

/-- **The default aggregations are written exactly when every metric lists its own.** -/
theorem aggregatesWritten_iff (org : String) (c : Configuration) :
    AggregatesWritten org c ↔ ∀ m ∈ c.metrics, DefaultListed m := by
  constructor
  · intro h m hm
    have hdefault : DefaultRead (init c) m {} _ := .metadata
    exact (readsWritten_iff hdefault.measurement).1 (h.reads m hm {} _ hdefault)
  · intro h
    refine ⟨fun m hm j q hq => (readsWritten_iff hq.measurement).2 (h m hm), ?_⟩
    intro api tasks hapi htasks p hp hagg
    have hlisted : p.2.aggFn ∈ p.2.availableAggFns :=
      (h p.2 (mem_metrics_of_init hp)).resolve_left hagg
    obtain ⟨t, ht, -, hwrites⟩ : ∃ t ∈ (init c).updateAggregationTasks org api tasks,
        t.name = (init c).aggTaskName p.2 p.2.aggFn ∧
          t.aggMeasurement = p.2.measurement ++ "_" ++ p.2.aggFn :=
      exists_task_updateAggregationTasks hapi htasks hp hlisted
    exact ⟨t, ht, by rw [hwrites, aggregateMeasurement, if_pos hagg]⟩

/-! ## A default that cannot be chosen -/

/-- A metric that is averaged by default, of which only the sum can be chosen. -/
def unlistedFile : ConfigFile :=
  { dbBucket := "metrics"
    metrics :=
      [{ guid := "a", type := "cpu", measurement := "cpu_load", aggFn := "mean"
         availableAggFns := ["sum"] }] }

/-- The configuration the backend runs with after reading it. -/
def unlistedRunning : Configuration :=
  { Configuration.decode {} unlistedFile with
    jsonWebTokenLifeTime := 86400000000000
    apiTokenLifeTime := 315360000000000000 }

/-- `Init` accepts the file, the readers read `cpu_load_mean`, and no task writes it. -/
theorem unlisted_not_aggregatesWritten :
    Configuration.init (fun _ => "u") {} unlistedFile = .ok unlistedRunning ∧
      ¬ AggregatesWritten "org" unlistedRunning ∧
      ∀ t ∈ (init unlistedRunning).updateAggregationTasks "org" {} [],
        t.aggMeasurement ≠ "cpu_load_mean" := by
  refine ⟨by decide, fun h => ?_, by decide⟩
  have hread := h.reads (unlistedFile.metrics.headI) (by decide) {} _ DefaultRead.metadata
  rcases hread with ⟨hempty, -⟩ | ⟨t, ht, hname⟩
  · revert hempty
    decide
  · obtain ⟨f, hf, rfl⟩ := mem_tasksFor_iff.1 ht
    have hsum : f = "sum" := by
      simpa [unlistedFile] using hf
    rw [hsum] at hname
    revert hname
    decide

end InfluxDB

end JobMon
