import JobMon.Influx.Grouping
import JobMon.Influx.JobData

/-!
# Calls of InfluxDB that succeed

What InfluxDB, its client and the change point library promise of the calls that
`GetJobMetadataMetrics` makes.

* `QueryTableResult.ReadableBy`, `PointRow` — an answer the parser can read, and a point
  of a series.
* `InfluxDB.CallsSucceed` — every query that is built is answered with such rows, and a
  change point is one of the points.
* `panics_parseQueryResult` — the parser gets through a readable answer.
* `InfluxDB.CallsSucceed.panics_getJobMetadataMetrics` — no metadata metrics end the process.
-/

namespace JobMon

open Keyed

/-! ## What is promised -/

/-- The client reports the first record as the start of a table and no error while there
are records; the rows have the columns that the parser asserts. -/
structure QueryTableResult.ReadableBy (separationKey : String) (q : QueryTableResult) : Prop where
  regular : q.Regular
  parsable : Parsable separationKey q.rows

/-- A point of a series: a number, unless it is missing, and its time. -/
structure PointRow (row : QueryResult) : Prop where
  value : column row "_value" = .nil ∨ ∃ v, column row "_value" = .float v
  time : ∃ t, column row "_time" = .time t

namespace InfluxDB

/-- A query is answered with rows that the parser can read.  When the builder refused, the
text is empty and the answer may be an error as well. -/
def Answered (env : Environment) (separationKey : String) (P : QueryResult → Prop)
    (query : Option FluxQuery) : Prop :=
  (∃ q, env.api.query (queryText query) = .ok q ∧ q.ReadableBy separationKey ∧
    ∀ row ∈ q.rows, P row) ∨
  (query = none ∧ ReturnsError (env.api.query (queryText query)))

/-- The calls for the metadata metrics succeed, of every job. -/
structure CallsSucceed (env : Environment) (db : InfluxDB) : Prop where
  metadata : ∀ j, ∀ m ∈ db.jobMetrics j,
    Answered env "result" (fun _ => True) (some (db.metadataQuery m j))
  metric : ∀ j, ∀ m ∈ db.jobMetrics j, ∀ interval,
    Answered env "hostname" PointRow (db.queryFor m j j.nodeList interval true).1
  quantile : ∀ j, ∀ m ∈ db.jobMetrics j, ∀ interval,
    Answered env "_field" (fun _ => True) (db.quantileQuery m j db.metricQuantiles interval)
  /-- The change points of some values are indices of them. -/
  changePoint : ∀ values, ∀ i ∈ env.nonParametric values, i < values.length

end InfluxDB

/-! ## The parser -/

theorem Result.panics_bind {α β : Type} {x : Result α} {f : α → Result β}
    (hx : x.panics = false) (hf : ∀ a, x = .ok a → (f a).panics = false) :
    Result.panics (x >>= f) = false := by
  cases x with
  | error e =>
    cases e with
    | error msg => rfl
    | panic => cases hx
  | ok a => exact hf a rfl

theorem ReturnsError.panics {α : Type} {x : Result α} (h : ReturnsError x) : x.panics = false := by
  obtain ⟨msg, rfl⟩ := h
  rfl

/-- **The parser does not panic on a readable answer.** -/
theorem panics_parseQueryResult {separationKey : String} {q : QueryTableResult}
    (h : q.ReadableBy separationKey) : (parseQueryResult q separationKey).panics = false := by
  obtain ⟨hregular, hparsable⟩ := h
  by_cases hne : q.records = []
  · rw [parseQueryResult, hne]
    rfl
  have href : ∀ row ∈ q.rows.head?, ¬RefusedFirst separationKey row := fun row hrow =>
    not_refusedFirst_of_typed (hparsable.typed row (List.mem_of_mem_head? hrow))
  by_cases hsecond : q.SecondSchema
  · have hfirst : Parsable separationKey q.firstRows := by
      have hrows : q.rows = q.firstRows ++
          (q.records.tail.dropWhile fun r => !r.tableChanged).map FluxRecord.values := by
        rw [QueryTableResult.rows, QueryTableResult.firstRows, ← List.map_append, ← records_eq]
      rw [hrows] at hparsable
      exact hparsable.of_append
    exact (parseQueryResult_of_secondSchema hregular hsecond href hfirst).panics
  · obtain ⟨m, hm, -⟩ := parseQueryResult_of_parsable hregular hne hsecond href hparsable
    rw [hm]
    rfl

/-! ## Change points -/

namespace InfluxDB

/-- The values of a series of points: as many as there are points. -/
theorem seriesValues_of_points {series : List QueryResult} (h : ∀ row ∈ series, PointRow row) :
    ∃ values, seriesValues series = .ok values ∧
      ∀ vs ∈ values, vs.length = series.length := by
  induction series with
  | nil => exact ⟨some [], rfl, fun vs hvs => by cases hvs; rfl⟩
  | cons row series ih =>
    obtain ⟨values, hvalues, hlength⟩ := ih fun r hr => h r (List.mem_cons_of_mem _ hr)
    unfold seriesValues
    rcases (h row List.mem_cons_self).value with hnil | ⟨v, hv⟩
    · rw [hnil]
      exact ⟨none, rfl, nofun⟩
    · rw [hv, hvalues]
      refine ⟨values.map (v :: ·), rfl, fun vs hvs => ?_⟩
      obtain ⟨vs', hvs', rfl⟩ := Option.map_eq_some_iff.1 hvs
      rw [List.length_cons, List.length_cons, hlength vs' hvs']

theorem mapM_pointTime_of_points {series : List QueryResult} (h : ∀ row ∈ series, PointRow row)
    {is : List ℕ} (his : ∀ i ∈ is, i < series.length) :
    ∃ times, is.mapM (pointTime series) = .ok times := by
  induction is with
  | nil => exact ⟨[], rfl⟩
  | cons i is ih =>
    obtain ⟨times, htimes⟩ := ih fun k hk => his k (List.mem_cons_of_mem _ hk)
    have hi := his i List.mem_cons_self
    obtain ⟨t, ht⟩ := (h series[i] (List.getElem_mem hi)).time
    have htime : pointTime series i = .ok t := by
      rw [pointTime, List.getElem?_eq_getElem hi]
      simp only [ht]
    rw [List.mapM_cons, htime, htimes]
    exact ⟨t :: times, rfl⟩

section Calls

variable {env : Environment} {db : InfluxDB}

theorem metricChangePoints_of_points
    (hindex : ∀ values, ∀ i ∈ env.nonParametric values, i < values.length)
    (measurement : String) {tables : List (String × List QueryResult)}
    (h : ∀ table ∈ tables, ∀ row ∈ table.2, PointRow row) (cps : Map String (List Time)) :
    ∃ cps', metricChangePoints env measurement tables cps = .ok cps' := by
  induction tables generalizing cps with
  | nil => exact ⟨cps, rfl⟩
  | cons table tables ih =>
    have hpoints := h table List.mem_cons_self
    obtain ⟨values, hvalues, hlength⟩ := seriesValues_of_points hpoints
    unfold metricChangePoints
    rw [hvalues]
    cases values with
    | none => exact ⟨cps, rfl⟩
    | some vs =>
      have his : ∀ i ∈ env.nonParametric vs, i < table.2.length := fun i hi =>
        hlength vs rfl ▸ hindex vs i hi
      obtain ⟨times, htimes⟩ := mapM_pointTime_of_points hpoints his
      obtain ⟨cps', hcps'⟩ := ih (fun t ht => h t (List.mem_cons_of_mem _ ht))
        (cps.upsert (measurement, times))
      refine ⟨cps', ?_⟩
      simp only [bind, Except.bind, htimes, hcps']

theorem foldlM_metricChangePoints_of_points
    (hindex : ∀ values, ∀ i ∈ env.nonParametric values, i < values.length)
    {ms : List MetricData} (h : ∀ m ∈ ms, ∀ table ∈ m.data.rows, ∀ row ∈ table.2, PointRow row)
    (cps : Map String (List Time)) :
    ∃ cps', ms.foldlM (fun cps m =>
      metricChangePoints env m.config.measurement m.data.rows cps) cps = .ok cps' := by
  induction ms generalizing cps with
  | nil => exact ⟨cps, rfl⟩
  | cons m ms ih =>
    obtain ⟨cps₁, hcps₁⟩ := metricChangePoints_of_points hindex m.config.measurement
      (h m List.mem_cons_self) cps
    rw [List.foldlM_cons, hcps₁]
    exact ih (fun m' hm' => h m' (List.mem_cons_of_mem _ hm')) cps₁

/-! ## The metadata metrics -/

/-- What is made of an answer does not panic, and what is read of it are such rows. -/
theorem Answered.parse {α : Type} {separationKey : String} {P : QueryResult → Prop}
    {query : Option FluxQuery} (h : Answered env separationKey P query)
    {f : Map String (List QueryResult) → Result α} (hf : ∀ result, (f result).panics = false) :
    let task := env.api.query (queryText query) >>= fun q =>
      parseQueryResult q separationKey >>= f
    task.panics = false ∧ ∀ a, task = .ok a → ∃ result, f result = .ok a ∧
      ∀ table ∈ result.rows, ∀ row ∈ table.2, P row := by
  intro task
  rcases h with ⟨q, hq, hread, hrows⟩ | ⟨-, msg, hmsg⟩
  · have htask : task = parseQueryResult q separationKey >>= f := by
      simp only [task, hq, bind, Except.bind]
    rw [htask]
    refine ⟨Result.panics_bind (panics_parseQueryResult hread) fun result _ => hf result, ?_⟩
    intro a ha
    obtain ⟨result, hresult, ha⟩ := bind_eq_ok_iff.1 ha
    exact ⟨result, ha, fun table htable row hrow =>
      hrows row (hread.regular.opens.filed hresult table htable row hrow).1⟩
  · have htask : task = .error (.error msg) := by
      simp only [task, hmsg, bind, Except.bind]
    rw [htask]
    exact ⟨rfl, nofun⟩

/-- A metric goroutine reads points. -/
theorem CallsSucceed.metricTask (h : CallsSucceed env db) {j : JobMetadata} {m : MetricConfig}
    (hm : m ∈ db.jobMetrics j) (interval : Go.Duration) :
    (metricTask env db j j.nodeList interval false true m).panics = false ∧
      ∀ d, metricTask env db j j.nodeList interval false true m = .ok d →
        ∀ table ∈ d.data.rows, ∀ row ∈ table.2, PointRow row := by
  have hkey : (db.queryFor m j j.nodeList interval true).2 = "hostname" := by
    unfold queryFor
    rw [if_neg (by simp)]
    split
    · rfl
    · rfl
  have htask : InfluxDB.metricTask env db j j.nodeList interval false true m =
      env.api.query (queryText (db.queryFor m j j.nodeList interval true).1) >>= fun q =>
        parseQueryResult q "hostname" >>= fun result => pure { config := m, data := result } := by
    unfold InfluxDB.metricTask query
    rw [if_neg Bool.false_ne_true]
    simp only [hkey, bind_assoc]
  rw [htask]
  obtain ⟨hpanics, hrows⟩ := (h.metric j m hm interval).parse
    (f := fun result => pure { config := m, data := result : MetricData }) fun _ => rfl
  refine ⟨hpanics, fun d hd => ?_⟩
  obtain ⟨result, hresult, hpoints⟩ := hrows d hd
  cases hresult
  exact hpoints

theorem CallsSucceed.panics_quantileTask (h : CallsSucceed env db) {j : JobMetadata}
    {m : MetricConfig} (hm : m ∈ db.jobMetrics j) (interval : Go.Duration) :
    (quantileTask env db j interval m).panics = false :=
  ((h.quantile j m hm interval).parse fun _ => rfl).1

theorem CallsSucceed.panics_metadataTask (h : CallsSucceed env db) {j : JobMetadata}
    {m : MetricConfig} (hm : m ∈ db.jobMetrics j) :
    (metadataTask env db j m).panics = false := by
  refine ((h.metadata j m hm).parse fun result => ?_).1
  split
  · rfl
  · rfl

/-- The data of a job is read, and its series consist of points. -/
theorem CallsSucceed.getJobData (h : CallsSucceed env db) (j : JobMetadata)
    (interval : Go.Duration) :
    ∃ data, getJobData env db j j.nodeList interval false true = .ok data ∧
      ∀ d ∈ data.metricData, ∀ table ∈ d.data.rows, ∀ row ∈ table.2, PointRow row := by
  have hmetrics : ∀ m ∈ db.jobMetrics j,
      (InfluxDB.metricTask env db j j.nodeList interval false true m).panics = false :=
    fun m hm => (h.metricTask hm interval).1
  have hquantiles : ∀ m ∈ (if j.isRunning then [] else db.jobMetrics j),
      (quantileTask env db j interval m).panics = false := by
    intro m hm
    refine h.panics_quantileTask (j := j) ?_ interval
    split at hm
    · cases hm
    · exact hm
  refine ⟨_, bind_eq_ok_iff.2 ⟨_, collect_eq_ok_iff.2 ⟨hmetrics, rfl⟩,
    bind_eq_ok_iff.2 ⟨_, collect_eq_ok_iff.2 ⟨hquantiles, rfl⟩, rfl⟩⟩, ?_⟩
  intro d hd
  obtain ⟨m, hm, hd⟩ := List.mem_filterMap.1 hd
  have hm : m ∈ db.jobMetrics j := (env.metricOrder.perm _).mem_iff.1 hm
  refine (h.metricTask hm interval).2 d ?_
  cases htask : InfluxDB.metricTask env db j j.nodeList interval false true m with
  | error e =>
    rw [htask] at hd
    cases hd
  | ok d' =>
    rw [htask] at hd
    cases hd
    rfl

/-- **When the calls succeed, the metadata metrics end no process.** -/
theorem CallsSucceed.panics_getJobMetadataMetrics (h : CallsSucceed env db) (j : JobMetadata) :
    (getJobMetadataMetrics env db j).panics = false := by
  unfold getJobMetadataMetrics
  split
  · rfl
  split
  · rfl
  refine Result.panics_bind ?_ fun data _ => ?_
  · have hdata : getMetadataData env db j = .ok _ :=
      collect_eq_ok_iff.2 ⟨fun m hm => h.panics_metadataTask hm, rfl⟩
    rw [hdata]
    rfl
  cases Go.parseDuration db.defaultSampleInterval with
  | none => rfl
  | some s =>
    obtain ⟨aggData, haggData, hpoints⟩ := h.getJobData j (j.calculateSampleIntervals env.now s).2
    obtain ⟨cps, hcps⟩ := foldlM_metricChangePoints_of_points h.changePoint
      (fun m hm => hpoints m ((env.changePointOrder.perm _).mem_iff.1 hm)) Table.empty
    simp only [haggData]
    refine Result.panics_bind rfl fun aggData' haggData' => ?_
    cases haggData'
    rw [changePointDetection, hcps]
    rfl

end Calls

end InfluxDB

end JobMon
