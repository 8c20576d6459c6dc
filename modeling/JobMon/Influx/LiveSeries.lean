import JobMon.Influx.Issued

/-!
# Live updates and the loaded series

The page of a running job loads the series of each metric once (`query` for all
nodes of the job) and then appends what `queryLastDatapoints` delivers.  Which
measurement is read, and what separates the series, is decided in both places,
by different tests: `query` looks at the number of nodes in the text and at the
type of the metric, `queryLastDatapoints` at the number of nodes in the record.

* `Continues` — the two queries read the same measurement and agree on the keys.
* `live_continues_iff` — exactly when they do.
* `gpfs_not_continues` — a metric of type `node` with an aggregation function, and
  a job with two nodes: the live rows come from the aggregated measurement, the
  loaded ones from the raw one.
-/

namespace JobMon

open Keyed

/-- The record with another time window: a reload and an update of the same job
differ in nothing else. -/
def JobMetadata.inWindow (j : JobMetadata) (startTime stopTime : ℤ) : JobMetadata :=
  { j with startTime, stopTime }

theorem lastRecord_eq_inWindow (now : ℤ) (j : JobMetadata) :
    InfluxDB.lastRecord now j =
      j.inWindow j.startTime (if j.isRunning then now else j.stopTime) := by
  unfold InfluxDB.lastRecord
  split <;> rfl

/-- An update continues what was loaded: rows of the same measurement, under the
same keys.  A query is given with the separation key of its answer. -/
structure Continues (live load : Option FluxQuery × String) : Prop where
  /-- Raw with the same filter on the type, or aggregated, and the same name. -/
  source : ∀ q q', live.1 = some q → load.1 = some q' →
    q.kind = q'.kind ∧ q.measurement = q'.measurement
  separationKey : live.2 = load.2
  /-- Rows of one source are filed under one key. -/
  keys : ∀ (answer answer' : QueryTableResult) (update loaded : Map String (List QueryResult)),
    answer.OpensTable → answer'.OpensTable →
    parseQueryResult answer live.2 = .ok update → parseQueryResult answer' load.2 = .ok loaded →
    ∀ p ∈ update.rows, ∀ p' ∈ loaded.rows, ∀ row ∈ p.2, ∀ row' ∈ p'.2,
      column row live.2 = column row' load.2 → p.1 = p'.1

/-- Agreement on the separation key is agreement on the keys. -/
theorem keys_of_separationKey {separationKey : String} {answer answer' : QueryTableResult}
    {update loaded : Map String (List QueryResult)} (hopens : answer.OpensTable)
    (hopens' : answer'.OpensTable) (hupdate : parseQueryResult answer separationKey = .ok update)
    (hloaded : parseQueryResult answer' separationKey = .ok loaded)
    {p p' : String × List QueryResult} (hp : p ∈ update.rows) (hp' : p' ∈ loaded.rows)
    {row row' : QueryResult} (hrow : row ∈ p.2) (hrow' : row' ∈ p'.2)
    (hsame : column row separationKey = column row' separationKey) : p.1 = p'.1 := by
  have hkey := (hopens.filed hupdate p hp row hrow).2
  have hkey' := (hopens'.filed hloaded p' hp' row' hrow').2
  rw [hkey, hkey'] at hsame
  exact Value.string.inj hsame

theorem continues_iff_source {live load : Option FluxQuery} {separationKey : String} :
    Continues (live, separationKey) (load, separationKey) ↔
      ∀ q q', live = some q → load = some q' →
        q.kind = q'.kind ∧ q.measurement = q'.measurement := by
  constructor
  · intro h
    exact h.source
  · intro h
    refine ⟨h, rfl, ?_⟩
    intro answer answer' update loaded hopens hopens' hupdate hloaded p hp p' hp' row hrow
      row' hrow'
    exact keys_of_separationKey hopens hopens' hupdate hloaded hp hp' hrow hrow'

/-! ## The queries that are built -/

/-- Two queries that are both built have the kind and the measurement that were
asked for. -/
theorem source_of_buildQuery {q₀ q₀' q q' : FluxQuery} (h : buildQuery q₀ = some q)
    (h' : buildQuery q₀' = some q') (hkind : q₀.kind = q₀'.kind)
    (hmeasurement : q₀.measurement = q₀'.measurement) :
    q.kind = q'.kind ∧ q.measurement = q'.measurement := by
  rw [eq_of_buildQuery h, eq_of_buildQuery h']
  exact ⟨hkind, hmeasurement⟩

namespace InfluxDB

variable {db : InfluxDB} {m : MetricConfig} {j : JobMetadata} {d : Go.Duration}

theorem lastQuery_of_single (h : j.numNodes = 1) :
    db.lastQuery j d m = (db.simpleQuery m j j.nodeList d, m.separationKey) := if_pos h

theorem lastQuery_of_several (h : j.numNodes ≠ 1) :
    db.lastQuery j d m = (db.aggregateQuery m j j.nodeList m.aggFn d, "hostname") := if_neg h

theorem queryFor_of_single (h : (Go.split j.nodeList '|').length = 1) :
    db.queryFor m j j.nodeList d false = (db.simpleQuery m j j.nodeList d, m.separationKey) := by
  rw [Go.length_split] at h
  exact if_pos ⟨h, rfl⟩

theorem queryFor_of_several (h : (Go.split j.nodeList '|').length ≠ 1) :
    db.queryFor m j j.nodeList d false =
      if m.type ≠ "node" then (db.aggregateQuery m j j.nodeList m.aggFn d, "hostname")
      else (db.simpleQuery m j j.nodeList d, "hostname") := by
  rw [Go.length_split] at h
  exact if_neg fun hc => h hc.1

/-- What makes a builder refuse a raw query on the metric. -/
def Refuses (db : InfluxDB) (m : MetricConfig) (j : JobMetadata) : Prop :=
  db.bucketName = "" ∨ m.measurement = "" ∨ ¬ (0 ≤ j.startTime ∧ j.startTime < j.stopTime)

theorem exists_simpleQuery (h : ¬ db.Refuses m j) (nodes : String) :
    ∃ q, db.simpleQuery m j nodes d = some q ∧ q.kind = .simple m.type := by
  rw [Refuses, not_or, not_or, not_not] at h
  obtain ⟨hbucket, hmeasurement, hwindow⟩ := h
  exact ⟨_, buildQuery_eq_some_iff.2 ⟨hbucket, hmeasurement, hwindow.1, hwindow.2, rfl⟩, rfl⟩

theorem not_refuses_of_simpleQuery {nodes : String} {q : FluxQuery}
    (h : db.simpleQuery m j nodes d = some q) : ¬ db.Refuses m j := by
  obtain ⟨hbucket, hmeasurement, h0, hlt, -⟩ := buildQuery_eq_some_iff.1 h
  rintro (hb | hm | hw)
  · exact hbucket hb
  · exact hmeasurement hm
  · exact hw ⟨h0, hlt⟩

theorem aggregateMeasurement_ne {measurement : String} (h : measurement ≠ "") (aggFn : String) :
    aggregateMeasurement measurement aggFn ≠ "" := by
  unfold aggregateMeasurement
  split
  · intro hempty
    have := congrArg String.length hempty
    simp only [String.length_append, String.length_empty] at this
    exact h (String.length_eq_zero_iff.1 (by omega))
  · exact h

theorem exists_aggregateQuery (h : ¬ db.Refuses m j) (nodes : String) :
    ∃ q, db.aggregateQuery m j nodes m.aggFn d = some q ∧ q.kind = .aggregate := by
  rw [Refuses, not_or, not_or, not_not] at h
  obtain ⟨hbucket, hmeasurement, hwindow⟩ := h
  exact ⟨_, buildQuery_eq_some_iff.2
    ⟨hbucket, aggregateMeasurement_ne hmeasurement _, hwindow.1, hwindow.2, rfl⟩, rfl⟩

/-- An aggregated query is refused for the same reasons, but for a metric without
measurement that has an aggregation function. -/
theorem not_refuses_of_aggregateQuery {nodes : String} {q : FluxQuery}
    (h : db.aggregateQuery m j nodes m.aggFn d = some q) (hmeasurement : m.measurement ≠ "") :
    ¬ db.Refuses m j := by
  obtain ⟨hbucket, -, h0, hlt, -⟩ := buildQuery_eq_some_iff.1 h
  rintro (hb | hm | hw)
  · exact hbucket hb
  · exact hmeasurement hm
  · exact hw ⟨h0, hlt⟩

/-! ## When an update continues what was loaded -/

/-- **Live updates continue the loaded series** exactly for a job with one node, for
a metric that is not of type `node`, or when one of the two queries is refused. -/
theorem live_continues_iff (db : InfluxDB) (m : MetricConfig) (j : JobMetadata)
    (hnodes : j.numNodes = (Go.split j.nodeList '|').length) (start stop start' stop' : ℤ)
    (d d' : Go.Duration) :
    Continues (db.lastQuery (j.inWindow start stop) d (lastMetric m))
        (db.queryFor m (j.inWindow start' stop') j.nodeList d' false) ↔
      j.numNodes = 1 ∨ m.type ≠ "node" ∨ db.Refuses m (j.inWindow start stop) ∨
        db.Refuses m (j.inWindow start' stop') := by
  by_cases hone : j.numNodes = 1
  · -- one node: both read the raw measurement
    have hlive : (j.inWindow start stop).numNodes = 1 := hone
    have hload : (Go.split (j.inWindow start' stop').nodeList '|').length = 1 := by
      show (Go.split j.nodeList '|').length = 1
      omega
    rw [lastQuery_of_single hlive, show j.nodeList = (j.inWindow start' stop').nodeList from rfl,
      queryFor_of_single hload]
    refine continues_iff_source.trans ⟨fun _ => Or.inl hone, fun _ q q' hq hq' => ?_⟩
    exact source_of_buildQuery hq hq' rfl rfl
  · have hlive : (j.inWindow start stop).numNodes ≠ 1 := hone
    have hload : (Go.split (j.inWindow start' stop').nodeList '|').length ≠ 1 := by
      show (Go.split j.nodeList '|').length ≠ 1
      omega
    rw [lastQuery_of_several hlive, show j.nodeList = (j.inWindow start' stop').nodeList from rfl,
      queryFor_of_several hload]
    by_cases htype : m.type ≠ "node"
    · -- several nodes: both read the aggregated measurement
      rw [if_pos htype]
      refine continues_iff_source.trans ⟨fun _ => Or.inr (Or.inl htype), fun _ q q' hq hq' => ?_⟩
      exact source_of_buildQuery hq hq' rfl rfl
    · -- several nodes, a metric of the node: the update is aggregated, the load is raw
      rw [if_neg htype]
      refine continues_iff_source.trans ?_
      constructor
      · intro hsource
        by_contra hc
        rw [not_or, not_or, not_or] at hc
        obtain ⟨q, hq, hkind⟩ :=
          exists_aggregateQuery (d := d) (m := lastMetric m) hc.2.2.1 j.nodeList
        obtain ⟨q', hq', hkind'⟩ := exists_simpleQuery (d := d') hc.2.2.2 j.nodeList
        have hsame := (hsource q q' hq hq').1
        rw [hkind, hkind'] at hsame
        cases hsame
      · rintro (h | h | h | h) q q' hq hq'
        · exact absurd h hone
        · exact absurd h htype
        · have hbuilt := not_refuses_of_simpleQuery hq'
          have hmeasurement : m.measurement ≠ "" := fun hm => hbuilt (Or.inr (Or.inl hm))
          exact absurd h (not_refuses_of_aggregateQuery (m := lastMetric m) hq hmeasurement)
        · exact absurd h (not_refuses_of_simpleQuery hq')

/-! ## A metric of the node with an aggregation function -/

/-- The metric `gpfs_bytes_read` of the sample configuration. -/
def gpfsBytesRead : MetricConfig :=
  { guid := "6cf6178f-90ea-4682-9d94-0c9f0c8f6b72"
    type := "node"
    categories := ["Filesystem"]
    measurement := "gpfs_bytes_read"
    aggFn := "mean"
    availableAggFns := ["sum", "mean", "min", "max"]
    unit := "B/s"
    displayName := "GPFS Bytes Read"
    postQueryOp := "|> derivative(unit: 1s, nonNegative: true, columns: [\"_value\"], " ++
      "timeColumn: \"_time\")"
    separationKey := "filesystem" }

/-- A running job with two nodes. -/
def twoNodeJob : JobMetadata :=
  { id := 1, numNodes := 2, nodeList := "n1|n2", startTime := 100, isRunning := true }

/-- The database of the sample configuration. -/
def sampleDB : InfluxDB := { bucketName := "metrics" }

theorem live_continues_iff_twoNodeJob :
    Continues
        (sampleDB.lastQuery (twoNodeJob.inWindow 100 200) Go.second (lastMetric gpfsBytesRead))
        (sampleDB.queryFor gpfsBytesRead (twoNodeJob.inWindow 100 190) twoNodeJob.nodeList Go.second
          false) ↔
      twoNodeJob.numNodes = 1 ∨ gpfsBytesRead.type ≠ "node" ∨
        sampleDB.Refuses gpfsBytesRead (twoNodeJob.inWindow 100 200) ∨
        sampleDB.Refuses gpfsBytesRead (twoNodeJob.inWindow 100 190) :=
  live_continues_iff sampleDB gpfsBytesRead twoNodeJob (by decide) 100 200 100 190 Go.second
    Go.second

/-- The update reads `gpfs_bytes_read_mean`, the page has loaded `gpfs_bytes_read`. -/
theorem gpfs_not_continues :
    twoNodeJob.numNodes = (Go.split twoNodeJob.nodeList '|').length ∧
      ¬ Continues
        (sampleDB.lastQuery (lastRecord 200 twoNodeJob) Go.second (lastMetric gpfsBytesRead))
        (sampleDB.queryFor gpfsBytesRead (twoNodeJob.inWindow 100 190) twoNodeJob.nodeList Go.second
          false) := by
  refine ⟨by decide, fun h => ?_⟩
  have hlive := (h.source _ _ rfl rfl).2
  revert hlive
  decide

end InfluxDB

end JobMon
