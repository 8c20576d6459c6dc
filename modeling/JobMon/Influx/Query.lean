import JobMon.Job.Types

/-!
# Flux queries

The query builders of `influxdb_queries.go`.  A query is built as a record of
what goes into it; `FluxQuery.text` is the text that is sent.  A builder that
refuses its arguments returns the empty text, which is `none` here, and which
the code sends all the same.

* `buildQuery_eq_some_iff` — a query that is built has the time range it was given,
  and that range is not empty and does not start before the epoch.
-/

namespace JobMon

/-- Which of the four queries it is. -/
inductive QueryKind
  /-- Raw measurements; with a filter on the type unless it is empty. -/
  | simple (metricType : String)
  /-- Measurements an aggregation task has written. -/
  | aggregate
  /-- Quantiles over all nodes. -/
  | quantile (quantiles : List String)
  /-- Mean and maximum over the whole job. -/
  | metadata
  deriving DecidableEq

/-- A query and everything that goes into its text. -/
structure FluxQuery where
  kind : QueryKind
  bucket : String
  startTime : ℤ
  stopTime : ℤ
  measurement : String
  nodes : String
  /-- Not part of a `metadata` query. -/
  sampleInterval : Go.Duration := 0
  filterFunc : String
  postQueryOp : String
  deriving DecidableEq

/-! ## The text of a query -/

namespace FluxQuery

/-- Double quotes around a text, as they are put into the query. -/
def quoted (s : String) : String := "\"" ++ s ++ "\""

/-- `|> filter` on one column with a fixed value. -/
def columnFilter (column value : String) : String :=
  "|> filter(fn: (r) => r[" ++ quoted column ++ "] == " ++ quoted value ++ ")"

/-- The nodes as an anchored regular expression. -/
def hostnameRegex (nodes : String) : String :=
  "|> filter(fn: (r) => r[\"hostname\"] =~ /^(" ++ nodes ++ ")$/)"

/-- The filter on the nodes: a regular expression for a list, equality for one. -/
def hostnameFilter (nodes : String) : String :=
  if Go.containsChar nodes '|' then hostnameRegex nodes else columnFilter "hostname" nodes

/-- `from` and `range`, the beginning of every query. -/
def source (q : FluxQuery) : String :=
  "from(bucket: " ++ quoted q.bucket ++ ")|> range(start: " ++ toString q.startTime ++
    ", stop: " ++ toString q.stopTime ++ ")" ++ columnFilter "_measurement" q.measurement

/-- The end of the queries that yield one series per node. -/
def sampled (q : FluxQuery) : String :=
  "|> aggregateWindow(every: " ++ Go.durationText q.sampleInterval ++
    ", fn: mean, createEmpty: false)|> truncateTimeColumn(unit: " ++
    Go.durationText q.sampleInterval ++ ")"

/-- The names of the quantile streams: one letter after the other. -/
def streamName (i : ℕ) : String := String.singleton (Char.ofNat ('A'.toNat + i))

/-- The stream of one quantile. -/
def quantileStream (q : FluxQuery) (i : ℕ) (quantile : String) : String :=
  streamName i ++ " = data|> aggregateWindow(every: " ++ Go.durationText q.sampleInterval ++
    ", fn: (tables=<-, column) => tables |> quantile(column: \"_value\", q: " ++ quantile ++
    ", method: \"estimate_tdigest\", compression: 1000.0), createEmpty: false)" ++
    "|> truncateTimeColumn(unit: " ++ Go.durationText q.sampleInterval ++ ")" ++
    "|> set(key: \"_field\", value: " ++ quoted quantile ++ ")" ++
    "|> set(key: \"_measurement\", value: " ++ quoted (q.measurement ++ "_quant") ++ ")\n"

/-- The end of `MetadataMeasurementsQuery`. -/
def metadataStreams : String :=
  "mean = data\n\t|> mean(column: \"_value\")\n\t|> group()\n\t|> mean(column: \"_value\")\n" ++
    "\t|> set(key: \"_field\", value: \"mean\")\n\n" ++
    "max = data\n\t|> highestMax(n:5, groupColumns: [\"_time\"])\n  \t|> median()\n" ++
    "  \t|> set(key: \"_field\", value: \"max\")\n\t\nunion(tables: [mean, max])\t\n"

/-- The text of a query. -/
def text (q : FluxQuery) : String :=
  match q.kind with
  | .simple metricType =>
    q.source ++ (if metricType ≠ "" then columnFilter "type" metricType else "") ++
      hostnameFilter q.nodes ++ q.filterFunc ++ q.postQueryOp ++ q.sampled
  | .aggregate =>
    q.source ++ hostnameFilter q.nodes ++ q.filterFunc ++ q.postQueryOp ++ q.sampled
  | .quantile quantiles =>
    "data = " ++ q.source ++ hostnameFilter q.nodes ++ q.filterFunc ++ q.postQueryOp ++
      "|> group()\n" ++ String.join (quantiles.mapIdx q.quantileStream) ++
      "union(tables: [" ++ ",".intercalate (quantiles.mapIdx fun i _ => streamName i) ++
      "])|> group(columns: [\"_field\"])"
  | .metadata =>
    "\ndata = from(bucket: " ++ quoted q.bucket ++ ")\n\t|> range(start: " ++
      toString q.startTime ++ ", stop: " ++ toString q.stopTime ++ ")\n\t" ++
      columnFilter "_measurement" q.measurement ++ "\n\t" ++ hostnameRegex q.nodes ++ "\n\t" ++
      q.filterFunc ++ "\n\t" ++ q.postQueryOp ++ "\n" ++ metadataStreams

end FluxQuery

/-- The text that is sent: empty when the builder refused. -/
def queryText (q : Option FluxQuery) : String := (q.map FluxQuery.text).getD ""

/-! ## The builders -/

/-- What the three checking builders ask for. -/
def buildQuery (q : FluxQuery) : Option FluxQuery :=
  if q.bucket = "" then none
  else if q.measurement = "" then none
  else if q.startTime < 0 ∨ q.stopTime < 0 ∨ q.startTime ≥ q.stopTime then none
  else some q

/-- `createSimpleMeasurementQuery`. -/
def createSimpleMeasurementQuery (bucket : String) (startTime stopTime : ℤ)
    (measurement metricType nodes : String) (sampleInterval : Go.Duration)
    (metricFilterFunc metricPostQueryOp : String) : Option FluxQuery :=
  buildQuery
    { kind := .simple metricType, bucket, startTime, stopTime, measurement, nodes, sampleInterval
      filterFunc := metricFilterFunc, postQueryOp := metricPostQueryOp }

/-- `createAggregateMeasurementQuery`. -/
def createAggregateMeasurementQuery (bucket : String) (startTime stopTime : ℤ)
    (measurement nodes : String) (sampleInterval : Go.Duration)
    (metricFilterFunc metricPostQueryOp : String) : Option FluxQuery :=
  buildQuery
    { kind := .aggregate, bucket, startTime, stopTime, measurement, nodes, sampleInterval
      filterFunc := metricFilterFunc, postQueryOp := metricPostQueryOp }

/-- `createQuantileMeasurementQuery`. -/
def createQuantileMeasurementQuery (bucket : String) (startTime stopTime : ℤ)
    (measurement nodes : String) (sampleInterval : Go.Duration)
    (metricFilterFunc metricPostQueryOp : String) (quantiles : List String) : Option FluxQuery :=
  buildQuery
    { kind := .quantile quantiles, bucket, startTime, stopTime, measurement, nodes, sampleInterval
      filterFunc := metricFilterFunc, postQueryOp := metricPostQueryOp }

/-- `MetadataMeasurementsQuery` with its parameters; nothing is checked. -/
def metadataMeasurementsQuery (bucket : String) (startTime stopTime : ℤ)
    (measurement nodeList filterFunc postQueryOp : String) : FluxQuery :=
  { kind := .metadata, bucket, startTime, stopTime, measurement, nodes := nodeList
    filterFunc, postQueryOp }

theorem buildQuery_eq_some_iff {q q' : FluxQuery} :
    buildQuery q = some q' ↔
      q.bucket ≠ "" ∧ q.measurement ≠ "" ∧ 0 ≤ q.startTime ∧ q.startTime < q.stopTime ∧
        q' = q := by
  unfold buildQuery
  by_cases hbucket : q.bucket = ""
  · simp [hbucket]
  by_cases hmeas : q.measurement = ""
  · simp [hbucket, hmeas]
  rw [if_neg hbucket, if_neg hmeas]
  by_cases hrange : q.startTime < 0 ∨ q.stopTime < 0 ∨ q.startTime ≥ q.stopTime
  · rw [if_pos hrange]
    constructor
    · intro h
      cases h
    · rintro ⟨-, -, h0, hlt, -⟩
      omega
  · rw [if_neg hrange, Option.some.injEq]
    constructor
    · intro h
      exact ⟨hbucket, hmeas, by omega, by omega, h.symm⟩
    · rintro ⟨-, -, -, -, h⟩
      exact h.symm

/-- A query that is built is the one that was asked for. -/
theorem eq_of_buildQuery {q q' : FluxQuery} (h : buildQuery q = some q') : q' = q := by
  obtain ⟨-, -, -, -, heq⟩ := buildQuery_eq_some_iff.1 h
  exact heq

end JobMon
