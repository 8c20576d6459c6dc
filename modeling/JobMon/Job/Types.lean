import JobMon.Config.Types

/-!
# Jobs and their data

The records of `job.go`, and the choice of a sample interval.

* A `float64` that the code only passes on is its 64 bits; sample intervals,
  which are computed, are exact rationals.
* `calculateSampleIntervals` takes the time it would read from the clock as an
  argument; `calculateSampleIntervals_of_stopped` says when that does not matter.
-/

namespace JobMon

open Keyed

/-! ## How a call ends -/

/-- What a call yields instead of a result: an error value, or a panic, which
ends the process. -/
inductive Fault
  | error (msg : String)
  | panic
  deriving DecidableEq

/-- What a call that can fail yields. -/
abbrev Result (α : Type) := Except Fault α

/-- From a computation that went through, both its steps went through. -/
theorem bind_eq_ok_iff {α β : Type} {x : Result α} {f : α → Result β} {b : β} :
    (x >>= f) = .ok b ↔ ∃ a, x = .ok a ∧ f a = .ok b := by
  cases x with
  | error e => simp [bind, Except.bind]
  | ok a => simp [bind, Except.bind]

/-- Whether a call ends the process. -/
def Result.panics {α : Type} : Result α → Bool
  | .error .panic => true
  | _ => false

/-! ## Values read from the time-series database -/

/-- A `float64`, by its bits. -/
structure Float64 where
  bits : UInt64 := 0
  deriving DecidableEq, Inhabited

/-- `time.Time`: nanoseconds since the epoch. -/
abbrev Time := ℤ

/-- A column of a record, the `interface{}` values the client library yields. -/
inductive Value
  | float (v : Float64)
  | int (v : ℤ)
  | string (s : String)
  | time (t : Time)
  | bool (b : Bool)
  | nil
  deriving DecidableEq, Inhabited

/-- `QueryResult`: a record, by column name. -/
abbrev QueryResult := Map String Value

/-! ## Jobs -/

/-- A tag. -/
structure JobTag where
  id : ℤ := 0
  name : String := ""
  type : String := ""
  createdBy : String := ""
  deriving DecidableEq

/-- `JobMetadataData`: mean, maximum and change points of one metric. -/
structure JobMetadataData where
  config : MetricConfig := {}
  mean : Float64 := {}
  max : Float64 := {}
  changePoints : List Time := []
  deriving DecidableEq

/-- All the metadata of a job. -/
structure JobMetadata where
  /-- Unique job ID. -/
  id : ℤ := 0
  userId : ℤ := 0
  userName : String := ""
  groupId : ℤ := 0
  groupName : String := ""
  clusterId : String := ""
  numNodes : ℤ := 0
  numTasks : ℤ := 0
  tasksPerNode : ℤ := 0
  gpusPerNode : ℤ := 0
  /-- The nodes allocated for the job, separated by `|`. -/
  nodeList : String := ""
  /-- In seconds since the epoch. -/
  startTime : ℤ := 0
  stopTime : ℤ := 0
  isRunning : Bool := false
  jobName : String := ""
  account : String := ""
  ttl : ℤ := 0
  partition : String := ""
  jobScript : String := ""
  exitCode : ℤ := 0
  tags : List JobTag := []
  data : List JobMetadataData := []
  deriving DecidableEq

/-- `StopJob`: what a stop request reports. -/
structure StopJob where
  exitCode : ℤ := 0
  stopTime : ℤ := 0
  deriving DecidableEq

/-- A link between a job and a tag. -/
structure JobToTags where
  jobId : ℤ
  tagId : ℤ
  deriving DecidableEq

/-- An integer interval, each end optional. -/
structure RangeFilter where
  from_ : Option ℤ := none
  to_ : Option ℤ := none
  deriving DecidableEq

/-- A selection of jobs; a part that is absent selects everything. -/
structure JobFilter where
  userId : Option ℤ := none
  userName : Option String := none
  groupId : Option ℤ := none
  groupName : Option String := none
  isRunning : Option Bool := none
  partition : Option String := none
  numNodes : Option RangeFilter := none
  numTasks : Option RangeFilter := none
  numGpus : Option RangeFilter := none
  time : Option RangeFilter := none
  tags : Option (List JobTag) := none
  deriving DecidableEq

/-! ## Job data -/

/-- The data of one metric: parsed, or raw. -/
structure MetricData where
  config : MetricConfig := {}
  data : Map String (List QueryResult) := Table.empty
  rawData : String := ""
  deriving DecidableEq

/-- The quantiles of one metric. -/
structure QuantileData where
  config : MetricConfig := {}
  quantiles : List String := []
  data : Map String (List QueryResult) := Table.empty
  rawData : String := ""
  deriving DecidableEq

/-- `JobData`. -/
structure JobData where
  metadata : JobMetadata := {}
  metricData : List MetricData := []
  quantileData : List QuantileData := []
  sampleInterval : ℚ := 0
  sampleIntervals : List ℚ := []
  deriving DecidableEq

/-! ## The sample interval of a job -/

/-- The number of points a chart should have at most. -/
def DEFAULT_MAX_POINTS_PER_JOB : ℚ := 200

/-- The sample intervals a user can choose from, in seconds. -/
def defaultIntervals : List ℚ := [30, 60, 120, 300, 600, 1800]

/-- The integer part of a number (`time.Duration` of a `float64`). -/
def truncate (q : ℚ) : ℤ := if 0 ≤ q then q.floor else q.ceil

/-- `CalculateSampleIntervals`: the intervals on offer, and the one that comes
closest to the wanted number of points. -/
def JobMetadata.calculateSampleIntervals (now : ℤ) (j : JobMetadata)
    (metricSampleInterval : Go.Duration) : List ℚ × Go.Duration :=
  let stopTime := if j.isRunning then now else j.stopTime
  let duration : ℚ := stopTime - j.startTime
  let secs := Go.seconds metricSampleInterval
  let datapoints := duration / secs
  let factor : ℚ := (datapoints / DEFAULT_MAX_POINTS_PER_JOB).ceil
  let bestInterval := factor * secs
  let bestAvailableInterval := defaultIntervals.foldl
    (fun best v => if |v - bestInterval| < |best - bestInterval| then v else best) secs
  (defaultIntervals.filter (fun v => secs ≤ v && v ≤ bestAvailableInterval),
    truncate bestAvailableInterval * Go.second)

/-- The clock is only read for a running job. -/
theorem JobMetadata.calculateSampleIntervals_of_stopped {j : JobMetadata}
    (h : j.isRunning = false) (now now' : ℤ) (d : Go.Duration) :
    j.calculateSampleIntervals now d = j.calculateSampleIntervals now' d := by
  simp [calculateSampleIntervals, h]

end JobMon
