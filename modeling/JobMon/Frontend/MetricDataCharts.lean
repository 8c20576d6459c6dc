import Mathlib.Data.List.Sort
import JobMon.Lib.GoText
import JobMon.Job.Types
import JobMon.Frontend.LineChart

/-!
# The charts of a job

`MetricDataCharts` and `prepareMetricData` of `components/jobview/MetricDataCharts.tsx`.

* `objectKeys` — `Object.keys`: array indices ascending, then the other keys as they were
  inserted.
* `MetricData.threadPoints`, `MetricData.seriesPoints` — the loop over the series of one
  node; for a metric of type `cpu` a hardware thread is added up with the one half the
  threads further, and the loop ends at the first id from there on.
* `MetricData.prepareMetricData` — the points of one chart.
* `metricDataCharts` — the points that the charts show, one chart after the other.
* `shows_range_iff` — exactly when they are the points between start and stop.
-/

namespace JobMon

open Keyed

namespace Charts

/-! ## Texts -/

/-- The code units of a text, by which texts are compared. -/
def utf16 (s : String) : List ℕ :=
  s.toList.flatMap fun c =>
    if c.toNat < 0x10000 then [c.toNat]
    else [0xD800 + (c.toNat - 0x10000) / 0x400, 0xDC00 + (c.toNat - 0x10000) % 0x400]

/-- `+node`: the value of a decimal text; any other text is not a number. -/
def number (s : String) : Option ℕ :=
  if s.toList.all Go.isDigit then some (Go.digitsVal s.toList) else none

/-- The index a key of an object stands for, if it does. -/
def arrayIndex (s : String) : Option ℕ :=
  (number s).bind fun n => if Nat.repr n = s ∧ n < 2 ^ 32 - 1 then some n else none

/-- `Object.keys`. -/
def objectKeys {ν : Type} (m : Map String ν) : List String :=
  let keys := m.rows.map Prod.fst
  (keys.filter fun k => (arrayIndex k).isSome).insertionSort
      (fun a b => (arrayIndex a).getD 0 ≤ (arrayIndex b).getD 0) ++
    keys.filter fun k => (arrayIndex k).isNone

/-- `Object.keys` are the keys, in some order. -/
theorem objectKeys_perm {ν : Type} (m : Map String ν) :
    (objectKeys m).Perm (m.rows.map Prod.fst) := by
  refine ((List.perm_insertionSort _ _).append_right _).trans ?_
  have hparts := List.filter_append_perm (fun k => (arrayIndex k).isSome) (m.rows.map Prod.fst)
  simpa only [Option.not_isSome] using hparts

/-! ## The data of a metric -/

/-- `MetricPoint`: its time, its value, and its columns as texts. -/
structure MetricPoint where
  time : Date
  value : ℚ
  columns : List (String × String) := []
  deriving DecidableEq

/-- `MetricData`; there may be no data. -/
structure MetricData where
  config : MetricConfig := {}
  data : Option (Map String (List MetricPoint)) := none

namespace MetricData

variable (config : MetricConfig) (data : Map String (List MetricPoint))

/-- `hThread`: the id half of `count` further, as a text. -/
def hThread (count : ℕ) (node : String) : String :=
  match number node with
  | none => "NaN"
  | some id =>
    if count % 2 = 0 then Nat.repr (id + count / 2) else Nat.repr (id + count / 2) ++ ".5"

/-- The value of a thread with that of its partner. -/
def aggThread (partner : ℚ) (val : MetricPoint) : MetricPoint :=
  if config.pThreadAggFn = "mean" then { val with value := (val.value + partner) / 2 }
  else { val with value := val.value + partner }

/-- The points of a hardware thread and of its partner, time step by time step. -/
def threadPoints (count : ℕ) (node : String) : List MetricPoint :=
  let pThreadData := (data.lookup node).getD []
  match data.lookup (hThread count node) with
  | some hThreadData =>
    pThreadData.mapIdx fun idx val =>
      aggThread config ((hThreadData[idx]?.map MetricPoint.value).getD 0) val
  | none => pThreadData

/-- `+node >= pThreadCount`, with `pThreadCount` half of `count`. -/
def beyond (count : ℕ) (node : String) : Bool :=
  match number node with
  | none => false
  | some id => count ≤ 2 * id

/-- The loop over the series of one node. -/
def seriesPoints (count : ℕ) : List String → List MetricPoint
  | [] => []
  | node :: nodes =>
    if config.type = "cpu" then
      if beyond count node then []
      else threadPoints config data count node ++ seriesPoints count nodes
    else (data.lookup node).getD [] ++ seriesPoints count nodes

/-- The column that separates the lines when it is not the thread. -/
def separationKey (nodeSelection : List String) : String :=
  if config.aggFn.toList.isSuffixOf config.measurement.toList ∨ 1 < nodeSelection.length then
    "hostname"
  else config.separationKey

/-- A column of a point. -/
def column (key : String) (d : MetricPoint) : Option String :=
  (d.columns.find? fun c => c.1 = key).map Prod.snd

/-- `prepareMetricData`: the points, and what differentiates them into lines. -/
def prepareMetricData (nodeSelection : List String) :
    List MetricPoint × Option (MetricPoint → Option String) :=
  let keys := objectKeys data
  if nodeSelection.length = 1 ∧ config.type ≠ "node" then
    (seriesPoints config data keys.length keys, some (column "type-id"))
  else if 0 < nodeSelection.length then
    let key := separationKey config nodeSelection
    ((keys.filter fun node => key ≠ "hostname" ∨ node ∈ nodeSelection).flatMap
        fun node => (data.lookup node).getD [],
      some fun d => some ((column key d).getD ""))
  else ([], none)

end MetricData

/-! ## The charts -/

/-- The metrics that get a chart, in the order of their names. -/
def sortedMetrics (metrics : List MetricData) :
    List (MetricConfig × Map String (List MetricPoint)) :=
  (metrics.insertionSort fun a b =>
      ¬ utf16 b.config.displayName < utf16 a.config.displayName).filterMap
    fun metric => metric.data.map fun data => (metric.config, data)

/-- The data that the charts are given. -/
def chartData (metrics : List MetricData) (nodeSelection : List String) : List (List MetricPoint) :=
  (sortedMetrics metrics).map fun m => (MetricData.prepareMetricData m.1 m.2 nodeSelection).1

/-- `MetricDataCharts`: the points that its charts show, at the time `now`. -/
def metricDataCharts (metrics : List MetricData) (nodeSelection : List String)
    (startTime stopTime : Option Date) (now : Date) : List (List MetricPoint) :=
  LineChart.drawCharts MetricPoint.time (startTime.getD 0, stopTime.getD now)
    (chartData metrics nodeSelection)

/-- **What the charts show.**  Each shows exactly its points between start and stop, when
all charts up to it have points on both sides of them. -/
theorem shows_range_iff (metrics : List MetricData) (nodeSelection : List String)
    (startTime stopTime : Option Date) (now : Date) :
    metricDataCharts metrics nodeSelection startTime stopTime now =
        (chartData metrics nodeSelection).map
          (LineChart.inRange MetricPoint.time (startTime.getD 0) (stopTime.getD now)) ↔
      ∀ before data after, chartData metrics nodeSelection = before ++ data :: after →
        ∀ p ∈ data, startTime.getD 0 ≤ p.time → p.time ≤ stopTime.getD now →
          ∀ chart ∈ before ++ [data], LineChart.Spans MetricPoint.time chart p.time :=
  LineChart.drawCharts_eq_iff

/-- A metric of one node, sampled every ten seconds up to the `last` time. -/
def sampled (name : String) (last : ℕ) : MetricData where
  config := { type := "node", displayName := name }
  data := some ⟨[("n1", (List.range last).map fun k => ⟨10000 * k, 1, []⟩)], by simp⟩

/-- A chart cuts those after it: the second metric has a point at twenty seconds, which
it shows when it is alone. -/
theorem later_chart_cut :
    metricDataCharts [sampled "flops" 2, sampled "power" 3] ["n1"] (some 0) (some 30000) 0 ≠
        (chartData [sampled "flops" 2, sampled "power" 3] ["n1"]).map
          (LineChart.inRange MetricPoint.time 0 30000) ∧
      metricDataCharts [sampled "power" 3] ["n1"] (some 0) (some 30000) 0 =
        (chartData [sampled "power" 3] ["n1"]).map
          (LineChart.inRange MetricPoint.time 0 30000) := by
  decide +kernel

end Charts

end JobMon
