import Mathlib.Data.List.Sort
import Mathlib.Data.List.Basic
import Mathlib.Data.String.Basic
import JobMon.Config.Types

/-!
# Reading, writing and updating the configuration

`Configuration.Init` and `Flush` of `config.go`, and the part of the router's
`UpdateConfig` that works on the configuration.

* `init` reads a file and refuses it with the first `Fatal` it finds;
  `init_eq_ok_iff` says when it does not.
* `flush` writes the running configuration; `decode_flush` says what a later
  read sees.
* `update` is what an update request does to the running configuration, given
  the decoded request body.
* `count_removeAll` — removing a list of GUIDs one by one takes away one
  occurrence for each time a GUID is listed, no more.

GUIDs for metrics that have none come from a stream `newUUID` that the caller
supplies, one text for each position of the metric list.
-/

namespace JobMon

open Keyed

/-! ## Metrics without a GUID, and the order of metrics -/

/-- Give every metric without a GUID a new one. -/
def addGUIDs (newUUID : ℕ → String) (metrics : List MetricConfig) : List MetricConfig :=
  metrics.mapIdx fun i mc => if mc.guid = "" then { mc with guid := newUUID i } else mc

/-- Sort metrics by display name, keeping the order of equal ones
(`sort.SliceStable`). -/
def sortMetrics (metrics : List MetricConfig) : List MetricConfig :=
  metrics.insertionSort fun a b => a.displayName ≤ b.displayName

/-- The GUIDs of a list of metrics. -/
def guids (metrics : List MetricConfig) : List String := metrics.map MetricConfig.guid

instance : Std.Total fun a b : MetricConfig => a.displayName ≤ b.displayName :=
  ⟨fun a b => le_total a.displayName b.displayName⟩

instance : IsTrans MetricConfig fun a b => a.displayName ≤ b.displayName :=
  ⟨fun _ _ _ h h' => le_trans h h'⟩

theorem sortMetrics_perm (metrics : List MetricConfig) : (sortMetrics metrics).Perm metrics :=
  List.perm_insertionSort _ metrics

theorem sortMetrics_idem (metrics : List MetricConfig) :
    sortMetrics (sortMetrics metrics) = sortMetrics metrics :=
  List.Pairwise.insertionSort_eq (List.pairwise_insertionSort _ metrics)

theorem mem_sortMetrics {metrics : List MetricConfig} {mc : MetricConfig} :
    mc ∈ sortMetrics metrics ↔ mc ∈ metrics :=
  (sortMetrics_perm metrics).mem_iff

theorem guids_sortMetrics_perm (metrics : List MetricConfig) :
    (guids (sortMetrics metrics)).Perm (guids metrics) :=
  (sortMetrics_perm metrics).map _

/-- Once every metric has a GUID, nothing is added any more. -/
theorem addGUIDs_eq_self {newUUID : ℕ → String} {metrics : List MetricConfig}
    (h : ∀ mc ∈ metrics, mc.guid ≠ "") : addGUIDs newUUID metrics = metrics := by
  refine List.ext_getElem (by simp [addGUIDs]) ?_
  intro i h₁ h₂
  have := h _ (List.getElem_mem h₂)
  simp [addGUIDs, this]

theorem guid_ne_of_mem_addGUIDs {newUUID : ℕ → String} (hnew : ∀ i, newUUID i ≠ "")
    {metrics : List MetricConfig} {mc : MetricConfig} (h : mc ∈ addGUIDs newUUID metrics) :
    mc.guid ≠ "" := by
  obtain ⟨i, hi, rfl⟩ := List.mem_mapIdx.1 h
  by_cases hg : metrics[i].guid = ""
  · simpa [hg] using hnew i
  · simp [hg]

/-- Adding GUIDs leaves the aggregation functions of a metric alone. -/
theorem forall_mem_addGUIDs {newUUID : ℕ → String} {metrics : List MetricConfig}
    {p : String → List String → Prop} :
    (∀ mc ∈ addGUIDs newUUID metrics, p mc.aggFn mc.availableAggFns) ↔
      ∀ mc ∈ metrics, p mc.aggFn mc.availableAggFns := by
  constructor
  · intro h mc hmc
    obtain ⟨i, hi, rfl⟩ := List.getElem_of_mem hmc
    have := h _ (List.mem_mapIdx.2 ⟨i, hi, rfl⟩)
    by_cases hg : metrics[i].guid = ""
    · simpa [hg] using this
    · simpa [hg] using this
  · intro h mc hmc
    obtain ⟨i, hi, rfl⟩ := List.mem_mapIdx.1 hmc
    have := h _ (List.getElem_mem hi)
    by_cases hg : metrics[i].guid = ""
    · simpa [hg] using this
    · simpa [hg] using this

/-! ## The checks of `Init` -/

/-- What `Configuration.Init` refuses a file for. -/
inductive Fatal
  | jsonWebTokenLifeTime (text : String)
  | apiTokenLifeTime (text : String)
  | partitionMetric (metric partName : String)
  | radarChartMetric (metric : String)
  | aggFn (guid aggFn : String)
  | availableAggFns (guid aggFn : String)
  deriving DecidableEq

/-- The text `Init` logs before it ends the process. -/
def Fatal.message : Fatal → String
  | .jsonWebTokenLifeTime t =>
    "config: Init(): Failed to parse json_web_token_life_time `" ++ t ++ "`: "
  | .apiTokenLifeTime t => "config: Init(): Failed to parse api_token_life_time `" ++ t ++ "`: "
  | .partitionMetric m p =>
    "config: Init(): Metric " ++ m ++ " from partition " ++ p ++ " config is not available"
  | .radarChartMetric m =>
    "config: Init(): Metric " ++ m ++ " from radar chart config is not available"
  | .aggFn g a => "config: Init(): Metric " ++ g ++ " uses unknown AggFn = " ++ a
  | .availableAggFns g a =>
    "config: Init(): Metric " ++ g ++ " uses unknown AvailableAggFns = " ++ a

/-- `aggFnAvailable`: the aggregation functions a metric may use. -/
def aggFnAvailable : List String := ["max", "mean", "min", "sum"]

/-- The first metric of a partition that is not configured. -/
def checkPartitions (available : List String) (partitions : Map String PartitionConfig) :
    Option Fatal :=
  partitions.rows.findSome? fun (partName, partConfig) =>
    partConfig.metrics.findSome? fun m =>
      if m ∈ available then none else some (.partitionMetric m partName)

/-- The first metric of the radar chart that is not configured. -/
def checkRadarChart (available radarChartMetrics : List String) : Option Fatal :=
  radarChartMetrics.findSome? fun m => if m ∈ available then none else some (.radarChartMetric m)

/-- The first aggregation function that is not allowed.  For an entry of
`AvailableAggFns` the message names the metric's `AggFn`, as in the source. -/
def checkAggFns (metrics : List MetricConfig) : Option Fatal :=
  metrics.findSome? fun mc =>
    if mc.aggFn ≠ "" ∧ mc.aggFn ∉ aggFnAvailable then some (.aggFn mc.guid mc.aggFn)
    else mc.availableAggFns.findSome? fun aggFn =>
      if aggFn ∈ aggFnAvailable then none else some (.availableAggFns mc.guid mc.aggFn)

/-- The default aggregation function of a metric is allowed, and so is every
function that can be chosen for it. -/
def AggFnsAllowed (aggFn : String) (availableAggFns : List String) : Prop :=
  (aggFn = "" ∨ aggFn ∈ aggFnAvailable) ∧ ∀ f ∈ availableAggFns, f ∈ aggFnAvailable

theorem checkPartitions_eq_none_iff {available : List String}
    {partitions : Map String PartitionConfig} :
    checkPartitions available partitions = none ↔
      ∀ p ∈ partitions.rows, ∀ m ∈ p.2.metrics, m ∈ available := by
  simp only [checkPartitions, List.findSome?_eq_none_iff, ite_eq_left_iff, reduceCtorEq,
    imp_false, Decidable.not_not]

theorem checkRadarChart_eq_none_iff {available radarChartMetrics : List String} :
    checkRadarChart available radarChartMetrics = none ↔
      ∀ m ∈ radarChartMetrics, m ∈ available := by
  simp only [checkRadarChart, List.findSome?_eq_none_iff, ite_eq_left_iff, reduceCtorEq,
    imp_false, Decidable.not_not]

theorem checkAggFns_eq_none_iff {metrics : List MetricConfig} :
    checkAggFns metrics = none ↔ ∀ mc ∈ metrics, AggFnsAllowed mc.aggFn mc.availableAggFns := by
  rw [checkAggFns, List.findSome?_eq_none_iff]
  refine forall₂_congr fun mc _ => ?_
  by_cases h : mc.aggFn ≠ "" ∧ mc.aggFn ∉ aggFnAvailable
  · rw [if_pos h, AggFnsAllowed]
    constructor
    · intro hc; exact absurd hc (by simp)
    · intro hc; exact absurd hc.1 (by simpa [not_or] using h)
  · rw [if_neg h, AggFnsAllowed, List.findSome?_eq_none_iff]
    have hagg : mc.aggFn = "" ∨ mc.aggFn ∈ aggFnAvailable := by
      by_contra hc
      exact h (by simpa [not_or] using hc)
    simp [hagg]

/-! ## Reading and writing the file -/

namespace Configuration

/-- What decoding a file yields on top of the default values. -/
def decode (cli : CLIConfig) (f : ConfigFile) : Configuration :=
  { toCLIConfig := cli
    toConfigBody := f.toConfigBody
    jsonWebTokenLifeTimeString := f.jsonWebTokenLifeTimeString.getD "24h"
    apiTokenLifeTimeString := f.apiTokenLifeTimeString.getD "87600h"
    autoAssignUserRole := f.autoAssignUserRole.getD false }

/-- `Configuration.Init`, for a file that exists and decodes. -/
def init (newUUID : ℕ → String) (cli : CLIConfig) (f : ConfigFile) : Except Fatal Configuration :=
  let c := decode cli f
  match Go.parseDuration c.jsonWebTokenLifeTimeString with
  | none => .error (.jsonWebTokenLifeTime c.jsonWebTokenLifeTimeString)
  | some jsonWebTokenLifeTime =>
    match Go.parseDuration c.apiTokenLifeTimeString with
    | none => .error (.apiTokenLifeTime c.apiTokenLifeTimeString)
    | some apiTokenLifeTime =>
      let metrics := addGUIDs newUUID c.metrics
      match (checkPartitions (guids metrics) c.partitions).or
          ((checkRadarChart (guids metrics) c.radarChartMetrics).or (checkAggFns metrics)) with
      | some e => .error e
      | none =>
        .ok { c with
          jsonWebTokenLifeTime := jsonWebTokenLifeTime
          apiTokenLifeTime := apiTokenLifeTime
          metrics := sortMetrics metrics }

/-- `Configuration.Flush`: the file it writes. -/
def flush (c : Configuration) : ConfigFile :=
  { toConfigBody := c.toConfigBody
    jsonWebTokenLifeTimeString := some c.jsonWebTokenLifeTimeString
    apiTokenLifeTimeString := some c.apiTokenLifeTimeString
    autoAssignUserRole := some c.autoAssignUserRole }

/-- What the Fatal checks of `db.Init` and `auth.Init` ask for when the backend starts. -/
def Startable (c : ConfigBody) : Prop :=
  c.dbHost ≠ "" ∧ c.dbToken ≠ "" ∧ c.dbOrg ≠ "" ∧ c.dbBucket ≠ "" ∧ c.jwtSecret ≠ ""

instance (c : ConfigBody) : Decidable (Startable c) := by
  unfold Startable
  infer_instance

/-- What a file holds, with the default life times of the tokens. -/
def ofBody (body : ConfigBody) : Configuration :=
  { toConfigBody := body
    jsonWebTokenLifeTimeString := "24h"
    jsonWebTokenLifeTime := 86400 * Go.second
    apiTokenLifeTimeString := "87600h"
    apiTokenLifeTime := 315360000 * Go.second }

/-- A file the backend starts with, and an administrator can log in. -/
def startableFile : ConfigFile :=
  { dbHost := "http://influxdb:8086"
    dbToken := "token"
    dbOrg := "jobmon"
    dbBucket := "metrics"
    jobStore := { type := "postgres", psqlHost := "postgres:5432", psqlDB := "jobmon" }
    jwtSecret := "secret"
    localUsers := ⟨[("admin", { bCryptHash := "hash", role := "admin" })],
      List.nodup_singleton "admin"⟩ }

/-- A written file decodes to what was written; only the two parsed life times,
which the file does not hold, are reset. -/
theorem decode_flush (c : Configuration) :
    decode c.toCLIConfig (flush c) = { c with jsonWebTokenLifeTime := 0, apiTokenLifeTime := 0 } :=
  rfl

/-- Both life times are texts `time.ParseDuration` reads. -/
def LifeTimesParse (c : Configuration) : Prop :=
  (Go.parseDuration c.jsonWebTokenLifeTimeString).isSome ∧
    (Go.parseDuration c.apiTokenLifeTimeString).isSome

/-- The references of a configuration are met and its aggregation functions are
allowed: what the Fatal checks of `Init` look at. -/
structure Valid (metrics : List MetricConfig) (partitions : Map String PartitionConfig)
    (radarChartMetrics : List String) : Prop where
  partitions : ∀ p ∈ partitions.rows, ∀ m ∈ p.2.metrics, m ∈ guids metrics
  radarChart : ∀ m ∈ radarChartMetrics, m ∈ guids metrics
  aggFns : ∀ mc ∈ metrics, AggFnsAllowed mc.aggFn mc.availableAggFns

theorem checks_eq_none_iff {metrics : List MetricConfig} {partitions : Map String PartitionConfig}
    {radarChartMetrics : List String} :
    (checkPartitions (guids metrics) partitions).or
        ((checkRadarChart (guids metrics) radarChartMetrics).or (checkAggFns metrics)) = none ↔
      Valid metrics partitions radarChartMetrics := by
  rw [Option.or_eq_none_iff, Option.or_eq_none_iff, checkPartitions_eq_none_iff,
    checkRadarChart_eq_none_iff, checkAggFns_eq_none_iff]
  exact ⟨fun h => ⟨h.1, h.2.1, h.2.2⟩, fun h => ⟨h.partitions, h.radarChart, h.aggFns⟩⟩

/-- **When `Init` accepts a file, and what it then yields.** -/
theorem init_eq_ok_iff {newUUID : ℕ → String} {cli : CLIConfig} {f : ConfigFile}
    {c : Configuration} :
    init newUUID cli f = .ok c ↔
      ∃ j a, Go.parseDuration (decode cli f).jsonWebTokenLifeTimeString = some j ∧
        Go.parseDuration (decode cli f).apiTokenLifeTimeString = some a ∧
        Valid (addGUIDs newUUID f.metrics) f.partitions f.radarChartMetrics ∧
        c = { decode cli f with
          jsonWebTokenLifeTime := j
          apiTokenLifeTime := a
          metrics := sortMetrics (addGUIDs newUUID f.metrics) } := by
  rw [← checks_eq_none_iff]
  cases hj : Go.parseDuration (decode cli f).jsonWebTokenLifeTimeString with
  | none => simp [init, hj]
  | some j =>
    cases ha : Go.parseDuration (decode cli f).apiTokenLifeTimeString with
    | none => simp [init, hj, ha]
    | some a =>
      cases hv : (checkPartitions (guids (addGUIDs newUUID f.metrics)) f.partitions).or
          ((checkRadarChart (guids (addGUIDs newUUID f.metrics)) f.radarChartMetrics).or
            (checkAggFns (addGUIDs newUUID f.metrics))) with
      | some e =>
        simp [init, hj, ha, show (decode cli f).toConfigBody = f.toConfigBody from rfl, hv]
      | none =>
        have hinit : init newUUID cli f = .ok { decode cli f with
            jsonWebTokenLifeTime := j
            apiTokenLifeTime := a
            metrics := sortMetrics (addGUIDs newUUID f.metrics) } := by
          simp [init, hj, ha, show (decode cli f).toConfigBody = f.toConfigBody from rfl, hv]
        rw [hinit, Except.ok.injEq]
        constructor
        · intro h
          exact ⟨j, a, rfl, rfl, rfl, h.symm⟩
        · rintro ⟨j', a', hj', ha', -, rfl⟩
          cases hj'
          cases ha'
          rfl

end Configuration

/-! ## Updating the running configuration -/

/-- `GetDeletedMetrics`: the GUIDs of the old metrics that the new ones lack. -/
def getDeletedMetrics (newMetrics oldMetrics : List MetricConfig) : List String :=
  (guids oldMetrics).filter fun g => !Utils.contains (guids newMetrics) g

/-- Remove the given GUIDs one after the other, each once
(the loop around `utils.Remove`). -/
def removeAll (l removed : List String) : List String := removed.foldl Utils.remove l

/-- `PartitionConfig.RemoveMissingMetrics`: virtual partitions are left alone. -/
def PartitionConfig.removeMissingMetrics (pc : PartitionConfig) (metrics : List String) :
    PartitionConfig :=
  { pc with metrics := removeAll pc.metrics metrics }

/-- What `UpdateConfig` makes of the running configuration, given the
configuration decoded from the request body. -/
def Configuration.update (newUUID : ℕ → String) (r conf : Configuration) : Configuration :=
  let metrics := sortMetrics (addGUIDs newUUID conf.metrics)
  let deletedGuids := getDeletedMetrics metrics r.metrics
  let partitions :=
    if deletedGuids.length > 0 then
      conf.partitions.mapValues fun pc => pc.removeMissingMetrics deletedGuids
    else conf.partitions
  let radarChartMetrics :=
    if deletedGuids.length > 0 then removeAll r.radarChartMetrics deletedGuids
    else r.radarChartMetrics
  { r with
    metrics := metrics
    partitions := partitions
    metricCategories := conf.metricCategories
    radarChartMetrics := radarChartMetrics }

theorem removeAll_cons (l removed : List String) (d : String) :
    removeAll l (d :: removed) = removeAll (l.erase d) removed := by
  rw [removeAll, List.foldl_cons, Utils.remove_eq_erase]
  rfl

/-- Every time a GUID is listed for removal, one occurrence of it goes. -/
theorem count_removeAll (l removed : List String) (g : String) :
    (removeAll l removed).count g = l.count g - removed.count g := by
  induction removed generalizing l with
  | nil => rfl
  | cons d removed ih =>
    rw [removeAll_cons, ih, List.count_erase, List.count_cons]
    omega

theorem count_getDeletedMetrics (new old : List MetricConfig) (g : String) :
    (getDeletedMetrics new old).count g = if g ∈ guids new then 0 else (guids old).count g := by
  by_cases h : g ∈ guids new
  · rw [if_pos h, List.count_eq_zero, getDeletedMetrics, List.mem_filter]
    simp [h]
  · rw [if_neg h, getDeletedMetrics, List.count_filter]
    simp [h]

/-- **What is left of a list after an update.**  A GUID stays in the list if it
is still configured, and otherwise if it was listed more often than it was
configured. -/
theorem mem_removeAll_getDeletedMetrics {new old : List MetricConfig} {l : List String}
    {g : String} :
    g ∈ removeAll l (getDeletedMetrics new old) ↔
      g ∈ l ∧ (g ∈ guids new ∨ (guids old).count g < l.count g) := by
  rw [← List.count_pos_iff, count_removeAll, count_getDeletedMetrics, ← List.count_pos_iff (l := l)]
  by_cases h : g ∈ guids new
  · simp [h]
  · simp only [h, if_false, false_or]
    omega

/-- Updating always ends as if the removal had been made, also when nothing was
deleted. -/
theorem removeAll_guarded (l removed : List String) :
    (if removed.length > 0 then removeAll l removed else l) = removeAll l removed := by
  by_cases h : removed.length > 0
  · rw [if_pos h]
  · have : removed = [] := List.eq_nil_of_length_eq_zero (by omega)
    rw [if_neg h, this]
    rfl

end JobMon
