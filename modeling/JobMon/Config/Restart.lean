import Mathlib.Data.List.Induction
import JobMon.Config.Update

/-!
# Does the backend start again?

After every configuration update the running configuration is flushed to the
file, and the next start of the backend reads that file with `Init`, which ends
the process on the first dangling reference or unknown aggregation function.

* `WellFormed` — what every update keeps: metrics are sorted and have a GUID, and
  both life times parse.
* `restartSafe_iff` — for such a configuration, a restart succeeds, with the same
  metrics, partitions, categories and radar chart, exactly when its references
  are met.
* `valid_update_iff` — what an update must satisfy for that.
* `updates_restartSafe_iff` — the same for a whole sequence of updates.
-/

namespace JobMon

open Keyed

namespace Configuration

/-- The part of an update request that `UpdateConfig` works on: the decoded body
and the GUIDs it draws for metrics that have none. -/
structure UpdateRequest where
  conf : Configuration
  newUUID : ℕ → String

/-- The metrics after the update. -/
def UpdateRequest.metrics (req : UpdateRequest) : List MetricConfig :=
  sortMetrics (addGUIDs req.newUUID req.conf.metrics)

/-- A sequence of updates, the first one first. -/
def updates (r : Configuration) (reqs : List UpdateRequest) : Configuration :=
  reqs.foldl (fun c req => c.update req.newUUID req.conf) r

/-- The flushed file is accepted by `Init`, and `Init` yields the metrics,
partitions, categories and radar chart that were running. -/
def RestartSafe (newUUID : ℕ → String) (cli : CLIConfig) (c : Configuration) : Prop :=
  ∃ c', init newUUID cli c.flush = .ok c' ∧ c'.metrics = c.metrics ∧
    c'.partitions = c.partitions ∧ c'.metricCategories = c.metricCategories ∧
    c'.radarChartMetrics = c.radarChartMetrics

/-- What `Init` establishes and every update keeps. -/
structure WellFormed (c : Configuration) : Prop where
  sorted : sortMetrics c.metrics = c.metrics
  guid_ne : ∀ mc ∈ c.metrics, mc.guid ≠ ""
  lifeTimes : c.LifeTimesParse

/-! ## One restart -/

theorem addGUIDs_valid_iff {newUUID : ℕ → String} {c : Configuration} (h : c.WellFormed) :
    Valid (addGUIDs newUUID c.metrics) c.partitions c.radarChartMetrics ↔
      Valid c.metrics c.partitions c.radarChartMetrics := by
  rw [addGUIDs_eq_self h.guid_ne]

/-- **A restart succeeds exactly when the references of the running configuration
are met and its aggregation functions are allowed.** -/
theorem restartSafe_iff {newUUID : ℕ → String} {cli : CLIConfig} {c : Configuration}
    (h : c.WellFormed) :
    RestartSafe newUUID cli c ↔ Valid c.metrics c.partitions c.radarChartMetrics := by
  constructor
  · rintro ⟨c', hinit, -⟩
    obtain ⟨j, a, -, -, hvalid, -⟩ := init_eq_ok_iff.1 hinit
    exact (addGUIDs_valid_iff h).1 hvalid
  · intro hvalid
    obtain ⟨j, hj⟩ := Option.isSome_iff_exists.1 h.lifeTimes.1
    obtain ⟨a, ha⟩ := Option.isSome_iff_exists.1 h.lifeTimes.2
    refine ⟨_, init_eq_ok_iff.2 ⟨j, a, hj, ha, (addGUIDs_valid_iff h).2 hvalid, rfl⟩, ?_, rfl, rfl,
      rfl⟩
    show sortMetrics (addGUIDs newUUID c.metrics) = c.metrics
    rw [addGUIDs_eq_self h.guid_ne, h.sorted]

/-! ## What `Init` and `UpdateConfig` establish -/

theorem guid_ne_of_mem_sortMetrics {newUUID : ℕ → String} (hnew : ∀ i, newUUID i ≠ "")
    {metrics : List MetricConfig} {mc : MetricConfig}
    (h : mc ∈ sortMetrics (addGUIDs newUUID metrics)) : mc.guid ≠ "" :=
  guid_ne_of_mem_addGUIDs hnew (mem_sortMetrics.1 h)

theorem wellFormed_of_init {newUUID : ℕ → String} {cli : CLIConfig} {f : ConfigFile}
    {c : Configuration} (hnew : ∀ i, newUUID i ≠ "") (h : init newUUID cli f = .ok c) :
    c.WellFormed := by
  obtain ⟨j, a, hj, ha, -, rfl⟩ := init_eq_ok_iff.1 h
  refine ⟨sortMetrics_idem _, fun mc hmc => guid_ne_of_mem_sortMetrics hnew hmc, ?_, ?_⟩
  · exact Option.isSome_iff_exists.2 ⟨j, hj⟩
  · exact Option.isSome_iff_exists.2 ⟨a, ha⟩

/-- Sorting does not change which references are met. -/
theorem valid_sortMetrics_iff {metrics : List MetricConfig}
    {partitions : Map String PartitionConfig} {radarChartMetrics : List String} :
    Valid (sortMetrics metrics) partitions radarChartMetrics ↔
      Valid metrics partitions radarChartMetrics := by
  have hguid : ∀ g, g ∈ guids (sortMetrics metrics) ↔ g ∈ guids metrics :=
    fun g => (guids_sortMetrics_perm metrics).mem_iff
  constructor
  · intro h
    exact ⟨fun p hp m hm => (hguid m).1 (h.partitions p hp m hm),
      fun m hm => (hguid m).1 (h.radarChart m hm),
      fun mc hmc => h.aggFns mc (mem_sortMetrics.2 hmc)⟩
  · intro h
    exact ⟨fun p hp m hm => (hguid m).2 (h.partitions p hp m hm),
      fun m hm => (hguid m).2 (h.radarChart m hm),
      fun mc hmc => h.aggFns mc (mem_sortMetrics.1 hmc)⟩

theorem valid_of_init {newUUID : ℕ → String} {cli : CLIConfig} {f : ConfigFile}
    {c : Configuration} (h : init newUUID cli f = .ok c) :
    Valid c.metrics c.partitions c.radarChartMetrics := by
  obtain ⟨j, a, -, -, hvalid, rfl⟩ := init_eq_ok_iff.1 h
  exact valid_sortMetrics_iff.2 hvalid

theorem wellFormed_update {r : Configuration} {req : UpdateRequest} (h : r.WellFormed)
    (hnew : ∀ i, req.newUUID i ≠ "") : (r.update req.newUUID req.conf).WellFormed :=
  ⟨sortMetrics_idem _, fun _ hmc => guid_ne_of_mem_sortMetrics hnew hmc, h.lifeTimes⟩

theorem updates_append_singleton (r : Configuration) (reqs : List UpdateRequest)
    (req : UpdateRequest) :
    r.updates (reqs ++ [req]) = (r.updates reqs).update req.newUUID req.conf := by
  rw [updates, List.foldl_append]
  rfl

theorem wellFormed_updates {r : Configuration} {reqs : List UpdateRequest} (h : r.WellFormed)
    (hnew : ∀ req ∈ reqs, ∀ i, req.newUUID i ≠ "") : (r.updates reqs).WellFormed := by
  induction reqs using List.reverseRecOn with
  | nil => exact h
  | append_singleton reqs req ih =>
    rw [updates_append_singleton]
    exact wellFormed_update (ih fun req' h' => hnew req' (List.mem_append_left _ h'))
      (hnew req (by simp))

/-! ## What an update must satisfy -/

/-- Every GUID of the list is configured after the update, or the old metrics
hold it at least as often as the list does. -/
def ReferencesKept (old : Configuration) (req : UpdateRequest) (l : List String) : Prop :=
  ∀ g ∈ l, g ∈ guids req.metrics ∨ l.count g ≤ (guids old.metrics).count g

/-- The references of the partitions in the request and of the running radar
chart are kept, and the request names allowed aggregation functions only. -/
structure KeepsReferences (old : Configuration) (req : UpdateRequest) : Prop where
  partitions : ∀ p ∈ req.conf.partitions.rows, ReferencesKept old req p.2.metrics
  radarChart : ReferencesKept old req old.radarChartMetrics
  aggFns : ∀ mc ∈ req.conf.metrics, AggFnsAllowed mc.aggFn mc.availableAggFns

/-- The GUIDs an update takes out of every list. -/
def deletedGuids (old : Configuration) (req : UpdateRequest) : List String :=
  getDeletedMetrics req.metrics old.metrics

theorem update_radarChartMetrics (old : Configuration) (req : UpdateRequest) :
    (old.update req.newUUID req.conf).radarChartMetrics =
      removeAll old.radarChartMetrics (deletedGuids old req) :=
  removeAll_guarded _ _

theorem update_partitions_rows (old : Configuration) (req : UpdateRequest) :
    (old.update req.newUUID req.conf).partitions.rows =
      req.conf.partitions.rows.map fun p =>
        (p.1, p.2.removeMissingMetrics (deletedGuids old req)) := by
  show (if (deletedGuids old req).length > 0 then
      req.conf.partitions.mapValues fun pc => pc.removeMissingMetrics (deletedGuids old req)
    else req.conf.partitions).rows = _
  by_cases h : (deletedGuids old req).length > 0
  · rw [if_pos h]
    rfl
  · have hnil : deletedGuids old req = [] := List.eq_nil_of_length_eq_zero (by omega)
    rw [if_neg h, hnil]
    exact (List.map_id _).symm

theorem lookup_update_partitions (old : Configuration) (req : UpdateRequest) (k : String) :
    (old.update req.newUUID req.conf).partitions.lookup k =
      (req.conf.partitions.lookup k).map fun pc =>
        pc.removeMissingMetrics (deletedGuids old req) := by
  rw [← Map.lookup_mapValues]
  congr 1
  exact Table.ext' (update_partitions_rows old req)

/-- A list loses all its dangling references exactly when it keeps them. -/
theorem forall_mem_removeAll_iff {old : Configuration} {req : UpdateRequest} {l : List String} :
    (∀ g ∈ removeAll l (deletedGuids old req), g ∈ guids req.metrics) ↔
      ReferencesKept old req l := by
  constructor
  · intro h g hg
    by_cases hnew : g ∈ guids req.metrics
    · exact Or.inl hnew
    · right
      by_contra hcount
      exact hnew (h g (mem_removeAll_getDeletedMetrics.2 ⟨hg, Or.inr (by omega)⟩))
  · intro h g hg
    obtain ⟨hmem, hnew | hcount⟩ := mem_removeAll_getDeletedMetrics.1 hg
    · exact hnew
    · rcases h g hmem with hnew | hle
      · exact hnew
      · exact absurd hcount (by omega)

/-- **The references after an update are met exactly when the update keeps them.** -/
theorem valid_update_iff (old : Configuration) (req : UpdateRequest) :
    Valid (old.update req.newUUID req.conf).metrics (old.update req.newUUID req.conf).partitions
        (old.update req.newUUID req.conf).radarChartMetrics ↔
      KeepsReferences old req := by
  have hmetrics : (old.update req.newUUID req.conf).metrics = req.metrics := rfl
  have hagg : (∀ mc ∈ req.metrics, AggFnsAllowed mc.aggFn mc.availableAggFns) ↔
      ∀ mc ∈ req.conf.metrics, AggFnsAllowed mc.aggFn mc.availableAggFns := by
    rw [← @forall_mem_addGUIDs req.newUUID req.conf.metrics AggFnsAllowed]
    exact forall_congr' fun mc => imp_congr_left mem_sortMetrics
  have hpart : (∀ p ∈ (old.update req.newUUID req.conf).partitions.rows,
        ∀ m ∈ p.2.metrics, m ∈ guids req.metrics) ↔
      ∀ p ∈ req.conf.partitions.rows, ReferencesKept old req p.2.metrics := by
    rw [update_partitions_rows, List.forall_mem_map]
    exact forall₂_congr fun p _ => forall_mem_removeAll_iff
  rw [hmetrics, update_radarChartMetrics]
  constructor
  · intro h
    exact ⟨hpart.1 h.partitions, forall_mem_removeAll_iff.1 h.radarChart, hagg.1 h.aggFns⟩
  · intro h
    exact ⟨hpart.2 h.partitions, forall_mem_removeAll_iff.2 h.radarChart, hagg.2 h.aggFns⟩

/-! ## Any number of updates -/

/-- **Restart after any sequence of updates.**  Starting from a configuration that
`Init` accepted, the file on disk is accepted again, with the running metrics,
partitions, categories and radar chart, exactly when the last update keeps the
references of the configuration it found. -/
theorem updates_restartSafe_iff {newUUID newUUID' : ℕ → String} {cli cli' : CLIConfig}
    {f : ConfigFile} {c₀ : Configuration} {reqs : List UpdateRequest}
    (hinit : init newUUID cli f = .ok c₀) (hnew : ∀ i, newUUID i ≠ "")
    (hreqs : ∀ req ∈ reqs, ∀ i, req.newUUID i ≠ "") :
    RestartSafe newUUID' cli' (c₀.updates reqs) ↔
      ∀ pre req, reqs = pre ++ [req] → KeepsReferences (c₀.updates pre) req := by
  rw [restartSafe_iff (wellFormed_updates (wellFormed_of_init hnew hinit) hreqs)]
  rcases List.eq_nil_or_concat reqs with rfl | ⟨pre, req, rfl⟩
  · constructor
    · intro _ pre req h
      simp at h
    · intro _
      exact valid_of_init hinit
  · rw [List.concat_eq_append, updates_append_singleton, valid_update_iff]
    constructor
    · intro h pre' req' heq
      obtain ⟨rfl, hlast⟩ := List.append_inj' heq rfl
      cases hlast
      exact h
    · intro h
      exact h pre req rfl

/-! ## A partition that lists a metric twice -/

/-- One metric, and a partition that lists it twice. -/
def duplicateFile : ConfigFile :=
  { metrics := [{ guid := "a", displayName := "A" }]
    partitions := ⟨[("p", { metrics := ["a", "a"] })], by decide⟩ }

/-- The metric is deleted; the partition is sent back as it was. -/
def deleteMetric : UpdateRequest :=
  { conf := { metrics := [], partitions := duplicateFile.partitions }
    newUUID := fun _ => "u" }

/-- The configuration the backend runs with after reading `duplicateFile`. -/
def duplicateRunning : Configuration :=
  { decode {} duplicateFile with
    jsonWebTokenLifeTime := 86400000000000
    apiTokenLifeTime := 315360000000000000 }

theorem init_duplicateFile : init (fun _ => "u") {} duplicateFile = .ok duplicateRunning := by
  decide

/-- One of the two entries survives, and the next start ends on it. -/
theorem duplicate_not_restartSafe :
    init (fun _ => "u") {} duplicateFile = .ok duplicateRunning ∧
      init (fun _ => "u") {} (duplicateRunning.updates [deleteMetric]).flush =
        .error (.partitionMetric "a" "p") ∧
      ¬ RestartSafe (fun _ => "u") {} (duplicateRunning.updates [deleteMetric]) := by
  have hfatal : init (fun _ => "u") {} (duplicateRunning.updates [deleteMetric]).flush =
      .error (.partitionMetric "a" "p") := by decide
  refine ⟨init_duplicateFile, hfatal, ?_⟩
  rintro ⟨c', hok, -⟩
  rw [hfatal] at hok
  cases hok

/-- The same update with the partition listing its metric once. -/
def deleteMetricOnce : UpdateRequest :=
  { conf := { metrics := [], partitions := ⟨[("p", { metrics := ["a"] })], by decide⟩ }
    newUUID := fun _ => "u" }

theorem updates_restartSafe_iff_deleteMetricOnce :
    RestartSafe (fun _ => "v") {} (duplicateRunning.updates [deleteMetricOnce]) ↔
      ∀ pre req, [deleteMetricOnce] = pre ++ [req] →
        KeepsReferences (duplicateRunning.updates pre) req :=
  updates_restartSafe_iff init_duplicateFile (fun _ => by decide)
    (List.forall_mem_singleton.2 fun _ => show "u" ≠ "" by decide)

end Configuration

end JobMon
