import JobMon.Config.Restart
import JobMon.Router.Write

/-!
# Deleting a metric

`UpdateConfig` removes the references to metrics that the new list of metrics lacks: from
the partitions of the request, and from the running radar chart.  Each GUID is removed as
often as the old list of metrics has it, and the virtual partitions are left alone.

* `Purged` — a list without certain GUIDs, and otherwise as it was.
* `filter_removeAll`, `purged_removeAll_iff` — what removing GUIDs one by one leaves.
* `UpdatePurges` — all lists of references are purged of the deleted metrics.
* `updateConfig_purges_iff` — when they are.
-/

namespace JobMon

open Keyed

/-! ## Purged lists -/

/-- None of `deleted` is in the new list, and everything else is kept, in its order and
as often as it was there. -/
def Purged (deleted old new : List String) : Prop :=
  (∀ g ∈ deleted, g ∉ new) ∧
    (new.filter fun g => g ∉ deleted) = old.filter fun g => g ∉ deleted

theorem filter_erase_of_neg {p : String → Bool} {d : String} (h : p d = false) (l : List String) :
    (l.erase d).filter p = l.filter p := by
  induction l with
  | nil => rfl
  | cons g l ih =>
    by_cases hg : g = d
    · rw [hg, List.erase_cons_head, List.filter_cons_of_neg (by simp [h])]
    · rw [List.erase_cons_tail (by simpa using hg)]
      cases hp : p g with
      | false =>
        rw [List.filter_cons_of_neg (by simp [hp]), List.filter_cons_of_neg (by simp [hp]), ih]
      | true => rw [List.filter_cons_of_pos hp, List.filter_cons_of_pos hp, ih]

/-- Removing GUIDs leaves everything else as it is. -/
theorem filter_removeAll {p : String → Bool} {removed : List String}
    (h : ∀ d ∈ removed, p d = false) (l : List String) :
    (removeAll l removed).filter p = l.filter p := by
  induction removed generalizing l with
  | nil => rfl
  | cons d removed ih =>
    rw [removeAll_cons, ih (fun d' hd' => h d' (List.mem_cons_of_mem _ hd')),
      filter_erase_of_neg (h d List.mem_cons_self)]

/-- Removing purges a list exactly when it holds no GUID more often than it is removed. -/
theorem purged_removeAll_iff (deleted l : List String) :
    Purged deleted l (removeAll l deleted) ↔ ∀ g ∈ deleted, l.count g ≤ deleted.count g := by
  have hkept := @filter_removeAll (fun g => g ∉ deleted) deleted (by simp) l
  have hcount : ∀ g, g ∉ removeAll l deleted ↔ l.count g ≤ deleted.count g := by
    intro g
    rw [← List.count_eq_zero, count_removeAll]
    omega
  constructor
  · intro h g hg
    exact (hcount g).1 (h.1 g hg)
  · intro h
    exact ⟨fun g hg => (hcount g).2 (h g hg), hkept⟩

theorem purged_self_iff (deleted l : List String) :
    Purged deleted l l ↔ ∀ g ∈ deleted, g ∉ l :=
  ⟨fun h => h.1, fun h => ⟨h, rfl⟩⟩

/-! ## What a request deletes -/

/-- The metrics a request submits; a body that is not decoded submits none, and the
running ones stay. -/
def submittedMetrics (newUUID : ℕ → String) (b : Backend) : Body Configuration → List MetricConfig
  | .decoded conf => addGUIDs newUUID conf.metrics
  | _ => b.config.metrics

/-- And the partitions. -/
def submittedPartitions (b : Backend) : Body Configuration → Map String PartitionConfig
  | .decoded conf => conf.partitions
  | _ => b.config.partitions

/-- The GUIDs of running metrics that the submitted ones lack. -/
def deletedBy (newUUID : ℕ → String) (b : Backend) (body : Body Configuration) : List String :=
  getDeletedMetrics (submittedMetrics newUUID b body) b.config.metrics

/-- A partition and its virtual partitions are purged. -/
def PartitionConfig.Purged (deleted : List String) (old new : PartitionConfig) : Prop :=
  JobMon.Purged deleted old.metrics new.metrics ∧
    ∀ name, Option.Rel (fun vp vp' => JobMon.Purged deleted vp.metrics vp'.metrics)
      (old.virtualPartitions.lookup name) (new.virtualPartitions.lookup name)

/-- All references to deleted metrics are gone after the update, and nothing else is. -/
structure UpdatePurges (newUUID : ℕ → String) (b : Backend) (body : Body Configuration)
    (b' : Backend) : Prop where
  partitions : ∀ name, Option.Rel (PartitionConfig.Purged (deletedBy newUUID b body))
    ((submittedPartitions b body).lookup name) (b'.config.partitions.lookup name)
  radarChart : Purged (deletedBy newUUID b body) b.config.radarChartMetrics
    b'.config.radarChartMetrics

theorem getDeletedMetrics_sortMetrics (new old : List MetricConfig) :
    getDeletedMetrics (sortMetrics new) old = getDeletedMetrics new old := by
  refine List.filter_congr fun g _ => ?_
  have h : Utils.contains (guids (sortMetrics new)) g = Utils.contains (guids new) g := by
    rw [Bool.eq_iff_iff, Utils.contains_eq_true_iff, Utils.contains_eq_true_iff]
    exact (guids_sortMetrics_perm new).mem_iff
  rw [h]

/-- A body that is not decoded deletes nothing. -/
theorem getDeletedMetrics_self (metrics : List MetricConfig) :
    getDeletedMetrics metrics metrics = [] := by
  rw [getDeletedMetrics, List.filter_eq_nil_iff]
  intro g hg
  simp [hg]

theorem count_deletedBy {newUUID : ℕ → String} {b : Backend} {body : Body Configuration}
    {g : String} (h : g ∈ deletedBy newUUID b body) :
    (deletedBy newUUID b body).count g = (guids b.config.metrics).count g := by
  have hnew : g ∉ guids (submittedMetrics newUUID b body) := by
    have hfilter := (List.mem_filter.1 h).2
    simpa using hfilter
  rw [deletedBy, count_getDeletedMetrics, if_neg hnew]

/-! ## What the update leaves -/

theorem config_updateConfig_decoded (newUUID : ℕ → String) (b : Backend) (conf : Configuration) :
    (updateConfig newUUID b (.decoded conf)).2.config = b.config.update newUUID conf := rfl

theorem lookup_updateConfig (newUUID : ℕ → String) (b : Backend) (body : Body Configuration)
    (name : String) :
    (updateConfig newUUID b body).2.config.partitions.lookup name =
      ((submittedPartitions b body).lookup name).map fun pc =>
        pc.removeMissingMetrics (deletedBy newUUID b body) := by
  have hself : ∀ pc : PartitionConfig, pc.removeMissingMetrics [] = pc := fun _ => rfl
  cases body with
  | unreadable => simp [updateConfig, submittedPartitions, deletedBy, submittedMetrics,
      getDeletedMetrics_self, hself]
  | malformed text => simp [updateConfig, submittedPartitions, deletedBy, submittedMetrics,
      getDeletedMetrics_self, hself]
  | decoded conf =>
    have h := Configuration.lookup_update_partitions b.config ⟨conf, newUUID⟩ name
    rw [config_updateConfig_decoded, h, Configuration.deletedGuids,
      Configuration.UpdateRequest.metrics, getDeletedMetrics_sortMetrics]
    rfl

theorem radarChartMetrics_updateConfig (newUUID : ℕ → String) (b : Backend)
    (body : Body Configuration) :
    (updateConfig newUUID b body).2.config.radarChartMetrics =
      removeAll b.config.radarChartMetrics (deletedBy newUUID b body) := by
  cases body with
  | unreadable =>
    simp [updateConfig, deletedBy, submittedMetrics, getDeletedMetrics_self, removeAll]
  | malformed text =>
    simp [updateConfig, deletedBy, submittedMetrics, getDeletedMetrics_self, removeAll]
  | decoded conf =>
    have h := Configuration.update_radarChartMetrics b.config ⟨conf, newUUID⟩
    rw [config_updateConfig_decoded, h, Configuration.deletedGuids,
      Configuration.UpdateRequest.metrics, getDeletedMetrics_sortMetrics]
    rfl

/-! ## When all references go -/

/-- Related to its own image, entry by entry. -/
theorem rel_lookup_map_iff {κ ν : Type} [DecidableEq κ] {R : ν → ν → Prop} {f : ν → ν}
    (m : Map κ ν) :
    (∀ k, Option.Rel R (m.lookup k) ((m.lookup k).map f)) ↔ ∀ p ∈ m.rows, R p.2 (f p.2) := by
  constructor
  · intro h p hp
    have hrel := h p.1
    rw [Map.lookup_eq_some_iff.2 hp, Option.map_some] at hrel
    cases hrel with
    | some hR => exact hR
  · intro h k
    cases hk : m.lookup k with
    | none => exact .none
    | some v => exact .some (h (k, v) (Map.lookup_eq_some_iff.1 hk))

theorem purged_removeMissingMetrics_iff (deleted : List String) (pc : PartitionConfig) :
    PartitionConfig.Purged deleted pc (pc.removeMissingMetrics deleted) ↔
      (∀ g ∈ deleted, pc.metrics.count g ≤ deleted.count g) ∧
        ∀ vp ∈ pc.virtualPartitions.rows, ∀ g ∈ deleted, g ∉ vp.2.metrics := by
  have hvirtual : (∀ name, Option.Rel (fun vp vp' => Purged deleted vp.metrics vp'.metrics)
      (pc.virtualPartitions.lookup name) (pc.virtualPartitions.lookup name)) ↔
        ∀ vp ∈ pc.virtualPartitions.rows, Purged deleted vp.2.metrics vp.2.metrics := by
    have h := @rel_lookup_map_iff _ _ _
      (fun vp vp' : VirtualPartitionConfig => Purged deleted vp.metrics vp'.metrics) id
      pc.virtualPartitions
    simp only [Option.map_id, id] at h
    exact h
  show JobMon.Purged deleted pc.metrics (removeAll pc.metrics deleted) ∧ _ ↔ _
  rw [purged_removeAll_iff]
  refine and_congr_right fun _ => hvirtual.trans ?_
  exact forall₂_congr fun vp _ => purged_self_iff deleted vp.2.metrics

/-- **When an update removes all references to the metrics it deletes**: no list has such
a GUID more often than the old list of metrics, and no virtual partition has it at all. -/
theorem updateConfig_purges_iff (newUUID : ℕ → String) (b : Backend) (body : Body Configuration) :
    UpdatePurges newUUID b body (updateConfig newUUID b body).2 ↔
      ∀ g ∈ deletedBy newUUID b body,
        (∀ p ∈ (submittedPartitions b body).rows,
          p.2.metrics.count g ≤ (guids b.config.metrics).count g ∧
            ∀ vp ∈ p.2.virtualPartitions.rows, g ∉ vp.2.metrics) ∧
        b.config.radarChartMetrics.count g ≤ (guids b.config.metrics).count g := by
  have hpartitions : (∀ name, Option.Rel (PartitionConfig.Purged (deletedBy newUUID b body))
      ((submittedPartitions b body).lookup name)
      ((updateConfig newUUID b body).2.config.partitions.lookup name)) ↔
        ∀ p ∈ (submittedPartitions b body).rows,
          (∀ g ∈ deletedBy newUUID b body,
            p.2.metrics.count g ≤ (deletedBy newUUID b body).count g) ∧
          ∀ vp ∈ p.2.virtualPartitions.rows, ∀ g ∈ deletedBy newUUID b body,
            g ∉ vp.2.metrics := by
    simp only [lookup_updateConfig, rel_lookup_map_iff, purged_removeMissingMetrics_iff]
  have hradar : Purged (deletedBy newUUID b body) b.config.radarChartMetrics
      (updateConfig newUUID b body).2.config.radarChartMetrics ↔
        ∀ g ∈ deletedBy newUUID b body,
          b.config.radarChartMetrics.count g ≤ (deletedBy newUUID b body).count g := by
    rw [radarChartMetrics_updateConfig, purged_removeAll_iff]
  constructor
  · rintro ⟨hp, hr⟩ g hg
    rw [← count_deletedBy hg]
    exact ⟨fun p hmem => ⟨(hpartitions.1 hp p hmem).1 g hg,
      fun vp hvp => (hpartitions.1 hp p hmem).2 vp hvp g hg⟩, hradar.1 hr g hg⟩
  · intro h
    refine ⟨hpartitions.2 fun p hmem => ⟨fun g hg => ?_, fun vp hvp g hg => ?_⟩,
      hradar.2 fun g hg => ?_⟩
    · rw [count_deletedBy hg]
      exact ((h g hg).1 p hmem).1
    · exact ((h g hg).1 p hmem).2 vp hvp
    · rw [count_deletedBy hg]
      exact (h g hg).2

/-! ## Virtual partitions keep what is deleted -/

/-- One metric, and a partition with a virtual partition that both provide it. -/
def nestedConfig : Configuration :=
  { metrics := [{ guid := "flops" }]
    partitions := ⟨[("batch",
      { metrics := ["flops"]
        virtualPartitions := ⟨[("half", { metrics := ["flops"], nodes := ["n1"] })],
          List.nodup_singleton "half"⟩ })], List.nodup_singleton "batch"⟩ }

/-- When the metric is deleted, the virtual partition still refers to it. -/
theorem updateConfig_not_purges :
    ¬∀ (newUUID : ℕ → String) (b : Backend) (body : Body Configuration),
      UpdatePurges newUUID b body (updateConfig newUUID b body).2 := by
  intro h
  have hpurges := h (fun _ => "u") { config := nestedConfig }
    (.decoded { nestedConfig with metrics := [] })
  have hbatch := hpurges.partitions "batch"
  rw [lookup_updateConfig] at hbatch
  have hlookup : (submittedPartitions { config := nestedConfig }
      (.decoded { nestedConfig with metrics := [] })).lookup "batch" = some
        { metrics := ["flops"]
          virtualPartitions := ⟨[("half", { metrics := ["flops"], nodes := ["n1"] })],
            List.nodup_singleton "half"⟩ } := by decide
  rw [hlookup, Option.map_some] at hbatch
  cases hbatch with
  | some hpurged =>
    have hhalf := ((purged_removeMissingMetrics_iff _ _).1 hpurged).2
      ("half", { metrics := ["flops"], nodes := ["n1"] }) List.mem_cons_self "flops" (by decide)
    exact hhalf List.mem_cons_self

end JobMon
