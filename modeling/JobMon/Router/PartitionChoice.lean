import JobMon.Router.Partitions

/-!
# The partition of a job

`getPartition` returns the first virtual partition that holds all nodes of the job, in
the order in which a loop over the map happens to go.  Each of the calls that serve one
job runs a loop of its own.

* `InfluxDB.SameConfig` — the same maps, with their entries in another order.
* `InfluxDB.ChoiceStable` — no order makes a difference, to the partition or to the
  metrics of the separate calls.
* `choiceStable_iff` — the virtual partitions that hold all nodes of the job are
  configured alike.
-/

namespace JobMon

open Keyed

namespace InfluxDB

/-! ## The order of a loop -/

/-- InfluxDB with the same configuration; the entries of its maps may be in another
order. -/
structure SameConfig (db db' : InfluxDB) : Prop where
  bucketName : db'.bucketName = db.bucketName
  metrics : db'.metrics = db.metrics
  partitionConfig : SameTable db.partitionConfig db'.partitionConfig
  defaultSampleInterval : db'.defaultSampleInterval = db.defaultSampleInterval
  metricQuantiles : db'.metricQuantiles = db.metricQuantiles

theorem SameConfig.refl (db : InfluxDB) : db.SameConfig db := ⟨rfl, rfl, .refl _, rfl, rfl⟩

/-- The partition a job was submitted to. -/
def physicalPartition (db : InfluxDB) (j : JobMetadata) : PartitionConfig :=
  (db.partitionConfig.lookup j.partition).getD {}

/-- The virtual partition holds all nodes of the job. -/
def HoldsNodes (j : JobMetadata) (vp : VirtualPartitionConfig) : Prop :=
  ∀ n ∈ Go.split j.nodeList '|', n ∈ vp.nodes

instance (j : JobMetadata) (vp : VirtualPartitionConfig) : Decidable (HoldsNodes j vp) :=
  decidable_of_iff ((Go.split j.nodeList '|').all (fun n => decide (n ∈ vp.nodes)) = true)
    (by simp [HoldsNodes])

/-- The choice is the same in every order: of the partition, and of the metrics that the
data, the averages and the last data points of a job are asked for. -/
structure ChoiceStable (db : InfluxDB) (j : JobMetadata) : Prop where
  partition : ∀ db₁ db₂, db.SameConfig db₁ → db.SameConfig db₂ →
    db₁.getPartition j = db₂.getPartition j
  metrics : ∀ (now : ℤ) (db₁ db₂ db₃ : InfluxDB), db.SameConfig db₁ → db.SameConfig db₂ →
    db.SameConfig db₃ → db₁.jobMetrics j = db₂.jobMetrics j ∧
      db₂.jobMetrics j = db₃.jobMetrics (lastRecord now j)

variable {db db' : InfluxDB} {j : JobMetadata}

theorem SameConfig.same_physicalPartition (h : db.SameConfig db') :
    (db.physicalPartition j).Same (db'.physicalPartition j) := by
  have hrel := h.partitionConfig j.partition
  rw [physicalPartition, physicalPartition]
  generalize db.partitionConfig.lookup j.partition = pc at hrel ⊢
  generalize db'.partitionConfig.lookup j.partition = pc' at hrel ⊢
  cases hrel with
  | none => exact .refl _
  | some hsame => exact hsame

/-! ## What `getPartition` returns -/

theorem getPartition_eq_find (db : InfluxDB) (j : JobMetadata) :
    db.getPartition j =
      match (db.physicalPartition j).virtualPartitions.rows.find? fun vp => HoldsNodes j vp.2 with
      | some vp => vp.2.toBasePartitionConfig
      | none => (db.physicalPartition j).toBasePartitionConfig := by
  have hmatch : (fun vp : String × VirtualPartitionConfig =>
      (Go.split j.nodeList '|').all fun n => Utils.contains vp.2.nodes n) =
        fun vp => decide (HoldsNodes j vp.2) := by
    funext vp
    rw [Bool.eq_iff_iff, decide_eq_true_eq]
    simp [HoldsNodes]
  rw [← hmatch]
  rfl

/-- The configuration of some virtual partition that holds all nodes, or the partition
when there is none. -/
theorem getPartition_cases (db : InfluxDB) (j : JobMetadata) :
    (∃ vp ∈ (db.physicalPartition j).virtualPartitions.rows, HoldsNodes j vp.2 ∧
      db.getPartition j = vp.2.toBasePartitionConfig) ∨
    (∀ vp ∈ (db.physicalPartition j).virtualPartitions.rows, ¬HoldsNodes j vp.2) ∧
      db.getPartition j = (db.physicalPartition j).toBasePartitionConfig := by
  rw [getPartition_eq_find]
  cases hfind : (db.physicalPartition j).virtualPartitions.rows.find?
      fun vp => HoldsNodes j vp.2 with
  | some vp =>
    exact .inl ⟨vp, List.mem_of_find?_eq_some hfind, by simpa using List.find?_some hfind, rfl⟩
  | none =>
    exact .inr ⟨fun vp hvp => by simpa using List.find?_eq_none.1 hfind vp hvp, rfl⟩

theorem mem_virtualPartitions_iff (h : db.SameConfig db') (vp : String × VirtualPartitionConfig) :
    vp ∈ (db'.physicalPartition j).virtualPartitions.rows ↔
      vp ∈ (db.physicalPartition j).virtualPartitions.rows := by
  rw [← Map.lookup_eq_some_iff, ← Map.lookup_eq_some_iff,
    h.same_physicalPartition.virtualPartitions]

/-- The partition of a job may be given with its entries in any order. -/
theorem exists_sameConfig_physicalPartition {pc : PartitionConfig}
    (hpresent : db.partitionConfig.lookup j.partition = some (db.physicalPartition j))
    (hsame : (db.physicalPartition j).Same pc) :
    ∃ db', db.SameConfig db' ∧ db'.physicalPartition j = pc := by
  have hlookup : ∀ k, Map.lookup (db.partitionConfig.upsert (j.partition, pc)) k =
      if k = j.partition then some pc else db.partitionConfig.lookup k := fun k =>
    Map.lookup_upsert db.partitionConfig (j.partition, pc) k
  refine ⟨{ db with partitionConfig := db.partitionConfig.upsert (j.partition, pc) },
    ⟨rfl, rfl, fun k => ?_, rfl, rfl⟩, ?_⟩
  · rw [hlookup]
    by_cases hk : k = j.partition
    · rw [if_pos hk, hk, hpresent]
      exact .some hsame
    · rw [if_neg hk]
      exact rel_same_refl _
  · rw [physicalPartition, hlookup, if_pos rfl]
    rfl

/-- Whatever is chosen in one order, some order chooses any other one that holds all
nodes. -/
theorem exists_sameConfig_getPartition {vp : String × VirtualPartitionConfig}
    (hvp : vp ∈ (db.physicalPartition j).virtualPartitions.rows) (hholds : HoldsNodes j vp.2) :
    ∃ db', db.SameConfig db' ∧ db'.getPartition j = vp.2.toBasePartitionConfig := by
  let rows := (db.physicalPartition j).virtualPartitions.rows
  have hperm : (vp :: rows.erase vp).Perm rows := (List.perm_cons_erase hvp).symm
  let vps : Map String VirtualPartitionConfig :=
    ⟨vp :: rows.erase vp,
      (hperm.map Prod.fst).nodup_iff.2 (db.physicalPartition j).virtualPartitions.nodup⟩
  have hpresent : db.partitionConfig.lookup j.partition = some (db.physicalPartition j) := by
    cases hpc : db.partitionConfig.lookup j.partition with
    | none =>
      have hnone : db.physicalPartition j = {} := by rw [physicalPartition, hpc]; rfl
      rw [hnone] at hvp
      cases hvp
    | some pc => rw [physicalPartition, hpc]; rfl
  have hsame : (db.physicalPartition j).Same
      { db.physicalPartition j with virtualPartitions := vps } := by
    refine ⟨rfl, fun name => Option.ext fun v => ?_⟩
    rw [Map.lookup_eq_some_iff, Map.lookup_eq_some_iff]
    exact hperm.mem_iff.symm
  obtain ⟨db', hdb', hphysical⟩ := exists_sameConfig_physicalPartition hpresent hsame
  refine ⟨db', hdb', ?_⟩
  have hfind : (vp :: rows.erase vp).find? (fun vp => HoldsNodes j vp.2) = some vp :=
    List.find?_cons_of_pos (by simpa using hholds)
  rw [getPartition_eq_find, hphysical]
  show (match (vp :: rows.erase vp).find? fun vp => HoldsNodes j vp.2 with
    | some vp => vp.2.toBasePartitionConfig
    | none => (db.physicalPartition j).toBasePartitionConfig) = _
  rw [hfind]

/-! ## When the choice is stable -/

/-- The partition decides on the metrics; the clock does not. -/
theorem jobMetrics_of_getPartition {db₁ db₂ : InfluxDB} (h₁ : db.SameConfig db₁)
    (h₂ : db.SameConfig db₂) (h : db₁.getPartition j = db₂.getPartition j) :
    db₁.jobMetrics j = db₂.jobMetrics j := by
  have hmetric : db₁.metric = db₂.metric := by
    funext guid
    rw [metric, metric, h₁.metrics, h₂.metrics]
  rw [jobMetrics, jobMetrics, h, hmetric]

theorem jobMetrics_lastRecord (db : InfluxDB) (now : ℤ) (j : JobMetadata) :
    db.jobMetrics (lastRecord now j) = db.jobMetrics j := by
  rw [lastRecord]
  split
  · rfl
  · rfl

/-- **When the order makes no difference**: the virtual partitions that hold all nodes of
the job are configured alike. -/
theorem choiceStable_iff (db : InfluxDB) (j : JobMetadata) :
    db.ChoiceStable j ↔
      ∀ vp ∈ (db.physicalPartition j).virtualPartitions.rows,
        ∀ vp' ∈ (db.physicalPartition j).virtualPartitions.rows,
          HoldsNodes j vp.2 → HoldsNodes j vp'.2 →
            vp.2.toBasePartitionConfig = vp'.2.toBasePartitionConfig := by
  constructor
  · intro h vp hvp vp' hvp' hholds hholds'
    obtain ⟨db₁, h₁, hchoice₁⟩ := exists_sameConfig_getPartition hvp hholds
    obtain ⟨db₂, h₂, hchoice₂⟩ := exists_sameConfig_getPartition hvp' hholds'
    rw [← hchoice₁, ← hchoice₂]
    exact h.partition db₁ db₂ h₁ h₂
  · intro h
    have hpartition : ∀ db₁ db₂, db.SameConfig db₁ → db.SameConfig db₂ →
        db₁.getPartition j = db₂.getPartition j := by
      intro db₁ db₂ h₁ h₂
      have hmem₁ := fun vp => mem_virtualPartitions_iff (j := j) h₁ vp
      have hmem₂ := fun vp => mem_virtualPartitions_iff (j := j) h₂ vp
      rcases getPartition_cases db₁ j with ⟨vp, hvp, hholds, heq⟩ | ⟨hnone, heq⟩
      · rcases getPartition_cases db₂ j with ⟨vp', hvp', hholds', heq'⟩ | ⟨hnone', -⟩
        · rw [heq, heq']
          exact h vp ((hmem₁ vp).1 hvp) vp' ((hmem₂ vp').1 hvp') hholds hholds'
        · exact absurd hholds (hnone' vp ((hmem₂ vp).2 ((hmem₁ vp).1 hvp)))
      · rcases getPartition_cases db₂ j with ⟨vp', hvp', hholds', -⟩ | ⟨-, heq'⟩
        · exact absurd hholds' (hnone vp' ((hmem₁ vp').2 ((hmem₂ vp').1 hvp')))
        · rw [heq, heq', ← h₁.same_physicalPartition.base, ← h₂.same_physicalPartition.base]
    refine ⟨hpartition, fun now db₁ db₂ db₃ h₁ h₂ h₃ => ⟨?_, ?_⟩⟩
    · exact jobMetrics_of_getPartition h₁ h₂ (hpartition db₁ db₂ h₁ h₂)
    · rw [jobMetrics_lastRecord]
      exact jobMetrics_of_getPartition h₂ h₃ (hpartition db₂ db₃ h₂ h₃)

/-! ## Overlapping virtual partitions -/

/-- Two virtual partitions share a node, and differ in their metrics. -/
def overlappingDB : InfluxDB :=
  { partitionConfig := ⟨[("batch",
      { virtualPartitions := ⟨[("first", { metrics := ["flops"], nodes := ["n1", "n2"] }),
          ("second", { metrics := ["power"], nodes := ["n1"] })], by decide⟩ })],
      List.nodup_singleton "batch"⟩ }

/-- For a job on the shared node the choice depends on the order. -/
theorem choice_not_stable :
    ¬∀ (db : InfluxDB) (j : JobMetadata), db.ChoiceStable j := by
  intro h
  let j : JobMetadata := { partition := "batch", nodeList := "n1" }
  let first : String × VirtualPartitionConfig :=
    ("first", { metrics := ["flops"], nodes := ["n1", "n2"] })
  let second : String × VirtualPartitionConfig :=
    ("second", { metrics := ["power"], nodes := ["n1"] })
  have hfirst : first ∈ (overlappingDB.physicalPartition j).virtualPartitions.rows := by decide
  have hsecond : second ∈ (overlappingDB.physicalPartition j).virtualPartitions.rows := by decide
  obtain ⟨db₁, h₁, hchoice₁⟩ := exists_sameConfig_getPartition hfirst (by decide)
  obtain ⟨db₂, h₂, hchoice₂⟩ := exists_sameConfig_getPartition hsecond (by decide)
  have hsame := (h overlappingDB j).partition db₁ db₂ h₁ h₂
  rw [hchoice₁, hchoice₂] at hsame
  revert hsame
  decide

end InfluxDB

end JobMon
