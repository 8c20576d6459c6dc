import JobMon.Config.Restart
import JobMon.Router.Read
import JobMon.Router.Write
import JobMon.Store.Lifecycle

/-!
# One table of partitions

Go passes a map by reference.  At start-up the router, InfluxDB and the store are
given the same configuration and so the same map of partitions; `UpdateConfig`
decodes a new map, removes metrics in it in place, and puts it into the router's
configuration and, by initialising it again, into InfluxDB.

* `Process` — the maps that have been made, and which of them each component holds.
* `refines_updateConfig` — for router and InfluxDB this is `updateConfig` of the
  request model.
* `storePartitions_serve` — the store keeps the map it was started with.
* `oneTable_throughout_iff` — all components use one table in every state of a run
  exactly when every update of the run leaves the running table as it is.
* `shorterMaxTime_not_oneTable` — an update that shortens a partition's time; the
  next sweep works with the old one.
-/

namespace JobMon

open Keyed

/-- `map[string]PartitionConfig`. -/
abbrev PartitionTable := Map String PartitionConfig

/-! ## Equal tables

The order of the entries is not part of a map. -/

/-- Two partitions are configured alike. -/
structure PartitionConfig.Same (pc pc' : PartitionConfig) : Prop where
  base : pc.toBasePartitionConfig = pc'.toBasePartitionConfig
  virtualPartitions : ∀ k, pc.virtualPartitions.lookup k = pc'.virtualPartitions.lookup k

/-- Two tables have the same partitions, configured alike. -/
def SameTable (t t' : PartitionTable) : Prop :=
  ∀ k, Option.Rel PartitionConfig.Same (t.lookup k) (t'.lookup k)

theorem PartitionConfig.Same.refl (pc : PartitionConfig) : pc.Same pc := ⟨rfl, fun _ => rfl⟩

theorem rel_same_refl (pc : Option PartitionConfig) : Option.Rel PartitionConfig.Same pc pc := by
  cases pc with
  | none => exact .none
  | some pc => exact .some (.refl pc)

theorem rel_same_symm {pc pc' : Option PartitionConfig}
    (h : Option.Rel PartitionConfig.Same pc pc') : Option.Rel PartitionConfig.Same pc' pc := by
  cases h with
  | none => exact .none
  | some h => exact .some ⟨h.base.symm, fun k => (h.virtualPartitions k).symm⟩

theorem rel_same_trans {pc pc' pc'' : Option PartitionConfig}
    (h : Option.Rel PartitionConfig.Same pc pc') (h' : Option.Rel PartitionConfig.Same pc' pc'') :
    Option.Rel PartitionConfig.Same pc pc'' := by
  cases h with
  | none =>
    cases h'
    exact .none
  | some h =>
    cases h' with
    | some h' =>
      exact .some ⟨h.base.trans h'.base,
        fun k => (h.virtualPartitions k).trans (h'.virtualPartitions k)⟩

theorem SameTable.refl (t : PartitionTable) : SameTable t t := fun k => rel_same_refl (t.lookup k)

theorem SameTable.symm {t t' : PartitionTable} (h : SameTable t t') : SameTable t' t :=
  fun k => rel_same_symm (h k)

theorem SameTable.trans {t t' t'' : PartitionTable} (h : SameTable t t') (h' : SameTable t' t'') :
    SameTable t t'' := fun k => rel_same_trans (h k) (h' k)

/-! ## The process -/

/-- The components that hold a configuration. -/
structure Process where
  /-- The maps of partitions made so far; a reference is a position in this list. -/
  memory : List PartitionTable
  /-- The configuration of the router, but for its partitions. -/
  config : Configuration
  /-- `config.Partitions` of the router. -/
  routerRef : ℕ
  /-- `partitionConfig` of InfluxDB. -/
  dbRef : ℕ
  /-- `config.Partitions` of the store. -/
  storeRef : ℕ

namespace Process

/-- The map at a reference. -/
def read (memory : List PartitionTable) (ref : ℕ) : PartitionTable :=
  (memory[ref]?).getD Table.empty

/-- What `GetJobs` and `GetConfig` return. -/
def routerPartitions (p : Process) : PartitionTable := read p.memory p.routerRef

/-- What `getPartition` looks a job up in. -/
def dbPartitions (p : Process) : PartitionTable := read p.memory p.dbRef

/-- What `finishOvertimeJobs` takes the deadlines from. -/
def storePartitions (p : Process) : PartitionTable := read p.memory p.storeRef

/-- `main`: all components are initialised with one configuration. -/
def start (c : Configuration) : Process :=
  { memory := [c.partitions], config := c, routerRef := 0, dbRef := 0, storeRef := 0 }

/-- The loop of `UpdateConfig` over the partitions of the request: each entry is
written back into the map it was read from. -/
def removeMissingMetrics (memory : List PartitionTable) (ref : ℕ) (deletedGuids : List String) :
    List PartitionTable :=
  (read memory ref).rows.foldl (fun memory p =>
    memory.set ref ((read memory ref).upsert (p.1, p.2.removeMissingMetrics deletedGuids))) memory

/-- `UpdateConfig`. -/
def updateConfig (newUUID : ℕ → String) (p : Process) : Body Configuration → Process
  | .unreadable => p
  | .malformed _ => p
  | .decoded conf =>
    let metrics := sortMetrics (addGUIDs newUUID conf.metrics)
    let deletedGuids := getDeletedMetrics metrics p.config.metrics
    let ref := p.memory.length
    let memory := p.memory ++ [conf.partitions]
    { memory :=
        if deletedGuids.length > 0 then removeMissingMetrics memory ref deletedGuids else memory
      config := { p.config with
        metrics := metrics
        metricCategories := conf.metricCategories
        radarChartMetrics :=
          if deletedGuids.length > 0 then removeAll p.config.radarChartMetrics deletedGuids
          else p.config.radarChartMetrics }
      routerRef := ref
      -- `(*r.db).Init(*r.config)`; nobody initialises the store again
      dbRef := ref
      storeRef := p.storeRef }

/-- A request to `UpdateConfig`, with the GUIDs it draws. -/
structure UpdateCall where
  body : Body Configuration
  newUUID : ℕ → String

/-- A sequence of requests, the first one first. -/
def serve (p : Process) (calls : List UpdateCall) : Process :=
  calls.foldl (fun p call => p.updateConfig call.newUUID call.body) p

theorem serve_append_singleton (p : Process) (calls : List UpdateCall) (call : UpdateCall) :
    p.serve (calls ++ [call]) = (p.serve calls).updateConfig call.newUUID call.body := by
  rw [serve, List.foldl_append]
  rfl

/-! ## Writing in place -/

theorem read_set {memory : List PartitionTable} {ref : ℕ} (h : ref < memory.length)
    (t : PartitionTable) : read (memory.set ref t) ref = t := by
  rw [read, List.getElem?_set_self h]
  rfl

theorem read_append_of_lt {memory : List PartitionTable} {ref : ℕ} (h : ref < memory.length)
    (t : PartitionTable) : read (memory ++ [t]) ref = read memory ref := by
  rw [read, read, List.getElem?_append_left h]

theorem read_append_length (memory : List PartitionTable) (t : PartitionTable) :
    read (memory ++ [t]) memory.length = t := by
  rw [read, List.getElem?_concat_length]
  rfl

theorem set_read {memory : List PartitionTable} {ref : ℕ} (h : ref < memory.length) :
    memory.set ref (read memory ref) = memory := by
  rw [read, List.getElem?_eq_getElem h]
  exact List.set_getElem_self h

/-- Writing to one map again and again changes nothing but this map. -/
theorem foldl_set {memory : List PartitionTable} {ref : ℕ} (h : ref < memory.length)
    (f : PartitionConfig → PartitionConfig) (l : List (String × PartitionConfig)) :
    l.foldl (fun memory p => memory.set ref ((read memory ref).upsert (p.1, f p.2))) memory =
      memory.set ref (l.foldl (fun t p => t.upsert (p.1, f p.2)) (read memory ref)) := by
  induction l generalizing memory with
  | nil => exact (set_read h).symm
  | cons p l ih =>
    rw [List.foldl_cons, List.foldl_cons, ih (by rw [List.length_set]; exact h), read_set h,
      List.set_set]

theorem removeMissingMetrics_eq {memory : List PartitionTable} {ref : ℕ} (h : ref < memory.length)
    (deletedGuids : List String) :
    removeMissingMetrics memory ref deletedGuids = memory.set ref
      ((read memory ref).mapValues fun pc => pc.removeMissingMetrics deletedGuids) := by
  have hloop := Map.foldl_upsert_eq_mapValues
    (fun pc : PartitionConfig => pc.removeMissingMetrics deletedGuids) (read memory ref)
  rw [removeMissingMetrics, foldl_set h fun pc => pc.removeMissingMetrics deletedGuids, hloop]

/-! ## The request model -/

/-- The configuration of the router. -/
def routerConfig (p : Process) : Configuration := { p.config with partitions := p.routerPartitions }

/-- An update makes one new map and leaves the others alone. -/
theorem memory_updateConfig (newUUID : ℕ → String) (p : Process) (conf : Configuration) :
    (p.updateConfig newUUID (.decoded conf)).memory =
      p.memory ++ [(p.routerConfig.update newUUID conf).partitions] := by
  have hlt : p.memory.length < (p.memory ++ [conf.partitions]).length := by simp
  let deletedGuids :=
    getDeletedMetrics (sortMetrics (addGUIDs newUUID conf.metrics)) p.config.metrics
  show (if deletedGuids.length > 0 then
      removeMissingMetrics (p.memory ++ [conf.partitions]) p.memory.length deletedGuids
    else p.memory ++ [conf.partitions]) = p.memory ++
      [if deletedGuids.length > 0 then
        conf.partitions.mapValues fun pc => pc.removeMissingMetrics deletedGuids
      else conf.partitions]
  by_cases hdeleted : deletedGuids.length > 0
  · rw [if_pos hdeleted, if_pos hdeleted, removeMissingMetrics_eq hlt, read_append_length,
      List.set_append_right _ _ le_rfl, Nat.sub_self, List.set_cons_zero]
  · rw [if_neg hdeleted, if_neg hdeleted]

theorem routerPartitions_updateConfig (newUUID : ℕ → String) (p : Process) (conf : Configuration) :
    (p.updateConfig newUUID (.decoded conf)).routerPartitions =
      (p.routerConfig.update newUUID conf).partitions := by
  show read (p.updateConfig newUUID (.decoded conf)).memory p.memory.length = _
  rw [memory_updateConfig, read_append_length]

/-- What the process is in the request model. -/
structure Refines (p : Process) (b : Backend) : Prop where
  config : b.config = p.routerConfig
  db : b.db.partitionConfig = p.dbPartitions

theorem refines_start (c : Configuration) (s : Store) : (start c).Refines (Backend.start c s) :=
  ⟨rfl, rfl⟩

/-- **Router and InfluxDB are updated as in the request model.** -/
theorem refines_updateConfig {p : Process} {b : Backend} (h : p.Refines b) (newUUID : ℕ → String)
    (body : Body Configuration) :
    (p.updateConfig newUUID body).Refines (JobMon.updateConfig newUUID b body).2 := by
  cases body with
  | unreadable => exact h
  | malformed text => exact h
  | decoded conf =>
    have hrouter := routerPartitions_updateConfig newUUID p conf
    have hconfig : (p.updateConfig newUUID (.decoded conf)).routerConfig =
        p.routerConfig.update newUUID conf := by
      rw [routerConfig, hrouter]
      rfl
    refine ⟨?_, ?_⟩
    · show b.config.update newUUID conf = _
      rw [h.config, hconfig]
    · show (b.config.update newUUID conf).partitions = (p.updateConfig newUUID _).routerPartitions
      rw [h.config, hrouter]

/-- What `GetJobs` sends along. -/
theorem getJobs_partitions {p : Process} {b : Backend} (h : p.Refines b) (user : UserInfo)
    (params : QueryParams) : ∃ jobs radar tags,
      getJobs b user params = .ok (.jobList jobs radar p.routerPartitions tags) := by
  rw [getJobs, h.config]
  exact ⟨_, _, _, rfl⟩

/-! ## Who holds which map -/

/-- What holds of the references in every reachable state: InfluxDB has the map of the
router, and the store the one it was started with. -/
structure Wired (t₀ : PartitionTable) (p : Process) : Prop where
  db : p.dbRef = p.routerRef
  storeRef_lt : p.storeRef < p.memory.length
  store : p.storePartitions = t₀

theorem wired_start (c : Configuration) : (start c).Wired c.partitions :=
  ⟨rfl, Nat.zero_lt_one, rfl⟩

/-- **Step.** -/
theorem Wired.updateConfig {t₀ : PartitionTable} {p : Process} (h : p.Wired t₀)
    (newUUID : ℕ → String) (body : Body Configuration) :
    (p.updateConfig newUUID body).Wired t₀ := by
  cases body with
  | unreadable => exact h
  | malformed text => exact h
  | decoded conf =>
    have hmemory := memory_updateConfig newUUID p conf
    refine ⟨rfl, ?_, ?_⟩
    · rw [hmemory, List.length_append]
      exact Nat.lt_add_right _ h.storeRef_lt
    · show read (p.updateConfig newUUID (.decoded conf)).memory p.storeRef = t₀
      rw [hmemory, read_append_of_lt h.storeRef_lt]
      exact h.store

/-- **Run.** -/
theorem wired_serve (c : Configuration) (calls : List UpdateCall) :
    ((start c).serve calls).Wired c.partitions := by
  induction calls using List.reverseRecOn with
  | nil => exact wired_start c
  | append_singleton calls call ih =>
    rw [serve_append_singleton]
    exact ih.updateConfig call.newUUID call.body

/-- The store keeps the map it was started with. -/
theorem storePartitions_serve (c : Configuration) (calls : List UpdateCall) :
    ((start c).serve calls).storePartitions = c.partitions := (wired_serve c calls).store

/-! ## One table -/

/-- The stops `finishOvertimeJobs` asks for: the jobs that have exceeded the time of
their partition. -/
def overtimeStops (partitions : PartitionTable) (s : Store) (now : ℤ) : List (ℤ × StopJob) :=
  partitions.rows.flatMap fun p =>
    (Lifecycle.overtimeJobs s p.1 (now - p.2.maxTime)).map fun j =>
      (j.id, { stopTime := j.startTime + p.2.maxTime, exitCode := 1 })

/-- All components that act on partitions use the same table, and the next sweep stops
the jobs the running configuration says. -/
structure OneTable (p : Process) : Prop where
  db : SameTable p.dbPartitions p.routerPartitions
  store : SameTable p.storePartitions p.routerPartitions
  sweep : ∀ s now stop, stop ∈ overtimeStops p.storePartitions s now ↔
    stop ∈ overtimeStops p.routerPartitions s now

theorem mem_overtimeStops_iff {partitions : PartitionTable} {s : Store} {now : ℤ}
    {stop : ℤ × StopJob} :
    stop ∈ overtimeStops partitions s now ↔ ∃ k pc, partitions.lookup k = some pc ∧
      ∃ j ∈ Lifecycle.overtimeJobs s k (now - pc.maxTime),
        (j.id, { stopTime := j.startTime + pc.maxTime, exitCode := 1 }) = stop := by
  rw [overtimeStops, List.mem_flatMap]
  constructor
  · rintro ⟨p, hp, hstop⟩
    exact ⟨p.1, p.2, Map.lookup_eq_some_iff.2 hp, List.mem_map.1 hstop⟩
  · rintro ⟨k, pc, hlookup, hstop⟩
    exact ⟨(k, pc), Map.lookup_eq_some_iff.1 hlookup, List.mem_map.2 hstop⟩

theorem mem_overtimeStops_of_same {t t' : PartitionTable} (h : SameTable t t') {s : Store}
    {now : ℤ} {stop : ℤ × StopJob} (hstop : stop ∈ overtimeStops t s now) :
    stop ∈ overtimeStops t' s now := by
  obtain ⟨k, pc, hlookup, hjob⟩ := mem_overtimeStops_iff.1 hstop
  have hk := h k
  rw [hlookup] at hk
  cases hother : t'.lookup k with
  | none =>
    rw [hother] at hk
    cases hk
  | some pc' =>
    rw [hother] at hk
    cases hk with
    | some hsame =>
      have htime : pc.maxTime = pc'.maxTime := congrArg BasePartitionConfig.maxTime hsame.base
      rw [htime] at hjob
      exact mem_overtimeStops_iff.2 ⟨k, pc', hother, hjob⟩

variable {t₀ : PartitionTable} {p : Process}

theorem oneTable_iff (h : p.Wired t₀) :
    p.OneTable ↔ SameTable p.storePartitions p.routerPartitions := by
  constructor
  · exact OneTable.store
  · intro hstore
    refine ⟨?_, hstore, fun s now stop =>
      ⟨mem_overtimeStops_of_same hstore, mem_overtimeStops_of_same hstore.symm⟩⟩
    rw [dbPartitions, h.db]
    exact .refl _

/-- The partitions of a request, without the metrics it drops, are the running ones. -/
def KeepsPartitions (c : Configuration) (call : UpdateCall) : Prop :=
  match call.body with
  | .decoded conf => ∀ k, Option.Rel PartitionConfig.Same
      ((conf.partitions.lookup k).map fun pc =>
        pc.removeMissingMetrics (Configuration.deletedGuids c ⟨conf, call.newUUID⟩))
      (c.partitions.lookup k)
  | _ => True

/-- An update keeps the running table exactly when the request does. -/
theorem sameTable_updateConfig_iff (p : Process) (call : UpdateCall) :
    SameTable (p.updateConfig call.newUUID call.body).routerPartitions p.routerPartitions ↔
      KeepsPartitions p.routerConfig call := by
  obtain ⟨body, newUUID⟩ := call
  cases body with
  | unreadable => exact iff_of_true (.refl _) trivial
  | malformed text => exact iff_of_true (.refl _) trivial
  | decoded conf =>
    rw [routerPartitions_updateConfig]
    refine forall_congr' fun k => ?_
    rw [Configuration.lookup_update_partitions p.routerConfig ⟨conf, newUUID⟩]
    rfl

/-- **Step.**  One table stays one table exactly when the update keeps it. -/
theorem oneTable_updateConfig_iff (hw : p.Wired t₀) (h : p.OneTable) (call : UpdateCall) :
    (p.updateConfig call.newUUID call.body).OneTable ↔ KeepsPartitions p.routerConfig call := by
  have hw' := hw.updateConfig call.newUUID call.body
  rw [oneTable_iff hw', ← sameTable_updateConfig_iff, hw'.store, ← hw.store]
  constructor
  · intro hsame
    exact hsame.symm.trans h.store
  · intro hsame
    exact h.store.trans hsame.symm

/-- **One table in every state of a run**, from start-up through any sequence of
updates, exactly when every update leaves the running table as it is. -/
theorem oneTable_throughout_iff (c₀ : Configuration) (calls : List UpdateCall) :
    (∀ pre, pre <+: calls → ((start c₀).serve pre).OneTable) ↔
      ∀ pre call, pre ++ [call] <+: calls →
        KeepsPartitions ((start c₀).serve pre).routerConfig call := by
  have hearlier : ∀ pre call, pre ++ [call] <+: calls → pre <+: calls :=
    fun pre call h => (List.prefix_append pre [call]).trans h
  have hstart : (start c₀).OneTable := (oneTable_iff (wired_start c₀)).2 (.refl _)
  constructor
  · intro h pre call hpre
    have hafter := h _ hpre
    rw [serve_append_singleton] at hafter
    exact (oneTable_updateConfig_iff (wired_serve c₀ pre) (h pre (hearlier pre call hpre)) call).1
      hafter
  · intro h pre
    -- by induction on the requests that have been served
    induction pre using List.reverseRecOn with
    | nil => exact fun _ => hstart
    | append_singleton pre call ih =>
      intro hpre
      rw [serve_append_singleton]
      exact (oneTable_updateConfig_iff (wired_serve c₀ pre) (ih (hearlier pre call hpre)) call).2
        (h pre call hpre)

/-! ## A partition with less time -/

/-- A partition whose jobs may run for an hour. -/
def hourConfig : Configuration :=
  { partitions := ⟨[("main", { maxTime := 3600 })], by decide⟩ }

/-- The update that leaves them a minute. -/
def minuteUpdate : UpdateCall :=
  { body := .decoded { partitions := ⟨[("main", { maxTime := 60 })], by decide⟩ }
    newUUID := fun _ => "u" }

/-- A job that has been running for two minutes. -/
def longRunning : Store :=
  { jobMetadata := ⟨[{ id := 1, partition := "main", startTime := 1000, isRunning := true }],
      by decide⟩ }

/-- `GetConfig` answers with the new time; the next sweep lets the job run on. -/
theorem shorterMaxTime_not_oneTable :
    ((start hourConfig).serve [minuteUpdate]).routerPartitions.lookup "main" =
        some { maxTime := 60 } ∧
      ((start hourConfig).serve [minuteUpdate]).storePartitions.lookup "main" =
        some { maxTime := 3600 } ∧
      overtimeStops ((start hourConfig).serve [minuteUpdate]).storePartitions longRunning 1120 =
        [] ∧
      overtimeStops ((start hourConfig).serve [minuteUpdate]).routerPartitions longRunning 1120 =
        [(1, { stopTime := 1060, exitCode := 1 })] ∧
      ¬ ((start hourConfig).serve [minuteUpdate]).OneTable := by
  have hold : overtimeStops ((start hourConfig).serve [minuteUpdate]).storePartitions longRunning
      1120 = [] := by decide
  have hnew : overtimeStops ((start hourConfig).serve [minuteUpdate]).routerPartitions longRunning
      1120 = [(1, { stopTime := 1060, exitCode := 1 })] := by decide
  refine ⟨by decide, by decide, hold, hnew, fun h => ?_⟩
  have hsweep := (h.sweep longRunning 1120 (1, { stopTime := 1060, exitCode := 1 })).2
  rw [hold, hnew] at hsweep
  exact List.not_mem_nil (hsweep List.mem_cons_self)

end Process

end JobMon
