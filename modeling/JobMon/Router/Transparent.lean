import JobMon.Router.Confine
import JobMon.Router.FollowUp
import JobMon.Router.Window

/-!
# The cache cannot be seen

What the cache holds for a job was computed from the record, the configuration and
a sample interval, but it is found by the ID of the job alone.

* `Fresh` — the invariant: every item is what InfluxDB would yield now for the
  record as it is stored now.
* `fresh_effect` — an effect that leaves the rows of cached jobs and the metrics of
  their partitions alone keeps it; tagging keeps it in any case.
* `getJob_transparent` — after a run of such steps, `GetJob` answers as it would
  with an empty cache.
-/

namespace JobMon

open Keyed Runs InfluxDB

/-! ## What job data depends on -/

/-- The tags of a record go into the result and nowhere else. -/
theorem getJobDataOf_tags (env : Environment) (db : InfluxDB) (j : JobMetadata)
    (tags : List JobTag) (nodes : String) (d : Go.Duration) (raw : Bool) :
    getJobDataOf env db { j with tags } nodes d raw =
      (getJobDataOf env db j nodes d raw).map fun data =>
        { data with metadata := { j with tags } } := by
  show getJobData env db { j with tags } (if nodes = "" then j.nodeList else nodes) d raw false = _
  rw [getJobDataOf]
  generalize (if nodes = "" then j.nodeList else nodes) = n
  unfold getJobData
  show (do
    let metricData ← collect env.metricOrder (metricTask env db j n d raw false) (db.jobMetrics j)
    let quantileData ← collect env.quantileOrder (quantileTask env db j d)
      (if j.isRunning then [] else db.jobMetrics j)
    pure { metadata := { j with tags }, metricData, quantileData } : Result JobData) = _
  cases hm : collect env.metricOrder (metricTask env db j n d raw false) (db.jobMetrics j) with
  | error e =>
    simp only [hm, bind, Except.bind]
    rfl
  | ok metricData =>
    cases hq : collect env.quantileOrder (quantileTask env db j d)
        (if j.isRunning then [] else db.jobMetrics j) with
    | error e =>
      simp only [hm, hq, bind, Except.bind]
      rfl
    | ok quantileData =>
      simp only [hm, hq, bind, Except.bind]
      rfl

/-- Of the configuration, the bucket, the quantiles and the metrics of the
partition matter. -/
theorem getJobDataOf_congr_db {env : Environment} {db db' : InfluxDB} {j : JobMetadata}
    (hbucket : db'.bucketName = db.bucketName)
    (hquantiles : db'.metricQuantiles = db.metricQuantiles)
    (hmetrics : db'.jobMetrics j = db.jobMetrics j) (nodes : String) (d : Go.Duration)
    (raw : Bool) : getJobDataOf env db' j nodes d raw = getJobDataOf env db j nodes d raw := by
  simp only [getJobDataOf]
  generalize (if nodes = "" then j.nodeList else nodes) = n
  have hmetricTask : metricTask env db' j n d raw false = metricTask env db j n d raw false := by
    funext m
    simp only [metricTask, queryRaw, queryForRaw, query, queryFor, simpleQuery, aggregateQuery,
      hbucket]
  have hquantileTask : quantileTask env db' j d = quantileTask env db j d := by
    funext m
    simp only [quantileTask, quantileQuery, hbucket, hquantiles]
  rw [getJobData, getJobData, hmetrics, hmetricTask, hquantileTask]

/-! ## The invariant -/

/-- An item is what InfluxDB yields for the stored record. -/
def Backend.FreshItem (env : Environment) (b : Backend) (el : Item) : Prop :=
  ∃ j, b.store.getJob el.id = some j ∧ j.isRunning = false ∧
    getJobDataOf env b.db j (LRUCache.nodesOf j) (b.bestInterval 0 j) false = .ok el.data

/-- Every item of the cache is fresh. -/
structure Backend.Fresh (env : Environment) (b : Backend) : Prop where
  db_eq : b.db = InfluxDB.init b.config
  links : b.store.LinksValid
  usable : b.jobCache.Usable
  fresh : ∀ el ∈ b.jobCache.list, b.FreshItem env el

/-- A step leaves the rows of the cached jobs as they are, and the metrics of their
partitions. -/
def KeepsEntries (b b' : Backend) : Prop :=
  ∀ el ∈ b.jobCache.list,
    b'.store.jobMetadata.get? el.id = b.store.jobMetadata.get? el.id ∧
      b'.db.jobMetrics el.data.metadata = b.db.jobMetrics el.data.metadata

theorem bestInterval_of_stopped {b : Backend} {j : JobMetadata} (h : j.isRunning = false)
    (now now' : ℤ) : b.bestInterval now j = b.bestInterval now' j := by
  rw [Backend.bestInterval, JobMetadata.calculateSampleIntervals_of_stopped h now now']
  rfl

section Effects

variable {env : Environment} {b : Backend}

theorem getJob_of_row {s s' : Store} (htags : s'.jobTags = s.jobTags)
    (hlinks : s'.jobToTags = s.jobToTags) {id : ℤ}
    (hrow : s'.jobMetadata.get? id = s.jobMetadata.get? id) : s'.getJob id = s.getJob id := by
  have hwith : s'.withTags = s.withTags := by
    funext row
    rw [Store.withTags, Store.withTags, Store.tagsOf, Store.tagsOf, htags, hlinks]
  rw [Store.getJob, Store.getJob, hrow, hwith]

/-- As long as cache and configuration are not touched, only the records count. -/
theorem fresh_of_store (hb : b.Fresh env) {store : Store} (hlinks : store.LinksValid)
    (hsame : ∀ el ∈ b.jobCache.list, store.getJob el.id = b.store.getJob el.id) :
    Backend.Fresh env { b with store } := by
  refine ⟨hb.db_eq, hlinks, hb.usable, ?_⟩
  intro el hel
  obtain ⟨j, hj, hrun, hdata⟩ := hb.fresh el hel
  exact ⟨j, (hsame el hel).trans hj, hrun, hdata⟩

/-- The record of a cached job that has been tagged. -/
theorem freshItem_tag {store : Store} (hjobs : store.jobMetadata = b.store.jobMetadata)
    {el₀ : Item} (h : b.FreshItem env el₀) :
    ∃ job, store.getJob el₀.id = some job ∧
      Backend.FreshItem env { b with store }
        { id := el₀.id, data := { el₀.data with metadata := job } } := by
  obtain ⟨j, hj, hrun, hdata⟩ := h
  obtain ⟨row, hrow, rfl⟩ := Option.map_eq_some_iff.1 hj
  have hread : store.getJob el₀.id = some (store.withTags row) := by
    rw [Store.getJob, hjobs, hrow, Option.map_some]
  refine ⟨store.withTags row, hread, store.withTags row, hread, hrun, ?_⟩
  have htags := getJobDataOf_tags env b.db (b.store.withTags row) (store.tagsOf row.id)
    (LRUCache.nodesOf (b.store.withTags row)) (b.bestInterval 0 (b.store.withTags row)) false
  rw [hdata] at htags
  exact htags

theorem fresh_tag (hb : b.Fresh env) {id : ℤ} {store : Store}
    (hjobs : store.jobMetadata = b.store.jobMetadata) (hlinks : store.LinksValid)
    (hothers : ∀ id' ≠ id, store.getJob id' = b.store.getJob id') :
    Backend.Fresh env
      { b with store, jobCache := (b.jobCache.updateJob store.getJob id).2 } := by
  obtain ⟨-, husable, -, hitems⟩ :=
    LRUCache.mem_updateJob hb.usable fun job (hjob : store.getJob id = some job) =>
      Store.id_of_getJob hjob
  refine ⟨hb.db_eq, hlinks, husable, ?_⟩
  intro el hel
  rcases hitems el hel with ⟨hold, hne⟩ | ⟨el₀, hold, hid, rfl⟩
  · obtain ⟨j, hj, hrun, hdata⟩ := hb.fresh el hold
    exact ⟨j, (hothers el.id hne).trans hj, hrun, hdata⟩
  · obtain ⟨job, hjob, hfresh⟩ := freshItem_tag hjobs (hb.fresh el₀ hold)
    rw [hid] at hjob hfresh
    simp only [hjob]
    exact hfresh

theorem fresh_configure (hb : b.Fresh env) (newUUID : ℕ → String) (conf : Configuration)
    (hkeep : KeepsEntries b
      { b with
        config := b.config.update newUUID conf
        db := InfluxDB.init (b.config.update newUUID conf) }) :
    Backend.Fresh env
      { b with
        config := b.config.update newUUID conf
        db := InfluxDB.init (b.config.update newUUID conf) } := by
  refine ⟨rfl, hb.links, hb.usable, ?_⟩
  intro el hel
  obtain ⟨j, hj, hrun, hdata⟩ := hb.fresh el hel
  have hmeta : el.data.metadata = j := metadata_of_getJobDataOf hdata
  have hmetrics := (hkeep el hel).2
  rw [hmeta] at hmetrics
  have hbucket : (InfluxDB.init (b.config.update newUUID conf)).bucketName = b.db.bucketName := by
    rw [hb.db_eq]
    rfl
  have hquantiles : (InfluxDB.init (b.config.update newUUID conf)).metricQuantiles =
      b.db.metricQuantiles := by
    rw [hb.db_eq]
    rfl
  exact ⟨j, hj, hrun, (getJobDataOf_congr_db hbucket hquantiles hmetrics _ _ _).trans hdata⟩

theorem fresh_fill {now : ℤ} (hb : b.Fresh env) {id : ℤ} {j : JobMetadata}
    (hj : b.store.getJob id = some j) (hrun : j.isRunning = false) :
    Backend.Fresh env
      { b with
        jobCache :=
          (b.jobCache.get (toDB (env.atTime now) b.db) j (b.bestInterval now j)).2 } := by
  refine ⟨hb.db_eq, hb.links, (LRUCache.size_get hb.usable).1, ?_⟩
  intro el hel
  rcases LRUCache.mem_get hb.usable hel with hold | ⟨-, hid, hdata⟩
  · exact hb.fresh el hold
  · refine ⟨j, ?_, hrun, ?_⟩
    · rw [hid, Store.id_of_getJob hj]
      exact hj
    · show getJobDataOf env b.db j (LRUCache.nodesOf j) (b.bestInterval 0 j) false = _
      rw [bestInterval_of_stopped hrun 0 now]
      exact hdata

/-- **The invariant survives every effect that leaves the entries alone.** -/
theorem fresh_effect {now : ℤ} {b' : Backend} (h : Effect (env.atTime now) b b')
    (hb : b.Fresh env) (hkeep : KeepsEntries b b') : b'.Fresh env := by
  cases h with
  | quiet hjobs htags hlinks =>
    refine fresh_of_store hb ?_ fun el hel => getJob_of_row htags hlinks (hkeep el hel).1
    intro l hl
    rw [hlinks] at hl
    rw [htags]
    exact hb.links l hl
  | put hput =>
    obtain ⟨tbl, -, rfl⟩ := Option.map_eq_some_iff.1 hput
    exact fresh_of_store hb hb.links fun el hel =>
      @getJob_of_row b.store { b.store with jobMetadata := tbl } rfl rfl _ (hkeep el hel).1
  | @write _ _ j' hget hid hstart htags hrun =>
    exact fresh_of_store hb hb.links fun el hel =>
      @getJob_of_row b.store (b.store.updateJob j') rfl rfl _ (hkeep el hel).1
  | tag hjobs hlinks hothers => exact fresh_tag hb hjobs (hlinks hb.links) (hothers hb.links)
  | configure newUUID conf => exact fresh_configure hb newUUID conf hkeep
  | fill hget hrun => exact fresh_fill hb hget hrun

end Effects

/-! ## Runs -/

/-- The backend with an empty cache. -/
def Backend.withoutCache (b : Backend) : Backend :=
  { b with jobCache := { size := b.jobCache.size } }

/-- A step that leaves the cache fresh: the time series are what they always are, a
prefetch reads the record of a job that is not running, and the entries are kept. -/
structure LeavesFresh (env : Environment) (s : System) (e : Event) : Prop where
  sameContent : ∃ now, e.env = env.atTime now
  readsFinished : ReadsFinished s e
  keepsEntries : ∀ s', s.step e = some s' → KeepsEntries s.backend s'.backend

theorem fresh_start (env : Environment) (c : Configuration) {store : Store}
    (hlinks : store.LinksValid) : (Backend.start c store).Fresh env := by
  refine ⟨rfl, hlinks, LRUCache.usable_empty _, ?_⟩
  intro el hel
  cases hel

theorem fresh_of_run {env : Environment} {c : Configuration} {store : Store}
    (hlinks : store.LinksValid) {events : List Event} {t : System}
    (h : Run (Guarded (LeavesFresh env) (StepOf System.step)) (System.start c store) events t) :
    t.backend.Fresh env := by
  refine h.invariant (I := fun s => s.backend.Fresh env) (fresh_start env c hlinks) ?_
  rintro s e s' hs ⟨hguard, hstep⟩
  obtain ⟨now, henv⟩ := hguard.sameContent
  have heffect : Effect e.env s.backend s'.backend := effect_of_step hstep hguard.readsFinished
  rw [henv] at heffect
  exact fresh_effect heffect hs (hguard.keepsEntries s' hstep)

/-- With fresh items, a call gets from the cache what it would get without. -/
theorem run_withoutCache {env : Environment} {b : Backend} (hb : b.Fresh env) (now : ℤ)
    {user : UserInfo} {req : GetJobRequest} {call : JobDataCall}
    (hcall : getJobCall now b user req = .ok call) :
    (call.run (env.atTime now) b).1 = (call.run (env.atTime now) b.withoutCache).1 := by
  obtain ⟨id, -, hj, -, -, hrecord, -, hcache, -⟩ := getJobCall_eq_ok hcall
  unfold JobDataCall.run
  cases hthrough : call.throughCache with
  | false => rfl
  | true =>
    obtain ⟨-, hrun, -, hinterval⟩ := hcache hthrough
    have hsame : call.record = call.job := by rw [hrecord, lastHour, hrun]; rfl
    have hbest : call.sampleInterval = b.bestInterval 0 call.job :=
      hinterval.trans (bestInterval_of_stopped hrun now 0)
    simp only [if_true, hsame, hbest]
    rcases hb.usable with ⟨us, hrep⟩ | ⟨hsize, hlist⟩
    · have hempty : LRUCache.Represents { size := b.jobCache.size } [] :=
        ⟨hrep.size_pos, by simp⟩
      cases hel : b.jobCache.cached call.job.id with
      | some el =>
        obtain ⟨hmem, helid⟩ := LRUCache.cached_eq_some hel
        obtain ⟨j, hjel, -, hdata⟩ := hb.fresh el hmem
        rw [helid, Store.id_of_getJob hj, hj] at hjel
        cases hjel
        obtain ⟨c', hget, -⟩ := @LRUCache.get_of_loaded _ _ (toDB (env.atTime now) b.db) _
          (b.bestInterval 0 call.job) hempty rfl _ hdata
        rw [LRUCache.get_of_cached hrep hel]
        exact (congrArg Prod.fst hget).symm
      | none =>
        cases hdata : (toDB (env.atTime now) b.db).getJobData call.job
            (LRUCache.nodesOf call.job) (b.bestInterval 0 call.job) false with
        | error e =>
          rw [LRUCache.get_of_failed hel hdata]
          exact (congrArg Prod.fst (@LRUCache.get_of_failed { size := b.jobCache.size } _ _ _
            rfl _ hdata)).symm
        | ok data =>
          obtain ⟨c', hget, -⟩ := LRUCache.get_of_loaded hrep hel hdata
          obtain ⟨c'', hget', -⟩ := LRUCache.get_of_loaded hempty rfl hdata
          rw [hget]
          exact (congrArg Prod.fst hget').symm
    · rw [LRUCache.get_of_no_room hsize hlist]
      exact (congrArg Prod.fst (@LRUCache.get_of_no_room { size := b.jobCache.size } _ _ _
        hsize rfl)).symm

/-- **Cache transparency.**  After every run whose steps leave the entries of the
cache fresh, `GetJob` answers every request of every user as it would with an
empty cache. -/
theorem getJob_transparent {env : Environment} {c : Configuration} {store : Store}
    (hlinks : store.LinksValid) {events : List Event} {t : System}
    (h : Run (Guarded (LeavesFresh env) (StepOf System.step)) (System.start c store) events t)
    (now : ℤ) (user : UserInfo) (req : GetJobRequest) :
    (getJob (env.atTime now) t.backend user req).1 =
      (getJob (env.atTime now) t.backend.withoutCache user req).1 := by
  have hfresh := fresh_of_run hlinks h
  cases hcall : getJobCall now t.backend user req with
  | error response =>
    have hcallHere : getJobCall (env.atTime now).now t.backend user req = .error response := hcall
    have hcallThere : getJobCall (env.atTime now).now t.backend.withoutCache user req =
        .error response := hcall
    simp only [getJob, hcallHere, hcallThere]
  | ok call =>
    have hcallHere : getJobCall (env.atTime now).now t.backend user req = .ok call := hcall
    have hcallThere : getJobCall (env.atTime now).now t.backend.withoutCache user req =
        .ok call := hcall
    simp only [getJob, hcallHere, hcallThere, run_withoutCache hfresh now hcall]

/-! ## Entries that are not kept -/

/-- An administrator looks at the job that has ended. -/
def lookAtOldJob : Event := .request silentSurroundings carol (.getJob { id := "2" })

/-- The metadata of the job are computed again. -/
def refreshOldJob : Event := .request silentSurroundings carol (.refreshMetadata "2")

/-- The partition of the job loses its metric. -/
def dropMetric : Event :=
  .request silentSurroundings carol (.updateConfig (.decoded { dbBucket := "b" }))

/-- How much a response says: the number of metrics with metadata, and of metrics
with data. -/
def Response.amount : Response → ℕ × ℕ
  | .status _ (.jobData data) => (data.metadata.data.length, data.metricData.length)
  | _ => (0, 0)

/-- After either step `GetJob` answers from the cache what is no longer so. -/
theorem stale_entries :
    (∃ t, Run (StepOf System.step) (System.start oneMetricConfig twoJobsBackend.store)
        [lookAtOldJob, refreshOldJob] t ∧
      (getJob Store.silentEnvironment t.backend carol { id := "2" }).1 ≠
        (getJob Store.silentEnvironment t.backend.withoutCache carol { id := "2" }).1) ∧
    (∃ t, Run (StepOf System.step) (System.start oneMetricConfig twoJobsBackend.store)
        [lookAtOldJob, dropMetric] t ∧
      (getJob Store.silentEnvironment t.backend carol { id := "2" }).1 ≠
        (getJob Store.silentEnvironment t.backend.withoutCache carol { id := "2" }).1) := by
  refine ⟨⟨_, run_exec_iff.2 rfl, ?_⟩, ⟨_, run_exec_iff.2 rfl, ?_⟩⟩
  · intro h
    have hamount : ((0, 1) : ℕ × ℕ) = (1, 1) := congrArg Response.amount h
    revert hamount
    decide
  · intro h
    have hamount : ((0, 1) : ℕ × ℕ) = (0, 0) := congrArg Response.amount h
    revert hamount
    decide

theorem getJob_transparent_oldJob :
    ∃ t, Run (StepOf System.step) (System.start oneMetricConfig twoJobsBackend.store)
        [lookAtOldJob] t ∧
      (getJob (Store.silentEnvironment.atTime 0) t.backend carol { id := "2" }).1 =
        (getJob (Store.silentEnvironment.atTime 0) t.backend.withoutCache carol
          { id := "2" }).1 := by
  have hlinks : twoJobsBackend.store.LinksValid := by
    intro l hl
    cases hl
  have hguard : LeavesFresh Store.silentEnvironment
      (System.start oneMetricConfig twoJobsBackend.store) lookAtOldJob :=
    ⟨⟨200, rfl⟩, trivial, fun _ _ el hel => by cases hel⟩
  obtain ⟨t, ht⟩ : ∃ t, (System.start oneMetricConfig twoJobsBackend.store).step lookAtOldJob =
      some t := ⟨_, rfl⟩
  have hrun : Run (Guarded (LeavesFresh Store.silentEnvironment) (StepOf System.step))
      (System.start oneMetricConfig twoJobsBackend.store) ([] ++ [lookAtOldJob]) t :=
    Run.nil.snoc ⟨hguard, ht⟩
  exact ⟨t, hrun.unguard, getJob_transparent hlinks hrun 0 carol { id := "2" }⟩

end JobMon
