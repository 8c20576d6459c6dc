import JobMon.Router.System

/-!
# Only finished jobs are cached

A record in the cache is never refreshed from InfluxDB, so it must not be that of a
running job.  `GetJob` sees to that; the prefetch after a stop does not, and
`JobStop` starts its follow-up work when `StopJob` has failed.

* `CachesFinished` — the invariant; `cachesFinished_effect` says that every effect
  keeps it.
* `onlyFinished_iff` — a run keeps to finished jobs exactly when its prefetches do.
* `onlyFinished_and_followUps_iff` — the follow-up work is right exactly when no stop has
  completed.
-/

namespace JobMon

open Keyed Runs

/-! ## Finished records stay finished -/

namespace Store

/-- The job is in the store, and not running. -/
def Finished (s : Store) (id : ℤ) : Prop := ∃ j, s.getJob id = some j ∧ j.isRunning = false

/-- Tags do not matter. -/
theorem finished_congr {s s' : Store} (hjobs : s'.jobMetadata = s.jobMetadata) {id : ℤ}
    (h : s.Finished id) : s'.Finished id := by
  obtain ⟨j, hj, hrun⟩ := h
  obtain ⟨row, hrow, rfl⟩ := Option.map_eq_some_iff.1 hj
  exact ⟨s'.withTags row, by rw [getJob, hjobs, hrow, Option.map_some], hrun⟩

theorem finished_putJob {s s' : Store} {j : JobMetadata} (hput : s.putJob j = some s') {id : ℤ}
    (h : s.Finished id) : s'.Finished id := by
  obtain ⟨j₀, hj₀, hrun⟩ := h
  refine ⟨j₀, ?_, hrun⟩
  rw [getJob_putJob hput]
  by_cases hid : id = j.id
  · have hfree : s.getJob j.id = none := by
      by_contra htaken
      rw [putJob_eq_none_iff.2 htaken] at hput
      cases hput
    rw [← hid, hj₀] at hfree
    cases hfree
  · rw [if_neg hid, hj₀]

theorem finished_updateJob {s : Store} {j' : JobMetadata} (hrun' : j'.isRunning = false) {id : ℤ}
    (h : s.Finished id) : (s.updateJob j').Finished id := by
  obtain ⟨j, hj, hrun⟩ := h
  by_cases hid : id = j'.id
  · refine ⟨s.withTags j', ?_, hrun'⟩
    rw [getJob_updateJob, if_pos hid, hj, Option.map_some]
  · refine ⟨j, ?_, hrun⟩
    rw [getJob_updateJob_of_ne hid, hj]

end Store

theorem finished_effect {env : Environment} {b b' : Backend} (h : Effect env b b') {id : ℤ}
    (hfin : b.store.Finished id) : b'.store.Finished id := by
  cases h with
  | quiet hjobs htags hlinks => exact Store.finished_congr hjobs hfin
  | put hput => exact Store.finished_putJob hput hfin
  | write hget hid hstart htags hrun => exact Store.finished_updateJob hrun hfin
  | tag hjobs hlinks hothers => exact Store.finished_congr hjobs hfin
  | configure newUUID conf => exact hfin
  | fill hget hrun => exact hfin

/-! ## The invariant -/

/-- Every item was computed from a record that was not running. -/
def LRUCache.OnlyFinished (c : LRUCache) : Prop := ∀ el ∈ c.list, el.data.metadata.isRunning = false

/-- The items are those of finished jobs, and the store says so too. -/
structure Backend.CachesFinished (b : Backend) : Prop where
  usable : b.jobCache.Usable
  onlyFinished : b.jobCache.OnlyFinished
  stored : ∀ el ∈ b.jobCache.list, b.store.Finished el.id

theorem metadata_of_getJobDataOf {env : Environment} {db : InfluxDB} {j : JobMetadata}
    {nodes : String} {d : Go.Duration} {raw : Bool} {data : JobData}
    (h : InfluxDB.getJobDataOf env db j nodes d raw = .ok data) : data.metadata = j := by
  obtain ⟨metricData, -, h⟩ := bind_eq_ok_iff.1 h
  obtain ⟨quantileData, -, h⟩ := bind_eq_ok_iff.1 h
  cases h
  rfl

/-- As long as the cache is not touched, only the store counts. -/
theorem cachesFinished_of_store {b : Backend} (hb : b.CachesFinished) {b' : Backend}
    (hcache : b'.jobCache = b.jobCache)
    (hstore : ∀ id, b.store.Finished id → b'.store.Finished id) : b'.CachesFinished := by
  refine ⟨hcache ▸ hb.usable, hcache ▸ hb.onlyFinished, ?_⟩
  intro el hel
  rw [hcache] at hel
  exact hstore el.id (hb.stored el hel)

theorem cachesFinished_tag {b : Backend} (hb : b.CachesFinished) {id : ℤ} {store : Store}
    (hjobs : store.jobMetadata = b.store.jobMetadata) :
    Backend.CachesFinished
      { b with store, jobCache := (b.jobCache.updateJob store.getJob id).2 } := by
  obtain ⟨-, husable, -, hitems⟩ :=
    LRUCache.mem_updateJob hb.usable fun job (hjob : store.getJob id = some job) =>
      Store.id_of_getJob hjob
  have hstored : ∀ el ∈ b.jobCache.list, store.Finished el.id := fun el hel =>
    Store.finished_congr hjobs (hb.stored el hel)
  refine ⟨husable, ?_, ?_⟩
  · intro el hel
    rcases hitems el hel with ⟨hold, -⟩ | ⟨el₀, hold, hid, rfl⟩
    · exact hb.onlyFinished el hold
    · obtain ⟨j, hj, hrun⟩ := hstored el₀ hold
      rw [hid] at hj
      simp only [hj]
      exact hrun
  · intro el hel
    rcases hitems el hel with ⟨hold, -⟩ | ⟨el₀, hold, hid, rfl⟩
    · exact hstored el hold
    · have hfin := hstored el₀ hold
      rw [hid] at hfin
      have hread := hfin
      obtain ⟨j, hj, -⟩ := hread
      simp only [hj]
      exact hfin

theorem cachesFinished_fill {env : Environment} {b : Backend} (hb : b.CachesFinished) {id : ℤ}
    {j : JobMetadata} (hj : b.store.getJob id = some j) (hrun : j.isRunning = false)
    (d : Go.Duration) :
    Backend.CachesFinished
      { b with jobCache := (b.jobCache.get (InfluxDB.toDB env b.db) j d).2 } := by
  refine ⟨(LRUCache.size_get hb.usable).1, ?_, ?_⟩
  · intro el hel
    rcases LRUCache.mem_get hb.usable hel with hold | ⟨-, -, hdata⟩
    · exact hb.onlyFinished el hold
    · rw [metadata_of_getJobDataOf hdata]
      exact hrun
  · intro el hel
    rcases LRUCache.mem_get hb.usable hel with hold | ⟨-, hid, -⟩
    · exact hb.stored el hold
    · rw [hid, Store.id_of_getJob hj]
      exact ⟨j, hj, hrun⟩

/-- **Every effect keeps the invariant.** -/
theorem cachesFinished_effect {env : Environment} {b b' : Backend} (h : Effect env b b')
    (hb : b.CachesFinished) : b'.CachesFinished := by
  have hstore : ∀ id, b.store.Finished id → b'.store.Finished id := fun _ => finished_effect h
  cases h with
  | quiet hjobs htags hlinks => exact cachesFinished_of_store hb rfl hstore
  | put hput => exact cachesFinished_of_store hb rfl hstore
  | write hget hid hstart htags hrun => exact cachesFinished_of_store hb rfl hstore
  | tag hjobs hlinks hothers => exact cachesFinished_tag hb hjobs
  | configure newUUID conf => exact cachesFinished_of_store hb rfl hstore
  | fill hget hrun => exact cachesFinished_fill hb hget hrun _

theorem cachesFinished_start (c : Configuration) (store : Store) :
    (Backend.start c store).CachesFinished := by
  refine ⟨LRUCache.usable_empty _, ?_, ?_⟩
  · intro el hel
    cases hel
  · intro el hel
    cases hel

/-! ## Steps and runs -/

/-- A prefetch reads the record of a job that is not running. -/
def ReadsFinished (s : System) : Event → Prop
  | .runPrefetch i _ => ∀ id j, s.prefetches[i]? = some id → s.backend.store.getJob id = some j →
      j.isRunning = false
  | _ => True

/-- Apart from a prefetch, every step is one of the effects. -/
theorem effect_of_step {s s' : System} {e : Event} (h : s.step e = some s')
    (hguard : ReadsFinished s e) : Effect e.env s.backend s'.backend := by
  cases e with
  | request out user req =>
    rw [System.step_request h]
    exact effect_of_serve out user req
  | runStop i env calls =>
    obtain ⟨task, outcome, backend, -, hrun, rfl⟩ := System.step_runStop h
    exact effect_of_runStop hrun
  | runPrefetch i env =>
    obtain ⟨id, backend, hid, hrun, rfl⟩ := System.step_runPrefetch h
    exact effect_of_runPrefetch hrun fun j hj => hguard id j hid hj

/-- A prefetch that reads the record of a running job puts it into the cache. -/
theorem not_onlyFinished_of_prefetch {env : Environment} {b b' : Backend}
    (hb : b.CachesFinished) {id : ℤ} {j : JobMetadata} (hj : b.store.getJob id = some j)
    (hrun : j.isRunning = true) (h : runPrefetch env b id = some b') :
    ¬ b'.jobCache.OnlyFinished := by
  have hjid : j.id = id := Store.id_of_getJob hj
  have hmiss : b.jobCache.cached j.id = none := by
    by_contra hhit
    obtain ⟨el, hel⟩ := Option.ne_none_iff_exists'.1 hhit
    obtain ⟨hmem, helid⟩ := LRUCache.cached_eq_some hel
    obtain ⟨j', hj', hrun'⟩ := hb.stored el hmem
    rw [helid, hjid, hj] at hj'
    cases hj'
    rw [hrun] at hrun'
    cases hrun'
  rcases runPrefetch_cases h with ⟨hnone, -⟩ | ⟨j', hj', rfl, hpanic⟩
  · rw [hj] at hnone
    cases hnone
  cases hj.symm.trans hj'
  cases hdata : (InfluxDB.toDB env b.db).getJobData j (LRUCache.nodesOf j)
      (b.bestInterval env.now j) false with
  | error e =>
    have he : e = .panic := Store.getJobData_error hdata
    exfalso
    apply hpanic
    rw [LRUCache.get, LRUCache.find_of_not_cached hmiss]
    simp only [hdata, he]
  | ok data =>
    rcases hb.usable with ⟨us, hrep⟩ | ⟨hsize, hlist⟩
    · obtain ⟨c', hget, -, -, hlist⟩ := LRUCache.get_of_loaded hrep hmiss hdata
      intro hall
      rw [hget] at hall
      have hnew := hall { id := j.id, data } (by rw [hlist]; exact List.mem_cons_self)
      rw [metadata_of_getJobDataOf hdata, hrun] at hnew
      cases hnew
    · exfalso
      apply hpanic
      rw [LRUCache.get_of_no_room hsize hlist]
      simp only [hdata]

/-- **A run keeps to finished jobs exactly when its prefetches do.** -/
theorem onlyFinished_iff {c : Configuration} {store : Store} {events : List Event} {t : System}
    (h : Run (StepOf System.step) (System.start c store) events t) :
    Throughout (StepOf System.step) (System.start c store) events
        (fun s => s.backend.jobCache.OnlyFinished) ↔
      Run (Guarded ReadsFinished (StepOf System.step)) (System.start c store) events t := by
  refine @throughout_iff_guarded _ _ _ _ _ _ ReadsFinished (fun s => s.backend.CachesFinished) _
    h (cachesFinished_start c store) (fun s hs => hs.onlyFinished) ?_ ?_
  · -- a prefetch that reads a running job caches it
    intro s e s' hs hstep hall
    cases e with
    | request out user req => trivial
    | runStop i env calls => trivial
    | runPrefetch i env =>
      intro id j hid hj
      by_contra hrunning
      obtain ⟨id', backend, hid', hprefetch, rfl⟩ := System.step_runPrefetch hstep
      cases hid.symm.trans hid'
      exact not_onlyFinished_of_prefetch hs hj (by simpa using hrunning) hprefetch hall
  · intro s e s' hs hstep hguard
    exact cachesFinished_effect (effect_of_step hstep hguard) hs

/-! ## The follow-up work -/

/-- The follow-up work was started for the stops that succeeded, and for no others. -/
def System.FollowUpsExact (s : System) : Prop :=
  ∀ o ∈ s.completed, o.runAggregation = o.succeeded ∧
    o.prefetch = (o.succeeded && o.prefetchEnabled)

/-- It was started for those that failed. -/
theorem runAggregation_of_run {c : Configuration} {store : Store} {events : List Event}
    {t : System} (h : Run (StepOf System.step) (System.start c store) events t) :
    ∀ o ∈ t.completed, o.runAggregation = !o.succeeded := by
  refine h.invariant (I := fun s => ∀ o ∈ s.completed, o.runAggregation = !o.succeeded) ?_ ?_
  · intro o ho
    cases ho
  rintro s e s' hs hstep
  cases e with
  | request out user req =>
    rw [System.step_request hstep]
    exact hs
  | runStop i env calls =>
    obtain ⟨task, outcome, backend, -, hrun, rfl⟩ := System.step_runStop hstep
    intro o ho
    rcases List.mem_cons.1 ho with rfl | ho
    · exact outcome_of_runStop hrun
    · exact hs o ho
  | runPrefetch i env =>
    obtain ⟨id, backend, -, -, rfl⟩ := System.step_runPrefetch hstep
    exact hs

/-- Without a completed stop there is nothing to prefetch, at any time. -/
theorem run_of_no_stops {c : Configuration} {store : Store} {events : List Event} {t : System}
    (h : Run (StepOf System.step) (System.start c store) events t) (ht : t.completed = []) :
    t.prefetches = [] ∧
      Run (Guarded ReadsFinished (StepOf System.step)) (System.start c store) events t := by
  induction h with
  | nil => exact ⟨rfl, .nil⟩
  | @snoc events s u e hrun hstep ih =>
    cases e with
    | request out user req =>
      have hu := System.step_request hstep
      rw [hu] at ht
      obtain ⟨hnone, hguarded⟩ := ih ht
      refine ⟨?_, hguarded.snoc ⟨trivial, hstep⟩⟩
      rw [hu]
      exact hnone
    | runStop i env calls =>
      obtain ⟨task, outcome, backend, -, -, rfl⟩ := System.step_runStop hstep
      cases ht
    | runPrefetch i env =>
      obtain ⟨id, backend, hid, -, rfl⟩ := System.step_runPrefetch hstep
      obtain ⟨hnone, -⟩ := ih ht
      rw [hnone] at hid
      cases hid

/-- **Only finished jobs, and the right follow-up work.**  The first holds in every
state of a run exactly when every prefetch reads the record of a job that is not
running; both hold exactly when no stop has completed, since a completed stop
either succeeds without its follow-up work or fails with it. -/
theorem onlyFinished_and_followUps_iff {c : Configuration} {store : Store} {events : List Event}
    {t : System} (h : Run (StepOf System.step) (System.start c store) events t) :
    (Throughout (StepOf System.step) (System.start c store) events
        (fun s => s.backend.jobCache.OnlyFinished) ↔
      Run (Guarded ReadsFinished (StepOf System.step)) (System.start c store) events t) ∧
    (Throughout (StepOf System.step) (System.start c store) events
        (fun s => s.backend.jobCache.OnlyFinished) ∧ t.FollowUpsExact ↔ t.completed = []) := by
  refine ⟨onlyFinished_iff h, ?_, ?_⟩
  · rintro ⟨-, hexact⟩
    refine List.eq_nil_iff_forall_not_mem.2 fun o ho => ?_
    have hinverted := runAggregation_of_run h o ho
    rw [(hexact o ho).1] at hinverted
    cases hsucceeded : o.succeeded with
    | true => simp [hsucceeded] at hinverted
    | false => simp [hsucceeded] at hinverted
  · intro hnone
    refine ⟨(onlyFinished_iff h).2 (run_of_no_stops h hnone).2, ?_⟩
    intro o ho
    rw [hnone] at ho
    cases ho

/-! ## A stop that comes too early -/

/-- Nothing is measured, no search term is accepted and no token signed. -/
def silentSurroundings : Surroundings :=
  { env := Store.silentEnvironment
    sql := { jobs := fun _ _ _ => none, tags := fun _ _ _ => none, users := fun _ _ => none }
    newUUID := fun _ => "new"
    sign := fun _ => none }

/-- The cache has room for one job, and jobs are prefetched. -/
def prefetchConfig : Configuration := { cacheSize := 1, prefetch := true, sampleInterval := "30s" }

/-- Two running jobs. -/
def runningStore : Store :=
  { jobMetadata := ⟨[{ id := 1, isRunning := true, startTime := 100 },
      { id := 2, isRunning := true, startTime := 100 }], by decide⟩ }

/-- The stop of a job is reported, and its goroutine runs. -/
def stopEvents (id : String) (stop : StopJob) : List Event :=
  [.request silentSurroundings { roles := [JOBCONTROL] } (.jobStop id (.decoded stop)),
    .runStop 0 Store.silentEnvironment {}]

/-- The stop of job 1 lies at its start, so `StopJob` fails and the running job is
prefetched. -/
def tooEarly : List Event :=
  stopEvents "1" { stopTime := 100 } ++ [.runPrefetch 0 Store.silentEnvironment]

/-- What the backend then holds. -/
def afterTooEarly : System :=
  { backend :=
      { Backend.start prefetchConfig runningStore with
        jobCache :=
          { size := 1
            list :=
              [{ id := 1
                 data := { metadata := { id := 1, isRunning := true, startTime := 100 } } }] } }
    completed := [{ succeeded := false, prefetchEnabled := true, runAggregation := true
                    prefetch := true }] }

theorem run_tooEarly :
    Run (StepOf System.step) (System.start prefetchConfig runningStore) tooEarly afterTooEarly :=
  run_exec_iff.2 rfl

/-- A running job is in the cache; and the stop of the other job succeeds without
any follow-up work. -/
theorem running_job_cached :
    (∃ t, Run (StepOf System.step) (System.start prefetchConfig runningStore) tooEarly t ∧
      ¬ t.backend.jobCache.OnlyFinished ∧ ¬ t.FollowUpsExact) ∧
    (∃ t, Run (StepOf System.step) (System.start prefetchConfig runningStore)
        (stopEvents "2" { stopTime := 200 }) t ∧
      ¬ t.FollowUpsExact) := by
  refine ⟨⟨afterTooEarly, run_exec_iff.2 rfl, ?_, ?_⟩, ⟨_, run_exec_iff.2 rfl, ?_⟩⟩
  · intro h
    have hrun := h _ List.mem_cons_self
    cases hrun
  · intro h
    have hwork := (h _ List.mem_cons_self).1
    cases hwork
  · intro h
    have hwork := (h _ List.mem_cons_self).1
    cases hwork

theorem onlyFinished_and_followUps_iff_tooEarly :
    ¬ Run (Guarded ReadsFinished (StepOf System.step)) (System.start prefetchConfig runningStore)
      tooEarly afterTooEarly ∧ afterTooEarly.completed ≠ [] := by
  obtain ⟨hcache, hboth⟩ := onlyFinished_and_followUps_iff run_tooEarly
  have hcached : ¬ afterTooEarly.backend.jobCache.OnlyFinished := by
    intro h
    have hrun := h _ List.mem_cons_self
    cases hrun
  refine ⟨fun hguarded => ?_, fun hnone => ?_⟩
  · exact hcached (hcache.2 hguarded tooEarly _ List.prefix_rfl run_tooEarly)
  · exact hcached ((hboth.2 hnone).1 tooEarly _ List.prefix_rfl run_tooEarly)

end JobMon
