import JobMon.Router.System
import JobMon.Router.Window

/-!
# Windows over a run

A live connection works with the record it has read when it was opened, and messages
arrive any number of requests later.  The job is then still there, and has kept its
start.

* `keepsStart_effect`, `keepsStart_step`, `keepsStart_of_run` — no step takes a job
  away or moves its start.
* `queried_window_inside_iff` — when the queries of all three handlers stay inside the
  life of the stored job.
-/

namespace JobMon

open Keyed Runs InfluxDB

/-! ## Jobs keep their start -/

/-- Every stored job is still stored, with the same start. -/
def KeepsStart (s s' : Store) : Prop :=
  ∀ id j, s.getJob id = some j → ∃ j', s'.getJob id = some j' ∧ j'.startTime = j.startTime

theorem keepsStart_refl (s : Store) : KeepsStart s s := fun _ j hj => ⟨j, hj, rfl⟩

theorem KeepsStart.trans {s s' s'' : Store} (h : KeepsStart s s') (h' : KeepsStart s' s'') :
    KeepsStart s s'' := by
  intro id j hj
  obtain ⟨j', hj', hstart⟩ := h id j hj
  obtain ⟨j'', hj'', hstart'⟩ := h' id j' hj'
  exact ⟨j'', hj'', hstart'.trans hstart⟩

/-- Tags do not matter. -/
theorem keepsStart_of_jobs {s s' : Store} (h : s'.jobMetadata = s.jobMetadata) :
    KeepsStart s s' := by
  intro id j hj
  obtain ⟨row, hrow, rfl⟩ := Option.map_eq_some_iff.1 hj
  exact ⟨s'.withTags row, by rw [Store.getJob, h, hrow, Option.map_some], rfl⟩

theorem keepsStart_putJob {s s' : Store} {j : JobMetadata} (h : s.putJob j = some s') :
    KeepsStart s s' := by
  intro id j₀ hj₀
  refine ⟨j₀, ?_, rfl⟩
  rw [Store.getJob_putJob h, if_neg, hj₀]
  intro hid
  have htaken : s.putJob j = none := by
    rw [Store.putJob_eq_none_iff, ← hid, hj₀]
    simp
  rw [htaken] at h
  cases h

theorem keepsStart_updateJob {s : Store} {id : ℤ} {j j' : JobMetadata}
    (hj : s.getJob id = some j) (hid : j'.id = id) (hstart : j'.startTime = j.startTime) :
    KeepsStart s (s.updateJob j') := by
  intro id₀ j₀ hj₀
  by_cases hsame : id₀ = j'.id
  · refine ⟨s.withTags j', ?_, ?_⟩
    · rw [Store.getJob_updateJob, if_pos hsame, hj₀, Option.map_some]
    · rw [hsame, hid, hj] at hj₀
      cases hj₀
      exact hstart
  · exact ⟨j₀, by rw [Store.getJob_updateJob_of_ne hsame, hj₀], rfl⟩

theorem keepsStart_effect {env : Environment} {b b' : Backend} (h : Effect env b b') :
    KeepsStart b.store b'.store := by
  cases h with
  | quiet hjobs htags hlinks => exact keepsStart_of_jobs hjobs
  | put hput => exact keepsStart_putJob hput
  | write hget hid hstart htags hrun => exact keepsStart_updateJob hget hid hstart
  | tag hjobs hlinks hothers => exact keepsStart_of_jobs hjobs
  | configure newUUID conf => exact keepsStart_refl _
  | fill hget hrun => exact keepsStart_refl _

theorem keepsStart_step {s s' : System} {e : Event} (h : s.step e = some s') :
    KeepsStart s.backend.store s'.backend.store := by
  cases e with
  | request out user req =>
    rw [System.step_request h]
    exact keepsStart_effect (effect_of_serve out user req)
  | runStop i env calls =>
    obtain ⟨task, outcome, backend, -, hrun, rfl⟩ := System.step_runStop h
    exact keepsStart_effect (effect_of_runStop hrun)
  | runPrefetch i env =>
    -- a prefetch may read a running job, but it leaves the store alone
    obtain ⟨id, backend, -, hrun, rfl⟩ := System.step_runPrefetch h
    rcases runPrefetch_cases hrun with ⟨-, rfl⟩ | ⟨j, -, rfl, -⟩
    · exact keepsStart_refl _
    · exact keepsStart_refl _

/-- **No run takes a job away or moves its start.** -/
theorem keepsStart_of_run {s t : System} {events : List Event}
    (h : Run (StepOf System.step) s events t) :
    KeepsStart s.backend.store t.backend.store := by
  induction h with
  | nil => exact keepsStart_refl _
  | snoc _ hstep ih => exact ih.trans (keepsStart_step hstep)

/-- The job of a live connection is still stored when a message arrives. -/
theorem job_of_connection {s t : System} {events : List Event}
    (h : Run (StepOf System.step) s events t) {user : UserInfo} {strId : String}
    {conn : LiveConnection} (hconn : (liveMonitoring s.backend user strId).2 = some conn) :
    ∃ j, t.backend.store.getJob conn.job.id = some j ∧ conn.job.startTime = j.startTime := by
  unfold liveMonitoring at hconn
  cases hid : Go.atoi strId with
  | error e =>
    rw [hid] at hconn
    cases hconn
  | ok id =>
    simp only [hid] at hconn
    obtain ⟨j₀, hj₀, rfl⟩ := Option.map_eq_some_iff.1 hconn
    obtain ⟨j, hj, hstart⟩ := keepsStart_of_run h id j₀ hj₀
    refine ⟨j, ?_, hstart.symm⟩
    rw [Store.id_of_getJob hj₀]
    exact hj

/-! ## The three handlers -/

/-- **The queried window and the life of the job.**  `GetJob` and `GetMetric` ask for
nothing outside the life of the stored job exactly when it is not running or has
been running for an hour; a `LoadMetrics` message, however long after the connection
was opened, does so exactly when its stop is not after the end of the job, or its
window is empty. -/
theorem queried_window_inside_iff (env : Environment) (user : UserInfo) :
    (∀ b req call, getJobCall env.now b user req = .ok call →
      (∃ id, b.store.getJob id = some call.job) ∧ AskFor call.record (call.queries b.db) ∧
        (∀ api', env.api.AgreeOn api' (call.queries b.db) →
          getJob env b user req = getJob (env.withAPI api') b user req) ∧
        (WindowInside env.now call.job call.record ↔
          call.job.isRunning = false ∨ call.job.startTime ≤ env.now - 3600 ∨ env.now < 3600)) ∧
    (∀ b req call, getMetricCall env.now b user req = .ok call →
      (∃ id, b.store.getJob id = some call.job) ∧ AskFor call.record (call.queries b.db) ∧
        (∀ api', env.api.AgreeOn api' (call.queries b.db) →
          getMetric env b user req = getMetric (env.withAPI api') b user req) ∧
        (WindowInside env.now call.job call.record ↔
          call.job.isRunning = false ∨ call.job.startTime ≤ env.now - 3600 ∨ env.now < 3600)) ∧
    (∀ s events t strId conn startTime stopTime, Run (StepOf System.step) s events t →
      (liveMonitoring s.backend user strId).2 = some conn →
      ∃ j, t.backend.store.getJob conn.job.id = some j ∧
        AskFor (loadMetricsRecord conn.job startTime stopTime)
          (loadMetricsQueries env.now t.backend conn startTime stopTime) ∧
        (∀ api',
          env.api.AgreeOn api' (loadMetricsQueries env.now t.backend conn startTime stopTime) →
          loadMetrics env t.backend conn (.loadMetrics startTime stopTime) =
            loadMetrics (env.withAPI api') t.backend conn (.loadMetrics startTime stopTime)) ∧
        (WindowInside env.now j (loadMetricsRecord conn.job startTime stopTime) ↔
          stopTime ≤ j.lifetimeEnd env.now ∨ stopTime ≤ max j.startTime startTime ∨
            max j.startTime startTime < 0)) := by
  refine ⟨?_, ?_, ?_⟩
  · intro b req call hcall
    obtain ⟨id, -, hjob, -, -, hrecord, -⟩ := getJobCall_eq_ok hcall
    refine ⟨⟨id, hjob⟩, call.askFor b.db, ?_, ?_⟩
    · intro api' hagree
      refine getJob_congr fun call' hcall' => ?_
      cases hcall.symm.trans hcall'
      exact hagree
    · rw [hrecord]
      exact lastHour_inside_iff env.now call.job
  · intro b req call hcall
    obtain ⟨id, -, hjob, -, hrecord, -⟩ := getMetricCall_eq_ok hcall
    refine ⟨⟨id, hjob⟩, call.askFor b.db, ?_, ?_⟩
    · intro api' hagree
      refine getMetric_congr fun call' hcall' => ?_
      cases hcall.symm.trans hcall'
      exact hagree
    · rw [hrecord]
      exact lastHour_inside_iff env.now call.job
  · intro s events t strId conn startTime stopTime hrun hconn
    obtain ⟨j, hj, hstart⟩ := job_of_connection hrun hconn
    exact ⟨j, hj, loadMetrics_askFor env.now t.backend conn startTime stopTime,
      fun _ hagree => loadMetrics_congr hagree, loadMetricsRecord_inside_iff hstart⟩

/-- The job that has ended, asked for in all three ways. -/
theorem queried_window_inside_iff_twoJobs :
    (∃ call, getJobCall 10000 twoJobsBackend { username := "u" } { id := "2" } = .ok call ∧
      WindowInside 10000 oldJob call.record) ∧
    (∃ call, getMetricCall 10000 twoJobsBackend { username := "u" }
        { id := "2", metric := "g", aggFn := "max" } = .ok call ∧
      WindowInside 10000 oldJob call.record) ∧
    ∃ j, twoJobsBackend.store.getJob 2 = some j ∧
      WindowInside 10000 j (loadMetricsRecord oldJob 0 1200) := by
  obtain ⟨hjob, hmetric, hload⟩ :=
    queried_window_inside_iff { Store.silentEnvironment with now := 10000 } { username := "u" }
  refine ⟨⟨_, rfl, ?_⟩, ⟨_, rfl, ?_⟩, ?_⟩
  · exact (hjob twoJobsBackend { id := "2" } _ rfl).2.2.2.2 (Or.inl rfl)
  · exact (hmetric twoJobsBackend { id := "2", metric := "g", aggFn := "max" } _ rfl).2.2.2.2
      (Or.inl rfl)
  · obtain ⟨j, hj, -, -, hinside⟩ := hload { backend := twoJobsBackend } [] _ "2"
      { job := oldJob } 0 1200 .nil rfl
    refine ⟨j, hj, hinside.2 (Or.inl ?_)⟩
    cases hj
    exact le_refl _

end JobMon
