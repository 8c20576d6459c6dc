import JobMon.Lib.Runs
import JobMon.Router.Write

/-!
# The backend at work

Requests are served one after the other; the goroutines of `JobStop` run at any
later time, in any order.

* `System.step` — a request, or a goroutine.
* `Effect` — everything a step can do to jobs, tags, configuration and cache:
  one case for each kind of write, with what is known there.
* `effect_of_serve`, `effect_of_runStop`, `effect_of_runPrefetch` — a step does
  one of these things.
-/

namespace JobMon

open Keyed Runs

/-! ## Steps -/

/-- The backend, the goroutines that have not run yet, and what became of the stops
that have, newest first. -/
structure System where
  backend : Backend
  stops : List StopTask := []
  /-- The jobs that are to be prefetched. -/
  prefetches : List ℤ := []
  completed : List StopOutcome := []

/-- What happens next. -/
inductive Event
  | request (out : Surroundings) (user : UserInfo) (req : Request)
  /-- The goroutine for the stop at position `i` runs. -/
  | runStop (i : ℕ) (env : Environment) (calls : StoreCalls)
  /-- The prefetch at position `i` runs. -/
  | runPrefetch (i : ℕ) (env : Environment)

/-- The surroundings of an event. -/
def Event.env : Event → Environment
  | .request out _ _ => out.env
  | .runStop _ env _ => env
  | .runPrefetch _ env => env

/-- One event; nothing comes after the end of the process. -/
def System.step (s : System) : Event → Option System
  | .request out user req =>
    match serve out s.backend user req with
    | (.crash, _) => none
    | (_, backend, task) => some { s with backend, stops := s.stops ++ task.toList }
  | .runStop i env calls =>
    match s.stops[i]? with
    | none => none
    | some task =>
      match runStop env calls s.backend task with
      | none => none
      | some (outcome, backend) =>
        some
          { backend
            stops := s.stops.eraseIdx i
            prefetches :=
              if outcome.prefetch then s.prefetches ++ [task.id] else s.prefetches
            completed := outcome :: s.completed }
  | .runPrefetch i env =>
    match s.prefetches[i]? with
    | none => none
    | some id =>
      (runPrefetch env s.backend id).map fun backend =>
        { s with backend, prefetches := s.prefetches.eraseIdx i }

/-- The system as it starts up. -/
def System.start (c : Configuration) (store : Store) : System := { backend := .start c store }

section Steps

variable {s s' : System} {out : Surroundings} {user : UserInfo} {req : Request} {i : ℕ}
  {env : Environment} {calls : StoreCalls}

theorem System.step_request (h : s.step (.request out user req) = some s') :
    s' = { s with
      backend := (serve out s.backend user req).2.1
      stops := s.stops ++ (serve out s.backend user req).2.2.toList } := by
  simp only [System.step] at h
  split at h
  · cases h
  · rename_i heq
    cases h
    rw [heq]

theorem System.step_runStop (h : s.step (.runStop i env calls) = some s') :
    ∃ task outcome backend, s.stops[i]? = some task ∧
      runStop env calls s.backend task = some (outcome, backend) ∧
      s' =
        { backend
          stops := s.stops.eraseIdx i
          prefetches := if outcome.prefetch then s.prefetches ++ [task.id] else s.prefetches
          completed := outcome :: s.completed } := by
  simp only [System.step] at h
  cases htask : s.stops[i]? with
  | none => simp [htask] at h
  | some task =>
    simp only [htask] at h
    cases hrun : runStop env calls s.backend task with
    | none => simp [hrun] at h
    | some after =>
      simp only [hrun, Option.some.injEq] at h
      exact ⟨task, after.1, after.2, rfl, hrun, h.symm⟩

theorem System.step_runPrefetch (h : s.step (.runPrefetch i env) = some s') :
    ∃ id backend, s.prefetches[i]? = some id ∧ runPrefetch env s.backend id = some backend ∧
      s' = { s with backend, prefetches := s.prefetches.eraseIdx i } := by
  simp only [System.step] at h
  cases hid : s.prefetches[i]? with
  | none => simp [hid] at h
  | some id =>
    simp only [hid] at h
    obtain ⟨backend, hrun, hs'⟩ := Option.map_eq_some_iff.1 h
    exact ⟨id, backend, rfl, hrun, hs'.symm⟩

end Steps

/-! ## What a step can do -/

/-- The sample interval that suits a job best. -/
def Backend.bestInterval (b : Backend) (now : ℤ) (j : JobMetadata) : Go.Duration :=
  (j.calculateSampleIntervals now b.sampleInterval).2

/-- What a step does to jobs, tags, configuration and cache. -/
inductive Effect (env : Environment) (b : Backend) : Backend → Prop
  /-- Sessions and roles at most. -/
  | quiet {store : Store} (hjobs : store.jobMetadata = b.store.jobMetadata)
      (htags : store.jobTags = b.store.jobTags) (hlinks : store.jobToTags = b.store.jobToTags) :
      Effect env b { b with store }
  /-- A job is inserted. -/
  | put {j : JobMetadata} {store : Store} (h : b.store.putJob j = some store) :
      Effect env b { b with store }
  /-- The record of a job is overwritten by a stopped one. -/
  | write {id : ℤ} {j j' : JobMetadata} (h : b.store.getJob id = some j) (hid : j'.id = id)
      (hstart : j'.startTime = j.startTime) (htags : j'.tags = j.tags)
      (hrun : j'.isRunning = false) :
      Effect env b { b with store := b.store.updateJob j' }
  /-- A job is tagged, or a tag is taken away, and the cache is told. -/
  | tag {id : ℤ} {store : Store} (hjobs : store.jobMetadata = b.store.jobMetadata)
      (hlinks : b.store.LinksValid → store.LinksValid)
      (hothers : b.store.LinksValid → ∀ id' ≠ id, store.getJob id' = b.store.getJob id') :
      Effect env b { b with store, jobCache := (b.jobCache.updateJob store.getJob id).2 }
  /-- The configuration is changed. -/
  | configure (newUUID : ℕ → String) (conf : Configuration) :
      Effect env b { b with
        config := b.config.update newUUID conf
        db := InfluxDB.init (b.config.update newUUID conf) }
  /-- The data of a job that is not running is read through the cache. -/
  | fill {id : ℤ} {j : JobMetadata} (h : b.store.getJob id = some j) (hrun : j.isRunning = false) :
      Effect env b { b with
        jobCache := (b.jobCache.get (InfluxDB.toDB env b.db) j (b.bestInterval env.now j)).2 }

section Effects

variable {env : Environment} {b : Backend}

theorem effect_refl : Effect env b b := Effect.quiet rfl rfl rfl

theorem effect_jobStart (body : Body JobMetadata) : Effect env b (jobStart b body).2 := by
  cases body with
  | unreadable => exact effect_refl
  | malformed text => exact effect_refl
  | decoded j =>
    simp only [jobStart]
    cases hput : b.store.putJob j with
    | none => exact effect_refl
    | some store => exact Effect.put hput

theorem effect_getJob (user : UserInfo) (req : GetJobRequest) :
    Effect env b (getJob env b user req).2 := by
  unfold getJob getJobCall
  cases hid : Go.atoi req.id with
  | error e => exact effect_refl
  | ok id =>
    simp only
    cases hj : b.store.getJob id with
    | none => exact effect_refl
    | some j =>
      simp only
      by_cases haccess : mayAccess user j = false
      · rw [if_pos haccess]
        exact effect_refl
      rw [if_neg haccess]
      by_cases hnode : req.node ≠ "" ∧ nodesBelong j req.node = false
      · rw [if_pos hnode]
        exact effect_refl
      rw [if_neg hnode]
      simp only [JobDataCall.run]
      by_cases hcache : req.node = "" ∧ req.sampleInterval = "" ∧ j.isRunning = false ∧
          req.raw = false
      · have hall := hcache
        obtain ⟨-, hinterval, hrun, -⟩ := hall
        have hrecord : lastHour env.now j = j := by rw [lastHour, hrun]; rfl
        rw [if_pos (decide_eq_true hcache), hrecord, hinterval]
        exact Effect.fill hj hrun
      · rw [if_neg (by simpa using hcache)]
        exact effect_refl

theorem effect_retag {id : ℤ} {store : Store} {response : Response}
    (hjobs : store.jobMetadata = b.store.jobMetadata)
    (hlinks : b.store.LinksValid → store.LinksValid)
    (hothers : b.store.LinksValid → ∀ id' ≠ id, store.getJob id' = b.store.getJob id') :
    Effect env b (retag b store id response).2 := by
  have heffect : Effect env b
      { b with store, jobCache := (b.jobCache.updateJob store.getJob id).2 } :=
    Effect.tag hjobs hlinks hothers
  unfold retag
  split
  · rename_i cache heq
    rwa [heq] at heffect
  · rename_i cache _ heq
    rwa [heq] at heffect

theorem effect_addTag (user : UserInfo) (jobStr : String) (body : Body JobTag) :
    Effect env b (addTag b user jobStr body).2 := by
  unfold addTag
  split
  · exact effect_refl
  · exact effect_retag (Store.addTag_jobMetadata b.store _ _)
      (fun hs => Store.linksValid_addTag hs _ _)
      (fun hs id' hne => Store.getJob_addTag_of_ne hs hne _)

theorem effect_removeTag (jobStr : String) (body : Body JobTag) :
    Effect env b (removeTag b jobStr body).2 := by
  unfold removeTag
  split
  · exact effect_refl
  · exact effect_retag rfl (fun hs => Store.linksValid_removeTag hs _ _)
      (fun _ id' hne => Store.getJob_removeTag_of_ne b.store hne _)

theorem effect_refreshMetadata (strId : String) :
    Effect env b (refreshMetadata env b strId).2 := by
  unfold refreshMetadata
  split
  · exact effect_refl
  · split
    · exact effect_refl
    · rename_i j hj
      split
      · exact effect_refl
      · exact effect_refl
      · rename_i data hdata
        have hrun : j.isRunning = false := by
          by_contra h
          rw [InfluxDB.getJobMetadataMetrics, if_pos (by simpa using h)] at hdata
          cases hdata
        have hid := Store.id_of_getJob hj
        exact @Effect.write env b _ j { j with data } hj hid rfl rfl hrun

/-- A request does one of these things. -/
theorem effect_of_serve (out : Surroundings) (user : UserInfo) (req : Request) :
    Effect out.env b (serve out b user req).2.1 := by
  unfold serve
  split
  · cases req with
    | jobStart body => exact effect_jobStart body
    | getJob req => exact effect_getJob user req
    | logout body =>
      cases body with
      | unreadable => exact effect_refl
      | malformed text => exact effect_refl
      | decoded dat =>
        simp only [handle, logout]
        split
        · exact effect_refl
        · exact Effect.quiet rfl rfl rfl
    | generateAPIKey =>
      simp only [handle, generateAPIKey]
      split
      · exact effect_refl
      · exact Effect.quiet rfl rfl rfl
    | addTag job body => exact effect_addTag user job body
    | removeTag job body => exact effect_removeTag job body
    | updateConfig body =>
      cases body with
      | unreadable => exact effect_refl
      | malformed text => exact effect_refl
      | decoded conf => exact Effect.configure out.newUUID conf
    | refreshMetadata id => exact effect_refreshMetadata id
    | setUserConfig u body =>
      simp only [handle, setUserConfig]
      split
      · exact effect_refl
      · cases body with
        | unreadable => exact effect_refl
        | malformed text => exact effect_refl
        | decoded dat => exact Effect.quiet rfl rfl rfl
    | _ => exact effect_refl
  · exact effect_refl

/-- The goroutine of a stop overwrites one record at most. -/
theorem effect_of_runStop {calls : StoreCalls} {task : StopTask} {outcome : StopOutcome}
    {b' : Backend} (h : runStop env calls b task = some (outcome, b')) : Effect env b b' := by
  have hstore : Effect env b
      { b with
        store := (b.store.stopJob (InfluxDB.toDB env b.db) calls task.id task.stop).2 } := by
    rcases Store.stopJob_cases (InfluxDB.toDB env b.db) calls b.store task.id task.stop with
      hsame | ⟨j, data, hj, -, hwrite⟩
    · rw [hsame]
      exact effect_refl
    · rw [hwrite]
      have hid := Store.id_of_getJob hj
      exact @Effect.write env b _ j { j.stopped task.stop with data } hj hid rfl rfl rfl
  unfold runStop at h
  split at h
  · rename_i store heq
    cases h
    rwa [heq] at hstore
  · rename_i store heq
    cases h
    rwa [heq] at hstore
  · cases h

/-- The outcome of a stop: the follow-up work is started when `StopJob` has failed. -/
theorem outcome_of_runStop {calls : StoreCalls} {task : StopTask} {outcome : StopOutcome}
    {b' : Backend} (h : runStop env calls b task = some (outcome, b')) :
    outcome.runAggregation = !outcome.succeeded := by
  unfold runStop at h
  split at h
  · cases h
    rfl
  · cases h
    rfl
  · cases h

/-- A prefetch reads the data of one job through the cache. -/
theorem runPrefetch_cases {id : ℤ} {b' : Backend} (h : runPrefetch env b id = some b') :
    b.store.getJob id = none ∧ b' = b ∨
      ∃ j, b.store.getJob id = some j ∧
        b' = { b with
          jobCache := (b.jobCache.get (InfluxDB.toDB env b.db) j (b.bestInterval env.now j)).2 } ∧
        (b.jobCache.get (InfluxDB.toDB env b.db) j (b.bestInterval env.now j)).1 ≠
          .error .panic := by
  unfold runPrefetch at h
  cases hj : b.store.getJob id with
  | none =>
    rw [hj] at h
    cases h
    exact Or.inl ⟨rfl, rfl⟩
  | some j =>
    right
    refine ⟨j, rfl, ?_⟩
    simp only [hj] at h
    rw [← Backend.bestInterval] at h
    split at h
    · cases h
    · rename_i result cache hpanic heq
      cases h
      rw [heq]
      exact ⟨rfl, hpanic⟩

/-- When the job is not running, that is all it does. -/
theorem effect_of_runPrefetch {id : ℤ} {b' : Backend} (h : runPrefetch env b id = some b')
    (hrun : ∀ j, b.store.getJob id = some j → j.isRunning = false) : Effect env b b' := by
  rcases runPrefetch_cases h with ⟨-, rfl⟩ | ⟨j, hj, rfl, -⟩
  · exact effect_refl
  · exact Effect.fill hj (hrun j hj)

end Effects

end JobMon
