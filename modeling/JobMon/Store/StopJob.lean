import JobMon.Store.Tables
import JobMon.Influx.JobData

/-!
# Stopping a job

`PostgresStore.StopJob` reads the record, computes the metadata metrics of the
stopped record and only then writes it back.

* `stopJob_cases` — what a call does to the record it is about, by cases.
* `stopJob_getJob_of_ne` — it does nothing to the others.
* `stopJob_durable_iff` — the stop is in the store afterwards exactly when the
  metrics could be computed, or the record carried this stop already.
* `getJobMetadataMetrics_isOk_iff` — for InfluxDB the computation goes through
  exactly when the job stops after it started and the configured sample interval
  is a duration; failing queries do not make it fail.
-/

namespace JobMon

/-- The record a stop is about: everything but `Data` is settled here. -/
def JobMetadata.stopped (j : JobMetadata) (stopJob : StopJob) : JobMetadata :=
  { j with isRunning := false, stopTime := stopJob.stopTime, exitCode := stopJob.exitCode }

/-- Which of the store's own statements go through. -/
structure StoreCalls where
  select : Bool := true
  update : Bool := true

namespace Store

/-- `StopJob`, with the store it leaves. -/
def stopJob (db : DB) (calls : StoreCalls) (s : Store) (id : ℤ) (stopJob : StopJob) :
    Result Unit × Store :=
  match if calls.select then s.getJob id else none with
  | none => (.error (.error "sql: no rows in result set"), s)
  | some job =>
    match db.getJobMetadataMetrics (job.stopped stopJob) with
    | .error e => (.error e, s)
    | .ok data =>
      if calls.update then (.ok (), s.updateJob { job.stopped stopJob with data })
      else (.error (.error "sql: update failed"), s)

/-! ## What a call does -/

section Calls

variable {db : DB} {calls : StoreCalls} {s : Store} {id : ℤ} {j : JobMetadata} {stop : StopJob}

/-- When the metrics cannot be computed, nothing is written. -/
theorem stopJob_of_error (h : s.getJob id = some j) {e : Fault}
    (hdb : db.getJobMetadataMetrics (j.stopped stop) = .error e) :
    stopJob db {} s id stop = (.error e, s) := by
  unfold stopJob
  simp only [if_true, h, hdb]

theorem stopJob_of_ok (h : s.getJob id = some j) {data : List JobMetadataData}
    (hdb : db.getJobMetadataMetrics (j.stopped stop) = .ok data) :
    stopJob db {} s id stop = (.ok (), s.updateJob { j.stopped stop with data }) := by
  unfold stopJob
  simp only [if_true, h, hdb]

/-- Whatever happens, the store is left alone or one record is overwritten. -/
theorem stopJob_cases (db : DB) (calls : StoreCalls) (s : Store) (id : ℤ) (stop : StopJob) :
    (stopJob db calls s id stop).2 = s ∨
      ∃ j data, s.getJob id = some j ∧
        db.getJobMetadataMetrics (j.stopped stop) = .ok data ∧
        stopJob db calls s id stop = (.ok (), s.updateJob { j.stopped stop with data }) := by
  unfold stopJob
  cases hsel : calls.select with
  | false => exact Or.inl rfl
  | true =>
    simp only [if_true]
    cases hj : s.getJob id with
    | none => exact Or.inl rfl
    | some j =>
      simp only
      cases hdb : db.getJobMetadataMetrics (j.stopped stop) with
      | error e => exact Or.inl rfl
      | ok data =>
        simp only
        cases calls.update with
        | false => exact Or.inl rfl
        | true => exact Or.inr ⟨j, data, rfl, hdb, rfl⟩

/-- Stopping a job leaves the others alone. -/
theorem stopJob_getJob_of_ne {id' : ℤ} (hne : id' ≠ id) :
    (stopJob db calls s id stop).2.getJob id' = s.getJob id' := by
  rcases stopJob_cases db calls s id stop with h | ⟨j, data, hj, -, h⟩
  · rw [h]
  · rw [h]
    have hid : j.id = id := id_of_getJob hj
    exact getJob_updateJob_of_ne fun heq => hne (heq.trans hid)

theorem getJob_updateJob_stopped (h : s.getJob id = some j) (data : List JobMetadataData) :
    (s.updateJob { j.stopped stop with data }).getJob id = some { j.stopped stop with data } := by
  have hid : j.id = id := id_of_getJob h
  have hread : s.getJob ({ j.stopped stop with data } : JobMetadata).id = some j := by
    rw [show ({ j.stopped stop with data } : JobMetadata).id = id from hid]
    exact h
  have := getJob_updateJob_self (j := { j.stopped stop with data }) hread rfl
  rwa [show ({ j.stopped stop with data } : JobMetadata).id = id from hid] at this

end Calls

/-! ## Durability -/

/-- `j'` is `j` stopped as reported: the two can only differ from each other in
`Data`, apart from what a stop sets. -/
def StoppedAs (j : JobMetadata) (stop : StopJob) (j' : JobMetadata) : Prop :=
  j'.isRunning = false ∧ j'.stopTime = stop.stopTime ∧ j'.exitCode = stop.exitCode ∧
    j' = { j.stopped stop with data := j'.data }

/-- The record carries this stop already. -/
def AlreadyStopped (j : JobMetadata) (stop : StopJob) : Prop :=
  j.isRunning = false ∧ j.stopTime = stop.stopTime ∧ j.exitCode = stop.exitCode

theorem stopped_of_alreadyStopped {j : JobMetadata} {stop : StopJob} (h : AlreadyStopped j stop) :
    j.stopped stop = j := by
  obtain ⟨hrun, htime, hcode⟩ := h
  rw [JobMetadata.stopped, ← hrun, ← htime, ← hcode]

theorem stoppedAs_self_iff {j : JobMetadata} {stop : StopJob} :
    StoppedAs j stop j ↔ AlreadyStopped j stop := by
  constructor
  · rintro ⟨hrun, htime, hcode, -⟩
    exact ⟨hrun, htime, hcode⟩
  · intro h
    refine ⟨h.1, h.2.1, h.2.2, ?_⟩
    rw [stopped_of_alreadyStopped h]

/-- **When a stop is durable.**  The store's own statements going through, the
record afterwards is the stopped one, differing at most in `Data`, exactly when
the metadata metrics of the stopped record can be computed, or the record carried
this very stop before. -/
theorem stopJob_durable_iff {db : DB} {s : Store} {id : ℤ} {j : JobMetadata} {stop : StopJob}
    (h : s.getJob id = some j) :
    (∃ j', (stopJob db {} s id stop).2.getJob id = some j' ∧ StoppedAs j stop j') ↔
      (db.getJobMetadataMetrics (j.stopped stop)).isOk = true ∨ AlreadyStopped j stop := by
  cases hdb : db.getJobMetadataMetrics (j.stopped stop) with
  | error e =>
    rw [stopJob_of_error h hdb]
    constructor
    · rintro ⟨j', hj', hstop⟩
      have hsame : j' = j := Option.some.inj (hj'.symm.trans h)
      rw [hsame] at hstop
      exact Or.inr (stoppedAs_self_iff.1 hstop)
    · rintro (hok | hstop)
      · cases hok
      · exact ⟨j, h, stoppedAs_self_iff.2 hstop⟩
  | ok data =>
    rw [stopJob_of_ok h hdb]
    constructor
    · intro _
      exact Or.inl rfl
    · intro _
      exact ⟨_, getJob_updateJob_stopped h data, rfl, rfl, rfl, rfl⟩

/-! ## The computation on InfluxDB -/

section Influx

open InfluxDB

variable {env : Environment} {db : InfluxDB} {j : JobMetadata}

/-- A chain of calls fails as its first or its second part does. -/
theorem bind_eq_error_iff {α β : Type} {x : Result α} {f : α → Result β} {e : Fault} :
    (x >>= f) = .error e ↔ x = .error e ∨ ∃ a, x = .ok a ∧ f a = .error e := by
  cases x with
  | error e' => simp [bind, Except.bind]
  | ok a => simp [bind, Except.bind]

theorem getJobData_error {nodes : String} {d : Go.Duration} {raw forceAggregate : Bool} {e : Fault}
    (h : getJobData env db j nodes d raw forceAggregate = .error e) : e = .panic := by
  rcases bind_eq_error_iff.1 h with h | ⟨metricData, -, h⟩
  · exact collect_error h
  · rcases bind_eq_error_iff.1 h with h | ⟨quantileData, -, h⟩
    · exact collect_error h
    · cases h

theorem seriesValues_error {rows : List QueryResult} {e : Fault}
    (h : seriesValues rows = .error e) : e = .panic := by
  induction rows with
  | nil => cases h
  | cons row rows ih =>
    unfold seriesValues at h
    split at h
    · cases h
    · rcases bind_eq_error_iff.1 h with h | ⟨vs, -, h⟩
      · exact ih h
      · cases h
    · cases h
      rfl

theorem pointTime_error {series : List QueryResult} {i : ℕ} {e : Fault}
    (h : pointTime series i = .error e) : e = .panic := by
  unfold pointTime at h
  split at h
  · cases h
    rfl
  · split at h
    · cases h
    · cases h
      rfl

theorem mapM_pointTime_error {series : List QueryResult} {is : List ℕ} {e : Fault}
    (h : is.mapM (pointTime series) = .error e) : e = .panic := by
  induction is with
  | nil => cases h
  | cons i is ih =>
    rw [List.mapM_cons] at h
    rcases bind_eq_error_iff.1 h with h | ⟨t, -, h⟩
    · exact pointTime_error h
    · rcases bind_eq_error_iff.1 h with h | ⟨ts, -, h⟩
      · exact ih h
      · cases h

theorem metricChangePoints_error {measurement : String}
    {tables : List (String × List QueryResult)} {cps : Keyed.Map String (List Time)} {e : Fault}
    (h : metricChangePoints env measurement tables cps = .error e) : e = .panic := by
  induction tables generalizing cps with
  | nil => cases h
  | cons table tables ih =>
    unfold metricChangePoints at h
    rcases bind_eq_error_iff.1 h with h | ⟨vs, -, h⟩
    · exact seriesValues_error h
    · cases vs with
      | none => cases h
      | some vs =>
        rcases bind_eq_error_iff.1 h with h | ⟨ts, -, h⟩
        · exact mapM_pointTime_error h
        · exact ih h

theorem foldlM_metricChangePoints_error {ms : List MetricData}
    {cps : Keyed.Map String (List Time)} {e : Fault}
    (h : ms.foldlM (fun cps m =>
      metricChangePoints env m.config.measurement m.data.rows cps) cps = .error e) :
    e = .panic := by
  induction ms generalizing cps with
  | nil => cases h
  | cons m ms ih =>
    rw [List.foldlM_cons] at h
    rcases bind_eq_error_iff.1 h with h | ⟨cps', -, h⟩
    · exact metricChangePoints_error h
    · exact ih h

/-- Past its checks the computation can only fail by a panic. -/
theorem getJobMetadataMetrics_error (hrun : j.isRunning = false)
    (hlt : j.startTime < j.stopTime) {d : Go.Duration}
    (hdur : Go.parseDuration db.defaultSampleInterval = some d) {e : Fault}
    (h : getJobMetadataMetrics env db j = .error e) : e = .panic := by
  unfold getJobMetadataMetrics at h
  rw [if_neg (by simp [hrun]), if_neg (by omega)] at h
  rcases bind_eq_error_iff.1 h with h | ⟨data, -, h⟩
  · exact collect_error h
  simp only [hdur] at h
  rcases bind_eq_error_iff.1 h with h | ⟨aggData, -, h⟩
  · exact getJobData_error h
  rcases bind_eq_error_iff.1 h with h | ⟨cps, -, h⟩
  · exact foldlM_metricChangePoints_error h
  · cases h

/-- **When the metadata metrics of a stopped job can be computed.**  As long as
nothing panics, failing queries do not matter: what counts is that the job stops
after it started and that the configured sample interval is a duration. -/
theorem getJobMetadataMetrics_isOk_iff (hrun : j.isRunning = false)
    (hpanic : (getJobMetadataMetrics env db j).panics = false) :
    (getJobMetadataMetrics env db j).isOk = true ↔
      j.startTime < j.stopTime ∧ (Go.parseDuration db.defaultSampleInterval).isSome = true := by
  constructor
  · intro hok
    unfold getJobMetadataMetrics at hok
    rw [if_neg (by simp [hrun])] at hok
    by_cases htime : j.stopTime ≤ j.startTime
    · rw [if_pos htime] at hok
      cases hok
    rw [if_neg htime] at hok
    refine ⟨by omega, ?_⟩
    cases hdur : Go.parseDuration db.defaultSampleInterval with
    | some d => rfl
    | none =>
      cases hmeta : getMetadataData env db j with
      | error e =>
        rw [hmeta] at hok
        cases hok
      | ok data =>
        simp only [hmeta, hdur] at hok
        cases hok
  · rintro ⟨hlt, hdur⟩
    obtain ⟨d, hd⟩ := Option.isSome_iff_exists.1 hdur
    cases hres : getJobMetadataMetrics env db j with
    | ok data => rfl
    | error e =>
      rw [hres, getJobMetadataMetrics_error hrun hlt hd hres] at hpanic
      cases hpanic

/-- **A stop on InfluxDB** is durable exactly when it lies after the start of the
job and the configured sample interval is a duration, or when the record carried
it already. -/
theorem stopJob_influx_durable_iff {s : Store} {id : ℤ} {stop : StopJob}
    (h : s.getJob id = some j)
    (hpanic : (getJobMetadataMetrics env db (j.stopped stop)).panics = false) :
    (∃ j', (stopJob (toDB env db) {} s id stop).2.getJob id = some j' ∧ StoppedAs j stop j') ↔
      (j.startTime < stop.stopTime ∧
        (Go.parseDuration db.defaultSampleInterval).isSome = true) ∨ AlreadyStopped j stop := by
  rw [stopJob_durable_iff h]
  exact or_congr (getJobMetadataMetrics_isOk_iff rfl hpanic) Iff.rfl

end Influx

/-! ## A stop that is lost -/

/-- A running job. -/
def lostJob : JobMetadata := { id := 1, isRunning := true, startTime := 100, nodeList := "n1" }

/-- A store with this job only. -/
def lostStore : Store := { jobMetadata := ⟨[lostJob], by decide⟩ }

/-- An environment without any data. -/
def silentEnvironment : Environment :=
  { api := { query := fun _ => .ok {}, queryRaw := fun _ => .ok "" }, now := 200 }

/-- The job stopped in the second it started in: the stop is refused, and the
job stays as it was. -/
theorem lostJob_not_stopped :
    lostStore.getJob 1 = some lostJob ∧
      (stopJob (InfluxDB.toDB silentEnvironment { defaultSampleInterval := "30s" }) {} lostStore 1
        { stopTime := 100, exitCode := 0 }).2.getJob 1 = some lostJob ∧
      ¬ ∃ j', (stopJob (InfluxDB.toDB silentEnvironment { defaultSampleInterval := "30s" }) {}
        lostStore 1 { stopTime := 100, exitCode := 0 }).2.getJob 1 = some j' ∧
        StoppedAs lostJob { stopTime := 100, exitCode := 0 } j' := by
  have hkept : (stopJob (InfluxDB.toDB silentEnvironment { defaultSampleInterval := "30s" }) {}
      lostStore 1 { stopTime := 100, exitCode := 0 }).2.getJob 1 = some lostJob := by decide
  refine ⟨by decide, hkept, ?_⟩
  rintro ⟨j', hj', hrun, -⟩
  rw [hkept] at hj'
  cases hj'
  cases hrun

/-- The same job stopped a second later. -/
theorem stopJob_durable_iff_lostJob :
    (∃ j', (stopJob (InfluxDB.toDB silentEnvironment { defaultSampleInterval := "30s" }) {}
        lostStore 1 { stopTime := 101 }).2.getJob 1 = some j' ∧
      StoppedAs lostJob { stopTime := 101 } j') ↔
    ((InfluxDB.toDB silentEnvironment { defaultSampleInterval := "30s" }).getJobMetadataMetrics
        (lostJob.stopped { stopTime := 101 })).isOk = true ∨
      AlreadyStopped lostJob { stopTime := 101 } :=
  stopJob_durable_iff (by decide)

end Store

end JobMon
