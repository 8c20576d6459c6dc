import JobMon.Lib.Runs
import JobMon.Store.StopJob

/-!
# The life cycle of a job

Four writers work on the record of a job: `JobStart` inserts it after it has
answered, `JobStop` stops it in the background after it has answered, the sweep
`finishOvertimeJobs` stops running jobs it has selected, and `RefreshMetadata`
recomputes `Data`.  All but the first read the record, query InfluxDB and then
overwrite the whole row.  The store's statements are the atomic steps; between
them the writers interleave in any order.

* `step` — requests arriving, a sweep selecting, and one more statement of a
  pending writer.
* `Assumed` — no call fails, and a job stops after it started.
* `finish_stopSelect` — a stop that is not interrupted is a call of `StopJob`.
* `StopSafe` — what must not happen for a stop to survive: the background stop
  reading before the insert, and a writer putting back an older state of the
  record.
-/

namespace JobMon

open Runs

namespace Lifecycle

/-! ## Writers -/

/-- Who calls `StopJob`: the request acknowledged as number `seq`, or a sweep. -/
inductive Caller
  | jobStop (seq : ℕ)
  | sweep
  deriving DecidableEq

/-- A writer, at its next store statement. -/
inductive Writer
  /-- `JobStart`, before its insert. -/
  | put (j : JobMetadata)
  /-- `StopJob`, before its select. -/
  | stopSelect (caller : Caller) (stop : StopJob)
  /-- `StopJob`, before its update; `read` is what it has selected. -/
  | stopUpdate (caller : Caller) (stop : StopJob) (read : JobMetadata)
  /-- `RefreshMetadata`, before its select. -/
  | refreshSelect
  /-- `RefreshMetadata`, before its update. -/
  | refreshUpdate (read : JobMetadata)
  deriving DecidableEq

/-- What has been acknowledged. -/
inductive Ack
  | started (j : JobMetadata)
  | stopped (stop : StopJob)
  deriving DecidableEq

/-- The store, the writers that are under way, and the acknowledgements given so
far, newest first. -/
structure State where
  store : Store := {}
  pending : List Writer := []
  acks : List Ack := []
  deriving DecidableEq

/-- The next statement of a writer: the store it leaves, and the writer again
when it has another statement to come. -/
def Writer.run (db : DB) (id : ℤ) (s : Store) : Writer → Store × List Writer
  | .put j =>
    match s.putJob j with
    | some s' => (s', [])
    | none => (s, [])
  | .stopSelect caller stop =>
    match s.getJob id with
    | some read => (s, [.stopUpdate caller stop read])
    | none => (s, [])
  | .stopUpdate _ stop read =>
    match db.getJobMetadataMetrics (read.stopped stop) with
    | .ok data => (s.updateJob { read.stopped stop with data }, [])
    | .error _ => (s, [])
  | .refreshSelect =>
    match s.getJob id with
    | some read => (s, [.refreshUpdate read])
    | none => (s, [])
  | .refreshUpdate read =>
    match db.getJobMetadataMetrics read with
    | .ok data => (s.updateJob { read with data }, [])
    | .error _ => (s, [])

/-- The select of `finishOvertimeJobs` for one partition. -/
def overtimeJobs (s : Store) (partition : String) (deadline : ℤ) : List JobMetadata :=
  s.jobMetadata.rows.filter fun j =>
    j.isRunning && decide (j.partition = partition) && decide (j.startTime < deadline)

/-- The calls of `StopJob` a sweep makes for job `id` in one partition. -/
def sweepWriters (id : ℤ) (s : Store) (partition : String) (maxTime now : ℤ) : List Writer :=
  ((overtimeJobs s partition (now - maxTime)).filter fun j => j.id = id).map fun j =>
    .stopSelect .sweep { stopTime := j.startTime + maxTime, exitCode := 1 }

/-- What happens next. -/
inductive Event
  | jobStart (j : JobMetadata)
  | jobStop (stop : StopJob)
  | sweep (partition : String) (maxTime now : ℤ)
  | refresh
  /-- The pending writer at position `i` runs its next statement. -/
  | advance (i : ℕ) (db : DB)

/-- One event, for job `id`. -/
def step (id : ℤ) (st : State) : Event → Option State
  | .jobStart j => some { st with pending := st.pending ++ [.put j], acks := .started j :: st.acks }
  | .jobStop stop =>
    some { st with
      pending := st.pending ++ [.stopSelect (.jobStop st.acks.length) stop]
      acks := .stopped stop :: st.acks }
  | .sweep partition maxTime now =>
    some { st with pending := st.pending ++ sweepWriters id st.store partition maxTime now }
  | .refresh => some { st with pending := st.pending ++ [.refreshSelect] }
  | .advance i db =>
    match st.pending[i]? with
    | none => none
    | some w =>
      let (store, again) := w.run db id st.store
      some { st with store, pending := st.pending.eraseIdx i ++ again }

/-! ## What is assumed -/

/-- The metric computation works for a job that has stopped after it started, and
refuses a job that is running. -/
structure AnswersMetrics (db : DB) : Prop where
  stopped : ∀ j, j.isRunning = false → j.startTime < j.stopTime →
    ∃ data, db.getJobMetadataMetrics j = .ok data
  running : ∀ j, j.isRunning = true → ∃ e, db.getJobMetadataMetrics j = .error e

/-- InfluxDB does so, as long as nothing panics and its sample interval is a
duration. -/
theorem answersMetrics_toDB {env : Environment} {db : InfluxDB}
    (hpanic : ∀ j, (InfluxDB.getJobMetadataMetrics env db j).panics = false)
    (hdur : (Go.parseDuration db.defaultSampleInterval).isSome = true) :
    AnswersMetrics (InfluxDB.toDB env db) where
  stopped j hrun htime := by
    have hok := (Store.getJobMetadataMetrics_isOk_iff hrun (hpanic j)).2 ⟨htime, hdur⟩
    cases hres : InfluxDB.getJobMetadataMetrics env db j with
    | ok data => exact ⟨data, hres⟩
    | error e =>
      rw [hres] at hok
      cases hok
  running j hrun := by
    refine ⟨.error "job is still running", ?_⟩
    show InfluxDB.getJobMetadataMetrics env db j = _
    rw [InfluxDB.getJobMetadataMetrics, if_pos hrun]

/-- No call fails: inserts find their key free, and InfluxDB answers.  The
requests are about job `id`, and the job stops after it started. -/
def Assumed (id : ℤ) (st : State) : Event → Prop
  | .jobStart j => j.id = id ∧ ∀ stop, Ack.stopped stop ∈ st.acks → j.startTime < stop.stopTime
  | .jobStop stop => ∀ j, Ack.started j ∈ st.acks → j.startTime < stop.stopTime
  | .sweep _ _ _ => True
  | .refresh => True
  | .advance i db => AnswersMetrics db ∧
      ∀ j, st.pending[i]? = some (.put j) → st.store.getJob j.id = none

/-- The steps of job `id` under these assumptions. -/
def Step (id : ℤ) (st : State) (ev : Event) (st' : State) : Prop :=
  Assumed id st ev ∧ step id st ev = some st'

/-! ## A writer that is not interrupted -/

/-- All statements of a writer, one after the other. -/
def Writer.finish (db : DB) (id : ℤ) (s : Store) (w : Writer) : Store :=
  (w.run db id s).2.foldl (fun s w => (w.run db id s).1) (w.run db id s).1

/-- The two statements of a stop, run without interruption, are `StopJob`. -/
theorem finish_stopSelect (db : DB) (id : ℤ) (s : Store) (caller : Caller) (stop : StopJob) :
    (Writer.stopSelect caller stop).finish db id s = (s.stopJob db {} id stop).2 := by
  cases hread : s.getJob id with
  | none => simp only [Writer.finish, Writer.run, Store.stopJob, if_true, hread, List.foldl_nil]
  | some read =>
    simp only [Writer.finish, Writer.run, Store.stopJob, if_true, hread, List.foldl_cons,
      List.foldl_nil]
    cases db.getJobMetadataMetrics (read.stopped stop) <;> rfl

/-! ## When a stop is safe -/

/-- The stop that was acknowledged. -/
def Ack.stop? : Ack → Option StopJob
  | .started _ => none
  | .stopped stop => some stop

/-- Has a start been acknowledged? -/
def hasStart (acks : List Ack) : Bool := acks.any fun a => a.stop?.isNone

/-- The latest acknowledged stop of a job whose start was acknowledged before,
with its number. -/
def lastStop : List Ack → Option (ℕ × StopJob)
  | [] => none
  | .started _ :: acks => lastStop acks
  | .stopped stop :: acks => if hasStart acks then some (acks.length, stop) else none

/-- The acknowledged stop a writer belongs to. -/
def Writer.owner : Writer → Option (ℕ × StopJob)
  | .stopSelect (.jobStop seq) stop => some (seq, stop)
  | .stopUpdate (.jobStop seq) stop _ => some (seq, stop)
  | _ => none

/-- No writer of the acknowledged stop is under way any more. -/
def Settled (st : State) (p : ℕ × StopJob) : Prop := ∀ w ∈ st.pending, w.owner ≠ some p

/-- The record carries the stop. -/
def Carries (j : JobMetadata) (stop : StopJob) : Prop :=
  j.isRunning = false ∧ j.stopTime = stop.stopTime ∧ j.exitCode = stop.exitCode

/-- The next statement of `w` does not endanger the acknowledged stop `p`: the
stop itself reads the record once it is there, and after it has settled no other
stop writes other values and no refresh puts back a record that carries another
stop.  (A refresh that has read a running record writes nothing.) -/
def WriterSafe (id : ℤ) (st : State) (p : ℕ × StopJob) : Writer → Prop
  | .put _ => True
  | .stopSelect caller stop =>
    (Writer.stopSelect caller stop).owner = some p → st.store.getJob id ≠ none
  | .stopUpdate _ stop _ =>
    Settled st p → stop.stopTime = p.2.stopTime ∧ stop.exitCode = p.2.exitCode
  | .refreshSelect => True
  | .refreshUpdate read => Settled st p → read.isRunning = true ∨ Carries read p.2

/-- **The condition under which a stop is not lost.** -/
def StopSafe (id : ℤ) (st : State) : Event → Prop
  | .advance i _ => ∀ w p, st.pending[i]? = some w → lastStop st.acks = some p →
      WriterSafe id st p w
  | _ => True

end Lifecycle

end JobMon
