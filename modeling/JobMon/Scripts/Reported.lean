import JobMon.Scripts.JobmonSlurm
import JobMon.Store.Identity

/-!
# The record of a reported job

From the script to the table: what the handlers of the backend make of the requests of
`scripts/jobmon_slurm`, and what the writers of a record leave of it, in any order of their
statements.

* `eventOf` — what a request is to the record of a job.
* `Reports` — the requests about a job are those of its script.
* `record_of_reported_job` — **the record of a job is what Slurm said about it**: it is there
  as soon as an insert has run, only when the start could be reported, and its end is the
  reported one or that of a sweep.
-/

namespace JobMon

open JsonText Runs

namespace JobmonSlurm

/-- What a request is to job `id`: an insert, or a task of `JobStop`. -/
def eventOf (id : ℤ) : Request → Option Lifecycle.Event
  | .jobStart (.decoded j) => some (.jobStart j)
  | .jobStop strId body =>
    match (jobStop strId body).2 with
    | some task => if task.id = id then some (.jobStop task.stop) else none
    | none => none
  | _ => none

section Reports

variable (tags : JsonText.Value → Option (List JobTag))
  (data : JsonText.Value → Option (List JobMetadataData))

/-- The starts and the stops of job `id` that arrive are those its script has sent, before the
job and after it. -/
structure Reports (e f : Variables) (id : ℤ) (evs : List Lifecycle.Event) : Prop where
  start : ∀ j, Lifecycle.Event.jobStart j ∈ evs → j.id = id →
    (e.request tags data "prolog_slurmctld").bind (eventOf id) = some (.jobStart j)
  stop : ∀ stop, Lifecycle.Event.jobStop stop ∈ evs →
    (f.request tags data "epilog_slurmctld").bind (eventOf id) = some (.jobStop stop)

variable {tags data} {e f : Variables} {gpus gpus' : ℤ} {id : ℤ}

/-- The start of a job, to the table. -/
theorem eventOf_prolog (he : e.Proper) (hgpus : e.gpusPerNode = some gpus) :
    (e.request tags data "prolog_slurmctld").bind (eventOf id) =
      if e.Reportable then some (.jobStart (e.job gpus)) else none := by
  rw [request_prolog tags data he hgpus, Option.bind_some]
  split_ifs <;> rfl

/-- Its end. -/
theorem eventOf_epilog (hf : f.Proper) (hgpus : f.gpusPerNode = some gpus')
    (hid : Go.atoi f.slurmJobId = .ok id) :
    (f.request tags data "epilog_slurmctld").bind (eventOf id) =
      if f.EndReportable then some (.jobStop f.stop) else none := by
  rw [request_epilog tags data hf hgpus, Option.bind_some]
  split_ifs
  · simp only [eventOf, jobStop, hid, if_true]
  · rfl

/-- The stops that are asked for, of a job that was reported. -/
theorem carries_of_asked {evs : List Lifecycle.Event} (h : Reports tags data e f id evs)
    (hf : f.Proper) (hgpus : f.gpusPerNode = some gpus') (hid : Go.atoi f.slurmJobId = .ok id)
    {j : JobMetadata} {stop : StopJob} (hasked : Lifecycle.Asked evs (e.job gpus) stop)
    (hcarries : Lifecycle.Carries j stop) :
    f.EndReportable ∧ Lifecycle.Carries j f.stop ∨
      ∃ maxTime now, Lifecycle.Event.sweep e.slurmJobPartition maxTime now ∈ evs ∧
        (e.job gpus).startTime < now - maxTime ∧
        Lifecycle.Carries j { stopTime := (e.job gpus).startTime + maxTime, exitCode := 1 } := by
  cases hasked with
  | jobStop hmem =>
    have hevent := h.stop stop hmem
    rw [eventOf_epilog hf hgpus hid] at hevent
    split_ifs at hevent with hend
    cases hevent
    exact Or.inl ⟨hend, hcarries⟩
  | sweep hmem hpartition htime =>
    cases hpartition
    exact Or.inr ⟨_, _, hmem, htime, hcarries⟩

/-- **The record of a job is what Slurm said about it**, whatever else goes on: all that it says
of the job is what the script was told before the job, and its end is what the script was told
after it, or that of a sweep that found the job overdue.  It is there as soon as an insert of
the job has run, so in particular when a start has arrived and no insert is waiting. -/
theorem record_of_reported_job (he : e.Proper) (hf : f.Proper) (hgpus : e.gpusPerNode = some gpus)
    (hgpus' : f.gpusPerNode = some gpus') (hid : Go.atoi e.slurmJobId = .ok id)
    (hsame : f.slurmJobId = e.slurmJobId) {store : Store} (hfree : store.getJob id = none)
    {evs : List Lifecycle.Event} {st : Lifecycle.State}
    (h : Run (StepOf (Lifecycle.step id)) { store } evs st)
    (hreports : Reports tags data e f id evs) :
    (∀ j, st.store.getJob id = some j →
      e.Reportable ∧ j.identity = (e.job gpus).identity ∧
      (j.isRunning = true ∧ j.stopTime = 0 ∧ j.exitCode = 0 ∨
        f.EndReportable ∧ Lifecycle.Carries j f.stop ∨
        ∃ maxTime now, Lifecycle.Event.sweep e.slurmJobPartition maxTime now ∈ evs ∧
          (e.job gpus).startTime < now - maxTime ∧
          Lifecycle.Carries j
            { stopTime := (e.job gpus).startTime + maxTime, exitCode := 1 })) ∧
    (∀ before i db after st₀ j, evs = before ++ .advance i db :: after →
      Run (StepOf (Lifecycle.step id)) { store } before st₀ →
      st₀.pending[i]? = some (.put j) → j.id = id → ∃ j, st.store.getJob id = some j) ∧
    ((∃ j, Lifecycle.Event.jobStart j ∈ evs ∧ j.id = id) →
      (∀ j, Lifecycle.Writer.put j ∉ st.pending) → ∃ j, st.store.getJob id = some j) := by
  refine ⟨?_, ?_, ?_⟩
  · intro j hj
    rcases Lifecycle.origin_of_run h with hawaits | ⟨j₀, horigin, hfollows⟩
    · rw [hawaits.absent] at hj
      cases hj
    obtain ⟨j', hj', hrecorded⟩ := hfollows.record
    cases hj.symm.trans hj'
    rcases horigin with hstore | ⟨-, hid₀, hstart⟩
    · rw [hfree] at hstore
      cases hstore
    -- the record goes back to the start the script has reported
    have hevent := hreports.start j₀ hstart hid₀
    rw [eventOf_prolog he hgpus] at hevent
    split_ifs at hevent with hreportable
    cases hevent
    refine ⟨hreportable, hrecorded.identity, hrecorded.ending.imp ?_ ?_⟩
    · rintro ⟨hrun, htime, hcode⟩
      exact ⟨hrun, htime, hcode⟩
    · rintro ⟨stop, hasked, hc⟩
      exact carries_of_asked hreports hf hgpus' (hsame ▸ hid) hasked hc
  · rintro before i db after st₀ j rfl hbefore hput hid
    obtain ⟨st₁, hfirst, hrest⟩ := run_append_iff.1 h
    cases run_unique hfirst hbefore
    rw [← List.singleton_append] at hrest
    obtain ⟨st₂, hinsert, hafter⟩ := run_append_iff.1 hrest
    rw [← List.nil_append [_]] at hinsert
    obtain ⟨st₁', hnone, hstep⟩ := run_snoc_iff.1 hinsert
    cases run_nil_iff.1 hnone
    exact Lifecycle.hasRecord_of_insert hbefore hput hid hstep hafter
  · rintro ⟨j, hj, hid⟩ hput
    obtain ⟨-, -, j', hj', -⟩ := Lifecycle.hasRecord_of_start h hj hid (hput j)
    exact ⟨j', hj'⟩

/-- The variables after the job. -/
def quotedEnd : Variables := { quotedJob with slurmJobExitCode := "1", date := "1700000100" }

/-- It starts, and is stopped after that. -/
def quotedRun : List Lifecycle.Event :=
  [.jobStart (quotedJob.job 4), .advance 0 Lifecycle.quietDB, .jobStop quotedEnd.stop,
    .advance 0 Lifecycle.quietDB, .advance 0 Lifecycle.quietDB]

/-- Its record in the end. -/
def quotedRecord : JobMetadata := (quotedJob.job 4).stopped quotedEnd.stop

/-- The job with quotes in its name, started and stopped. -/
theorem record_of_reported_job_quotedJob :
    ∃ st, Run (StepOf (Lifecycle.step 7)) {} quotedRun st ∧
      st.store.getJob 7 = some quotedRecord ∧ quotedJob.Reportable ∧
      quotedRecord.identity = (quotedJob.job 4).identity ∧
      quotedEnd.EndReportable ∧ Lifecycle.Carries quotedRecord quotedEnd.stop := by
  have hproper : quotedJob.Proper := ⟨by decide, by decide, by decide⟩
  have hproper' : quotedEnd.Proper := ⟨by decide, by decide, by decide⟩
  have hgpus : quotedJob.gpusPerNode = some 4 := by decide
  have hid : Go.atoi quotedEnd.slurmJobId = .ok 7 := by decide
  have hrun : Run (StepOf (Lifecycle.step 7)) {} quotedRun
      { store := Lifecycle.storeWith quotedRecord
        acks := [.stopped quotedEnd.stop, .started (quotedJob.job 4)] } :=
    run_exec_iff.2 (by decide)
  have hreports : Reports (fun _ => none) (fun _ => none) quotedJob quotedEnd 7 quotedRun := by
    refine ⟨fun j hj hid => ?_, fun stop hstop => ?_⟩
    · have hreportable : quotedJob.Reportable := by decide
      rw [eventOf_prolog hproper hgpus, if_pos hreportable]
      simp only [quotedRun, List.mem_cons, Lifecycle.Event.jobStart.injEq, List.not_mem_nil,
        or_false, reduceCtorEq] at hj
      rw [hj]
    · have hreportable : quotedEnd.EndReportable := by decide
      rw [eventOf_epilog hproper' hgpus hid, if_pos hreportable]
      simp only [quotedRun, List.mem_cons, Lifecycle.Event.jobStop.injEq, List.not_mem_nil,
        or_false, false_or, reduceCtorEq] at hstop
      rw [hstop]
  obtain ⟨hrecord, -, -⟩ := record_of_reported_job hproper hproper' hgpus hgpus
    hid rfl (by decide) hrun hreports
  obtain ⟨hreportable, hidentity, hending⟩ := hrecord quotedRecord (by decide)
  refine ⟨_, hrun, by decide, hreportable, hidentity, ?_⟩
  rcases hending with ⟨hrunning, -, -⟩ | hended | ⟨maxTime, now, hsweep, -, -⟩
  · cases hrunning
  · exact hended
  · simp [quotedRun] at hsweep

end Reports

end JobmonSlurm

end JobMon
