import JobMon.Store.LostStop

/-!
# What becomes of a record

The four writers of a record interleave in any order, calls fail, requests repeat each other
or come in the wrong order.  What a job is called, who it belongs to and when it started is
nevertheless what the first insert said, and how it ended is what somebody asked for.

* `JobMetadata.identity` — a record without what a stop, a refresh or a tag changes.
* `Asked`, `Recorded` — the stops that were asked for, and the records a job may have.
* `Awaits`, `Follows` — the invariants before and after the insert.
* `record_over_run` — **the record over a run**: it goes back to one start, never to another,
  and a job that has ended does not run again where InfluxDB is asked for its metrics.
-/

namespace JobMon

open Runs

/-- What a job is; everything else changes in the course of time. -/
def JobMetadata.identity (j : JobMetadata) : JobMetadata :=
  { j with stopTime := 0, isRunning := false, exitCode := 0, tags := [], data := [] }

namespace Lifecycle

/-! ## Records -/

/-- The stops that are asked for: by a request, or by a sweep that finds the job overdue. -/
inductive Asked (evs : List Event) (j₀ : JobMetadata) : StopJob → Prop
  | jobStop {stop : StopJob} (h : Event.jobStop stop ∈ evs) : Asked evs j₀ stop
  | sweep {partition : String} {maxTime now : ℤ} (h : Event.sweep partition maxTime now ∈ evs)
      (hpartition : j₀.partition = partition) (htime : j₀.startTime < now - maxTime) :
      Asked evs j₀ { stopTime := j₀.startTime + maxTime, exitCode := 1 }

/-- The end of the job is still that of its start. -/
def Untouched (j₀ j : JobMetadata) : Prop :=
  j.isRunning = j₀.isRunning ∧ j.stopTime = j₀.stopTime ∧ j.exitCode = j₀.exitCode

/-- A record of the job that started as `j₀`. -/
structure Recorded (evs : List Event) (j₀ j : JobMetadata) : Prop where
  identity : j.identity = j₀.identity
  ending : Untouched j₀ j ∨ ∃ stop, Asked evs j₀ stop ∧ Carries j stop

/-- The metrics of a job that is running are refused. -/
def RefusesRunning (db : DB) : Prop :=
  ∀ j, j.isRunning = true → ∃ e, db.getJobMetadataMetrics j = .error e

theorem refusesRunning_toDB (env : Environment) (db : InfluxDB) :
    RefusesRunning (InfluxDB.toDB env db) := by
  intro j hrun
  refine ⟨.error "job is still running", ?_⟩
  show InfluxDB.getJobMetadataMetrics env db j = _
  rw [InfluxDB.getJobMetadataMetrics, if_pos hrun]

/-- Where the record comes from: it was there, or a start was accepted. -/
def Origin (id : ℤ) (store : Store) (evs : List Event) (j₀ : JobMetadata) : Prop :=
  store.getJob id = some j₀ ∨ store.getJob id = none ∧ j₀.id = id ∧ Event.jobStart j₀ ∈ evs

/-- The stop a writer is about. -/
def Writer.stop? : Writer → Option StopJob
  | .stopSelect _ stop => some stop
  | .stopUpdate _ stop _ => some stop
  | _ => none

theorem step_advance {id : ℤ} {st st' : State} {i : ℕ} {db : DB}
    (h : step id st (.advance i db) = some st') :
    ∃ w, st.pending[i]? = some w ∧
      st' = { st with
        store := (w.run db id st.store).1
        pending := st.pending.eraseIdx i ++ (w.run db id st.store).2 } := by
  simp only [step] at h
  cases hw : st.pending[i]? with
  | none =>
    rw [hw] at h
    cases h
  | some w =>
    rw [hw] at h
    cases h
    exact ⟨w, rfl, rfl⟩

section Records

variable {evs evs' : List Event} {j₀ j : JobMetadata} {stop : StopJob}

theorem Asked.mono (h : Asked evs j₀ stop) (hsub : evs ⊆ evs') : Asked evs' j₀ stop := by
  cases h with
  | jobStop h => exact .jobStop (hsub h)
  | sweep h hpartition htime => exact .sweep (hsub h) hpartition htime

theorem Recorded.mono (h : Recorded evs j₀ j) (hsub : evs ⊆ evs') : Recorded evs' j₀ j where
  identity := h.identity
  ending := h.ending.imp_right fun ⟨stop, hasked, hcarries⟩ => ⟨stop, hasked.mono hsub, hcarries⟩

theorem recorded_self (evs : List Event) (j₀ : JobMetadata) : Recorded evs j₀ j₀ where
  identity := rfl
  ending := Or.inl ⟨rfl, rfl, rfl⟩

/-- Tags do not matter. -/
theorem Recorded.withTags (h : Recorded evs j₀ j) (s : Store) : Recorded evs j₀ (s.withTags j) where
  identity := h.identity
  ending := h.ending

theorem Recorded.withData (h : Recorded evs j₀ j) (data : List JobMetadataData) :
    Recorded evs j₀ { j with data } where
  identity := h.identity
  ending := h.ending

/-- A stop that was asked for, written over a record that was read. -/
theorem Recorded.stopped (h : Recorded evs j₀ j) (hstop : Asked evs j₀ stop)
    (data : List JobMetadataData) : Recorded evs j₀ { j.stopped stop with data } where
  identity := h.identity
  ending := Or.inr ⟨stop, hstop, rfl, rfl, rfl⟩

theorem Recorded.partition_eq (h : Recorded evs j₀ j) : j.partition = j₀.partition := by
  have hidentity := congrArg JobMetadata.partition h.identity
  exact hidentity

theorem Recorded.startTime_eq (h : Recorded evs j₀ j) : j.startTime = j₀.startTime := by
  have hidentity := congrArg JobMetadata.startTime h.identity
  exact hidentity

end Records

/-! ## Writers -/

section Writers

variable {id : ℤ} {evs evs' : List Event} {j₀ j : JobMetadata} {s : Store} {w : Writer} {db : DB}

/-- What a writer of a job that is there has read, and what it is about. -/
structure Writer.Knows (evs : List Event) (j₀ : JobMetadata) (w : Writer) : Prop where
  read : ∀ r, w.read? = some r → Recorded evs j₀ r
  stop : ∀ stop, w.stop? = some stop → Asked evs j₀ stop

theorem Writer.Knows.mono (h : w.Knows evs j₀) (hsub : evs ⊆ evs') : w.Knows evs' j₀ where
  read r hr := (h.read r hr).mono hsub
  stop stop hstop := (h.stop stop hstop).mono hsub

/-- A writer that has read nothing and stops nothing. -/
theorem knows_of_idle (hread : w.read? = none) (hstop : w.stop? = none) : w.Knows evs j₀ where
  read r hr := by
    rw [hread] at hr
    cases hr
  stop stop h := by
    rw [hstop] at h
    cases h

theorem knows_stopSelect {caller : Caller} {stop : StopJob} (h : Asked evs j₀ stop) :
    (Writer.stopSelect caller stop).Knows evs j₀ where
  read r hr := by cases hr
  stop stop' hstop := by
    cases hstop
    exact h

/-- The record of the job is there. -/
def HasRecord (id : ℤ) (evs : List Event) (j₀ : JobMetadata) (s : Store) : Prop :=
  ∃ j, s.getJob id = some j ∧ Recorded evs j₀ j

theorem hasRecord_updateJob (h : HasRecord id evs j₀ s) (hj : Recorded evs j₀ j) :
    HasRecord id evs j₀ (s.updateJob j) := by
  obtain ⟨old, hold, hrecorded⟩ := h
  by_cases hid : id = j.id
  · exact ⟨s.withTags j, by rw [Store.getJob_updateJob, if_pos hid, hold, Option.map_some],
      hj.withTags s⟩
  · exact ⟨old, by rw [Store.getJob_updateJob_of_ne hid, hold], hrecorded⟩

/-- An insert of a job that is there fails, and other jobs are not this one. -/
theorem hasRecord_putJob {s' : Store} (h : HasRecord id evs j₀ s) (hput : s.putJob j = some s') :
    HasRecord id evs j₀ s' := by
  obtain ⟨old, hold, hrecorded⟩ := h
  refine ⟨old, ?_, hrecorded⟩
  rw [Store.getJob_putJob hput, if_neg, hold]
  rintro rfl
  have htaken : s.putJob j = none := Store.putJob_eq_none_iff.2 (by rw [hold]; simp)
  rw [htaken] at hput
  cases hput

/-- **One statement of a writer**, once the job is there. -/
theorem hasRecord_run (h : HasRecord id evs j₀ s) (hw : w.Knows evs j₀) :
    HasRecord id evs j₀ (w.run db id s).1 ∧ ∀ w' ∈ (w.run db id s).2, w'.Knows evs j₀ := by
  have hended : ∀ w' ∈ ([] : List Writer), w'.Knows evs j₀ := fun w' hw' => by cases hw'
  have hold := h
  obtain ⟨read, hread, hrecorded⟩ := h
  cases w with
  | put j =>
    cases hput : s.putJob j with
    | none => simpa only [Writer.run, hput] using ⟨hold, hended⟩
    | some s' => simpa only [Writer.run, hput] using ⟨hasRecord_putJob hold hput, hended⟩
  | stopSelect caller stop =>
    simp only [Writer.run, hread, List.forall_mem_singleton]
    refine ⟨hold, fun r hr => ?_, hw.stop⟩
    cases hr
    exact hrecorded
  | refreshSelect =>
    simp only [Writer.run, hread, List.forall_mem_singleton]
    refine ⟨hold, fun r hr => ?_, fun stop hstop => by cases hstop⟩
    cases hr
    exact hrecorded
  | stopUpdate caller stop r =>
    have hwrite : ∀ data, Recorded evs j₀ { r.stopped stop with data } :=
      (hw.read r rfl).stopped (hw.stop stop rfl)
    cases hdb : db.getJobMetadataMetrics (r.stopped stop) with
    | error e => simpa only [Writer.run, hdb] using ⟨hold, hended⟩
    | ok data =>
      simpa only [Writer.run, hdb] using ⟨hasRecord_updateJob hold (hwrite data), hended⟩
  | refreshUpdate r =>
    cases hdb : db.getJobMetadataMetrics r with
    | error e => simpa only [Writer.run, hdb] using ⟨hold, hended⟩
    | ok data =>
      have hwrite := hasRecord_updateJob hold ((hw.read r rfl).withData data)
      simpa only [Writer.run, hdb] using ⟨hwrite, hended⟩

/-- The job is there and does not run. -/
def Ended (id : ℤ) (s : Store) : Prop := ∃ j, s.getJob id = some j ∧ j.isRunning = false

theorem ended_updateJob (h : Ended id s) (hj : j.isRunning = false) : Ended id (s.updateJob j) := by
  obtain ⟨old, hold, hrun⟩ := h
  by_cases hid : id = j.id
  · exact ⟨s.withTags j, by rw [Store.getJob_updateJob, if_pos hid, hold, Option.map_some], hj⟩
  · exact ⟨old, by rw [Store.getJob_updateJob_of_ne hid, hold], hrun⟩

/-- **No statement makes a job run again**: a refresh that has read a running job is refused. -/
theorem ended_run (h : Ended id s) (hdb : RefusesRunning db) : Ended id (w.run db id s).1 := by
  have hold := h
  obtain ⟨old, hread, hrun⟩ := h
  cases w with
  | put j =>
    cases hput : s.putJob j with
    | none => simpa only [Writer.run, hput] using hold
    | some s' =>
      simp only [Writer.run, hput]
      refine ⟨old, ?_, hrun⟩
      rw [Store.getJob_putJob hput, if_neg, hread]
      rintro rfl
      have htaken : s.putJob j = none := Store.putJob_eq_none_iff.2 (by rw [hread]; simp)
      rw [htaken] at hput
      cases hput
  | stopSelect caller stop => simpa only [Writer.run, hread] using hold
  | refreshSelect => simpa only [Writer.run, hread] using hold
  | stopUpdate caller stop r =>
    cases hres : db.getJobMetadataMetrics (r.stopped stop) with
    | error e => simpa only [Writer.run, hres] using hold
    | ok data =>
      have hwrite : Ended id (s.updateJob { r.stopped stop with data }) := ended_updateJob hold rfl
      simpa only [Writer.run, hres] using hwrite
  | refreshUpdate r =>
    cases hres : db.getJobMetadataMetrics r with
    | error e => simpa only [Writer.run, hres] using hold
    | ok data =>
      have hstopped : r.isRunning = false := by
        by_contra hrunning
        obtain ⟨e, he⟩ := hdb r (by simpa using hrunning)
        rw [he] at hres
        cases hres
      have hwrite : Ended id (s.updateJob { r with data }) := ended_updateJob hold hstopped
      simpa only [Writer.run, hres] using hwrite

end Writers

/-! ## Invariants -/

section Invariants

variable {id : ℤ} {evs evs' : List Event} {j₀ : JobMetadata} {st st' : State} {ev : Event}

/-- The job was inserted as `j₀`. -/
structure Follows (id : ℤ) (evs : List Event) (j₀ : JobMetadata) (st : State) : Prop where
  record : HasRecord id evs j₀ st.store
  writers : ∀ w ∈ st.pending, w.Knows evs j₀

theorem Follows.mono (h : Follows id evs j₀ st) (hsub : evs ⊆ evs') : Follows id evs' j₀ st where
  record := by
    obtain ⟨j, hj, hrecorded⟩ := h.record
    exact ⟨j, hj, hrecorded.mono hsub⟩
  writers w hw := (h.writers w hw).mono hsub

/-- More writers join. -/
theorem Follows.join (h : Follows id evs j₀ st) {ws : List Writer}
    (hws : ∀ w ∈ ws, w.Knows evs j₀) {acks : List Ack} :
    Follows id evs j₀ { st with pending := st.pending ++ ws, acks } where
  record := h.record
  writers w hw := (List.mem_append.1 hw).elim (h.writers w) (hws w)

/-- A sweep that finds the job overdue. -/
theorem knows_sweepWriters (h : Follows id evs j₀ st) {partition : String} {maxTime now : ℤ}
    (hev : Event.sweep partition maxTime now ∈ evs) :
    ∀ w ∈ sweepWriters id st.store partition maxTime now, w.Knows evs j₀ := by
  intro w hw
  obtain ⟨row, hrow, rfl⟩ := List.mem_map.1 hw
  obtain ⟨hoverdue, hid⟩ := List.mem_filter.1 hrow
  obtain ⟨hmem, hover⟩ := List.mem_filter.1 hoverdue
  have hid : row.id = id := by simpa using hid
  obtain ⟨j, hj, hrecorded⟩ := h.record
  have hsame : st.store.withTags row = j := by
    have hget := Keyed.Table.get?_of_mem hmem
    rw [Store.getJob, ← hid, hget] at hj
    exact Option.some.inj hj
  have hrow : Recorded evs j₀ row := by
    rw [← hsame] at hrecorded
    exact ⟨hrecorded.identity, hrecorded.ending⟩
  refine knows_stopSelect ?_
  rw [hrow.startTime_eq]
  simp only [Bool.and_eq_true, decide_eq_true_eq] at hover
  exact .sweep hev (hrow.partition_eq.symm.trans hover.1.2) (hrow.startTime_eq ▸ hover.2)

/-- **Step.** -/
theorem Follows.step (h : Follows id evs j₀ st) (hstep : step id st ev = some st') :
    Follows id (evs ++ [ev]) j₀ st' := by
  have hlater : Follows id (evs ++ [ev]) j₀ st := h.mono (List.subset_append_left evs [ev])
  have hev : ev ∈ evs ++ [ev] := List.mem_append_right _ (List.mem_singleton_self ev)
  cases ev with
  | jobStart j =>
    cases hstep
    refine hlater.join fun w hw => ?_
    cases List.mem_singleton.1 hw
    exact knows_of_idle rfl rfl
  | jobStop stop =>
    cases hstep
    refine hlater.join fun w hw => ?_
    cases List.mem_singleton.1 hw
    exact knows_stopSelect (.jobStop hev)
  | sweep partition maxTime now =>
    cases hstep
    exact hlater.join (knows_sweepWriters hlater hev)
  | refresh =>
    cases hstep
    refine hlater.join fun w hw => ?_
    cases List.mem_singleton.1 hw
    exact knows_of_idle rfl rfl
  | advance i db =>
    obtain ⟨w, hw, rfl⟩ := step_advance hstep
    obtain ⟨hrecord, hagain⟩ :=
      hasRecord_run hlater.record (hlater.writers w (List.mem_of_getElem? hw))
    refine ⟨hrecord, fun w' hw' => ?_⟩
    rcases List.mem_append.1 hw' with hw' | hw'
    · exact hlater.writers w' (List.mem_of_mem_eraseIdx hw')
    · exact hagain w' hw'

/-- The job has not been inserted. -/
structure Awaits (id : ℤ) (evs : List Event) (st : State) : Prop where
  absent : st.store.getJob id = none
  put : ∀ j, Writer.put j ∈ st.pending → Event.jobStart j ∈ evs
  /-- An accepted start has its insert to come. -/
  waiting : ∀ j, Event.jobStart j ∈ evs → j.id = id → Writer.put j ∈ st.pending
  read : ∀ w ∈ st.pending, w.read? = none
  stop : ∀ w ∈ st.pending, ∀ stop, w.stop? = some stop → Event.jobStop stop ∈ evs

theorem awaits_start (id : ℤ) {store : Store} (h : store.getJob id = none) :
    Awaits id [] { store } where
  absent := h
  put j hj := by cases hj
  waiting j hj := by cases hj
  read w hw := by cases hw
  stop w hw := by cases hw

/-- One more writer joins, for the event that has come. -/
theorem Awaits.join (h : Awaits id evs st) {w : Writer} (hread : w.read? = none)
    (hput : ∀ j, w = .put j ↔ ev = .jobStart j)
    (hstop : ∀ stop, w.stop? = some stop → ev = .jobStop stop) {acks : List Ack} :
    Awaits id (evs ++ [ev]) { st with pending := st.pending ++ [w], acks } where
  absent := h.absent
  put j hj := by
    rcases List.mem_append.1 hj with hj | hj
    · exact List.mem_append_left _ (h.put j hj)
    · have hev := (hput j).1 (List.mem_singleton.1 hj).symm
      exact List.mem_append_right _ (List.mem_singleton.2 hev.symm)
  waiting j hj hid := by
    rcases List.mem_append.1 hj with hj | hj
    · exact List.mem_append_left _ (h.waiting j hj hid)
    · have hw := (hput j).2 (List.mem_singleton.1 hj).symm
      exact List.mem_append_right _ (List.mem_singleton.2 hw.symm)
  read w' hw' := by
    rcases List.mem_append.1 hw' with hw' | hw'
    · exact h.read w' hw'
    · rw [List.mem_singleton.1 hw', hread]
  stop w' hw' stop hs := by
    rcases List.mem_append.1 hw' with hw' | hw'
    · exact List.mem_append_left _ (h.stop w' hw' stop hs)
    · have hev := hstop stop (List.mem_singleton.1 hw' ▸ hs)
      exact List.mem_append_right _ (List.mem_singleton.2 hev.symm)

/-- An event that starts nothing and stops nothing. -/
theorem Awaits.skip (h : Awaits id evs st) (hev : ∀ j, ev ≠ .jobStart j) :
    Awaits id (evs ++ [ev]) st where
  absent := h.absent
  put j hj := List.mem_append_left _ (h.put j hj)
  waiting j hj hid := by
    rcases List.mem_append.1 hj with hj | hj
    · exact h.waiting j hj hid
    · exact absurd (List.mem_singleton.1 hj).symm (hev j)
  read := h.read
  stop w hw stop hstop := List.mem_append_left _ (h.stop w hw stop hstop)

/-- The writers of a job that is not there know nothing of a record. -/
theorem Awaits.knows (h : Awaits id evs st) (j₀ : JobMetadata) :
    ∀ w ∈ st.pending, w.Knows evs j₀ := by
  intro w hw
  refine ⟨fun r hr => ?_, fun stop hstop => .jobStop (h.stop w hw stop hstop)⟩
  rw [h.read w hw] at hr
  cases hr

/-- A writer ends without having inserted the job. -/
theorem Awaits.ended (h : Awaits id evs st) {i : ℕ} {w : Writer} {s : Store}
    (hw : st.pending[i]? = some w) (hother : ∀ j, w = .put j → j.id ≠ id)
    (hs : s.getJob id = none) :
    Awaits id evs { st with store := s, pending := st.pending.eraseIdx i ++ [] } := by
  rw [List.append_nil]
  refine ⟨hs, fun j hj => h.put j (List.mem_of_mem_eraseIdx hj), fun j hj hid => ?_,
    fun w hw => h.read w (List.mem_of_mem_eraseIdx hw),
    fun w hw => h.stop w (List.mem_of_mem_eraseIdx hw)⟩
  refine mem_eraseIdx_of_ne hw (h.waiting j hj hid) ?_
  rintro rfl
  exact hother j rfl hid

/-- **Step**: the job is still awaited, or it has been inserted as some start said. -/
theorem Awaits.step (h : Awaits id evs st) (hstep : step id st ev = some st') :
    Awaits id (evs ++ [ev]) st' ∨
      ∃ j₀, j₀.id = id ∧ Event.jobStart j₀ ∈ evs ∧ Follows id (evs ++ [ev]) j₀ st' := by
  cases ev with
  | jobStart j =>
    cases hstep
    refine Or.inl (h.join rfl (fun j' => ?_) fun stop hstop => by cases hstop)
    simp
  | jobStop stop =>
    cases hstep
    refine Or.inl (h.join rfl (fun j => by simp) fun stop' hstop => ?_)
    cases hstop
    rfl
  | sweep partition maxTime now =>
    -- a sweep does not find the job
    have hnone : sweepWriters id st.store partition maxTime now = [] := by
      rw [sweepWriters, List.map_eq_nil_iff, List.filter_eq_nil_iff]
      intro row hrow
      have hget := Keyed.Table.get?_of_mem (List.mem_filter.1 hrow).1
      have habsent := h.absent
      rw [Store.getJob, Option.map_eq_none_iff] at habsent
      rw [decide_eq_true_eq]
      intro hid
      have hsome : st.store.jobMetadata.get? id = some row := hid ▸ hget
      rw [hsome] at habsent
      cases habsent
    cases hstep
    simp only [hnone, List.append_nil]
    exact Or.inl (h.skip fun j hj => by cases hj)
  | refresh =>
    cases hstep
    exact Or.inl (h.join rfl (fun j => by simp) fun stop hstop => by cases hstop)
  | advance i db =>
    obtain ⟨w, hw, rfl⟩ := step_advance hstep
    have hmem := List.mem_of_getElem? hw
    have hread := h.read w hmem
    have hlater : Awaits id (evs ++ [.advance i db]) st := h.skip fun j hj => by cases hj
    cases w with
    | put j =>
      cases hput : st.store.putJob j with
      | none =>
        simp only [Writer.run, hput]
        refine Or.inl (hlater.ended hw (fun j' hj' hid => ?_) h.absent)
        cases hj'
        exact Store.putJob_eq_none_iff.1 hput (hid ▸ h.absent)
      | some s =>
        have hafter := Store.getJob_putJob hput id
        simp only [Writer.run, hput]
        by_cases hid : id = j.id
        · rw [if_pos hid] at hafter
          refine Or.inr ⟨j, hid.symm, h.put j hmem, ⟨_, hafter, ?_⟩, fun w hw => ?_⟩
          · exact (recorded_self _ j).withTags _
          · rw [List.append_nil] at hw
            exact hlater.knows j w (List.mem_of_mem_eraseIdx hw)
        · rw [if_neg hid, h.absent] at hafter
          refine Or.inl (hlater.ended hw (fun j' hj' hid' => ?_) hafter)
          cases hj'
          exact hid hid'.symm
    | stopSelect caller stop =>
      simp only [Writer.run, h.absent]
      exact Or.inl (hlater.ended hw (fun j hj => by cases hj) h.absent)
    | refreshSelect =>
      simp only [Writer.run, h.absent]
      exact Or.inl (hlater.ended hw (fun j hj => by cases hj) h.absent)
    | stopUpdate caller stop r => cases hread
    | refreshUpdate r => cases hread

/-- A job that has ended does not run again. -/
theorem ended_step (h : Ended id st.store) (hstep : step id st ev = some st')
    (hdb : ∀ i db, ev = .advance i db → RefusesRunning db) : Ended id st'.store := by
  cases ev with
  | advance i db =>
    obtain ⟨w, -, rfl⟩ := step_advance hstep
    exact ended_run h (hdb i db rfl)
  | _ =>
    cases hstep
    exact h

end Invariants

/-! ## Runs -/

section Over

variable {id : ℤ} {store : Store} {evs evs' : List Event} {j₀ : JobMetadata} {st st' : State}

theorem follows_of_run (h : Run (StepOf (step id)) st evs' st') (hst : Follows id evs j₀ st) :
    Follows id (evs ++ evs') j₀ st' := by
  induction h with
  | nil => rwa [List.append_nil]
  | snoc _ hstep ih =>
    rw [← List.append_assoc]
    exact ih.step hstep

/-- **Run**: the job is awaited, or it goes back to one start. -/
theorem origin_of_run (h : Run (StepOf (step id)) { store } evs st) :
    Awaits id evs st ∨ ∃ j₀, Origin id store evs j₀ ∧ Follows id evs j₀ st := by
  cases hstore : store.getJob id with
  | some j₀ =>
    have hstart : Follows id [] j₀ { store } :=
      ⟨⟨j₀, hstore, recorded_self [] j₀⟩, fun w hw => by cases hw⟩
    exact Or.inr ⟨j₀, Or.inl hstore, follows_of_run h hstart⟩
  | none =>
    induction h with
    | nil => exact Or.inl (awaits_start id hstore)
    | snoc _ hstep ih =>
      rcases ih with hawaits | ⟨j₀, horigin, hfollows⟩
      · rcases hawaits.step hstep with hstill | ⟨j₀, hid, hstart, hfollows⟩
        · exact Or.inl hstill
        · exact Or.inr ⟨j₀, Or.inr ⟨hstore, hid, List.mem_append_left _ hstart⟩, hfollows⟩
      · refine Or.inr ⟨j₀, horigin.imp_right ?_, hfollows.step hstep⟩
        rintro ⟨hnone, hid, hstart⟩
        exact ⟨hnone, hid, List.mem_append_left _ hstart⟩

/-- An accepted start whose insert has run has left a record. -/
theorem hasRecord_of_start (h : Run (StepOf (step id)) { store } evs st) {j : JobMetadata}
    (hj : Event.jobStart j ∈ evs) (hid : j.id = id) (hput : Writer.put j ∉ st.pending) :
    ∃ j₀, Origin id store evs j₀ ∧ HasRecord id evs j₀ st.store := by
  rcases origin_of_run h with hawaits | ⟨j₀, horigin, hfollows⟩
  · exact absurd (hawaits.waiting j hj hid) hput
  · exact ⟨j₀, horigin, hfollows.record⟩

/-- The insert of a start leaves a record, if there was none, and no writer deletes it. -/
theorem hasRecord_of_insert {i : ℕ} {db : DB} {st'' : State} {j : JobMetadata}
    (h : Run (StepOf (step id)) { store } evs st) (hput : st.pending[i]? = some (.put j))
    (hid : j.id = id) (hstep : step id st (.advance i db) = some st')
    (h' : Run (StepOf (step id)) st' evs' st'') : ∃ j', st''.store.getJob id = some j' := by
  have hthere : st'.store.getJob id ≠ none := by
    obtain ⟨w, hw, rfl⟩ := step_advance hstep
    cases hw.symm.trans hput
    cases hinsert : st.store.putJob j with
    | none =>
      simp only [Writer.run, hinsert]
      exact hid ▸ Store.putJob_eq_none_iff.1 hinsert
    | some s =>
      simp only [Writer.run, hinsert]
      rw [Store.getJob_putJob hinsert, if_pos hid.symm]
      simp
  rcases origin_of_run (h.snoc hstep) with hawaits | ⟨j₀, -, hfollows⟩
  · exact absurd hawaits.absent hthere
  · obtain ⟨j', hj', -⟩ := (follows_of_run h' hfollows).record
    exact ⟨j', hj'⟩

theorem ended_of_run (h : Run (StepOf (step id)) st evs st') (hst : Ended id st.store)
    (hdb : ∀ i db, Event.advance i db ∈ evs → RefusesRunning db) : Ended id st'.store := by
  induction h with
  | nil => exact hst
  | @snoc evs _ _ ev _ hstep ih =>
    refine ended_step (ih fun i db hev => hdb i db (List.mem_append_left _ hev)) hstep ?_
    rintro i db rfl
    exact hdb i db (List.mem_append_right _ (List.mem_singleton_self _))

/-- **The record of a job, over any interleaving.**  Once there is a record it goes back to one
start, which was the first to be inserted; later it is still there and goes back to the same
start, differs from it only by a stop that was asked for, and, with a database that refuses
running jobs (`refusesRunning_toDB`), does not run again after it has ended. -/
theorem record_over_run (h : Run (StepOf (step id)) { store } evs st)
    (h' : Run (StepOf (step id)) st evs' st') {j : JobMetadata}
    (hj : st.store.getJob id = some j) :
    ∃ j₀ j', Origin id store evs j₀ ∧ Recorded evs j₀ j ∧ st'.store.getJob id = some j' ∧
      Recorded (evs ++ evs') j₀ j' ∧
      ((∀ i db, Event.advance i db ∈ evs' → RefusesRunning db) → j.isRunning = false →
        j'.isRunning = false) := by
  rcases origin_of_run h with hawaits | ⟨j₀, horigin, hfollows⟩
  · rw [hawaits.absent] at hj
    cases hj
  · obtain ⟨old, hold, hrecorded⟩ := hfollows.record
    cases hold.symm.trans hj
    obtain ⟨j', hj', hrecorded'⟩ := (follows_of_run h' hfollows).record
    refine ⟨j₀, j', horigin, hrecorded, hj', hrecorded', fun hdb hrun => ?_⟩
    obtain ⟨last, hlast, hstopped⟩ := ended_of_run h' ⟨j, hj, hrun⟩ hdb
    cases hlast.symm.trans hj'
    exact hstopped

/-- The job that a sweep and a request stop. -/
theorem record_over_run_lateSweep :
    ∃ j₀ j', Origin 1 {} [.jobStart hourJob, .advance 0 quietDB] j₀ ∧
      (storeWith sweptJob).getJob 1 = some j' ∧ Recorded lateSweep j₀ j' := by
  have hfirst : Run (StepOf (step 1)) {} [.jobStart hourJob, .advance 0 quietDB]
      { store := storeWith hourJob, acks := [.started hourJob] } :=
    run_exec_iff.2 (by decide)
  have hrest : Run (StepOf (step 1)) { store := storeWith hourJob, acks := [.started hourJob] }
      (lateSweep.drop 2)
      { store := storeWith sweptJob, acks := [.stopped hourStop, .started hourJob] } :=
    run_exec_iff.2 (by decide)
  obtain ⟨j₀, j', horigin, -, hj', hrecorded, -⟩ :=
    record_over_run hfirst hrest (j := hourJob) (by decide)
  exact ⟨j₀, j', horigin, hj', hrecorded⟩

end Over

end Lifecycle

end JobMon
