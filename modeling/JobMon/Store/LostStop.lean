import JobMon.Store.Lifecycle

/-!
# When a stop is lost, and when it is not

A stop that was acknowledged is lost when its background call reads the record
before the insert, or when a writer that has read the record earlier overwrites
it later.

* `inv_step`, `inv_of_run` — the invariant: the latest acknowledged stop is under
  way, or the record carries it.
* `stop_not_lost` — in runs without such a step, an acknowledged stop is in the
  record whenever nothing is pending.
* `stops_are_lost` — two runs with one such step each.
-/

namespace JobMon

open Runs

namespace Lifecycle

/-! ## The invariant -/

/-- The record a writer has read. -/
def Writer.read? : Writer → Option JobMetadata
  | .stopUpdate _ _ read => some read
  | .refreshUpdate read => some read
  | _ => none

/-- The start time of a record is that of an acknowledged start. -/
def FromStart (acks : List Ack) (j : JobMetadata) : Prop :=
  ∃ j₀, Ack.started j₀ ∈ acks ∧ j₀.startTime = j.startTime

/-- What holds between any two statements. -/
structure Inv (id : ℤ) (st : State) : Prop where
  /-- A job whose start was acknowledged is stored, or its insert is under way. -/
  stored : hasStart st.acks = true →
    st.store.getJob id ≠ none ∨ ∃ j, Writer.put j ∈ st.pending
  put : ∀ j, Writer.put j ∈ st.pending → j.id = id ∧ Ack.started j ∈ st.acks
  record : ∀ j, st.store.getJob id = some j → FromStart st.acks j
  read : ∀ w ∈ st.pending, ∀ j, w.read? = some j →
    j.id = id ∧ FromStart st.acks j ∧ st.store.getJob id ≠ none
  owner : ∀ w ∈ st.pending, ∀ p, w.owner = some p →
    p.1 < st.acks.length ∧ Ack.stopped p.2 ∈ st.acks
  /-- Jobs stop after they started. -/
  times : ∀ j stop, Ack.started j ∈ st.acks → Ack.stopped stop ∈ st.acks →
    j.startTime < stop.stopTime
  /-- The acknowledged stop is under way, or the record carries it. -/
  stop : ∀ p, lastStop st.acks = some p →
    (∃ w ∈ st.pending, w.owner = some p) ∨
      ∃ j, st.store.getJob id = some j ∧ Carries j p.2

theorem inv_init (id : ℤ) : Inv id {} where
  stored h := by cases h
  put j h := by cases h
  record j h := by cases h
  read w h := by cases h
  owner w h := by cases h
  times j stop h := by cases h
  stop p h := by cases h

theorem FromStart.mono {acks : List Ack} {a : Ack} {j : JobMetadata} (h : FromStart acks j) :
    FromStart (a :: acks) j := by
  obtain ⟨j₀, hmem, htime⟩ := h
  exact ⟨j₀, List.mem_cons_of_mem _ hmem, htime⟩

/-- The only stop acknowledged after a start is the latest one. -/
theorem lastStop_of_single {pre post : List Ack} {j : JobMetadata} {stop : StopJob}
    (hone : post.filterMap Ack.stop? = [stop]) :
    ∃ seq, lastStop (post ++ .started j :: pre) = some (seq, stop) := by
  induction post with
  | nil => cases hone
  | cons a post ih =>
    cases a with
    | started j' => exact ih hone
    | stopped s =>
      rw [List.filterMap_cons_some (show (Ack.stopped s).stop? = some s from rfl),
        List.cons.injEq] at hone
      obtain ⟨rfl, -⟩ := hone
      refine ⟨(post ++ .started j :: pre).length, ?_⟩
      have hstart : hasStart (post ++ .started j :: pre) = true := by
        simp [hasStart, Ack.stop?]
      rw [List.cons_append, lastStop, if_pos hstart]

/-! ## Requests arrive -/

section Steps

variable {id : ℤ} {st : State}

/-- A writer that has read nothing joins with an acknowledgement. -/
theorem Inv.read_joined (h : Inv id st) {w : Writer} (hread : w.read? = none) (a : Ack) :
    ∀ w' ∈ st.pending ++ [w], ∀ j, w'.read? = some j →
      j.id = id ∧ FromStart (a :: st.acks) j ∧ st.store.getJob id ≠ none := by
  intro w' hw' j hj
  rcases List.mem_append.1 hw' with hw' | hw'
  · obtain ⟨hid, hfrom, hrow⟩ := h.read w' hw' j hj
    exact ⟨hid, hfrom.mono, hrow⟩
  · cases List.mem_singleton.1 hw'
    rw [hread] at hj
    cases hj

/-- The writer may be that of the acknowledged stop. -/
theorem Inv.owner_joined (h : Inv id st) {w : Writer} {a : Ack}
    (hown : ∀ p, w.owner = some p → p.1 < (a :: st.acks).length ∧ Ack.stopped p.2 ∈ a :: st.acks) :
    ∀ w' ∈ st.pending ++ [w], ∀ p, w'.owner = some p →
      p.1 < (a :: st.acks).length ∧ Ack.stopped p.2 ∈ a :: st.acks := by
  intro w' hw' p hp
  rcases List.mem_append.1 hw' with hw' | hw'
  · obtain ⟨hlt, hmem⟩ := h.owner w' hw' p hp
    exact ⟨Nat.lt_succ_of_lt hlt, List.mem_cons_of_mem _ hmem⟩
  · cases List.mem_singleton.1 hw'
    exact hown p hp

theorem inv_jobStart (h : Inv id st) {j : JobMetadata} (hid : j.id = id)
    (htimes : ∀ stop, Ack.stopped stop ∈ st.acks → j.startTime < stop.stopTime) :
    Inv id { st with pending := st.pending ++ [.put j], acks := .started j :: st.acks } where
  stored _ := Or.inr ⟨j, List.mem_append_right _ (List.mem_singleton_self _)⟩
  put j' h' := by
    rcases List.mem_append.1 h' with h' | h'
    · exact ⟨(h.put j' h').1, List.mem_cons_of_mem _ (h.put j' h').2⟩
    · cases List.mem_singleton.1 h'
      exact ⟨hid, List.mem_cons_self⟩
  record j' h' := (h.record j' h').mono
  read := h.read_joined rfl _
  owner := h.owner_joined fun p hp => by cases hp
  times j' stop hj hstop := by
    have hstop' : Ack.stopped stop ∈ st.acks := by simpa using hstop
    rcases List.mem_cons.1 hj with hj | hj
    · cases hj
      exact htimes stop hstop'
    · exact h.times j' stop hj hstop'
  stop p hp := by
    rcases h.stop p hp with ⟨w, hw, hown⟩ | hrow
    · exact Or.inl ⟨w, List.mem_append_left _ hw, hown⟩
    · exact Or.inr hrow

theorem inv_jobStop (h : Inv id st) {stop : StopJob}
    (htimes : ∀ j, Ack.started j ∈ st.acks → j.startTime < stop.stopTime) :
    Inv id { st with
      pending := st.pending ++ [.stopSelect (.jobStop st.acks.length) stop]
      acks := .stopped stop :: st.acks } where
  stored hstart := by
    rcases h.stored hstart with hrow | ⟨j, hj⟩
    · exact Or.inl hrow
    · exact Or.inr ⟨j, List.mem_append_left _ hj⟩
  put j' h' := by
    have hmem : Writer.put j' ∈ st.pending := by simpa using h'
    exact ⟨(h.put j' hmem).1, List.mem_cons_of_mem _ (h.put j' hmem).2⟩
  record j' h' := (h.record j' h').mono
  read := h.read_joined rfl _
  owner := by
    refine h.owner_joined fun p hp => ?_
    cases hp
    exact ⟨Nat.lt_succ_self _, List.mem_cons_self⟩
  times j stop' hj hstop := by
    have hj' : Ack.started j ∈ st.acks := by simpa using hj
    rcases List.mem_cons.1 hstop with hstop | hstop
    · cases hstop
      exact htimes j hj'
    · exact h.times j stop' hj' hstop
  stop p hp := by
    simp only [lastStop] at hp
    split at hp
    · cases hp
      exact Or.inl ⟨_, List.mem_append_right _ (List.mem_singleton_self _), rfl⟩
    · cases hp

/-- A writer that is only about to select, for no acknowledged stop. -/
def Writer.Fresh (w : Writer) : Prop :=
  w.owner = none ∧ w.read? = none ∧ ∀ j, w ≠ .put j

/-- Such writers may join at any time. -/
theorem inv_spawn (h : Inv id st) {ws : List Writer} (hws : ∀ w ∈ ws, w.Fresh) :
    Inv id { st with pending := st.pending ++ ws } where
  stored hstart := by
    rcases h.stored hstart with hrow | ⟨j, hj⟩
    · exact Or.inl hrow
    · exact Or.inr ⟨j, List.mem_append_left _ hj⟩
  put j hj := by
    rcases List.mem_append.1 hj with hj | hj
    · exact h.put j hj
    · exact absurd rfl ((hws _ hj).2.2 j)
  record := h.record
  read w hw j hj := by
    rcases List.mem_append.1 hw with hw | hw
    · exact h.read w hw j hj
    · rw [(hws w hw).2.1] at hj
      cases hj
  owner w hw p hp := by
    rcases List.mem_append.1 hw with hw | hw
    · exact h.owner w hw p hp
    · rw [(hws w hw).1] at hp
      cases hp
  times := h.times
  stop p hp := by
    rcases h.stop p hp with ⟨w, hw, hown⟩ | hrow
    · exact Or.inl ⟨w, List.mem_append_left _ hw, hown⟩
    · exact Or.inr hrow

theorem fresh_sweepWriters {s : Store} {partition : String} {maxTime now : ℤ} :
    ∀ w ∈ sweepWriters id s partition maxTime now, w.Fresh := by
  intro w hw
  obtain ⟨j, -, rfl⟩ := List.mem_map.1 hw
  exact ⟨rfl, rfl, fun _ h => by cases h⟩

/-! ## A writer advances -/

variable {i : ℕ} {w : Writer}

/-- The other writers are still there. -/
theorem mem_eraseIdx_of_ne (hw : st.pending[i]? = some w) {w' : Writer}
    (hmem : w' ∈ st.pending) (hne : w' ≠ w) : w' ∈ st.pending.eraseIdx i := by
  rw [List.mem_eraseIdx_iff_getElem?]
  obtain ⟨k, hk⟩ := List.mem_iff_getElem?.1 hmem
  refine ⟨k, ?_, hk⟩
  rintro rfl
  rw [hw] at hk
  exact hne (Option.some.inj hk).symm

/-- The writer goes on without having written: it has read the record, or it has
ended. -/
theorem inv_goOn (h : Inv id st) (hw : st.pending[i]? = some w) {again : List Writer}
    (hnoput : ∀ j, w ≠ .put j) (hagain : ∀ w' ∈ again, (∀ j, w' ≠ .put j) ∧
      (∀ j, w'.read? = some j → st.store.getJob id = some j) ∧ w'.owner = w.owner)
    (hstop : ∀ p, lastStop st.acks = some p → w.owner = some p → ∃ w' ∈ again, w'.owner = some p) :
    Inv id { st with pending := st.pending.eraseIdx i ++ again } where
  stored hstart := by
    rcases h.stored hstart with hrow | ⟨j, hj⟩
    · exact Or.inl hrow
    · exact Or.inr ⟨j, List.mem_append_left _ (mem_eraseIdx_of_ne hw hj (hnoput j).symm)⟩
  put j hj := by
    rcases List.mem_append.1 hj with hj | hj
    · exact h.put j (List.mem_of_mem_eraseIdx hj)
    · exact absurd rfl ((hagain _ hj).1 j)
  record := h.record
  read w' hw' j hj := by
    rcases List.mem_append.1 hw' with hw' | hw'
    · exact h.read w' (List.mem_of_mem_eraseIdx hw') j hj
    · have hrow := (hagain w' hw').2.1 j hj
      exact ⟨Store.id_of_getJob hrow, h.record j hrow, by rw [hrow]; simp⟩
  owner w' hw' p hp := by
    rcases List.mem_append.1 hw' with hw' | hw'
    · exact h.owner w' (List.mem_of_mem_eraseIdx hw') p hp
    · rw [(hagain w' hw').2.2] at hp
      exact h.owner w (List.mem_of_getElem? hw) p hp
  times := h.times
  stop p hp := by
    by_cases hown : w.owner = some p
    · obtain ⟨w', hw', hown'⟩ := hstop p hp hown
      exact Or.inl ⟨w', List.mem_append_right _ hw', hown'⟩
    · rcases h.stop p hp with ⟨w', hw', hown'⟩ | hrow
      · have hne : w' ≠ w := by
          rintro rfl
          exact hown hown'
        exact Or.inl ⟨w', List.mem_append_left _ (mem_eraseIdx_of_ne hw hw' hne), hown'⟩
      · exact Or.inr hrow

/-- The writer overwrites the record and has ended. -/
theorem inv_write (h : Inv id st) (hw : st.pending[i]? = some w) {j : JobMetadata}
    (hnoput : ∀ j, w ≠ .put j) (hid : j.id = id) (hfrom : FromStart st.acks j)
    (hrow : st.store.getJob id ≠ none)
    (hstop : ∀ p, lastStop st.acks = some p → (w.owner = some p ∨ Settled st p) →
      Carries j p.2) :
    Inv id { st with store := st.store.updateJob j, pending := st.pending.eraseIdx i ++ [] } := by
  have hafter : (st.store.updateJob j).getJob id = some (st.store.withTags j) := by
    obtain ⟨old, hold⟩ := Option.ne_none_iff_exists'.1 hrow
    rw [Store.getJob_updateJob, if_pos hid.symm, hold, Option.map_some]
  rw [List.append_nil]
  refine ⟨?_, ?_, ?_, ?_, ?_, h.times, ?_⟩
  · intro _
    left
    show (st.store.updateJob j).getJob id ≠ none
    rw [hafter]
    simp
  · intro j' hj'
    exact h.put j' (List.mem_of_mem_eraseIdx hj')
  · intro j' hj'
    cases hafter.symm.trans hj'
    exact hfrom
  · intro w' hw' j' hj'
    obtain ⟨hid', hfrom', -⟩ := h.read w' (List.mem_of_mem_eraseIdx hw') j' hj'
    refine ⟨hid', hfrom', ?_⟩
    show (st.store.updateJob j).getJob id ≠ none
    rw [hafter]
    simp
  · intro w' hw' p hp
    exact h.owner w' (List.mem_of_mem_eraseIdx hw') p hp
  · intro p hp
    by_cases hown : w.owner = some p
    · exact Or.inr ⟨_, hafter, hstop p hp (Or.inl hown)⟩
    by_cases hsettled : Settled st p
    · exact Or.inr ⟨_, hafter, hstop p hp (Or.inr hsettled)⟩
    · obtain ⟨w', hw', hown'⟩ : ∃ w' ∈ st.pending, w'.owner = some p := by
        by_contra hnone
        exact hsettled fun w' hw' hown' => hnone ⟨w', hw', hown'⟩
      have hne : w' ≠ w := by
        rintro rfl
        exact hown hown'
      exact Or.inl ⟨w', mem_eraseIdx_of_ne hw hw' hne, hown'⟩

/-- The insert of a job that is not there yet. -/
theorem inv_put (h : Inv id st) {j : JobMetadata} (hw : st.pending[i]? = some (.put j))
    (hfree : st.store.getJob j.id = none) {s' : Store} (hput : st.store.putJob j = some s') :
    Inv id { st with store := s', pending := st.pending.eraseIdx i ++ [] } := by
  obtain ⟨hid, hack⟩ := h.put j (List.mem_of_getElem? hw)
  have hafter : s'.getJob id = some (st.store.withTags j) := by
    rw [Store.getJob_putJob hput, if_pos hid.symm]
  rw [hid] at hfree
  rw [List.append_nil]
  refine ⟨?_, ?_, ?_, ?_, ?_, h.times, ?_⟩
  · intro _
    left
    show s'.getJob id ≠ none
    rw [hafter]
    simp
  · intro j' hj'
    exact h.put j' (List.mem_of_mem_eraseIdx hj')
  · intro j' hj'
    cases hafter.symm.trans hj'
    exact ⟨j, hack, rfl⟩
  · intro w' hw' j' hj'
    obtain ⟨-, -, hrow⟩ := h.read w' (List.mem_of_mem_eraseIdx hw') j' hj'
    exact absurd hfree hrow
  · intro w' hw' p hp
    exact h.owner w' (List.mem_of_mem_eraseIdx hw') p hp
  · intro p hp
    rcases h.stop p hp with ⟨w', hw', hown'⟩ | ⟨j', hj', -⟩
    · have hne : w' ≠ .put j := by
        rintro rfl
        cases hown'
      exact Or.inl ⟨w', mem_eraseIdx_of_ne hw hw' hne, hown'⟩
    · rw [hfree] at hj'
      cases hj'

theorem inv_stopUpdate (h : Inv id st) {caller : Caller} {stop : StopJob} {read : JobMetadata}
    {db : DB} (hw : st.pending[i]? = some (.stopUpdate caller stop read))
    (hdb : AnswersMetrics db) (hsafe : ∀ p, lastStop st.acks = some p →
      WriterSafe id st p (.stopUpdate caller stop read)) :
    Inv id { st with
      store := ((Writer.stopUpdate caller stop read).run db id st.store).1
      pending := st.pending.eraseIdx i ++
        ((Writer.stopUpdate caller stop read).run db id st.store).2 } := by
  have hnoput : ∀ j, Writer.stopUpdate caller stop read ≠ .put j := fun _ h => by cases h
  have hmem := List.mem_of_getElem? hw
  have hstop : ∀ p, (Writer.stopUpdate caller stop read).owner = some p → stop = p.2 := by
    intro p hown
    cases caller with
    | sweep => cases hown
    | jobStop seq => cases hown; rfl
  obtain ⟨hid, hfrom, hrow⟩ := h.read _ hmem read rfl
  cases hres : db.getJobMetadataMetrics (read.stopped stop) with
  | ok data =>
    have hrun : (Writer.stopUpdate caller stop read).run db id st.store =
        (st.store.updateJob { read.stopped stop with data }, []) := by
      simp only [Writer.run, hres]
    rw [hrun]
    refine inv_write h hw hnoput hid hfrom hrow ?_
    rintro p hp (hown | hsettled)
    · -- the stop itself: what it writes carries it, whatever it has read
      rw [← hstop p hown]
      exact ⟨rfl, rfl, rfl⟩
    · obtain ⟨htime, hcode⟩ := hsafe p hp hsettled
      exact ⟨rfl, htime, hcode⟩
  | error e =>
    have hrun : (Writer.stopUpdate caller stop read).run db id st.store = (st.store, []) := by
      simp only [Writer.run, hres]
    rw [hrun]
    refine inv_goOn h hw hnoput (fun w' hw' => by cases hw') ?_
    -- the stop itself is not refused: the job started before it stops
    intro p hp hown
    exfalso
    obtain ⟨j₀, hstart, htime⟩ := hfrom
    have hlt : j₀.startTime < p.2.stopTime := h.times j₀ p.2 hstart (h.owner _ hmem p hown).2
    obtain ⟨data, hok⟩ := hdb.stopped (read.stopped stop) rfl (by
      show read.startTime < stop.stopTime
      rw [hstop p hown, ← htime]
      exact hlt)
    rw [hok] at hres
    cases hres

theorem inv_refreshUpdate (h : Inv id st) {read : JobMetadata} {db : DB}
    (hw : st.pending[i]? = some (.refreshUpdate read)) (hdb : AnswersMetrics db)
    (hsafe : ∀ p, lastStop st.acks = some p → WriterSafe id st p (.refreshUpdate read)) :
    Inv id { st with
      store := ((Writer.refreshUpdate read).run db id st.store).1
      pending := st.pending.eraseIdx i ++
        ((Writer.refreshUpdate read).run db id st.store).2 } := by
  have hnoput : ∀ j, Writer.refreshUpdate read ≠ .put j := fun _ h => by cases h
  obtain ⟨hid, hfrom, hrow⟩ := h.read _ (List.mem_of_getElem? hw) read rfl
  cases hres : db.getJobMetadataMetrics read with
  | ok data =>
    have hrun : (Writer.refreshUpdate read).run db id st.store =
        (st.store.updateJob { read with data }, []) := by
      simp only [Writer.run, hres]
    rw [hrun]
    refine inv_write h hw hnoput hid hfrom hrow ?_
    rintro p hp (hown | hsettled)
    · cases hown
    · rcases hsafe p hp hsettled with hrunning | hcarries
      · obtain ⟨e, he⟩ := hdb.running read hrunning
        rw [he] at hres
        cases hres
      · exact hcarries
  | error e =>
    have hrun : (Writer.refreshUpdate read).run db id st.store = (st.store, []) := by
      simp only [Writer.run, hres]
    rw [hrun]
    exact inv_goOn h hw hnoput (fun w' hw' => by cases hw') (fun p _ hown => by cases hown)

theorem inv_stopSelect (h : Inv id st) {caller : Caller} {stop : StopJob} {db : DB}
    (hw : st.pending[i]? = some (.stopSelect caller stop))
    (hsafe : ∀ p, lastStop st.acks = some p → WriterSafe id st p (.stopSelect caller stop)) :
    Inv id { st with
      store := ((Writer.stopSelect caller stop).run db id st.store).1
      pending := st.pending.eraseIdx i ++
        ((Writer.stopSelect caller stop).run db id st.store).2 } := by
  have hnoput : ∀ j, Writer.stopSelect caller stop ≠ .put j := fun _ h => by cases h
  cases hread : st.store.getJob id with
  | none =>
    have hrun : (Writer.stopSelect caller stop).run db id st.store = (st.store, []) := by
      simp only [Writer.run, hread]
    rw [hrun]
    refine inv_goOn h hw hnoput (fun w' hw' => by cases hw') ?_
    intro p hp hown
    exact absurd hread (hsafe p hp hown)
  | some read =>
    have hrun : (Writer.stopSelect caller stop).run db id st.store =
        (st.store, [.stopUpdate caller stop read]) := by
      simp only [Writer.run, hread]
    have hown : (Writer.stopUpdate caller stop read).owner =
        (Writer.stopSelect caller stop).owner := by
      cases caller <;> rfl
    rw [hrun]
    have hnoput' : ∀ j, Writer.stopUpdate caller stop read ≠ .put j := fun _ h => by cases h
    refine inv_goOn h hw hnoput ?_ fun p _ hp => ⟨_, List.mem_singleton_self _, hown.trans hp⟩
    intro w' hw'
    rw [List.mem_singleton.1 hw']
    refine ⟨hnoput', ?_, hown⟩
    intro j hj
    cases hj
    exact hread

theorem inv_refreshSelect (h : Inv id st) {db : DB} (hw : st.pending[i]? = some .refreshSelect) :
    Inv id { st with
      store := (Writer.refreshSelect.run db id st.store).1
      pending := st.pending.eraseIdx i ++ (Writer.refreshSelect.run db id st.store).2 } := by
  have hnoput : ∀ j, Writer.refreshSelect ≠ .put j := fun _ h => by cases h
  cases hread : st.store.getJob id with
  | none =>
    have hrun : Writer.refreshSelect.run db id st.store = (st.store, []) := by
      simp only [Writer.run, hread]
    rw [hrun]
    exact inv_goOn h hw hnoput (fun w' hw' => by cases hw') (fun p _ hown => by cases hown)
  | some read =>
    have hrun : Writer.refreshSelect.run db id st.store = (st.store, [.refreshUpdate read]) := by
      simp only [Writer.run, hread]
    rw [hrun]
    have hnoput' : ∀ j, Writer.refreshUpdate read ≠ .put j := fun _ h => by cases h
    refine inv_goOn h hw hnoput ?_ (fun p _ hown => by cases hown)
    intro w' hw'
    rw [List.mem_singleton.1 hw']
    refine ⟨hnoput', ?_, rfl⟩
    intro j hj
    cases hj
    exact hread

end Steps

/-! ## Every run -/

/-- **Step.**  Every safe step keeps the invariant. -/
theorem inv_step {id : ℤ} {st st' : State} {ev : Event} (h : Inv id st)
    (hstep : Guarded (StopSafe id) (Step id) st ev st') : Inv id st' := by
  obtain ⟨hsafe, hassumed, hrun⟩ := hstep
  cases ev with
  | jobStart j =>
    cases hrun
    exact inv_jobStart h hassumed.1 hassumed.2
  | jobStop stop =>
    cases hrun
    exact inv_jobStop h hassumed
  | sweep partition maxTime now =>
    cases hrun
    exact inv_spawn h fresh_sweepWriters
  | refresh =>
    cases hrun
    refine inv_spawn h fun w hw => ?_
    rw [List.mem_singleton.1 hw]
    exact ⟨rfl, rfl, fun _ h => by cases h⟩
  | advance i db =>
    obtain ⟨hdb, hfree⟩ := hassumed
    simp only [step] at hrun
    cases hw : st.pending[i]? with
    | none =>
      rw [hw] at hrun
      cases hrun
    | some w =>
      rw [hw] at hrun
      cases hrun
      have hsafe' : ∀ p, lastStop st.acks = some p → WriterSafe id st p w :=
        fun p hp => hsafe w p hw hp
      cases w with
      | put j =>
        cases hput : st.store.putJob j with
        | none => exact absurd (hfree j hw) (Store.putJob_eq_none_iff.1 hput)
        | some s' =>
          have hrun' : (Writer.put j).run db id st.store = (s', []) := by
            simp only [Writer.run, hput]
          rw [hrun']
          exact inv_put h hw (hfree j hw) hput
      | stopSelect caller stop => exact inv_stopSelect h hw hsafe'
      | stopUpdate caller stop read => exact inv_stopUpdate h hw hdb hsafe'
      | refreshSelect => exact inv_refreshSelect h hw
      | refreshUpdate read => exact inv_refreshUpdate h hw hdb hsafe'

/-- **Run.**  The invariant holds after any run of safe steps. -/
theorem inv_of_run {id : ℤ} {evs : List Event} {st : State}
    (hrun : Run (Guarded (StopSafe id) (Step id)) {} evs st) : Inv id st :=
  hrun.invariant (inv_init id) fun _ _ _ h hstep => inv_step h hstep

/-- **No stop is lost.**  In any interleaving whose steps are safe: when exactly
one stop was acknowledged after a start, and nothing is pending, the record is
stopped as that request said. -/
theorem stop_not_lost {id : ℤ} {evs : List Event} {st : State}
    (hrun : Run (Guarded (StopSafe id) (Step id)) {} evs st) (hpending : st.pending = [])
    {pre post : List Ack} {j : JobMetadata} {stop : StopJob}
    (hacks : st.acks = post ++ .started j :: pre) (hone : post.filterMap Ack.stop? = [stop]) :
    ∃ record, st.store.getJob id = some record ∧ record.isRunning = false ∧
      record.stopTime = stop.stopTime ∧ record.exitCode = stop.exitCode := by
  obtain ⟨seq, hlast⟩ := @lastStop_of_single pre post j stop hone
  rw [← hacks] at hlast
  rcases (inv_of_run hrun).stop _ hlast with ⟨w, hw, -⟩ | ⟨record, hrecord, hcarries⟩
  · rw [hpending] at hw
    cases hw
  · exact ⟨record, hrecord, hcarries⟩

/-! ## Two lost stops -/

/-- A database that computes metrics of no interest. -/
def quietDB : DB :=
  { getJobData := fun j _ _ _ => .ok { metadata := j }
    getJobMetadataMetrics := fun j =>
      if j.isRunning then .error (.error "job is still running")
      else if j.stopTime ≤ j.startTime then
        .error (.error "job stop time is less or equal to start")
      else .ok []
    getMetricDataWithAggFn := fun _ m _ _ => .ok { config := m } }

theorem answersMetrics_quietDB : AnswersMetrics quietDB where
  stopped j hrun htime := by
    refine ⟨[], ?_⟩
    show (if j.isRunning = true then _ else _) = _
    rw [if_neg (by simp [hrun]), if_neg (by omega)]
  running j hrun := ⟨_, if_pos hrun⟩

/-- A job of at most an hour. -/
def hourJob : JobMetadata := { id := 1, isRunning := true, startTime := 100, partition := "p" }

/-- It ends in time, without an error. -/
def hourStop : StopJob := { stopTime := 3700, exitCode := 0 }

/-- The stop is read before the insert. -/
def lateInsert : List Event :=
  [.jobStart hourJob, .jobStop hourStop, .advance 1 quietDB, .advance 0 quietDB]

/-- A sweep that has read the running job writes after the stop. -/
def lateSweep : List Event :=
  [.jobStart hourJob, .advance 0 quietDB, .sweep "p" 3600 3701, .advance 0 quietDB,
    .jobStop hourStop, .advance 1 quietDB, .advance 1 quietDB, .advance 0 quietDB]

/-- The store with one record. -/
def storeWith (j : JobMetadata) : Store := { jobMetadata := ⟨[j], List.nodup_singleton _⟩ }

theorem run_lateInsert : Run (Step 1) {} lateInsert
    { store := storeWith hourJob, acks := [.stopped hourStop, .started hourJob] } := by
  have hstart : Run (Step 1) {} [] {} := .nil
  have h₁ : Step 1 {} (.jobStart hourJob)
      { pending := [.put hourJob], acks := [.started hourJob] } :=
    ⟨⟨rfl, fun _ h => by cases h⟩, rfl⟩
  have h₂ : Step 1 { pending := [.put hourJob], acks := [.started hourJob] } (.jobStop hourStop)
      { pending := [.put hourJob, .stopSelect (.jobStop 1) hourStop]
        acks := [.stopped hourStop, .started hourJob] } :=
    ⟨fun j hj => by cases List.mem_singleton.1 hj; decide, rfl⟩
  have h₃ : Step 1
      { pending := [.put hourJob, .stopSelect (.jobStop 1) hourStop]
        acks := [.stopped hourStop, .started hourJob] } (.advance 1 quietDB)
      { pending := [.put hourJob], acks := [.stopped hourStop, .started hourJob] } :=
    ⟨⟨answersMetrics_quietDB, fun j h => by cases h⟩, rfl⟩
  have h₄ : Step 1
      { pending := [.put hourJob], acks := [.stopped hourStop, .started hourJob] }
      (.advance 0 quietDB)
      { store := storeWith hourJob, acks := [.stopped hourStop, .started hourJob] } :=
    ⟨⟨answersMetrics_quietDB, fun j h => by cases h; rfl⟩, by decide⟩
  exact (((hstart.snoc h₁).snoc h₂).snoc h₃).snoc h₄

/-- The record the sweep leaves: stopped at its deadline with exit code 1. -/
def sweptJob : JobMetadata := hourJob.stopped { stopTime := 3700, exitCode := 1 }

/-- The call of `StopJob` the sweep has made, with the job it has read. -/
def sweepUpdate : Writer := .stopUpdate .sweep { stopTime := 3700, exitCode := 1 } hourJob

theorem run_lateSweep : Run (Step 1) {} lateSweep
    { store := storeWith sweptJob, acks := [.stopped hourStop, .started hourJob] } := by
  have hstart : Run (Step 1) {} [] {} := .nil
  have h₁ : Step 1 {} (.jobStart hourJob)
      { pending := [.put hourJob], acks := [.started hourJob] } :=
    ⟨⟨rfl, fun _ h => by cases h⟩, rfl⟩
  have h₂ : Step 1 { pending := [.put hourJob], acks := [.started hourJob] } (.advance 0 quietDB)
      { store := storeWith hourJob, acks := [.started hourJob] } :=
    ⟨⟨answersMetrics_quietDB, fun j h => by cases h; rfl⟩, by decide⟩
  have h₃ : Step 1 { store := storeWith hourJob, acks := [.started hourJob] }
      (.sweep "p" 3600 3701)
      { store := storeWith hourJob
        pending := [.stopSelect .sweep { stopTime := 3700, exitCode := 1 }]
        acks := [.started hourJob] } :=
    ⟨trivial, by decide⟩
  have h₄ : Step 1
      { store := storeWith hourJob
        pending := [.stopSelect .sweep { stopTime := 3700, exitCode := 1 }]
        acks := [.started hourJob] } (.advance 0 quietDB)
      { store := storeWith hourJob, pending := [sweepUpdate], acks := [.started hourJob] } :=
    ⟨⟨answersMetrics_quietDB, fun j h => by cases h⟩, by decide⟩
  have h₅ : Step 1
      { store := storeWith hourJob, pending := [sweepUpdate], acks := [.started hourJob] }
      (.jobStop hourStop)
      { store := storeWith hourJob
        pending := [sweepUpdate, .stopSelect (.jobStop 1) hourStop]
        acks := [.stopped hourStop, .started hourJob] } :=
    ⟨fun j hj => by cases List.mem_singleton.1 hj; decide, rfl⟩
  have h₆ : Step 1
      { store := storeWith hourJob
        pending := [sweepUpdate, .stopSelect (.jobStop 1) hourStop]
        acks := [.stopped hourStop, .started hourJob] } (.advance 1 quietDB)
      { store := storeWith hourJob
        pending := [sweepUpdate, .stopUpdate (.jobStop 1) hourStop hourJob]
        acks := [.stopped hourStop, .started hourJob] } :=
    ⟨⟨answersMetrics_quietDB, fun j h => by cases h⟩, by decide⟩
  have h₇ : Step 1
      { store := storeWith hourJob
        pending := [sweepUpdate, .stopUpdate (.jobStop 1) hourStop hourJob]
        acks := [.stopped hourStop, .started hourJob] } (.advance 1 quietDB)
      { store := storeWith (hourJob.stopped hourStop)
        pending := [sweepUpdate]
        acks := [.stopped hourStop, .started hourJob] } :=
    ⟨⟨answersMetrics_quietDB, fun j h => by cases h⟩, by decide⟩
  have h₈ : Step 1
      { store := storeWith (hourJob.stopped hourStop)
        pending := [sweepUpdate]
        acks := [.stopped hourStop, .started hourJob] } (.advance 0 quietDB)
      { store := storeWith sweptJob, acks := [.stopped hourStop, .started hourJob] } :=
    ⟨⟨answersMetrics_quietDB, fun j h => by cases h⟩, by decide⟩
  exact (((((((hstart.snoc h₁).snoc h₂).snoc h₃).snoc h₄).snoc h₅).snoc h₆).snoc h₇).snoc h₈

/-- **Stops get lost.**  In the first run the job is running for ever, in the
second one it has ended in an error; in both nothing is pending, and the one stop
that was acknowledged said otherwise. -/
theorem stops_are_lost :
    (∃ st : State, Run (Step 1) {} lateInsert st ∧ st.pending = [] ∧
      st.acks = [.stopped hourStop, .started hourJob] ∧
      (st.store.getJob 1).map JobMetadata.isRunning = some true) ∧
    ∃ st : State, Run (Step 1) {} lateSweep st ∧ st.pending = [] ∧
      st.acks = [.stopped hourStop, .started hourJob] ∧
      (st.store.getJob 1).map JobMetadata.exitCode = some 1 ∧ hourStop.exitCode = 0 :=
  ⟨⟨_, run_lateInsert, rfl, rfl, by decide⟩, ⟨_, run_lateSweep, rfl, rfl, by decide, rfl⟩⟩

/-- Start, insert, stop, select and update in this order. -/
def inTime : List Event :=
  [.jobStart hourJob, .advance 0 quietDB, .jobStop hourStop, .advance 0 quietDB,
    .advance 0 quietDB]

theorem run_inTime : Run (Guarded (StopSafe 1) (Step 1)) {} inTime
    { store := storeWith (hourJob.stopped hourStop)
      acks := [.stopped hourStop, .started hourJob] } := by
  have hstart : Run (Guarded (StopSafe 1) (Step 1)) {} [] {} := .nil
  have h₁ : Guarded (StopSafe 1) (Step 1) {} (.jobStart hourJob)
      { pending := [.put hourJob], acks := [.started hourJob] } :=
    ⟨trivial, ⟨rfl, fun _ h => by cases h⟩, rfl⟩
  have h₂ : Guarded (StopSafe 1) (Step 1)
      { pending := [.put hourJob], acks := [.started hourJob] } (.advance 0 quietDB)
      { store := storeWith hourJob, acks := [.started hourJob] } :=
    ⟨fun w p _ hp => (by cases hp), ⟨answersMetrics_quietDB, fun j h => by cases h; rfl⟩,
      by decide⟩
  have h₃ : Guarded (StopSafe 1) (Step 1)
      { store := storeWith hourJob, acks := [.started hourJob] } (.jobStop hourStop)
      { store := storeWith hourJob
        pending := [.stopSelect (.jobStop 1) hourStop]
        acks := [.stopped hourStop, .started hourJob] } :=
    ⟨trivial, fun j hj => by cases List.mem_singleton.1 hj; decide, rfl⟩
  have h₄ : Guarded (StopSafe 1) (Step 1)
      { store := storeWith hourJob
        pending := [.stopSelect (.jobStop 1) hourStop]
        acks := [.stopped hourStop, .started hourJob] } (.advance 0 quietDB)
      { store := storeWith hourJob
        pending := [.stopUpdate (.jobStop 1) hourStop hourJob]
        acks := [.stopped hourStop, .started hourJob] } := by
    refine ⟨fun w p hw _ => ?_, ⟨answersMetrics_quietDB, fun j h => by cases h⟩, by decide⟩
    cases hw
    exact fun _ => by decide
  have h₅ : Guarded (StopSafe 1) (Step 1)
      { store := storeWith hourJob
        pending := [.stopUpdate (.jobStop 1) hourStop hourJob]
        acks := [.stopped hourStop, .started hourJob] } (.advance 0 quietDB)
      { store := storeWith (hourJob.stopped hourStop)
        acks := [.stopped hourStop, .started hourJob] } := by
    refine ⟨fun w p hw hp => ?_, ⟨answersMetrics_quietDB, fun j h => by cases h⟩, by decide⟩
    cases hw
    cases hp
    exact fun _ => ⟨rfl, rfl⟩
  exact ((((hstart.snoc h₁).snoc h₂).snoc h₃).snoc h₄).snoc h₅

theorem stop_not_lost_inTime :
    ∃ record, (storeWith (hourJob.stopped hourStop)).getJob 1 = some record ∧
      record.isRunning = false ∧ record.stopTime = hourStop.stopTime ∧
      record.exitCode = hourStop.exitCode :=
  @stop_not_lost 1 inTime _ run_inTime rfl [] [.stopped hourStop] hourJob hourStop rfl rfl

end Lifecycle

end JobMon
