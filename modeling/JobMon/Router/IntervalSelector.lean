import JobMon.Job.SampleIntervals
import JobMon.Router.Read

/-!
# The interval selector of the job view

The view shows the sample interval in use in a selector of the intervals `GetJob` offers.
The configured interval is a candidate for the choice, but it is only offered when it is
one of the built-in ones.

* `JobData.Selectable` — the selector shows the interval in use, and offers the finest
  one that is available.
* `getJob_intervals` — what a request that names no interval is answered.
* `getJob_selectable_iff` — when the selector works.
-/

namespace JobMon

open Nearest

/-- The selector can show the interval in use. -/
def JobData.ShowsInterval (data : JobData) : Prop := data.sampleInterval ∈ data.sampleIntervals

/-- The selector shows the interval in use and offers the configured one, which is the
finest there is data for. -/
def JobData.Selectable (m : ℤ) (data : JobData) : Prop :=
  data.ShowsInterval ∧ (m : ℚ) ∈ data.sampleIntervals

/-! ## The choice and the offered list -/

/-- The choice is as near as any, also for a job that has not started yet. -/
theorem isNearest_closestInterval (w m : ℚ) :
    IsNearest (candidates m) w (closestInterval w m) := by
  have h := argmin_cons_eq_foldl (fun v => |v - w|) m defaultIntervals
  exact ⟨List.argmin_mem h, fun v hv =>
    List.le_of_mem_argmin (f := fun v => |v - w|) hv h⟩

/-- For a job that has not started yet it is not above any candidate. -/
theorem closestInterval_le_of_nonpos {w m v : ℚ} (hw : w ≤ 0) (hm : 0 < m)
    (hv : v ∈ candidates m) : closestInterval w m ≤ v := by
  have hpos : ∀ u ∈ candidates m, 0 < u := by
    intro u hu
    rcases List.mem_cons.1 hu with rfl | hu
    · exact hm
    · exact lt_of_lt_of_le (by norm_num) (thirty_le_of_mem hu)
  obtain ⟨hmem, hnear⟩ := isNearest_closestInterval w m
  have h := hnear v hv
  rw [abs_of_nonneg (by linarith [hpos _ hmem]), abs_of_nonneg (by linarith [hpos v hv])] at h
  linarith

theorem mem_offered_iff {now : ℤ} {j : JobMetadata} {m : ℤ} {v : ℚ} :
    v ∈ (j.calculateSampleIntervals now (m * Go.second)).1 ↔
      v ∈ defaultIntervals ∧ m ≤ v ∧
        v ≤ Go.seconds (j.calculateSampleIntervals now (m * Go.second)).2 := by
  rw [offered_eq, seconds_calculateSampleIntervals, List.mem_filter]
  simp

/-- A job that has not started yet: only the shortest built-in interval, configured as
it is, is chosen and offered. -/
theorem offered_of_nonpos {now : ℤ} {j : JobMetadata} {m : ℤ} (hm : 1 ≤ m)
    (hd : j.duration now ≤ 0) :
    (Go.seconds (j.calculateSampleIntervals now (m * Go.second)).2 ∈
        (j.calculateSampleIntervals now (m * Go.second)).1 ↔ m = 30) ∧
      ((m : ℚ) ∈ (j.calculateSampleIntervals now (m * Go.second)).1 ↔ m = 30) := by
  have hm' : (0 : ℚ) < m := by exact_mod_cast hm
  have hceil : ⌈(j.duration now : ℚ) / (200 * m)⌉ ≤ 0 := by
    have hd' : (j.duration now : ℚ) ≤ 0 := by exact_mod_cast hd
    rw [Int.ceil_le, Int.cast_zero]
    exact div_nonpos_of_nonpos_of_nonneg hd' (by positivity)
  have hw : (⌈(j.duration now : ℚ) / (200 * m)⌉ : ℚ) * m ≤ 0 :=
    mul_nonpos_of_nonpos_of_nonneg (by exact_mod_cast hceil) hm'.le
  rw [mem_offered_iff, mem_offered_iff, seconds_calculateSampleIntervals]
  have hnear := (isNearest_closestInterval (⌈(j.duration now : ℚ) / (200 * m)⌉ * m) m).1
  have hlow := closestInterval_le_of_nonpos hw hm' (v := m) List.mem_cons_self
  have h30 := closestInterval_le_of_nonpos hw hm' (v := 30)
    (List.mem_cons_of_mem _ List.mem_cons_self)
  generalize closestInterval (⌈(j.duration now : ℚ) / (200 * m)⌉ * m) m = c at *
  have heq : ∀ v ∈ defaultIntervals, (m : ℚ) ≤ v → v ≤ c → m = 30 := by
    intro v hv hmv hvc
    have : (m : ℚ) = 30 := by linarith [thirty_le_of_mem hv]
    exact_mod_cast this
  refine ⟨⟨fun h => heq c h.1 h.2.1 h.2.2, ?_⟩, ⟨fun h => heq m h.1 h.2.1 h.2.2, ?_⟩⟩
  · rintro rfl
    have hc : c ∈ defaultIntervals := by
      rcases List.mem_cons.1 hnear with rfl | h
      · decide +kernel
      · exact h
    exact ⟨hc, by exact_mod_cast thirty_le_of_mem hc, le_rfl⟩
  · rintro rfl
    have hc : (30 : ℚ) ≤ c := by
      rcases List.mem_cons.1 hnear with rfl | h
      · norm_num
      · exact thirty_le_of_mem h
    exact ⟨by decide +kernel, le_rfl, by exact_mod_cast hc⟩

/-- A job that has run: another interval than the configured one is chosen when the
interval that gives the wanted number of samples is beyond a rounded midpoint. -/
theorem closestInterval_ne_iff {m d : ℚ} (hm : 0 < m) (hle : m ≤ ⌈d / (200 * m)⌉ * m) :
    closestInterval (⌈d / (200 * m)⌉ * m) m ≠ m ↔
      ∃ b ∈ defaultIntervals, m < b ∧ roundedMidpoint m m b < d / 200 := by
  obtain ⟨hmem, hlow, hhigh⟩ := closestInterval_between hm hle
  obtain ⟨hcand, hmle⟩ := mem_availableIntervals.1 hmem
  constructor
  · intro hne
    exact ⟨_, (List.mem_cons.1 hcand).resolve_left hne, lt_of_le_of_ne hmle hne.symm,
      hlow m (mem_availableIntervals.2 ⟨List.mem_cons_self, le_rfl⟩)
        (lt_of_le_of_ne hmle hne.symm)⟩
  · rintro ⟨b, hb, hmb, hlt⟩ heq
    have hbm := mem_availableIntervals.2 ⟨List.mem_cons_of_mem m hb, hmb.le⟩
    have h := hhigh b hbm (by rw [heq]; exact hmb)
    rw [heq] at h
    exact absurd hlt (not_lt.2 h)

theorem offered_of_pos {now : ℤ} {j : JobMetadata} {m : ℤ} (hm : 1 ≤ m)
    (hd : 0 < j.duration now) :
    (Go.seconds (j.calculateSampleIntervals now (m * Go.second)).2 ∈
        (j.calculateSampleIntervals now (m * Go.second)).1 ↔
        (m : ℚ) ∈ defaultIntervals ∨ ∃ b ∈ defaultIntervals, m < b ∧
          roundedMidpoint m m b < (j.duration now : ℚ) / 200) ∧
      ((m : ℚ) ∈ (j.calculateSampleIntervals now (m * Go.second)).1 ↔
        (m : ℚ) ∈ defaultIntervals) := by
  have hm' : (0 : ℚ) < m := by exact_mod_cast hm
  have hle := le_wantedInterval hm hd
  obtain ⟨hmem, -, -⟩ := closestInterval_between hm' hle
  obtain ⟨hcand, hmle⟩ := mem_availableIntervals.1 hmem
  rw [mem_offered_iff, mem_offered_iff, seconds_calculateSampleIntervals,
    ← closestInterval_ne_iff hm' hle]
  refine ⟨⟨fun h => ?_, fun h => ⟨?_, hmle, le_rfl⟩⟩, ⟨fun h => h.1, fun h => ⟨h, le_rfl, hmle⟩⟩⟩
  · by_cases heq : closestInterval (⌈(j.duration now : ℚ) / (200 * m)⌉ * m) m = m
    · exact .inl (heq ▸ h.1)
    · exact .inr heq
  · rcases List.mem_cons.1 hcand with heq | hdef
    · rw [heq]
      exact h.resolve_right (not_not_intro heq)
    · exact hdef

/-! ## What `GetJob` answers -/

/-- What a request that names no interval is answered. -/
theorem getJob_intervals {env : Environment} {b : Backend} {user : UserInfo}
    {req : GetJobRequest} {id : ℤ} {j : JobMetadata} {data : JobData}
    (hid : Go.atoi req.id = .ok id) (hj : b.store.getJob id = some j)
    (hquery : req.sampleInterval = "") (h : (getJob env b user req).1 = .ok (.jobData data)) :
    data.sampleInterval = Go.seconds (j.calculateSampleIntervals env.now b.sampleInterval).2 ∧
      data.sampleIntervals = (j.calculateSampleIntervals env.now b.sampleInterval).1 := by
  simp only [getJob, getJobCall, hid, hj] at h
  split at h
  · rename_i response hresponse
    split at hresponse
    · cases hresponse
      cases h
    · split at hresponse
      · cases hresponse
        cases h
      · cases hresponse
  · rename_i call hcall
    split at hcall
    · cases hcall
    · split at hcall
      · cases hcall
      · cases hcall
        simp only [JobDataCall.answer, chosenInterval, hquery, if_true] at h
        split at h
        · cases h
        · cases h
        · cases h
          exact ⟨rfl, rfl⟩

/-- The job has started, as far as the clock matters for its duration. -/
def JobMetadata.HasStarted (now : ℤ) (j : JobMetadata) : Prop :=
  j.isRunning = true → j.startTime < now

theorem JobMetadata.duration_pos_iff {now : ℤ} {j : JobMetadata}
    (hlt : j.startTime < j.stopTime) : 0 < j.duration now ↔ j.HasStarted now := by
  rw [duration, HasStarted]
  cases hrun : j.isRunning with
  | false =>
    rw [if_neg Bool.false_ne_true]
    exact ⟨fun _ h => absurd h Bool.false_ne_true, fun _ => by omega⟩
  | true =>
    rw [if_pos rfl]
    exact ⟨fun h _ => by omega, fun h => by have := h rfl; omega⟩

/-- **When the selector works**: the configured interval is a built-in one.  That the
interval in use is shown takes less for a long job, where a built-in one is chosen. -/
theorem getJob_selectable_iff {m : ℤ} (hm : 1 ≤ m) {env : Environment} {b : Backend}
    (hb : b.sampleInterval = m * Go.second) {user : UserInfo} {req : GetJobRequest} {id : ℤ}
    {j : JobMetadata} {data : JobData} (hid : Go.atoi req.id = .ok id)
    (hj : b.store.getJob id = some j) (hlt : j.startTime < j.stopTime)
    (hquery : req.sampleInterval = "") (h : (getJob env b user req).1 = .ok (.jobData data)) :
    (data.Selectable m ↔ (m : ℚ) ∈ defaultIntervals ∧ (j.HasStarted env.now ∨ m = 30)) ∧
      (data.ShowsInterval ↔ m = 30 ∨ j.HasStarted env.now ∧
        ((m : ℚ) ∈ defaultIntervals ∨ ∃ v ∈ defaultIntervals, m < v ∧
          roundedMidpoint m m v < (j.duration env.now : ℚ) / 200)) := by
  obtain ⟨hinterval, hintervals⟩ := getJob_intervals hid hj hquery h
  rw [JobData.Selectable, JobData.ShowsInterval, hinterval, hintervals, hb,
    ← JobMetadata.duration_pos_iff hlt]
  have h30 : m = 30 → (m : ℚ) ∈ defaultIntervals := by
    rintro rfl
    exact List.mem_cons_self
  by_cases hd : 0 < j.duration env.now
  · obtain ⟨hshows, hoffers⟩ := offered_of_pos hm hd
    rw [hshows, hoffers]
    exact ⟨⟨fun h => ⟨h.2, .inl hd⟩, fun h => ⟨.inl h.1, h.1⟩⟩,
      ⟨fun h => .inr ⟨hd, h⟩, fun h => h.elim (fun h => .inl (h30 h)) fun h => h.2⟩⟩
  · obtain ⟨hshows, hoffers⟩ := offered_of_nonpos hm (not_lt.1 hd)
    rw [hshows, hoffers]
    exact ⟨⟨fun h => ⟨h30 h.1, .inr h.1⟩, fun h => ⟨h.2.resolve_left hd, h.2.resolve_left hd⟩⟩,
      ⟨.inl, fun h => h.resolve_right fun h => hd h.1⟩⟩

/-! ## A configured interval that is not built in -/

/-- A backend with one finished job, of a thousand seconds. -/
def finishedJobBackend (interval : String) : Backend :=
  { config := { sampleInterval := interval }
    store := { jobMetadata := ⟨[{ id := 1, stopTime := 1000 }], List.pairwise_singleton _ _⟩ } }

/-- There are no data points. -/
def noDataEnvironment : Environment :=
  { api := { query := fun _ => .error (.error ""), queryRaw := fun _ => .error (.error "") }
    now := 0 }

/-- The answer to an administrator that asks for the job. -/
def answerFinishedJob (interval : String) : Response :=
  (getJob noDataEnvironment (finishedJobBackend interval) { roles := [ADMIN] }
    { id := "1", raw := true }).1

theorem exists_answerFinishedJob (interval : String) :
    ∃ data, answerFinishedJob interval = .ok (.jobData data) :=
  ⟨_, rfl⟩

theorem getJob_selectable_minute :
    ∃ data, answerFinishedJob "60s" = .ok (.jobData data) ∧ data.Selectable 60 := by
  obtain ⟨data, hdata⟩ := exists_answerFinishedJob "60s"
  have hid : Go.atoi "1" = .ok 1 := by decide
  have hj : (finishedJobBackend "60s").store.getJob 1 = some { id := 1, stopTime := 1000 } := by
    decide +kernel
  refine ⟨data, hdata, (getJob_selectable_iff (m := 60) (by decide) (by decide +kernel) hid hj
    (by decide) rfl hdata).1.2 ⟨?_, .inl ?_⟩⟩
  · decide +kernel
  · rintro ⟨⟩

/-- With ten seconds configured a job of a thousand seconds is displayed in intervals of
ten seconds, and none is offered. -/
theorem getJob_not_selectable :
    ¬∀ (m : ℤ) (env : Environment) (b : Backend) (user : UserInfo) (req : GetJobRequest)
      (id : ℤ) (j : JobMetadata) (data : JobData), 1 ≤ m → b.sampleInterval = m * Go.second →
      Go.atoi req.id = .ok id → b.store.getJob id = some j → j.startTime < j.stopTime →
      req.sampleInterval = "" → (getJob env b user req).1 = .ok (.jobData data) →
      data.ShowsInterval := by
  intro h
  obtain ⟨data, hdata⟩ := exists_answerFinishedJob "10s"
  have hid : Go.atoi "1" = .ok 1 := by decide
  have hj : (finishedJobBackend "10s").store.getJob 1 = some { id := 1, stopTime := 1000 } := by
    decide +kernel
  have hshows := h 10 _ _ _ _ 1 _ data (by decide) (by decide +kernel) hid hj (by decide) rfl hdata
  have hnone : data.sampleIntervals = [] := by
    rw [(getJob_intervals hid hj rfl hdata).2]
    decide +kernel
  rw [JobData.ShowsInterval, hnone] at hshows
  cases hshows

end JobMon
