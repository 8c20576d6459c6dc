import Mathlib.Tactic.Linarith
import Mathlib.Tactic.NormNum
import JobMon.Job.SampleIntervals
import JobMon.Router.System

/-!
# Configurations the backend can work with

`Init` accepts any cache size and any text for the sample interval.

* `IntervalCall`, `CacheOp` — the calls of `CalculateSampleIntervals` and the
  operations on the cache that requests and goroutines make.
* `calculateSampleIntervals_pos` — with a sample interval of a second or more the
  result is a positive duration, for every job.
* `KeepsSettings` — the settings in question survive every step.
* `operable_iff` — what it takes for all calls to go well.
* `accepted_operable_iff` — which of the files `Init` accepts are such configurations.
-/

namespace JobMon

open Keyed Runs

/-! ## The calls -/

/-- `CalculateSampleIntervals` is called at time `now` on the record `j` with the
sample interval `d`. -/
inductive IntervalCall (s : System) : ℤ → JobMetadata → Go.Duration → Prop
  /-- `GetJob`, and `GetMetric` likewise. -/
  | getJob {now : ℤ} {user : UserInfo} {req : GetJobRequest} {call : JobDataCall}
      (h : getJobCall now s.backend user req = .ok call) :
      IntervalCall s now call.job s.backend.sampleInterval
  | getMetric {now : ℤ} {user : UserInfo} {strId : String} {id : ℤ} {j : JobMetadata}
      (hid : Go.atoi strId = .ok id) (hj : s.backend.store.getJob id = some j)
      (haccess : mayAccess user j = true) : IntervalCall s now j s.backend.sampleInterval
  /-- The prefetch that `JobStop` has started. -/
  | jobStop {now id : ℤ} {j : JobMetadata} (hid : id ∈ s.prefetches)
      (hj : s.backend.store.getJob id = some j) : IntervalCall s now j s.backend.sampleInterval
  /-- A message on a connection that was opened in some state of the backend. -/
  | liveMonitoring {now startTime stopTime : ℤ} {b : Backend} {user : UserInfo} {strId : String}
      {conn : LiveConnection} (hconn : (liveMonitoring b user strId).2 = some conn) :
      IntervalCall s now (loadMetricsRecord conn.job startTime stopTime) s.backend.sampleInterval
  /-- `GetJobMetadataMetrics` gets as far as that. -/
  | metadataMetrics {now : ℤ} {j : JobMetadata} {d : Go.Duration} (hrun : j.isRunning = false)
      (hlt : j.startTime < j.stopTime)
      (hd : Go.parseDuration s.backend.db.defaultSampleInterval = some d) : IntervalCall s now j d

/-- The operations on the cache. -/
inductive CacheOp (b : Backend) : LRUCache.Op → Prop
  | getJob {env : Environment} {user : UserInfo} {req : GetJobRequest} {call : JobDataCall}
      (h : getJobCall env.now b user req = .ok call) (hcache : call.throughCache = true) :
      CacheOp b (.get (InfluxDB.toDB env b.db) call.record call.sampleInterval)
  | jobStop {env : Environment} {id : ℤ} {j : JobMetadata} (hj : b.store.getJob id = some j) :
      CacheOp b (.get (InfluxDB.toDB env b.db) j (b.bestInterval env.now j))
  /-- `AddTag` and `RemoveTag`. -/
  | retag (store : Store) (id : ℤ) : CacheOp b (.updateJob store.getJob id)

/-- The operation removes an element from an empty list. -/
def LRUCache.Op.RemovesFromEmpty (c : LRUCache) : LRUCache.Op → Prop
  | .get db j d => (c.find j.id).1 = none ∧
      ∃ data, db.getJobData j (LRUCache.nodesOf j) d false = .ok data ∧
        (c.find j.id).2.put { id := j.id, data } = none
  | .updateJob getJob id => ∃ data job, (c.find id).1 = some data ∧ getJob id = some job ∧
      ((c.find id).2.list = [] ∨
        { (c.find id).2 with list := (c.find id).2.list.tail }.put
          { id := job.id, data := { data with metadata := job } } = none)

/-- With this configuration, in every state that requests and goroutines lead to:
no operation on the cache removes an element from an empty list, and every sample
interval that is calculated for a job that does not stop before it starts is got
without a division by zero, and is positive. -/
def Configuration.Operable (c : Configuration) : Prop :=
  ∀ store events t, Run (StepOf System.step) (System.start c store) events t →
    (∀ op, CacheOp t.backend op → ¬op.RemovesFromEmpty t.backend.jobCache) ∧
    ∀ now j d, IntervalCall t now j d → j.startTime ≤ j.stopTime →
      d ≠ 0 ∧ 0 < (j.calculateSampleIntervals now d).2

/-! ## Calculating the interval -/

/-- **With a second or more, every interval is positive.** -/
theorem calculateSampleIntervals_pos (now : ℤ) (j : JobMetadata) {d : Go.Duration}
    (h : Go.second ≤ d) : 0 < (j.calculateSampleIntervals now d).2 := by
  have hbest : 1 ≤ closestInterval (wantedInterval now j d) (Go.seconds d) :=
    closestInterval_of_forall _ (one_le_seconds_iff.2 h)
      fun v hv => le_trans (by norm_num) (thirty_le_of_mem hv)
  rw [calculateSampleIntervals_snd]
  exact mul_pos (lt_of_lt_of_le Int.one_pos (one_le_truncate hbest)) (by decide)

/-- With less, the interval of a job that stops when it starts is not. -/
theorem calculateSampleIntervals_of_empty {now : ℤ} {j : JobMetadata} (hrun : j.isRunning = false)
    (hempty : j.stopTime = j.startTime) {d : Go.Duration} (hlow : -30 ≤ Go.seconds d)
    (hhigh : Go.seconds d < 1) : (j.calculateSampleIntervals now d).2 ≤ 0 := by
  have hwanted : wantedInterval now j d = 0 := by
    rw [wantedInterval, if_neg (by simp [hrun]), hempty, sub_self, zero_div, zero_div]
    rw [show (Rat.ceil 0 : ℤ) = 0 by decide +kernel]
    simp
  have hclosest : closestInterval 0 (Go.seconds d) = Go.seconds d := by
    refine closestInterval_of_near ?_
    intro v hv
    have hv30 := thirty_le_of_mem hv
    rw [sub_zero, sub_zero, abs_of_nonneg (by linarith : 0 ≤ v)]
    exact abs_le.2 ⟨by linarith, by linarith⟩
  rw [calculateSampleIntervals_snd, hwanted, hclosest]
  exact mul_nonpos_of_nonpos_of_nonneg (truncate_nonpos hhigh) (by decide)

/-- And less than minus half a minute fails for a running job that has not started
yet. -/
theorem calculateSampleIntervals_of_early {j : JobMetadata} (hrun : j.isRunning = true)
    (hstart : j.startTime = 1) {d : Go.Duration} (hd : Go.seconds d < -30) :
    (j.calculateSampleIntervals 0 d).2 ≤ 0 := by
  have hceil :
      ((((0 : ℤ) - (1 : ℤ) : ℚ) / Go.seconds d) / DEFAULT_MAX_POINTS_PER_JOB).ceil = 1 := by
    have hx : (((0 : ℤ) - (1 : ℤ) : ℚ) / Go.seconds d) / DEFAULT_MAX_POINTS_PER_JOB =
        1 / (-Go.seconds d * 200) := by
      rw [DEFAULT_MAX_POINTS_PER_JOB, div_div, neg_mul, div_neg]
      push_cast
      rw [zero_sub, neg_div]
    have hpos : 0 < -Go.seconds d * 200 := by linarith
    have hlow : 0 < (1 / (-Go.seconds d * 200)).ceil := by
      rw [Rat.lt_ceil_iff]
      push_cast
      exact div_pos one_pos hpos
    have hhigh : (1 / (-Go.seconds d * 200)).ceil ≤ 1 := by
      rw [Rat.ceil_le_iff, div_le_iff₀ hpos]
      push_cast
      linarith
    rw [hx]
    omega
  have hwanted : wantedInterval 0 j d = Go.seconds d := by
    rw [wantedInterval, if_pos hrun, hstart, hceil]
    simp
  have hclosest : closestInterval (Go.seconds d) (Go.seconds d) = Go.seconds d := by
    refine closestInterval_of_near ?_
    intro v _
    rw [sub_self, abs_zero]
    exact abs_nonneg _
  rw [calculateSampleIntervals_snd, hwanted, hclosest]
  exact mul_nonpos_of_nonpos_of_nonneg (truncate_nonpos (by linarith)) (by decide)

/-! ## What does not change -/

/-- The settings that matter are those of the configuration the backend started with. -/
structure Backend.KeepsSettings (c : Configuration) (b : Backend) : Prop where
  config : b.config.sampleInterval = c.sampleInterval
  db : b.db.defaultSampleInterval = c.sampleInterval
  cache : b.jobCache.size = c.cacheSize

namespace LRUCache

theorem size_find (c : LRUCache) (id : ℤ) : (c.find id).2.size = c.size := by
  unfold find
  split
  · rfl
  · rfl

theorem put_eq_none_iff {c : LRUCache} {data : Item} :
    c.put data = none ↔ c.list = [] ∧ c.size ≤ 0 := by
  unfold put
  split
  · rename_i hfull
    split
    · rename_i hnil
      rw [hnil] at hfull
      exact iff_of_true rfl ⟨hnil, by simpa using hfull⟩
    · rename_i hne
      exact iff_of_false (by simp) fun h => hne h.1
  · rename_i hroom
    refine iff_of_false (by simp) ?_
    rintro ⟨hnil, hsize⟩
    rw [hnil] at hroom
    exact hroom (by simpa using hsize)

theorem size_put {c c' : LRUCache} {data : Item} (h : c.put data = some c') :
    c'.size = c.size := by
  unfold put at h
  split at h
  · split at h
    · cases h
    · cases h
      rfl
  · cases h
    rfl

theorem size_get_eq (db : DB) (c : LRUCache) (j : JobMetadata) (d : Go.Duration) :
    (c.get db j d).2.size = c.size := by
  have hfind := size_find c j.id
  unfold get
  split
  · rename_i heq
    rwa [heq] at hfind
  · rename_i heq
    rw [heq] at hfind
    split
    · exact hfind
    · split
      · rename_i hput
        exact (size_put hput).trans hfind
      · exact hfind

theorem size_updateJob_eq (getJob : ℤ → Option JobMetadata) (c : LRUCache) (id : ℤ) :
    (c.updateJob getJob id).2.size = c.size := by
  have hfind := size_find c id
  unfold updateJob
  split
  · rename_i heq
    rwa [heq] at hfind
  · rename_i heq
    rw [heq] at hfind
    split
    · exact hfind
    · split
      · rename_i hput
        exact (size_put hput).trans hfind
      · exact hfind

/-- With room for an element nothing is removed from an empty list. -/
theorem Op.not_removesFromEmpty {c : LRUCache} (h : 1 ≤ c.size) (op : Op) :
    ¬op.RemovesFromEmpty c := by
  cases op with
  | get db j d =>
    rintro ⟨-, data, -, hput⟩
    have hsize := (put_eq_none_iff.1 hput).2
    rw [size_find] at hsize
    omega
  | updateJob getJob id =>
    rintro ⟨data, job, hdata, -, hnil | hput⟩
    · unfold find at hdata hnil
      split at hdata
      · rename_i hfind
        rw [hfind] at hnil
        cases hnil
      · cases hdata
    · have hsize : (c.find id).2.size ≤ 0 := (put_eq_none_iff.1 hput).2
      rw [size_find] at hsize
      omega

end LRUCache

section Settings

variable {c : Configuration} {b b' : Backend} {env : Environment} {s s' t : System} {e : Event}
  {events : List Event}

theorem keepsSettings_effect (hb : b.KeepsSettings c) (h : Effect env b b') :
    b'.KeepsSettings c := by
  cases h with
  | quiet hjobs htags hlinks => exact ⟨hb.config, hb.db, hb.cache⟩
  | put hput => exact ⟨hb.config, hb.db, hb.cache⟩
  | write hget hid hstart htags hrun => exact ⟨hb.config, hb.db, hb.cache⟩
  | tag hjobs hlinks hothers =>
    exact ⟨hb.config, hb.db, (LRUCache.size_updateJob_eq _ _ _).trans hb.cache⟩
  | configure newUUID conf => exact ⟨hb.config, hb.config, hb.cache⟩
  | fill hget hrun => exact ⟨hb.config, hb.db, (LRUCache.size_get_eq _ _ _ _).trans hb.cache⟩

theorem keepsSettings_step (hs : s.backend.KeepsSettings c) (h : s.step e = some s') :
    s'.backend.KeepsSettings c := by
  cases e with
  | request out user req =>
    rw [System.step_request h]
    exact keepsSettings_effect hs (effect_of_serve out user req)
  | runStop i env calls =>
    obtain ⟨task, outcome, backend, -, hrun, rfl⟩ := System.step_runStop h
    exact keepsSettings_effect hs (effect_of_runStop hrun)
  | runPrefetch i env =>
    obtain ⟨id, backend, -, hrun, rfl⟩ := System.step_runPrefetch h
    rcases runPrefetch_cases hrun with ⟨-, rfl⟩ | ⟨j, -, rfl, -⟩
    · exact hs
    · exact ⟨hs.config, hs.db, (LRUCache.size_get_eq _ _ _ _).trans hs.cache⟩

/-- **No run changes the settings**, an update of the configuration included. -/
theorem keepsSettings_of_run {store : Store}
    (h : Run (StepOf System.step) (System.start c store) events t) :
    t.backend.KeepsSettings c :=
  h.invariant ⟨rfl, rfl, rfl⟩ fun _ _ _ hs hstep => keepsSettings_step hs hstep

/-- The interval every call is made with. -/
theorem IntervalCall.interval_eq {now : ℤ} {j : JobMetadata} {d d₀ : Go.Duration}
    (hs : s.backend.KeepsSettings c) (hd₀ : Go.parseDuration c.sampleInterval = some d₀)
    (h : IntervalCall s now j d) : d = d₀ := by
  have hconfig : s.backend.sampleInterval = d₀ := by
    rw [Backend.sampleInterval, hs.config, hd₀]
    rfl
  cases h with
  | getJob hcall => exact hconfig
  | getMetric hid hj haccess => exact hconfig
  | jobStop hid hj => exact hconfig
  | liveMonitoring hconn => exact hconfig
  | metadataMetrics hrun hlt hd =>
    rw [hs.db, hd₀] at hd
    exact (Option.some.inj hd).symm

end Settings

/-! ## When something goes wrong -/

/-- All queries are answered with an error. -/
def refusingEnvironment : Environment :=
  { api := { query := fun _ => .error (.error ""), queryRaw := fun _ => .error (.error "") }
    now := 0 }

/-- The goroutines that fail leave nothing behind, and `GetJobData` goes through. -/
theorem getJobDataOf_refusing (db : InfluxDB) (j : JobMetadata) (nodes : String)
    (d : Go.Duration) :
    ∃ data, InfluxDB.getJobDataOf refusingEnvironment db j nodes d false = .ok data := by
  refine ⟨_, bind_eq_ok_iff.2 ⟨_, InfluxDB.collect_eq_ok_iff.2 ⟨?_, rfl⟩,
    bind_eq_ok_iff.2 ⟨_, InfluxDB.collect_eq_ok_iff.2 ⟨?_, rfl⟩, rfl⟩⟩⟩
  · exact fun _ _ => rfl
  · exact fun _ _ => rfl

/-- A job that has ended in the second it started in. -/
def instantJob : JobMetadata := { id := 1, startTime := 1, stopTime := 1 }

/-- A running job whose start is ahead of the clock. -/
def earlyJob : JobMetadata := { id := 1, startTime := 1, stopTime := 1, isRunning := true }

def admin : UserInfo := { username := "admin", roles := [ADMIN] }

/-- A store with one job. -/
def storeOf (j : JobMetadata) : Store :=
  { jobMetadata := ⟨[j], List.pairwise_singleton _ _⟩ }

/-- Without room the first finished job that is read through the cache removes an element from
an empty list. -/
theorem removesFromEmpty_of_no_room {c : Configuration} (hsize : c.cacheSize ≤ 0) :
    ∃ op, CacheOp (Backend.start c (storeOf instantJob)) op ∧
      op.RemovesFromEmpty (LRUCache.init c) := by
  obtain ⟨call, hcall, hcache⟩ : ∃ call, getJobCall refusingEnvironment.now
      (Backend.start c (storeOf instantJob)) admin { id := "1" } = .ok call ∧
      call.throughCache = true := ⟨_, rfl, rfl⟩
  obtain ⟨data, hdata⟩ := getJobDataOf_refusing (InfluxDB.init c) call.record
    (LRUCache.nodesOf call.record) call.sampleInterval
  exact ⟨_, CacheOp.getJob hcall hcache, rfl, data, hdata, LRUCache.put_eq_none_iff.2 ⟨rfl, hsize⟩⟩

/-- And with a sample interval of less than a second there is a job with a bad
interval. -/
theorem bad_interval_of_short {c : Configuration}
    (h : Backend.sampleInterval (Backend.start c {}) < Go.second) :
    ∃ store j, IntervalCall (System.start c store) 0 j (Backend.start c {}).sampleInterval ∧
      j.startTime ≤ j.stopTime ∧
        (j.calculateSampleIntervals 0 (Backend.start c {}).sampleInterval).2 ≤ 0 := by
  have hshort : Go.seconds (Backend.start c {}).sampleInterval < 1 :=
    not_le.1 fun hlong => not_le.2 h (one_le_seconds_iff.1 hlong)
  have hcall : ∀ j : JobMetadata, j.id = 1 → (storeOf j).getJob 1 = some j →
      IntervalCall (System.start c (storeOf j)) 0 j (Backend.start c {}).sampleInterval :=
    fun j hid hj => @IntervalCall.getMetric _ _ admin "1" 1 _ (by decide) hj rfl
  by_cases hlow : -30 ≤ Go.seconds (Backend.start c {}).sampleInterval
  · exact ⟨storeOf instantJob, instantJob, hcall instantJob rfl rfl, le_refl _,
      calculateSampleIntervals_of_empty rfl rfl hlow hshort⟩
  · exact ⟨storeOf earlyJob, earlyJob, hcall earlyJob rfl rfl, le_refl _,
      calculateSampleIntervals_of_early rfl rfl (not_le.1 hlow)⟩

/-- **Which configurations are operable.**  Those with room for a job in the cache and
a sample interval of a second or more. -/
theorem operable_iff (c : Configuration) :
    c.Operable ↔ 1 ≤ c.cacheSize ∧
      ∃ d, Go.parseDuration c.sampleInterval = some d ∧ Go.second ≤ d := by
  constructor
  · intro h
    constructor
    · by_contra hsize
      obtain ⟨op, hop, hremoves⟩ := removesFromEmpty_of_no_room (c := c) (by omega)
      exact (h _ [] _ .nil).1 op hop hremoves
    · have hlong : Go.second ≤ (Backend.start c {}).sampleInterval := by
        by_contra hshort
        obtain ⟨store, j, hcall, hle, hbad⟩ := bad_interval_of_short (not_le.1 hshort)
        exact not_le.2 ((h store [] _ .nil).2 0 j _ hcall hle).2 hbad
      cases hd : Go.parseDuration c.sampleInterval with
      | none =>
        rw [Backend.sampleInterval, show (Backend.start c {}).config = c from rfl, hd] at hlong
        exact absurd hlong (by decide)
      | some d =>
        rw [Backend.sampleInterval, show (Backend.start c {}).config = c from rfl, hd] at hlong
        exact ⟨d, rfl, hlong⟩
  · rintro ⟨hsize, d₀, hd₀, hlong⟩ store events t hrun
    have hkeeps := keepsSettings_of_run hrun
    refine ⟨fun op _ => LRUCache.Op.not_removesFromEmpty (hkeeps.cache ▸ hsize) op, ?_⟩
    intro now j d hcall _
    rw [hcall.interval_eq hkeeps hd₀]
    refine ⟨?_, calculateSampleIntervals_pos now j hlong⟩
    rintro rfl
    exact absurd hlong (by decide)

/-- **Accepted files.**  `Init` takes the cache size and the sample interval over as
they are. -/
theorem accepted_operable_iff {newUUID : ℕ → String} {cli : CLIConfig} {f : ConfigFile}
    {c : Configuration} (h : Configuration.init newUUID cli f = .ok c) :
    c.Operable ↔ 1 ≤ f.cacheSize ∧
      ∃ d, Go.parseDuration f.sampleInterval = some d ∧ Go.second ≤ d := by
  obtain ⟨j, a, -, -, -, rfl⟩ := Configuration.init_eq_ok_iff.1 h
  exact operable_iff _

/-- What `Init` makes of the file, with a given cache size and sample interval in it. -/
def startableConfiguration (cacheSize : ℤ) (sampleInterval : String) : Configuration :=
  .ofBody { Configuration.startableFile.toConfigBody with cacheSize, sampleInterval }

/-- A file without the two settings: it is accepted and the backend starts with it, but an
administrator who looks at a finished job ends the process. -/
theorem bare_file_not_operable :
    Configuration.init (fun _ => "u") {} Configuration.startableFile =
        .ok (startableConfiguration 0 "") ∧
      Configuration.Startable (startableConfiguration 0 "").toConfigBody ∧
      ¬ (startableConfiguration 0 "").Operable ∧
      (getJob refusingEnvironment
        (Backend.start (startableConfiguration 0 "") (storeOf instantJob)) admin
        { id := "1" }).1 = .crash := by
  refine ⟨by decide +kernel, by decide, ?_, by rfl⟩
  intro h
  have hsize := ((operable_iff _).1 h).1
  exact absurd hsize (by decide)

theorem accepted_operable_smallFile :
    (startableConfiguration 1 "30s").Operable ↔
      1 ≤ (1 : ℤ) ∧ ∃ d, Go.parseDuration "30s" = some d ∧ Go.second ≤ d :=
  @accepted_operable_iff (fun _ => "u") {}
    { Configuration.startableFile with
      cacheSize := 1
      sampleInterval := "30s" } _ (by decide +kernel)

end JobMon
