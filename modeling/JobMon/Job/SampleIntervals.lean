import Mathlib.Data.Rat.Floor
import Mathlib.Tactic.NormNum
import JobMon.Job.Types
import JobMon.Lib.Nearest

/-!
# The choice of a sample interval

What `CalculateSampleIntervals` computes.

* `wantedInterval`, `closestInterval` — its two halves: the interval that would give
  the wanted number of points, and the available one that comes closest to it.
* `isLeast_closestInterval` — the second is the smallest nearest value.
* `calculateSampleIntervals_sound` — bounds of the choice, its monotony, and the list
  that is offered.
* `closestSamples_iff` — when the choice is also the one whose number of samples comes
  closest to the wanted number: rounding the interval up moves it past a midpoint too
  early or too late.
-/

namespace JobMon

open Nearest

/-! ## Calculating the interval -/

/-- The interval that gives the wanted number of points. -/
def wantedInterval (now : ℤ) (j : JobMetadata) (d : Go.Duration) : ℚ :=
  (((((if j.isRunning then now else j.stopTime : ℤ) - j.startTime : ℚ) / Go.seconds d) /
    DEFAULT_MAX_POINTS_PER_JOB).ceil : ℚ) * Go.seconds d

/-- The interval on offer that comes closest to the wanted one. -/
def closestInterval (wanted secs : ℚ) : ℚ :=
  defaultIntervals.foldl
    (fun best v => if |v - wanted| < |best - wanted| then v else best) secs

theorem calculateSampleIntervals_snd (now : ℤ) (j : JobMetadata) (d : Go.Duration) :
    (j.calculateSampleIntervals now d).2 =
      truncate (closestInterval (wantedInterval now j d) (Go.seconds d)) * Go.second := rfl

/-- The closest interval is one of those there are. -/
theorem closestInterval_of_forall {P : ℚ → Prop} {secs : ℚ} (wanted : ℚ) (hsecs : P secs)
    (hall : ∀ v ∈ defaultIntervals, P v) : P (closestInterval wanted secs) := by
  have hfold : ∀ (vs : List ℚ) (best : ℚ), P best → (∀ v ∈ vs, P v) →
      P (vs.foldl (fun b v => if |v - wanted| < |b - wanted| then v else b) best) := by
    intro vs
    induction vs with
    | nil => exact fun best hbest _ => hbest
    | cons v vs ih =>
      intro best hbest hvs
      rw [List.foldl_cons]
      refine ih _ ?_ fun v' hv' => hvs v' (List.mem_cons_of_mem _ hv')
      split
      · exact hvs v List.mem_cons_self
      · exact hbest
  exact hfold defaultIntervals secs hsecs hall

/-- The sample interval itself, when nothing comes closer. -/
theorem closestInterval_of_near {wanted secs : ℚ}
    (h : ∀ v ∈ defaultIntervals, |secs - wanted| ≤ |v - wanted|) :
    closestInterval wanted secs = secs := by
  have hfold : ∀ vs : List ℚ, (∀ v ∈ vs, |secs - wanted| ≤ |v - wanted|) →
      vs.foldl (fun b v => if |v - wanted| < |b - wanted| then v else b) secs = secs := by
    intro vs
    induction vs with
    | nil => exact fun _ => rfl
    | cons v vs ih =>
      intro hvs
      rw [List.foldl_cons, if_neg (not_lt.2 (hvs v List.mem_cons_self))]
      exact ih fun v' hv' => hvs v' (List.mem_cons_of_mem _ hv')
  exact hfold defaultIntervals h

theorem thirty_le_of_mem {v : ℚ} (h : v ∈ defaultIntervals) : 30 ≤ v := by
  simp only [defaultIntervals, List.mem_cons, List.not_mem_nil, or_false] at h
  rcases h with rfl | rfl | rfl | rfl | rfl | rfl <;> norm_num

theorem one_le_truncate {q : ℚ} (h : 1 ≤ q) : 1 ≤ truncate q := by
  rw [truncate, if_pos (by linarith), Rat.le_floor_iff]
  exact_mod_cast h

theorem truncate_nonpos {q : ℚ} (h : q < 1) : truncate q ≤ 0 := by
  rw [truncate]
  split
  · have hfloor : q.floor < 1 := Rat.floor_lt_iff.2 (by exact_mod_cast h)
    omega
  · rename_i hneg
    refine Rat.ceil_le_iff.2 ?_
    push_cast
    linarith

theorem one_le_seconds_iff {d : Go.Duration} : 1 ≤ Go.seconds d ↔ Go.second ≤ d := by
  rw [Go.seconds, le_div_iff₀ (by norm_num), one_mul, Go.second]
  constructor
  · intro h
    exact_mod_cast h
  · intro h
    exact_mod_cast h

/-! ## Whole seconds -/

theorem seconds_wholeSeconds (m : ℤ) : Go.seconds (m * Go.second) = m := by
  rw [Go.seconds, Go.second]
  push_cast
  ring

theorem truncate_intCast (n : ℤ) : truncate n = n := by
  rw [truncate]
  split
  · exact Rat.floor_intCast n
  · exact Rat.ceil_intCast n

/-- How long the job has run. -/
def JobMetadata.duration (now : ℤ) (j : JobMetadata) : ℤ :=
  (if j.isRunning then now else j.stopTime) - j.startTime

theorem JobMetadata.duration_of_stopped {j : JobMetadata} (h : j.isRunning = false) (now : ℤ) :
    j.duration now = j.stopTime - j.startTime := by
  rw [duration, if_neg (by simp [h])]

theorem ceil_eq_intCeil (q : ℚ) : q.ceil = ⌈q⌉ :=
  eq_of_forall_ge_iff fun z => by rw [Rat.ceil_le_iff, Int.ceil_le]

theorem wantedInterval_wholeSeconds (now : ℤ) (j : JobMetadata) (m : ℤ) :
    wantedInterval now j (m * Go.second) = ⌈(j.duration now : ℚ) / (200 * m)⌉ * m := by
  rw [wantedInterval, seconds_wholeSeconds, ceil_eq_intCeil, DEFAULT_MAX_POINTS_PER_JOB, div_div,
    mul_comm (m : ℚ) 200, JobMetadata.duration]
  push_cast
  rfl

/-- The wanted interval of a job that has run is at least the configured one. -/
theorem le_wantedInterval {now : ℤ} {j : JobMetadata} {m : ℤ} (hm : 1 ≤ m)
    (hd : 0 < j.duration now) : (m : ℚ) ≤ ⌈(j.duration now : ℚ) / (200 * m)⌉ * m := by
  have hm' : (0 : ℚ) < m := by exact_mod_cast hm
  have hd' : (0 : ℚ) < j.duration now := by exact_mod_cast hd
  have hceil : (1 : ℤ) ≤ ⌈(j.duration now : ℚ) / (200 * m)⌉ := Int.one_le_ceil_iff.2 (by positivity)
  have hceil' : (1 : ℚ) ≤ ⌈(j.duration now : ℚ) / (200 * m)⌉ := by exact_mod_cast hceil
  exact le_mul_of_one_le_left hm'.le hceil'

/-- The interval that is chosen is a whole number of seconds. -/
theorem exists_closestInterval_eq (m : ℤ) (wanted : ℚ) :
    ∃ n : ℤ, closestInterval wanted m = n := by
  refine closestInterval_of_forall (P := fun q => ∃ n : ℤ, q = n) wanted ⟨m, rfl⟩ ?_
  intro v hv
  simp only [defaultIntervals, List.mem_cons, List.not_mem_nil, or_false] at hv
  rcases hv with rfl | rfl | rfl | rfl | rfl | rfl
  · exact ⟨30, by norm_num⟩
  · exact ⟨60, by norm_num⟩
  · exact ⟨120, by norm_num⟩
  · exact ⟨300, by norm_num⟩
  · exact ⟨600, by norm_num⟩
  · exact ⟨1800, by norm_num⟩

/-- **The interval that is returned**, in seconds. -/
theorem seconds_calculateSampleIntervals (now : ℤ) (j : JobMetadata) (m : ℤ) :
    Go.seconds (j.calculateSampleIntervals now (m * Go.second)).2 =
      closestInterval (⌈(j.duration now : ℚ) / (200 * m)⌉ * m) m := by
  rw [calculateSampleIntervals_snd, wantedInterval_wholeSeconds, seconds_wholeSeconds,
    seconds_wholeSeconds]
  obtain ⟨n, hn⟩ := exists_closestInterval_eq m (⌈(j.duration now : ℚ) / (200 * m)⌉ * m)
  rw [hn, truncate_intCast]

theorem offered_eq (now : ℤ) (j : JobMetadata) (m : ℤ) :
    (j.calculateSampleIntervals now (m * Go.second)).1 =
      defaultIntervals.filter fun v : ℚ => (m : ℚ) ≤ v &&
        v ≤ closestInterval (⌈(j.duration now : ℚ) / (200 * m)⌉ * m) m := by
  have h : (j.calculateSampleIntervals now (m * Go.second)).1 =
      defaultIntervals.filter fun v => Go.seconds (m * Go.second) ≤ v &&
        v ≤ closestInterval (wantedInterval now j (m * Go.second)) (Go.seconds (m * Go.second)) :=
    rfl
  rw [h, seconds_wholeSeconds, wantedInterval_wholeSeconds]

/-! ## The smallest nearest value -/

theorem pairwise_defaultIntervals : defaultIntervals.Pairwise (· < ·) := by
  decide +kernel

/-- What the choice is made from: the configured interval, and the built-in ones. -/
def candidates (m : ℚ) : Set ℚ := {v | v ∈ m :: defaultIntervals}

/-- **The choice is the smallest nearest candidate.** -/
theorem isLeast_closestInterval {m w : ℚ} (h : m ≤ w) :
    IsLeast {v | IsNearest (candidates m) w v} (closestInterval w m) :=
  isLeast_foldl pairwise_defaultIntervals h

/-! ## Bounds, monotony and the offered list -/

/-- The interval `r.2` and the list `r.1` are as they should be, for a configured interval
of `m` seconds and the wanted interval `w`. -/
structure WellChosen (m : ℤ) (w : ℚ) (r : List ℚ × Go.Duration) : Prop where
  atLeast : (m : ℚ) ≤ Go.seconds r.2
  candidate : Go.seconds r.2 = m ∨ Go.seconds r.2 ∈ defaultIntervals
  nearest : ∀ v : ℚ, v = m ∨ v ∈ defaultIntervals → |Go.seconds r.2 - w| ≤ |v - w|
  increasing : r.1.Pairwise (· < ·)
  offered : ∀ v : ℚ, v ∈ r.1 ↔ v ∈ defaultIntervals ∧ m ≤ v ∧ v ≤ Go.seconds r.2

theorem wellChosen_of_isLeast {now : ℤ} {j : JobMetadata} {m : ℤ} (hm : 1 ≤ m)
    (hd : 0 < j.duration now) :
    WellChosen m (⌈(j.duration now : ℚ) / (200 * m)⌉ * m)
      (j.calculateSampleIntervals now (m * Go.second)) := by
  have hle := le_wantedInterval hm hd
  have hleast := isLeast_closestInterval hle
  constructor
  · rw [seconds_calculateSampleIntervals]
    exact le_of_isLeast_isNearest List.mem_cons_self hle hleast
  · rw [seconds_calculateSampleIntervals]
    exact List.mem_cons.1 hleast.1.1
  · intro v hv
    rw [seconds_calculateSampleIntervals]
    exact hleast.1.2 v (List.mem_cons.2 hv)
  · rw [offered_eq]
    exact pairwise_defaultIntervals.filter _
  · intro v
    rw [offered_eq, seconds_calculateSampleIntervals, List.mem_filter]
    simp

/-- **The choice is bounded below and monotone**, and the offered list is the part of the
built-in intervals between the configured one and the chosen one. -/
theorem calculateSampleIntervals_sound {m : ℤ} (hm : 1 ≤ m) (now now' : ℤ) {j j' : JobMetadata}
    (hstop : j.isRunning = false) (hstop' : j'.isRunning = false)
    (hlt : j.startTime < j.stopTime) (hlt' : j'.startTime < j'.stopTime) :
    WellChosen m (⌈((j.stopTime - j.startTime : ℤ) : ℚ) / (200 * m)⌉ * m)
        (j.calculateSampleIntervals now (m * Go.second)) ∧
      (j.stopTime - j.startTime ≤ j'.stopTime - j'.startTime →
        (j.calculateSampleIntervals now (m * Go.second)).2 ≤
          (j'.calculateSampleIntervals now' (m * Go.second)).2) := by
  have hd : 0 < j.duration now := by rw [JobMetadata.duration_of_stopped hstop]; omega
  have hd' : 0 < j'.duration now' := by rw [JobMetadata.duration_of_stopped hstop']; omega
  refine ⟨?_, fun hle => ?_⟩
  · rw [← JobMetadata.duration_of_stopped hstop now]
    exact wellChosen_of_isLeast hm hd
  · rw [← JobMetadata.duration_of_stopped hstop now,
      ← JobMetadata.duration_of_stopped hstop' now'] at hle
    have hm' : (0 : ℚ) < m := by exact_mod_cast hm
    have hle' : (j.duration now : ℚ) ≤ j'.duration now' := by exact_mod_cast hle
    have hceil : ⌈(j.duration now : ℚ) / (200 * m)⌉ ≤ ⌈(j'.duration now' : ℚ) / (200 * m)⌉ :=
      Int.ceil_mono (div_le_div_of_nonneg_right hle' (by positivity))
    have hwanted : (⌈(j.duration now : ℚ) / (200 * m)⌉ : ℚ) * m ≤
        ⌈(j'.duration now' : ℚ) / (200 * m)⌉ * m :=
      mul_le_mul_of_nonneg_right (by exact_mod_cast hceil) hm'.le
    have hmono := isLeast_isNearest_mono hwanted
      (isLeast_closestInterval (le_wantedInterval hm hd))
      (isLeast_closestInterval (le_wantedInterval hm hd'))
    rw [← seconds_calculateSampleIntervals, ← seconds_calculateSampleIntervals, Go.seconds,
      Go.seconds, div_le_div_iff_of_pos_right (by norm_num)] at hmono
    exact_mod_cast hmono

/-- A configured interval that is not built in, for a short job and a longer one. -/
theorem calculateSampleIntervals_sound_ten :
    WellChosen 10 (⌈((1000 - 0 : ℤ) : ℚ) / (200 * 10)⌉ * 10)
        (({ stopTime := 1000 } : JobMetadata).calculateSampleIntervals 0 (10 * Go.second)) ∧
      (({ stopTime := 1000 } : JobMetadata).calculateSampleIntervals 0 (10 * Go.second)).2 ≤
        (({ stopTime := 50000 } : JobMetadata).calculateSampleIntervals 0 (10 * Go.second)).2 := by
  have h := @calculateSampleIntervals_sound 10 (by decide) 0 0 { stopTime := 1000 }
    { stopTime := 50000 } rfl rfl (by decide) (by decide)
  exact ⟨h.1, h.2 (by decide)⟩

/-! ## The number of samples -/

/-- The intervals that are available: the configured one, and the built-in ones from
there on. -/
def availableIntervals (m : ℚ) : Finset ℚ :=
  insert m (defaultIntervals.toFinset.filter (m ≤ ·))

/-- The midpoint of two intervals, rounded down to a multiple of the configured one. -/
def roundedMidpoint (m a b : ℚ) : ℚ := m * ⌊(a + b) / (2 * m)⌋

/-- The number of samples that `interval` displays of `d` seconds comes closest to the
wanted one. -/
def ClosestSamples (m d interval : ℚ) : Prop :=
  interval ∈ availableIntervals m ∧ ∀ v ∈ availableIntervals m,
    |d / interval - DEFAULT_MAX_POINTS_PER_JOB| ≤ |d / v - DEFAULT_MAX_POINTS_PER_JOB|

theorem mem_availableIntervals {m v : ℚ} :
    v ∈ availableIntervals m ↔ v ∈ candidates m ∧ m ≤ v := by
  rw [availableIntervals, Finset.mem_insert, Finset.mem_filter, List.mem_toFinset, candidates,
    Set.mem_ofPred_eq, List.mem_cons]
  constructor
  · rintro (rfl | ⟨hv, hle⟩)
    · exact ⟨.inl rfl, le_rfl⟩
    · exact ⟨.inr hv, hle⟩
  · rintro ⟨rfl | hv, hle⟩
    · exact .inl rfl
    · exact .inr ⟨hv, hle⟩

/-- Rounding up to a multiple of `m` reaches beyond `q` when the value itself is beyond
`q` rounded down. -/
theorem lt_ceil_mul_iff {m x q : ℚ} (hm : 0 < m) :
    q < ⌈x / m⌉ * m ↔ m * ⌊q / m⌋ < x := by
  rw [← div_lt_iff₀ hm, ← Int.floor_lt, Int.lt_ceil, lt_div_iff₀ hm, mul_comm]

theorem monoOn_roundedMidpoint {m : ℚ} (hm : 0 < m) (s : Finset ℚ) :
    MonoOn s (roundedMidpoint m) := by
  intro a _ b _ a' _ b' _ ha hb
  have hfloor : ⌊(a + b) / (2 * m)⌋ ≤ ⌊(a' + b') / (2 * m)⌋ :=
    Int.floor_mono (div_le_div_of_nonneg_right (add_le_add ha hb) (by positivity))
  exact mul_le_mul_of_nonneg_left (by exact_mod_cast hfloor) hm.le

theorem monoOn_harmonicMean {m : ℚ} (hm : 0 < m) : MonoOn (availableIntervals m) harmonicMean := by
  intro a ha b hb a' _ b' _ haa hbb
  exact harmonicMean_mono (lt_of_lt_of_le hm (mem_availableIntervals.1 ha).2)
    (lt_of_lt_of_le hm (mem_availableIntervals.1 hb).2) haa hbb

/-- The chosen interval, by rounded midpoints. -/
theorem closestInterval_between {m d : ℚ} (hm : 0 < m)
    (hle : m ≤ ⌈d / (200 * m)⌉ * m) :
    let c := closestInterval (⌈d / (200 * m)⌉ * m) m
    c ∈ availableIntervals m ∧
      (∀ a ∈ availableIntervals m, a < c → roundedMidpoint m a c < d / 200) ∧
      ∀ b ∈ availableIntervals m, c < b → d / 200 ≤ roundedMidpoint m c b := by
  intro c
  have hleast := isLeast_closestInterval hle
  have hround : ∀ a b : ℚ, (a + b) / 2 < ⌈d / (200 * m)⌉ * m ↔ roundedMidpoint m a b < d / 200 := by
    intro a b
    rw [← div_div, lt_ceil_mul_iff hm, div_div, roundedMidpoint]
  obtain ⟨hmem, hlow, hhigh⟩ := isLeast_isNearest_iff.1 hleast
  refine ⟨mem_availableIntervals.2
    ⟨hmem, le_of_isLeast_isNearest List.mem_cons_self hle hleast⟩, fun a ha hac => ?_,
    fun b hb hcb => ?_⟩
  · exact (hround a c).1 (hlow a (mem_availableIntervals.1 ha).1 hac)
  · rw [← not_lt, ← hround, not_lt]
    exact hhigh b (mem_availableIntervals.1 hb).1 hcb

/-- The number of samples comes closest when the harmonic means below are reached, and
those above are not passed. -/
theorem closestSamples_iff {m d c : ℚ} (hm : 0 < m) (hd : 0 < d)
    (hc : c ∈ availableIntervals m) :
    ClosestSamples m d c ↔
      (∀ a ∈ availableIntervals m, a < c → harmonicMean a c ≤ d / 200) ∧
        ∀ b ∈ availableIntervals m, c < b → d / 200 ≤ harmonicMean c b := by
  have hpos : ∀ v ∈ availableIntervals m, 0 < v := fun v hv =>
    lt_of_lt_of_le hm (mem_availableIntervals.1 hv).2
  have h200 : (0 : ℚ) < DEFAULT_MAX_POINTS_PER_JOB := by decide +kernel
  constructor
  · rintro ⟨-, hnear⟩
    exact ⟨fun a ha hac => (abs_div_sub_le_iff_right (hpos a ha) hac hd h200).1 (hnear a ha),
      fun b hb hcb => (abs_div_sub_le_iff (hpos c hc) hcb hd h200).1 (hnear b hb)⟩
  · rintro ⟨hlow, hhigh⟩
    refine ⟨hc, fun v hv => ?_⟩
    rcases lt_trichotomy v c with h | rfl | h
    · exact (abs_div_sub_le_iff_right (hpos v hv) h hd h200).2 (hlow v hv h)
    · exact le_rfl
    · exact (abs_div_sub_le_iff (hpos c hc) h hd h200).2 (hhigh v hv h)

/-- **When the choice displays the closest number of samples**: the interval that gives
exactly the wanted number does not lie, for two neighbouring intervals, between their
harmonic mean and their rounded midpoint. -/
theorem closestSamples_calculateSampleIntervals_iff {m : ℤ} (hm : 1 ≤ m) (now : ℤ)
    {j : JobMetadata} (hstop : j.isRunning = false) (hlt : j.startTime < j.stopTime) :
    ClosestSamples m (j.stopTime - j.startTime : ℤ)
        (Go.seconds (j.calculateSampleIntervals now (m * Go.second)).2) ↔
      ∀ a b, Follows (availableIntervals m) a b →
        ¬(roundedMidpoint m a b < ((j.stopTime - j.startTime : ℤ) : ℚ) / 200 ∧
            ((j.stopTime - j.startTime : ℤ) : ℚ) / 200 < harmonicMean a b) ∧
          ¬(harmonicMean a b < ((j.stopTime - j.startTime : ℤ) : ℚ) / 200 ∧
            ((j.stopTime - j.startTime : ℤ) : ℚ) / 200 ≤ roundedMidpoint m a b) := by
  have hm' : (0 : ℚ) < m := by exact_mod_cast hm
  rw [← JobMetadata.duration_of_stopped hstop now]
  have hd : 0 < j.duration now := by rw [JobMetadata.duration_of_stopped hstop]; omega
  have hd' : (0 : ℚ) < j.duration now := by exact_mod_cast hd
  obtain ⟨hc, hlow, hhigh⟩ := closestInterval_between hm' (le_wantedInterval hm hd)
  rw [seconds_calculateSampleIntervals, closestSamples_iff hm' hd' hc]
  exact agrees_iff_follows (monoOn_roundedMidpoint hm' _) (monoOn_harmonicMean hm') hc hlow hhigh

/-- With 30 seconds configured and a job of 15000 seconds, 75 seconds would give the wanted
number of samples.  The choice is a minute, with 250 samples; two minutes have 125. -/
theorem closestSamples_minute :
    ClosestSamples 30 ((15000 - 0 : ℤ) : ℚ) (Go.seconds
      (({ stopTime := 15000 } : JobMetadata).calculateSampleIntervals 0 (30 * Go.second)).2) := by
  refine (closestSamples_calculateSampleIntervals_iff (m := 30) (by decide) 0
    (j := { stopTime := 15000 }) rfl (by decide)).2 ?_
  rintro a b ⟨ha, hb, hab, hnext⟩
  have hall : ∀ a ∈ availableIntervals ((30 : ℤ) : ℚ), ∀ b ∈ availableIntervals ((30 : ℤ) : ℚ),
      a < b → (∀ v ∈ availableIntervals ((30 : ℤ) : ℚ), v ≤ a ∨ b ≤ v) →
        ¬(roundedMidpoint ((30 : ℤ) : ℚ) a b < ((15000 - 0 : ℤ) : ℚ) / 200 ∧
            ((15000 - 0 : ℤ) : ℚ) / 200 < harmonicMean a b) ∧
          ¬(harmonicMean a b < ((15000 - 0 : ℤ) : ℚ) / 200 ∧
            ((15000 - 0 : ℤ) : ℚ) / 200 ≤ roundedMidpoint ((30 : ℤ) : ℚ) a b) := by
    decide +kernel
  exact hall a ha b hb hab hnext

/-- With 30 seconds configured and a job of 7000 seconds, 35 seconds would give the wanted
number of samples; rounded up to 60 that is no longer closest to 30, which displays 233
samples where 60 displays 117. -/
theorem calculateSampleIntervals_not_closest :
    ¬∀ (m now : ℤ) (j : JobMetadata), 1 ≤ m → m ≤ 1800 → j.isRunning = false →
      j.startTime < j.stopTime → ClosestSamples m (j.stopTime - j.startTime : ℤ)
        (Go.seconds (j.calculateSampleIntervals now (m * Go.second)).2) := by
  intro h
  have hclosest := h 30 0 { stopTime := 7000 } (by decide) (by decide) rfl (by decide)
  have hsixty : Go.seconds (({ stopTime := 7000 } : JobMetadata).calculateSampleIntervals 0
      (30 * Go.second)).2 = 60 := by decide +kernel
  rw [hsixty] at hclosest
  have hthirty : ((30 : ℤ) : ℚ) ∈ availableIntervals ((30 : ℤ) : ℚ) := by decide +kernel
  have hle := hclosest.2 _ hthirty
  revert hle
  decide +kernel

end JobMon
