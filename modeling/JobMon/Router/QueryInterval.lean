import Mathlib.Algebra.Group.Action.Defs
import JobMon.Lib.FluxDuration
import JobMon.Router.Injection

/-!
# The interval of a request

`GetJob` and `GetMetric` parse the interval of a request as a Go duration, and the query
builders print it again, as a Flux duration.

* `denotes_durationText_iff` — a printed interval denotes its own length exactly when it is
  whole.
* `DataRequest.handed` — the interval a request hands to the query builders.
* `duration_of_mem_issued` — it is the one in the text of every query for the request.
* `handed_valid_iff` — which texts are good intervals.
* `handed_not_valid` — three that are not, and are accepted.
-/

namespace JobMon

open FluxLex InfluxDB

/-! ## What a printed interval denotes -/

theorem fracText_zero (prec : ℕ) : Go.fracText 0 prec = "" := by
  rcases Go.fracText_cases 0 prec with ⟨-, h⟩ | ⟨h, -⟩
  · exact h
  · exact absurd rfl h

/-- A number with its unit. -/
theorem denotes_single (n : ℕ) (u : DurationUnit) {unit : String} (hunit : unit.toList = u.symbol) :
    FluxLex.Denotes (Nat.repr n ++ unit).toList (n • u.length) := by
  refine ⟨[(n, u)], by simp, ?_, by simp [total]⟩
  rw [String.toList_append, Nat.toList_repr, hunit]
  simp [literal]

/-- Hours, minutes and seconds. -/
theorem denotes_of_seconds {u : ℕ} (h : 1000000000 ≤ u) (hwhole : u % 1000000000 = 0) :
    FluxLex.Denotes (Go.durationTextPos u).toList (0, u) := by
  have hhour : "h".toList = DurationUnit.hour.symbol := by decide
  have hminute : "m".toList = DurationUnit.minute.symbol := by decide
  have hsecond : "s".toList = DurationUnit.second.symbol := by decide
  set s := u / 1000000000 with hs
  have htext : Go.durationTextPos u =
      (if s < 3600 then "" else Nat.repr (s / 3600) ++ "h") ++
        (if s < 60 then "" else Nat.repr (s / 60 % 60) ++ "m") ++
          (Nat.repr (s % 60) ++ Go.fracText 0 9 ++ "s") := by
    rw [Go.durationTextPos, if_neg (by omega), if_neg (by omega), if_neg (by omega), hwhole]
    rfl
  rw [htext, fracText_zero, String.append_empty]
  by_cases hshort : s < 60
  · rw [if_pos (by omega), if_pos hshort, String.empty_append, String.empty_append]
    have hlength : (0, u) = (s % 60) • DurationUnit.second.length := by
      simp [DurationUnit.length, Prod.ext_iff]
      omega
    rw [hlength]
    exact denotes_single _ _ hsecond
  · by_cases hmedium : s < 3600
    · rw [if_pos hmedium, if_neg hshort, String.empty_append]
      refine ⟨[(s / 60 % 60, .minute), (s % 60, .second)], by simp, ?_, ?_⟩
      · simp [literal, hminute, hsecond]
      · simp only [total_cons, total_nil, DurationUnit.length, Prod.smul_mk, Prod.add_def,
          Prod.fst_zero, Prod.snd_zero, smul_eq_mul, Prod.mk.injEq]
        omega
    · rw [if_neg hmedium, if_neg hshort]
      refine ⟨[(s / 3600, .hour), (s / 60 % 60, .minute), (s % 60, .second)], by simp, ?_, ?_⟩
      · simp [literal, hhour, hminute, hsecond]
      · simp only [total_cons, total_nil, DurationUnit.length, Prod.smul_mk, Prod.add_def,
          Prod.fst_zero, Prod.snd_zero, smul_eq_mul, Prod.mk.injEq]
        omega

/-- **A printed interval denotes its own length exactly when it is whole.** -/
theorem denotes_durationText_iff (d : Go.Duration) :
    FluxLex.Denotes (Go.durationText d).toList (0, d.toNat) ↔ WholeInterval d := by
  refine ⟨fun h => (isDuration_durationText_iff d).1 h.isDuration, fun hwhole => ?_⟩
  obtain ⟨u, rfl⟩ := Int.eq_ofNat_of_zero_le hwhole.1
  rw [wholeInterval_natCast_iff] at hwhole
  rw [Int.toNat_natCast, Go.durationText]
  by_cases hzero : (u : ℤ) = 0
  · have hu : u = 0 := by omega
    subst hu
    exact ⟨[(0, .second)], by simp, by decide, by decide⟩
  have hpos : ¬ (u : ℤ) < 0 := by omega
  rw [if_neg hzero, if_neg hpos, Int.natAbs_natCast]
  by_cases hseconds : 1000000000 ≤ u
  · exact denotes_of_seconds hseconds (by omega)
  rw [Go.durationTextPos]
  by_cases hnano : u < 1000
  · have hlength : (0, u) = u • DurationUnit.nano.length := by simp [DurationUnit.length]
    rw [if_pos hnano, hlength]
    exact denotes_single u .nano (by decide)
  by_cases hmicro : u < 1000000
  · have hlength : (0, u) = (u / 1000) • DurationUnit.microGreek.length := by
      simp [DurationUnit.length, Prod.ext_iff]
      omega
    have hfrac : u % 1000 = 0 := by omega
    rw [if_neg hnano, if_pos hmicro, hlength, hfrac, fracText_zero, String.append_empty]
    exact denotes_single _ .microGreek (by decide)
  · have hlength : (0, u) = (u / 1000000) • DurationUnit.milli.length := by
      simp [DurationUnit.length, Prod.ext_iff]
      omega
    have hfrac : u % 1000000 = 0 := by omega
    rw [if_neg hnano, if_neg hmicro, if_pos (by omega), hlength, hfrac, fracText_zero,
      String.append_empty]
    exact denotes_single _ .milli (by decide)

/-! ## The interval of the queries -/

namespace InfluxDB

variable {db : InfluxDB} {j : JobMetadata} {nodes : String} {d : Go.Duration}
  {raw forceAggregate : Bool} {q : FluxQuery}

/-- The queries for the data of a job have the interval they are asked for. -/
theorem sampleInterval_of_mem_sent (h : some q ∈ db.sent j nodes d raw forceAggregate) :
    q.sampleInterval = d := by
  obtain ⟨m, -, (hquery | hquery) | hquery⟩ := mem_sent_cases h
  · rw [eq_of_buildQuery hquery]
  · rw [eq_of_buildQuery hquery]
  · unfold quantileQuery at hquery
    split at hquery
    · rw [eq_of_buildQuery hquery]
    · rw [eq_of_buildQuery hquery]

end InfluxDB

/-- The durations in the text of a query are its interval. -/
theorem FluxQuery.duration_of_mem_pieces {q : FluxQuery} {text : String} {close : Char}
    (h : Piece.duration text close ∈ q.pieces) : text = Go.durationText q.sampleInterval := by
  -- every piece that is put in is checked once, instead of every piece of the text
  have hall : ∀ p ∈ q.pieces, ∀ text close, p = .duration text close →
      text = Go.durationText q.sampleInterval := by
    refine (q.forall_pieces_iff (fun _ _ _ hcode => by cases hcode)).2 ?_
    have hnodes : ∀ text close, q.nodesPiece ≠ .duration text close := by
      intro text close
      unfold nodesPiece hostPiece
      split <;> [simp; split <;> simp]
    unfold slots
    split <;> simp [hnodes, eq_comm]
  exact hall _ h text close rfl

/-- The text of the interval in a request. -/
def DataRequest.sampleInterval : DataRequest → String
  | getJob req => req.sampleInterval
  | getMetric req => req.sampleInterval

/-- The interval a request hands to the query builders, if it gets there. -/
def DataRequest.handed (now : ℤ) (b : Backend) (user : UserInfo) :
    DataRequest → Option Go.Duration
  | getJob req =>
    match getJobCall now b user req with
    | .error _ => none
    | .ok call => some call.sampleInterval
  | getMetric req =>
    match getMetricCall now b user req with
    | .error _ => none
    | .ok call => some call.sampleInterval

/-- What InfluxDB needs of an interval: a length, written as a duration literal. -/
def ValidInterval (i : Go.Duration) : Prop :=
  0 < i ∧ FluxLex.Denotes (Go.durationText i).toList (0, i.toNat)

theorem validInterval_iff (i : Go.Duration) : ValidInterval i ↔ 0 < i ∧ WholeInterval i :=
  and_congr_right fun _ => denotes_durationText_iff i

section Handed

variable {now : ℤ} {b : Backend} {user : UserInfo} {r : DataRequest} {d i : Go.Duration}

/-- Whatever is parsed without an error is chosen. -/
theorem chosenInterval_of_parsed {query : String} (h : Go.parseDuration (query ++ "s") = some d)
    (bestInterval : Go.Duration) : chosenInterval query bestInterval = d := by
  have hne : query ≠ "" := by
    rintro rfl
    have hnone : Go.parseDuration ("" ++ "s") = none := by decide
    rw [hnone] at h
    cases h
  rw [chosenInterval, if_neg hne, h, Option.getD_some]

theorem sampleInterval_of_getJobCall {req : GetJobRequest} {call : JobDataCall}
    (h : getJobCall now b user req = .ok call) :
    ∃ bestInterval, call.sampleInterval = chosenInterval req.sampleInterval bestInterval := by
  unfold getJobCall at h
  split at h
  · cases h
  split at h
  · cases h
  split at h
  · cases h
  split at h
  · cases h
  cases h
  exact ⟨_, rfl⟩

theorem sampleInterval_of_getMetricCall {req : GetMetricRequest} {call : MetricCall}
    (h : getMetricCall now b user req = .ok call) :
    ∃ bestInterval, call.sampleInterval = chosenInterval req.sampleInterval bestInterval := by
  unfold getMetricCall at h
  split at h
  · cases h
  split at h
  · cases h
  split at h
  · cases h
  split at h
  · cases h
  split at h
  · cases h
  split at h
  · cases h
  cases h
  exact ⟨_, rfl⟩

/-- A request that hands on an interval is one of two calls with this interval. -/
theorem handed_cases (hhanded : r.handed now b user = some i) :
    (∃ req call, r = .getJob req ∧ getJobCall now b user req = .ok call ∧
      call.sampleInterval = i) ∨
    ∃ req call, r = .getMetric req ∧ getMetricCall now b user req = .ok call ∧
      call.sampleInterval = i := by
  cases r with
  | getJob req =>
    cases hcall : getJobCall now b user req with
    | error response => simp [DataRequest.handed, hcall] at hhanded
    | ok call =>
      simp only [DataRequest.handed, hcall, Option.some.injEq] at hhanded
      exact .inl ⟨req, call, rfl, hcall, hhanded⟩
  | getMetric req =>
    cases hcall : getMetricCall now b user req with
    | error response => simp [DataRequest.handed, hcall] at hhanded
    | ok call =>
      simp only [DataRequest.handed, hcall, Option.some.injEq] at hhanded
      exact .inr ⟨req, call, rfl, hcall, hhanded⟩

/-- **The interval that is parsed is the one that is handed on.** -/
theorem handed_eq_parsed (hparsed : Go.parseDuration (r.sampleInterval ++ "s") = some d)
    (hhanded : r.handed now b user = some i) : i = d := by
  rcases handed_cases hhanded with ⟨req, call, rfl, hcall, rfl⟩ | ⟨req, call, rfl, hcall, rfl⟩
  · obtain ⟨bestInterval, hchosen⟩ := sampleInterval_of_getJobCall hcall
    rw [hchosen]
    exact chosenInterval_of_parsed hparsed bestInterval
  · obtain ⟨bestInterval, hchosen⟩ := sampleInterval_of_getMetricCall hcall
    rw [hchosen]
    exact chosenInterval_of_parsed hparsed bestInterval

/-- Every query for a request has the interval that was handed on. -/
theorem sampleInterval_of_mem_issued (hhanded : r.handed now b user = some i) {q : FluxQuery}
    (hq : some q ∈ r.issued now b user) : q.sampleInterval = i := by
  rcases handed_cases hhanded with ⟨req, call, rfl, hcall, rfl⟩ | ⟨req, call, rfl, hcall, rfl⟩
  · simp only [DataRequest.issued, hcall] at hq
    exact sampleInterval_of_mem_sent hq
  · simp only [DataRequest.issued, hcall] at hq
    rw [eq_of_buildQuery (List.mem_singleton.1 hq).symm]

/-- **The durations in the text of the queries** for a request are the interval it hands to
the builders. -/
theorem duration_of_mem_issued (hhanded : r.handed now b user = some i) {q : FluxQuery}
    (hq : some q ∈ r.issued now b user) {text : String} {close : Char}
    (h : Piece.duration text close ∈ q.pieces) : text = Go.durationText i := by
  rw [← sampleInterval_of_mem_issued hhanded hq]
  exact FluxQuery.duration_of_mem_pieces h

end Handed

/-- **Which intervals are good.**  A text that is parsed as a length `d` is handed to the
query builders as a positive length and a Flux duration of that length exactly when `d` is
positive and whole in the unit it is printed with.  The queries have it wherever there is a
duration in them. -/
theorem handed_valid_iff (now : ℤ) (b : Backend) (user : UserInfo) (r : DataRequest)
    {d i : Go.Duration} (hparsed : Go.parseDuration (r.sampleInterval ++ "s") = some d)
    (hhanded : r.handed now b user = some i) :
    (ValidInterval i ↔ 0 < d ∧ WholeInterval d) ∧
      ∀ q, some q ∈ r.issued now b user → ∀ text close,
        Piece.duration text close ∈ q.pieces → text = Go.durationText i := by
  refine ⟨?_, fun q hq text close h => duration_of_mem_issued hhanded hq h⟩
  rw [handed_eq_parsed hparsed hhanded]
  exact validInterval_iff d

/-- A user asks for an own job with this interval. -/
def ownJobAt (sampleInterval : String) : DataRequest := .getJob { id := "2", sampleInterval }

/-- Half a minute is a good interval. -/
theorem handed_valid_iff_halfMinute :
    (ValidInterval (30 * Go.second) ↔ 0 < 30 * Go.second ∧ WholeInterval (30 * Go.second)) ∧
      ∀ q, some q ∈ (ownJobAt "30").issued 10000 twoJobsBackend { username := "u" } →
        ∀ text close, Piece.duration text close ∈ q.pieces →
          text = Go.durationText (30 * Go.second) :=
  handed_valid_iff 10000 twoJobsBackend { username := "u" } (ownJobAt "30")
    (by decide +kernel) (by decide +kernel)

/-- **Intervals that are accepted and are not good**: a fraction, which is printed as such, a
negative one, and none. -/
theorem handed_not_valid :
    (Go.parseDuration ("1.5" ++ "s") = some 1500000000 ∧
      (ownJobAt "1.5").handed 10000 twoJobsBackend { username := "u" } = some 1500000000 ∧
      Go.durationText 1500000000 = "1.5s" ∧ ¬ ValidInterval 1500000000) ∧
    (Go.parseDuration ("-5" ++ "s") = some (-5 * Go.second) ∧
      (ownJobAt "-5").handed 10000 twoJobsBackend { username := "u" } = some (-5 * Go.second) ∧
      ¬ ValidInterval (-5 * Go.second)) ∧
    Go.parseDuration ("0" ++ "s") = some 0 ∧
      (ownJobAt "0").handed 10000 twoJobsBackend { username := "u" } = some 0 ∧
      ¬ ValidInterval 0 := by
  refine ⟨⟨by decide, by decide +kernel, by decide +kernel, fun h => ?_⟩,
    ⟨by decide, by decide +kernel, fun h => ?_⟩, by decide, by decide +kernel, fun h => ?_⟩
  · exact absurd ((validInterval_iff _).1 h).2 (by decide)
  · exact absurd h.1 (by decide)
  · exact absurd h.1 (by decide)

end JobMon
