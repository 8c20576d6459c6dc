import JobMon.Influx.Pieces
import JobMon.Router.Window

/-!
# Request parameters in the text of a query

A node list, the name of an aggregation function and a sample interval come with a request,
and become part of the text of a query.

* `DataRequest.issued` — the queries for a request to `GetJob` or `GetMetric`.
* `sameForm_of_alike` — requests that differ in these parameters have queries of one form.
* `contained_iff_closed` — none of the literals of a request's queries is left exactly when
  they are closed, and then the parameters change nothing but the contents of literals.
* `closed_getMetric_iff` — what that asks of a request for a metric.
* `aggFn_leaves_literal` — a request that leaves the literal for the measurement.
-/

namespace JobMon

open FluxLex InfluxDB

/-! ## Queries of one form -/

namespace InfluxDB

variable {db : InfluxDB} {j : JobMetadata} {nodes nodes' aggFn aggFn' : String}
  {d d' : Go.Duration} {raw forceAggregate : Bool} {m : MetricConfig} {q q' : FluxQuery}

theorem sameForm_of_buildQuery {q₀ q₀' : FluxQuery} (h : buildQuery q₀ = some q)
    (h' : buildQuery q₀' = some q') (hform : q₀.SameForm q₀') : q.SameForm q' := by
  rw [eq_of_buildQuery h, eq_of_buildQuery h']
  exact hform

theorem sameForm_simpleQuery (hnodes : Go.containsChar nodes' '|' = Go.containsChar nodes '|')
    (h : db.simpleQuery m j nodes d = some q) (h' : db.simpleQuery m j nodes' d' = some q') :
    q.SameForm q' :=
  sameForm_of_buildQuery h h' ⟨rfl, rfl, rfl, rfl, rfl, rfl, hnodes⟩

theorem sameForm_aggregateQuery (hnodes : Go.containsChar nodes' '|' = Go.containsChar nodes '|')
    (h : db.aggregateQuery m j nodes aggFn d = some q)
    (h' : db.aggregateQuery m j nodes' aggFn' d' = some q') : q.SameForm q' :=
  sameForm_of_buildQuery h h' ⟨rfl, rfl, rfl, rfl, rfl, rfl, hnodes⟩

theorem sameForm_quantileQuery {quantiles : List String}
    (h : db.quantileQuery m j quantiles d = some q)
    (h' : db.quantileQuery m j quantiles d' = some q') : q.SameForm q' := by
  unfold quantileQuery at h h'
  split at h
  · rename_i hnum
    rw [if_pos hnum] at h'
    exact sameForm_of_buildQuery h h' ⟨rfl, rfl, rfl, rfl, rfl, rfl, rfl⟩
  · rename_i hnum
    rw [if_neg hnum] at h'
    exact sameForm_of_buildQuery h h' ⟨rfl, rfl, rfl, rfl, rfl, rfl, rfl⟩

theorem sameForm_queryFor (hnodes : Go.containsChar nodes' '|' = Go.containsChar nodes '|')
    (h : (db.queryFor m j nodes d forceAggregate).1 = some q)
    (h' : (db.queryFor m j nodes' d' forceAggregate).1 = some q') : q.SameForm q' := by
  have hcount : Go.count nodes' '|' + 1 = 1 ↔ Go.count nodes '|' + 1 = 1 := by
    rw [Nat.add_eq_right, Nat.add_eq_right, ← Go.containsChar_eq_false_iff_count,
      ← Go.containsChar_eq_false_iff_count, hnodes]
  unfold queryFor at h h'
  split at h
  · rename_i hsingle
    rw [if_pos ⟨hcount.2 hsingle.1, hsingle.2⟩] at h'
    exact sameForm_simpleQuery hnodes h h'
  · rename_i hsingle
    rw [if_neg fun hsingle' => hsingle ⟨hcount.1 hsingle'.1, hsingle'.2⟩] at h'
    split at h
    · rename_i htype
      rw [if_pos htype] at h'
      exact sameForm_aggregateQuery hnodes h h'
    · rename_i htype
      rw [if_neg htype] at h'
      exact sameForm_simpleQuery hnodes h h'

theorem sameForm_queryForRaw (hnodes : Go.containsChar nodes' '|' = Go.containsChar nodes '|')
    (h : db.queryForRaw m j nodes d forceAggregate = some q)
    (h' : db.queryForRaw m j nodes' d' forceAggregate = some q') : q.SameForm q' := by
  unfold queryForRaw at h h'
  split at h
  · rename_i htype
    rw [if_pos htype] at h'
    exact sameForm_aggregateQuery hnodes h h'
  · rename_i htype
    rw [if_neg htype] at h'
    exact sameForm_simpleQuery hnodes h h'

/-- **The queries of `getJobData`, one by one, have the same form** whatever the interval,
and for all nodes that are a list, or for all that are not. -/
theorem sameForm_sent (hnodes : Go.containsChar nodes' '|' = Go.containsChar nodes '|') {i : ℕ}
    (h : (db.sent j nodes d raw forceAggregate)[i]? = some (some q))
    (h' : (db.sent j nodes' d' raw forceAggregate)[i]? = some (some q')) : q.SameForm q' := by
  unfold sent at h h'
  rw [List.getElem?_append, List.length_map] at h h'
  split at h
  · rename_i hi
    rw [if_pos hi, List.getElem?_map, Option.map_eq_some_iff] at h'
    rw [List.getElem?_map, Option.map_eq_some_iff] at h
    obtain ⟨m, hm, h⟩ := h
    obtain ⟨m', hm', h'⟩ := h'
    rw [hm, Option.some.injEq] at hm'
    subst hm'
    cases raw with
    | true => exact sameForm_queryForRaw hnodes h h'
    | false => exact sameForm_queryFor hnodes h h'
  · rename_i hi
    rw [if_neg hi] at h'
    split at h
    · cases h
    · rename_i hrunning
      rw [if_neg hrunning, List.getElem?_map, Option.map_eq_some_iff] at h'
      rw [List.getElem?_map, Option.map_eq_some_iff] at h
      obtain ⟨m, hm, h⟩ := h
      obtain ⟨m', hm', h'⟩ := h'
      rw [hm, Option.some.injEq] at hm'
      subst hm'
      exact sameForm_quantileQuery h h'

end InfluxDB

/-! ## Requests -/

/-- A request for the data of a job. -/
inductive DataRequest
  | getJob (req : GetJobRequest)
  | getMetric (req : GetMetricRequest)

/-- The queries for a request that passes the checks of the handler. -/
def DataRequest.issued (now : ℤ) (b : Backend) (user : UserInfo) :
    DataRequest → List (Option FluxQuery)
  | getJob req =>
    match getJobCall now b user req with
    | .error _ => []
    | .ok call => call.queries b.db
  | getMetric req =>
    match getMetricCall now b user req with
    | .error _ => []
    | .ok call => call.queries b.db

/-- The nodes a request to `GetJob` is about: those of the job when it names none, and
always for a running job. -/
def GetJobRequest.nodesOf (req : GetJobRequest) (j : JobMetadata) : String :=
  if j.isRunning = true ∨ req.node = "" then j.nodeList else req.node

/-- The requests differ in nodes, aggregation function and interval only, and both are about
one node of the job or both are about several. -/
def DataRequest.Alike (b : Backend) : DataRequest → DataRequest → Prop
  | getJob req, getJob req' =>
    req'.id = req.id ∧ req'.raw = req.raw ∧
      ∀ id j, Go.atoi req.id = .ok id → b.store.getJob id = some j →
        Go.containsChar (req'.nodesOf j) '|' = Go.containsChar (req.nodesOf j) '|'
  | getMetric req, getMetric req' => req'.id = req.id ∧ req'.metric = req.metric
  | _, _ => False

section Calls

variable {now : ℤ} {b : Backend} {user : UserInfo}

theorem queries_of_getJobCall {req : GetJobRequest} {call : JobDataCall}
    (h : getJobCall now b user req = .ok call) :
    call.queries b.db = b.db.sent (lastHour now call.job) (req.nodesOf call.job)
      call.sampleInterval req.raw false := by
  obtain ⟨-, -, -, -, -, hrecord, hnodes, -, hraw⟩ := getJobCall_eq_ok h
  have hlist : call.record.nodeList = call.job.nodeList := by
    rw [hrecord, nodeList_lastHour]
  have hof : (if call.nodes = "" then call.record.nodeList else call.nodes) =
      req.nodesOf call.job := by
    rw [hnodes, hlist, GetJobRequest.nodesOf]
    cases call.job.isRunning with
    | true => simp
    | false => simp
  rw [JobDataCall.queries, hof, hrecord, hraw]

theorem sameForm_of_getJobCall {req req' : GetJobRequest} {call call' : JobDataCall}
    (h : getJobCall now b user req = .ok call) (h' : getJobCall now b user req' = .ok call')
    (halike : (DataRequest.getJob req).Alike b (.getJob req')) {i : ℕ} {q q' : FluxQuery}
    (hq : (call.queries b.db)[i]? = some (some q))
    (hq' : (call'.queries b.db)[i]? = some (some q')) : q.SameForm q' := by
  obtain ⟨hid, hraw, hnodes⟩ := halike
  obtain ⟨id, hatoi, hjob, -⟩ := getJobCall_eq_ok h
  obtain ⟨id', hatoi', hjob', -⟩ := getJobCall_eq_ok h'
  rw [hid, hatoi, Except.ok.injEq] at hatoi'
  subst hatoi'
  rw [hjob, Option.some.injEq] at hjob'
  rw [queries_of_getJobCall h] at hq
  rw [queries_of_getJobCall h', ← hjob', hraw] at hq'
  exact sameForm_sent (hnodes id _ hatoi hjob) hq hq'

theorem sameForm_of_getMetricCall {req req' : GetMetricRequest} {call call' : MetricCall}
    (h : getMetricCall now b user req = .ok call) (h' : getMetricCall now b user req' = .ok call')
    (halike : (DataRequest.getMetric req).Alike b (.getMetric req')) {i : ℕ} {q q' : FluxQuery}
    (hq : (call.queries b.db)[i]? = some (some q))
    (hq' : (call'.queries b.db)[i]? = some (some q')) : q.SameForm q' := by
  obtain ⟨hid, hmetric⟩ := halike
  obtain ⟨id, hatoi, hjob, -, hrecord, hfind, -⟩ := getMetricCall_eq_ok h
  obtain ⟨id', hatoi', hjob', -, hrecord', hfind', -⟩ := getMetricCall_eq_ok h'
  rw [hid, hatoi, Except.ok.injEq] at hatoi'
  subst hatoi'
  rw [hjob, Option.some.injEq] at hjob'
  rw [hmetric, hfind, Option.some.injEq] at hfind'
  rw [← hjob', ← hrecord] at hrecord'
  have hquery := List.mem_singleton.1 (List.mem_of_getElem? hq)
  have hquery' := List.mem_singleton.1 (List.mem_of_getElem? hq')
  rw [hrecord', ← hfind'] at hquery'
  exact sameForm_aggregateQuery rfl hquery.symm hquery'.symm

/-- **Requests that differ in nodes, aggregation function and interval** have queries of the
same form. -/
theorem sameForm_of_alike {r r' : DataRequest} (halike : r.Alike b r') {i : ℕ} {q q' : FluxQuery}
    (h : (r.issued now b user)[i]? = some (some q))
    (h' : (r'.issued now b user)[i]? = some (some q')) : q.SameForm q' := by
  cases r with
  | getJob req =>
    cases r' with
    | getMetric req' => exact halike.elim
    | getJob req' =>
      cases hcall : getJobCall now b user req with
      | error response => simp [DataRequest.issued, hcall] at h
      | ok call =>
        cases hcall' : getJobCall now b user req' with
        | error response => simp [DataRequest.issued, hcall'] at h'
        | ok call' =>
          simp only [DataRequest.issued, hcall] at h
          simp only [DataRequest.issued, hcall'] at h'
          exact sameForm_of_getJobCall hcall hcall' halike h h'
  | getMetric req =>
    cases r' with
    | getJob req' => exact halike.elim
    | getMetric req' =>
      cases hcall : getMetricCall now b user req with
      | error response => simp [DataRequest.issued, hcall] at h
      | ok call =>
        cases hcall' : getMetricCall now b user req' with
        | error response => simp [DataRequest.issued, hcall'] at h'
        | ok call' =>
          simp only [DataRequest.issued, hcall] at h
          simp only [DataRequest.issued, hcall'] at h'
          exact sameForm_of_getMetricCall hcall hcall' halike h h'

end Calls

/-- **What a request puts into the text of its queries** stays in the literals meant for it,
and the rest of the text is read as if it were not there, if and only if the literals are
closed.  Requests that differ in nodes, aggregation function and interval only then have the
same tokens, up to what is in these literals. -/
theorem contained_iff_closed (now : ℤ) (b : Backend) (user : UserInfo) (r : DataRequest) :
    ((∀ q, some q ∈ r.issued now b user → q.Contained) ↔
      ∀ q, some q ∈ r.issued now b user → q.Closed) ∧
    ∀ r', r.Alike b r' → ∀ (i : ℕ) (q q' : FluxQuery),
      (r.issued now b user)[i]? = some (some q) → (r'.issued now b user)[i]? = some (some q') →
        q.Closed → q'.Closed → q.SameTokens q' := by
  refine ⟨forall_congr' fun q => imp_congr_right fun _ => q.contained_iff, ?_⟩
  intro r' halike i q q' h h' hclosed hclosed'
  exact (sameForm_of_alike halike h h').sameTokens (q.contained_iff.2 hclosed)
    (q'.contained_iff.2 hclosed')

/-- **What has to be closed in a query for a metric**: the measurement together with the
aggregation function, the nodes of the job, and the interval. -/
theorem closed_getMetric_iff {now : ℤ} {b : Backend} {user : UserInfo} {req : GetMetricRequest}
    {call : MetricCall} (h : getMetricCall now b user req = .ok call) {q : FluxQuery}
    (hq : some q ∈ call.queries b.db) :
    q.Closed ↔ Sound {} q.skeleton ∧
      IsContent (.str true) (call.metric.measurement ++ "_" ++ req.aggFn).toList ∧
      (FluxQuery.hostPiece call.record.nodeList).Closed ∧ WholeInterval call.sampleInterval := by
  obtain ⟨-, -, -, -, -, -, haggFn, hne⟩ := getMetricCall_eq_ok h
  obtain rfl := eq_of_buildQuery (List.mem_singleton.1 hq).symm
  have hmeasurement : aggregateMeasurement call.metric.measurement call.aggFn =
      call.metric.measurement ++ "_" ++ req.aggFn := by
    rw [haggFn]
    exact if_pos hne
  rw [← hmeasurement]
  constructor
  · rintro ⟨hskeleton, hliteral, hnodes, hinterval⟩
    exact ⟨hskeleton, hliteral, hnodes, hinterval rfl⟩
  · rintro ⟨hskeleton, hliteral, hnodes, hinterval⟩
    exact ⟨hskeleton, hliteral, hnodes, fun _ => hinterval⟩

/-! ## A request that leaves its literal -/

/-- An aggregation function that ends the literal, takes every sample, and makes the rest of
the query a comment. -/
def endsLiteral : String := "max\" or true) //"

/-- A user asks for a metric of an own job. -/
def ownMetric (aggFn : String) : DataRequest :=
  .getMetric { id := "1", metric := "g", aggFn }

/-- The query for it. -/
def ownMetricQuery (aggFn : String) : FluxQuery :=
  { kind := .aggregate, bucket := "b", startTime := 6400, stopTime := 10000
    measurement := "cpu_load" ++ "_" ++ aggFn, nodes := "n1", sampleInterval := 30 * Go.second
    filterFunc := "", postQueryOp := "" }

/-- A user asks for an own job with an interval of one and a half seconds. -/
def ownJob : DataRequest := .getJob { id := "2", sampleInterval := "1.5" }

/-- The first query for it. -/
def fractionQuery : FluxQuery :=
  { kind := .simple "", bucket := "b", startTime := 600, stopTime := 1200
    measurement := "cpu_load", nodes := "n1", sampleInterval := 1500000000
    filterFunc := "", postQueryOp := "" }

/-- **Two requests of a user for an own job have different tokens**: one of them ends the
literal for the measurement.  A third one has an interval that is no duration literal. -/
theorem aggFn_leaves_literal :
    ((ownMetric "max").issued 10000 twoJobsBackend { username := "u" } =
        [some (ownMetricQuery "max")] ∧ (ownMetricQuery "max").Contained) ∧
    ((ownMetric endsLiteral).issued 10000 twoJobsBackend { username := "u" } =
        [some (ownMetricQuery endsLiteral)] ∧ ¬ (ownMetricQuery endsLiteral).Contained ∧
      ¬ FluxQuery.SameTokens (ownMetricQuery "max") (ownMetricQuery endsLiteral)) ∧
    some fractionQuery ∈ ownJob.issued 10000 twoJobsBackend { username := "u" } ∧
      ¬ fractionQuery.Contained := by
  have hmax : (ownMetricQuery "max").Contained :=
    (FluxQuery.contained_iff _).2
      { skeleton := by decide +kernel
        measurement := by decide +kernel
        nodes := by
          show IsContent (.str true) "n1".toList
          decide
        interval := fun _ => by decide }
  have htokens : ¬ FluxQuery.SameTokens (ownMetricQuery "max") (ownMetricQuery endsLiteral) := by
    intro h
    have hlength := h.length_eq (by decide +kernel)
    rw [FluxQuery.lex_text, FluxQuery.lex_text] at hlength
    revert hlength
    decide +kernel
  refine ⟨⟨by decide +kernel, hmax⟩, ⟨by decide +kernel, fun h => ?_, htokens⟩,
    by decide +kernel, fun h => ?_⟩
  · exact absurd ((FluxQuery.contained_iff _).1 h).measurement (by decide +kernel)
  · exact absurd (((FluxQuery.contained_iff _).1 h).interval rfl) (by decide)

end JobMon
