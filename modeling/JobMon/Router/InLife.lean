import JobMon.Influx.Plain
import JobMon.Router.Confine
import JobMon.Router.FollowUp
import JobMon.Router.ReadConfine

/-!
# Reading inside the life of a job

What the condition for read confinement comes to when the texts of the configuration
are plain: the job is the user's own, and the time range that is asked for lies inside
the life of the job.

* `InLife` — the condition on the request and the record.
* `harmless_getJob`, `harmless_getMetric`, `harmless_event` — the queries then read
  the user's own samples only.
* `read_confinement` — the exact condition, and this one.
* `live_monitoring_not_confined` — a live connection is opened for the job of anybody.
-/

namespace JobMon

open Keyed InfluxDB

/-! ## Plain requests inside the life of a job -/

section Plain

variable {Pipeline : String → Prop} {out : Surroundings} {b : Backend} {user : UserInfo}
  {req : ReadRequest}

/-- What the configuration says, and the node lists of the user's jobs, is what it is
taken for. -/
structure Backend.Plain (Pipeline : String → Prop) (b : Backend) (user : UserInfo) : Prop where
  db : b.db.Plain Pipeline
  metrics : ∀ m ∈ b.config.metrics, m.Plain Pipeline
  nodes : ∀ j ∈ b.store.ownJobs user.username, PlainPattern j.nodeList

/-- The job is not running, or has been for an hour. -/
def RanAnHour (now : ℤ) (j : JobMetadata) : Prop :=
  j.isRunning = false ∨ j.startTime ≤ now - 3600 ∨ now < 3600

/-- A message does not ask for anything after the end of the job. -/
def LiveEvent.InLife (now : ℤ) (j : JobMetadata) : LiveEvent → Prop
  | .message (.loadMetrics startTime stopTime) =>
    stopTime ≤ j.lifetimeEnd now ∨ stopTime ≤ max j.startTime startTime ∨
      max j.startTime startTime < 0
  | _ => True

/-- What the request asks for lies inside the life of the job, and the name of an
aggregation function is one. -/
def ReadRequest.InLife (now : ℤ) (b : Backend) : ReadRequest → Prop
  | .getJob req => ∀ id j, Go.atoi req.id = .ok id → b.store.getJob id = some j → RanAnHour now j
  | .getMetric req => Literal req.aggFn ∧
    ∀ id j, Go.atoi req.id = .ok id → b.store.getJob id = some j → RanAnHour now j
  | .liveMonitoring strId events =>
    ∀ id j, Go.atoi strId = .ok id → b.store.getJob id = some j →
      ∀ p ∈ events, p.2.InLife p.1 j
  | _ => True

/-- A job of the user, as a row. -/
theorem mem_ownJobs_of_getJob {id : ℤ} {j : JobMetadata} (hj : b.store.getJob id = some j)
    (hname : j.userName = user.username) :
    ∃ row ∈ b.store.ownJobs user.username, j = b.store.withTags row := by
  obtain ⟨row, hrow, rfl⟩ := Option.map_eq_some_iff.1 hj
  exact ⟨row, List.mem_filter.2 ⟨Table.mem_of_get? hrow, decide_eq_true hname⟩, rfl⟩

theorem Backend.Plain.nodeList (h : b.Plain Pipeline user) {id : ℤ} {j : JobMetadata}
    (hj : b.store.getJob id = some j) (hname : j.userName = user.username) :
    PlainPattern j.nodeList := by
  obtain ⟨row, hrow, rfl⟩ := mem_ownJobs_of_getJob hj hname
  exact h.nodes row hrow

/-- A plain query for nodes of a job of the user, about a record inside the life of
the job. -/
theorem harmless_of_about {times : List ℤ} {now : ℤ} (hnow : now ∈ times) {id : ℤ}
    {j record : JobMetadata} (hj : b.store.getJob id = some j)
    (hname : j.userName = user.username) (hinside : WindowInside now j record)
    {nodeLists : List String}
    (hnodes : ∀ n ∈ nodeLists, ∀ host ∈ Go.split n '|', host ∈ Go.split j.nodeList '|')
    {q : Option FluxQuery}
    (hq : ∀ q', q = some q' → q'.Plain Pipeline ∧ About record nodeLists q') :
    Harmless Pipeline (OwnSample b user times) q := by
  cases q with
  | none => exact Or.inl rfl
  | some q =>
    obtain ⟨hplain, habout⟩ := hq q rfl
    obtain ⟨row, hrow, rfl⟩ := mem_ownJobs_of_getJob hj hname
    obtain ⟨hstart, hstop⟩ := hinside _ habout.range
    refine Or.inr ⟨q, hplain, rfl, ?_⟩
    rintro x ⟨hhost, hfrom, hto⟩
    refine ⟨row, hrow, now, hnow, hnodes _ habout.nodes _ hhost, ?_, ?_⟩
    · have hle : row.startTime * Go.second ≤ q.startTime * Go.second :=
        Int.mul_le_mul_of_nonneg_right hstart (by decide)
      exact hle.trans hfrom
    · have hle : q.stopTime * Go.second ≤ row.lifetimeEnd now * Go.second :=
        Int.mul_le_mul_of_nonneg_right hstop (by decide)
      exact lt_of_lt_of_le hto hle

/-- The nodes of a job, or some of them, in plain text. -/
theorem plainPattern_of_nodesBelong {j : JobMetadata} {node : String}
    (hall : PlainPattern j.nodeList) (h : nodesBelong j node = true) : PlainPattern node := by
  intro c hc
  by_cases hsep : c = '|'
  · exact Or.inr (Or.inr (Or.inr hsep))
  · obtain ⟨part, hpart, hmem⟩ := (Go.mem_toList_iff hsep).1 hc
    have hown : part ∈ Go.split j.nodeList '|' := by
      simpa using List.all_eq_true.1 h part hpart
    exact hall c ((Go.mem_toList_iff hsep).2 ⟨part, hown, hmem⟩)

theorem name_of_mayAccess (hadmin : user.isAdmin = false) {j : JobMetadata}
    (h : mayAccess user j = true) : j.userName = user.username := by
  rw [mayAccess, hadmin, Bool.false_or, decide_eq_true_eq] at h
  exact h.symm

/-- The record of a call stays inside the life of its job, on the same nodes. -/
theorem inside_of_lastHour {now : ℤ} {j record : JobMetadata} (hrecord : record = lastHour now j)
    (hlife : RanAnHour now j) :
    WindowInside now j record ∧ record.nodeList = j.nodeList := by
  subst hrecord
  exact ⟨(lastHour_inside_iff now j).2 hlife, nodeList_lastHour now j⟩

theorem harmless_getJob (hpipe : PipelineTexts Pipeline) (hplain : b.Plain Pipeline user)
    (hadmin : user.isAdmin = false) {now : ℤ} {req : GetJobRequest} {call : JobDataCall}
    (hcall : getJobCall now b user req = .ok call) (hlife : RanAnHour now call.job)
    {times : List ℤ} (hnow : now ∈ times) :
    ∀ q ∈ call.queries b.db, Harmless Pipeline (OwnSample b user times) q := by
  obtain ⟨id, -, hj, haccess, hbelong, hrecord, hnodes, -, -⟩ := getJobCall_eq_ok hcall
  have hname := name_of_mayAccess hadmin haccess
  have hlist := hplain.nodeList hj hname
  obtain ⟨hinside, hrecordList⟩ := inside_of_lastHour hrecord hlife
  -- the nodes asked for are all nodes of the job or some of them
  have hasked : PlainPattern (if call.nodes = "" then call.record.nodeList else call.nodes) ∧
      ∀ host ∈ Go.split (if call.nodes = "" then call.record.nodeList else call.nodes) '|',
        host ∈ Go.split call.job.nodeList '|' := by
    by_cases hempty : call.nodes = ""
    · rw [if_pos hempty, hrecordList]
      exact ⟨hlist, fun _ hhost => hhost⟩
    · rw [if_neg hempty]
      have hnode : call.nodes = req.node := by
        rw [hnodes] at hempty ⊢
        split at hempty
        · exact absurd rfl hempty
        · rename_i hrun
          rw [if_neg hrun]
      rw [hnode] at hempty ⊢
      have hall : nodesBelong call.job req.node = true := hbelong.resolve_left hempty
      refine ⟨plainPattern_of_nodesBelong hlist hall, fun host hhost => ?_⟩
      simpa using List.all_eq_true.1 hall host hhost
  have hlists : ∀ n ∈ [if call.nodes = "" then call.record.nodeList else call.nodes,
      call.record.nodeList], ∀ host ∈ Go.split n '|', host ∈ Go.split call.job.nodeList '|' := by
    intro n hn
    rcases List.mem_cons.1 hn with rfl | hn
    · exact hasked.2
    · rw [List.mem_singleton.1 hn, hrecordList]
      exact fun _ hhost => hhost
  intro q hq
  refine harmless_of_about hnow hj hname hinside hlists ?_
  rintro q' rfl
  exact ⟨plain_of_mem_sent hplain.db hpipe hasked.1 (hrecordList ▸ hlist) hq,
    about_of_mem_sent hq⟩

theorem harmless_getMetric (hplain : b.Plain Pipeline user) (hadmin : user.isAdmin = false)
    {now : ℤ} {req : GetMetricRequest} {call : MetricCall}
    (hcall : getMetricCall now b user req = .ok call) (hlife : RanAnHour now call.job)
    (haggFn : Literal req.aggFn) {times : List ℤ} (hnow : now ∈ times) :
    ∀ q ∈ call.queries b.db, Harmless Pipeline (OwnSample b user times) q := by
  obtain ⟨id, -, hj, haccess, hrecord, hfind, hfn, -⟩ := getMetricCall_eq_ok hcall
  have hmetric := List.mem_of_find?_eq_some hfind
  have hname := name_of_mayAccess hadmin haccess
  have hlist := hplain.nodeList hj hname
  obtain ⟨hinside, hrecordList⟩ := inside_of_lastHour hrecord hlife
  have hlists : ∀ n ∈ [call.record.nodeList], ∀ host ∈ Go.split n '|',
      host ∈ Go.split call.job.nodeList '|' := by
    intro n hn
    rw [List.mem_singleton.1 hn, hrecordList]
    exact fun _ hhost => hhost
  intro q hq
  refine harmless_of_about hnow hj hname hinside hlists ?_
  rintro q' rfl
  have hquery := (List.mem_singleton.1 hq).symm
  exact ⟨plain_aggregateQuery hplain.db (hplain.metrics _ hmetric) (hrecordList ▸ hlist)
    (hfn ▸ haggFn) hquery, about_aggregateQuery (List.mem_singleton_self _) hquery⟩

theorem harmless_event (hpipe : PipelineTexts Pipeline) (hplain : b.Plain Pipeline user) {id : ℤ}
    {j : JobMetadata} (hj : b.store.getJob id = some j) (hname : j.userName = user.username)
    {now : ℤ} {e : LiveEvent} (hlife : e.InLife now j) {times : List ℤ} (hnow : now ∈ times) :
    ∀ q ∈ e.asks now b { job := j }, Harmless Pipeline (OwnSample b user times) q := by
  have hlist := hplain.nodeList hj hname
  have hlists : ∀ n ∈ [j.nodeList, j.nodeList], ∀ host ∈ Go.split n '|',
      host ∈ Go.split j.nodeList '|' := by
    intro n hn host hhost
    rcases List.mem_cons.1 hn with rfl | hn
    · exact hhost
    · rwa [List.mem_singleton.1 hn] at hhost
  intro q hq
  cases e with
  | message msg =>
    cases msg with
    | other => cases hq
    | loadMetrics startTime stopTime =>
      have hinside : WindowInside now j (loadMetricsRecord j startTime stopTime) :=
        (loadMetricsRecord_inside_iff rfl).2 hlife
      refine harmless_of_about hnow hj hname hinside hlists ?_
      rintro q' rfl
      have hsent : some q' ∈ b.db.sent (loadMetricsRecord j startTime stopTime) j.nodeList
          (loadMetricsCall now b { job := j } startTime stopTime).2 false false := hq
      have hall : PlainPattern (loadMetricsRecord j startTime stopTime).nodeList := hlist
      exact ⟨plain_of_mem_sent hplain.db hpipe hlist hall hsent, about_of_mem_sent hsent⟩
  | tick =>
    have hinside : WindowInside now j (lastRecord now j) := by
      rw [windowInside_iff, lastRecord, JobMetadata.lifetimeEnd]
      intro _
      split
      · exact ⟨le_refl _, le_refl _⟩
      · exact ⟨le_refl _, le_refl _⟩
    have hrecordList : (lastRecord now j).nodeList = j.nodeList := by
      rw [lastRecord]
      split
      · rfl
      · rfl
    refine harmless_of_about hnow hj hname hinside (List.forall_mem_cons.1 hlists).2 ?_
    rintro q' rfl
    refine ⟨plain_of_mem_lastSent hplain.db hpipe (hrecordList ▸ hlist) hq, ?_⟩
    have habout := about_of_mem_lastSent hq
    rwa [hrecordList] at habout

/-- **Plain requests inside the life of a job are confined**, as long as they are about
the user's own. -/
theorem readConfined_of_inLife (hpipe : PipelineTexts Pipeline) (hplain : b.Plain Pipeline user)
    (hadmin : user.isAdmin = false) (hcache : b.jobCache.list = []) (hterm : req.PlainTerm)
    (hown : req.AboutOwn b user) (hlife : req.InLife out.env.now b) :
    ReadConfined Pipeline out b user req := by
  refine readConfined_of_harmless hadmin hcache hterm hown fun q hq => ?_
  cases req with
  | getJobs params => cases hq
  | searchJob term => cases hq
  | searchTag term => cases hq
  | getJob req =>
    cases hcall : getJobCall out.env.now b user req with
    | error response =>
      simp only [ReadRequest.asks, hcall] at hq
      cases hq
    | ok call =>
      obtain ⟨id, hid, hj, -⟩ := getJobCall_eq_ok hcall
      simp only [ReadRequest.asks, hcall] at hq
      split at hq
      · cases hq
      · exact harmless_getJob hpipe hplain hadmin hcall (hlife id call.job hid hj)
          (List.mem_singleton_self _) q hq
  | getMetric req =>
    cases hcall : getMetricCall out.env.now b user req with
    | error response =>
      simp only [ReadRequest.asks, hcall] at hq
      cases hq
    | ok call =>
      obtain ⟨id, hid, hj, -⟩ := getMetricCall_eq_ok hcall
      simp only [ReadRequest.asks, hcall] at hq
      exact harmless_getMetric hplain hadmin hcall (hlife.2 id call.job hid hj) hlife.1
        (List.mem_singleton_self _) q hq
  | liveMonitoring strId events =>
    cases hid : Go.atoi strId with
    | error e =>
      simp only [ReadRequest.asks, liveMonitoring, hid] at hq
      cases hq
    | ok id =>
      obtain ⟨j, hj, hname⟩ := hown id hid
      simp only [ReadRequest.asks, liveMonitoring, hid, hj, Option.map_some] at hq
      obtain ⟨p, hp, hq⟩ := List.mem_flatMap.1 hq
      exact harmless_event hpipe hplain hj hname (hlife id j hid hj p hp)
        (List.mem_cons_of_mem _ (List.mem_map.2 ⟨p, hp, rfl⟩)) q hq

end Plain

/-- **Read confinement.**  A request is confined exactly when the role is missing, or
when it is about the user's own and none of its queries reads samples of other jobs.
With plain texts it is enough that it is about the user's own and asks for nothing
outside the life of the job. -/
theorem read_confinement (Pipeline : String → Prop) (out : Surroundings) (b : Backend)
    (user : UserInfo) (req : ReadRequest) (hadmin : user.isAdmin = false)
    (hcache : b.jobCache.list = []) (hterm : req.PlainTerm) :
    (ReadConfined Pipeline out b user req ↔
      user.permitted USER = false ∨
        req.AboutOwn b user ∧ ∀ q ∈ req.asks out.env.now b user,
          Harmless Pipeline (OwnSample b user (req.times out.env.now)) q) ∧
    (PipelineTexts Pipeline → b.Plain Pipeline user → req.AboutOwn b user →
      req.InLife out.env.now b → ReadConfined Pipeline out b user req) :=
  ⟨readConfined_iff hadmin hcache hterm, fun hpipe hplain hown hlife =>
    readConfined_of_inLife hpipe hplain hadmin hcache hterm hown hlife⟩

/-! ## A job of somebody else -/

/-- The pipelines that consist of what the code puts in itself. -/
inductive LastOnly : String → Prop
  | nothing : LastOnly ""
  | last (s : String) : LastOnly s → LastOnly (s ++ "|> last()")

/-- A message on a live connection for the job that has ended. -/
def watchOldJob : ReadRequest :=
  .liveMonitoring "2" [(2000, .message (.loadMetrics 600 1200))]

/-- Alice has no job, but she is sent the metric of a job of somebody else; without the
job, which is not hers, the connection is not served.  And `GetJob` tells her whether
there is such a job. -/
theorem live_monitoring_not_confined :
    (∃ data, (watchOldJob.answer silentSurroundings twoJobsBackend alice).live =
      some [.ok (some [data])]) ∧
    ¬ ReadConfined LastOnly silentSurroundings twoJobsBackend alice watchOldJob ∧
    ¬ ReadConfined LastOnly silentSurroundings twoJobsBackend alice (.getJob { id := "2" }) := by
  have hconst : Server.Local LastOnly fun _ => Store.silentEnvironment.api :=
    ⟨fun _ _ _ _ _ => rfl, fun _ _ _ _ _ => rfl, fun _ _ => ⟨rfl, rfl⟩⟩
  have hsame : twoJobsBackend.SameFor alice.username (twoJobsBackend.withStore {}) :=
    ⟨rfl, rfl, rfl, ⟨by decide, by decide, by decide, by decide⟩⟩
  refine ⟨⟨_, rfl⟩, ?_, ?_⟩
  · intro h
    have hanswer := h _ hconst ∅ ∅ _ hsame fun _ _ => Iff.rfl
    have hserved : true = false := congrArg (fun a : Answer => a.live.isSome) hanswer
    cases hserved
  · intro h
    have hanswer := h _ hconst ∅ ∅ _ hsame fun _ _ => Iff.rfl
    have hcodes : Response.error 401 = Response.error 500 := congrArg Answer.response hanswer
    cases hcodes

theorem read_confinement_oldJob :
    ReadConfined LastOnly silentSurroundings twoJobsBackend { username := "u", roles := [USER] }
      (.liveMonitoring "2" [(2000, .message (.loadMetrics 600 1200)), (2030, .tick)]) := by
  have hpipe : PipelineTexts LastOnly := ⟨.nothing, .last⟩
  have hmetric : ({ guid := "g", measurement := "cpu_load" } : MetricConfig).Plain LastOnly :=
    ⟨by decide, by decide, by decide, .nothing, .nothing⟩
  have hplain : twoJobsBackend.Plain LastOnly { username := "u", roles := [USER] } := by
    refine ⟨⟨by decide, ?_, ?_⟩, ?_, by decide⟩
    · intro p hp
      rw [List.mem_singleton.1 (show p ∈ [("g", _)] from hp)]
      exact hmetric
    · intro x hx
      cases hx
    · intro m hm
      rw [List.mem_singleton.1 (show m ∈ [_] from hm)]
      exact hmetric
  refine (read_confinement LastOnly silentSurroundings twoJobsBackend
    { username := "u", roles := [USER] } (.liveMonitoring "2"
      [(2000, .message (.loadMetrics 600 1200)), (2030, .tick)]) rfl rfl trivial).2 hpipe hplain
      ?_ ?_
  · intro id hid
    cases hid
    exact ⟨oldJob, rfl, rfl⟩
  · intro id j hid hj p hp
    cases hid
    cases hj
    rcases List.mem_cons.1 hp with rfl | hp
    · exact Or.inl (le_refl _)
    · rw [List.mem_singleton.1 hp]
      exact trivial

end JobMon
