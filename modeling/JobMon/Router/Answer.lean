import JobMon.Router.Window
import JobMon.Router.Write

/-!
# Answers to requests that read

A request that reads gets a response and, when it opens a live connection, what is
sent on it afterwards.

* `ReadRequest.answer` — the answer, a live connection with its events included.
* `ReadRequest.asks` — the queries that are sent for a request.
* `answer_congr` — nothing but these queries matters of the server.
* `crashed_of_panics`, `not_crashed_of_quiet` — and each of them does.
-/

namespace JobMon

open Keyed InfluxDB

/-! ## Requests that read -/

/-- What happens on a live connection: a message of the client, or a tick of the
sampler. -/
inductive LiveEvent
  | message (msg : WSMessage)
  | tick

/-- A request that reads; a live connection with what happens on it, and when. -/
inductive ReadRequest
  | getJobs (params : QueryParams)
  | getJob (req : GetJobRequest)
  | getMetric (req : GetMetricRequest)
  | liveMonitoring (id : String) (events : List (ℤ × LiveEvent))
  | searchJob (term : String)
  | searchTag (term : String)

/-- The route. -/
def ReadRequest.route : ReadRequest → Request
  | .getJobs params => .getJobs params
  | .getJob req => .getJob req
  | .getMetric req => .getMetric req
  | .liveMonitoring id _ => .liveMonitoring id
  | .searchJob term => .searchJob term
  | .searchTag term => .searchTag term

/-- What is sent for an event, and the connection after it. -/
def LiveEvent.answer (env : Environment) (b : Backend) (conn : LiveConnection) :
    LiveEvent → Result (Option (List MetricData)) × LiveConnection
  | .message msg => loadMetrics env b conn msg
  | .tick => (latestMetrics env b conn, conn)

/-- What is sent on a live connection, up to the event that ends the process. -/
def serveLive (env : Environment) (b : Backend) :
    LiveConnection → List (ℤ × LiveEvent) → List (Result (Option (List MetricData)))
  | _, [] => []
  | conn, (now, e) :: events =>
    match e.answer (env.atTime now) b conn with
    | (.error f, _) => [.error f]
    | (.ok sent, conn) => .ok sent :: serveLive env b conn events

/-- What the client gets: the response and, on a live connection that is served (one
that is not does not even answer a ping), what is sent on it. -/
structure Answer where
  response : Response
  live : Option (List (Result (Option (List MetricData)))) := none

/-- The process has ended while the client was waiting. -/
def Answer.Crashed (a : Answer) : Prop :=
  a.response = .crash ∨ ∃ sent, a.live = some sent ∧ .error .panic ∈ sent

/-- What follows on the response. -/
def ReadRequest.live (env : Environment) (b : Backend) (user : UserInfo) :
    ReadRequest → Option (List (Result (Option (List MetricData))))
  | .liveMonitoring id events =>
    (JobMon.liveMonitoring b user id).2.map fun conn => serveLive env b conn events
  | _ => none

/-- The answer to an authenticated request. -/
def ReadRequest.answer (out : Surroundings) (b : Backend) (user : UserInfo) (req : ReadRequest) :
    Answer :=
  { response := (serve out b user req.route).1
    live := if user.permitted req.route.authLevel then req.live out.env b user else none }

/-- The same surroundings with another server. -/
def Surroundings.withAPI (out : Surroundings) (api : FluxAPI) : Surroundings :=
  { out with env := out.env.withAPI api }

/-! ## Queries -/

/-- The queries for an event. -/
def LiveEvent.asks (now : ℤ) (b : Backend) (conn : LiveConnection) :
    LiveEvent → List (Option FluxQuery)
  | .message (.loadMetrics startTime stopTime) => loadMetricsQueries now b conn startTime stopTime
  | .message .other => []
  | .tick => b.db.lastSent (lastRecord now conn.job) b.db.lastInterval

/-- The queries for a request.  A cache without room ends the process whatever the
queries yield. -/
def ReadRequest.asks (now : ℤ) (b : Backend) (user : UserInfo) :
    ReadRequest → List (Option FluxQuery)
  | .getJob req =>
    match getJobCall now b user req with
    | .error _ => []
    | .ok call =>
      if call.throughCache = true ∧ b.jobCache.size ≤ 0 then [] else call.queries b.db
  | .getMetric req =>
    match getMetricCall now b user req with
    | .error _ => []
    | .ok call => call.queries b.db
  | .liveMonitoring id events =>
    match (JobMon.liveMonitoring b user id).2 with
    | none => []
    | some conn => events.flatMap fun p => p.2.asks p.1 b conn
  | _ => []

/-! ## Live connections -/

section Live

variable {env : Environment} {b : Backend} {conn : LiveConnection}

theorem LiveEvent.answer_snd (env : Environment) (b : Backend) (conn : LiveConnection)
    (e : LiveEvent) : (e.answer env b conn).2 = conn := by
  cases e with
  | message msg => exact job_of_loadMetrics env b conn msg
  | tick => rfl

/-- The only error of an event is the end of the process. -/
theorem LiveEvent.answer_fst {e : LiveEvent} {f : Fault} (h : (e.answer env b conn).1 = .error f) :
    f = .panic := by
  cases e with
  | message msg =>
    cases msg with
    | other => cases h
    | loadMetrics startTime stopTime =>
      simp only [LiveEvent.answer, loadMetrics] at h
      split at h
      · cases h
        rfl
      · cases h
      · cases h
  | tick =>
    simp only [LiveEvent.answer, latestMetrics] at h
    split at h
    · cases h
      rfl
    · cases h
    · cases h

theorem serveLive_congr {env' : Environment} {b' : Backend} {events : List (ℤ × LiveEvent)}
    (h : ∀ p ∈ events, (p.2.answer (env.atTime p.1) b conn).1 =
      (p.2.answer (env'.atTime p.1) b' conn).1) :
    serveLive env b conn events = serveLive env' b' conn events := by
  induction events with
  | nil => rfl
  | cons p events ih =>
    have hsame : p.2.answer (env.atTime p.1) b conn = p.2.answer (env'.atTime p.1) b' conn := by
      refine Prod.ext (h p List.mem_cons_self) ?_
      rw [LiveEvent.answer_snd, LiveEvent.answer_snd]
    have hconn := LiveEvent.answer_snd (env'.atTime p.1) b' conn p.2
    simp only [serveLive, hsame]
    cases hans : p.2.answer (env'.atTime p.1) b' conn with
    | mk result conn' =>
      rw [hans] at hconn
      cases hconn
      cases result with
      | error f => rfl
      | ok sent =>
        simp only [ih fun q hq => h q (List.mem_cons_of_mem _ hq)]

/-- One event that ends the process is seen. -/
theorem panic_mem_serveLive {events : List (ℤ × LiveEvent)}
    (h : ∃ p ∈ events, (p.2.answer (env.atTime p.1) b conn).1 = .error .panic) :
    .error .panic ∈ serveLive env b conn events := by
  induction events with
  | nil =>
    obtain ⟨p, hp, -⟩ := h
    cases hp
  | cons p events ih =>
    have hconn := LiveEvent.answer_snd (env.atTime p.1) b conn p.2
    have hfault := @LiveEvent.answer_fst (env.atTime p.1) b conn p.2
    simp only [serveLive]
    cases hans : p.2.answer (env.atTime p.1) b conn with
    | mk result conn' =>
      rw [hans] at hconn hfault
      cases hconn
      cases result with
      | error f =>
        rw [hfault rfl]
        exact List.mem_singleton_self _
      | ok sent =>
        refine List.mem_cons_of_mem _ (ih ?_)
        obtain ⟨q, hq, hpanic⟩ := h
        rcases List.mem_cons.1 hq with rfl | hq
        · rw [hans] at hpanic
          cases hpanic
        · exact ⟨q, hq, hpanic⟩

theorem panic_not_mem_serveLive {events : List (ℤ × LiveEvent)}
    (h : ∀ p ∈ events, (p.2.answer (env.atTime p.1) b conn).1 ≠ .error .panic) :
    .error .panic ∉ serveLive env b conn events := by
  induction events with
  | nil => exact List.not_mem_nil
  | cons p events ih =>
    have hconn := LiveEvent.answer_snd (env.atTime p.1) b conn p.2
    have hhead := h p List.mem_cons_self
    simp only [serveLive]
    cases hans : p.2.answer (env.atTime p.1) b conn with
    | mk result conn' =>
      rw [hans] at hconn hhead
      cases hconn
      cases result with
      | error f =>
        intro hmem
        exact hhead (List.mem_singleton.1 hmem).symm
      | ok sent =>
        intro hmem
        rcases List.mem_cons.1 hmem with hmem | hmem
        · cases hmem
        · exact ih (fun q hq => h q (List.mem_cons_of_mem _ hq)) hmem

end Live

/-! ## The queries of an event -/

section Events

variable {env : Environment} {b : Backend} {conn : LiveConnection} {e : LiveEvent}

theorem LiveEvent.answer_congr {api' : FluxAPI}
    (h : env.api.AgreeOn api' (e.asks env.now b conn)) :
    (e.answer env b conn).1 = (e.answer (env.withAPI api') b conn).1 := by
  cases e with
  | message msg =>
    cases msg with
    | other => rfl
    | loadMetrics startTime stopTime =>
      exact congrArg Prod.fst (@loadMetrics_congr env api' b conn startTime stopTime h)
  | tick =>
    have hlast := @queryLastDatapoints_congr b.db conn.job env api' h
    simp only [LiveEvent.answer, latestMetrics, hlast]

theorem LiveEvent.answer_panics (h : env.api.PanicsOn (e.asks env.now b conn)) :
    (e.answer env b conn).1 = .error .panic := by
  cases e with
  | message msg =>
    cases msg with
    | other =>
      exact (FluxAPI.not_panicsOn_nil _ h).elim
    | loadMetrics startTime stopTime =>
      have hdata : getJobDataOf env b.db (loadMetricsCall env.now b conn startTime stopTime).1 ""
          (loadMetricsCall env.now b conn startTime stopTime).2 false = .error .panic :=
        getJobData_panics h
      simp only [LiveEvent.answer, loadMetrics, hdata]
  | tick =>
    have hlast : queryLastDatapoints env b.db conn.job = .error .panic :=
      queryLastDatapoints_panics h
    simp only [LiveEvent.answer, latestMetrics, hlast]

theorem LiveEvent.answer_quiet (h : env.api.Quiet) : (e.answer env b conn).1 ≠ .error .panic := by
  cases e with
  | message msg =>
    cases msg with
    | other =>
      intro hpanic
      cases hpanic
    | loadMetrics startTime stopTime =>
      obtain ⟨data, hdata⟩ : ∃ data, getJobDataOf env b.db
          (loadMetricsCall env.now b conn startTime stopTime).1 ""
          (loadMetricsCall env.now b conn startTime stopTime).2 false = .ok data :=
        getJobData_of_quiet h
      simp only [LiveEvent.answer, loadMetrics, hdata]
      intro hpanic
      cases hpanic
  | tick =>
    have hlast := @queryLastDatapoints_of_quiet b.db conn.job env h
    simp only [LiveEvent.answer, latestMetrics]
    split
    · rename_i hpanic
      exact absurd hpanic hlast
    · intro hpanic
      cases hpanic
    · intro hpanic
      cases hpanic

end Events

/-! ## The queries of a request -/

section Queries

variable {out : Surroundings} {b : Backend} {user : UserInfo} {req : ReadRequest}

/-- All these routes ask for the role of a user. -/
theorem answer_eq (out : Surroundings) (b : Backend) (user : UserInfo) (req : ReadRequest) :
    req.answer out b user =
      if user.permitted USER = true then
        { response := (handle out b user req.route).1, live := req.live out.env b user }
      else { response := .error 403 } := by
  have hlevel : req.route.authLevel = USER := by cases req <;> rfl
  rw [ReadRequest.answer, serve, hlevel]
  split
  · rfl
  · rfl

theorem answer_ext {out' : Surroundings} {b' : Backend}
    (hresponse : (handle out b user req.route).1 = (handle out' b' user req.route).1)
    (hlive : req.live out.env b user = req.live out'.env b' user) :
    req.answer out b user = req.answer out' b' user := by
  rw [answer_eq, answer_eq, hresponse, hlive]

/-- A cache without room ends the process. -/
theorem run_no_room (env : Environment) {call : JobDataCall} (hthrough : call.throughCache = true)
    (hsize : b.jobCache.size ≤ 0) (hcache : b.jobCache.list = []) :
    (call.run env b).1 = .error .panic := by
  simp only [JobDataCall.run, hthrough, if_true, LRUCache.get_of_no_room hsize hcache]
  cases hdata : (toDB env b.db).getJobData call.record (LRUCache.nodesOf call.record)
      call.sampleInterval false with
  | ok data => rfl
  | error f =>
    rw [Store.getJobData_error hdata]

theorem run_panics {env : Environment} {req : GetJobRequest} {call : JobDataCall}
    (hcall : getJobCall env.now b user req = .ok call) (hcache : b.jobCache.list = [])
    (h : env.api.PanicsOn (call.queries b.db)) : (call.run env b).1 = .error .panic := by
  unfold JobDataCall.run
  cases hthrough : call.throughCache with
  | false =>
    have hdata : getJobDataOf env b.db call.record call.nodes call.sampleInterval call.raw =
        .error .panic := getJobData_panics h
    simp only [Bool.false_eq_true, if_false, hdata]
    rfl
  | true =>
    have hdata : (toDB env b.db).getJobData call.record (LRUCache.nodesOf call.record)
        call.sampleInterval false = .error .panic := by
      rw [queries_of_throughCache hcall hthrough] at h
      exact getJobData_panics h
    have hmiss : b.jobCache.cached call.record.id = none := by
      rw [LRUCache.cached, hcache]
      rfl
    simp only [if_true, LRUCache.get_of_failed hmiss hdata]

/-- **Nothing but its queries matters** of the server. -/
theorem answer_congr {api' : FluxAPI} (hcache : b.jobCache.list = [])
    (h : out.env.api.AgreeOn api' (req.asks out.env.now b user)) :
    req.answer out b user = req.answer (out.withAPI api') b user := by
  cases req with
  | getJobs params => rfl
  | searchJob term => rfl
  | searchTag term => rfl
  | getJob req =>
    have hsame : (getJob out.env b user req).1 = (getJob (out.env.withAPI api') b user req).1 := by
      by_cases hroom : ∃ call, getJobCall out.env.now b user req = .ok call ∧
          call.throughCache = true ∧ b.jobCache.size ≤ 0
      · obtain ⟨call, hcall, hthrough, hsize⟩ := hroom
        have hcall' : getJobCall (out.env.withAPI api').now b user req = .ok call := hcall
        simp only [getJob, hcall, hcall', run_no_room _ hthrough hsize hcache]
      · refine congrArg Prod.fst (getJob_congr fun call hcall => ?_)
        have hasks : ReadRequest.asks out.env.now b user (.getJob req) = call.queries b.db := by
          simp only [ReadRequest.asks, hcall]
          exact if_neg fun hno => hroom ⟨call, hcall, hno⟩
        rw [hasks] at h
        exact h
    exact answer_ext hsame rfl
  | getMetric req =>
    have hsame : getMetric out.env b user req = getMetric (out.env.withAPI api') b user req := by
      refine getMetric_congr fun call hcall => ?_
      simp only [ReadRequest.asks, hcall] at h
      exact h
    exact answer_ext hsame rfl
  | liveMonitoring id events =>
    have hsame : ReadRequest.live out.env b user (.liveMonitoring id events) =
        ReadRequest.live (out.env.withAPI api') b user (.liveMonitoring id events) := by
      simp only [ReadRequest.live]
      cases hconn : (liveMonitoring b user id).2 with
      | none => rfl
      | some conn =>
        simp only [ReadRequest.asks, hconn] at h
        simp only [Option.map_some]
        congr 1
        refine serveLive_congr fun p hp => ?_
        exact @LiveEvent.answer_congr (out.env.atTime p.1) b conn p.2 api' fun q hq =>
          h q (List.mem_flatMap.2 ⟨p, hp, hq⟩)
    exact answer_ext rfl hsame

/-- **All its queries are sent**: the process ends when one of them ends it. -/
theorem crashed_of_panics (huser : user.permitted USER = true) (hcache : b.jobCache.list = [])
    (h : out.env.api.PanicsOn (req.asks out.env.now b user)) :
    (req.answer out b user).Crashed := by
  cases req with
  | getJobs params =>
    exact (FluxAPI.not_panicsOn_nil _ h).elim
  | searchJob term =>
    exact (FluxAPI.not_panicsOn_nil _ h).elim
  | searchTag term =>
    exact (FluxAPI.not_panicsOn_nil _ h).elim
  | getJob req =>
    rw [answer_eq, if_pos huser]
    left
    cases hcall : getJobCall out.env.now b user req with
    | error response =>
      simp only [ReadRequest.asks, hcall] at h
      exact (FluxAPI.not_panicsOn_nil _ h).elim
    | ok call =>
      have hasks : out.env.api.PanicsOn (call.queries b.db) := by
        simp only [ReadRequest.asks, hcall] at h
        split at h
        · exact (FluxAPI.not_panicsOn_nil _ h).elim
        · exact h
      have hrun : (call.run out.env b).1 = .error .panic := run_panics hcall hcache hasks
      simp only [ReadRequest.route, handle, getJob, hcall, hrun]
      rfl
  | getMetric req =>
    rw [answer_eq, if_pos huser]
    left
    cases hcall : getMetricCall out.env.now b user req with
    | error response =>
      simp only [ReadRequest.asks, hcall] at h
      exact (FluxAPI.not_panicsOn_nil _ h).elim
    | ok call =>
      simp only [ReadRequest.asks, hcall] at h
      have hdata : getMetricDataWithAggFn out.env b.db call.record call.metric call.aggFn
          call.sampleInterval = .error .panic := getMetricDataWithAggFn_panics h
      simp only [ReadRequest.route, handle, getMetric, hcall, hdata]
  | liveMonitoring id events =>
    rw [answer_eq, if_pos huser]
    right
    cases hconn : (liveMonitoring b user id).2 with
    | none =>
      simp only [ReadRequest.asks, hconn] at h
      exact (FluxAPI.not_panicsOn_nil _ h).elim
    | some conn =>
      simp only [ReadRequest.asks, hconn] at h
      obtain ⟨q, hq, hpanics⟩ := h
      obtain ⟨p, hp, hq⟩ := List.mem_flatMap.1 hq
      refine ⟨serveLive out.env b conn events, ?_, panic_mem_serveLive ⟨p, hp, ?_⟩⟩
      · simp only [ReadRequest.live, hconn, Option.map_some]
      · exact @LiveEvent.answer_panics (out.env.atTime p.1) b conn p.2 ⟨q, hq, hpanics⟩

theorem run_quiet {env : Environment} {call : JobDataCall} (h : env.api.Quiet)
    (hcache : b.jobCache.list = []) (hroom : ¬ (call.throughCache = true ∧ b.jobCache.size ≤ 0)) :
    ∃ data, (call.run env b).1 = .ok data := by
  unfold JobDataCall.run
  cases hthrough : call.throughCache with
  | false =>
    obtain ⟨data, hdata⟩ : ∃ data, getJobDataOf env b.db call.record call.nodes
        call.sampleInterval call.raw = .ok data := getJobData_of_quiet h
    simp only [Bool.false_eq_true, if_false, hdata]
    exact ⟨_, rfl⟩
  | true =>
    obtain ⟨data, hdata⟩ : ∃ data, (toDB env b.db).getJobData call.record
        (LRUCache.nodesOf call.record) call.sampleInterval false = .ok data :=
      getJobData_of_quiet h
    have hmiss : b.jobCache.cached call.record.id = none := by
      rw [LRUCache.cached, hcache]
      rfl
    have hput : b.jobCache.put { id := call.record.id, data } =
        some { b.jobCache with list := [{ id := call.record.id, data }] } := by
      rw [LRUCache.put_of_room, hcache]
      rw [hcache, List.length_nil]
      by_contra hsize
      exact hroom ⟨hthrough, by omega⟩
    simp only [if_true, LRUCache.get, LRUCache.find_of_not_cached hmiss, hdata, hput]
    exact ⟨data, rfl⟩

/-- A server that has nothing ends no process that would have sent queries. -/
theorem not_crashed_of_quiet (hcache : b.jobCache.list = []) (h : out.env.api.Quiet)
    (hasks : req.asks out.env.now b user ≠ []) : ¬ (req.answer out b user).Crashed := by
  rw [answer_eq]
  split
  case isFalse =>
    rintro (hcrash | ⟨sent, hlive, -⟩)
    · cases hcrash
    · cases hlive
  rintro (hhandle | ⟨sent, hserved, hpanic⟩)
  · replace hhandle : (handle out b user req.route).1 = .crash := hhandle
    cases req with
    | getJobs params => cases hhandle
    | searchJob term => exact hasks rfl
    | searchTag term => exact hasks rfl
    | getJob req =>
      cases hcall : getJobCall out.env.now b user req with
      | error response =>
        simp only [ReadRequest.asks, hcall] at hasks
        exact hasks rfl
      | ok call =>
        have hroom : ¬ (call.throughCache = true ∧ b.jobCache.size ≤ 0) := by
          intro hno
          simp only [ReadRequest.asks, hcall, if_pos hno] at hasks
          exact hasks rfl
        obtain ⟨data, hdata⟩ := run_quiet h hcache hroom
        simp only [ReadRequest.route, handle, getJob, hcall, hdata] at hhandle
        cases hhandle
    | getMetric req =>
      cases hcall : getMetricCall out.env.now b user req with
      | error response =>
        simp only [ReadRequest.asks, hcall] at hasks
        exact hasks rfl
      | ok call =>
        obtain ⟨data, hdata⟩ := @getMetricDataWithAggFn_of_quiet b.db call.record call.aggFn
          call.sampleInterval call.metric out.env h
        simp only [ReadRequest.route, handle, getMetric, hcall, hdata] at hhandle
        cases hhandle
    | liveMonitoring id events =>
      simp only [ReadRequest.route, handle, liveMonitoring] at hhandle
      split at hhandle
      · cases hhandle
      · cases hhandle
  · replace hserved : req.live out.env b user = some sent := hserved
    cases req with
    | liveMonitoring id events =>
      obtain ⟨conn, -, rfl⟩ := Option.map_eq_some_iff.1 hserved
      refine panic_not_mem_serveLive (fun p hp => ?_) hpanic
      exact @LiveEvent.answer_quiet (out.env.atTime p.1) b conn p.2 h
    | _ => cases hserved

end Queries

end JobMon
