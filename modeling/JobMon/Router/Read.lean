import JobMon.Router.Backend

/-!
# The handlers that read

`GetJobs`, `GetJob`, `GetMetric`, `LiveMonitoring` and the searches.
The handlers that query InfluxDB come in two parts: which call they make, if any,
and what they answer given its result.

* `getJobCall`, `getMetricCall`, `loadMetricsCall` — the calls.
* `getJob`, `getMetric`, `loadMetrics` — the handlers.
* `job_of_loadMetrics` — a message on a live connection leaves it as it was.

The clock is read once for each request.
-/

namespace JobMon

open Keyed

/-! ## Query parameters -/

/-- `req.URL.Query().Get`: empty for a parameter that is not given. -/
abbrev QueryParams := String → String

/-- `parseRangeFilter`. -/
def parseRangeFilter (str : String) : Option RangeFilter :=
  match Go.split str ',' with
  | [p0, p1] => some { from_ := (Go.atoi p0).toOption, to_ := (Go.atoi p1).toOption }
  | _ => none

/-- An ID in the filter of `GetJobs`.  The error is tested the wrong way round:
the filter is set when the text is not a number. -/
def parseIdFilter (str : String) : Option ℤ :=
  if str = "" then none
  else
    match Go.atoi str with
    | .error i => some i
    | .ok _ => none

/-- A text in the filter of `GetJobs`. -/
def parseTextFilter (str : String) : Option String := if str = "" then none else some str

/-- `parseGetJobParams`. -/
def parseGetJobParams (params : QueryParams) : JobFilter :=
  { userId := parseIdFilter (params "UserId")
    userName := parseTextFilter (params "UserName")
    groupId := parseIdFilter (params "GroupId")
    groupName := parseTextFilter (params "GroupName")
    isRunning :=
      if params "IsRunning" = "true" then some true
      else if params "IsRunning" = "false" then some false
      else none
    partition := parseTextFilter (params "Partition")
    numNodes := if params "NumNodes" = "" then none else parseRangeFilter (params "NumNodes")
    numTasks := if params "NumTasks" = "" then none else parseRangeFilter (params "NumTasks")
    numGpus := if params "NumGpus" = "" then none else parseRangeFilter (params "NumGpus")
    time := if params "Time" = "" then none else parseRangeFilter (params "Time")
    tags :=
      if params "Tags" = "" then none
      else some ((Go.split (params "Tags") ',').filterMap fun v =>
        (Go.atoi v).toOption.map fun i => { id := i }) }

/-! ## Lists -/

/-- `GetJobs`. -/
def getJobs (b : Backend) (user : UserInfo) (params : QueryParams) : Response :=
  let filter := parseGetJobParams params
  let filter := if user.isAdmin then filter else { filter with userName := some user.username }
  let jobs := b.store.getFilteredJobs filter
  let tags := b.store.getJobTags (if user.isAdmin then "" else user.username)
  .ok (.jobList jobs b.config.radarChartMetrics b.config.partitions tags)

/-- The user name a search is restricted to. -/
def searchUsername (user : UserInfo) : String := if user.isAdmin then "" else user.username

/-- `SearchJob`. -/
def searchJob (sql : Store.RawSQL) (b : Backend) (user : UserInfo) (term : String) : Response :=
  match b.store.getJobByString sql term (searchUsername user) with
  | some data => .ok (.jobs data)
  | none => .errorText 400 "router: SearchJob(): Could not read jobs\n"

/-- `SearchTag`. -/
def searchTag (sql : Store.RawSQL) (b : Backend) (user : UserInfo) (term : String) : Response :=
  match b.store.getJobTagsByName sql term (searchUsername user) with
  | some data => .ok (.tags data)
  | none => .errorText 400 "router: SearchTag(): Could not read tags\n"

/-- `SearchUser`. -/
def searchUser (sql : Store.RawSQL) (b : Backend) (term : String) : Response :=
  match b.store.getUserWithJob sql term with
  | some data => .ok (.users data)
  | none => .errorText 400 "router: SearchUser(): Could not read users\n"

/-! ## The data of a job -/

/-- The parameters of `GetJob`. -/
structure GetJobRequest where
  id : String
  node : String := ""
  raw : Bool := false
  sampleInterval : String := ""

/-- What `GetJob` asks InfluxDB for. -/
structure JobDataCall where
  /-- The record as it is in the store. -/
  job : JobMetadata
  /-- The record that is passed on, with its time window. -/
  record : JobMetadata
  nodes : String
  sampleInterval : Go.Duration
  sampleIntervals : List ℚ
  raw : Bool
  /-- Whether the call goes through the job cache. -/
  throughCache : Bool

/-- The user may see the job. -/
def mayAccess (user : UserInfo) (j : JobMetadata) : Bool :=
  user.isAdmin || decide (user.username = j.userName)

/-- All nodes asked for are nodes of the job. -/
def nodesBelong (j : JobMetadata) (node : String) : Bool :=
  (Go.split node '|').all fun reqNode => decide (reqNode ∈ Go.split j.nodeList '|')

/-- The sample interval of a request, the best one unless it names another. -/
def chosenInterval (query : String) (bestInterval : Go.Duration) : Go.Duration :=
  if query = "" then bestInterval else (Go.parseDuration (query ++ "s")).getD bestInterval

/-- The time window of a running job: the last hour. -/
def lastHour (now : ℤ) (j : JobMetadata) : JobMetadata :=
  if j.isRunning then { j with startTime := now - 3600, stopTime := now } else j

theorem nodeList_lastHour (now : ℤ) (j : JobMetadata) :
    (lastHour now j).nodeList = j.nodeList := by
  rw [lastHour]
  split
  · rfl
  · rfl

/-- The call `GetJob` makes, or what it answers without one. -/
def getJobCall (now : ℤ) (b : Backend) (user : UserInfo) (req : GetJobRequest) :
    Except Response JobDataCall :=
  match Go.atoi req.id with
  | .error _ => .error (.error 500)
  | .ok id =>
    match b.store.getJob id with
    | none => .error (.error 500)
    | some j =>
      if mayAccess user j = false then .error (.error 401)
      else if req.node ≠ "" ∧ nodesBelong j req.node = false then .error (.error 401)
      else
        let (intervals, bestInterval) := j.calculateSampleIntervals now b.sampleInterval
        .ok
          { job := j
            record := lastHour now j
            nodes := if j.isRunning then "" else req.node
            sampleInterval := chosenInterval req.sampleInterval bestInterval
            sampleIntervals := intervals
            raw := req.raw
            throughCache :=
              decide (req.node = "" ∧ req.sampleInterval = "" ∧ j.isRunning = false ∧
                req.raw = false) }

/-- The result of the call, and the cache it leaves.  Outside the cache the record
in the result is the one that was passed on. -/
def JobDataCall.run (env : Environment) (b : Backend) (call : JobDataCall) :
    Result JobData × LRUCache :=
  if call.throughCache then
    b.jobCache.get (InfluxDB.toDB env b.db) call.record call.sampleInterval
  else
    ((InfluxDB.getJobDataOf env b.db call.record call.nodes call.sampleInterval call.raw).map
      fun data => { data with metadata := { data.metadata with startTime := call.job.startTime } },
      b.jobCache)

/-- The answer to a call. -/
def JobDataCall.answer (call : JobDataCall) : Result JobData → Response
  | .error .panic => .crash
  | .error (.error _) => .error 500
  | .ok data =>
    .ok (.jobData { data with
      sampleInterval := Go.seconds call.sampleInterval
      sampleIntervals := call.sampleIntervals })

/-- `GetJob`. -/
def getJob (env : Environment) (b : Backend) (user : UserInfo) (req : GetJobRequest) :
    Response × Backend :=
  match getJobCall env.now b user req with
  | .error response => (response, b)
  | .ok call =>
    let (result, jobCache) := call.run env b
    (call.answer result, { b with jobCache })

/-! ## One metric of a job -/

/-- The parameters of `GetMetric`. -/
structure GetMetricRequest where
  id : String
  metric : String
  aggFn : String
  sampleInterval : String := ""

/-- What `GetMetric` asks InfluxDB for. -/
structure MetricCall where
  /-- The record as it is in the store. -/
  job : JobMetadata
  /-- The record that is passed on, with its time window. -/
  record : JobMetadata
  metric : MetricConfig
  aggFn : String
  sampleInterval : Go.Duration

/-- The call `GetMetric` makes, or what it answers without one. -/
def getMetricCall (now : ℤ) (b : Backend) (user : UserInfo) (req : GetMetricRequest) :
    Except Response MetricCall :=
  if req.metric = "" then .error (.error 400)
  else if req.aggFn = "" then .error (.error 400)
  else
    match Go.atoi req.id with
    | .error _ => .error (.error 500)
    | .ok id =>
      match b.store.getJob id with
      | none => .error (.error 500)
      | some j =>
        if mayAccess user j = false then .error (.error 401)
        else
          let bestInterval := (j.calculateSampleIntervals now b.sampleInterval).2
          match b.config.metrics.find? fun c => c.guid = req.metric with
          | none => .error (.error 500)
          | some metric =>
            .ok
              { job := j
                record := lastHour now j
                metric := metric
                aggFn := req.aggFn
                sampleInterval := chosenInterval req.sampleInterval bestInterval }

/-- `GetMetric`. -/
def getMetric (env : Environment) (b : Backend) (user : UserInfo) (req : GetMetricRequest) :
    Response :=
  match getMetricCall env.now b user req with
  | .error response => response
  | .ok call =>
    match InfluxDB.getMetricDataWithAggFn env b.db call.record call.metric call.aggFn
        call.sampleInterval with
    | .error .panic => .crash
    | .error (.error _) => .error 500
    | .ok data => .ok (.metricData data)

/-! ## Live monitoring -/

/-- A message of the client. -/
inductive WSMessage
  | loadMetrics (startTime stopTime : ℤ)
  | other
  deriving DecidableEq

/-- What a live connection works with: the job as it was read when the connection
was opened. -/
structure LiveConnection where
  job : JobMetadata
  deriving DecidableEq

/-- `LiveMonitoring`, up to the point where the connection is served.  When the
job is not found the connection has been upgraded already, so the status code
does not reach the client. -/
def liveMonitoring (b : Backend) (_user : UserInfo) (strId : String) :
    Response × Option LiveConnection :=
  match Go.atoi strId with
  | .error _ => (.error 500, none)
  | .ok id => (.upgraded, (b.store.getJob id).map fun j => { job := j })

/-- The window of a `LoadMetrics` message: the start is not before that of the
job, the stop is taken over as it is. -/
def loadMetricsRecord (j : JobMetadata) (startTime stopTime : ℤ) : JobMetadata :=
  { j with
    startTime := if j.startTime ≤ startTime then startTime else j.startTime
    stopTime := stopTime }

/-- What a `LoadMetrics` message asks InfluxDB for. -/
def loadMetricsCall (now : ℤ) (b : Backend) (conn : LiveConnection) (startTime stopTime : ℤ) :
    JobMetadata × Go.Duration :=
  let record := loadMetricsRecord conn.job startTime stopTime
  (record, (record.calculateSampleIntervals now b.sampleInterval).2)

/-- The record of the connection after a message: start and stop are restored. -/
def restore (conn : LiveConnection) (record : JobMetadata) : LiveConnection :=
  { job := { record with startTime := conn.job.startTime, stopTime := conn.job.stopTime } }

/-- The answer to a message, and the connection it leaves. -/
def loadMetrics (env : Environment) (b : Backend) (conn : LiveConnection) :
    WSMessage → Result (Option (List MetricData)) × LiveConnection
  | .other => (.ok none, conn)
  | .loadMetrics startTime stopTime =>
    let (record, bestInterval) := loadMetricsCall env.now b conn startTime stopTime
    let conn' := restore conn record
    match InfluxDB.getJobDataOf env b.db record "" bestInterval false with
    | .error .panic => (.error .panic, conn')
    | .error (.error _) => (.ok none, conn')
    | .ok data => (.ok (some data.metricData), conn')

/-- What the sampler sends on a tick: nothing when it fails. -/
def latestMetrics (env : Environment) (b : Backend) (conn : LiveConnection) :
    Result (Option (List MetricData)) :=
  match InfluxDB.queryLastDatapoints env b.db conn.job with
  | .error .panic => .error .panic
  | .error (.error _) => .ok none
  | .ok data => .ok (some data)

/-- **A message leaves the connection as it was**, so every message is served for
the same record. -/
theorem job_of_loadMetrics (env : Environment) (b : Backend) (conn : LiveConnection)
    (msg : WSMessage) : (loadMetrics env b conn msg).2 = conn := by
  cases msg with
  | other => rfl
  | loadMetrics startTime stopTime =>
    simp only [loadMetrics, loadMetricsCall]
    split <;> rfl

end JobMon
