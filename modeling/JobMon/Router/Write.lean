import JobMon.Config.Restart
import JobMon.Router.Read

/-!
# The handlers that write

`JobStart`, `JobStop`, `Logout`, `GenerateAPIKey`, `AddTag`, `RemoveTag`,
`UpdateConfig`, `RefreshMetadata` and `SetUserConfig`, and all protected routes
behind one function.

* `Request` — a request to a protected route; `authLevel` is the role it asks for.
* `serve` — `Protected` and the handler.
* `runStop`, `runPrefetch` — what `JobStop` leaves to goroutines.
-/

namespace JobMon

open Keyed

/-! ## Jobs -/

/-- `JobStart`: the answer is sent before the insert, whose failure is only
logged. -/
def jobStart (b : Backend) : Body JobMetadata → Response × Backend
  | .unreadable => (.errorText 400 "JobStart: Could not read http request body\n", b)
  | .malformed text =>
    (.errorText 400 ("JobStart: Could not unmarshal http request body " ++ text ++ "\n"), b)
  | .decoded j => (.ok .empty, { b with store := (b.store.putJob j).getD b.store })

/-- What `JobStop` leaves to a goroutine. -/
structure StopTask where
  id : ℤ
  stop : StopJob
  deriving DecidableEq

/-- `JobStop`, up to the answer. -/
def jobStop (strId : String) : Body StopJob → Response × Option StopTask
  | .unreadable => (.errorText 400 "router: JobStop(): Could not read http request body\n", none)
  | .malformed text =>
    (.errorText 400 ("router: JobStop(): Could not parse json from http request body " ++ text),
      none)
  | .decoded stop =>
    match Go.atoi strId with
    | .error _ =>
      (.errorText 400 ("router: JobStop(): Id is not a valid integer " ++ strId), none)
    | .ok id => (.ok (.text "Success"), some { id, stop })

/-- What became of a stop: the result of `StopJob`, and the follow-up work that
was started. -/
structure StopOutcome where
  succeeded : Bool
  /-- The configuration asks for a prefetch. -/
  prefetchEnabled : Bool
  runAggregation : Bool
  prefetch : Bool
  deriving DecidableEq

/-- The goroutine of `JobStop`: `StopJob`, and the follow-up work when it returned an
error.  `none` is a panic. -/
def runStop (env : Environment) (calls : StoreCalls) (b : Backend) (task : StopTask) :
    Option (StopOutcome × Backend) :=
  match b.store.stopJob (InfluxDB.toDB env b.db) calls task.id task.stop with
  | (.ok (), store) =>
    some ({ succeeded := true, prefetchEnabled := b.config.prefetch, runAggregation := false
            prefetch := false }, { b with store })
  | (.error (.error _), store) =>
    some ({ succeeded := false, prefetchEnabled := b.config.prefetch, runAggregation := true
            prefetch := b.config.prefetch }, { b with store })
  | (.error .panic, _) => none

/-- The nested goroutine of `JobStop` that fills the cache; `none` is a panic. -/
def runPrefetch (env : Environment) (b : Backend) (id : ℤ) : Option Backend :=
  match b.store.getJob id with
  | none => some b
  | some j =>
    let bestInterval := (j.calculateSampleIntervals env.now b.sampleInterval).2
    match b.jobCache.get (InfluxDB.toDB env b.db) j bestInterval with
    | (.error .panic, _) => none
    | (_, jobCache) => some { b with jobCache }

/-- `RefreshMetadata`. -/
def refreshMetadata (env : Environment) (b : Backend) (strId : String) : Response × Backend :=
  match Go.atoi strId with
  | .error _ => (.error 500, b)
  | .ok id =>
    match b.store.getJob id with
    | none => (.error 500, b)
    | some j =>
      match InfluxDB.getJobMetadataMetrics env b.db j with
      | .error .panic => (.crash, b)
      | .error (.error _) => (.error 500, b)
      | .ok data =>
        (.ok (.job { j with data }), { b with store := b.store.updateJob { j with data } })

/-! ## Tags -/

/-- `parseTag`: the job named in the URL and the tag of the body. -/
def parseTag (b : Backend) (jobStr : String) (body : Body JobTag) :
    Except Response (JobMetadata × JobTag) :=
  match Go.atoi jobStr with
  | .error _ => .error (.error 500)
  | .ok id =>
    match body with
    | .unreadable => .error (.error 400)
    | .malformed _ => .error (.error 400)
    | .decoded tag =>
      match b.store.getJob id with
      | none => .error (.error 400)
      | some j => .ok (j, tag)

/-- The end of `AddTag` and `RemoveTag`: bring the cached record up to date. -/
def retag (b : Backend) (store : Store) (id : ℤ) (response : Response) : Response × Backend :=
  match b.jobCache.updateJob store.getJob id with
  | (.error .panic, jobCache) => (.crash, { b with store, jobCache })
  | (_, jobCache) => (response, { b with store, jobCache })

/-- The tag `AddTag` stores: its creator and its type are those of the user. -/
def userTag (user : UserInfo) (tag : JobTag) : JobTag :=
  { tag with createdBy := user.username, type := if user.isAdmin then ADMIN else USER }

/-- `AddTag`: the error of the store is ignored. -/
def addTag (b : Backend) (user : UserInfo) (jobStr : String) (body : Body JobTag) :
    Response × Backend :=
  match parseTag b jobStr body with
  | .error response => (response, b)
  | .ok (j, tag) =>
    let (tag', _, store) := b.store.addTag j.id (userTag user tag)
    retag b store j.id (.ok (.tag tag'))

/-- `RemoveTag`. -/
def removeTag (b : Backend) (jobStr : String) (body : Body JobTag) : Response × Backend :=
  match parseTag b jobStr body with
  | .error response => (response, b)
  | .ok (j, tag) => retag b (b.store.removeTag j.id tag) j.id (.ok .empty)

/-! ## Sessions, roles and the configuration -/

/-- Credentials of a local user. -/
structure AuthPayload where
  username : String := ""
  password : String := ""
  frontendOnly : Bool := false
  deriving DecidableEq

/-- `Logout`: the session that is removed is that of the user the body names. -/
def logout (b : Backend) : Body AuthPayload → Response × Backend
  | .unreadable => (.error 400, b)
  | .malformed _ => (.error 400, b)
  | .decoded dat =>
    if dat.username = "" then (.error 400, b)
    else (.ok .empty, { b with store := b.store.removeUserSession dat.username })

/-- The user of the API key. -/
def apiUser : UserInfo := { roles := [JOBCONTROL], username := "api" }

/-- `GenerateAPIKey`, given the signed token of a user. -/
def generateAPIKey (sign : UserInfo → Option String) (b : Backend) : Response × Backend :=
  match sign apiUser with
  | none => (.error 500, b)
  | some jwt =>
    (.ok (.text jwt), { b with store := b.store.setUserSessionToken apiUser.username jwt })

/-- `GetConfig`: some of the configuration. -/
def getConfig (b : Backend) : Response :=
  .ok (.config
    { metrics := b.config.metrics
      partitions := b.config.partitions
      metricCategories := b.config.metricCategories })

/-- `UpdateConfig`: InfluxDB is initialised again, the cache is left alone. -/
def updateConfig (newUUID : ℕ → String) (b : Backend) : Body Configuration → Response × Backend
  | .unreadable => (.error 400, b)
  | .malformed _ => (.error 400, b)
  | .decoded conf =>
    let config := b.config.update newUUID conf
    (.ok (.config config), { b with config, db := InfluxDB.init config })

/-- `GetUserConfig`. -/
def getUserConfig (b : Backend) (userStr : String) : Response :=
  if userStr = "" then .error 500
  else
    match b.store.getUserRoles userStr with
    | none => .error 500
    | some user => .ok (.userRoles user)

/-- `SetUserConfig`: the roles that are set are those of the user the body names. -/
def setUserConfig (b : Backend) (userStr : String) (body : Body UserRoles) : Response × Backend :=
  if userStr = "" then (.error 500, b)
  else
    match body with
    | .unreadable => (.error 400, b)
    | .malformed _ => (.error 400, b)
    | .decoded user =>
      (.ok (.userRoles user), { b with store := b.store.setUserRoles user.username user.roles })

/-! ## The protected routes -/

/-- A request to a protected route. -/
inductive Request
  | jobStart (body : Body JobMetadata)
  | jobStop (id : String) (body : Body StopJob)
  | getJobs (params : QueryParams)
  | getJob (req : GetJobRequest)
  | getMetric (req : GetMetricRequest)
  | liveMonitoring (id : String)
  | searchUser (term : String)
  | searchJob (term : String)
  | searchTag (term : String)
  | logout (body : Body AuthPayload)
  | generateAPIKey
  | addTag (job : String) (body : Body JobTag)
  | removeTag (job : String) (body : Body JobTag)
  | getConfig
  | updateConfig (body : Body Configuration)
  | liveLog
  | refreshMetadata (id : String)
  | getUserConfig (user : String)
  | setUserConfig (user : String) (body : Body UserRoles)

/-- The role a route asks for. -/
def Request.authLevel : Request → String
  | .jobStart _ => JOBCONTROL
  | .jobStop _ _ => JOBCONTROL
  | .getJobs _ => USER
  | .getJob _ => USER
  | .getMetric _ => USER
  | .liveMonitoring _ => USER
  | .searchUser _ => ADMIN
  | .searchJob _ => USER
  | .searchTag _ => USER
  | .logout _ => USER
  | .generateAPIKey => ADMIN
  | .addTag _ _ => USER
  | .removeTag _ _ => USER
  | .getConfig => ADMIN
  | .updateConfig _ => ADMIN
  | .liveLog => ADMIN
  | .refreshMetadata _ => ADMIN
  | .getUserConfig _ => ADMIN
  | .setUserConfig _ _ => ADMIN

/-- What happens outside the code while a request is served. -/
structure Surroundings where
  env : Environment
  sql : Store.RawSQL
  /-- `uuid.New`. -/
  newUUID : ℕ → String
  /-- The signed token of a user. -/
  sign : UserInfo → Option String

/-- The handlers; `JobStop` is the one that leaves work to a goroutine. -/
def handle (out : Surroundings) (b : Backend) (user : UserInfo) :
    Request → Response × Backend × Option StopTask
  | .jobStart body => let (response, b) := jobStart b body; (response, b, none)
  | .jobStop id body => let (response, task) := jobStop id body; (response, b, task)
  | .getJobs params => (getJobs b user params, b, none)
  | .getJob req => let (response, b) := getJob out.env b user req; (response, b, none)
  | .getMetric req => (getMetric out.env b user req, b, none)
  | .liveMonitoring id => ((liveMonitoring b user id).1, b, none)
  | .searchUser term => (searchUser out.sql b term, b, none)
  | .searchJob term => (searchJob out.sql b user term, b, none)
  | .searchTag term => (searchTag out.sql b user term, b, none)
  | .logout body => let (response, b) := logout b body; (response, b, none)
  | .generateAPIKey => let (response, b) := generateAPIKey out.sign b; (response, b, none)
  | .addTag job body => let (response, b) := addTag b user job body; (response, b, none)
  | .removeTag job body => let (response, b) := removeTag b job body; (response, b, none)
  | .getConfig => (getConfig b, b, none)
  | .updateConfig body =>
    let (response, b) := updateConfig out.newUUID b body; (response, b, none)
  | .liveLog => (.upgraded, b, none)
  | .refreshMetadata id =>
    let (response, b) := refreshMetadata out.env b id; (response, b, none)
  | .getUserConfig u => (getUserConfig b u, b, none)
  | .setUserConfig u body => let (response, b) := setUserConfig b u body; (response, b, none)

/-- An authenticated request: `Protected` and the handler. -/
def serve (out : Surroundings) (b : Backend) (user : UserInfo) (req : Request) :
    Response × Backend × Option StopTask :=
  if user.permitted req.authLevel then handle out b user req else (.error 403, b, none)

end JobMon
