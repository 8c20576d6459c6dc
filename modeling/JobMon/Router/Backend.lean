import JobMon.Store.StopJob
import JobMon.Cache.Lru

/-!
# Requests, responses and the state of the backend

What the handlers of `router.go` have in common, and the routes with the role
each of them asks for (`auth.go`).
-/

namespace JobMon

open Keyed

/-! ## Users -/

def JOBCONTROL : String := "job-control"

def USER : String := "user"

def ADMIN : String := "admin"

/-- An authenticated user. -/
structure UserInfo where
  roles : List String := []
  username : String := ""
  deriving DecidableEq

/-- `utils.Contains(user.Roles, auth.ADMIN)`. -/
def UserInfo.isAdmin (user : UserInfo) : Bool := Utils.contains user.roles ADMIN

/-- The check of `Protected`: the role asked for, or that of an administrator. -/
def UserInfo.permitted (user : UserInfo) (authLevel : String) : Bool :=
  Utils.contains user.roles ADMIN || Utils.contains user.roles authLevel

/-! ## Bodies and responses -/

/-- A request body, as far as the handler gets with it. -/
inductive Body (α : Type)
  | unreadable
  | malformed (text : String)
  | decoded (a : α)
  deriving DecidableEq

/-- What a response carries. -/
inductive Payload
  | empty
  | text (s : String)
  | jobList (jobs : List JobMetadata) (radarChartMetrics : List String)
      (partitions : Map String PartitionConfig) (tags : List JobTag)
  | jobData (data : JobData)
  | metricData (data : MetricData)
  | jobs (jobs : List JobMetadata)
  | tags (tags : List JobTag)
  | users (usernames : List String)
  | tag (tag : JobTag)
  | job (j : JobMetadata)
  | config (c : Configuration)
  | userRoles (user : UserRoles)
  deriving DecidableEq

/-- The outcome of a request. -/
inductive Response
  | status (code : ℕ) (payload : Payload)
  /-- The connection is a websocket now. -/
  | upgraded
  /-- The process has ended. -/
  | crash
  deriving DecidableEq

/-- `http.StatusOK` with a payload. -/
def Response.ok (payload : Payload) : Response := .status 200 payload

/-- A status code without a body. -/
def Response.error (code : ℕ) : Response := .status code .empty

/-- A status code with the text that is also logged. -/
def Response.errorText (code : ℕ) (text : String) : Response := .status code (.text text)

/-! ## The backend -/

/-- The state the handlers share. -/
structure Backend where
  config : Configuration := {}
  /-- InfluxDB, as it was last initialised. -/
  db : InfluxDB := {}
  store : Store := {}
  jobCache : LRUCache := { size := 0 }

namespace Backend

/-- The backend as it starts up with a configuration and a store.  A configuration that is not
`Configuration.Startable` ends the process before. -/
def start (c : Configuration) (s : Store) : Backend :=
  { config := c, db := InfluxDB.init c, store := s, jobCache := LRUCache.init c }

/-- `time.ParseDuration(r.config.SampleInterval)` with the error ignored. -/
def sampleInterval (b : Backend) : Go.Duration :=
  (Go.parseDuration b.config.sampleInterval).getD 0

end Backend

end JobMon
