import JobMon.Lib.Table
import JobMon.Lib.GoText

/-!
# The configuration

The records of `config.go`.  A field that is absent from the JSON text keeps its
zero value, which is the default of the field here.
-/

namespace JobMon

open Keyed

/-- Options of the command line; never written to the configuration file. -/
structure CLIConfig where
  configFile : String := ""
  logLevel : ℤ := 0
  listenAddress : String := ""
  deriving DecidableEq

/-- A metric as configured by the administrator. -/
structure MetricConfig where
  /-- Global unique identifier. -/
  guid : String := ""
  /-- For example `"cpu"`, `"node"`, `"socket"`, `"accelerator"`. -/
  type : String := ""
  categories : List String := []
  /-- Measurement name in InfluxDB. -/
  measurement : String := ""
  /-- Default aggregation of per-device data to node data. -/
  aggFn : String := ""
  availableAggFns : List String := []
  sampleInterval : String := ""
  unit : String := ""
  displayName : String := ""
  /-- Flux text put into the query after the node filter. -/
  filterFunc : String := ""
  /-- Flux text put into the query after `filterFunc`. -/
  postQueryOp : String := ""
  separationKey : String := ""
  maxPerNode : ℤ := 0
  maxPerType : ℤ := 0
  pThreadAggFn : String := ""
  deriving DecidableEq, Inhabited

/-- What a physical and a virtual partition have in common. -/
structure BasePartitionConfig where
  /-- Maximum wall clock time of a job, in seconds. -/
  maxTime : ℤ := 0
  /-- The GUIDs of the metrics the partition provides. -/
  metrics : List String := []
  deriving DecidableEq, Inhabited

/-- A virtual partition, for a subset of the nodes. -/
structure VirtualPartitionConfig extends BasePartitionConfig where
  nodes : List String := []
  deriving DecidableEq

/-- A physical partition with the virtual partitions inside it. -/
structure PartitionConfig extends BasePartitionConfig where
  virtualPartitions : Map String VirtualPartitionConfig := Table.empty
  deriving DecidableEq, Inhabited

/-- Credentials of a local user. -/
structure LocalUser where
  bCryptHash : String := ""
  role : String := ""
  deriving DecidableEq

/-- Access to InfluxDB. -/
structure DBConfig where
  dbHost : String := ""
  dbToken : String := ""
  dbOrg : String := ""
  dbBucket : String := ""
  deriving DecidableEq

/-- Access to PostgreSQL. -/
structure JobStoreConfig where
  type : String := ""
  psqlHost : String := ""
  psqlUsername : String := ""
  psqlPassword : String := ""
  psqlDB : String := ""
  deriving DecidableEq

/-- The OAuth login. -/
structure OAuthConfig where
  clientID : String := ""
  secret : String := ""
  authURL : String := ""
  tokenURL : String := ""
  redirectURL : String := ""
  userInfoURL : String := ""
  afterLoginRedirectUrl : String := ""
  deriving DecidableEq

/-- Notifications by mail. -/
structure EmailConfig where
  senderAddress : String := ""
  senderPassword : String := ""
  receiverAddress : String := ""
  smtpHost : String := ""
  smtpPort : ℤ := 0
  deriving DecidableEq

/-- What of a configuration the configuration file holds, apart from the three
fields that have a default of their own. -/
structure ConfigBody extends DBConfig where
  frontendURL : String := ""
  jobStore : JobStoreConfig := {}
  oAuth : OAuthConfig := {}
  metrics : List MetricConfig := []
  /-- Size of the job data cache. -/
  cacheSize : ℤ := 0
  /-- Prefetch job data into the cache upon job completion. -/
  prefetch : Bool := false
  /-- Sample interval of the metric collector, for example `"30s"`. -/
  sampleInterval : String := ""
  metricQuantiles : List String := []
  jwtSecret : String := ""
  localUsers : Map String LocalUser := Table.empty
  partitions : Map String PartitionConfig := Table.empty
  metricCategories : List String := []
  radarChartMetrics : List String := []
  email : EmailConfig := {}
  deriving DecidableEq

/-- The configuration file: `none` is a key that is absent from it. -/
structure ConfigFile extends ConfigBody where
  jsonWebTokenLifeTimeString : Option String := none
  apiTokenLifeTimeString : Option String := none
  autoAssignUserRole : Option Bool := none
  deriving DecidableEq

/-- `Configuration`: the running configuration. -/
structure Configuration extends CLIConfig, ConfigBody where
  jsonWebTokenLifeTimeString : String := ""
  jsonWebTokenLifeTime : Go.Duration := 0
  apiTokenLifeTimeString : String := ""
  apiTokenLifeTime : Go.Duration := 0
  autoAssignUserRole : Bool := false
  deriving DecidableEq

/-! ## `utils.go` -/

namespace Utils

/-- `utils.Contains`. -/
def contains {T : Type} [DecidableEq T] : List T → T → Bool
  | [], _ => false
  | elem :: slice, val => if val = elem then true else contains slice val

/-- `utils.Remove`: the container without the first element equal to `target`. -/
def remove {T : Type} [DecidableEq T] : List T → T → List T
  | [], _ => []
  | v :: container, target => if v = target then container else v :: remove container target

variable {T : Type} [DecidableEq T]

@[simp] theorem contains_eq_true_iff {slice : List T} {val : T} :
    contains slice val = true ↔ val ∈ slice := by
  induction slice with
  | nil => simp [contains]
  | cons elem slice ih =>
    by_cases h : val = elem
    · simp [contains, h]
    · simp [contains, h, ih]

@[simp] theorem contains_eq_false_iff {slice : List T} {val : T} :
    contains slice val = false ↔ val ∉ slice := by
  rw [← Bool.not_eq_true, contains_eq_true_iff]

/-- `Remove` drops one occurrence only. -/
theorem remove_eq_erase (container : List T) (target : T) :
    remove container target = container.erase target := by
  induction container with
  | nil => rfl
  | cons v container ih =>
    by_cases h : v = target
    · rw [remove, if_pos h, h, List.erase_cons_head]
    · rw [remove, if_neg h, ih, List.erase_cons_tail (by simpa using h)]

end Utils

end JobMon
