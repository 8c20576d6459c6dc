import JobMon.Router.Write

/-!
# What the configuration endpoints answer

`GetConfig` answers with a restricted copy of the running configuration, `UpdateConfig`
with the running configuration itself, after the update.

* `JsonConfig` — what JSON writes of a configuration; `Response.configBody` is the body of
  an answer.
* `SameMetricSettings` — two configurations agree on what the endpoints are about.
* `configBody_getConfig` — `GetConfig` answers the same for both.
* `configEndpoints_iff` — `UpdateConfig` answers a request it can decode with everything
  that JSON writes.
-/

namespace JobMon

open Keyed

/-! ## What JSON writes -/

/-- The partitions by name, each with its virtual partitions by name. -/
def partitionsByName (partitions : Map String PartitionConfig) (name : String) :
    Option (BasePartitionConfig × (String → Option VirtualPartitionConfig)) :=
  (partitions.lookup name).map fun pc =>
    (pc.toBasePartitionConfig, pc.virtualPartitions.lookup)

/-- What JSON writes of a configuration: the fields of the configuration file, where the
maps are written by key, in whatever order their entries are. -/
structure JsonConfig where
  /-- The fields that are not maps; the maps are empty here. -/
  fields : ConfigFile
  localUsers : String → Option LocalUser
  partitions : String → Option (BasePartitionConfig × (String → Option VirtualPartitionConfig))

/-- `json.Marshal` of a configuration. -/
def Configuration.json (c : Configuration) : JsonConfig :=
  { fields := { c.flush with
      localUsers := Table.empty
      partitions := Table.empty }
    localUsers := c.localUsers.lookup
    partitions := partitionsByName c.partitions }

/-- The body of an answer with a configuration; the other answers of the two endpoints
have none. -/
def Response.configBody : Response → Option JsonConfig
  | .status _ (.config c) => some c.json
  | _ => none

/-- The configurations agree on the metrics, partitions, categories and radar chart. -/
structure Configuration.SameMetricSettings (c c' : Configuration) : Prop where
  metrics : c.metrics = c'.metrics
  partitions : partitionsByName c.partitions = partitionsByName c'.partitions
  metricCategories : c.metricCategories = c'.metricCategories
  radarChartMetrics : c.radarChartMetrics = c'.radarChartMetrics

/-! ## The restricted answer -/

/-- **`GetConfig` depends on nothing else.** -/
theorem configBody_getConfig {b b' : Backend} (h : b.config.SameMetricSettings b'.config) :
    (getConfig b).configBody = (getConfig b').configBody := by
  simp only [getConfig, Response.ok, Response.configBody, Configuration.json, Configuration.flush,
    h.metrics, h.partitions, h.metricCategories]

/-! ## The answer to an update -/

/-- The same with other metric settings. -/
def JsonConfig.withMetricSettings (f : JsonConfig) (metrics : List MetricConfig)
    (partitions : String → Option (BasePartitionConfig × (String → Option VirtualPartitionConfig)))
    (metricCategories radarChartMetrics : List String) : JsonConfig :=
  { fields := { f.fields with metrics, metricCategories, radarChartMetrics }
    localUsers := f.localUsers
    partitions }

/-- An update writes metric settings, which depend on the running metrics and the running
radar chart only. -/
theorem json_update (newUUID : ℕ → String) (r conf : Configuration) :
    (r.update newUUID conf).json = r.json.withMetricSettings
      (r.update newUUID conf).metrics (partitionsByName (r.update newUUID conf).partitions)
      (r.update newUUID conf).metricCategories (r.update newUUID conf).radarChartMetrics := rfl

/-- The metric settings before the update can be written back. -/
theorem withMetricSettings_json_update (newUUID : ℕ → String) (r conf : Configuration) :
    (r.update newUUID conf).json.withMetricSettings r.metrics (partitionsByName r.partitions)
      r.metricCategories r.radarChartMetrics = r.json := rfl

theorem Configuration.SameMetricSettings.update {r r' : Configuration}
    (h : r.SameMetricSettings r') (newUUID : ℕ → String) (conf : Configuration) :
    (r.update newUUID conf).SameMetricSettings (r'.update newUUID conf) := by
  constructor
  · rfl
  · simp only [Configuration.update, h.metrics]
  · rfl
  · simp only [Configuration.update, h.metrics, h.radarChartMetrics]

/-- **The answers to an update are the same when everything JSON writes was before.** -/
theorem json_update_eq_iff {r r' : Configuration} (h : r.SameMetricSettings r')
    (newUUID : ℕ → String) (conf : Configuration) :
    (r.update newUUID conf).json = (r'.update newUUID conf).json ↔ r.json = r'.json := by
  have hupdate := h.update newUUID conf
  constructor
  · intro hjson
    rw [← withMetricSettings_json_update newUUID r conf, hjson, h.metrics, h.partitions,
      h.metricCategories, h.radarChartMetrics, withMetricSettings_json_update]
  · intro hjson
    rw [json_update newUUID r, json_update newUUID r', hjson, hupdate.metrics,
      hupdate.partitions, hupdate.metricCategories, hupdate.radarChartMetrics]

/-- **When the two endpoints keep the other settings to themselves**: the update is not
decoded, or JSON would write no difference anyway. -/
theorem configEndpoints_iff {b b' : Backend} (h : b.config.SameMetricSettings b'.config)
    (newUUID : ℕ → String) (body : Body Configuration) :
    ((getConfig b).configBody = (getConfig b').configBody ∧
        (updateConfig newUUID b body).1.configBody =
          (updateConfig newUUID b' body).1.configBody) ↔
      (∀ conf, body ≠ .decoded conf) ∨ b.config.json = b'.config.json := by
  rw [and_iff_right (configBody_getConfig h)]
  cases body with
  | unreadable => exact ⟨fun _ => .inl (by rintro conf ⟨⟩), fun _ => rfl⟩
  | malformed text => exact ⟨fun _ => .inl (by rintro conf ⟨⟩), fun _ => rfl⟩
  | decoded conf =>
    have hbody : (updateConfig newUUID b (.decoded conf)).1.configBody =
        (updateConfig newUUID b' (.decoded conf)).1.configBody ↔
          (b.config.update newUUID conf).json = (b'.config.update newUUID conf).json :=
      Option.some_inj
    rw [hbody, json_update_eq_iff h]
    exact ⟨.inr, fun h => h.resolve_left fun hne => hne conf rfl⟩

theorem configEndpoints_unreadable :
    (getConfig { config := { jwtSecret := "a" } }).configBody =
        (getConfig { config := { jwtSecret := "b" } }).configBody ∧
      (updateConfig (fun _ => "u") { config := { jwtSecret := "a" } } .unreadable).1.configBody =
        (updateConfig (fun _ => "u") { config := { jwtSecret := "b" } } .unreadable).1.configBody :=
  (@configEndpoints_iff { config := { jwtSecret := "a" } } { config := { jwtSecret := "b" } }
    ⟨rfl, rfl, rfl, rfl⟩ (fun _ => "u") .unreadable).2 (.inl (by rintro conf ⟨⟩))

/-- An update with an empty object is answered with the secret that signs the tokens. -/
theorem updateConfig_reveals_secret :
    ¬∀ (b b' : Backend) (newUUID : ℕ → String) (body : Body Configuration),
      b.config.SameMetricSettings b'.config →
      (getConfig b).configBody = (getConfig b').configBody ∧
        (updateConfig newUUID b body).1.configBody =
          (updateConfig newUUID b' body).1.configBody := by
  intro h
  have hanswer := (h { config := { jwtSecret := "a" } } { config := { jwtSecret := "b" } }
    (fun _ => "u") (.decoded {}) ⟨rfl, rfl, rfl, rfl⟩).2
  have hsecret : some "a" = some "b" :=
    congrArg (fun answer => answer.map fun f => f.fields.jwtSecret) hanswer
  revert hsecret
  decide

end JobMon
