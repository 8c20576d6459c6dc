import Mathlib.Data.List.Perm.Basic
import JobMon.Lib.Runs
import JobMon.Job.Types

/-!
# The view of a job

`useGetJobData` of `pages/job/[id].tsx`, for a finished job.  The hook keeps three
caches and one `jobData`, which its effects and the responses to its fetches write.

* `View`, `runEffects`, `View.step` — the hook: a render with changed parameters or a
  response, and then the effects whose dependencies have changed, in source order.
* `View.opened` — the view once the page has taken the interval and the aggregation
  functions over from the first response.
* `Coherent` — what the caches hold, in every run.
* `Shown` — the view shows what is selected.
* `onTrack_step` — the steps after which it does, or a response that sets it right is
  outstanding.
* `shown_of_guarded` — after a run of such steps it does once all responses are in.
-/

namespace JobMon

open Keyed Runs

namespace JobView

/-! ## The backend -/

/-- A sample interval in seconds; zero, which is falsy, is none. -/
abbrev Interval := { q : ℚ // q ≠ 0 }

/-- A node; the empty text is none. -/
abbrev NodeName := { n : String // n ≠ "" }

/-- What the backend answers for the job, which is finished. -/
structure Answers where
  /-- `/api/job/id`, with or without a sample interval. -/
  jobData : Option Interval → JobData
  /-- `/api/job/id` for a node. -/
  nodeData : Interval → NodeName → JobData
  /-- `/api/metric/id`, by metric and aggregation function. -/
  metricData : Interval → String → String → MetricData

/-! ## The hook -/

/-- `JobCache`. -/
structure JobCache where
  metadata : Option JobData := none
  data : Map ℚ (List MetricData) := Table.empty
  deriving DecidableEq

/-- `NodeCache`, empty while it is undefined. -/
abbrev NodeCache := Map ℚ (Map String JobData)

/-- `AggCache`: by interval, metric and aggregation function. -/
abbrev AggCache := Map ℚ (Map String (Map String MetricData))

/-- A fetch that has not been answered. -/
inductive Fetch
  | job (interval : Option Interval)
  | node (interval : Interval) (node : NodeName)
  | metric (interval : Interval) (guid aggFn : String)
  deriving DecidableEq

/-- The parameters of the hook, its state and its outstanding fetches. -/
structure View where
  node : Option NodeName := none
  sampleInterval : Option Interval := none
  aggFnSelection : Option (Map String String) := none
  jobData : Option JobData := none
  isLoading : Bool := true
  jobCache : JobCache := {}
  nodeCache : NodeCache := Table.empty
  aggFnCache : AggCache := Table.empty
  containsMetricData : Bool := false
  fetches : List Fetch := []
  deriving DecidableEq

namespace NodeCache

/-- `nodeCache[sampleInterval][node]`. -/
def get (cache : NodeCache) (x : ℚ) (n : String) : Option JobData :=
  (Map.lookup cache x).bind fun nodes => nodes.lookup n

/-- The cache with the data of a node. -/
def set (cache : NodeCache) (x : ℚ) (n : String) (data : JobData) : NodeCache :=
  Table.upsert cache (x, ((Map.lookup cache x).getD Table.empty).upsert (n, data))

end NodeCache

namespace AggCache

/-- `aggFnCache[sampleInterval][guid][aggFn]`. -/
def get (cache : AggCache) (x : ℚ) (g f : String) : Option MetricData :=
  ((Map.lookup cache x).bind fun metrics => metrics.lookup g).bind fun fns => fns.lookup f

/-- `newCache[sampleInterval][guid][aggFn] = data`; `none` when one of the objects on the
way is undefined. -/
def set (cache : AggCache) (x : ℚ) (g f : String) (data : MetricData) : Option AggCache :=
  match Map.lookup cache x with
  | none => none
  | some metrics =>
    match metrics.lookup g with
    | none => none
    | some fns => some (Table.upsert cache (x, metrics.upsert (g, fns.upsert (f, data))))

/-- The loop of `populateJobCache`: a metric is put in under its own function, unless
there is something under it. -/
def addDefault (x : ℚ) (cache : AggCache) (m : MetricData) : AggCache :=
  let intervalData : Map String (Map String MetricData) :=
    (Map.lookup cache x).getD Table.empty
  let fns : Map String MetricData := (intervalData.lookup m.config.guid).getD Table.empty
  let fns := if (fns.lookup m.config.aggFn).isSome then fns
    else (Table.empty : Map String MetricData).upsert (m.config.aggFn, m)
  Table.upsert cache (x, intervalData.upsert (m.config.guid, fns))

end AggCache

/-- The dependencies of the effects: what is another value, or another object, than at
the last render.  `jobCache` always is the same object. -/
structure Changed where
  node : Bool := false
  sampleInterval : Bool := false
  aggFnSelection : Bool := false
  nodeCache : Bool := false
  aggFnCache : Bool := false
  containsMetricData : Bool := false

namespace View

variable (s : View)

/-- `populateJobCache`.  The caches are changed in place; no metric data is `null`. -/
def populateJobCache (data : JobData) : View :=
  let metadata := some (s.jobCache.metadata.getD data)
  if data.metricData ≠ [] then
    { s with
      jobCache :=
        { metadata, data := s.jobCache.data.upsert (data.sampleInterval, data.metricData) }
      aggFnCache := data.metricData.foldl (AggCache.addDefault data.sampleInterval) s.aggFnCache
      containsMetricData := true
      isLoading := false
      jobData := some data }
  else
    { s with
      jobCache := { s.jobCache with metadata }
      containsMetricData := false
      isLoading := false
      jobData := some data }

/-- The first effect: the data for the interval, from the cache or the backend.
`none`: it throws. -/
def loadInterval : Option View :=
  match s.sampleInterval with
  | none => some { s with isLoading := true, fetches := s.fetches ++ [.job none] }
  | some x =>
    match s.jobCache.data.lookup x.val with
    | none => some { s with isLoading := true, fetches := s.fetches ++ [.job (some x)] }
    | some metricData =>
      s.jobCache.metadata.map fun metadata =>
        { s with
          isLoading := false
          jobData := some { metadata with metricData } }

/-- The function that is selected for a metric. -/
def selectedFn (selection : Map String String) (m : MetricData) : String :=
  (selection.lookup m.config.guid).getD m.config.aggFn

/-- What the cache has for a metric with the selected function. -/
def cachedFor (selection : Map String String) (x : Interval) (m : MetricData) :
    Option MetricData :=
  s.aggFnCache.get x.val m.config.guid (selectedFn selection m)

/-- The second effect: the metrics of `jobData`, as it was at the render, are replaced
by those with the selected functions, or these are fetched. -/
def loadAggFns (rendered : Option JobData) : View :=
  match rendered, s.aggFnSelection, s.sampleInterval with
  | some data, some selection, some x =>
    if s.containsMetricData = true ∧ data.metricData ≠ [] then
      { s with
        jobData := some { data with
          metricData := data.metricData.map fun m => (s.cachedFor selection x m).getD m }
        fetches := s.fetches ++
          (data.metricData.filter fun m => (s.cachedFor selection x m).isNone).map fun m =>
            .metric x m.config.guid (selectedFn selection m) }
    else s
  | _, _, _ => s

/-- The third effect: the data of the selected node, from the cache or the backend. -/
def loadNode : View :=
  match s.node, s.sampleInterval with
  | some n, some x =>
    match s.nodeCache.get x.val n.val with
    | some data =>
      { s with
        isLoading := false
        jobData := some data }
    | none => { s with isLoading := true, fetches := s.fetches ++ [.node x n] }
  | _, _ => s

/-- The effects whose dependencies have changed.  They see the render they belong to. -/
def runEffects (changed : Changed) : Option View :=
  (if changed.node || changed.sampleInterval || changed.containsMetricData then s.loadInterval
    else some s).map fun s₁ =>
      let s₂ := if changed.aggFnSelection || changed.aggFnCache || changed.containsMetricData then
          s₁.loadAggFns s.jobData else s₁
      if changed.node || changed.nodeCache || changed.sampleInterval then s₂.loadNode else s₂

/-- A response arrives, for a fetch that is outstanding no longer. -/
def receive (a : Answers) : Fetch → Option View
  | .job x =>
    let s' := s.populateJobCache (a.jobData x)
    s'.runEffects { containsMetricData := s'.containsMetricData != s.containsMetricData }
  | .node x n =>
    let s' : View :=
      { s with
        nodeCache := s.nodeCache.set x.val n.val (a.nodeData x n)
        isLoading := false
        jobData := some (a.nodeData x n) }
    s'.runEffects { nodeCache := true }
  | .metric x g f =>
    (s.aggFnCache.set x.val g f (a.metricData x g f)).bind fun aggFnCache =>
      { s with aggFnCache }.runEffects { aggFnCache := true }

end View

/-- What happens next. -/
inductive Event
  /-- A node is selected, or all of them. -/
  | selectNode (node : Option NodeName)
  | selectInterval (interval : Interval)
  | selectAggFn (guid aggFn : String)
  /-- The response to the fetch at position `i` arrives. -/
  | deliver (i : ℕ)
  deriving DecidableEq

/-- One event, with the effects that follow it; `none` when an exception ends the view. -/
def View.step (a : Answers) (s : View) : Event → Option View
  | .selectNode node => { s with node }.runEffects { node := decide (node ≠ s.node) }
  | .selectInterval x =>
    { s with sampleInterval := some x }.runEffects
      { sampleInterval := decide (some x ≠ s.sampleInterval) }
  | .selectAggFn g f =>
    { s with aggFnSelection := some ((s.aggFnSelection.getD Table.empty).upsert (g, f)) }.runEffects
      { aggFnSelection := true }
  | .deliver i =>
    match s.fetches[i]? with
    | none => none
    | some fetch => { s with fetches := s.fetches.eraseIdx i }.receive a fetch

/-! ## Opening the view -/

/-- The effects of the page: it selects the interval of the first data, and for each of
its metrics the default function. -/
def View.takeDefaults (s : View) (data : JobData) : Option View :=
  let sampleInterval : Option Interval :=
    if h : data.sampleInterval ≠ 0 then some ⟨data.sampleInterval, h⟩ else s.sampleInterval
  let aggFnSelection : Option (Map String String) :=
    if data.metricData ≠ [] then
      some (data.metricData.foldl
        (fun selection m => selection.upsert (m.config.guid, m.config.aggFn)) Table.empty)
    else s.aggFnSelection
  { s with sampleInterval, aggFnSelection }.runEffects
    { sampleInterval := decide (sampleInterval ≠ s.sampleInterval)
      aggFnSelection := decide (data.metricData ≠ []) }

/-- The first render, with all effects, the first response, and what the page makes of
it.  Until then it shows nothing to select. -/
def View.opened (a : Answers) : Option View :=
  (({} : View).runEffects
      { node := true
        sampleInterval := true
        aggFnSelection := true
        nodeCache := true
        aggFnCache := true
        containsMetricData := true }).bind fun s =>
    (s.step a (.deliver 0)).bind fun s => s.takeDefaults (a.jobData none)

/-! ## What the caches hold -/

/-- The answers are about one job, with the metrics `configs` in any order; an answer for
an interval says so, and without an interval the backend chooses one. -/
structure Answers.Consistent (a : Answers) (configs : List MetricConfig) : Prop where
  interval : ∀ x : Interval, (a.jobData (some x)).sampleInterval = x.val
  chosen : ∃ x : Interval, (a.jobData none).sampleInterval = x.val ∧
    (a.jobData none).metricData.Perm (a.jobData (some x)).metricData
  job : ∀ x, ((a.jobData x).metricData.map MetricData.config).Perm configs
  node : ∀ x n, ((a.nodeData x n).metricData.map MetricData.config).Perm configs
  metric : ∀ x g f, (a.metricData x g f).config.guid = g

/-- The data of a metric for an interval, with an aggregation function: that of a metric
request, or that of the job's data, which have the default function. -/
def Answers.Uses (a : Answers) (x : Interval) (g f : String) (m : MetricData) : Prop :=
  m = a.metricData x g f ∨
    m ∈ (a.jobData (some x)).metricData ∧ m.config.guid = g ∧ m.config.aggFn = f

/-- The caches hold what the backend has answered. -/
structure View.CachesRight (a : Answers) (s : View) : Prop where
  job : ∀ x : Interval, ∀ metricData, s.jobCache.data.lookup x.val = some metricData →
    metricData.Perm (a.jobData (some x)).metricData
  node : ∀ (x : Interval) (n : NodeName) data, s.nodeCache.get x.val n.val = some data →
    data = a.nodeData x n
  metric : ∀ (x : Interval) g f m, s.aggFnCache.get x.val g f = some m → a.Uses x g f m

/-- What holds in every state of an opened view. -/
structure View.Coherent (a : Answers) (configs : List MetricConfig) (s : View) : Prop
    extends s.CachesRight a where
  interval : s.sampleInterval ≠ none
  /-- The data shown have the metrics of the job. -/
  data : ∃ data, s.jobData = some data ∧
    (data.metricData.map fun m => m.config.guid).Perm (configs.map MetricConfig.guid)
  contains : s.containsMetricData = true ↔ configs ≠ []
  /-- A function is selected for each metric. -/
  selection : configs ≠ [] → ∃ selection, s.aggFnSelection = some selection ∧
    ∀ c ∈ configs, selection.lookup c.guid ≠ none

section Caches

variable {a : Answers} {configs : List MetricConfig} {cache : AggCache}

theorem AggCache.get_eq_some_iff {x : ℚ} {g f : String} {m : MetricData} :
    AggCache.get cache x g f = some m ↔ ∃ metrics fns, Map.lookup cache x = some metrics ∧
      metrics.lookup g = some fns ∧ fns.lookup f = some m := by
  simp only [AggCache.get, Option.bind_eq_some_iff]
  constructor
  · rintro ⟨fns, ⟨metrics, hx, hg⟩, hf⟩
    exact ⟨metrics, fns, hx, hg, hf⟩
  · rintro ⟨metrics, fns, hx, hg, hf⟩
    exact ⟨fns, ⟨metrics, hx, hg⟩, hf⟩

/-- The functions of one metric are overwritten, and nothing else. -/
theorem AggCache.get_upsert {x x' : ℚ} {g g' f' : String} {m : MetricData}
    {metrics : Map String (Map String MetricData)} {fns : Map String MetricData}
    (hmetrics : metrics = (Map.lookup cache x).getD Table.empty)
    (hm : AggCache.get (Table.upsert cache (x, metrics.upsert (g, fns))) x' g' f' = some m) :
    AggCache.get cache x' g' f' = some m ∨ x' = x ∧ g' = g ∧ fns.lookup f' = some m := by
  obtain ⟨metrics', fns', hx', hg', hf'⟩ := AggCache.get_eq_some_iff.1 hm
  rw [Map.lookup_upsert] at hx'
  split at hx'
  · rename_i hxx
    cases hx'
    rw [Map.lookup_upsert] at hg'
    split at hg'
    · rename_i hgg
      cases hg'
      exact Or.inr ⟨hxx, hgg, hf'⟩
    · refine Or.inl ?_
      cases hx : Map.lookup cache x with
      | none =>
        rw [hmetrics, hx] at hg'
        cases hg'
      | some metrics₀ =>
        rw [hmetrics, hx] at hg'
        exact AggCache.get_eq_some_iff.2 ⟨metrics₀, fns', (show x' = x from hxx) ▸ hx, hg', hf'⟩
  · exact Or.inl (AggCache.get_eq_some_iff.2 ⟨metrics', fns', hx', hg', hf'⟩)

/-- Nothing is found in the cache but what was there and what has been put in. -/
theorem AggCache.get_set {cache' : AggCache} {x x' : ℚ} {g g' f f' : String} {data m : MetricData}
    (h : cache.set x g f data = some cache') (hm : AggCache.get cache' x' g' f' = some m) :
    AggCache.get cache x' g' f' = some m ∨ x' = x ∧ g' = g ∧ f' = f ∧ m = data := by
  unfold AggCache.set at h
  split at h
  · cases h
  · rename_i metrics hx
    split at h
    · cases h
    · rename_i fns hg
      cases h
      rcases AggCache.get_upsert (by rw [hx]; rfl) hm with hold | ⟨rfl, rfl, hf⟩
      · exact Or.inl hold
      · rw [Map.lookup_upsert] at hf
        split at hf
        · rename_i hff
          cases hf
          exact Or.inr ⟨rfl, rfl, hff, rfl⟩
        · exact Or.inl (AggCache.get_eq_some_iff.2 ⟨metrics, fns, hx, hg, hf⟩)

theorem AggCache.get_addDefault {x x' : ℚ} {g f : String} {m m' : MetricData}
    (hm : AggCache.get (cache.addDefault x m) x' g f = some m') :
    AggCache.get cache x' g f = some m' ∨
      x' = x ∧ g = m.config.guid ∧ f = m.config.aggFn ∧ m' = m := by
  rcases AggCache.get_upsert rfl hm with hold | ⟨rfl, rfl, hf⟩
  · exact Or.inl hold
  · split at hf
    · -- there is something under the default function, and all stays as it is
      refine Or.inl ?_
      cases hx : Map.lookup cache x' with
      | none =>
        rw [hx] at hf
        cases hf
      | some metrics =>
        rw [hx, Option.getD_some] at hf
        cases hg : metrics.lookup m.config.guid with
        | none =>
          rw [hg] at hf
          cases hf
        | some fns =>
          rw [hg] at hf
          exact AggCache.get_eq_some_iff.2 ⟨metrics, fns, hx, hg, hf⟩
    · rw [Map.lookup_upsert] at hf
      split at hf
      · rename_i hff
        cases hf
        exact Or.inr ⟨rfl, rfl, hff, rfl⟩
      · cases hf

theorem AggCache.get_foldl_addDefault {x x' : ℚ} {g f : String} {m : MetricData}
    {ms : List MetricData} (hm : AggCache.get (ms.foldl (addDefault x) cache) x' g f = some m) :
    AggCache.get cache x' g f = some m ∨
      x' = x ∧ m ∈ ms ∧ m.config.guid = g ∧ m.config.aggFn = f := by
  induction ms generalizing cache with
  | nil => exact Or.inl hm
  | cons m₀ ms ih =>
    rcases ih hm with hold | ⟨hx, hmem, hg, hf⟩
    · rcases AggCache.get_addDefault hold with hold | ⟨hx, hg, hf, rfl⟩
      · exact Or.inl hold
      · exact Or.inr ⟨hx, List.mem_cons_self, hg.symm, hf.symm⟩
    · exact Or.inr ⟨hx, List.mem_cons_of_mem _ hmem, hg, hf⟩

theorem NodeCache.get_set {nodeCache : NodeCache} {x x' : ℚ} {n n' : String} {data data' : JobData}
    (h : NodeCache.get (nodeCache.set x n data) x' n' = some data') :
    NodeCache.get nodeCache x' n' = some data' ∨ x' = x ∧ n' = n ∧ data' = data := by
  obtain ⟨nodes, hx, hn⟩ := Option.bind_eq_some_iff.1 h
  rw [NodeCache.set, Map.lookup_upsert] at hx
  split at hx
  · rename_i hxx
    cases hx
    rw [Map.lookup_upsert] at hn
    split at hn
    · rename_i hnn
      cases hn
      exact Or.inr ⟨hxx, hnn, rfl⟩
    · refine Or.inl ?_
      cases hx : Map.lookup nodeCache x with
      | none =>
        rw [hx] at hn
        cases hn
      | some nodes =>
        rw [hx] at hn
        exact Option.bind_eq_some_iff.2 ⟨nodes, (show x' = x from hxx) ▸ hx, hn⟩
  · exact Or.inl (Option.bind_eq_some_iff.2 ⟨nodes, hx, hn⟩)

end Caches

/-! ## What is shown -/

/-- The function for a metric: the selected one, and its default when none is. -/
def View.fnFor (s : View) (c : MetricConfig) : String :=
  (s.aggFnSelection.bind fun selection => selection.lookup c.guid).getD c.aggFn

/-- The view shows what is selected: for a node its data for the interval, otherwise the
data for the interval in which each metric, in whatever order, uses the function for it. -/
def View.Shown (a : Answers) (configs : List MetricConfig) (s : View) : Prop :=
  ∃ x data, s.sampleInterval = some x ∧ s.jobData = some data ∧
    match s.node with
    | some n => data = a.nodeData x n
    | none => ∃ ms, List.Forall₂ (fun c m => a.Uses x c.guid (s.fnFor c) m) configs ms ∧
        ms.Perm data.metricData

/-- Only default functions are selected. -/
def View.DefaultsSelected (configs : List MetricConfig) (s : View) : Prop :=
  ∀ c ∈ configs, s.fnFor c = c.aggFn

/-- The data of a metric are outstanding. -/
def MetricAwaited (fetches : List Fetch) : Prop := ∃ x g f, Fetch.metric x g f ∈ fetches

/-- The data of a node are outstanding. -/
def NodeAwaited (fetches : List Fetch) : Prop := ∃ x n, Fetch.node x n ∈ fetches

/-- What is answered to a request for the job's data is for the selected interval. -/
def View.ForInterval (a : Answers) (s : View) (x : Option Interval) : Prop :=
  ∃ x', s.sampleInterval = some x' ∧ (a.jobData x).sampleInterval = x'.val

/-- The data for the selected interval are outstanding. -/
def View.IntervalAwaited (a : Answers) (s : View) (fetches : List Fetch) : Prop :=
  ∃ x, Fetch.job x ∈ fetches ∧ s.ForInterval a x

/-- No metric of `jobData` is in the cache with the function that is selected for it. -/
def View.NoneCached (s : View) : Prop :=
  ∀ data selection x, s.jobData = some data → s.aggFnSelection = some selection →
    s.sampleInterval = some x → ∀ m ∈ data.metricData, s.cachedFor selection x m = none

/-- A response that sets the view right is outstanding: with a node, that of a node, for
then the effect on the node cache comes last; without, that of a metric, for the same
reason, or the data for the interval when they have the selected functions. -/
def View.Awaited (a : Answers) (configs : List MetricConfig) (s : View) (fetches : List Fetch) :
    Prop :=
  match s.node with
  | some _ => NodeAwaited fetches
  | none => MetricAwaited fetches ∨ s.DefaultsSelected configs ∧ s.IntervalAwaited a fetches

/-- The view is right, or will be. -/
def View.OnTrack (a : Answers) (configs : List MetricConfig) (s : View) : Prop :=
  s.Shown a configs ∨ s.Awaited a configs s.fetches

section Shown

variable {a : Answers} {configs : List MetricConfig} {s s' : View} {data : JobData}
  {x : Interval} {n : NodeName}

/-- Lists that agree in some respect, up to the order, agree entry by entry. -/
theorem forall₂_of_map_perm {α β γ : Type} {f : α → γ} {g : β → γ} {R : α → β → Prop} {l : List α}
    {l' : List β} (h : (l.map f).Perm (l'.map g))
    (hR : ∀ u ∈ l, ∀ v ∈ l', f u = g v → R u v) : ∃ m, List.Forall₂ R l m ∧ m.Perm l' := by
  have hmap : List.Forall₂ (fun w v => w = g v) (l'.map g) l' :=
    List.forall₂_map_left_iff.2 (List.forall₂_same.2 fun _ _ => rfl)
  obtain ⟨m, hm, hperm⟩ := List.perm_comp_forall₂ h hmap
  rw [List.forall₂_map_left_iff, List.forall₂_iff_zip] at hm
  refine ⟨m, List.forall₂_iff_zip.2 ⟨hm.1, fun {u v} huv => ?_⟩, hperm⟩
  obtain ⟨hu, hv⟩ := List.of_mem_zip huv
  exact hR u hu v (hperm.mem_iff.1 hv) (hm.2 huv)

theorem guids_of_configs {ms : List MetricData} (h : (ms.map MetricData.config).Perm configs) :
    (ms.map fun m => m.config.guid).Perm (configs.map MetricConfig.guid) := by
  have hmap := h.map MetricConfig.guid
  rwa [List.map_map] at hmap

/-- The data for the interval, as they come, are right for all metrics with their
default function. -/
theorem shown_of_raw (ha : a.Consistent configs) (hnode : s.node = none)
    (hx : s.sampleInterval = some x) (hdata : s.jobData = some data)
    (hraw : data.metricData.Perm (a.jobData (some x)).metricData)
    (hdefault : s.DefaultsSelected configs) : s.Shown a configs := by
  refine ⟨x, data, hx, hdata, ?_⟩
  simp only [hnode]
  have hconfigs : (configs.map id).Perm (data.metricData.map MetricData.config) := by
    rw [List.map_id]
    exact ((hraw.map MetricData.config).trans (ha.job (some x))).symm
  refine forall₂_of_map_perm hconfigs fun c hc m hm hcm => ?_
  rw [hdefault c hc]
  exact Or.inr ⟨hraw.mem_iff.1 hm, congrArg MetricConfig.guid hcm.symm,
    congrArg MetricConfig.aggFn hcm.symm⟩

/-- Without metrics there is nothing to get wrong. -/
theorem shown_of_no_metrics (h : s.Coherent a configs) (hnode : s.node = none)
    (hconfigs : configs = []) : s.Shown a configs := by
  obtain ⟨x, hx⟩ := Option.ne_none_iff_exists'.1 h.interval
  obtain ⟨data, hdata, hguids⟩ := h.data
  refine ⟨x, data, hx, hdata, ?_⟩
  subst hconfigs
  rw [List.map_nil, List.perm_nil, List.map_eq_nil_iff] at hguids
  simp only [hnode, hguids]
  exact ⟨[], .nil, .nil⟩

/-- Data with the metrics of the job may be shown, and fetches made. -/
theorem coherent_showing (h : s.Coherent a configs)
    (hguids : (data.metricData.map fun m => m.config.guid).Perm (configs.map MetricConfig.guid))
    (isLoading : Bool) (fetches : List Fetch) :
    ({ s with jobData := some data, isLoading, fetches } : View).Coherent a configs :=
  ⟨⟨h.job, h.node, h.metric⟩, h.interval, ⟨data, rfl, hguids⟩, h.contains, h.selection⟩

theorem coherent_fetching (h : s.Coherent a configs) (isLoading : Bool) (fetches : List Fetch) :
    ({ s with isLoading, fetches } : View).Coherent a configs :=
  ⟨⟨h.job, h.node, h.metric⟩, h.interval, h.data, h.contains, h.selection⟩

end Shown

/-! ## The effects -/

section Effects

variable {a : Answers} {configs : List MetricConfig} {s s' : View} {data : JobData}
  {x : Interval} {n : NodeName}

theorem loadInterval_cases (h : s.loadInterval = some s') :
    s' = { s with isLoading := true, fetches := s.fetches ++ [.job s.sampleInterval] } ∨
      ∃ (x : Interval) (metricData : List MetricData) (metadata : JobData),
        s.sampleInterval = some x ∧
        s.jobCache.data.lookup x.val = some metricData ∧
        s' = { s with
          isLoading := false
          jobData := some { metadata with metricData } } := by
  unfold View.loadInterval at h
  split at h
  · rename_i hx
    cases h
    left
    rw [hx]
  · rename_i x hx
    split at h
    · cases h
      left
      rw [hx]
    · rename_i metricData hcached
      obtain ⟨metadata, -, rfl⟩ := Option.map_eq_some_iff.1 h
      exact Or.inr ⟨x, metricData, metadata, hx, hcached, rfl⟩

theorem coherent_loadInterval (ha : a.Consistent configs) (h : s.Coherent a configs)
    (hload : s.loadInterval = some s') : s'.Coherent a configs := by
  rcases loadInterval_cases hload with rfl | ⟨x, metricData, metadata, -, hcached, rfl⟩
  · exact coherent_fetching h _ _
  · refine coherent_showing h ?_ false s.fetches
    exact guids_of_configs (((h.job x metricData hcached).map _).trans (ha.job _))

theorem frame_loadInterval (hload : s.loadInterval = some s') :
    s'.node = s.node ∧ s'.sampleInterval = s.sampleInterval ∧
      s'.aggFnSelection = s.aggFnSelection ∧ s.fetches ⊆ s'.fetches := by
  rcases loadInterval_cases hload with rfl | ⟨x, metricData, metadata, -, -, rfl⟩
  · exact ⟨rfl, rfl, rfl, List.subset_append_left _ _⟩
  · exact ⟨rfl, rfl, rfl, List.Subset.refl _⟩

/-- **The first effect** does it when only default functions are selected. -/
theorem onTrack_loadInterval (ha : a.Consistent configs) (h : s.Coherent a configs)
    (hnode : s.node = none) (hdefault : s.DefaultsSelected configs)
    (hload : s.loadInterval = some s') : s'.OnTrack a configs := by
  rcases loadInterval_cases hload with rfl | ⟨x, metricData, metadata, hx, hcached, rfl⟩
  · obtain ⟨x, hx⟩ := Option.ne_none_iff_exists'.1 h.interval
    refine Or.inr ?_
    simp only [View.Awaited, hnode]
    refine Or.inr ⟨hdefault, some x, ?_, x, hx, ha.interval x⟩
    rw [hx]
    exact List.mem_append_right _ List.mem_cons_self
  · exact Or.inl (shown_of_raw ha hnode hx rfl (h.job x metricData hcached) hdefault)

/-- Without metrics the second effect does nothing. -/
theorem loadAggFns_of_empty (h : s.containsMetricData = false) (rendered : Option JobData) :
    s.loadAggFns rendered = s := by
  unfold View.loadAggFns
  split
  · rw [if_neg (by simp [h])]
  · rfl

/-- The second effect, with metrics. -/
theorem loadAggFns_eq {selection : Map String String} (hsel : s.aggFnSelection = some selection)
    (hx : s.sampleInterval = some x) (hcontains : s.containsMetricData = true)
    (hne : data.metricData ≠ []) :
    s.loadAggFns (some data) =
      { s with
        jobData := some { data with
          metricData := data.metricData.map fun m => (s.cachedFor selection x m).getD m }
        fetches := s.fetches ++
          (data.metricData.filter fun m => (s.cachedFor selection x m).isNone).map fun m =>
            .metric x m.config.guid (View.selectedFn selection m) } := by
  simp only [View.loadAggFns, hsel, hx]
  rw [if_pos ⟨hcontains, hne⟩]

theorem guid_of_uses (ha : a.Consistent configs) {g f : String} {m : MetricData}
    (h : a.Uses x g f m) : m.config.guid = g := by
  rcases h with rfl | ⟨-, hg, -⟩
  · exact ha.metric x g f
  · exact hg

/-- What the second effect puts in has the metrics of the data it started from. -/
theorem guids_replaced (ha : a.Consistent configs) (h : s.Coherent a configs)
    (selection : Map String String) (x : Interval) (ms : List MetricData) :
    (ms.map fun m => (s.cachedFor selection x m).getD m).map (fun m => m.config.guid) =
      ms.map fun m => m.config.guid := by
  rw [List.map_map]
  refine List.map_congr_left fun m _ => ?_
  cases hcached : s.cachedFor selection x m with
  | none => simp [hcached]
  | some m' =>
    have hguid := guid_of_uses ha (h.metric x _ _ m' hcached)
    simpa [hcached] using hguid

theorem frame_loadAggFns (rendered : Option JobData) :
    (s.loadAggFns rendered).node = s.node ∧
      (s.loadAggFns rendered).sampleInterval = s.sampleInterval ∧
      s.fetches ⊆ (s.loadAggFns rendered).fetches := by
  unfold View.loadAggFns
  split
  · split
    · exact ⟨rfl, rfl, List.subset_append_left _ _⟩
    · exact ⟨rfl, rfl, List.Subset.refl _⟩
  · exact ⟨rfl, rfl, List.Subset.refl _⟩

theorem coherent_loadAggFns (ha : a.Consistent configs) (h : s.Coherent a configs)
    (hguids : (data.metricData.map fun m => m.config.guid).Perm (configs.map MetricConfig.guid)) :
    (s.loadAggFns (some data)).Coherent a configs := by
  unfold View.loadAggFns
  split
  · rename_i data' selection x hdata _ _
    cases hdata
    split
    · refine coherent_showing h ?_ _ _
      rwa [guids_replaced ha h selection x data.metricData]
    · exact h
  · exact h

theorem View.Coherent.contains_eq_false (h : s.Coherent a configs) (hconfigs : configs = []) :
    s.containsMetricData = false := by
  rw [← Bool.not_eq_true, h.contains, not_not]
  exact hconfigs

/-- **The second effect** always does it, without a node. -/
theorem onTrack_loadAggFns (h : s.Coherent a configs) (hnode : s.node = none)
    (hguids : (data.metricData.map fun m => m.config.guid).Perm (configs.map MetricConfig.guid)) :
    (s.loadAggFns (some data)).OnTrack a configs := by
  by_cases hconfigs : configs = []
  · rw [loadAggFns_of_empty (h.contains_eq_false hconfigs)]
    exact Or.inl (shown_of_no_metrics h hnode hconfigs)
  obtain ⟨x, hx⟩ := Option.ne_none_iff_exists'.1 h.interval
  obtain ⟨selection, hsel, hcovers⟩ := h.selection hconfigs
  have hne : data.metricData ≠ [] := by
    intro hnil
    rw [hnil, List.map_nil, List.nil_perm, List.map_eq_nil_iff] at hguids
    exact hconfigs hguids
  rw [loadAggFns_eq hsel hx (h.contains.2 hconfigs) hne]
  by_cases hmissing : ∃ m ∈ data.metricData, s.cachedFor selection x m = none
  · obtain ⟨m, hm, hnone⟩ := hmissing
    refine Or.inr ?_
    simp only [View.Awaited, hnode]
    refine Or.inl ⟨x, m.config.guid, View.selectedFn selection m, List.mem_append_right _ ?_⟩
    refine List.mem_map.2 ⟨m, List.mem_filter.2 ⟨hm, ?_⟩, rfl⟩
    rw [hnone]
    rfl
  · -- every metric is there, with the function that is selected for it
    refine Or.inl ⟨x, _, hx, rfl, ?_⟩
    simp only [hnode]
    suffices h : ∃ ms, List.Forall₂ (fun c m => a.Uses x c.guid (s.fnFor c)
        ((s.cachedFor selection x m).getD m)) configs ms ∧ ms.Perm data.metricData by
      obtain ⟨ms, hms, hperm⟩ := h
      exact ⟨ms.map _, List.forall₂_map_right_iff.2 hms, hperm.map _⟩
    refine forall₂_of_map_perm hguids.symm fun c hc m hm hguid => ?_
    obtain ⟨f, hf⟩ := Option.ne_none_iff_exists'.1 (hcovers c hc)
    have hfn : View.selectedFn selection m = f := by
      rw [View.selectedFn, ← hguid, hf, Option.getD_some]
    have hfor : s.fnFor c = f := by
      simp only [View.fnFor, hsel, Option.bind_some, hf, Option.getD_some]
    cases hcached : s.cachedFor selection x m with
    | none => exact absurd ⟨m, hm, hcached⟩ hmissing
    | some m' =>
      have huses := h.metric x _ _ m' hcached
      rw [hfn, ← hguid] at huses
      rw [Option.getD_some]
      exact hfor ▸ huses

/-- The second effect replaces nothing that is not in the cache. -/
theorem jobData_of_noneCached (h : s.NoneCached) :
    (s.loadAggFns s.jobData).jobData = s.jobData := by
  unfold View.loadAggFns
  split
  · rename_i data selection x hdata hsel hx
    split
    · have hsame : data.metricData.map (fun m => (s.cachedFor selection x m).getD m) =
          data.metricData := by
        conv_rhs => rw [← List.map_id data.metricData]
        refine List.map_congr_left fun m hm => ?_
        rw [h data selection x hdata hsel hx m hm]
        rfl
      rw [hsame, hdata]
    · rfl
  · rfl

theorem loadNode_of_none (h : s.node = none) : s.loadNode = s := by
  unfold View.loadNode
  rw [h]

theorem loadNode_cases (hnode : s.node = some n) (hx : s.sampleInterval = some x) :
    (∃ data, s.nodeCache.get x.val n.val = some data ∧
      s.loadNode = { s with
        isLoading := false
        jobData := some data }) ∨
      s.loadNode = { s with isLoading := true, fetches := s.fetches ++ [.node x n] } := by
  unfold View.loadNode
  rw [hnode, hx]
  simp only
  split
  · rename_i data hdata
    exact Or.inl ⟨data, hdata, rfl⟩
  · exact Or.inr rfl

theorem coherent_loadNode (ha : a.Consistent configs) (h : s.Coherent a configs) :
    s.loadNode.Coherent a configs := by
  cases hnode : s.node with
  | none => rwa [loadNode_of_none hnode]
  | some n =>
    obtain ⟨x, hx⟩ := Option.ne_none_iff_exists'.1 h.interval
    rcases loadNode_cases hnode hx with ⟨data, hdata, hload⟩ | hload
    · rw [hload]
      refine coherent_showing h ?_ false s.fetches
      rw [h.node x n data hdata]
      exact guids_of_configs (ha.node x n)
    · rw [hload]
      exact coherent_fetching h _ _

/-- **The third effect** always does it, with a node. -/
theorem onTrack_loadNode (h : s.Coherent a configs) (hnode : s.node = some n) :
    s.loadNode.OnTrack a configs := by
  obtain ⟨x, hx⟩ := Option.ne_none_iff_exists'.1 h.interval
  rcases loadNode_cases hnode hx with ⟨data, hdata, hload⟩ | hload
  · rw [hload]
    refine Or.inl ⟨x, data, hx, rfl, ?_⟩
    simp only [hnode]
    exact h.node x n data hdata
  · rw [hload]
    refine Or.inr ?_
    simp only [View.Awaited, hnode]
    exact ⟨x, n, List.mem_append_right _ List.mem_cons_self⟩

end Effects

/-! ## Steps -/

/-- A step after which the view is right, or will be: what it writes last is what is
selected, or a response that sets it right is outstanding.  The data of a metric arrive
after those of their interval, otherwise the hook finds no place for them and throws. -/
def View.KeepsTrack (a : Answers) (configs : List MetricConfig) (s : View) : Event → Prop
  | .selectNode (some _) => True
  | .selectNode none =>
    s.node = none ∨ MetricAwaited s.fetches ∨ s.DefaultsSelected configs
  | .selectInterval x =>
    s.node ≠ none ∨ s.sampleInterval = some x ∨ MetricAwaited s.fetches ∨
      s.DefaultsSelected configs
  | .selectAggFn g f =>
    s.node = none ∨ NodeAwaited s.fetches ∨
      View.NoneCached
        { s with aggFnSelection := some ((s.aggFnSelection.getD Table.empty).upsert (g, f)) }
  | .deliver i =>
    match s.fetches[i]? with
    | none => False
    | some (.job x) =>
      s.Awaited a configs (s.fetches.eraseIdx i) ∨
        s.node = none ∧ (configs = [] ∨ s.DefaultsSelected configs ∧ s.ForInterval a x)
    | some (.node _ _) =>
      s.node ≠ none ∨ s.Awaited a configs (s.fetches.eraseIdx i) ∨ configs = []
    | some (.metric x g f) =>
      ∃ aggFnCache, s.aggFnCache.set x.val g f (a.metricData x g f) = some aggFnCache ∧
        (s.node = none ∨ NodeAwaited (s.fetches.eraseIdx i) ∨ View.NoneCached { s with aggFnCache })

section Steps

variable {a : Answers} {configs : List MetricConfig} {s s' : View} {e : Event}

theorem runEffects_node (b : Bool) :
    s.runEffects { node := b } = if b then s.loadInterval.map View.loadNode else some s := by
  cases b with
  | false => rfl
  | true => rfl

theorem runEffects_sampleInterval (b : Bool) :
    s.runEffects { sampleInterval := b } =
      if b then s.loadInterval.map View.loadNode else some s := by
  cases b with
  | false => rfl
  | true => rfl

/-- An answer for an interval has the data for it. -/
theorem metricData_of_interval (ha : a.Consistent configs) {x : Option Interval} {x' : Interval}
    (h : (a.jobData x).sampleInterval = x'.val) :
    (a.jobData x).metricData.Perm (a.jobData (some x')).metricData := by
  cases x with
  | none =>
    obtain ⟨x₀, hx₀, hdata⟩ := ha.chosen
    rwa [← Subtype.ext (hx₀.symm.trans h)]
  | some x => rw [Subtype.ext ((ha.interval x).symm.trans h)]

theorem metricData_ne_nil_iff (ha : a.Consistent configs) (x : Option Interval) :
    (a.jobData x).metricData ≠ [] ↔ configs ≠ [] := by
  rw [ne_eq, ne_eq, ← List.map_eq_nil_iff (f := MetricData.config), ← List.perm_nil,
    (ha.job x).congr_left, List.perm_nil]

theorem cachesRight_populateJobCache (ha : a.Consistent configs) (h : s.CachesRight a)
    (x : Option Interval) : (s.populateJobCache (a.jobData x)).CachesRight a := by
  unfold View.populateJobCache
  split
  · refine ⟨?_, h.node, ?_⟩
    · intro x' metricData hlookup
      rw [Map.lookup_upsert] at hlookup
      split at hlookup
      · rename_i hx
        cases hlookup
        exact metricData_of_interval ha (show x'.val = _ from hx).symm
      · exact h.job x' metricData hlookup
    · intro x' g f m hm
      rcases AggCache.get_foldl_addDefault hm with hold | ⟨hx, hmem, hg, hf⟩
      · exact h.metric x' g f m hold
      · exact Or.inr ⟨(metricData_of_interval ha hx.symm).mem_iff.1 hmem, hg, hf⟩
  · exact ⟨h.job, h.node, h.metric⟩

theorem frame_populateJobCache (data : JobData) :
    (s.populateJobCache data).node = s.node ∧
      (s.populateJobCache data).sampleInterval = s.sampleInterval ∧
      (s.populateJobCache data).aggFnSelection = s.aggFnSelection ∧
      (s.populateJobCache data).fetches = s.fetches ∧
      (s.populateJobCache data).jobData = some data ∧
      (s.populateJobCache data).containsMetricData = decide (data.metricData ≠ []) := by
  unfold View.populateJobCache
  split
  · rename_i hne
    exact ⟨rfl, rfl, rfl, rfl, rfl, (decide_eq_true hne).symm⟩
  · rename_i hnil
    exact ⟨rfl, rfl, rfl, rfl, rfl, (decide_eq_false hnil).symm⟩

theorem coherent_populateJobCache (ha : a.Consistent configs) (h : s.Coherent a configs)
    (x : Option Interval) : (s.populateJobCache (a.jobData x)).Coherent a configs := by
  obtain ⟨-, hinterval, hsel, -, hdata, hcontains⟩ := @frame_populateJobCache s (a.jobData x)
  refine ⟨cachesRight_populateJobCache ha h.toCachesRight x, hinterval ▸ h.interval,
    ⟨_, hdata, guids_of_configs (ha.job x)⟩, ?_, hsel ▸ h.selection⟩
  rw [hcontains, decide_eq_true_eq]
  exact metricData_ne_nil_iff ha x

/-- Once the view is open, a response to a request for the job's data runs no effects. -/
theorem receive_job (ha : a.Consistent configs) (h : s.Coherent a configs) (x : Option Interval) :
    s.receive a (.job x) = some (s.populateJobCache (a.jobData x)) := by
  have hsame : (s.populateJobCache (a.jobData x)).containsMetricData = s.containsMetricData :=
    Bool.eq_iff_iff.2 ((coherent_populateJobCache ha h x).contains.trans h.contains.symm)
  simp only [View.receive, hsame, bne_self_eq_false]
  rfl

theorem coherent_storeNode (ha : a.Consistent configs) (h : s.Coherent a configs) (x : Interval)
    (n : NodeName) :
    ({ s with
      nodeCache := s.nodeCache.set x.val n.val (a.nodeData x n)
      isLoading := false
      jobData := some (a.nodeData x n) } : View).Coherent a configs := by
  refine ⟨⟨h.job, ?_, h.metric⟩, h.interval, ⟨_, rfl, guids_of_configs (ha.node x n)⟩, h.contains,
    h.selection⟩
  intro x' n' data hdata
  rcases NodeCache.get_set hdata with hold | ⟨hx, hn, rfl⟩
  · exact h.node x' n' data hold
  · rw [Subtype.ext hx, Subtype.ext hn]

theorem coherent_storeMetric (h : s.Coherent a configs) {x : Interval} {g f : String}
    {aggFnCache : AggCache}
    (hset : s.aggFnCache.set x.val g f (a.metricData x g f) = some aggFnCache) :
    ({ s with aggFnCache } : View).Coherent a configs := by
  refine ⟨⟨h.job, h.node, ?_⟩, h.interval, h.data, h.contains, h.selection⟩
  intro x' g' f' m hm
  rcases AggCache.get_set hset hm with hold | ⟨hx, rfl, rfl, rfl⟩
  · exact h.metric x' g' f' m hold
  · rw [Subtype.ext hx]
    exact Or.inl rfl

theorem coherent_selectAggFn (h : s.Coherent a configs) (g f : String) :
    ({ s with aggFnSelection := some ((s.aggFnSelection.getD Table.empty).upsert (g, f)) }
      : View).Coherent a configs := by
  refine ⟨⟨h.job, h.node, h.metric⟩, h.interval, h.data, h.contains, ?_⟩
  intro hne
  obtain ⟨selection, hsel, hcovers⟩ := h.selection hne
  refine ⟨_, rfl, fun c hc => ?_⟩
  rw [hsel, Option.getD_some, Map.lookup_upsert]
  split
  · simp
  · exact hcovers c hc

theorem coherent_selectNode (h : s.Coherent a configs) (node : Option NodeName) :
    ({ s with node } : View).Coherent a configs :=
  ⟨⟨h.job, h.node, h.metric⟩, h.interval, h.data, h.contains, h.selection⟩

theorem coherent_selectInterval (h : s.Coherent a configs) (x : Interval) :
    ({ s with sampleInterval := some x } : View).Coherent a configs :=
  ⟨⟨h.job, h.node, h.metric⟩, Option.some_ne_none x, h.data, h.contains, h.selection⟩

/-- The first and the third effect, or none. -/
theorem coherent_loaded {b : Bool} (ha : a.Consistent configs) (h : s.Coherent a configs)
    (hs' : (if b then s.loadInterval.map View.loadNode else some s) = some s') :
    s'.Coherent a configs := by
  cases b with
  | false =>
    cases hs'
    exact h
  | true =>
    obtain ⟨s₁, hload, rfl⟩ := Option.map_eq_some_iff.1 hs'
    exact coherent_loadNode ha (coherent_loadInterval ha h hload)

/-- What a response does. -/
theorem step_deliver {i : ℕ} (h : s.step a (.deliver i) = some s') :
    ∃ fetch, s.fetches[i]? = some fetch ∧
      View.receive { s with fetches := s.fetches.eraseIdx i } a fetch = some s' := by
  simp only [View.step] at h
  split at h
  · cases h
  · rename_i fetch hfetch
    exact ⟨fetch, hfetch, h⟩

theorem coherent_receive {fetch : Fetch} (ha : a.Consistent configs) (h : s.Coherent a configs)
    (hreceive : s.receive a fetch = some s') : s'.Coherent a configs := by
  cases fetch with
  | job x =>
    rw [receive_job ha h] at hreceive
    cases hreceive
    exact coherent_populateJobCache ha h x
  | node x n =>
    cases hreceive
    exact coherent_loadNode ha (coherent_storeNode ha h x n)
  | metric x g f =>
    obtain ⟨aggFnCache, hset, hrun⟩ := Option.bind_eq_some_iff.1 hreceive
    obtain ⟨data, hdata, hguids⟩ := h.data
    cases hrun
    have hload := coherent_loadAggFns ha (coherent_storeMetric h hset) hguids
    rwa [← hdata] at hload

/-- **Every step keeps the view coherent.** -/
theorem coherent_step (ha : a.Consistent configs) (h : s.Coherent a configs)
    (hstep : s.step a e = some s') : s'.Coherent a configs := by
  cases e with
  | selectNode node =>
    rw [View.step, runEffects_node] at hstep
    exact coherent_loaded ha (coherent_selectNode h node) hstep
  | selectInterval x =>
    rw [View.step, runEffects_sampleInterval] at hstep
    exact coherent_loaded ha (coherent_selectInterval h x) hstep
  | selectAggFn g f =>
    obtain ⟨data, hdata, hguids⟩ := h.data
    cases hstep
    have hload := coherent_loadAggFns ha (coherent_selectAggFn h g f) hguids
    rwa [← hdata] at hload
  | deliver i =>
    obtain ⟨fetch, -, hreceive⟩ := step_deliver hstep
    exact coherent_receive ha (coherent_fetching h _ _) hreceive

/-! ## Staying on track -/

theorem MetricAwaited.mono {l l' : List Fetch} (h : MetricAwaited l) (hl : l ⊆ l') :
    MetricAwaited l' := by
  obtain ⟨x, g, f, hmem⟩ := h
  exact ⟨x, g, f, hl hmem⟩

theorem NodeAwaited.mono {l l' : List Fetch} (h : NodeAwaited l) (hl : l ⊆ l') :
    NodeAwaited l' := by
  obtain ⟨x, n, hmem⟩ := h
  exact ⟨x, n, hl hmem⟩

/-- What is awaited of a node is not the data of a metric. -/
theorem nodeAwaited_eraseIdx {i : ℕ} {l : List Fetch} {x : Interval} {g f : String}
    (hi : l[i]? = some (.metric x g f)) (h : NodeAwaited l) : NodeAwaited (l.eraseIdx i) := by
  obtain ⟨x', n, hmem⟩ := h
  obtain ⟨j, hj⟩ := List.mem_iff_getElem?.1 hmem
  refine ⟨x', n, List.mem_eraseIdx_iff_getElem?.2 ⟨j, ?_, hj⟩⟩
  rintro rfl
  rw [hi] at hj
  cases hj

theorem not_awaited_nil : ¬ s.Awaited a configs [] := by
  unfold View.Awaited
  split
  · rintro ⟨x, n, hmem⟩
    cases hmem
  · rintro (⟨x, g, f, hmem⟩ | ⟨-, x, hmem, -⟩)
    · cases hmem
    · cases hmem

theorem onTrack_of_metricAwaited (hnode : s.node = none) (h : MetricAwaited s.fetches) :
    s.OnTrack a configs := by
  refine Or.inr ?_
  simp only [View.Awaited, hnode]
  exact Or.inl h

theorem onTrack_of_nodeAwaited {n : NodeName} (hnode : s.node = some n)
    (h : NodeAwaited s.fetches) : s.OnTrack a configs := by
  refine Or.inr ?_
  simp only [View.Awaited, hnode]
  exact h

/-- What is awaited depends on what is selected. -/
theorem awaited_congr (hnode : s'.node = s.node) (hinterval : s'.sampleInterval = s.sampleInterval)
    (hsel : s'.aggFnSelection = s.aggFnSelection) (l : List Fetch) :
    s'.Awaited a configs l ↔ s.Awaited a configs l := by
  simp only [View.Awaited, View.DefaultsSelected, View.fnFor, View.IntervalAwaited,
    View.ForInterval, hnode, hinterval, hsel]

/-- With a node the view stays on track as long as `jobData` does not change. -/
theorem onTrack_of_node (ht : s.OnTrack a configs) (hsome : s.node ≠ none)
    (hnode : s'.node = s.node) (hinterval : s'.sampleInterval = s.sampleInterval)
    (hdata : s'.jobData = s.jobData) (hfetches : NodeAwaited s.fetches → NodeAwaited s'.fetches) :
    s'.OnTrack a configs := by
  obtain ⟨n, hn⟩ := Option.ne_none_iff_exists'.1 hsome
  simp only [View.OnTrack, View.Shown, View.Awaited, hnode, hinterval, hdata, hn] at ht ⊢
  exact ht.imp_right hfetches

/-- After the first and the third effect: with a node the third one does it, without it
takes a metric that is awaited, or default functions. -/
theorem onTrack_loaded {b : Bool} (ha : a.Consistent configs) (h : s.Coherent a configs)
    (hsame : b = false → s.OnTrack a configs)
    (hkeeps : b = true →
      s.node ≠ none ∨ MetricAwaited s.fetches ∨ s.DefaultsSelected configs)
    (hs' : (if b then s.loadInterval.map View.loadNode else some s) = some s') :
    s'.OnTrack a configs := by
  cases b with
  | false =>
    cases hs'
    exact hsame rfl
  | true =>
    obtain ⟨s₁, hload, rfl⟩ := Option.map_eq_some_iff.1 hs'
    have h₁ := coherent_loadInterval ha h hload
    obtain ⟨hnode, -, -, hfetches⟩ := frame_loadInterval hload
    cases hnode₁ : s₁.node with
    | some n => exact onTrack_loadNode h₁ hnode₁
    | none =>
      rw [loadNode_of_none hnode₁]
      have hnone := hnode.symm.trans hnode₁
      rcases hkeeps rfl with hsome | hawaited | hdefault
      · exact absurd hnone hsome
      · exact onTrack_of_metricAwaited hnode₁ (hawaited.mono hfetches)
      · exact onTrack_loadInterval ha h hnone hdefault hload

/-- After the second effect: without a node it does it, with one it takes a node that is
awaited, or that it replaces nothing. -/
theorem onTrack_aggFnsLoaded (h : s.Coherent a configs)
    (hkeeps : s.node = none ∨ NodeAwaited s.fetches ∨ s.NoneCached)
    (ht : s.node ≠ none → s.OnTrack a configs) :
    (s.loadAggFns s.jobData).OnTrack a configs := by
  obtain ⟨data, hdata, hguids⟩ := h.data
  by_cases hnode : s.node = none
  · rw [hdata]
    exact onTrack_loadAggFns h hnode hguids
  · obtain ⟨n, hsome⟩ := Option.ne_none_iff_exists'.1 hnode
    obtain ⟨hnode', hinterval, hfetches⟩ := @frame_loadAggFns s s.jobData
    rcases hkeeps with hnone | hawaited | hcached
    · exact absurd hnone hnode
    · exact onTrack_of_nodeAwaited (hnode'.trans hsome) (hawaited.mono hfetches)
    · exact onTrack_of_node (ht hnode) hnode hnode' hinterval (jobData_of_noneCached hcached)
        fun hawaited => hawaited.mono hfetches

/-- A response to a request for the job's data writes them, and nothing runs after it. -/
theorem onTrack_populateJobCache {i : ℕ} {x : Option Interval} (ha : a.Consistent configs)
    (h : ({ s with fetches := s.fetches.eraseIdx i } : View).Coherent a configs)
    (hkeeps : s.Awaited a configs (s.fetches.eraseIdx i) ∨
      s.node = none ∧ (configs = [] ∨ s.DefaultsSelected configs ∧ s.ForInterval a x)) :
    (View.populateJobCache { s with fetches := s.fetches.eraseIdx i } (a.jobData x)).OnTrack a
      configs := by
  obtain ⟨hnode, hinterval, hsel, hfetches, hdata, -⟩ :=
    @frame_populateJobCache { s with fetches := s.fetches.eraseIdx i } (a.jobData x)
  have h' := coherent_populateJobCache ha h x
  rcases hkeeps with hawaited | ⟨hnone, hempty | ⟨hdefault, x', hx', hanswer⟩⟩
  · refine Or.inr ?_
    rw [hfetches]
    exact (awaited_congr hnode hinterval hsel _).2 hawaited
  · exact Or.inl (shown_of_no_metrics h' (hnode.trans hnone) hempty)
  · refine Or.inl (shown_of_raw ha (hnode.trans hnone) (hinterval.trans hx') hdata
      (metricData_of_interval ha hanswer) ?_)
    intro c hc
    rw [← hdefault c hc, View.fnFor, View.fnFor, hsel]

/-- After the third effect: without a node it does nothing. -/
theorem onTrack_nodeLoaded (h : s.Coherent a configs)
    (hkeeps : s.node ≠ none ∨ s.Awaited a configs s.fetches ∨ configs = []) :
    s.loadNode.OnTrack a configs := by
  by_cases hnode : s.node = none
  · rw [loadNode_of_none hnode]
    rcases hkeeps with hsome | hawaited | hempty
    · exact absurd hnode hsome
    · exact Or.inr hawaited
    · exact Or.inl (shown_of_no_metrics h hnode hempty)
  · obtain ⟨n, hsome⟩ := Option.ne_none_iff_exists'.1 hnode
    exact onTrack_loadNode h hsome

/-- **Step.** -/
theorem onTrack_step (ha : a.Consistent configs) (h : s.Coherent a configs)
    (ht : s.OnTrack a configs) (hkeeps : s.KeepsTrack a configs e)
    (hstep : s.step a e = some s') : s'.OnTrack a configs := by
  cases e with
  | selectNode node =>
    rw [View.step, runEffects_node] at hstep
    refine onTrack_loaded ha (coherent_selectNode h node) ?_ ?_ hstep
    · intro hb
      have hsame : node = s.node := by simpa using hb
      rw [hsame]
      exact ht
    · intro hb
      cases node with
      | some n => exact Or.inl (Option.some_ne_none n)
      | none =>
        rcases hkeeps with hnone | hawaited | hdefault
        · rw [hnone] at hb
          simp at hb
        · exact Or.inr (Or.inl hawaited)
        · exact Or.inr (Or.inr hdefault)
  | selectInterval x =>
    rw [View.step, runEffects_sampleInterval] at hstep
    refine onTrack_loaded ha (coherent_selectInterval h x) ?_ ?_ hstep
    · intro hb
      have hsame : some x = s.sampleInterval := by simpa using hb
      rw [hsame]
      exact ht
    · intro hb
      rcases hkeeps with hnode | hsame | hawaited | hdefault
      · exact Or.inl hnode
      · rw [hsame] at hb
        simp at hb
      · exact Or.inr (Or.inl hawaited)
      · exact Or.inr (Or.inr hdefault)
  | selectAggFn g f =>
    have h' := coherent_selectAggFn h g f
    cases hstep
    exact onTrack_aggFnsLoaded h' hkeeps fun hnode => onTrack_of_node ht hnode rfl rfl rfl id
  | deliver i =>
    obtain ⟨fetch, hfetch, hreceive⟩ := step_deliver hstep
    simp only [View.KeepsTrack, hfetch] at hkeeps
    have h₀ : ({ s with fetches := s.fetches.eraseIdx i } : View).Coherent a configs :=
      coherent_fetching h _ _
    cases fetch with
    | job x =>
      rw [receive_job ha h₀] at hreceive
      cases hreceive
      exact onTrack_populateJobCache ha h₀ hkeeps
    | node x n =>
      cases hreceive
      refine onTrack_nodeLoaded (coherent_storeNode ha h₀ x n) ?_
      exact hkeeps.imp_right (Or.imp_left (awaited_congr rfl rfl rfl _).2)
    | metric x g f =>
      obtain ⟨aggFnCache, hset, hrun⟩ := Option.bind_eq_some_iff.1 hreceive
      obtain ⟨aggFnCache', hset', hkeeps⟩ := hkeeps
      obtain rfl : aggFnCache = aggFnCache' := Option.some.inj (hset.symm.trans hset')
      cases hrun
      refine onTrack_aggFnsLoaded (coherent_storeMetric h₀ hset) hkeeps ?_
      intro hnode
      exact onTrack_of_node ht hnode rfl rfl rfl (nodeAwaited_eraseIdx hfetch)

end Steps

/-! ## Runs -/

section Opening

variable {a : Answers} {configs : List MetricConfig} {s s₀ t : View}

/-- The page selects a function for each metric of the first response. -/
theorem lookup_defaults {ms : List MetricData} {selection : Map String String} {g : String}
    (h : selection.lookup g ≠ none ∨ g ∈ ms.map (fun m => m.config.guid)) :
    (ms.foldl (fun selection m => Table.upsert selection (m.config.guid, m.config.aggFn))
      selection : Map String String).lookup g ≠ none := by
  induction ms generalizing selection with
  | nil => exact h.resolve_right List.not_mem_nil
  | cons m ms ih =>
    refine ih ?_
    rw [Map.lookup_upsert]
    split
    · exact Or.inl (Option.some_ne_none _)
    · rename_i hg
      refine h.imp_right fun hmem => ?_
      rw [List.map_cons] at hmem
      exact (List.mem_cons.1 hmem).resolve_left hg

theorem loadAggFns_of_no_selection (h : s.aggFnSelection = none) (rendered : Option JobData) :
    s.loadAggFns rendered = s := by
  unfold View.loadAggFns
  rw [h]
  cases rendered with
  | none => rfl
  | some data => rfl

/-- As long as nothing is selected, the first and the second effect only fetch. -/
theorem runEffects_of_nothing_selected {b : Bool} (hx : s.sampleInterval = none)
    (hsel : s.aggFnSelection = none) (h : s.runEffects { containsMetricData := b } = some t) :
    ∃ isLoading fetches, t = { s with isLoading, fetches } := by
  cases b with
  | false =>
    cases h
    exact ⟨s.isLoading, s.fetches, rfl⟩
  | true =>
    obtain ⟨s₁, hload, rfl⟩ := Option.map_eq_some_iff.1 h
    rcases loadInterval_cases hload with rfl | ⟨x, metricData, metadata, hx', -, -⟩
    · exact ⟨true, _, loadAggFns_of_no_selection (by exact hsel) _⟩
    · rw [hx] at hx'
      cases hx'

theorem cachesRight_init (fetches : List Fetch) : ({ fetches } : View).CachesRight a where
  job _ _ h := nomatch h
  node _ _ _ h := nomatch h
  metric _ _ _ _ h := nomatch h

/-- The first response, with the effects after it. -/
theorem first_response (ha : a.Consistent configs)
    (h : View.step a { fetches := [.job none] } (.deliver 0) = some s) :
    s.CachesRight a ∧ s.node = none ∧ s.sampleInterval = none ∧ s.aggFnSelection = none ∧
      s.jobData = some (a.jobData none) ∧ (s.containsMetricData = true ↔ configs ≠ []) := by
  have hcaches := cachesRight_populateJobCache ha (cachesRight_init []) none
  obtain ⟨hnode, hx, hsel, -, hdata, hcontains⟩ :=
    @frame_populateJobCache { fetches := [] } (a.jobData none)
  obtain ⟨isLoading, fetches, rfl⟩ := runEffects_of_nothing_selected hx hsel h
  refine ⟨⟨hcaches.job, hcaches.node, hcaches.metric⟩, hnode, hx, hsel, hdata, ?_⟩
  rw [hcontains, decide_eq_true_iff]
  exact metricData_ne_nil_iff ha none

/-- The page takes over the interval, and the default functions when there are metrics. -/
theorem takeDefaults_eq {data : JobData} {x : Interval} (hdata : data.sampleInterval = x.val)
    (hnone : s.sampleInterval = none) :
    s.takeDefaults data =
      if data.metricData = [] then
        (View.loadInterval { s with sampleInterval := some x }).map View.loadNode
      else
        (View.loadInterval
          { s with
            sampleInterval := some x
            aggFnSelection := some (data.metricData.foldl
              (fun selection m => Table.upsert selection (m.config.guid, m.config.aggFn))
              Table.empty) }).map fun s₁ => (s₁.loadAggFns s.jobData).loadNode := by
  have hne : data.sampleInterval ≠ 0 := hdata ▸ x.property
  have hx : (⟨data.sampleInterval, hne⟩ : Interval) = x := Subtype.ext hdata
  unfold View.takeDefaults
  simp only [dif_pos hne, hx, hnone]
  by_cases hnil : data.metricData = []
  · simp only [hnil]
    rfl
  · simp only [if_neg hnil, if_pos hnil]
    simp [View.runEffects, hnil]

/-- **What the page makes of it** is a coherent view on its way. -/
theorem takeDefaults_right (ha : a.Consistent configs) (hcaches : s.CachesRight a)
    (hnode : s.node = none) (hnone : s.sampleInterval = none)
    (hdata : s.jobData = some (a.jobData none))
    (hcontains : s.containsMetricData = true ↔ configs ≠ [])
    (h : s.takeDefaults (a.jobData none) = some t) :
    t.Coherent a configs ∧ t.OnTrack a configs := by
  obtain ⟨x, hx, -⟩ := ha.chosen
  have hguids := guids_of_configs (ha.job none)
  rw [takeDefaults_eq hx hnone] at h
  split at h
  · -- without metrics no function is selected
    rename_i hnil
    have hempty : configs = [] := by
      by_contra hne
      exact (metricData_ne_nil_iff ha none).2 hne hnil
    have hv : ({ s with sampleInterval := some x } : View).Coherent a configs :=
      ⟨⟨hcaches.job, hcaches.node, hcaches.metric⟩, Option.some_ne_none x,
        ⟨_, hdata, hguids⟩, hcontains, fun hne => absurd hempty hne⟩
    refine ⟨coherent_loaded (b := true) ha hv h, ?_⟩
    refine onTrack_loaded (b := true) ha hv (fun hb => nomatch hb) (fun _ => ?_) h
    refine Or.inr (Or.inr fun c hc => ?_)
    rw [hempty] at hc
    cases hc
  · obtain ⟨s₁, hload, rfl⟩ := Option.map_eq_some_iff.1 h
    have hv : (View.Coherent a configs
        { s with
          sampleInterval := some x
          aggFnSelection := some ((a.jobData none).metricData.foldl
            (fun selection m => Table.upsert selection (m.config.guid, m.config.aggFn))
            Table.empty) }) := by
      refine ⟨⟨hcaches.job, hcaches.node, hcaches.metric⟩, Option.some_ne_none x,
        ⟨_, hdata, hguids⟩, hcontains, fun _ => ⟨_, rfl, fun c hc => ?_⟩⟩
      refine lookup_defaults (Or.inr ?_)
      exact hguids.mem_iff.2 (List.mem_map_of_mem hc)
    have h₁ := coherent_loadInterval ha hv hload
    obtain ⟨hnode₁, -⟩ := frame_loadInterval hload
    obtain ⟨hnode₂, -⟩ := @frame_loadAggFns s₁ s.jobData
    rw [loadNode_of_none (hnode₂.trans (hnode₁.trans hnode)), hdata]
    exact ⟨coherent_loadAggFns ha h₁ hguids,
      onTrack_loadAggFns h₁ (hnode₁.trans hnode) hguids⟩

theorem opened_right (ha : a.Consistent configs) (h : View.opened a = some s) :
    s.Coherent a configs ∧ s.OnTrack a configs := by
  obtain ⟨s₁, hfirst, h⟩ := Option.bind_eq_some_iff.1 h
  cases hfirst
  obtain ⟨s₂, hresponse, h⟩ := Option.bind_eq_some_iff.1 h
  obtain ⟨hcaches, hnode, hx, -, hdata, hcontains⟩ := first_response ha hresponse
  exact takeDefaults_right ha hcaches hnode hx hdata hcontains h

/-- **The view shows what is selected**, in every state of a run of such steps in which
no response is outstanding. -/
theorem shown_of_guarded (ha : a.Consistent configs) (h0 : View.opened a = some s₀)
    {events : List Event}
    (hrun : Run (Guarded (View.KeepsTrack a configs) (StepOf (View.step a))) s₀ events t)
    (hquiet : t.fetches = []) : t.Shown a configs := by
  have hinv : t.Coherent a configs ∧ t.OnTrack a configs := by
    refine Run.invariant (I := fun s => s.Coherent a configs ∧ s.OnTrack a configs) hrun
      (opened_right ha h0) ?_
    rintro s e s' ⟨h, ht⟩ ⟨hkeeps, hstep⟩
    exact ⟨coherent_step ha h hstep, onTrack_step ha h ht hkeeps hstep⟩
  refine hinv.2.resolve_right ?_
  rw [hquiet]
  exact not_awaited_nil

end Opening

/-! ### One metric -/

/-- A job with one metric. -/
def smallConfig : MetricConfig := { guid := "g", aggFn := "mean" }

def halfMinute : Interval := ⟨30, by decide⟩

def minute : Interval := ⟨60, by decide⟩

def smallNode : NodeName := ⟨"n1", by decide⟩

/-- Its data, every 30 seconds unless asked for another interval. -/
def smallAnswers : Answers where
  jobData x :=
    { metricData := [{ config := smallConfig }]
      sampleInterval := (x.getD halfMinute).val }
  nodeData x n :=
    { metricData := [{ config := smallConfig, rawData := n.val }]
      sampleInterval := x.val }
  metricData _ g f := { config := { guid := g, aggFn := f } }

theorem smallAnswers_consistent : smallAnswers.Consistent [smallConfig] where
  interval _ := rfl
  chosen := ⟨halfMinute, rfl, .refl _⟩
  job _ := .refl _
  node _ _ := .refl _
  metric _ _ _ := rfl

/-- The view of it, once it is open. -/
def smallView : View where
  sampleInterval := some halfMinute
  aggFnSelection := some (Table.empty.upsert ("g", "mean"))
  jobData := some (smallAnswers.jobData none)
  isLoading := false
  jobCache :=
    { metadata := some (smallAnswers.jobData none)
      data := Table.empty.upsert (30, [{ config := smallConfig }]) }
  aggFnCache := AggCache.addDefault 30 Table.empty { config := smallConfig }
  containsMetricData := true
  fetches := [.job none]

theorem opened_smallAnswers : View.opened smallAnswers = some smallView := by decide +kernel

/-- The data have been requested twice; the second response is there, too. -/
def smallViewQuiet : View := { smallView with fetches := [] }

/-- Then the node is selected. -/
def nodeSelected : View :=
  { smallViewQuiet with
    node := some smallNode
    isLoading := true
    fetches := [.node halfMinute smallNode] }

/-- Its data have arrived. -/
def nodeShown : View :=
  { nodeSelected with
    isLoading := false
    jobData := some (smallAnswers.nodeData halfMinute smallNode)
    nodeCache := NodeCache.set Table.empty 30 "n1" (smallAnswers.nodeData halfMinute smallNode)
    fetches := [] }

/-- A node is selected, and its data are shown. -/
theorem shown_of_guarded_node :
    Run (Guarded (View.KeepsTrack smallAnswers [smallConfig]) (StepOf (View.step smallAnswers)))
        smallView [.deliver 0, .selectNode (some smallNode), .deliver 0] nodeShown ∧
      nodeShown.Shown smallAnswers [smallConfig] := by
  have hdefault : smallView.DefaultsSelected [smallConfig] := by
    intro c hc
    rw [List.mem_singleton.1 hc]
    decide +kernel
  have hquiet : Guarded (View.KeepsTrack smallAnswers [smallConfig])
      (StepOf (View.step smallAnswers)) smallView (.deliver 0) smallViewQuiet :=
    ⟨Or.inr ⟨rfl, Or.inr ⟨hdefault, halfMinute, rfl, rfl⟩⟩, by unfold StepOf; decide +kernel⟩
  have hselected : Guarded (View.KeepsTrack smallAnswers [smallConfig])
      (StepOf (View.step smallAnswers)) smallViewQuiet (.selectNode (some smallNode))
      nodeSelected :=
    ⟨trivial, by unfold StepOf; decide +kernel⟩
  have hshown : Guarded (View.KeepsTrack smallAnswers [smallConfig])
      (StepOf (View.step smallAnswers)) nodeSelected (.deliver 0) nodeShown :=
    ⟨Or.inl (Option.some_ne_none _), by unfold StepOf; decide +kernel⟩
  have hrun := ((Run.nil.snoc hquiet).snoc hselected).snoc hshown
  exact ⟨hrun, shown_of_guarded smallAnswers_consistent opened_smallAnswers hrun rfl⟩

/-- The maximum is selected, and then an interval that is not in the cache. -/
def minuteSelected : View :=
  { smallViewQuiet with
    sampleInterval := some minute
    aggFnSelection := some (Table.empty.upsert ("g", "max"))
    jobData := some (smallAnswers.jobData (some minute))
    jobCache :=
      { metadata := some (smallAnswers.jobData none)
        data := (Table.empty.upsert (30, [{ config := smallConfig }])).upsert
          (60, [{ config := smallConfig }]) }
    aggFnCache := AggCache.addDefault 60
      (Table.empty.upsert (30, Table.empty.upsert ("g",
        (Table.empty.upsert ("mean", { config := smallConfig })).upsert
          ("max", smallAnswers.metricData halfMinute "g" "max"))))
      { config := smallConfig } }

/-- All responses are in, and the mean is shown where the maximum is selected. -/
theorem default_function_shown :
    smallAnswers.Consistent [smallConfig] ∧ View.opened smallAnswers = some smallView ∧
      Run (StepOf (View.step smallAnswers)) smallView
        [.deliver 0, .selectAggFn "g" "max", .deliver 0, .selectInterval minute, .deliver 0]
        minuteSelected ∧
      minuteSelected.fetches = [] ∧ ¬ minuteSelected.Shown smallAnswers [smallConfig] := by
  refine ⟨smallAnswers_consistent, opened_smallAnswers, run_exec_iff.2 (by decide +kernel), rfl, ?_⟩
  rintro ⟨x, data, hx, hdata, ms, hms, hperm⟩
  cases hx
  cases hdata
  rw [List.perm_singleton.1 hperm, List.forall₂_cons] at hms
  have hfn : minuteSelected.fnFor smallConfig = "max" := by decide +kernel
  rw [hfn] at hms
  rcases hms.1 with hmax | ⟨-, -, hmax⟩
  · exact absurd hmax (by decide)
  · exact absurd hmax (by decide)

end JobView

end JobMon
