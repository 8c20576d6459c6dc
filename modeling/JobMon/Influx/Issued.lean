import JobMon.Influx.JobData

/-!
# Which queries a call sends

A call depends on the server through the queries it sends and through nothing
else, and all of them have the time range of the record they are about.

* `sent`, `lastSent` — the queries of `getJobData` and of `queryLastDatapoints`.
* `mem_sent_cases`, `mem_lastSent_cases` — what each of them can be.
* `about_of_mem_sent`, `about_of_mem_lastSent` — what these queries have in common.
* `getJobDataOf_congr`, `getMetricDataWithAggFn_congr`, `queryLastDatapoints_congr` —
  two servers that answer these queries alike yield the same result.
* `getJobData_panics`, `getJobData_of_quiet` and the like — every one of these
  queries is sent: the call ends the process when one of them does.
-/

namespace JobMon

/-- The time range queries about a record have, if they are built at all. -/
def queryRange (j : JobMetadata) : Option (ℤ × ℤ) :=
  if 0 ≤ j.startTime ∧ j.startTime < j.stopTime then some (j.startTime, j.stopTime) else none

theorem queryRange_eq_some_iff {j : JobMetadata} {r : ℤ × ℤ} :
    queryRange j = some r ↔
      (0 ≤ j.startTime ∧ j.startTime < j.stopTime) ∧ r = (j.startTime, j.stopTime) := by
  unfold queryRange
  by_cases h : 0 ≤ j.startTime ∧ j.startTime < j.stopTime
  · rw [if_pos h, Option.some.injEq]
    exact ⟨fun hr => ⟨h, hr.symm⟩, fun hr => hr.2.symm⟩
  · rw [if_neg h]
    constructor
    · intro hr
      cases hr
    · intro hr
      exact absurd hr.1 h

/-- The time range of a query. -/
def FluxQuery.range (q : FluxQuery) : ℤ × ℤ := (q.startTime, q.stopTime)

/-- Two servers answer these queries alike. -/
def FluxAPI.AgreeOn (api api' : FluxAPI) (queries : List (Option FluxQuery)) : Prop :=
  ∀ q ∈ queries, api.query (queryText q) = api'.query (queryText q) ∧
    api.queryRaw (queryText q) = api'.queryRaw (queryText q)

/-- The server ends the process on one of these queries, whichever way it is asked. -/
def FluxAPI.PanicsOn (api : FluxAPI) (queries : List (Option FluxQuery)) : Prop :=
  ∃ q ∈ queries, api.query (queryText q) = .error .panic ∧
    api.queryRaw (queryText q) = .error .panic

theorem FluxAPI.not_panicsOn_nil (api : FluxAPI) : ¬ api.PanicsOn [] := by
  rintro ⟨q, hq, -⟩
  cases hq

/-- The server finds nothing, whatever it is asked. -/
structure FluxAPI.Quiet (api : FluxAPI) : Prop where
  query : ∀ t, api.query t = .ok {}
  queryRaw : ∀ t, api.queryRaw t = .ok ""

/-- The same surroundings with another server. -/
def Environment.withAPI (env : Environment) (api : FluxAPI) : Environment := { env with api }

/-- The same surroundings at another time. -/
def Environment.atTime (env : Environment) (now : ℤ) : Environment := { env with now }

namespace InfluxDB

variable (db : InfluxDB)

/-- The queries `getJobData` sends: one for each metric and, for a job that is not
running, another one for its quantiles. -/
def sent (j : JobMetadata) (nodes : String) (d : Go.Duration) (raw forceAggregate : Bool) :
    List (Option FluxQuery) :=
  (db.jobMetrics j).map (fun m =>
      if raw then db.queryForRaw m j nodes d forceAggregate
      else (db.queryFor m j nodes d forceAggregate).1) ++
    if j.isRunning then []
    else (db.jobMetrics j).map fun m => db.quantileQuery m j db.metricQuantiles d

/-- The queries `queryLastDatapoints` sends. -/
def lastSent (j : JobMetadata) (d : Go.Duration) : List (Option FluxQuery) :=
  (db.jobMetrics j).map fun m => (db.lastQuery j d (lastMetric m)).1

variable {db : InfluxDB} {j : JobMetadata} {nodes aggFn : String} {d : Go.Duration}
  {raw forceAggregate : Bool} {m : MetricConfig} {q : FluxQuery} {nodeLists : List String}

/-! ## What a query that is sent can be -/

theorem queryFor_cases (h : (db.queryFor m j nodes d forceAggregate).1 = some q) :
    db.simpleQuery m j nodes d = some q ∨ db.aggregateQuery m j nodes m.aggFn d = some q := by
  unfold queryFor at h
  split at h
  · exact Or.inl h
  · split at h
    · exact Or.inr h
    · exact Or.inl h

theorem queryForRaw_cases (h : db.queryForRaw m j nodes d forceAggregate = some q) :
    db.simpleQuery m j nodes d = some q ∨ db.aggregateQuery m j nodes m.aggFn d = some q := by
  unfold queryForRaw at h
  split at h
  · exact Or.inr h
  · exact Or.inl h

theorem lastQuery_cases (h : (db.lastQuery j d m).1 = some q) :
    db.simpleQuery m j j.nodeList d = some q ∨
      db.aggregateQuery m j j.nodeList m.aggFn d = some q := by
  unfold lastQuery at h
  split at h
  · exact Or.inl h
  · exact Or.inr h

/-- **What `getJobData` sends**: for each metric of the job a simple or an aggregated query
for the nodes it was given, and a query for the quantiles. -/
theorem mem_sent_cases (h : some q ∈ db.sent j nodes d raw forceAggregate) :
    ∃ m ∈ db.jobMetrics j,
      (db.simpleQuery m j nodes d = some q ∨ db.aggregateQuery m j nodes m.aggFn d = some q) ∨
        db.quantileQuery m j db.metricQuantiles d = some q := by
  rcases List.mem_append.1 h with h | h
  · obtain ⟨m, hm, hq⟩ := List.mem_map.1 h
    refine ⟨m, hm, Or.inl ?_⟩
    cases raw with
    | true => exact queryForRaw_cases (by simpa using hq)
    | false => exact queryFor_cases (by simpa using hq)
  · split at h
    · cases h
    · obtain ⟨m, hm, hq⟩ := List.mem_map.1 h
      exact ⟨m, hm, Or.inr hq⟩

/-- What `queryLastDatapoints` sends. -/
theorem mem_lastSent_cases (h : some q ∈ db.lastSent j d) :
    ∃ m ∈ db.jobMetrics j, db.simpleQuery (lastMetric m) j j.nodeList d = some q ∨
      db.aggregateQuery (lastMetric m) j j.nodeList (lastMetric m).aggFn d = some q := by
  obtain ⟨m, hm, hq⟩ := List.mem_map.1 h
  exact ⟨m, hm, lastQuery_cases hq⟩

/-! ## The time range of what is sent -/

/-- The query is about the record: it has its time range and asks for one of the
given node lists. -/
structure About (j : JobMetadata) (nodeLists : List String) (q : FluxQuery) : Prop where
  range : queryRange j = some q.range
  nodes : q.nodes ∈ nodeLists

theorem about_of_buildQuery {q₀ : FluxQuery} (h : buildQuery q₀ = some q)
    (hstart : q₀.startTime = j.startTime) (hstop : q₀.stopTime = j.stopTime)
    (hnodes : q₀.nodes ∈ nodeLists) : About j nodeLists q := by
  obtain ⟨-, -, h0, hlt, rfl⟩ := buildQuery_eq_some_iff.1 h
  rw [hstart] at h0
  rw [hstart, hstop] at hlt
  refine ⟨queryRange_eq_some_iff.2 ⟨⟨h0, hlt⟩, ?_⟩, hnodes⟩
  rw [FluxQuery.range, hstart, hstop]

theorem about_simpleQuery (hnodes : nodes ∈ nodeLists)
    (h : db.simpleQuery m j nodes d = some q) : About j nodeLists q :=
  about_of_buildQuery h rfl rfl hnodes

theorem about_aggregateQuery (hnodes : nodes ∈ nodeLists)
    (h : db.aggregateQuery m j nodes aggFn d = some q) : About j nodeLists q :=
  about_of_buildQuery h rfl rfl hnodes

theorem about_quantileQuery (hnodes : j.nodeList ∈ nodeLists) {quantiles : List String}
    (h : db.quantileQuery m j quantiles d = some q) : About j nodeLists q := by
  unfold quantileQuery at h
  split at h
  · exact about_of_buildQuery h rfl rfl hnodes
  · exact about_of_buildQuery h rfl rfl hnodes

/-- **Every query `getJobData` sends has the time range of the record**, and asks
for the nodes it was given or for those of the job. -/
theorem about_of_mem_sent (h : some q ∈ db.sent j nodes d raw forceAggregate) :
    About j [nodes, j.nodeList] q := by
  have hnodes : nodes ∈ [nodes, j.nodeList] := List.mem_cons_self
  obtain ⟨m, -, (hq | hq) | hq⟩ := mem_sent_cases h
  · exact about_simpleQuery hnodes hq
  · exact about_aggregateQuery hnodes hq
  · exact about_quantileQuery (by simp) hq

theorem about_of_mem_lastSent (h : some q ∈ db.lastSent j d) : About j [j.nodeList] q := by
  obtain ⟨m, -, hq | hq⟩ := mem_lastSent_cases h
  · exact about_simpleQuery (by simp) hq
  · exact about_aggregateQuery (by simp) hq

/-! ## Nothing but the queries matters -/

section Congruence

variable {env : Environment} {api' : FluxAPI}

theorem collect_congr {α β : Type} {schedule : Schedule α} {f g : α → Result β} {items : List α}
    (h : ∀ x ∈ items, f x = g x) : collect schedule f items = collect schedule g items := by
  have hany : (items.any fun x => (f x).panics) = items.any fun x => (g x).panics := by
    rw [Bool.eq_iff_iff, List.any_eq_true, List.any_eq_true]
    constructor
    · rintro ⟨x, hx, hp⟩
      exact ⟨x, hx, h x hx ▸ hp⟩
    · rintro ⟨x, hx, hp⟩
      exact ⟨x, hx, (h x hx).symm ▸ hp⟩
  have hkept : ((schedule.order items).filterMap fun x => (f x).toOption) =
      (schedule.order items).filterMap fun x => (g x).toOption := by
    refine List.filterMap_congr fun x hx => ?_
    rw [h x ((schedule.perm items).subset hx)]
  rw [collect, collect, hany, hkept]

theorem query_congr
    (h : env.api.query (queryText (db.queryFor m j nodes d forceAggregate).1) =
      api'.query (queryText (db.queryFor m j nodes d forceAggregate).1)) :
    query env db m j nodes d forceAggregate =
      query (env.withAPI api') db m j nodes d forceAggregate := by
  simp only [query, Environment.withAPI, h]

theorem metricTask_congr
    (h : env.api.AgreeOn api' [if raw then db.queryForRaw m j nodes d forceAggregate
      else (db.queryFor m j nodes d forceAggregate).1]) :
    metricTask env db j nodes d raw forceAggregate m =
      metricTask (env.withAPI api') db j nodes d raw forceAggregate m := by
  obtain ⟨hquery, hraw⟩ := h _ (List.mem_singleton_self _)
  cases raw with
  | true =>
    rw [if_pos rfl] at hraw
    simp only [metricTask, queryRaw, Environment.withAPI, if_true, hraw]
  | false =>
    rw [if_neg Bool.false_ne_true] at hquery
    rw [metricTask, metricTask, query_congr hquery]
    rfl

theorem quantileTask_congr
    (h : env.api.query (queryText (db.quantileQuery m j db.metricQuantiles d)) =
      api'.query (queryText (db.quantileQuery m j db.metricQuantiles d))) :
    quantileTask env db j d m = quantileTask (env.withAPI api') db j d m := by
  simp only [quantileTask, Environment.withAPI, h]

theorem getJobData_congr (h : env.api.AgreeOn api' (db.sent j nodes d raw forceAggregate)) :
    getJobData env db j nodes d raw forceAggregate =
      getJobData (env.withAPI api') db j nodes d raw forceAggregate := by
  have hmetrics : collect env.metricOrder (metricTask env db j nodes d raw forceAggregate)
      (db.jobMetrics j) = collect env.metricOrder
      (metricTask (env.withAPI api') db j nodes d raw forceAggregate) (db.jobMetrics j) := by
    refine collect_congr fun m hm => metricTask_congr fun q hq => h q ?_
    rw [List.mem_singleton.1 hq]
    exact List.mem_append_left _ (List.mem_map.2 ⟨m, hm, rfl⟩)
  have hquantiles : collect env.quantileOrder (quantileTask env db j d)
      (if j.isRunning then [] else db.jobMetrics j) = collect env.quantileOrder
      (quantileTask (env.withAPI api') db j d) (if j.isRunning then [] else db.jobMetrics j) := by
    refine collect_congr fun m hm => quantileTask_congr (h _ ?_).1
    refine List.mem_append_right _ ?_
    cases hrun : j.isRunning with
    | true => simp [hrun] at hm
    | false =>
      simp only [hrun, Bool.false_eq_true, if_false] at hm ⊢
      exact List.mem_map.2 ⟨m, hm, rfl⟩
  rw [getJobData, getJobData, hmetrics, hquantiles]
  rfl

theorem getJobDataOf_congr
    (h : env.api.AgreeOn api' (db.sent j (if nodes = "" then j.nodeList else nodes) d raw false)) :
    getJobDataOf env db j nodes d raw = getJobDataOf (env.withAPI api') db j nodes d raw :=
  getJobData_congr h

theorem getMetricDataWithAggFn_congr
    (h : env.api.AgreeOn api' [db.aggregateQuery m j j.nodeList aggFn d]) :
    getMetricDataWithAggFn env db j m aggFn d =
      getMetricDataWithAggFn (env.withAPI api') db j m aggFn d := by
  have hquery := (h _ (List.mem_singleton_self _)).1
  simp only [getMetricDataWithAggFn, Environment.withAPI, hquery]

theorem lastTask_congr
    (h : env.api.query (queryText (db.lastQuery j d (lastMetric m)).1) =
      api'.query (queryText (db.lastQuery j d (lastMetric m)).1)) :
    lastTask env db j d m = lastTask (env.withAPI api') db j d m := by
  simp only [lastTask, Environment.withAPI, h]

/-- The sample interval of the last data points. -/
def lastInterval (db : InfluxDB) : Go.Duration :=
  (Go.parseDuration db.defaultSampleInterval).getD (30 * Go.second)

theorem queryLastDatapoints_congr
    (h : env.api.AgreeOn api' (db.lastSent (lastRecord env.now j) db.lastInterval)) :
    queryLastDatapoints env db j = queryLastDatapoints (env.withAPI api') db j := by
  have hsent : ∀ m ∈ db.jobMetrics (lastRecord env.now j),
      env.api.query (queryText (db.lastQuery (lastRecord env.now j) db.lastInterval
        (lastMetric m)).1) = api'.query (queryText (db.lastQuery (lastRecord env.now j)
        db.lastInterval (lastMetric m)).1) := fun m hm => (h _ (List.mem_map.2 ⟨m, hm, rfl⟩)).1
  have hmetrics : collect env.lastOrder (lastTask env db (lastRecord env.now j) db.lastInterval)
      (db.jobMetrics (lastRecord env.now j)) = collect env.lastOrder
      (lastTask (env.withAPI api') db (lastRecord env.now j) db.lastInterval)
      (db.jobMetrics (lastRecord env.now j)) :=
    collect_congr fun m hm => lastTask_congr (hsent m hm)
  simp only [lastInterval] at hsent hmetrics
  simp only [queryLastDatapoints, hmetrics]
  simp only [Environment.withAPI]
  congr 1
  funext metricData
  cases hlast : (env.lastOrder.order (db.jobMetrics (lastRecord env.now j))).getLast? with
  | none => rfl
  | some m =>
    have hm := (env.lastOrder.perm _).subset (List.mem_of_getLast? hlast)
    simp only [hsent m hm]

end Congruence

/-! ## Every query is sent -/

section Panics

variable {env : Environment}

theorem collect_panics {α β : Type} {schedule : Schedule α} {f : α → Result β} {items : List α}
    {x : α} (hx : x ∈ items) (h : f x = .error .panic) :
    collect schedule f items = .error .panic := by
  have hany : (items.any fun x => (f x).panics) = true := by
    refine List.any_eq_true.2 ⟨x, hx, ?_⟩
    rw [h]
    rfl
  rw [collect, if_pos hany]

theorem metricTask_panics
    (h : env.api.PanicsOn [if raw then db.queryForRaw m j nodes d forceAggregate
      else (db.queryFor m j nodes d forceAggregate).1]) :
    metricTask env db j nodes d raw forceAggregate m = .error .panic := by
  obtain ⟨q, hq, hquery, hraw⟩ := h
  rw [List.mem_singleton.1 hq] at hquery hraw
  cases raw with
  | true =>
    rw [if_pos rfl] at hraw
    simp only [metricTask, queryRaw, if_true, hraw]
    rfl
  | false =>
    rw [if_neg Bool.false_ne_true] at hquery
    simp only [metricTask, query, Bool.false_eq_true, if_false, hquery]
    rfl

theorem quantileTask_panics
    (h : env.api.query (queryText (db.quantileQuery m j db.metricQuantiles d)) =
      .error .panic) : quantileTask env db j d m = .error .panic := by
  simp only [quantileTask, h]
  rfl

/-- One query that ends the process is enough. -/
theorem getJobData_panics (h : env.api.PanicsOn (db.sent j nodes d raw forceAggregate)) :
    getJobData env db j nodes d raw forceAggregate = .error .panic := by
  obtain ⟨q, hq, hpanics⟩ := h
  rcases List.mem_append.1 hq with hq | hq
  · obtain ⟨m, hm, rfl⟩ := List.mem_map.1 hq
    have htask : metricTask env db j nodes d raw forceAggregate m = .error .panic :=
      metricTask_panics ⟨_, List.mem_singleton_self _, hpanics⟩
    simp only [getJobData, collect_panics hm htask]
    rfl
  · cases hrun : j.isRunning with
    | true => simp [hrun] at hq
    | false =>
      simp only [hrun, Bool.false_eq_true, if_false] at hq
      obtain ⟨m, hm, rfl⟩ := List.mem_map.1 hq
      have htask : quantileTask env db j d m = .error .panic := quantileTask_panics hpanics.1
      have hquantiles : collect env.quantileOrder (quantileTask env db j d)
          (if j.isRunning then [] else db.jobMetrics j) = .error .panic := by
        rw [hrun, if_neg Bool.false_ne_true]
        exact collect_panics hm htask
      simp only [getJobData, hquantiles]
      cases hmetrics : collect env.metricOrder
          (metricTask env db j nodes d raw forceAggregate) (db.jobMetrics j) with
      | ok metricData => rfl
      | error e =>
        rw [collect_error hmetrics]
        rfl

theorem getMetricDataWithAggFn_panics
    (h : env.api.PanicsOn [db.aggregateQuery m j j.nodeList aggFn d]) :
    getMetricDataWithAggFn env db j m aggFn d = .error .panic := by
  obtain ⟨q, hq, hquery, -⟩ := h
  rw [List.mem_singleton.1 hq] at hquery
  simp only [getMetricDataWithAggFn, hquery]
  rfl

theorem queryLastDatapoints_panics
    (h : env.api.PanicsOn (db.lastSent (lastRecord env.now j) db.lastInterval)) :
    queryLastDatapoints env db j = .error .panic := by
  obtain ⟨q, hq, hquery, -⟩ := h
  obtain ⟨m, hm, rfl⟩ := List.mem_map.1 hq
  have htask : lastTask env db (lastRecord env.now j) db.lastInterval m = .error .panic := by
    simp only [lastTask, hquery]
    rfl
  have hcollect := @collect_panics _ _ env.lastOrder _ _ _ hm htask
  rw [lastInterval] at hcollect
  simp only [queryLastDatapoints, hcollect]
  rfl

/-! ## A server that has nothing -/

theorem collect_of_ok {α β : Type} {schedule : Schedule α} {f : α → Result β} {items : List α}
    (h : ∀ x ∈ items, ∃ y, f x = .ok y) : ∃ ys, collect schedule f items = .ok ys := by
  refine ⟨_, collect_eq_ok_iff.2 ⟨fun x hx => ?_, rfl⟩⟩
  obtain ⟨y, hy⟩ := h x hx
  rw [hy]
  rfl

theorem getJobData_of_quiet (h : env.api.Quiet) :
    ∃ data, getJobData env db j nodes d raw forceAggregate = .ok data := by
  have htask : ∀ m, ∃ data, metricTask env db j nodes d raw forceAggregate m = .ok data := by
    intro m
    cases raw with
    | true =>
      simp only [metricTask, queryRaw, if_true, h.queryRaw]
      exact ⟨_, rfl⟩
    | false =>
      simp only [metricTask, query, Bool.false_eq_true, if_false, h.query]
      exact ⟨_, rfl⟩
  have hquantile : ∀ m, ∃ data, quantileTask env db j d m = .ok data := by
    intro m
    simp only [quantileTask, h.query]
    exact ⟨_, rfl⟩
  obtain ⟨metricData, hmetrics⟩ :=
    @collect_of_ok _ _ env.metricOrder _ (db.jobMetrics j) fun m _ => htask m
  obtain ⟨quantileData, hquantiles⟩ := @collect_of_ok _ _ env.quantileOrder _
    (if j.isRunning then [] else db.jobMetrics j) fun m _ => hquantile m
  simp only [getJobData, hmetrics, hquantiles]
  exact ⟨_, rfl⟩

theorem getMetricDataWithAggFn_of_quiet (h : env.api.Quiet) :
    ∃ data, getMetricDataWithAggFn env db j m aggFn d = .ok data := by
  simp only [getMetricDataWithAggFn, h.query]
  exact ⟨_, rfl⟩

theorem queryLastDatapoints_of_quiet (h : env.api.Quiet) :
    queryLastDatapoints env db j ≠ .error .panic := by
  have htask : ∀ m, ∃ data, lastTask env db (lastRecord env.now j)
      ((Go.parseDuration db.defaultSampleInterval).getD (30 * Go.second)) m = .ok data := by
    intro m
    simp only [lastTask, h.query]
    exact ⟨_, rfl⟩
  obtain ⟨metricData, hmetrics⟩ := @collect_of_ok _ _ env.lastOrder _
    (db.jobMetrics (lastRecord env.now j)) fun m _ => htask m
  simp only [queryLastDatapoints, hmetrics, h.query]
  intro hpanic
  cases hlast : (env.lastOrder.order (db.jobMetrics (lastRecord env.now j))).getLast? with
  | some m =>
    simp only [hlast] at hpanic
    cases hpanic
  | none =>
    simp only [hlast] at hpanic
    change (if _ then _ else _) = _ at hpanic
    split at hpanic
    · cases hpanic
    · cases hpanic

end Panics

end InfluxDB

end JobMon
