import JobMon.Influx.JobData
import JobMon.Lib.LastWriter

/-!
# The change points of a job

`ChangePointDetection` has one slot for each measurement.  The goroutines of the
metrics write to it, in any order, and each goes through a map of series, in any
order: it overwrites what an earlier series left, and gives up at the first
series with a nil value.

* `Readable`, `Complete`, `changePointTimes` — one series on its own.
* `changePointDetection_eq` — the result as the end of a race (`LastWriter`).
* `WellDefined` — no order and no missing value makes a difference, to the map
  or to what a refresh of the job stores.
* `wellDefined_iff` — this holds when the series of a measurement have the same
  change points and one of its metrics has a value everywhere.
-/

namespace JobMon

open Keyed LastWriter

namespace InfluxDB

/-! ## One series -/

/-- Every row of a series has a value. -/
def Complete (series : List QueryResult) : Prop := ∀ row ∈ series, column row "_value" ≠ .nil

instance (series : List QueryResult) : Decidable (Complete series) :=
  decidable_of_iff (series.all (fun row => decide (column row "_value" ≠ .nil)) = true)
    (by simp [Complete])

/-- The values of a series, as far as they are numbers. -/
def numbers (series : List QueryResult) : List Float64 :=
  series.filterMap fun row =>
    match column row "_value" with
    | .float v => some v
    | _ => none

variable (nonParametric : List Float64 → List ℕ)

/-- The change points of a series on its own. -/
def changePointTimes (series : List QueryResult) : List Time :=
  (nonParametric (numbers series)).filterMap fun i => (pointTime series i).toOption

/-- The type assertions of the loop over a series hold: its values, up to the
first nil, are numbers, and its change points have a time. -/
structure Readable (series : List QueryResult) : Prop where
  values : ∀ row ∈ series.takeWhile (fun row => column row "_value" ≠ .nil),
    ∃ v, column row "_value" = .float v
  times : Complete series → ∀ i ∈ nonParametric (numbers series),
    (pointTime series i).isOk = true

/-- What a series contributes: its change points, or nothing when a value is
missing. -/
def contribution (p : String × List QueryResult) : Option (List Time) :=
  if Complete p.2 then some (changePointTimes nonParametric p.2) else none

variable {nonParametric}

section Series

variable {series : List QueryResult}

theorem complete_cons {row : QueryResult} :
    Complete (row :: series) ↔ column row "_value" ≠ .nil ∧ Complete series := by
  simp [Complete]

theorem seriesValues_eq_ok
    (h : ∀ row ∈ series.takeWhile (fun row => column row "_value" ≠ .nil),
      ∃ v, column row "_value" = .float v) :
    seriesValues series = .ok (if Complete series then some (numbers series) else none) := by
  induction series with
  | nil => rfl
  | cons row rows ih =>
    by_cases hnil : column row "_value" = .nil
    · simp [seriesValues, hnil, complete_cons]
    · have htake : (row :: rows).takeWhile (fun row => column row "_value" ≠ .nil)
          = row :: rows.takeWhile (fun row => column row "_value" ≠ .nil) := by
        simp [hnil]
      rw [htake] at h
      obtain ⟨v, hv⟩ := h row List.mem_cons_self
      have hrest := ih fun r hr => h r (List.mem_cons_of_mem _ hr)
      by_cases hc : Complete rows
      · simp [seriesValues, numbers, complete_cons, hv, hrest, hc, bind, Except.bind, pure,
          Except.pure]
      · simp [seriesValues, complete_cons, hv, hrest, hc, bind, Except.bind, pure, Except.pure]

theorem float_of_seriesValues {r : Option (List Float64)} (h : seriesValues series = .ok r) :
    ∀ row ∈ series.takeWhile (fun row => column row "_value" ≠ .nil),
      ∃ v, column row "_value" = .float v := by
  induction series generalizing r with
  | nil => simp
  | cons row rows ih =>
    unfold seriesValues at h
    cases hv : column row "_value" with
    | nil => simp [hv]
    | float v =>
      rw [hv] at h
      obtain ⟨vs, hvs, -⟩ := bind_eq_ok_iff.1 h
      simpa [hv] using ih hvs
    | int _ => simp [hv] at h
    | string _ => simp [hv] at h
    | time _ => simp [hv] at h
    | bool _ => simp [hv] at h

theorem mapM_pointTime {is : List ℕ} (h : ∀ i ∈ is, (pointTime series i).isOk = true) :
    is.mapM (pointTime series) = .ok (is.filterMap fun i => (pointTime series i).toOption) := by
  induction is with
  | nil => rfl
  | cons i is ih =>
    have hi := h i List.mem_cons_self
    have hrest := ih fun j hj => h j (List.mem_cons_of_mem _ hj)
    cases ht : pointTime series i with
    | error e => simp [ht, Except.isOk, Except.toBool] at hi
    | ok t => simp [List.mapM_cons, ht, hrest, Except.toOption, bind, Except.bind, pure,
        Except.pure]

theorem isOk_of_mapM_pointTime {is : List ℕ} {ts : List Time}
    (h : is.mapM (pointTime series) = .ok ts) : ∀ i ∈ is, (pointTime series i).isOk = true := by
  induction is generalizing ts with
  | nil => simp
  | cons i is ih =>
    rw [List.mapM_cons] at h
    obtain ⟨t, ht, h⟩ := bind_eq_ok_iff.1 h
    obtain ⟨ts', hts, -⟩ := bind_eq_ok_iff.1 h
    intro j hj
    rcases List.mem_cons.1 hj with rfl | hj
    · rw [ht]
      rfl
    · exact ih hts j hj

end Series

/-! ## One metric -/

section Metric

variable {env : Environment} {measurement : String} {p : String × List QueryResult}
  {rows : List (String × List QueryResult)} {cps c : Map String (List Time)}

theorem metricChangePoints_cons (h : Readable env.nonParametric p.2) :
    metricChangePoints env measurement (p :: rows) cps =
      match contribution env.nonParametric p with
      | none => .ok cps
      | some times =>
        metricChangePoints env measurement rows (cps.upsert (measurement, times)) := by
  rw [metricChangePoints, seriesValues_eq_ok h.values, contribution]
  by_cases hc : Complete p.2
  · simp only [hc, if_true]
    have htimes := mapM_pointTime (h.times hc)
    simp only [bind, Except.bind, htimes]
    rfl
  · simp [hc, bind, Except.bind, pure, Except.pure]

/-- A goroutine whose first series cannot be read panics. -/
theorem readable_of_metricChangePoints
    (h : metricChangePoints env measurement (p :: rows) cps = .ok c) :
    Readable env.nonParametric p.2 := by
  rw [metricChangePoints] at h
  obtain ⟨r, hr, h⟩ := bind_eq_ok_iff.1 h
  have hvalues := float_of_seriesValues hr
  refine ⟨hvalues, fun hc => ?_⟩
  rw [seriesValues_eq_ok hvalues, if_pos hc] at hr
  cases hr
  obtain ⟨times, htimes, -⟩ := bind_eq_ok_iff.1 h
  exact isOk_of_mapM_pointTime htimes

/-- What a goroutine leaves in the map. -/
theorem metricChangePoints_eq (h : ∀ p ∈ rows, Readable env.nonParametric p.2) :
    ∃ c, metricChangePoints env measurement rows cps = .ok c ∧ ∀ k, c.lookup k =
      if measurement = k then leave (contribution env.nonParametric) rows (cps.lookup k)
      else cps.lookup k := by
  induction rows generalizing cps with
  | nil => exact ⟨cps, rfl, fun k => by simp [leave]⟩
  | cons p rows ih =>
    rw [metricChangePoints_cons (h p List.mem_cons_self)]
    cases hp : contribution env.nonParametric p with
    | none => exact ⟨cps, rfl, fun k => by simp [leave, hp]⟩
    | some times =>
      obtain ⟨c, hc, hlookup⟩ := @ih (cps.upsert (measurement, times))
        fun q hq => h q (List.mem_cons_of_mem _ hq)
      refine ⟨c, hc, fun k => ?_⟩
      rw [hlookup, Map.lookup_upsert]
      by_cases hk : measurement = k
      · simp [leave, hp, hk]
      · simp [hk, Ne.symm hk]

end Metric

/-! ## All metrics -/

/-- The data of the same metric; a loop may go through its series in another
order. -/
structure SameSeries (m m' : MetricData) : Prop where
  config : m'.config = m.config
  rawData : m'.rawData = m.rawData
  series : m'.data.rows.Perm m.data.rows

/-- The data of the same metrics, each in any order. -/
def SameMetrics (ms ms' : List MetricData) : Prop :=
  ∃ l, l.Perm ms ∧ List.Forall₂ SameSeries l ms'

/-- The goroutines of `ChangePointDetection`, which share a slot for each
measurement. -/
def goroutines : Writers MetricData String (String × List QueryResult) where
  slot m := m.config.measurement
  items m := m.data.rows
  Same := SameSeries
  same_refl m := ⟨rfl, rfl, List.Perm.refl _⟩
  slot_of_same h := by rw [h.config]
  items_of_same h := h.series
  exists_same m rows h :=
    ⟨{ m with data := ⟨rows, (h.map Prod.fst).nodup_iff.2 m.data.nodup⟩ }, ⟨rfl, rfl, h⟩, rfl⟩

/-- Every series of some data is readable. -/
def AllReadable (nonParametric : List Float64 → List ℕ) (ms : List MetricData) : Prop :=
  ∀ m ∈ ms, ∀ p ∈ m.data.rows, Readable nonParametric p.2

section Metrics

variable {env : Environment} {ms ms' : List MetricData} {cps c : Map String (List Time)}

theorem foldlM_metricChangePoints_eq
    (h : AllReadable env.nonParametric ms) :
    ∃ c, ms.foldlM (fun cps m => metricChangePoints env m.config.measurement m.data.rows cps) cps
        = .ok c ∧
      ∀ k, c.lookup k =
        ms.foldl (goroutines.write (contribution env.nonParametric)) cps.lookup k := by
  induction ms generalizing cps with
  | nil => exact ⟨cps, rfl, fun k => rfl⟩
  | cons m ms ih =>
    obtain ⟨c, hc, hlookup⟩ := @metricChangePoints_eq env m.config.measurement _ cps
      (h m List.mem_cons_self)
    obtain ⟨c', hc', hlookup'⟩ := @ih c fun m' hm' => h m' (List.mem_cons_of_mem _ hm')
    have hwrite : c.lookup = goroutines.write (contribution env.nonParametric) cps.lookup m := by
      funext k
      rw [hlookup, Writers.write_apply]
      rfl
    refine ⟨c', ?_, fun k => ?_⟩
    · rw [List.foldlM_cons, hc]
      exact hc'
    · rw [hlookup', hwrite, List.foldl_cons]

/-- **The result is what the last writers left.** -/
theorem changePointDetection_eq {data : JobData}
    (h : AllReadable env.nonParametric data.metricData) :
    ∃ c, changePointDetection env data = .ok c ∧ ∀ k, c.lookup k =
      goroutines.final (contribution env.nonParametric)
        (env.changePointOrder.order data.metricData) k := by
  obtain ⟨c, hc, hlookup⟩ := @foldlM_metricChangePoints_eq env
    (env.changePointOrder.order data.metricData) Table.empty fun m hm =>
      h m ((env.changePointOrder.perm _).mem_iff.1 hm)
  exact ⟨c, hc, hlookup⟩

/-- A metric whose first series cannot be read, taken first, ends the process. -/
theorem readable_of_changePointDetection {data : JobData} {m : MetricData}
    {p : String × List QueryResult} {rows : List (String × List QueryResult)}
    (hms : env.changePointOrder.order data.metricData = m :: ms) (hrows : m.data.rows = p :: rows)
    (h : changePointDetection env data = .ok c) : Readable env.nonParametric p.2 := by
  rw [changePointDetection, hms, List.foldlM_cons, hrows] at h
  obtain ⟨c', hc', -⟩ := bind_eq_ok_iff.1 h
  exact readable_of_metricChangePoints hc'

end Metrics

/-! ## A refresh of a job -/

/-- Another run of the same calls: the answers of the server and the library are
the same, the clock and the order of the goroutines are not. -/
structure SameAnswers (env env' : Environment) : Prop where
  api : env'.api = env.api
  nonParametric : env'.nonParametric = env.nonParametric

/-- The same error, or the same entries in some order. -/
inductive UpToOrder {α : Type} : Result (List α) → Result (List α) → Prop
  | ok {l l' : List α} : l.Perm l' → UpToOrder (.ok l) (.ok l')
  | error (e : Fault) : UpToOrder (.error e) (.error e)

variable (env : Environment) (db : InfluxDB)

/-- The aggregated data `GetJobMetadataMetrics` asks for. -/
def aggregatedData (j : JobMetadata) : Result JobData :=
  match Go.parseDuration db.defaultSampleInterval with
  | none => .error (invalidDuration db.defaultSampleInterval)
  | some s => getJobData env db j j.nodeList (j.calculateSampleIntervals env.now s).2 false true

/-- `GetJobMetadataMetrics`, where the loops over the aggregated data take it in
the order `visit`. -/
def refreshMetrics (visit : List MetricData → List MetricData) (j : JobMetadata) :
    Result (List JobMetadataData) :=
  if j.isRunning then .error (.error "job is still running")
  else if j.stopTime ≤ j.startTime then
    .error (.error "job stop time is less or equal to start")
  else do
    let data ← getMetadataData env db j
    let aggData ← aggregatedData env db j
    let cps ← changePointDetection env { aggData with metricData := visit aggData.metricData }
    pure (data.map fun d =>
      { d with changePoints := (cps.lookup d.config.measurement).getD [] })

theorem refreshMetrics_id (j : JobMetadata) :
    refreshMetrics env db id j = getJobMetadataMetrics env db j := by
  unfold refreshMetrics getJobMetadataMetrics aggregatedData
  cases Go.parseDuration db.defaultSampleInterval with
  | none => rfl
  | some s => rfl

variable {env db}

section Refresh

variable {env' : Environment} {j : JobMetadata} {data : JobData}

theorem upToOrder_collect {α β : Type} (schedule schedule' : Schedule α) (f : α → Result β)
    (items : List α) : UpToOrder (collect schedule f items) (collect schedule' f items) := by
  unfold collect
  by_cases hp : (items.any fun x => (f x).panics) = true
  · rw [if_pos hp, if_pos hp]
    exact .error _
  · rw [if_neg hp, if_neg hp]
    exact .ok (((schedule.perm items).trans (schedule'.perm items).symm).filterMap _)

theorem SameAnswers.getMetadataData (h : SameAnswers env env') :
    UpToOrder (getMetadataData env db j) (getMetadataData env' db j) := by
  have htask : metadataTask env' db j = metadataTask env db j := by
    funext m
    simp only [metadataTask, h.api]
  rw [InfluxDB.getMetadataData, InfluxDB.getMetadataData, htask]
  exact upToOrder_collect _ _ _ _

theorem SameAnswers.getJobData (h : SameAnswers env env') {nodes : String} {d : Go.Duration}
    {raw forceAggregate : Bool} (hd : getJobData env db j nodes d raw forceAggregate = .ok data) :
    ∃ data', getJobData env' db j nodes d raw forceAggregate = .ok data' ∧
      data'.metricData.Perm data.metricData := by
  have hmetric : metricTask env' db j nodes d raw forceAggregate =
      metricTask env db j nodes d raw forceAggregate := by
    funext m
    simp only [metricTask, InfluxDB.query, queryRaw, h.api]
  have hquantile : quantileTask env' db j d = quantileTask env db j d := by
    funext m
    simp only [quantileTask, h.api]
  simp only [InfluxDB.getJobData, hmetric, hquantile] at hd ⊢
  obtain ⟨metricData, hms, hd⟩ := bind_eq_ok_iff.1 hd
  obtain ⟨quantileData, hqs, hd⟩ := bind_eq_ok_iff.1 hd
  cases hd
  have hmetrics := upToOrder_collect env.metricOrder env'.metricOrder
    (metricTask env db j nodes d raw forceAggregate) (db.jobMetrics j)
  have hquantiles := upToOrder_collect env.quantileOrder env'.quantileOrder
    (quantileTask env db j d) (if j.isRunning then [] else db.jobMetrics j)
  rw [hms] at hmetrics
  rw [hqs] at hquantiles
  generalize collect env'.metricOrder _ _ = r at hmetrics ⊢
  generalize collect env'.quantileOrder _ _ = r' at hquantiles ⊢
  cases hmetrics with
  | @ok _ ms hperm =>
    cases hquantiles with
    | @ok _ qs _ =>
      exact ⟨{ metadata := j, metricData := ms, quantileData := qs }, rfl, hperm.symm⟩

theorem SameAnswers.aggregatedData (h : SameAnswers env env') (hrun : j.isRunning = false)
    (hd : aggregatedData env db j = .ok data) :
    ∃ data', aggregatedData env' db j = .ok data' ∧
      data'.metricData.Perm data.metricData := by
  unfold InfluxDB.aggregatedData at hd ⊢
  cases hdur : Go.parseDuration db.defaultSampleInterval with
  | none => simp [hdur] at hd
  | some s =>
    simp only [hdur] at hd ⊢
    rw [JobMetadata.calculateSampleIntervals_of_stopped hrun env'.now env.now]
    exact h.getJobData hd

end Refresh

/-! ## Well-defined change points -/

/-- The data of a metric without some of the series that miss a value. -/
structure DropsMissing (m m' : MetricData) : Prop where
  config : m'.config = m.config
  subset : m'.data.rows ⊆ m.data.rows
  missing : ∀ p ∈ m.data.rows, p ∉ m'.data.rows → ¬ Complete p.2

/-- Whatever the order of the goroutines, the map of change points is `cps`. -/
def Yields (env : Environment) (data : JobData) (cps : String → Option (List Time)) : Prop :=
  ∀ schedule, ∃ c, changePointDetection { env with changePointOrder := schedule } data = .ok c ∧
    ∀ k, c.lookup k = cps k

/-- The change points of some data are well defined: no order in which the
metrics finish or their series are visited makes a difference, nor does a series
that misses a value, and a refresh of a job with this data stores what the last
one stored. -/
structure WellDefined (env : Environment) (data : JobData) (cps : String → Option (List Time)) :
    Prop where
  order : ∀ ms, SameMetrics data.metricData ms → Yields env { data with metricData := ms } cps
  missing : ∀ ms ms', List.Forall₂ DropsMissing data.metricData ms → SameMetrics ms ms' →
    Yields env { data with metricData := ms' } cps
  stored : ∀ db j, aggregatedData env db j = .ok data →
    ∀ env' visit, SameAnswers env env' → (∀ ms, SameMetrics ms (visit ms)) →
      UpToOrder (getJobMetadataMetrics env db j) (refreshMetrics env' db visit j)

/-- The series of a measurement agree: those without a missing value have the same
change points, and when there are any, some metric of this measurement has only
such series. -/
structure Unambiguous (env : Environment) (data : JobData) : Prop where
  readable : AllReadable env.nonParametric data.metricData
  agree : ∀ m ∈ data.metricData, ∀ m' ∈ data.metricData,
    m.config.measurement = m'.config.measurement → ∀ p ∈ m.data.rows, ∀ p' ∈ m'.data.rows,
      Complete p.2 → Complete p'.2 →
        changePointTimes env.nonParametric p.2 = changePointTimes env.nonParametric p'.2
  complete : ∀ m ∈ data.metricData, ∀ p ∈ m.data.rows, Complete p.2 →
    ∃ m' ∈ data.metricData, m'.config.measurement = m.config.measurement ∧ m'.data.rows ≠ [] ∧
      ∀ p' ∈ m'.data.rows, Complete p'.2

section WellDefined

variable {env : Environment} {data : JobData} {ms ms' : List MetricData}
  {cps : String → Option (List Time)}

theorem contribution_eq_some {p : String × List QueryResult} {times : List Time} :
    contribution nonParametric p = some times ↔
      Complete p.2 ∧ changePointTimes nonParametric p.2 = times := by
  by_cases hc : Complete p.2 <;> simp [contribution, hc]

theorem contribution_ne_none {p : String × List QueryResult} :
    contribution nonParametric p ≠ none ↔ Complete p.2 := by
  by_cases hc : Complete p.2 <;> simp [contribution, hc]

/-- Unambiguous data is data without a race. -/
theorem unambiguous_iff :
    Unambiguous env data ↔ AllReadable env.nonParametric data.metricData ∧
      goroutines.RaceFree (contribution env.nonParametric) data.metricData := by
  constructor
  · intro h
    refine ⟨h.readable, ?_, ?_⟩
    · rintro k v v' ⟨m, hm, hk, p, hp, hv⟩ ⟨m', hm', hk', p', hp', hv'⟩
      obtain ⟨hc, rfl⟩ := contribution_eq_some.1 hv
      obtain ⟨hc', rfl⟩ := contribution_eq_some.1 hv'
      exact h.agree m hm m' hm' (hk.trans hk'.symm) p hp p' hp' hc hc'
    · rintro k v ⟨m, hm, hk, p, hp, hv⟩
      obtain ⟨m', hm', hk', hne, hall⟩ := h.complete m hm p hp (contribution_eq_some.1 hv).1
      exact ⟨m', hm', hk'.trans hk, hne, fun p' hp' => contribution_ne_none.2 (hall p' hp')⟩
  · rintro ⟨hread, hrace⟩
    refine ⟨hread, ?_, ?_⟩
    · intro m hm m' hm' hk p hp p' hp' hc hc'
      exact hrace.unique ⟨m, hm, hk, p, hp, contribution_eq_some.2 ⟨hc, rfl⟩⟩
        ⟨m', hm', rfl, p', hp', contribution_eq_some.2 ⟨hc', rfl⟩⟩
    · intro m hm p hp hc
      obtain ⟨m', hm', hk', hne, hall⟩ :=
        hrace.kept ⟨m, hm, rfl, p, hp, contribution_eq_some.2 ⟨hc, rfl⟩⟩
      exact ⟨m', hm', hk', hne, fun p' hp' => contribution_ne_none.1 (hall p' hp')⟩

/-- The same data in another order is as readable. -/
theorem AllReadable.of_sameMetrics (h : AllReadable nonParametric ms) (hsame : SameMetrics ms ms') :
    AllReadable nonParametric ms' := by
  intro m hm p hp
  obtain ⟨m', hm', hseries⟩ := Writers.Reordered.mem_right (W := goroutines) hsame hm
  exact h m' hm' p (SameSeries.series hseries |>.mem_iff.1 hp)

/-- The map a run yields is what its last writers left. -/
theorem Yields.final_eq (h : Yields env data cps)
    (hread : AllReadable env.nonParametric data.metricData) :
    goroutines.final (contribution env.nonParametric) data.metricData = cps := by
  obtain ⟨c, hc, hcps⟩ := h Schedule.inOrder
  obtain ⟨c', hc', hlookup⟩ := @changePointDetection_eq
    { env with changePointOrder := Schedule.inOrder } data hread
  rw [hc] at hc'
  cases hc'
  funext k
  exact (hlookup k).symm.trans (hcps k)

/-- A series that cannot be read makes some order panic. -/
theorem WellDefined.readable (h : WellDefined env data cps) :
    AllReadable env.nonParametric data.metricData := by
  intro m hm p hp
  obtain ⟨before, after, hms⟩ := List.append_of_mem hm
  obtain ⟨rows, rows', hrows⟩ := List.append_of_mem hp
  obtain ⟨m', hsame, hrows'⟩ := goroutines.exists_same m (p :: (rows ++ rows'))
    (hrows.symm ▸ List.perm_middle.symm : (p :: (rows ++ rows')).Perm m.data.rows)
  have hfirst : SameMetrics data.metricData (m' :: (before ++ after)) := by
    refine ⟨m :: (before ++ after), hms ▸ List.perm_middle.symm, List.Forall₂.cons hsame ?_⟩
    exact List.forall₂_same.2 fun u _ => goroutines.same_refl u
  obtain ⟨c, hc, -⟩ := h.order _ hfirst Schedule.inOrder
  exact @readable_of_changePointDetection { env with changePointOrder := Schedule.inOrder } _ _
    { data with metricData := m' :: (before ++ after) } _ _ _ rfl hrows' hc

theorem DropsMissing.mem {m m' : MetricData} (h : DropsMissing m m')
    {p : String × List QueryResult} (hp : p ∈ m.data.rows) (hc : Complete p.2) :
    p ∈ m'.data.rows := by
  by_contra hnot
  exact h.missing p hp hnot hc

/-- Dropping series that miss a value takes no offer away. -/
theorem offers_dropsMissing (h : List.Forall₂ DropsMissing data.metricData ms) {k : String}
    {v : List Time} : goroutines.Offers (contribution env.nonParametric) ms k v ↔
      goroutines.Offers (contribution env.nonParametric) data.metricData k v := by
  constructor
  · rintro ⟨m', hm', hk, p, hp, hv⟩
    obtain ⟨m, hm, hdrop⟩ := exists_mem_right h hm'
    refine ⟨m, hm, ?_, p, hdrop.subset hp, hv⟩
    rw [← hk]
    exact congrArg MetricConfig.measurement hdrop.config.symm
  · rintro ⟨m, hm, hk, p, hp, hv⟩
    obtain ⟨m', hm', hdrop⟩ := exists_mem_right h.flip hm
    refine ⟨m', hm', ?_, p, DropsMissing.mem hdrop hp (contribution_eq_some.1 hv).1, hv⟩
    rw [← hk]
    exact congrArg MetricConfig.measurement hdrop.config

theorem keeps_dropsMissing (h : List.Forall₂ DropsMissing data.metricData ms) {k : String}
    (hkeeps : goroutines.Keeps (contribution env.nonParametric) data.metricData k) :
    goroutines.Keeps (contribution env.nonParametric) ms k := by
  obtain ⟨m, hm, hk, hne, hall⟩ := hkeeps
  obtain ⟨m', hm', hdrop⟩ := exists_mem_right h.flip hm
  refine ⟨m', hm', ?_, ?_, fun p hp => hall p (DropsMissing.subset hdrop hp)⟩
  · rw [← hk]
    exact congrArg MetricConfig.measurement (DropsMissing.config hdrop)
  · obtain ⟨p, hp⟩ := List.exists_mem_of_ne_nil _ hne
    exact List.ne_nil_of_mem (DropsMissing.mem hdrop hp (contribution_ne_none.1 (hall p hp)))

/-- Without a race every run on the same data yields the same map. -/
theorem changePointDetection_of_raceFree {env' : Environment} {data' : JobData}
    (hlib : env'.nonParametric = env.nonParametric)
    (hread : AllReadable env.nonParametric data.metricData)
    (hrace : goroutines.RaceFree (contribution env.nonParametric) data.metricData)
    (hsame : SameMetrics data.metricData data'.metricData) :
    ∃ c, changePointDetection env' data' = .ok c ∧ ∀ k, c.lookup k =
      goroutines.final (contribution env.nonParametric) data.metricData k := by
  have hread' : AllReadable env'.nonParametric data'.metricData := by
    rw [hlib]
    exact hread.of_sameMetrics hsame
  obtain ⟨c, hc, hlookup⟩ := changePointDetection_eq hread'
  have hsched := Writers.Reordered.of_perm (W := goroutines)
    (env'.changePointOrder.perm data'.metricData)
  refine ⟨c, hc, fun k => ?_⟩
  rw [hlookup, hlib, (hrace.of_reordered hsame).final_reordered hsched,
    hrace.final_reordered hsame]

/-- Without a race two refreshes store the same. -/
theorem upToOrder_refreshMetrics {env' : Environment} {db : InfluxDB}
    {visit : List MetricData → List MetricData} {j : JobMetadata}
    (hdata : aggregatedData env db j = .ok data) (henv : SameAnswers env env')
    (hvisit : ∀ ms, SameMetrics ms (visit ms))
    (hread : AllReadable env.nonParametric data.metricData)
    (hrace : goroutines.RaceFree (contribution env.nonParametric) data.metricData) :
    UpToOrder (getJobMetadataMetrics env db j) (refreshMetrics env' db visit j) := by
  rw [← refreshMetrics_id]
  unfold refreshMetrics
  by_cases hrun : j.isRunning = true
  · rw [if_pos hrun, if_pos hrun]
    exact .error _
  rw [if_neg hrun, if_neg hrun]
  by_cases htime : j.stopTime ≤ j.startTime
  · rw [if_pos htime, if_pos htime]
    exact .error _
  rw [if_neg htime, if_neg htime]
  obtain ⟨data', hdata', hperm⟩ := henv.aggregatedData (by simpa using hrun) hdata
  have hmeta := @SameAnswers.getMetadataData env db env' j henv
  generalize InfluxDB.getMetadataData env db j = r at hmeta ⊢
  generalize InfluxDB.getMetadataData env' db j = r' at hmeta ⊢
  cases hmeta with
  | error e => exact .error e
  | ok hl =>
    obtain ⟨c, hc, hlookup⟩ := @changePointDetection_of_raceFree env data env data rfl hread hrace
      (Writers.Reordered.of_perm (W := goroutines) (List.Perm.refl _))
    obtain ⟨c', hc', hlookup'⟩ := @changePointDetection_of_raceFree env data env'
      { data' with metricData := visit data'.metricData } henv.nonParametric hread hrace
      (Writers.Reordered.of_left (W := goroutines) hperm (hvisit _))
    simp only [bind, Except.bind, hdata, hdata', id, hc, hc', hlookup, hlookup', pure, Except.pure]
    exact .ok (hl.map _)

/-- **The change points of some data are well defined exactly when its series are
unambiguous.** -/
theorem wellDefined_iff : (∃ cps, WellDefined env data cps) ↔ Unambiguous env data := by
  rw [unambiguous_iff]
  constructor
  · rintro ⟨cps, h⟩
    refine ⟨h.readable, Writers.settled_iff.1 ⟨cps, fun ms hsame => ?_⟩⟩
    exact (h.order ms hsame).final_eq (h.readable.of_sameMetrics hsame)
  · rintro ⟨hread, hrace⟩
    refine ⟨goroutines.final (contribution env.nonParametric) data.metricData, ?_, ?_, ?_⟩
    · intro ms hsame schedule
      exact changePointDetection_of_raceFree rfl hread hrace hsame
    · intro ms ms' hdrop hsame schedule
      have hoffers := fun k v => @offers_dropsMissing env data ms hdrop k v
      have hkeeps := fun k => @keeps_dropsMissing env data ms hdrop k
      have hread' : AllReadable env.nonParametric ms := by
        intro m' hm' p hp
        obtain ⟨m, hm, hd⟩ := exists_mem_right hdrop hm'
        exact hread m hm p (DropsMissing.subset hd hp)
      rw [← hrace.final_eq hoffers hkeeps]
      exact @changePointDetection_of_raceFree env { data with metricData := ms } _ _ rfl hread'
        (hrace.of_offers hoffers hkeeps) hsame
    · intro db j hdata env' visit henv hvisit
      exact upToOrder_refreshMetrics hdata henv hvisit hread hrace

end WellDefined

/-! ## Two nodes -/

/-- A library that finds the first value that differs from the one before. -/
def firstChange : List Float64 → List ℕ
  | v :: w :: vs => if v = w then (firstChange (w :: vs)).map (· + 1) else [1]
  | _ => []

theorem lt_length_of_mem_firstChange {values : List Float64} :
    ∀ i ∈ firstChange values, i < values.length := by
  induction values using firstChange.induct with
  | case1 v vs ih =>
    intro i hi
    simp only [firstChange, if_true, List.mem_map] at hi
    obtain ⟨i', hi', rfl⟩ := hi
    simpa using ih i' hi'
  | case2 v w vs hne =>
    intro i hi
    simp [firstChange, hne] at hi
    simp [hi]
  | case3 values h =>
    intro i hi
    unfold firstChange at hi
    split at hi
    · exact absurd rfl (h _ _ _)
    · simp at hi

/-- The load of a node at the times `0`, `30`, `60` and `90`. -/
def loadSeries (v₀ v₁ v₂ v₃ : UInt64) : List QueryResult :=
  [(0, v₀), (30, v₁), (60, v₂), (90, v₃)].map fun (p : Time × UInt64) =>
    (Table.empty.upsert ("_time", .time p.1)).upsert ("_value", .float ⟨p.2⟩)

/-- The load of one node goes up after a minute, that of the other after half of
one. -/
def loadOfTwoNodes : MetricData :=
  { config := { guid := "load", measurement := "cpu_load" }
    data := (Table.empty.upsert ("n1", loadSeries 1 1 9 9)).upsert ("n2", loadSeries 1 9 9 9) }

/-- A server without data, and this library. -/
def firstChangeEnvironment : Environment :=
  { api := { query := fun _ => .ok {}, queryRaw := fun _ => .ok "" }
    now := 0
    nonParametric := firstChange }

/-- The map `cpu_load` has in it after a run on the load of the two nodes. -/
def loadChangePoints (data : Map String (List QueryResult)) : Option (List Time) :=
  (changePointDetection firstChangeEnvironment
    { metricData := [{ loadOfTwoNodes with data := data }] }).toOption.bind (·.lookup "cpu_load")

/-- Whichever node is visited last has its change points in the map. -/
theorem not_wellDefined :
    (∀ values, ∀ i ∈ firstChange values, i < values.length) ∧
      ¬ ∃ cps, WellDefined firstChangeEnvironment { metricData := [loadOfTwoNodes] } cps := by
  refine ⟨fun values => lt_length_of_mem_firstChange, ?_⟩
  rintro ⟨cps, h⟩
  have hrun : ∀ nodes : Map String (List QueryResult), nodes.rows.Perm loadOfTwoNodes.data.rows →
      cps "cpu_load" = loadChangePoints nodes := by
    intro nodes hperm
    obtain ⟨c, hc, hcps⟩ := h.order [{ loadOfTwoNodes with data := nodes }]
      ⟨[loadOfTwoNodes], .refl _, .cons ⟨rfl, rfl, hperm⟩ .nil⟩ Schedule.inOrder
    have hc' : changePointDetection firstChangeEnvironment
        { metricData := [{ loadOfTwoNodes with data := nodes }] } = .ok c := hc
    rw [loadChangePoints, hc', ← hcps]
    rfl
  have hfirst := hrun loadOfTwoNodes.data (.refl _)
  have hsecond := hrun ((Table.empty.upsert ("n2", loadSeries 1 9 9 9)).upsert
    ("n1", loadSeries 1 1 9 9)) (List.Perm.swap _ _ _)
  rw [hfirst] at hsecond
  exact absurd hsecond (by decide +kernel)

end InfluxDB

end JobMon
