import Mathlib.Data.List.Count
import JobMon.Lib.Runs
import JobMon.Frontend.MetricDataCharts

/-!
# Merging live data

The effect of `pages/job/[id].tsx` that merges the messages of the websocket into
`jobData`, for points of any type `P` with a `time`.

* `LiveMetric.merge` — a series of a message put in: pushed to the end, or concatenated in
  front.  Pushing to a key that is not there throws, and concatenating with it puts an
  undefined entry into the new series.
* `LiveData.mergeItem`, `LiveData.mergeMessage` — the loops over metrics and keys.
* `Increasing` — a series without undefined entries, strictly increasing in time.
* `LiveData.Intact` — nothing thrown, every series increasing, and every delivered point
  in its series once.
* `LiveData.Fits` — the condition under which a series of a message keeps that.
* `LiveData.merge_intact_iff` — for every sequence of messages, exactly.
-/

namespace JobMon

open Keyed Runs

/-! ## The merge -/

/-- `WSMsgType`. -/
inductive WSMsgType
  | loadMetrics
  | loadMetricsResponse
  | latestMetrics
  deriving DecidableEq

/-- A metric of `jobData`: its measurement and its series, whose entries may be undefined. -/
structure LiveMetric (P : Type) where
  measurement : String
  data : Map String (List (Option P))

/-- A message: its type, and the metrics it carries by measurement. -/
structure WSMsg (P : Type) where
  type : WSMsgType
  metricData : List (String × Map String (List P))

/-- A series of a message. -/
structure WSItem (P : Type) where
  latest : Bool
  measurement : String
  key : String
  points : List P
  deriving DecidableEq

variable {P : Type}

/-- The series of a message, in the order of the loops; only two types of messages are
merged. -/
def WSMsg.items (msg : WSMsg P) : List (WSItem P) :=
  if msg.type = .loadMetricsResponse ∨ msg.type = .latestMetrics then
    msg.metricData.flatMap fun metric =>
      (Charts.objectKeys metric.2).map fun key =>
        { latest := msg.type = .latestMetrics
          measurement := metric.1
          key
          points := (metric.2.lookup key).getD [] }
  else []

/-- `Data[key].push(...)` and `Data[key] = points.concat(Data[key])`; `none` when it
throws. -/
def LiveMetric.merge (metric : LiveMetric P) (item : WSItem P) : Option (LiveMetric P) :=
  let points := item.points.map some
  if item.latest then
    (metric.data.lookup item.key).map fun series =>
      { metric with data := metric.data.upsert (item.key, series ++ points) }
  else
    let series := (metric.data.lookup item.key).getD [none]
    some { metric with data := metric.data.upsert (item.key, points ++ series) }

/-- The metrics of `jobData`, whether a merge has thrown, and what was delivered so far: the
points by measurement and key. -/
structure LiveData (P : Type) where
  metrics : List (LiveMetric P)
  failed : Bool := false
  delivered : List (String × String × P) := []

namespace LiveData

/-- The points of a series are delivered. -/
def deliver (s : LiveData P) (item : WSItem P) : LiveData P :=
  { s with delivered := s.delivered ++ item.points.map fun p => (item.measurement, item.key, p) }

/-- One series of a message, merged into the first metric with its measurement.  After an
exception nothing is merged any more. -/
def mergeItem (s : LiveData P) (item : WSItem P) : LiveData P :=
  if s.failed then s
  else
    match s.metrics.findIdx? fun d => d.measurement = item.measurement with
    | none => s.deliver item
    | some idx =>
      match s.metrics[idx]?.bind fun d => d.merge item with
      | none => { s.deliver item with failed := true }
      | some d => { s.deliver item with metrics := s.metrics.set idx d }

/-- A message. -/
def mergeMessage (s : LiveData P) (msg : WSMsg P) : LiveData P := msg.items.foldl mergeItem s

end LiveData

/-! ## What is to hold -/

variable (time : P → Date)

/-- No entry is undefined, and the times are strictly increasing. -/
def Increasing (series : List (Option P)) : Prop :=
  ∃ points : List P, series = points.map some ∧ points.Pairwise fun p q => time p < time q

/-- All series of the metric are increasing. -/
def LiveMetric.AllIncreasing (metric : LiveMetric P) : Prop :=
  ∀ r ∈ metric.data.rows, Increasing time r.2

/-- The point is in the series of the key, once. -/
def LiveMetric.HasOnce [DecidableEq P] (metric : LiveMetric P) (key : String) (p : P) : Prop :=
  ∃ series, metric.data.lookup key = some series ∧ series.count (some p) = 1

/-- Nothing was thrown, the series are increasing, and what was delivered is in them once. -/
structure LiveData.Intact [DecidableEq P] (s : LiveData P) : Prop where
  not_failed : s.failed = false
  increasing : ∀ metric ∈ s.metrics, metric.AllIncreasing time
  hasOnce : ∀ d ∈ s.delivered, ∀ metric ∈ s.metrics, metric.measurement = d.1 →
    metric.HasOnce d.2.1 d.2.2

/-- The key has a series; the points are increasing, and all later than those of the series
or, in a response, all earlier. -/
def LiveMetric.Accepts (metric : LiveMetric P) (item : WSItem P) : Prop :=
  ∃ series, metric.data.lookup item.key = some series ∧
    (item.points.Pairwise fun p q => time p < time q) ∧
    ∀ q, some q ∈ series → ∀ p ∈ item.points,
      if item.latest then time q < time p else time p < time q

/-- The first metric with the measurement accepts the points, and any other one has them. -/
def LiveData.Fits [DecidableEq P] (s : LiveData P) (item : WSItem P) : Prop :=
  ∀ idx, s.metrics.findIdx? (fun d => d.measurement = item.measurement) = some idx →
    (∀ d ∈ s.metrics[idx]?, d.Accepts time item) ∧
    ∀ d ∈ s.metrics.drop (idx + 1), d.measurement = item.measurement →
      ∀ p ∈ item.points, d.HasOnce item.key p

/-- The same for the series of a message, one after the other. -/
def LiveData.FitsMessage [DecidableEq P] (s : LiveData P) (msg : WSMsg P) : Prop :=
  ∀ before item after, msg.items = before ++ item :: after →
    (before.foldl LiveData.mergeItem s).Fits time item

variable {time}

/-! ## One series -/

theorem increasing_map_some_iff {points : List P} :
    Increasing time (points.map some) ↔ points.Pairwise fun p q => time p < time q := by
  constructor
  · rintro ⟨points', heq, h⟩
    rwa [(Option.some_injective P).list_map heq]
  · intro h
    exact ⟨points, rfl, h⟩

/-- In an increasing series every point is there once. -/
theorem Increasing.count_eq_one_iff [DecidableEq P] {series : List (Option P)}
    (h : Increasing time series) {p : P} : series.count (some p) = 1 ↔ some p ∈ series := by
  obtain ⟨points, rfl, hpoints⟩ := h
  have hnodup : (points.map some).Nodup := by
    refine List.Nodup.map (Option.some_injective P) (hpoints.imp ?_)
    rintro a b hlt rfl
    exact lt_irrefl _ hlt
  rw [List.nodup_iff_count_eq_one] at hnodup
  constructor
  · intro hcount
    exact List.count_pos_iff.1 (by omega)
  · intro hmem
    exact hnodup _ hmem

/-- The series of a message joined to a series. -/
def WSItem.join (item : WSItem P) (series : List (Option P)) : List (Option P) :=
  if item.latest then series ++ item.points.map some else item.points.map some ++ series

theorem WSItem.increasing_join_iff {item : WSItem P} {series : List (Option P)}
    (h : Increasing time series) :
    Increasing time (item.join series) ↔
      (item.points.Pairwise fun p q => time p < time q) ∧
      ∀ q, some q ∈ series → ∀ p ∈ item.points,
        if item.latest then time q < time p else time p < time q := by
  obtain ⟨points, rfl, hpoints⟩ := h
  have hmem (q : P) : some q ∈ points.map some ↔ q ∈ points := by simp
  simp only [hmem]
  unfold WSItem.join
  cases item.latest with
  | true =>
    simp only [if_true]
    rw [← List.map_append, increasing_map_some_iff, List.pairwise_append]
    exact ⟨fun h => h.2, fun h => ⟨hpoints, h⟩⟩
  | false =>
    simp only [Bool.false_eq_true, if_false]
    rw [← List.map_append, increasing_map_some_iff, List.pairwise_append]
    constructor
    · rintro ⟨hitem, -, hcross⟩
      exact ⟨hitem, fun q hq p hp => hcross p hp q hq⟩
    · rintro ⟨hitem, hcross⟩
      exact ⟨hitem, hpoints, fun p hp q hq => hcross q hq p hp⟩

/-- A part of an increasing series is increasing. -/
theorem WSItem.increasing_of_join {item : WSItem P} {series : List (Option P)}
    (h : Increasing time (item.join series)) : Increasing time series := by
  obtain ⟨points, heq, hpoints⟩ := h
  unfold WSItem.join at heq
  split at heq
  · obtain ⟨l, l', rfl, rfl, -⟩ := List.append_eq_map_iff.1 heq
    exact ⟨l, rfl, (List.pairwise_append.1 hpoints).1⟩
  · obtain ⟨l, l', rfl, -, rfl⟩ := List.append_eq_map_iff.1 heq
    exact ⟨l', rfl, (List.pairwise_append.1 hpoints).2.1⟩

theorem WSItem.mem_join_iff {item : WSItem P} {series : List (Option P)} {p : P} :
    some p ∈ item.join series ↔ p ∈ item.points ∨ some p ∈ series := by
  unfold WSItem.join
  split
  · simp [or_comm]
  · simp

/-! ## One metric -/

namespace LiveMetric

variable {d d' : LiveMetric P} {item : WSItem P}

theorem allIncreasing_iff :
    d.AllIncreasing time ↔
      ∀ key series, d.data.lookup key = some series → Increasing time series := by
  constructor
  · intro h key series hlookup
    exact h (key, series) (Map.lookup_eq_some_iff.1 hlookup)
  · rintro h ⟨key, series⟩ hr
    exact h key series (Map.lookup_eq_some_iff.2 hr)

/-- A merge goes through when the key has a series, or the message is a response. -/
theorem merge_eq_some_iff :
    d.merge item = some d' ↔
      ∃ series, (d.data.lookup item.key = some series ∨
          d.data.lookup item.key = none ∧ item.latest = false ∧ series = [none]) ∧
        d' = { d with data := d.data.upsert (item.key, item.join series) } := by
  unfold merge WSItem.join
  cases hlookup : d.data.lookup item.key with
  | none =>
    cases item.latest with
    | true => simp
    | false => simp [eq_comm]
  | some series =>
    cases item.latest with
    | true => simp [eq_comm]
    | false => simp [eq_comm]

theorem measurement_of_merge (h : d.merge item = some d') : d'.measurement = d.measurement := by
  obtain ⟨series, -, rfl⟩ := merge_eq_some_iff.1 h
  rfl

/-- A merge changes the series of its key only. -/
theorem lookup_of_merge (h : d.merge item = some d') {key : String} (hkey : key ≠ item.key) :
    d'.data.lookup key = d.data.lookup key := by
  obtain ⟨series, -, rfl⟩ := merge_eq_some_iff.1 h
  rw [Map.lookup_upsert, if_neg hkey]

theorem lookup_key_of_merge (h : d.merge item = some d') :
    ∃ series, d'.data.lookup item.key = some (item.join series) ∧
      (d.data.lookup item.key = some series ∨
        d.data.lookup item.key = none ∧ item.latest = false ∧ series = [none]) := by
  obtain ⟨series, hseries, rfl⟩ := merge_eq_some_iff.1 h
  exact ⟨series, by rw [Map.lookup_upsert, if_pos rfl], hseries⟩

/-- **One merge**: it leaves increasing series exactly when the metric accepts the points. -/
theorem accepts_iff (h : d.AllIncreasing time) :
    d.Accepts time item ↔ ∃ d', d.merge item = some d' ∧ d'.AllIncreasing time := by
  rw [allIncreasing_iff] at h
  constructor
  · rintro ⟨series, hseries, haccepts⟩
    have hmerge := merge_eq_some_iff.2 ⟨series, .inl hseries, rfl⟩
    refine ⟨_, hmerge, allIncreasing_iff.2 fun key series' hlookup => ?_⟩
    rw [Map.lookup_upsert] at hlookup
    split at hlookup
    · obtain rfl := Option.some.inj hlookup
      exact (WSItem.increasing_join_iff (h _ _ hseries)).2 haccepts
    · exact h _ _ hlookup
  · rintro ⟨d', hmerge, hd'⟩
    obtain ⟨series, hjoin, hseries⟩ := lookup_key_of_merge hmerge
    have hincreasing := allIncreasing_iff.1 hd' _ _ hjoin
    rcases hseries with hseries | ⟨-, -, rfl⟩
    · exact ⟨series, hseries, (WSItem.increasing_join_iff (h _ _ hseries)).1 hincreasing⟩
    · -- an undefined entry
      obtain ⟨points, heq, -⟩ := WSItem.increasing_of_join hincreasing
      cases points with
      | nil => cases heq
      | cons p points => cases heq

/-- A merge that leaves increasing series started from such. -/
theorem allIncreasing_of_merge (h : d.merge item = some d') (hd' : d'.AllIncreasing time) :
    d.AllIncreasing time := by
  rw [allIncreasing_iff] at hd' ⊢
  intro key series hlookup
  by_cases hkey : key = item.key
  · obtain ⟨series', hjoin, hseries'⟩ := lookup_key_of_merge h
    rw [hkey] at hlookup
    rcases hseries' with hseries' | ⟨hnone, -⟩
    · obtain rfl : series' = series := Option.some.inj (hseries'.symm.trans hlookup)
      exact WSItem.increasing_of_join (hd' _ _ hjoin)
    · rw [hnone] at hlookup
      cases hlookup
  · exact hd' key series (by rw [lookup_of_merge h hkey, hlookup])

/-- The point is in the series of the key. -/
def Holds (d : LiveMetric P) (key : String) (p : P) : Prop :=
  ∃ series, d.data.lookup key = some series ∧ some p ∈ series

variable {key : String} {p : P}

/-- What is in a metric stays there. -/
theorem holds_of_merge (h : d.merge item = some d') (hp : d.Holds key p) : d'.Holds key p := by
  obtain ⟨series, hlookup, hmem⟩ := hp
  by_cases hkey : key = item.key
  · subst hkey
    obtain ⟨series', hjoin, hseries | ⟨hnone, -⟩⟩ := lookup_key_of_merge h
    · obtain rfl : series' = series := Option.some.inj (hseries.symm.trans hlookup)
      exact ⟨_, hjoin, WSItem.mem_join_iff.2 (.inr hmem)⟩
    · rw [hnone] at hlookup
      cases hlookup
  · exact ⟨series, by rw [lookup_of_merge h hkey, hlookup], hmem⟩

/-- And what is merged is in it. -/
theorem holds_merged (h : d.merge item = some d') (hp : p ∈ item.points) :
    d'.Holds item.key p := by
  obtain ⟨series, hjoin, -⟩ := lookup_key_of_merge h
  exact ⟨_, hjoin, WSItem.mem_join_iff.2 (.inl hp)⟩

theorem hasOnce_iff [DecidableEq P] (h : d.AllIncreasing time) :
    d.HasOnce key p ↔ d.Holds key p := by
  refine exists_congr fun series => and_congr_right fun hlookup => ?_
  exact (allIncreasing_iff.1 h key series hlookup).count_eq_one_iff

end LiveMetric

/-! ## One series of a message -/

namespace LiveData

variable {s : LiveData P} {item : WSItem P}

/-- `d` is the first metric with the measurement. -/
structure FirstMatch (metrics : List (LiveMetric P)) (measurement : String)
    (before : List (LiveMetric P)) (d : LiveMetric P) (after : List (LiveMetric P)) : Prop where
  metrics_eq : metrics = before ++ d :: after
  before_ne : ∀ m ∈ before, m.measurement ≠ measurement
  found : d.measurement = measurement

theorem FirstMatch.findIdx? {metrics before after : List (LiveMetric P)} {measurement : String}
    {d : LiveMetric P} (h : FirstMatch metrics measurement before d after) :
    (metrics.findIdx? fun d => d.measurement = measurement) = some before.length := by
  have hnone : (before.findIdx? fun d => d.measurement = measurement) = none := by
    rw [List.findIdx?_eq_none_iff]
    exact fun m hm => decide_eq_false (h.before_ne m hm)
  rw [h.metrics_eq, List.findIdx?_append, hnone, List.findIdx?_cons]
  simp [h.found]

theorem FirstMatch.find? {metrics before after : List (LiveMetric P)} {measurement : String}
    {d : LiveMetric P} (h : FirstMatch metrics measurement before d after) :
    metrics.find? (fun d => d.measurement = measurement) = some d := by
  have hnone : before.find? (fun d => d.measurement = measurement) = none := by
    rw [List.find?_eq_none]
    exact fun m hm => by simpa using h.before_ne m hm
  rw [h.metrics_eq, List.find?_append, hnone, List.find?_cons_of_pos (by simpa using h.found)]
  rfl

/-- Either no metric has the measurement, or there is a first one. -/
theorem match_cases (metrics : List (LiveMetric P)) (measurement : String) :
    (∀ m ∈ metrics, m.measurement ≠ measurement) ∨
      ∃ before d after, FirstMatch metrics measurement before d after := by
  induction metrics with
  | nil => exact .inl (by simp)
  | cons m metrics ih =>
    by_cases hm : m.measurement = measurement
    · exact .inr ⟨[], m, metrics, rfl, by simp, hm⟩
    · rcases ih with hne | ⟨before, d, after, hmatch⟩
      · exact .inl (List.forall_mem_cons.2 ⟨hm, hne⟩)
      · refine .inr ⟨m :: before, d, after, ?_, ?_, hmatch.found⟩
        · rw [hmatch.metrics_eq, List.cons_append]
        · exact List.forall_mem_cons.2 ⟨hm, hmatch.before_ne⟩

theorem mergeItem_of_failed (h : s.failed = true) : s.mergeItem item = s := by
  rw [mergeItem, if_pos h]

theorem mergeItem_of_no_match (h : s.failed = false)
    (hne : ∀ m ∈ s.metrics, m.measurement ≠ item.measurement) :
    s.mergeItem item = s.deliver item := by
  have hnone : (s.metrics.findIdx? fun d => d.measurement = item.measurement) = none := by
    rw [List.findIdx?_eq_none_iff]
    exact fun m hm => decide_eq_false (hne m hm)
  simp [mergeItem, h, hnone]

/-- **A series of a message merged**: an exception, or the first metric with the measurement
changed. -/
theorem mergeItem_of_match (h : s.failed = false) {before after : List (LiveMetric P)}
    {d : LiveMetric P} (hmatch : FirstMatch s.metrics item.measurement before d after) :
    d.merge item = none ∧ (s.mergeItem item).failed = true ∨
      ∃ d', d.merge item = some d' ∧
        s.mergeItem item = { s.deliver item with metrics := before ++ d' :: after } := by
  have hidx := hmatch.findIdx?
  have hd : s.metrics[before.length]? = some d := by
    rw [hmatch.metrics_eq]
    simp
  cases hmerge : d.merge item with
  | none => exact .inl ⟨rfl, by simp [mergeItem, h, hidx, hd, hmerge]⟩
  | some d' =>
    refine .inr ⟨d', rfl, ?_⟩
    have hset : s.metrics.set before.length d' = before ++ d' :: after := by
      rw [hmatch.metrics_eq]
      simp
    simp [mergeItem, h, hidx, hd, hmerge, hset]

theorem mem_deliver_iff {δ : String × String × P} :
    δ ∈ (s.deliver item).delivered ↔
      δ ∈ s.delivered ∨ ∃ p ∈ item.points, δ = (item.measurement, item.key, p) := by
  simp [deliver, eq_comm]

variable [DecidableEq P]

theorem fits_of_no_match (hne : ∀ m ∈ s.metrics, m.measurement ≠ item.measurement) :
    s.Fits time item := by
  intro idx hidx
  obtain ⟨hlt, hfound, -⟩ := List.findIdx?_eq_some_iff_getElem.1 hidx
  exact absurd (of_decide_eq_true hfound) (hne _ (List.getElem_mem hlt))

theorem fits_of_match_iff {before after : List (LiveMetric P)} {d : LiveMetric P}
    (hmatch : FirstMatch s.metrics item.measurement before d after) :
    s.Fits time item ↔ d.Accepts time item ∧
      ∀ m ∈ after, m.measurement = item.measurement → ∀ p ∈ item.points, m.HasOnce item.key p := by
  have hd : s.metrics[before.length]? = some d := by
    rw [hmatch.metrics_eq]
    simp
  have hdrop : s.metrics.drop (before.length + 1) = after := by
    rw [hmatch.metrics_eq]
    simp
  unfold Fits
  rw [hmatch.findIdx?]
  simp only [Option.some.injEq, forall_eq', hd, hdrop, Option.mem_some_iff]

/-- Points for a measurement that no metric has do no harm. -/
theorem intact_deliver (hs : s.Intact time)
    (hne : ∀ m ∈ s.metrics, m.measurement ≠ item.measurement) : (s.deliver item).Intact time := by
  refine ⟨hs.not_failed, hs.increasing, fun δ hδ m hm hmeasurement => ?_⟩
  rcases mem_deliver_iff.1 hδ with hold | ⟨p, -, rfl⟩
  · exact hs.hasOnce δ hold m hm hmeasurement
  · exact absurd hmeasurement (hne m hm)

omit [DecidableEq P] in
/-- A metric of the list with one metric changed is that one, or was there before. -/
theorem mem_changed {before after : List (LiveMetric P)} {d d' m : LiveMetric P}
    (hm : m ∈ before ++ d' :: after) : m ∈ before ++ d :: after ∨ m = d' := by
  rw [List.mem_append, List.mem_cons] at hm
  rcases hm with hm | rfl | hm
  · exact .inl (List.mem_append_left _ hm)
  · exact .inr rfl
  · exact .inl (List.mem_append_right _ (List.mem_cons_of_mem _ hm))

/-- The first metric changed by a merge: it has to be increasing still, and the others to have
the points. -/
theorem intact_changed_iff {before after : List (LiveMetric P)} {d d' : LiveMetric P}
    (hs : s.Intact time) (hmatch : FirstMatch s.metrics item.measurement before d after)
    (hmerge : d.merge item = some d') :
    LiveData.Intact time { s.deliver item with metrics := before ++ d' :: after } ↔
      d'.AllIncreasing time ∧
        ∀ m ∈ after, m.measurement = item.measurement →
          ∀ p ∈ item.points, m.HasOnce item.key p := by
  have hmem : d ∈ s.metrics := by
    rw [hmatch.metrics_eq]
    simp
  have hd : d.AllIncreasing time := hs.increasing d hmem
  constructor
  · intro h
    refine ⟨h.increasing d' (by simp), fun m hm hmeasurement p hp => ?_⟩
    exact h.hasOnce (item.measurement, item.key, p) (mem_deliver_iff.2 (.inr ⟨p, hp, rfl⟩)) m
      (by simp [hm]) hmeasurement
  · rintro ⟨hd', hafter⟩
    refine ⟨hs.not_failed, fun m hm => ?_, fun δ hδ m hm hmeasurement => ?_⟩
    · rcases mem_changed (d := d) hm with hold | rfl
      · exact hs.increasing m (hmatch.metrics_eq ▸ hold)
      · exact hd'
    rcases mem_deliver_iff.1 hδ with hold | ⟨p, hp, rfl⟩
    · -- delivered before
      rcases mem_changed (d := d) hm with hm | rfl
      · exact hs.hasOnce δ hold m (hmatch.metrics_eq ▸ hm) hmeasurement
      · rw [LiveMetric.measurement_of_merge hmerge] at hmeasurement
        have hp := hs.hasOnce δ hold d hmem hmeasurement
        rw [LiveMetric.hasOnce_iff hd] at hp
        exact (LiveMetric.hasOnce_iff hd').2 (LiveMetric.holds_of_merge hmerge hp)
    · -- delivered now
      rw [List.mem_append, List.mem_cons] at hm
      rcases hm with hm | rfl | hm
      · exact absurd hmeasurement (hmatch.before_ne m hm)
      · exact (LiveMetric.hasOnce_iff hd').2 (LiveMetric.holds_merged hmerge hp)
      · exact hafter m hm hmeasurement p hp

/-- **One step.** -/
theorem intact_mergeItem_iff (hs : s.Intact time) :
    (s.mergeItem item).Intact time ↔ s.Fits time item := by
  rcases match_cases s.metrics item.measurement with hne | ⟨before, d, after, hmatch⟩
  · rw [mergeItem_of_no_match hs.not_failed hne]
    exact iff_of_true (intact_deliver hs hne) (fits_of_no_match hne)
  have hd : d.AllIncreasing time := hs.increasing d (by rw [hmatch.metrics_eq]; simp)
  rw [fits_of_match_iff hmatch, LiveMetric.accepts_iff hd]
  rcases mergeItem_of_match hs.not_failed hmatch with ⟨hnone, hfailed⟩ | ⟨d', hmerge, heq⟩
  · -- the merge throws
    refine iff_of_false (fun h => ?_) ?_
    · rw [h.not_failed] at hfailed
      cases hfailed
    · rintro ⟨⟨d', hmerge, -⟩, -⟩
      rw [hnone] at hmerge
      cases hmerge
  · rw [heq, intact_changed_iff hs hmatch hmerge]
    refine and_congr_left fun _ => ?_
    simp [hmerge]

/-! ## The series of a message -/

/-- What was delivered to the first metric with a measurement is in it, unless a merge has
thrown. -/
def Written (s : LiveData P) : Prop :=
  s.failed = false → ∀ δ ∈ s.delivered, ∀ d,
    s.metrics.find? (fun d => d.measurement = δ.1) = some d → d.Holds δ.2.1 δ.2.2

omit [DecidableEq P] in
/-- The first metric with a measurement, after the first one with the measurement of the
message has changed. -/
theorem find?_of_match {before after : List (LiveMetric P)} {d d' e : LiveMetric P}
    {metrics : List (LiveMetric P)} {measurement measurement' : String}
    (hmatch : FirstMatch metrics measurement before d after)
    (hsame : d'.measurement = d.measurement)
    (he : (before ++ d' :: after).find? (fun d => d.measurement = measurement') = some e) :
    measurement' = measurement ∧ e = d' ∨
      measurement' ≠ measurement ∧
        metrics.find? (fun d => d.measurement = measurement') = some e := by
  by_cases hm : measurement' = measurement
  · subst hm
    have hmatch' : FirstMatch (before ++ d' :: after) measurement' before d' after :=
      ⟨rfl, hmatch.before_ne, hsame.trans hmatch.found⟩
    exact .inl ⟨rfl, Option.some.inj (he.symm.trans hmatch'.find?)⟩
  · refine .inr ⟨hm, ?_⟩
    have hd : ¬d.measurement = measurement' := fun h => hm (h.symm.trans hmatch.found)
    have hd' : ¬d'.measurement = measurement' := fun h => hd (hsame.symm.trans h)
    rw [List.find?_append, List.find?_cons_of_neg (by simpa using hd')] at he
    rw [hmatch.metrics_eq, List.find?_append, List.find?_cons_of_neg (by simpa using hd)]
    exact he

omit [DecidableEq P] in
theorem written_mergeItem (hs : s.Written) : (s.mergeItem item).Written := by
  cases hfailed : s.failed with
  | true =>
    rw [mergeItem_of_failed hfailed]
    exact hs
  | false =>
    rcases match_cases s.metrics item.measurement with hne | ⟨before, d, after, hmatch⟩
    · rw [mergeItem_of_no_match hfailed hne]
      intro _ δ hδ e he
      rcases mem_deliver_iff.1 hδ with hold | ⟨p, -, rfl⟩
      · exact hs hfailed δ hold e he
      · have hfound : e.measurement = item.measurement := by simpa using List.find?_some he
        exact absurd hfound (hne e (List.mem_of_find?_eq_some he))
    rcases mergeItem_of_match hfailed hmatch with ⟨-, hthrown⟩ | ⟨d', hmerge, heq⟩
    · intro hno
      rw [hthrown] at hno
      cases hno
    rw [heq]
    intro _ δ hδ e he
    rcases find?_of_match hmatch (LiveMetric.measurement_of_merge hmerge) he with
      ⟨hm, rfl⟩ | ⟨hm, he'⟩
    · rcases mem_deliver_iff.1 hδ with hold | ⟨p, hp, rfl⟩
      · refine LiveMetric.holds_of_merge hmerge (hs hfailed δ hold d ?_)
        rw [hm]
        exact hmatch.find?
      · exact LiveMetric.holds_merged hmerge hp
    · rcases mem_deliver_iff.1 hδ with hold | ⟨p, -, rfl⟩
      · exact hs hfailed δ hold e he'
      · exact absurd rfl hm

/-- **What is not intact is not mended.** -/
theorem intact_of_mergeItem (hs : s.Written) (h : (s.mergeItem item).Intact time) :
    s.Intact time := by
  cases hfailed : s.failed with
  | true => rwa [mergeItem_of_failed hfailed] at h
  | false =>
    rcases match_cases s.metrics item.measurement with hne | ⟨before, d, after, hmatch⟩
    · rw [mergeItem_of_no_match hfailed hne] at h
      exact ⟨hfailed, h.increasing, fun δ hδ => h.hasOnce δ (mem_deliver_iff.2 (.inl hδ))⟩
    rcases mergeItem_of_match hfailed hmatch with ⟨-, hthrown⟩ | ⟨d', hmerge, heq⟩
    · rw [h.not_failed] at hthrown
      cases hthrown
    rw [heq] at h
    have hd : d.AllIncreasing time :=
      LiveMetric.allIncreasing_of_merge hmerge (h.increasing d' (by simp))
    have hmem : ∀ m ∈ s.metrics, m ∈ before ++ d' :: after ∨ m = d :=
      fun m hm => mem_changed (hmatch.metrics_eq ▸ hm)
    refine ⟨hfailed, fun m hm => ?_, fun δ hδ m hm hmeasurement => ?_⟩
    · rcases hmem m hm with hm | rfl
      · exact h.increasing m hm
      · exact hd
    · rcases hmem m hm with hm | rfl
      · exact h.hasOnce δ (mem_deliver_iff.2 (.inl hδ)) m hm hmeasurement
      · rw [LiveMetric.hasOnce_iff hd]
        refine hs hfailed δ hδ m ?_
        rw [← hmeasurement, hmatch.found]
        exact hmatch.find?

omit [DecidableEq P] in
theorem written_foldl (hs : s.Written) (items : List (WSItem P)) :
    (items.foldl mergeItem s).Written := by
  induction items generalizing s with
  | nil => exact hs
  | cons item items ih => exact ih (written_mergeItem hs)

theorem intact_of_foldl (hs : s.Written) {items : List (WSItem P)}
    (h : (items.foldl mergeItem s).Intact time) : s.Intact time := by
  induction items generalizing s with
  | nil => exact h
  | cons item items ih => exact intact_of_mergeItem hs (ih (written_mergeItem hs) h)

theorem intact_foldl_iff (hs : s.Written) (hintact : s.Intact time) (items : List (WSItem P)) :
    (items.foldl mergeItem s).Intact time ↔
      ∀ before item after, items = before ++ item :: after →
        (before.foldl mergeItem s).Fits time item := by
  induction items generalizing s with
  | nil => simp [hintact]
  | cons item items ih =>
    rw [forall_append_cons_iff, List.foldl_cons]
    constructor
    · intro h
      have hstep := intact_of_foldl (written_mergeItem hs) h
      exact ⟨(intact_mergeItem_iff hintact).1 hstep, (ih (written_mergeItem hs) hstep).1 h⟩
    · rintro ⟨hfits, hrest⟩
      exact (ih (written_mergeItem hs) ((intact_mergeItem_iff hintact).2 hfits)).2 hrest

/-! ## Every sequence of messages -/

/-- `jobData` as it was loaded. -/
def loaded (metrics : List (LiveMetric P)) : LiveData P := { metrics }

/-- `jobData` after the messages. -/
def received (metrics : List (LiveMetric P)) (msgs : List (WSMsg P)) : LiveData P :=
  msgs.foldl mergeMessage (loaded metrics)

omit [DecidableEq P] in
theorem written_received (metrics : List (LiveMetric P)) (msgs : List (WSMsg P)) :
    (received metrics msgs).Written := by
  induction msgs using List.reverseRecOn with
  | nil =>
    intro _ δ hδ
    cases hδ
  | append_singleton msgs msg ih =>
    rw [received, List.foldl_append]
    exact written_foldl ih msg.items

/-- **When live data stay intact.**  After every message: exactly when each message fits the
data it is merged into. -/
theorem merge_intact_iff {metrics : List (LiveMetric P)}
    (hmetrics : ∀ metric ∈ metrics, metric.AllIncreasing time) (msgs : List (WSMsg P)) :
    (∀ seen, seen <+: msgs → (received metrics seen).Intact time) ↔
      ∀ seen msg, seen ++ [msg] <+: msgs → (received metrics seen).FitsMessage time msg := by
  refine forall_prefix_iff ⟨rfl, hmetrics, fun δ hδ => by cases hδ⟩ (fun seen msg h => ?_) msgs
  rw [received, List.foldl_append]
  exact intact_foldl_iff (written_received metrics seen) h msg.items

/-- A metric with one series; a point is its time. -/
def oneSeries (points : List Date) : LiveMetric Date where
  measurement := "flops"
  data := ⟨[("n1", points.map some)], by simp⟩

/-- A message with one series of it. -/
def oneItem (type : WSMsgType) (key : String) (points : List Date) : WSMsg Date where
  type
  metricData := [("flops", ⟨[(key, points)], by simp⟩)]

theorem allIncreasing_oneSeries {points : List Date} (h : points.Pairwise (· < ·)) :
    ∀ metric ∈ [oneSeries points], metric.AllIncreasing id := by
  simpa [oneSeries, LiveMetric.AllIncreasing, increasing_map_some_iff] using h

theorem merge_intact_iff_later :
    (received [oneSeries [0, 10]] [oneItem .latestMetrics "n1" [20]]).Intact id := by
  refine (merge_intact_iff (allIncreasing_oneSeries (by decide)) _).2 (fun seen msg hprefix => ?_) _
    List.prefix_rfl
  obtain ⟨rfl, rfl⟩ : seen = [] ∧ msg = oneItem .latestMetrics "n1" [20] := by
    obtain ⟨rest, hrest⟩ := hprefix
    cases seen with
    | nil => exact ⟨rfl, (List.cons.inj hrest).1⟩
    | cons m seen => simp at hrest
  have hitems : (oneItem .latestMetrics "n1" [20]).items = [⟨true, "flops", "n1", [20]⟩] := by
    decide +kernel
  intro before item after hsplit
  rw [hitems] at hsplit
  cases before with
  | cons b before => simp at hsplit
  | nil =>
    obtain ⟨rfl, -⟩ := List.cons.inj hsplit
    have hmatch : FirstMatch [oneSeries [0, 10]] "flops" [] (oneSeries [0, 10]) [] :=
      ⟨rfl, by simp, rfl⟩
    refine (fits_of_match_iff hmatch).2 ⟨⟨[some 0, some 10], by decide, by decide, ?_⟩, by simp⟩
    simp

/-- The last point delivered again is there twice, and a key that is not there makes the
merge throw. -/
theorem merge_not_intact :
    ¬(received [oneSeries [0, 10]] [oneItem .latestMetrics "n1" [10]]).Intact id ∧
      (received [oneSeries [0, 10]] [oneItem .latestMetrics "n2" [20]]).failed = true := by
  constructor
  · intro h
    have htwice : (received [oneSeries [0, 10]] [oneItem .latestMetrics "n1" [10]]).metrics.map
        (fun metric => metric.data.lookup "n1") = [some ([0, 10, 10].map some)] := by
      decide +kernel
    obtain ⟨metric, hmetric, hlookup⟩ := List.mem_map.1 (htwice ▸ List.mem_singleton.2 rfl)
    have hseries := LiveMetric.allIncreasing_iff.1 (h.increasing metric hmetric) _ _ hlookup
    rw [increasing_map_some_iff] at hseries
    revert hseries
    decide
  · decide +kernel

end LiveData

end JobMon
