import JobMon.Lib.Tiling
import JobMon.Frontend.LiveMerge

/-!
# Paging back through a running job

The end of `useGetJobData` of `pages/job/[id].tsx`: while the job is running, a websocket brings
the latest values, and when the page is to start earlier than what it has, the hook asks for
the part that is missing.

* `effects` — the two effects that follow the start time; `step` — renders, the websocket and
  its messages, of which a render merges the last one.
* `Answers` — what the answers of the backend are taken to be.
* `Shown` — the invariant: the windows asked for lie side by side, and the series do not
  reach below those that have not been answered.
* `paging_back` — **nothing twice, nothing unasked**: in every run the series are intact, and
  every second back to the start of the page has been asked for once.
-/

namespace JobMon

open Keyed Runs Tiling

variable {P : Type}

namespace LiveWindow

/-! ## The hook -/

/-- `readyState` of a websocket. -/
inductive Socket
  | connecting
  | open
  | closed
  deriving DecidableEq

/-- `WSLoadMetricsMsg`; an infinite stop time is written as `null`. -/
structure WSLoadMetricsMsg where
  startTime : ℤ
  stopTime : Option ℤ
  deriving DecidableEq

/-- `Math.round(t / 1000)`. -/
def seconds (t : Date) : ℤ := (t + 500) / 1000

/-- The hook and its websocket. -/
structure State (P : Type) where
  /-- The start of the page. -/
  timeStart : Option Date := none
  /-- `Infinity` at first. -/
  curLiveWindowStart : Option Date := none
  ws : Option Socket := none
  lastMessage : Option (WSMsg P) := none
  jobData : LiveData P
  /-- Where the live window started at first. -/
  liveFrom : Option Date := none
  /-- What has been sent, what of it waits for an answer, what `lastMessage` answers, and what
  became of the rest: the oldest first. -/
  sent : List WSLoadMetricsMsg := []
  outstanding : List WSLoadMetricsMsg := []
  received : List WSLoadMetricsMsg := []
  merged : List WSLoadMetricsMsg := []
  lost : List WSLoadMetricsMsg := []

namespace State

variable (s : State P)

/-- `ws.send`. -/
def send (msg : WSLoadMetricsMsg) : State P :=
  { s with sent := s.sent ++ [msg], outstanding := s.outstanding ++ [msg] }

/-- The two effects that depend on `timeStart` and `curLiveWindowStart`.  Both see the values of
the render they belong to. -/
def effects : State P :=
  match s.timeStart with
  | none => s
  | some t =>
    if t = 0 then s
    else
      match s.curLiveWindowStart with
      | none =>
        let s' := { s with curLiveWindowStart := some t, liveFrom := some t }
        if s.ws = some .open then s'.send { startTime := seconds t, stopTime := none } else s'
      | some cur =>
        if s.ws = some .open ∧ t < cur then
          { s with curLiveWindowStart := some t }.send
            { startTime := seconds t, stopTime := some (seconds cur) }
        else s

/-- The connection is gone, and with it the answers to come. -/
def disconnect (ws : Option Socket) : State P :=
  { s with ws, outstanding := [], lost := s.lost ++ s.outstanding }

/-- A message takes the place of the last one, merged or not. -/
def receive (msg : WSMsg P) (answers : List WSLoadMetricsMsg) : State P :=
  { s with lastMessage := some msg, received := answers, lost := s.lost ++ s.received }

end State

/-- What happens next. -/
inductive Event (P : Type)
  /-- The start of the page changes. -/
  | setStartTime (t : Option Date)
  /-- A websocket is registered; it may be open by the time the effects run. -/
  | register (ws : Socket)
  | opened
  | closed
  | unregister
  /-- The backend answers the oldest message, or it fails to. -/
  | respond
  | refuse
  | latest (metricData : List (String × Map String (List P)))
  /-- A render with a new message. -/
  | merge

/-- One event; `answer` is what the backend sends for a window, a missing stop being zero. -/
def step (answer : ℤ → ℤ → List (String × Map String (List P))) (s : State P) :
    Event P → Option (State P)
  | .setStartTime t => if t = s.timeStart then some s else some { s with timeStart := t }.effects
  | .register ws => some (s.disconnect (some ws)).effects
  | .opened => if s.ws = some .connecting then some { s with ws := some .open } else none
  | .closed => if s.ws = none then none else some (s.disconnect (some .closed))
  | .unregister => some (s.disconnect none)
  | .respond =>
    match s.outstanding with
    | [] => none
    | m :: ms =>
      some ({ s with outstanding := ms }.receive
        { type := .loadMetricsResponse
          metricData := answer m.startTime (m.stopTime.getD 0) } [m])
  | .refuse =>
    match s.outstanding with
    | [] => none
    | m :: ms => some { s with outstanding := ms, lost := s.lost ++ [m] }
  | .latest metricData =>
    if s.ws = some .open then some (s.receive { type := .latestMetrics, metricData } []) else none
  | .merge =>
    s.lastMessage.map fun msg =>
      { s with
        lastMessage := none
        jobData := s.jobData.mergeMessage msg
        merged := s.merged ++ s.received
        received := [] }

/-- The hook when the job has been loaded. -/
def loaded (metrics : List (LiveMetric P)) : State P := { jobData := LiveData.loaded metrics }

/-! ## What is asked for -/

/-- The window of a message. -/
def window (m : WSLoadMetricsMsg) : Option (ℤ × ℤ) := m.stopTime.map fun stop => (m.startTime, stop)

/-- The windows of messages. -/
def windows (ms : List WSLoadMetricsMsg) : List (ℤ × ℤ) := ms.filterMap window

/-- The messages that have been sent, by what became of them. -/
def State.accounted (s : State P) : List WSLoadMetricsMsg :=
  s.merged ++ s.received ++ s.lost ++ s.outstanding

theorem seconds_mono {t t' : Date} (h : t ≤ t') : seconds t ≤ seconds t' := by
  exact Int.ediv_le_ediv (by decide) (Int.add_le_add_right h 500)

/-- A render that follows changes nothing more. -/
theorem effects_effects (s : State P) : s.effects.effects = s.effects := by
  unfold State.effects
  cases ht : s.timeStart with
  | none => simp [ht]
  | some t =>
    by_cases hzero : t = 0
    · simp [ht, hzero]
    · cases hcur : s.curLiveWindowStart with
      | none =>
        by_cases hopen : s.ws = some .open
        · simp [hzero, hopen, State.send]
        · simp [hzero, hopen]
      | some cur =>
        by_cases hask : s.ws = some .open ∧ t < cur
        · simp [hzero, hask, State.send]
        · simp [hzero, hask, ht, hcur]

/-! ## Messages that fit -/

section Merging

variable [DecidableEq P] {time : P → Date} {s s' : LiveData P} {item : WSItem P}
  {items : List (WSItem P)}

/-- The series are those there were, and what the messages have brought for them. -/
structure Grown (items : List (WSItem P)) (s s' : LiveData P) : Prop where
  measurements : s'.metrics.map LiveMetric.measurement = s.metrics.map LiveMetric.measurement
  delivered : ∀ δ, δ ∈ s'.delivered ↔ δ ∈ s.delivered ∨
    ∃ item ∈ items, ∃ p ∈ item.points, δ = (item.measurement, item.key, p)
  series : ∀ m' ∈ s'.metrics, ∃ m ∈ s.metrics, m.measurement = m'.measurement ∧
    (∀ key, m.data.lookup key ≠ none → m'.data.lookup key ≠ none) ∧
    ∀ key q, m'.Holds key q → m.Holds key q ∨
      ∃ item ∈ items, item.measurement = m'.measurement ∧ item.key = key ∧ q ∈ item.points

omit [DecidableEq P] in
theorem grown_refl (s : LiveData P) : Grown [] s s where
  measurements := rfl
  delivered δ := by simp
  series m hm := ⟨m, hm, rfl, fun _ h => h, fun _ _ h => .inl h⟩

omit [DecidableEq P] in
theorem Grown.cons {s'' : LiveData P} (h : Grown [item] s s') (h' : Grown items s' s'') :
    Grown (item :: items) s s'' where
  measurements := h'.measurements.trans h.measurements
  delivered δ := by
    rw [h'.delivered, h.delivered]
    simp [or_assoc]
  series m'' hm'' := by
    obtain ⟨m', hm', hname', hkeys', hseries'⟩ := h'.series m'' hm''
    obtain ⟨m, hm, hname, hkeys, hseries⟩ := h.series m' hm'
    refine ⟨m, hm, hname.trans hname', fun key hkey => hkeys' key (hkeys key hkey), ?_⟩
    intro key q hq
    rcases hseries' key q hq with hold | ⟨i, hi, hnew⟩
    · rcases hseries key q hold with hold | ⟨i, hi, hnew⟩
      · exact .inl hold
      · rw [List.mem_singleton.1 hi] at hnew
        exact .inr ⟨item, List.mem_cons_self, hnew.1.trans hname', hnew.2⟩
    · exact .inr ⟨i, List.mem_cons_of_mem _ hi, hnew⟩

/-- The points of an item are in order, and fit the series they are for. -/
structure FitsIn (time : P → Date) (s : LiveData P) (item : WSItem P) : Prop where
  increasing : item.points.Pairwise fun p q => time p < time q
  known : ∀ m ∈ s.metrics, m.measurement = item.measurement → m.data.lookup item.key ≠ none
  beside : ∀ m ∈ s.metrics, m.measurement = item.measurement → ∀ q, m.Holds item.key q →
    ∀ p ∈ item.points, if item.latest then time q < time p else time p < time q

/-- One series merged. -/
theorem mergeItem_of_fitsIn (hs : s.Intact time)
    (hnodup : (s.metrics.map LiveMetric.measurement).Nodup) (hfits : FitsIn time s item) :
    (s.mergeItem item).Intact time ∧ Grown [item] s (s.mergeItem item) := by
  rcases LiveData.match_cases s.metrics item.measurement with hne | ⟨before, d, after, hmatch⟩
  · -- no metric has the measurement
    rw [LiveData.mergeItem_of_no_match hs.not_failed hne]
    refine ⟨LiveData.intact_deliver hs hne, rfl, fun δ => ?_, fun m hm => ?_⟩
    · simpa using LiveData.mem_deliver_iff
    exact ⟨m, hm, rfl, fun _ h => h, fun _ _ h => .inl h⟩
  have hd : d ∈ s.metrics := by
    rw [hmatch.metrics_eq]
    simp
  have hintact : (s.mergeItem item).Intact time := by
    refine (LiveData.intact_mergeItem_iff hs).2 ((LiveData.fits_of_match_iff hmatch).2 ⟨?_, ?_⟩)
    · obtain ⟨series, hseries⟩ := Option.ne_none_iff_exists'.1 (hfits.known d hd hmatch.found)
      refine ⟨series, hseries, hfits.increasing, fun q hq p hp => ?_⟩
      exact hfits.beside d hd hmatch.found q ⟨series, hseries, hq⟩ p hp
    · -- there is no other metric with the measurement
      intro m hm hmeasurement
      rw [hmatch.metrics_eq, List.map_append, List.map_cons, List.nodup_append,
        List.nodup_cons] at hnodup
      have hfound : m.measurement = d.measurement := hmeasurement.trans hmatch.found.symm
      exact absurd (List.mem_map.2 ⟨m, hm, hfound⟩) hnodup.2.1.1
  refine ⟨hintact, ?_⟩
  rcases LiveData.mergeItem_of_match hs.not_failed hmatch with ⟨-, hfailed⟩ | ⟨d', hmerge, heq⟩
  · rw [hintact.not_failed] at hfailed
    cases hfailed
  have hname := LiveMetric.measurement_of_merge hmerge
  rw [heq]
  refine ⟨?_, fun δ => ?_, fun m' hm' => ?_⟩
  · rw [hmatch.metrics_eq]
    simp [hname]
  · simpa using LiveData.mem_deliver_iff
  rcases LiveData.mem_changed (d := d) hm' with hold | rfl
  · rw [← hmatch.metrics_eq] at hold
    exact ⟨m', hold, rfl, fun _ h => h, fun _ _ h => .inl h⟩
  refine ⟨d, hd, hname.symm, fun key hkey => ?_, fun key q hq => ?_⟩
  · by_cases hsame : key = item.key
    · obtain ⟨series, hjoin, -⟩ := LiveMetric.lookup_key_of_merge hmerge
      rw [hsame, hjoin]
      simp
    · rwa [LiveMetric.lookup_of_merge hmerge hsame]
  · obtain ⟨series, hlookup, hq⟩ := hq
    by_cases hsame : key = item.key
    · subst hsame
      obtain ⟨series', hjoin, hseries'⟩ := LiveMetric.lookup_key_of_merge hmerge
      rw [hjoin] at hlookup
      obtain rfl := Option.some.inj hlookup
      rcases WSItem.mem_join_iff.1 hq with hnew | hold
      · exact .inr ⟨item, List.mem_singleton_self _, hmatch.found.symm.trans hname.symm, rfl, hnew⟩
      · rcases hseries' with hseries' | ⟨hnone, -⟩
        · exact .inl ⟨series', hseries', hold⟩
        · exact absurd hnone (hfits.known d hd hmatch.found)
    · rw [LiveMetric.lookup_of_merge hmerge hsame] at hlookup
      exact .inl ⟨series, hlookup, hq⟩

/-- **Several series**, each of them once. -/
theorem foldl_of_fitsIn (hs : s.Intact time)
    (hnodup : (s.metrics.map LiveMetric.measurement).Nodup)
    (hitems : (items.map fun i => (i.measurement, i.key)).Nodup)
    (hfits : ∀ item ∈ items, FitsIn time s item) :
    (items.foldl LiveData.mergeItem s).Intact time ∧
      Grown items s (items.foldl LiveData.mergeItem s) := by
  induction items generalizing s with
  | nil => exact ⟨hs, grown_refl s⟩
  | cons item items ih =>
    obtain ⟨hfirst, hrest⟩ := List.forall_mem_cons.1 hfits
    obtain ⟨hintact, hgrown⟩ := mergeItem_of_fitsIn hs hnodup hfirst
    rw [List.map_cons, List.nodup_cons] at hitems
    -- the series of the other items have not changed
    have hnext : ∀ i ∈ items, FitsIn time (s.mergeItem item) i := by
      intro i hi
      refine ⟨(hrest i hi).increasing, fun m' hm' hname => ?_, fun m' hm' hname q hq => ?_⟩
      · obtain ⟨m, hm, hsame, hkeys, -⟩ := hgrown.series m' hm'
        exact hkeys _ ((hrest i hi).known m hm (hsame.trans hname))
      · obtain ⟨m, hm, hsame, -, hseries⟩ := hgrown.series m' hm'
        rcases hseries _ q hq with hold | ⟨i', hi', hname', hkey, -⟩
        · exact (hrest i hi).beside m hm (hsame.trans hname) q hold
        · have heq := List.mem_singleton.1 hi'
          subst heq
          refine absurd (List.mem_map.2 ⟨i, hi, ?_⟩) hitems.1
          rw [hname', hkey, hname]
    obtain ⟨hintact', hgrown'⟩ := ih hintact (hgrown.measurements ▸ hnodup) hitems.2 hnext
    exact ⟨hintact', hgrown.cons hgrown'⟩

end Merging

/-! ## What the backend sends -/

section Deliveries

variable {time : P → Date} {metricData : List (String × Map String (List P))}

/-- Every metric once, and its series in order. -/
structure Delivery (time : P → Date) (metricData : List (String × Map String (List P))) : Prop where
  distinct : (metricData.map Prod.fst).Nodup
  increasing : ∀ r ∈ metricData, ∀ row ∈ r.2.rows, row.2.Pairwise fun p q => time p < time q

/-- The answer for a window has the points after its start, up to its stop. -/
structure Answers (time : P → Date) (answer : ℤ → ℤ → List (String × Map String (List P))) :
    Prop where
  delivery : ∀ start stop, Delivery time (answer start stop)
  within : ∀ start stop, ∀ r ∈ answer start stop, ∀ row ∈ r.2.rows, ∀ p ∈ row.2,
    1000 * start < time p ∧ time p ≤ 1000 * stop

/-- The series are those of metrics that have been loaded. -/
def KnownIn (metrics : List (LiveMetric P)) (metricData : List (String × Map String (List P))) :
    Prop :=
  ∀ r ∈ metricData, ∀ m ∈ metrics, m.measurement = r.1 → ∀ row ∈ r.2.rows,
    m.data.lookup row.1 ≠ none

/-- New values: later than those that are shown, and than the start of the live window. -/
structure Newer (time : P → Date) (liveFrom : ℤ) (data : LiveData P)
    (metricData : List (String × Map String (List P))) : Prop where
  delivery : Delivery time metricData
  after : ∀ r ∈ metricData, ∀ row ∈ r.2.rows, ∀ p ∈ row.2, liveFrom < time p
  later : ∀ r ∈ metricData, ∀ m ∈ data.metrics, m.measurement = r.1 → ∀ row ∈ r.2.rows,
    ∀ q, m.Holds row.1 q → ∀ p ∈ row.2, time q < time p

/-- Where the items of a message come from. -/
theorem mem_items {msg : WSMsg P} {item : WSItem P} (h : item ∈ msg.items) :
    ∃ r ∈ msg.metricData, ∃ row ∈ r.2.rows,
      item = { latest := msg.type = .latestMetrics, measurement := r.1, key := row.1
               points := row.2 } := by
  unfold WSMsg.items at h
  split at h
  · obtain ⟨r, hr, hitem⟩ := List.mem_flatMap.1 h
    obtain ⟨key, hkey, rfl⟩ := List.mem_map.1 hitem
    obtain ⟨row, hrow, rfl⟩ := List.mem_map.1 ((Charts.objectKeys_perm r.2).mem_iff.1 hkey)
    refine ⟨r, hr, row, hrow, ?_⟩
    rw [Map.lookup_eq_some_iff.2 hrow, Option.getD_some]
  · cases h

/-- Every series of a message that is merged is an item. -/
theorem item_of_row {msg : WSMsg P} (htype : msg.type = .loadMetricsResponse ∨
    msg.type = .latestMetrics) {r : String × Map String (List P)} (hr : r ∈ msg.metricData)
    {row : String × List P} (hrow : row ∈ r.2.rows) :
    ∃ item ∈ msg.items, item.measurement = r.1 ∧ item.key = row.1 ∧ item.points = row.2 := by
  have hkey : row.1 ∈ Charts.objectKeys r.2 :=
    (Charts.objectKeys_perm r.2).mem_iff.2 (List.mem_map_of_mem hrow)
  refine ⟨{ latest := msg.type = .latestMetrics, measurement := r.1, key := row.1
            points := (r.2.lookup row.1).getD [] }, ?_, rfl, rfl, ?_⟩
  · rw [WSMsg.items, if_pos htype]
    exact List.mem_flatMap.2 ⟨r, hr, List.mem_map.2 ⟨row.1, hkey, rfl⟩⟩
  · rw [Map.lookup_eq_some_iff.2 hrow, Option.getD_some]

/-- Every series is there once. -/
theorem nodup_items {msg : WSMsg P} (h : (msg.metricData.map Prod.fst).Nodup) :
    (msg.items.map fun i => (i.measurement, i.key)).Nodup := by
  unfold WSMsg.items
  split
  · rw [List.map_flatMap, List.nodup_flatMap]
    constructor
    · intro r _
      rw [List.map_map]
      have hkeys : (Charts.objectKeys r.2).Nodup :=
        (Charts.objectKeys_perm r.2).nodup_iff.2 r.2.nodup
      exact hkeys.map fun a b hab => (Prod.mk.inj hab).2
    · refine (List.pairwise_map.1 h).imp fun {r r'} hne => ?_
      intro x hx hx'
      simp only [List.map_map, List.mem_map] at hx hx'
      obtain ⟨key, -, rfl⟩ := hx
      obtain ⟨key', -, heq⟩ := hx'
      exact hne (Prod.mk.inj heq).1.symm
  · exact List.nodup_nil

end Deliveries

/-! ## The invariant -/

section Invariant

variable [DecidableEq P] {time : P → Date} {liveFrom hi : ℤ} {metrics : List (LiveMetric P)}
  {s s' : State P} {data : LiveData P}
  {answer : ℤ → ℤ → List (String × Map String (List P))}

/-- All points of the series are later. -/
def After (time : P → Date) (data : LiveData P) (lo : ℤ) : Prop :=
  ∀ m ∈ data.metrics, ∀ key q, m.Holds key q → lo < time q

/-- The metrics are those that were loaded, and have the series these had. -/
structure Extends (metrics : List (LiveMetric P)) (data : LiveData P) : Prop where
  measurements : data.metrics.map LiveMetric.measurement = metrics.map LiveMetric.measurement
  keys : ∀ m' ∈ data.metrics, ∃ m ∈ metrics, m.measurement = m'.measurement ∧
    ∀ key, m.data.lookup key ≠ none → m'.data.lookup key ≠ none

/-- What `lastMessage` is: new values, or an answer. -/
def LastMessage (time : P → Date) (liveFrom : ℤ) (metrics : List (LiveMetric P))
    (answer : ℤ → ℤ → List (String × Map String (List P))) (s : State P) (msg : WSMsg P) : Prop :=
  msg.type = .latestMetrics ∧ s.received = [] ∧ KnownIn metrics msg.metricData ∧
      Newer time liveFrom s.jobData msg.metricData ∨
    msg.type = .loadMetricsResponse ∧ ∃ m, s.received = [m] ∧
      msg.metricData = answer m.startTime (m.stopTime.getD 0)

/-- The windows that have not been merged lie between the data and the live window. -/
structure Floor (time : P → Date) (s : State P) (hi : ℤ) : Prop where
  after : After time s.jobData (1000 * hi)
  descends : ∀ cur, s.curLiveWindowStart = some cur →
    Descends hi (windows (s.received ++ s.outstanding)) (seconds cur)

/-- **The invariant.** -/
structure Shown (time : P → Date) (liveFrom : ℤ) (metrics : List (LiveMetric P))
    (answer : ℤ → ℤ → List (String × Map String (List P))) (s : State P) : Prop where
  intact : s.jobData.Intact time
  grown : Extends metrics s.jobData
  last : ∀ msg, s.lastMessage = some msg → LastMessage time liveFrom metrics answer s msg
  /-- Nothing has been asked for, or the windows that have lie side by side. -/
  start : s.curLiveWindowStart = none → s.sent = [] ∧ s.received = [] ∧ s.outstanding = [] ∧
    After time s.jobData liveFrom
  asked : ∀ cur, s.curLiveWindowStart = some cur → ∃ first, s.liveFrom = some first ∧
    Tiles (seconds first) (windows s.sent) (seconds cur)
  floor : s.curLiveWindowStart ≠ none → ∃ hi, 1000 * hi ≤ liveFrom ∧ Floor time s hi
  /-- A message without a stop has no points. -/
  endless : ∀ m ∈ s.received ++ s.outstanding, m.stopTime = none → 0 ≤ m.startTime
  accounted : s.accounted.Perm s.sent
  delivered : ∀ m ∈ s.merged, ∀ r ∈ answer m.startTime (m.stopTime.getD 0), ∀ row ∈ r.2.rows,
    ∀ p ∈ row.2, (r.1, row.1, p) ∈ s.jobData.delivered

/-- The live window has a start as soon as the page has one. -/
def Settled (s : State P) : Prop :=
  s.curLiveWindowStart = none → s.timeStart = none ∨ s.timeStart = some 0

omit [DecidableEq P] in
/-- **What the effects do**: nothing, begin the live window, or ask for what lies before it. -/
theorem effects_cases (s : State P) :
    s.effects = s ∧ Settled s ∨
    (∃ t, s.timeStart = some t ∧ t ≠ 0 ∧ s.curLiveWindowStart = none ∧
      (s.effects = { s with curLiveWindowStart := some t, liveFrom := some t } ∨
        s.effects = State.send { s with curLiveWindowStart := some t, liveFrom := some t }
          { startTime := seconds t, stopTime := none })) ∨
    ∃ t cur, s.timeStart = some t ∧ s.curLiveWindowStart = some cur ∧ t < cur ∧
      s.effects = State.send { s with curLiveWindowStart := some t }
        { startTime := seconds t, stopTime := some (seconds cur) } := by
  unfold State.effects
  split
  · rename_i ht
    exact .inl ⟨rfl, fun _ => .inl ht⟩
  · rename_i t ht
    by_cases hzero : t = 0
    · rw [if_pos hzero]
      exact .inl ⟨rfl, fun _ => .inr (ht.trans (congrArg some hzero))⟩
    rw [if_neg hzero]
    split
    · rename_i hcur
      refine .inr (.inl ⟨t, ht, hzero, hcur, ?_⟩)
      by_cases hopen : s.ws = some .open
      · exact .inr (if_pos hopen)
      · exact .inl (if_neg hopen)
    · rename_i cur hcur
      by_cases hask : s.ws = some .open ∧ t < cur
      · rw [if_pos hask]
        exact .inr (.inr ⟨t, cur, ht, hcur, hask.2, rfl⟩)
      · rw [if_neg hask]
        refine .inl ⟨rfl, fun hnone => ?_⟩
        rw [hcur] at hnone
        cases hnone

omit [DecidableEq P] in
theorem settled_effects (s : State P) : Settled s.effects := by
  rcases effects_cases s with ⟨heq, hsettled⟩ | ⟨t, -, -, -, heq | heq⟩ | ⟨t, cur, -, -, -, heq⟩
  · rwa [heq]
  all_goals
    rw [heq]
    exact fun hnone => by cases hnone

omit [DecidableEq P] in
theorem windows_append (ms ms' : List WSLoadMetricsMsg) :
    windows (ms ++ ms') = windows ms ++ windows ms' := List.filterMap_append

/-- One more message, for a window below those that have been asked for. -/
theorem shown_ask {cur t : Date} (h : Shown time liveFrom metrics answer s)
    (hcur : s.curLiveWindowStart = some cur) (hlt : t < cur) :
    Shown time liveFrom metrics answer
      (State.send { s with curLiveWindowStart := some t }
        { startTime := seconds t, stopTime := some (seconds cur) }) where
  intact := h.intact
  grown := h.grown
  last := h.last
  start hnone := by cases hnone
  asked cur' hcur' := by
    cases hcur'
    obtain ⟨first, hfirst, htiles⟩ := h.asked cur hcur
    refine ⟨first, hfirst, ?_⟩
    show Tiles _ (windows (s.sent ++ [_])) _
    rw [windows_append]
    exact htiles.snoc (seconds_mono hlt.le)
  floor _ := by
    obtain ⟨hi, hle, hfloor⟩ := h.floor (by rw [hcur]; simp)
    refine ⟨hi, hle, hfloor.after, fun cur' hcur' => ?_⟩
    cases hcur'
    show Descends hi (windows (s.received ++ (s.outstanding ++ [_]))) _
    rw [← List.append_assoc, windows_append]
    exact (hfloor.descends cur hcur).snoc (seconds_mono hlt.le)
  endless m hm hnone := by
    have hm' : m ∈ s.received ++ (s.outstanding ++ [_]) := hm
    rw [← List.append_assoc, List.mem_append, List.mem_singleton] at hm'
    rcases hm' with hm' | rfl
    · exact h.endless m hm' hnone
    · cases hnone
  accounted := by
    show (s.merged ++ s.received ++ s.lost ++ (s.outstanding ++ [_])).Perm (s.sent ++ [_])
    rw [← List.append_assoc]
    exact h.accounted.append_right _
  delivered := h.delivered

/-- The live window starts with the page. -/
theorem shown_begin {t : Date} (h : Shown time liveFrom metrics answer s)
    (hcur : s.curLiveWindowStart = none) (hle : 1000 * seconds t ≤ liveFrom) :
    Shown time liveFrom metrics answer { s with curLiveWindowStart := some t, liveFrom := some t }
    where
  intact := h.intact
  grown := h.grown
  last := h.last
  start hnone := by cases hnone
  asked cur hcur' := by
    cases hcur'
    refine ⟨t, rfl, ?_⟩
    show Tiles _ (windows s.sent) _
    rw [(h.start hcur).1]
    rfl
  floor _ := by
    obtain ⟨-, hreceived, houtstanding, hafter⟩ := h.start hcur
    refine ⟨seconds t, hle, fun m hm key q hq => hle.trans_lt (hafter m hm key q hq), ?_⟩
    intro cur hcur'
    cases hcur'
    show Descends _ (windows (s.received ++ s.outstanding)) _
    rw [hreceived, houtstanding]
    exact le_refl _
  endless := h.endless
  accounted := h.accounted
  delivered := h.delivered

theorem windows_endless {t : ℤ} : windows [{ startTime := t, stopTime := none }] = [] := rfl

/-- A message without a stop. -/
theorem shown_askEndless {t : ℤ} (h : Shown time liveFrom metrics answer s)
    (hcur : s.curLiveWindowStart ≠ none) (ht : 0 ≤ t) :
    Shown time liveFrom metrics answer (s.send { startTime := t, stopTime := none }) where
  intact := h.intact
  grown := h.grown
  last := h.last
  start hnone := absurd hnone hcur
  asked cur hcur' := by
    obtain ⟨first, hfirst, htiles⟩ := h.asked cur hcur'
    refine ⟨first, hfirst, ?_⟩
    show Tiles _ (windows (s.sent ++ [_])) _
    rw [windows_append, windows_endless, List.append_nil]
    exact htiles
  floor _ := by
    obtain ⟨hi, hle, hfloor⟩ := h.floor hcur
    refine ⟨hi, hle, hfloor.after, fun cur hcur' => ?_⟩
    have hdescends := hfloor.descends cur hcur'
    show Descends hi (windows (s.received ++ (s.outstanding ++ [_]))) _
    rw [← List.append_assoc, windows_append, windows_endless, List.append_nil]
    exact hdescends
  endless m hm hnone := by
    have hm' : m ∈ s.received ++ (s.outstanding ++ [_]) := hm
    rw [← List.append_assoc, List.mem_append, List.mem_singleton] at hm'
    rcases hm' with hm' | rfl
    · exact h.endless m hm' hnone
    · exact ht
  accounted := by
    show (s.merged ++ s.received ++ s.lost ++ (s.outstanding ++ [_])).Perm (s.sent ++ [_])
    rw [← List.append_assoc]
    exact h.accounted.append_right _
  delivered := h.delivered

/-- **The effects** keep the invariant. -/
theorem shown_effects (h : Shown time liveFrom metrics answer s)
    (hstart : s.curLiveWindowStart = none → ∀ t, s.timeStart = some t → t ≠ 0 →
      0 ≤ t ∧ 1000 * seconds t ≤ liveFrom) : Shown time liveFrom metrics answer s.effects := by
  rcases effects_cases s with
    ⟨heq, -⟩ | ⟨t, ht, hzero, hcur, heffects⟩ | ⟨t, cur, -, hcur, hlt, heq⟩
  · rwa [heq]
  · obtain ⟨hpos, hle⟩ := hstart hcur t ht hzero
    have hbegun := shown_begin h hcur hle
    have hseconds : 0 ≤ seconds t := seconds_mono hpos
    rcases heffects with heq | heq
    · rwa [heq]
    · rw [heq]
      exact shown_askEndless hbegun (fun hnone => by cases hnone) hseconds
  · rw [heq]
    exact shown_ask h hcur hlt

/-! ## The messages -/

omit [DecidableEq P] in
/-- What is left of the windows still lies below. -/
theorem Floor.sublist {hi : ℤ} (h : Floor time s hi) {s' : State P} (hdata : s'.jobData = s.jobData)
    (hcur : s'.curLiveWindowStart = s.curLiveWindowStart)
    (hsub : (s'.received ++ s'.outstanding).Sublist (s.received ++ s.outstanding)) :
    Floor time s' hi where
  after := by
    rw [hdata]
    exact h.after
  descends cur hcur' := by
    rw [hcur] at hcur'
    exact (h.descends cur hcur').sublist (hsub.filterMap window)

/-- Answers that will not come, and a last message that takes the place of another. -/
theorem shown_drop {lastMessage : Option (WSMsg P)} {ws : Option Socket}
    {received outstanding lost : List WSLoadMetricsMsg} (h : Shown time liveFrom metrics answer s)
    (hlast : ∀ msg, lastMessage = some msg → LastMessage time liveFrom metrics answer
      { s with received } msg)
    (hsub : (received ++ outstanding).Sublist (s.received ++ s.outstanding))
    (hperm : (s.merged ++ received ++ lost ++ outstanding).Perm s.accounted) :
    Shown time liveFrom metrics answer
      { s with lastMessage, ws, received, outstanding, lost } where
  intact := h.intact
  grown := h.grown
  last := hlast
  start hnone := by
    obtain ⟨hsent, hreceived, houtstanding, hafter⟩ := h.start hnone
    rw [hreceived, houtstanding, List.append_nil] at hsub
    have hempty := List.append_eq_nil_iff.1 (List.sublist_nil.1 hsub)
    exact ⟨hsent, hempty.1, hempty.2, hafter⟩
  asked := h.asked
  floor hcur := by
    obtain ⟨hi, hle, hfloor⟩ := h.floor hcur
    exact ⟨hi, hle, hfloor.sublist rfl rfl hsub⟩
  endless m hm hnone := h.endless m (hsub.subset hm) hnone
  accounted := hperm.trans h.accounted
  delivered := h.delivered

theorem shown_disconnect (h : Shown time liveFrom metrics answer s) (ws : Option Socket) :
    Shown time liveFrom metrics answer (s.disconnect ws) := by
  refine shown_drop h h.last ?_ ?_
  · rw [List.append_nil]
    exact List.sublist_append_left _ _
  · rw [State.accounted, List.append_nil, ← List.append_assoc]

theorem shown_refuse (h : Shown time liveFrom metrics answer s) {m : WSLoadMetricsMsg}
    {ms : List WSLoadMetricsMsg} (hms : s.outstanding = m :: ms) :
    Shown time liveFrom metrics answer { s with outstanding := ms, lost := s.lost ++ [m] } := by
  refine shown_drop h h.last ?_ ?_
  · rw [hms]
    exact (List.sublist_cons_self m ms).append_left _
  · rw [State.accounted, hms]
    simp

theorem shown_respond (h : Shown time liveFrom metrics answer s) {m : WSLoadMetricsMsg}
    {ms : List WSLoadMetricsMsg} (hms : s.outstanding = m :: ms) :
    Shown time liveFrom metrics answer
      (State.receive { s with outstanding := ms }
        { type := .loadMetricsResponse
          metricData := answer m.startTime (m.stopTime.getD 0) } [m]) := by
  have hdrop : Shown time liveFrom metrics answer
      { s with
        lastMessage := some
          { type := .loadMetricsResponse, metricData := answer m.startTime (m.stopTime.getD 0) }
        received := [m]
        outstanding := ms
        lost := s.lost ++ s.received } := by
    refine shown_drop h (fun msg hmsg => ?_) ?_ ?_
    · cases hmsg
      exact .inr ⟨rfl, m, rfl, rfl⟩
    · rw [hms]
      exact List.sublist_append_right _ _
    · -- what was received has lost its place
      rw [State.accounted, hms, List.perm_iff_count]
      intro a
      simp only [List.count_append, List.count_cons, List.count_nil]
      omega
  exact hdrop

theorem shown_latest (h : Shown time liveFrom metrics answer s)
    {metricData : List (String × Map String (List P))} (hknown : KnownIn metrics metricData)
    (hnewer : Newer time liveFrom s.jobData metricData) :
    Shown time liveFrom metrics answer (s.receive { type := .latestMetrics, metricData } []) := by
  refine shown_drop h (fun msg hmsg => ?_) ?_ ?_
  · cases hmsg
    exact .inl ⟨rfl, rfl, hknown, hnewer⟩
  · exact List.sublist_append_right _ _
  · rw [State.accounted, List.perm_iff_count]
    intro a
    simp only [List.count_append, List.count_nil]
    omega

/-! ## The render with a message -/

omit [DecidableEq P] in
/-- The metrics of a message are known to the data. -/
theorem known_of_extends (h : Extends metrics data)
    {metricData : List (String × Map String (List P))} (hknown : KnownIn metrics metricData) :
    KnownIn data.metrics metricData := by
  intro r hr m' hm' hname row hrow
  obtain ⟨m, hm, hsame, hkeys⟩ := h.keys m' hm'
  exact hkeys _ (hknown r hr m hm (hsame.trans hname) row hrow)

omit [DecidableEq P] in
theorem extends_of_grown {items : List (WSItem P)} {data' : LiveData P}
    (h : Extends metrics data) (hgrown : Grown items data data') : Extends metrics data' where
  measurements := hgrown.measurements.trans h.measurements
  keys m'' hm'' := by
    obtain ⟨m', hm', hname', hkeys', -⟩ := hgrown.series m'' hm''
    obtain ⟨m, hm, hname, hkeys⟩ := h.keys m' hm'
    exact ⟨m, hm, hname.trans hname', fun key hkey => hkeys' key (hkeys key hkey)⟩

/-- A message whose series fit. -/
theorem mergeMessage_of_fits (h : Shown time liveFrom metrics answer s)
    (hnodup : (metrics.map LiveMetric.measurement).Nodup) {msg : WSMsg P}
    (hdelivery : Delivery time msg.metricData) (hknown : KnownIn metrics msg.metricData)
    (hbeside : ∀ r ∈ msg.metricData, ∀ m ∈ s.jobData.metrics, m.measurement = r.1 →
      ∀ row ∈ r.2.rows, ∀ q, m.Holds row.1 q → ∀ p ∈ row.2,
        if msg.type = .latestMetrics then time q < time p else time p < time q) :
    (s.jobData.mergeMessage msg).Intact time ∧
      Grown msg.items s.jobData (s.jobData.mergeMessage msg) := by
  refine foldl_of_fitsIn h.intact (h.grown.measurements ▸ hnodup)
    (nodup_items hdelivery.distinct) fun item hitem => ?_
  obtain ⟨r, hr, row, hrow, rfl⟩ := mem_items hitem
  refine ⟨hdelivery.increasing r hr row hrow, fun m hm hname => ?_, fun m hm hname q hq p hp => ?_⟩
  · exact known_of_extends h.grown hknown r hr m hm hname row hrow
  · simpa using hbeside r hr m hm hname row hrow q hq p hp

omit [DecidableEq P] in
/-- The data after a message: what there was, and the points of the message. -/
theorem after_of_grown {msg : WSMsg P} {lo : ℤ} {data' : LiveData P}
    (h : After time data lo) (hgrown : Grown msg.items data data')
    (hnew : ∀ r ∈ msg.metricData, ∀ row ∈ r.2.rows, ∀ p ∈ row.2, lo < time p) :
    After time data' lo := by
  intro m' hm' key q hq
  obtain ⟨m, hm, -, -, hseries⟩ := hgrown.series m' hm'
  rcases hseries key q hq with hold | ⟨item, hitem, -, -, hp⟩
  · exact h m hm key q hold
  · obtain ⟨r, hr, row, hrow, rfl⟩ := mem_items hitem
    exact hnew r hr row hrow q hp

/-- New values, at the end of the series. -/
theorem shown_mergeLatest (h : Shown time liveFrom metrics answer s)
    (hnodup : (metrics.map LiveMetric.measurement).Nodup) {msg : WSMsg P}
    (htype : msg.type = .latestMetrics) (hreceived : s.received = [])
    (hknown : KnownIn metrics msg.metricData)
    (hnewer : Newer time liveFrom s.jobData msg.metricData) :
    Shown time liveFrom metrics answer
      { s with
        lastMessage := none
        jobData := s.jobData.mergeMessage msg
        merged := s.merged ++ s.received
        received := [] } := by
  obtain ⟨hintact, hgrown⟩ := mergeMessage_of_fits h hnodup hnewer.delivery hknown
    (by simpa only [htype, if_true] using hnewer.later)
  rw [hreceived, List.append_nil]
  exact
    { intact := hintact
      grown := extends_of_grown h.grown hgrown
      last := fun _ hnone => by cases hnone
      start := fun hnone => by
        obtain ⟨hsent, -, houtstanding, hafter⟩ := h.start hnone
        exact ⟨hsent, rfl, houtstanding, after_of_grown hafter hgrown hnewer.after⟩
      asked := h.asked
      floor := fun hcur => by
        obtain ⟨hi, hle, hfloor⟩ := h.floor hcur
        have hdescends := hfloor.descends
        rw [hreceived] at hdescends
        refine ⟨hi, hle, after_of_grown hfloor.after hgrown fun r hr row hrow p hp => ?_, hdescends⟩
        exact hle.trans_lt (hnewer.after r hr row hrow p hp)
      endless := fun m hm => h.endless m (List.mem_append_right _ hm)
      accounted := by
        have haccounted := h.accounted
        rw [State.accounted, hreceived] at haccounted
        simpa [State.accounted] using haccounted
      delivered := fun m hm r hr row hrow p hp =>
        (hgrown.delivered _).2 (.inl (h.delivered m hm r hr row hrow p hp)) }

omit [DecidableEq P] in
/-- The answer for a window lies between a new floor and the old one. -/
theorem between_answer (hanswers : Answers time answer) {m : WSLoadMetricsMsg}
    {rest : List (ℤ × ℤ)} {cur : ℤ} (hendless : m.stopTime = none → 0 ≤ m.startTime)
    (hdescends : Descends hi (windows [m] ++ rest) cur) :
    ∃ lo, lo ≤ hi ∧
      (∀ r ∈ answer m.startTime (m.stopTime.getD 0), ∀ row ∈ r.2.rows, ∀ p ∈ row.2,
        1000 * lo < time p ∧ time p ≤ 1000 * hi) ∧
      Descends lo rest cur := by
  have hwithin := hanswers.within m.startTime (m.stopTime.getD 0)
  cases hstop : m.stopTime with
  | some stop =>
    have hwindow : windows [m] = [(m.startTime, stop)] := by simp [windows, window, hstop]
    rw [hwindow] at hdescends
    obtain ⟨hstophi, hstart, hrest⟩ := hdescends
    rw [hstop] at hwithin
    refine ⟨m.startTime, hstart.trans hstophi, fun r hr row hrow p hp => ?_, hrest⟩
    obtain ⟨habove, hbelow⟩ := hwithin r hr row hrow p hp
    exact ⟨habove, hbelow.trans (Int.mul_le_mul_of_nonneg_left hstophi (by decide))⟩
  | none =>
    -- without a stop there are no points
    have hwindow : windows [m] = [] := by simp [windows, window, hstop]
    rw [hwindow] at hdescends
    rw [hstop] at hwithin
    refine ⟨hi, le_refl hi, fun r hr row hrow p hp => ?_, hdescends⟩
    have hzero := hendless hstop
    obtain ⟨hlt, hge⟩ := hwithin r hr row hrow p hp
    have hempty : 1000 * m.startTime < 1000 * 0 := hlt.trans_le hge
    omega

/-- An answer, in front of the series. -/
theorem shown_mergeResponse (h : Shown time liveFrom metrics answer s)
    (hnodup : (metrics.map LiveMetric.measurement).Nodup) (hanswers : Answers time answer)
    (hknown : ∀ start stop, KnownIn metrics (answer start stop)) {msg : WSMsg P}
    {m : WSLoadMetricsMsg} (htype : msg.type = .loadMetricsResponse) (hreceived : s.received = [m])
    (hmsg : msg.metricData = answer m.startTime (m.stopTime.getD 0)) :
    Shown time liveFrom metrics answer
      { s with
        lastMessage := none
        jobData := s.jobData.mergeMessage msg
        merged := s.merged ++ s.received
        received := [] } := by
  have hcur : s.curLiveWindowStart ≠ none := by
    intro hnone
    obtain ⟨-, hempty, -⟩ := h.start hnone
    rw [hreceived] at hempty
    cases hempty
  obtain ⟨cur, hsome⟩ := Option.ne_none_iff_exists'.1 hcur
  obtain ⟨hi, hle, hfloor⟩ := h.floor hcur
  have hdescends := hfloor.descends cur hsome
  rw [hreceived, windows_append] at hdescends
  obtain ⟨lo, hlo, hbetween, hrest⟩ := between_answer hanswers
    (h.endless m (by simp [hreceived])) hdescends
  rw [← hmsg] at hbetween
  have hscaled : 1000 * lo ≤ 1000 * hi := Int.mul_le_mul_of_nonneg_left hlo (by decide)
  obtain ⟨hintact, hgrown⟩ := mergeMessage_of_fits h hnodup
    (hmsg ▸ hanswers.delivery m.startTime (m.stopTime.getD 0))
    (hmsg ▸ hknown m.startTime (m.stopTime.getD 0)) (by
      intro r hr m' hm' hname row hrow q hq p hp
      rw [htype, if_neg (by decide)]
      exact (hbetween r hr row hrow p hp).2.trans_lt (hfloor.after m' hm' _ q hq))
  have hafter : After time s.jobData (1000 * lo) := fun m' hm' key q hq =>
    hscaled.trans_lt (hfloor.after m' hm' key q hq)
  exact
    { intact := hintact
      grown := extends_of_grown h.grown hgrown
      last := fun _ hnone => by cases hnone
      start := fun hnone => absurd hnone hcur
      asked := h.asked
      floor := fun _ => by
        refine ⟨lo, hscaled.trans hle, after_of_grown hafter hgrown fun r hr row hrow p hp =>
          (hbetween r hr row hrow p hp).1, fun cur' hcur' => ?_⟩
        cases hsome.symm.trans hcur'
        exact hrest
      endless := fun m' hm' => h.endless m' (List.mem_append_right _ hm')
      accounted := by
        have haccounted := h.accounted
        rw [State.accounted] at haccounted
        simpa [State.accounted] using haccounted
      delivered := fun m' hm' r hr row hrow p hp => by
        rw [hgrown.delivered]
        rw [hreceived, List.mem_append, List.mem_singleton] at hm'
        rcases hm' with hm' | rfl
        · exact .inl (h.delivered m' hm' r hr row hrow p hp)
        · rw [← hmsg] at hr
          obtain ⟨item, hitem, hname, hkey, hpoints⟩ := item_of_row (.inl htype) hr hrow
          exact .inr ⟨item, hitem, p, hpoints ▸ hp, by rw [hname, hkey]⟩ }

/-! ## Every run -/

/-- What is assumed of what happens: the live window starts before the data that were loaded,
and new values are new. -/
def Sane (time : P → Date) (liveFrom : ℤ) (metrics : List (LiveMetric P)) (s : State P) :
    Event P → Prop
  | .setStartTime (some t) =>
    s.curLiveWindowStart = none → t ≠ 0 → 0 ≤ t ∧ 1000 * seconds t ≤ liveFrom
  | .latest metricData => KnownIn metrics metricData ∧ Newer time liveFrom s.jobData metricData
  | _ => True

/-- **Step.** -/
theorem shown_step (hnodup : (metrics.map LiveMetric.measurement).Nodup)
    (hanswers : Answers time answer) (hknown : ∀ start stop, KnownIn metrics (answer start stop))
    (h : Shown time liveFrom metrics answer s) (hsettled : Settled s) {ev : Event P}
    (hsane : Sane time liveFrom metrics s ev) (hstep : step answer s ev = some s') :
    Shown time liveFrom metrics answer s' ∧ Settled s' := by
  cases ev with
  | setStartTime t =>
    simp only [step] at hstep
    split_ifs at hstep
    · cases hstep
      exact ⟨h, hsettled⟩
    · cases hstep
      refine ⟨shown_effects ⟨h.intact, h.grown, h.last, h.start, h.asked, ?_, h.endless,
        h.accounted, h.delivered⟩ fun hcur t' ht' hzero => ?_, settled_effects _⟩
      · intro hcur
        obtain ⟨hi, hle, hfloor⟩ := h.floor hcur
        exact ⟨hi, hle, hfloor.after, hfloor.descends⟩
      · cases ht'
        exact hsane hcur hzero
  | register ws =>
    cases hstep
    refine ⟨shown_effects (shown_disconnect h _) fun hcur t ht hzero => ?_, settled_effects _⟩
    rcases hsettled hcur with hnone | hsome
    · cases hnone.symm.trans ht
    · cases hsome.symm.trans ht
      exact absurd rfl hzero
  | opened =>
    simp only [step] at hstep
    split_ifs at hstep
    cases hstep
    refine ⟨shown_drop h h.last (List.Sublist.refl _) (List.Perm.refl _), hsettled⟩
  | closed =>
    simp only [step] at hstep
    split_ifs at hstep
    cases hstep
    exact ⟨shown_disconnect h _, hsettled⟩
  | unregister =>
    cases hstep
    exact ⟨shown_disconnect h _, hsettled⟩
  | respond =>
    simp only [step] at hstep
    split at hstep
    · cases hstep
    · rename_i m ms hms
      cases hstep
      exact ⟨shown_respond h hms, hsettled⟩
  | refuse =>
    simp only [step] at hstep
    split at hstep
    · cases hstep
    · rename_i m ms hms
      cases hstep
      exact ⟨shown_refuse h hms, hsettled⟩
  | latest metricData =>
    simp only [step] at hstep
    split_ifs at hstep
    cases hstep
    exact ⟨shown_latest h hsane.1 hsane.2, hsettled⟩
  | merge =>
    obtain ⟨msg, hmsg, rfl⟩ := Option.map_eq_some_iff.1 hstep
    refine ⟨?_, hsettled⟩
    rcases h.last msg hmsg with ⟨htype, hreceived, hknown', hnewer⟩ | ⟨htype, m, hreceived, hdata⟩
    · exact shown_mergeLatest h hnodup htype hreceived hknown' hnewer
    · exact shown_mergeResponse h hnodup hanswers hknown htype hreceived hdata

theorem shown_loaded (hmetrics : ∀ metric ∈ metrics, metric.AllIncreasing time)
    (hloaded : After time (LiveData.loaded metrics) liveFrom) :
    Shown time liveFrom metrics answer (loaded metrics) where
  intact := ⟨rfl, hmetrics, fun _ hδ => by cases hδ⟩
  grown := ⟨rfl, fun m hm => ⟨m, hm, rfl, fun _ h => h⟩⟩
  last _ h := by cases h
  start _ := ⟨rfl, rfl, rfl, hloaded⟩
  asked _ h := by cases h
  floor h := absurd rfl h
  endless _ h := by cases h
  accounted := .refl _
  delivered _ h := by cases h

end Invariant

/-! ## A run -/

/-- A database with four points. -/
def fourPoints (start stop : ℤ) : List (String × Map String (List Date)) :=
  [("flops", ⟨[("n1", [6000, 9000, 11000, 12000].filter fun p => 1000 * start < p ∧
    p ≤ 1000 * stop)], by simp⟩)]

theorem answers_fourPoints : Answers id fourPoints where
  delivery start stop := by
    refine ⟨by simp [fourPoints], fun r hr row hrow => ?_⟩
    cases List.mem_singleton.1 hr
    cases List.mem_singleton.1 hrow
    exact List.Pairwise.filter _ (by decide)
  within start stop r hr row hrow p hp := by
    cases List.mem_singleton.1 hr
    cases List.mem_singleton.1 hrow
    simpa using (List.mem_filter.1 hp).2

end LiveWindow

end JobMon
