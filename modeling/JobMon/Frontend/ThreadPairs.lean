import Mathlib.Algebra.BigOperators.Group.Finset.Basic
import Mathlib.Algebra.Order.BigOperators.Group.List
import Mathlib.Tactic.Ring
import JobMon.Frontend.MetricDataCharts

/-!
# Hardware threads in pairs

What `prepareMetricData` does to the values of the hardware threads of one node, for a
metric of type `cpu` that is summed up.

* `before`, `past` — the threads up to the end of the loop, and the rest.
* `valueAt` — the sum of the values at a time.
* `taken` — what a thread takes from its partner at a time.
* `Conserves` — at every time the chart adds up to the data.
* `Paired` — every point past the end of the loop has a partner with its time at its
  position.
* `conserves_iff` — exactly when the values are conserved: for the values as they are, and
  whatever they are.
-/

namespace JobMon

namespace Charts

open Keyed

/-! ## Values at a time -/

/-- The sum of the values at the time `τ`. -/
def valueAt (τ : Date) (points : List MetricPoint) : ℚ :=
  ((points.filter fun p => p.time = τ).map MetricPoint.value).sum

@[simp] theorem valueAt_nil (τ : Date) : valueAt τ [] = 0 := rfl

theorem valueAt_cons (τ : Date) (p : MetricPoint) (points : List MetricPoint) :
    valueAt τ (p :: points) = (if p.time = τ then p.value else 0) + valueAt τ points := by
  unfold valueAt
  by_cases h : p.time = τ
  · simp [h]
  · simp [h]

theorem valueAt_append (τ : Date) (points points' : List MetricPoint) :
    valueAt τ (points ++ points') = valueAt τ points + valueAt τ points' := by
  simp [valueAt]

theorem valueAt_flatMap {α : Type} (τ : Date) (l : List α) (f : α → List MetricPoint) :
    valueAt τ (l.flatMap f) = (l.map fun a => valueAt τ (f a)).sum := by
  induction l with
  | nil => rfl
  | cons a l ih => rw [List.flatMap_cons, valueAt_append, ih, List.map_cons, List.sum_cons]

/-- Values by position, those at the time `τ`. -/
def addedAt (τ : Date) (points : List MetricPoint) (added : ℕ → ℚ) : ℚ :=
  (points.mapIdx fun idx p => if p.time = τ then added idx else 0).sum

theorem addedAt_cons (τ : Date) (p : MetricPoint) (points : List MetricPoint) (added : ℕ → ℚ) :
    addedAt τ (p :: points) added =
      (if p.time = τ then added 0 else 0) + addedAt τ points fun idx => added (idx + 1) := by
  simp [addedAt, List.mapIdx_cons]

theorem addedAt_zero (τ : Date) (points : List MetricPoint) :
    addedAt τ points (fun _ => 0) = 0 := by
  induction points with
  | nil => rfl
  | cons p points ih => simp [addedAt_cons, ih]

/-- Adding by position adds to the sum at each time. -/
theorem valueAt_mapIdx (τ : Date) (points : List MetricPoint) (added : ℕ → ℚ) :
    valueAt τ (points.mapIdx fun idx p => { p with value := p.value + added idx }) =
      valueAt τ points + addedAt τ points added := by
  induction points generalizing added with
  | nil => simp [addedAt]
  | cons p points ih =>
    rw [List.mapIdx_cons, valueAt_cons, valueAt_cons, addedAt_cons, ih]
    by_cases h : p.time = τ
    · simp only [h, if_true]
      ring
    · simp only [h, if_false]
      ring

/-- Something is added at a time only by a point with that time. -/
theorem exists_of_addedAt_ne_zero {τ : Date} {points : List MetricPoint} {added : ℕ → ℚ}
    (h : addedAt τ points added ≠ 0) :
    ∃ idx p, points[idx]? = some p ∧ p.time = τ ∧ added idx ≠ 0 := by
  by_contra hno
  refine h (List.sum_eq_zero fun v hv => ?_)
  obtain ⟨idx, hidx, rfl⟩ := List.mem_mapIdx.1 hv
  by_cases htime : points[idx].time = τ
  · rw [if_pos htime]
    by_contra hne
    exact hno ⟨idx, _, List.getElem?_eq_getElem hidx, htime, hne⟩
  · rw [if_neg htime]

/-- The values of points that all have a partner with their time at their position. -/
theorem addedAt_eq_valueAt {τ : Date} {points partners : List MetricPoint}
    (h : ∀ (idx : ℕ) (p : MetricPoint), partners[idx]? = some p →
      ∃ q : MetricPoint, points[idx]? = some q ∧ q.time = p.time) :
    addedAt τ points (fun idx => (partners[idx]?.map MetricPoint.value).getD 0) =
      valueAt τ partners := by
  induction points generalizing partners with
  | nil =>
    cases partners with
    | nil => rfl
    | cons p partners =>
      obtain ⟨q, hq, -⟩ := h 0 p rfl
      simp at hq
  | cons q points ih =>
    cases partners with
    | nil => simpa using addedAt_zero τ (q :: points)
    | cons p partners =>
      obtain ⟨q', hq, htime⟩ := h 0 p rfl
      obtain rfl : q = q' := by simpa using hq
      rw [addedAt_cons, valueAt_cons, htime]
      congr 1
      · exact ih fun idx r hr => h (idx + 1) r hr

/-! ## The loop -/

section Loop

variable (data : Map String (List MetricPoint))

/-- The series of a thread. -/
def series (node : String) : List MetricPoint := (data.lookup node).getD []

/-- The number of threads. -/
def count : ℕ := (objectKeys data).length

/-- The threads the loop goes through. -/
def before : List String :=
  (objectKeys data).takeWhile fun node => !MetricData.beyond (count data) node

/-- Those it does not come to. -/
def past : List String :=
  (objectKeys data).dropWhile fun node => !MetricData.beyond (count data) node

/-- The value at a position of the series of the partner, if there is one. -/
def partnerValue (node : String) (idx : ℕ) : ℚ :=
  ((series data (MetricData.hThread (count data) node))[idx]?.map MetricPoint.value).getD 0

/-- What a thread takes from its partner at the time `τ`. -/
def taken (τ : Date) (node : String) : ℚ :=
  addedAt τ (series data node) (partnerValue data node)

/-- The chart adds up to the data, at every time. -/
def Conserves (config : MetricConfig) (nodeSelection : List String) : Prop :=
  ∀ τ, valueAt τ (MetricData.prepareMetricData config data nodeSelection).1 =
    (data.rows.map fun r => valueAt τ r.2).sum

/-- Every point the loop does not come to is the partner of one with its time. -/
def Paired : Prop :=
  ∀ h ∈ past data, ∀ (idx : ℕ) (p : MetricPoint), (series data h)[idx]? = some p →
    ∃ l ∈ before data, MetricData.hThread (count data) l = h ∧
      ∃ q : MetricPoint, (series data l)[idx]? = some q ∧ q.time = p.time

variable {data}

/-- The points of a thread: its own values, and those it takes. -/
theorem valueAt_threadPoints {config : MetricConfig} (hsum : config.pThreadAggFn = "sum")
    (τ : Date) (node : String) :
    valueAt τ (MetricData.threadPoints config data (count data) node) =
      valueAt τ (series data node) + taken data τ node := by
  unfold MetricData.threadPoints taken partnerValue
  cases hpartner : data.lookup (MetricData.hThread (count data) node) with
  | none =>
    have hnil : series data (MetricData.hThread (count data) node) = [] := by
      simp [series, hpartner]
    simp only [hnil, List.getElem?_nil, Option.map_none, Option.getD_none, addedAt_zero, add_zero]
    rfl
  | some hThreadData =>
    have hseries : series data (MetricData.hThread (count data) node) = hThreadData := by
      simp [series, hpartner]
    have hagg (partner : ℚ) (val : MetricPoint) :
        MetricData.aggThread config partner val = { val with value := val.value + partner } := by
      simp [MetricData.aggThread, hsum]
    simp only [hagg, hseries]
    exact valueAt_mapIdx τ _ _

theorem seriesPoints_eq {config : MetricConfig} (hcpu : config.type = "cpu") (n : ℕ)
    (nodes : List String) :
    MetricData.seriesPoints config data n nodes =
      (nodes.takeWhile fun node => !MetricData.beyond n node).flatMap
        (MetricData.threadPoints config data n) := by
  induction nodes with
  | nil => rfl
  | cons node nodes ih =>
    rw [MetricData.seriesPoints, if_pos hcpu]
    cases hb : MetricData.beyond n node with
    | false => simp [hb, ih]
    | true => simp [hb]

/-- The sum over the data is one over the threads the loop goes through and one over the
rest. -/
theorem sum_rows (f : List MetricPoint → ℚ) :
    (data.rows.map fun r => f r.2).sum =
      ((before data).map fun node => f (series data node)).sum +
        ((past data).map fun node => f (series data node)).sum := by
  have hrows : (data.rows.map fun r => f r.2) =
      (data.rows.map Prod.fst).map fun node => f (series data node) := by
    rw [List.map_map]
    refine List.map_congr_left fun r hr => ?_
    have hlookup : data.lookup r.1 = some r.2 := Map.lookup_eq_some_iff.2 hr
    simp [series, hlookup]
  rw [hrows, ← ((objectKeys_perm data).map _).sum_eq, ← List.sum_append, ← List.map_append,
    before, past, List.takeWhile_append_dropWhile]

theorem conserves_iff_taken {config : MetricConfig} {nodeSelection : List String}
    (hcpu : config.type = "cpu") (hsum : config.pThreadAggFn = "sum")
    (hsel : nodeSelection.length = 1) :
    Conserves data config nodeSelection ↔
      ∀ τ, ((before data).map (taken data τ)).sum =
        ((past data).map fun node => valueAt τ (series data node)).sum := by
  have hnode : config.type ≠ "node" := by
    rw [hcpu]
    decide
  refine forall_congr' fun τ => ?_
  have hpoints : (MetricData.prepareMetricData config data nodeSelection).1 =
      (before data).flatMap (MetricData.threadPoints config data (count data)) := by
    rw [MetricData.prepareMetricData, if_pos ⟨hsel, hnode⟩]
    exact seriesPoints_eq hcpu _ _
  have hshown : ((before data).map fun node =>
        valueAt τ (MetricData.threadPoints config data (count data) node)).sum =
      ((before data).map fun node => valueAt τ (series data node)).sum +
        ((before data).map (taken data τ)).sum := by
    rw [← List.sum_map_add]
    exact congrArg List.sum (List.map_congr_left fun node _ => valueAt_threadPoints hsum τ node)
  rw [hpoints, valueAt_flatMap, hshown, sum_rows (valueAt τ), add_right_inj]

end Loop

/-! ## Decimal ids -/

/-- The keys are decimal ids. -/
def DecimalIds (data : Map String (List MetricPoint)) : Prop :=
  ∀ r ∈ data.rows, ∃ id, r.1 = Nat.repr id

theorem number_repr (id : ℕ) : number (Nat.repr id) = some id := by
  have hdigits : (Nat.repr id).toList.all Go.isDigit = true :=
    List.all_eq_true.2 fun c hc => Go.isDigit_of_mem_repr hc
  rw [number, if_pos hdigits, Go.digitsVal_repr]

theorem repr_injective {id id' : ℕ} (h : Nat.repr id = Nat.repr id') : id = id' := by
  have hvalue := congrArg number h
  rw [number_repr, number_repr] at hvalue
  exact Option.some.inj hvalue

theorem hThread_repr (n id : ℕ) :
    MetricData.hThread n (Nat.repr id) =
      if n % 2 = 0 then Nat.repr (id + n / 2) else Nat.repr (id + n / 2) ++ ".5" := by
  rw [MetricData.hThread, number_repr]

/-- Different threads have different partners. -/
theorem hThread_injective {n id id' : ℕ}
    (h : MetricData.hThread n (Nat.repr id) = MetricData.hThread n (Nat.repr id')) : id = id' := by
  rw [hThread_repr, hThread_repr] at h
  have hrepr : Nat.repr (id + n / 2) = Nat.repr (id' + n / 2) := by
    split at h
    · exact h
    · have hlists := congrArg String.toList h
      rw [String.toList_append, String.toList_append] at hlists
      exact String.toList_injective (List.append_cancel_right hlists)
  have := repr_injective hrepr
  omega

/-- A partner that is an id is one the loop ends at. -/
theorem beyond_hThread {n id id' : ℕ} (h : MetricData.hThread n (Nat.repr id) = Nat.repr id') :
    MetricData.beyond n (Nat.repr id') = true := by
  rw [hThread_repr] at h
  split at h
  · have := repr_injective h
    rw [MetricData.beyond, number_repr]
    simp only [decide_eq_true_eq]
    omega
  · -- a text with a point in it is no id
    have hmem : '.' ∈ (Nat.repr id').toList := by
      rw [← h, String.toList_append]
      simp
    have := Go.isDigit_of_mem_repr hmem
    simp [Go.isDigit] at this

section Ids

variable {data : Map String (List MetricPoint)}

theorem mem_keys_iff {node : String} :
    node ∈ before data ∨ node ∈ past data ↔ ∃ r ∈ data.rows, r.1 = node := by
  rw [← List.mem_append, before, past, List.takeWhile_append_dropWhile,
    (objectKeys_perm data).mem_iff, List.mem_map]

theorem nodup_keys : (before data ++ past data).Nodup := by
  rw [before, past, List.takeWhile_append_dropWhile, (objectKeys_perm data).nodup_iff]
  exact data.nodup

theorem not_beyond_of_mem_before {node : String} (h : node ∈ before data) :
    MetricData.beyond (count data) node = false := by
  simpa using List.mem_takeWhile_imp h

theorem series_eq_nil {node : String} (h : ∀ r ∈ data.rows, r.1 ≠ node) :
    series data node = [] := by
  have hnone : data.lookup node = none := by
    rw [Map.lookup, Table.get?_eq_none_iff.2 h]
    rfl
  rw [series, hnone]
  rfl

variable (hids : DecimalIds data)

include hids

theorem id_of_mem_before {node : String} (h : node ∈ before data) : ∃ id, node = Nat.repr id := by
  obtain ⟨r, hr, rfl⟩ := mem_keys_iff.1 (.inl h)
  exact hids r hr

/-- A partner is no thread, or one the loop does not come to. -/
theorem mem_past_of_partner {l h : String} (hl : l ∈ before data)
    (hpartner : MetricData.hThread (count data) l = h) (hr : ∃ r ∈ data.rows, r.1 = h) :
    h ∈ past data := by
  refine (mem_keys_iff.2 hr).resolve_left fun hbefore => ?_
  obtain ⟨id, rfl⟩ := id_of_mem_before hids hl
  obtain ⟨id', rfl⟩ := id_of_mem_before hids hbefore
  have hbeyond := beyond_hThread hpartner
  rw [not_beyond_of_mem_before hbefore] at hbeyond
  cases hbeyond

theorem nodup_partners : ((before data).map (MetricData.hThread (count data))).Nodup := by
  refine List.Nodup.map_on ?_ (List.nodup_append.1 nodup_keys).1
  intro l hl l' hl' heq
  obtain ⟨id, rfl⟩ := id_of_mem_before hids hl
  obtain ⟨id', rfl⟩ := id_of_mem_before hids hl'
  rw [hThread_injective heq]

/-- A thread of paired data takes what its partner has. -/
theorem taken_of_paired (hpaired : Paired data) (τ : Date) {l : String} (hl : l ∈ before data) :
    taken data τ l = valueAt τ (series data (MetricData.hThread (count data) l)) := by
  refine addedAt_eq_valueAt fun idx p hp => ?_
  have hkey : ∃ r ∈ data.rows, r.1 = MetricData.hThread (count data) l := by
    by_contra hno
    rw [series_eq_nil fun r hr heq => hno ⟨r, hr, heq⟩] at hp
    simp at hp
  obtain ⟨l', hl', heq, q, hq, htime⟩ :=
    hpaired _ (mem_past_of_partner hids hl rfl hkey) idx p hp
  obtain rfl : l' = l := List.inj_on_of_nodup_map (nodup_partners hids) hl' hl heq
  exact ⟨q, hq, htime⟩

theorem taken_eq_of_paired (hpaired : Paired data) (τ : Date) :
    ((before data).map (taken data τ)).sum =
      ((past data).map fun node => valueAt τ (series data node)).sum := by
  have htaken : (before data).map (taken data τ) =
      ((before data).map (MetricData.hThread (count data))).map
        fun node => valueAt τ (series data node) := by
    rw [List.map_map]
    exact List.map_congr_left fun l hl => taken_of_paired hids hpaired τ hl
  rw [htaken, ← List.sum_toFinset _ (nodup_partners hids),
    ← List.sum_toFinset _ (List.nodup_append.1 nodup_keys).2.1]
  refine Finset.sum_congr_of_eq_on_inter ?_ ?_ fun _ _ _ => rfl
  · -- a partner that is not past the end of the loop is no thread
    intro h hpartner hpast
    obtain ⟨l, hl, rfl⟩ := List.mem_map.1 (List.mem_toFinset.1 hpartner)
    rw [series_eq_nil, valueAt_nil]
    intro r hr heq
    exact hpast (List.mem_toFinset.2 (mem_past_of_partner hids hl rfl ⟨r, hr, heq⟩))
  · -- a thread past the end of the loop that is no partner has no points
    intro h hpast hpartner
    have hnil : series data h = [] := by
      refine List.eq_nil_iff_forall_not_mem.2 fun p hp => hpartner ?_
      obtain ⟨idx, hidx, rfl⟩ := List.mem_iff_getElem.1 hp
      obtain ⟨l, hl, heq, -⟩ :=
        hpaired h (List.mem_toFinset.1 hpast) idx _ (List.getElem?_eq_getElem hidx)
      exact List.mem_toFinset.2 (List.mem_map.2 ⟨l, hl, heq⟩)
    rw [hnil, valueAt_nil]

end Ids

/-! ## Other values -/

section Values

/-- The data with other values. -/
def withValues (v : String → ℕ → ℚ) (data : Map String (List MetricPoint)) :
    Map String (List MetricPoint) :=
  ⟨data.rows.map fun r => (r.1, r.2.mapIdx fun idx p => { p with value := v r.1 idx }), by
    rw [List.map_map]
    exact data.nodup⟩

variable {data : Map String (List MetricPoint)} {v : String → ℕ → ℚ}

theorem objectKeys_withValues : objectKeys (withValues v data) = objectKeys data := by
  have hkeys : (withValues v data).rows.map Prod.fst = data.rows.map Prod.fst := by
    rw [withValues, List.map_map]
    rfl
  rw [objectKeys, objectKeys, hkeys]

theorem series_withValues (node : String) :
    series (withValues v data) node =
      (series data node).mapIdx fun idx p => { p with value := v node idx } := by
  by_cases hkey : ∃ r ∈ data.rows, r.1 = node
  · obtain ⟨⟨k, points⟩, hr, rfl⟩ := hkey
    have hlookup : data.lookup k = some points := Map.lookup_eq_some_iff.2 hr
    have hset : (withValues v data).lookup k =
        some (points.mapIdx fun idx p => { p with value := v k idx }) :=
      Map.lookup_eq_some_iff.2 (List.mem_map.2 ⟨(k, points), hr, rfl⟩)
    simp only [series, hlookup, hset, Option.getD_some]
  · have hnone : ∀ r ∈ data.rows, r.1 ≠ node := fun r hr heq => hkey ⟨r, hr, heq⟩
    have hnone' : ∀ r ∈ (withValues v data).rows, r.1 ≠ node := by
      intro r hr
      obtain ⟨r', hr', rfl⟩ := List.mem_map.1 hr
      exact hnone r' hr'
    rw [series_eq_nil hnone, series_eq_nil hnone', List.mapIdx_nil]

theorem getElem?_series_withValues (node : String) (idx : ℕ) :
    (series (withValues v data) node)[idx]? =
      (series data node)[idx]?.map fun p => { p with value := v node idx } := by
  rw [series_withValues, List.getElem?_mapIdx]

theorem count_withValues : count (withValues v data) = count data := by
  rw [count, count, objectKeys_withValues]

theorem before_withValues : before (withValues v data) = before data := by
  rw [before, before, count_withValues, objectKeys_withValues]

theorem past_withValues : past (withValues v data) = past data := by
  rw [past, past, count_withValues, objectKeys_withValues]

theorem decimalIds_withValues (h : DecimalIds data) : DecimalIds (withValues v data) := by
  intro r hr
  obtain ⟨r', hr', rfl⟩ := List.mem_map.1 hr
  exact h r' hr'

/-- Being paired is a matter of the times. -/
theorem paired_withValues (h : Paired data) : Paired (withValues v data) := by
  intro node hnode idx p hp
  rw [past_withValues] at hnode
  rw [getElem?_series_withValues] at hp
  obtain ⟨p', hp', rfl⟩ := Option.map_eq_some_iff.1 hp
  obtain ⟨l, hl, heq, q, hq, htime⟩ := h node hnode idx p' hp'
  have hl' : l ∈ before (withValues v data) := by
    rw [before_withValues]
    exact hl
  have heq' : MetricData.hThread (count (withValues v data)) l = node := by
    rw [count_withValues]
    exact heq
  refine ⟨l, hl', heq', { q with value := v l idx }, ?_, htime⟩
  rw [getElem?_series_withValues, hq, Option.map_some]

/-- The value one at one position of one thread, and zero elsewhere. -/
def oneAt (node : String) (idx : ℕ) (node' : String) (idx' : ℕ) : ℚ :=
  if node' = node ∧ idx' = idx then 1 else 0

theorem valueAt_nonneg {τ : Date} {points : List MetricPoint} (h : ∀ p ∈ points, 0 ≤ p.value) :
    0 ≤ valueAt τ points := by
  refine List.sum_nonneg fun q hq => ?_
  obtain ⟨p, hp, rfl⟩ := List.mem_map.1 hq
  exact h p (List.mem_of_mem_filter hp)

theorem le_valueAt {points : List MetricPoint} (h : ∀ p ∈ points, 0 ≤ p.value) {p : MetricPoint}
    (hp : p ∈ points) : p.value ≤ valueAt p.time points := by
  refine List.single_le_sum (fun q hq => ?_) _
    (List.mem_map_of_mem (List.mem_filter.2 ⟨hp, by simp⟩))
  obtain ⟨p', hp', rfl⟩ := List.mem_map.1 hq
  exact h p' (List.mem_of_mem_filter hp')

theorem nonneg_oneAt {node node' : String} {idx : ℕ} :
    ∀ q ∈ series (withValues (oneAt node idx) data) node', 0 ≤ q.value := by
  intro q hq
  rw [series_withValues] at hq
  obtain ⟨idx', hidx', rfl⟩ := List.mem_mapIdx.1 hq
  change 0 ≤ oneAt node idx node' idx'
  unfold oneAt
  split <;> decide

/-- The one, past the end of the loop, counts at its time. -/
theorem one_le_sum_oneAt {node : String} {idx : ℕ} {p : MetricPoint} (hnode : node ∈ past data)
    (hp : (series data node)[idx]? = some p) :
    1 ≤ ((past (withValues (oneAt node idx) data)).map fun node' =>
      valueAt p.time (series (withValues (oneAt node idx) data) node')).sum := by
  have hmem : { p with value := 1 } ∈ series (withValues (oneAt node idx) data) node := by
    refine List.mem_iff_getElem?.2 ⟨idx, ?_⟩
    rw [getElem?_series_withValues, hp, Option.map_some, oneAt, if_pos ⟨rfl, rfl⟩]
  refine (le_valueAt nonneg_oneAt hmem).trans (List.single_le_sum ?_ _ ?_)
  · intro q hq
    obtain ⟨node', -, rfl⟩ := List.mem_map.1 hq
    exact valueAt_nonneg nonneg_oneAt
  · rw [past_withValues]
    exact List.mem_map_of_mem (f := fun node' =>
      valueAt p.time (series (withValues (oneAt node idx) data) node')) hnode

/-- A thread that takes the one has it as its partner's value, at its position. -/
theorem partner_of_taken_oneAt {node l : String} {idx : ℕ} {τ : Date}
    (h : taken (withValues (oneAt node idx) data) τ l ≠ 0) :
    MetricData.hThread (count data) l = node ∧
      ∃ q : MetricPoint, (series data l)[idx]? = some q ∧ q.time = τ := by
  obtain ⟨idx', q, hq, htime, hvalue⟩ := exists_of_addedAt_ne_zero h
  rw [getElem?_series_withValues] at hq
  obtain ⟨q', hq', rfl⟩ := Option.map_eq_some_iff.1 hq
  rw [partnerValue, getElem?_series_withValues, count_withValues] at hvalue
  have hat : MetricData.hThread (count data) l = node ∧ idx' = idx := by
    by_contra hne
    apply hvalue
    cases (series data (MetricData.hThread (count data) l))[idx']? with
    | none => rfl
    | some r => simp [oneAt, hne]
  obtain ⟨heq, rfl⟩ := hat
  exact ⟨heq, q', hq', htime⟩

/-- A value of one that is conserved has a partner. -/
theorem paired_of_taken_eq
    (h : ∀ v τ, ((before (withValues v data)).map (taken (withValues v data) τ)).sum =
      ((past (withValues v data)).map fun node =>
        valueAt τ (series (withValues v data) node)).sum) : Paired data := by
  intro node hnode idx p hp
  have hone := one_le_sum_oneAt hnode hp
  rw [← h, before_withValues] at hone
  obtain ⟨l, hl, htaken⟩ : ∃ l ∈ before data,
      taken (withValues (oneAt node idx) data) p.time l ≠ 0 := by
    by_contra hno
    have hzero : ((before data).map (taken (withValues (oneAt node idx) data) p.time)).sum = 0 := by
      refine List.sum_eq_zero fun q hq => ?_
      obtain ⟨l, hl, rfl⟩ := List.mem_map.1 hq
      by_contra hne
      exact hno ⟨l, hl, hne⟩
    rw [hzero] at hone
    exact absurd hone (by decide)
  obtain ⟨heq, q, hq, htime⟩ := partner_of_taken_oneAt htaken
  exact ⟨l, hl, heq, q, hq, htime⟩

end Values

/-- **When the values are conserved.**  For the values as they are: when at every time the
threads take as much from their partners as there is past the end of the loop.  Whatever
the values: when the threads are paired. -/
theorem conserves_iff {config : MetricConfig} {nodeSelection : List String}
    {data : Map String (List MetricPoint)} (hcpu : config.type = "cpu")
    (hsum : config.pThreadAggFn = "sum") (hsel : nodeSelection.length = 1)
    (hids : DecimalIds data) :
    (Conserves data config nodeSelection ↔
      ∀ τ, ((before data).map (taken data τ)).sum =
        ((past data).map fun node => valueAt τ (series data node)).sum) ∧
    ((∀ v, Conserves (withValues v data) config nodeSelection) ↔ Paired data) := by
  refine ⟨conserves_iff_taken hcpu hsum hsel, ?_⟩
  constructor
  · intro h
    exact paired_of_taken_eq fun v => (conserves_iff_taken hcpu hsum hsel).1 (h v)
  · intro hpaired v
    exact (conserves_iff_taken hcpu hsum hsel).2
      (taken_eq_of_paired (decimalIds_withValues hids) (paired_withValues hpaired))

/-- A metric that is measured for each hardware thread. -/
def flopsPerThread : MetricConfig where
  type := "cpu"
  pThreadAggFn := "sum"

/-- Two threads with one point each. -/
def twoThreads (id id' : ℕ) (h : Nat.repr id ≠ Nat.repr id') : Map String (List MetricPoint) :=
  ⟨[(Nat.repr id, [⟨0, 1, []⟩]), (Nat.repr id', [⟨0, 1, []⟩])], by simpa using h⟩

theorem decimalIds_twoThreads {id id' : ℕ} (h : Nat.repr id ≠ Nat.repr id') :
    DecimalIds (twoThreads id id' h) := by
  simp [DecimalIds, twoThreads]

theorem conserves_iff_zeroOne :
    Paired (twoThreads 0 1 (by decide)) ∧
      ∀ v, Conserves (withValues v (twoThreads 0 1 (by decide))) flopsPerThread ["n1"] := by
  have hpaired : Paired (twoThreads 0 1 (by decide)) := by
    have hpast : past (twoThreads 0 1 (by decide)) = ["1"] := by decide +kernel
    have hbefore : before (twoThreads 0 1 (by decide)) = ["0"] := by decide +kernel
    intro node hnode idx p hp
    rw [hpast, List.mem_singleton] at hnode
    subst hnode
    rw [hbefore]
    exact ⟨"0", List.mem_singleton.2 rfl, by decide +kernel, p, hp, rfl⟩
  exact ⟨hpaired, (conserves_iff rfl rfl rfl (decimalIds_twoThreads (by decide))).2.2 hpaired⟩

/-- The ids are not contiguous: no thread is the partner of the second one. -/
theorem zeroTwo_not_conserved :
    DecimalIds (twoThreads 0 2 (by decide)) ∧
      ¬Conserves (twoThreads 0 2 (by decide)) flopsPerThread ["n1"] := by
  refine ⟨decimalIds_twoThreads (by decide), fun h => ?_⟩
  have hzero := h 0
  revert hzero
  decide +kernel

end Charts

end JobMon
