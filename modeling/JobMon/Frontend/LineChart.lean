import Mathlib.Algebra.Order.Field.Rat
import Mathlib.Algebra.Order.Group.Abs
import Mathlib.Data.List.Dedup
import Mathlib.Data.List.MinMax
import Mathlib.Order.MinMax
import Mathlib.Tactic.Linarith
import JobMon.Lib.Runs

/-!
# Line charts

The effect of `components/charts/LineChart.tsx`, for points of any type `T` with the
functions `x` (their time) and `z` (the line they belong to).

* `clampDomain`, `filteredData` — the points a chart shows.  A chart changes the pair
  `xDomain` it is given; charts that share one pair (`drawCharts`) hand it on.
* `drawCharts_eq_iff` — exactly when each of them shows its points in the range.
* `linePointCount`, `getNearestPointIdx` — the points as a table of lines, one point of a
  line taken for the one at a position.
* `IsLeastFn` — what `d3.least` is relied on for.
-/

namespace JobMon

/-- A `Date`: milliseconds since the epoch. -/
abbrev Date := ℤ

/-- `clamp`. -/
def clamp (val min' max' : ℚ) : ℚ := min (max val min') max'

/-- `checkBetween`. -/
def checkBetween (d1 d2 point : Date) : Bool := d1 ≤ point && point ≤ d2

theorem checkBetween_iff {d1 d2 point : Date} :
    checkBetween d1 d2 point = true ↔ d1 ≤ point ∧ point ≤ d2 := by
  simp [checkBetween]

namespace LineChart

open Runs

variable {T K : Type} (x : T → Date)

/-! ## The points shown -/

/-- What the effect leaves in `xDomain`. -/
def clampDomain (xDomain : Date × Date) (data : List T) : Date × Date :=
  match data.head?, data.getLast? with
  | some first, some last =>
    (if xDomain.1 ≥ x first then xDomain.1 else x first,
      if xDomain.2 ≤ x last then xDomain.2 else x last)
  | _, _ => xDomain

/-- `filteredData`: the points the chart shows. -/
def filteredData (xDomain : Option (Date × Date)) (data : List T) : List T :=
  match xDomain with
  | none => data
  | some xDomain =>
    data.filter fun dat =>
      checkBetween (clampDomain x xDomain data).1 (clampDomain x xDomain data).2 (x dat)

/-- Charts with one `xDomain` among them, in the order their effects run. -/
def drawCharts (xDomain : Date × Date) : List (List T) → List (List T)
  | [] => []
  | data :: charts =>
    filteredData x (some xDomain) data :: drawCharts (clampDomain x xDomain data) charts

/-- The points whose time lies in `[d1, d2]`. -/
def inRange (d1 d2 : Date) (data : List T) : List T :=
  data.filter fun dat => checkBetween d1 d2 (x dat)

/-- The time `t` lies between the first and the last point of the data. -/
def Spans (data : List T) (t : Date) : Prop :=
  ∀ first ∈ data.head?, ∀ last ∈ data.getLast?, x first ≤ t ∧ t ≤ x last

variable {x}

/-- Clamping only narrows. -/
theorem clampDomain_narrows (xDomain : Date × Date) (data : List T) :
    xDomain.1 ≤ (clampDomain x xDomain data).1 ∧ (clampDomain x xDomain data).2 ≤ xDomain.2 := by
  have hlo (a b : ℤ) : a ≤ if a ≥ b then a else b := by
    split <;> omega
  have hhi (a b : ℤ) : (if a ≤ b then a else b) ≤ a := by
    split <;> omega
  unfold clampDomain
  split
  · exact ⟨hlo _ _, hhi _ _⟩
  · exact ⟨le_rfl, le_rfl⟩

/-- A time is in the clamped range when it is in the range and the data span it. -/
theorem mem_clampDomain_iff {xDomain : Date × Date} {data : List T} {t : Date} :
    (clampDomain x xDomain data).1 ≤ t ∧ t ≤ (clampDomain x xDomain data).2 ↔
      (xDomain.1 ≤ t ∧ t ≤ xDomain.2) ∧ Spans x data t := by
  have hlo (a b t : ℤ) : (if a ≥ b then a else b) ≤ t ↔ a ≤ t ∧ b ≤ t := by
    split <;> omega
  have hhi (a b t : ℤ) : t ≤ (if a ≤ b then a else b) ↔ t ≤ a ∧ t ≤ b := by
    split <;> omega
  unfold clampDomain Spans
  cases data.head? with
  | none => simp
  | some first =>
    cases data.getLast? with
    | none => simp
    | some last =>
      simp only [Option.mem_some_iff, forall_eq', hlo, hhi]
      tauto

/-- The chart shows its points in the range exactly when it spans them. -/
theorem filteredData_eq_iff {d e : Date × Date} {data : List T} (h1 : d.1 ≤ e.1)
    (h2 : e.2 ≤ d.2) :
    filteredData x (some e) data = inRange x d.1 d.2 data ↔
      ∀ p ∈ data, d.1 ≤ x p → x p ≤ d.2 → (e.1 ≤ x p ∧ x p ≤ e.2) ∧ Spans x data (x p) := by
  have hmem (p : T) : p ∈ filteredData x (some e) data ↔
      p ∈ data ∧ (e.1 ≤ x p ∧ x p ≤ e.2) ∧ Spans x data (x p) := by
    rw [filteredData, List.mem_filter, checkBetween_iff, mem_clampDomain_iff]
  constructor
  · intro h p hp hp1 hp2
    have hin : p ∈ inRange x d.1 d.2 data :=
      List.mem_filter.2 ⟨hp, checkBetween_iff.2 ⟨hp1, hp2⟩⟩
    rw [← h, hmem] at hin
    exact hin.2
  · intro h
    refine List.filter_congr fun p hp => ?_
    rw [Bool.eq_iff_iff, checkBetween_iff, checkBetween_iff, mem_clampDomain_iff]
    constructor
    · rintro ⟨⟨hp1, hp2⟩, -⟩
      exact ⟨h1.trans hp1, hp2.trans h2⟩
    · rintro ⟨hp1, hp2⟩
      exact h p hp hp1 hp2

theorem filteredData_subset {xDomain : Option (Date × Date)} {data : List T} :
    filteredData x xDomain data ⊆ data := by
  cases xDomain with
  | none => exact List.Subset.refl _
  | some xDomain => exact List.filter_subset_self _

/-- The charts show their points in the range exactly when every chart up to their own
spans them: the pair each of them is handed is a narrower one. -/
theorem drawCharts_narrowed_iff {d e : Date × Date} {charts : List (List T)} (h1 : d.1 ≤ e.1)
    (h2 : e.2 ≤ d.2) :
    drawCharts x e charts = charts.map (inRange x d.1 d.2) ↔
      ∀ before data after, charts = before ++ data :: after →
        ∀ p ∈ data, d.1 ≤ x p → x p ≤ d.2 →
          (e.1 ≤ x p ∧ x p ≤ e.2) ∧ ∀ chart ∈ before ++ [data], Spans x chart (x p) := by
  induction charts generalizing e with
  | nil => simp [drawCharts]
  | cons data charts ih =>
    obtain ⟨hlo, hhi⟩ := clampDomain_narrows (x := x) e data
    rw [drawCharts, List.map_cons, List.cons.injEq, filteredData_eq_iff h1 h2,
      ih (h1.trans hlo) (hhi.trans h2), forall_append_cons_iff]
    refine and_congr ?_ ?_
    · simp
    · simp only [mem_clampDomain_iff, List.cons_append, List.forall_mem_cons, and_assoc]

theorem drawCharts_eq_iff {d : Date × Date} {charts : List (List T)} :
    drawCharts x d charts = charts.map (inRange x d.1 d.2) ↔
      ∀ before data after, charts = before ++ data :: after →
        ∀ p ∈ data, d.1 ≤ x p → x p ≤ d.2 →
          ∀ chart ∈ before ++ [data], Spans x chart (x p) := by
  rw [drawCharts_narrowed_iff le_rfl le_rfl]
  refine forall₄_congr fun before data after _ => forall₄_congr fun p _ h1 h2 => ?_
  exact and_iff_right ⟨h1, h2⟩

/-! ## Lines and positions -/

section Lines

variable [DecidableEq K] (x) (z : T → K)

/-- `zSet`: the lines. -/
def zSet (data : List T) : List K := (data.map z).dedup

/-- `linePointCount`.  Without points the quotient is not a number, and the range up to it
is empty. -/
def linePointCount (data : List T) : ℕ := data.length / (zSet z data).length

/-- How far the point with index `i` is from a position. -/
def distance (xScale : Date → ℚ) (data : List T) (pos : ℚ) (i : ℕ) : ℚ :=
  (data[i]?.map fun d => |xScale (x d) - pos|).getD 0

/-- `getNearestPointIdx`, with `least` for `d3.least`. -/
def getNearestPointIdx (least : List ℕ → (ℕ → ℚ) → Option ℕ) (xScale : Date → ℚ)
    (data : List T) (pos : ℚ) : Option ℕ :=
  least (List.range (linePointCount z data)) (distance x xScale data pos)

/-- `d3.least` returns an element for which the function is minimal, and nothing if there
is none. -/
structure IsLeastFn (least : List ℕ → (ℕ → ℚ) → Option ℕ) : Prop where
  mem : ∀ l f i, least l f = some i → i ∈ l
  le : ∀ l f i, least l f = some i → ∀ j ∈ l, f i ≤ f j
  eq_nil : ∀ l f, least l f = none → l = []

variable {x z} {data : List T} {least : List ℕ → (ℕ → ℚ) → Option ℕ} {xScale : Date → ℚ} {pos : ℚ}

theorem linePointCount_le : linePointCount z data ≤ data.length := Nat.div_le_self _ _

/-- Every index below it has a point. -/
theorem exists_point {i : ℕ} (hi : i < linePointCount z data) : ∃ p, data[i]? = some p :=
  ⟨_, List.getElem?_eq_getElem (lt_of_lt_of_le hi linePointCount_le)⟩

/-- A single line has all points. -/
theorem linePointCount_single (h : ∀ p ∈ data, ∀ q ∈ data, z p = z q) :
    linePointCount z data = data.length := by
  cases data with
  | nil => simp [linePointCount]
  | cons p data =>
    have hall : (p :: data).map z = List.replicate (data.length + 1) (z p) := by
      refine List.eq_replicate_iff.2 ⟨by simp, fun k hk => ?_⟩
      obtain ⟨q, hq, rfl⟩ := List.mem_map.1 hk
      exact h q hq p List.mem_cons_self
    rw [linePointCount, zSet, hall, List.replicate_dedup (Nat.succ_ne_zero _),
      List.length_singleton, Nat.div_one]

theorem getNearestPointIdx_lt {i : ℕ} (hleast : IsLeastFn least)
    (h : getNearestPointIdx x z least xScale data pos = some i) : i < linePointCount z data :=
  List.mem_range.1 (hleast.mem _ _ _ h)

theorem getNearestPointIdx_le {i j : ℕ} (hleast : IsLeastFn least)
    (h : getNearestPointIdx x z least xScale data pos = some i) (hj : j < linePointCount z data) :
    distance x xScale data pos i ≤ distance x xScale data pos j :=
  hleast.le _ _ _ h j (List.mem_range.2 hj)

variable (x xScale) in
theorem exists_getNearestPointIdx (hleast : IsLeastFn least) (h : 0 < linePointCount z data)
    (pos : ℚ) : ∃ i, getNearestPointIdx x z least xScale data pos = some i := by
  cases hidx : getNearestPointIdx x z least xScale data pos with
  | some i => exact ⟨i, rfl⟩
  | none =>
    have hnil := hleast.eq_nil _ _ hidx
    rw [List.range_eq_nil] at hnil
    omega

theorem isLeastFn_argmin : IsLeastFn fun l f => l.argmin f where
  mem _ _ _ h := List.argmin_mem h
  le _ _ _ h _ hj := List.le_of_mem_argmin hj h
  eq_nil _ _ h := List.argmin_eq_none.1 h

end Lines

end LineChart

end JobMon
