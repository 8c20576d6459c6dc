import JobMon.Lib.Nearest
import JobMon.Frontend.LineChart

/-!
# Selecting a time range

The drag handlers of `components/charts/LineChart.tsx`, for a chart with one line.

* `DragState`, `gesture` — a drag from its start to its end, and the call of
  `setTimeRange` it ends with.
* `SampleNearest` — a sample time nearest to a position.
* `ProperRange` — the call that selects between the two ends of the gesture.
* `Selectable`, `proper_iff_selectable` — exactly which gestures lead to it.
-/

namespace JobMon

namespace LineChart

open Nearest

variable {T K : Type} [DecidableEq K] (x : T → Date) (z : T → K)
variable (least : List ℕ → (ℕ → ℚ) → Option ℕ) (xScale : Date → ℚ) (xRange : ℚ × ℚ)

/-- `dragStart` and `dragEnd`. -/
structure DragState where
  dragStart : ℚ := 0
  dragEnd : ℚ := 0

/-- A position inside the plot area. -/
def clamped (eventX : ℚ) : ℚ := clamp eventX xRange.1 xRange.2

/-- The handler of `start`. -/
def onStart (eventX : ℚ) : DragState where
  dragStart := clamped xRange eventX
  dragEnd := clamped xRange eventX

/-- The handler of `drag`. -/
def onDrag (s : DragState) (eventX : ℚ) : DragState :=
  { s with dragEnd := clamped xRange eventX }

/-- The handler of `end`: the arguments that `setTimeRange` is called with, if it is. -/
def onEnd (data : List T) (s : DragState) (eventX : ℚ) : Option (Date × Date) :=
  let s := { s with dragEnd := clamped xRange eventX }
  match getNearestPointIdx x z least xScale data s.dragStart,
    getNearestPointIdx x z least xScale data s.dragEnd with
  | some startIdx, some endIdx =>
    if startIdx ≠ 0 ∧ endIdx ≠ 0 then
      (data[startIdx]?.map x).bind fun a => (data[endIdx]?.map x).map fun b => (a, b)
    else none
  | _, _ => none

/-- A drag from `start` over `moves` to `stop`. -/
def gesture (data : List T) (start : ℚ) (moves : List ℚ) (stop : ℚ) : Option (Date × Date) :=
  onEnd x z least xScale xRange data (moves.foldl (onDrag xRange) (onStart xRange start)) stop

/-! ## What is selected -/

/-- The positions of the samples. -/
def positions (data : List T) : Set ℚ := {v | ∃ p ∈ data, xScale (x p) = v}

/-- `t` is a sample time with no other nearer to the position. -/
def SampleNearest (data : List T) (pos : ℚ) (t : Date) : Prop :=
  (∃ p ∈ data, x p = t) ∧ IsNearest (positions x xScale data) pos (xScale t)

/-- The call selects the times from the sample nearest to `left` to that nearest to
`right`. -/
def ProperRange (data : List T) (left right : ℚ) (call : Option (Date × Date)) : Prop :=
  ∃ a b, call = some (a, b) ∧ a ≤ b ∧ SampleNearest x xScale data left a ∧
    SampleNearest x xScale data right b

/-- There are samples, the first is nearest to neither end, and the drag goes to the right
or has one nearest sample time to both ends. -/
def Selectable (data : List T) (dragStart dragEnd : ℚ) : Prop :=
  ∃ first ∈ data.head?,
    ¬SampleNearest x xScale data dragStart (x first) ∧
    ¬SampleNearest x xScale data dragEnd (x first) ∧
    (dragStart ≤ dragEnd ∨ ∀ a b, SampleNearest x xScale data dragStart a →
      SampleNearest x xScale data dragEnd b → a = b)

variable {x z least xScale xRange} {data : List T}

/-- The moves in between do not matter. -/
theorem gesture_eq (start : ℚ) (moves : List ℚ) (stop : ℚ) :
    gesture x z least xScale xRange data start moves stop =
      onEnd x z least xScale xRange data (onStart xRange start) stop := by
  have hmoves : (moves.foldl (onDrag xRange) (onStart xRange start)).dragStart =
      clamped xRange start := by
    generalize hs : onStart xRange start = s
    have hstart : s.dragStart = clamped xRange start := by rw [← hs, onStart]
    clear hs
    induction moves generalizing s with
    | nil => exact hstart
    | cons move moves ih => exact ih (onDrag xRange s move) hstart
  unfold gesture onEnd
  rw [hmoves]
  rfl

theorem distance_eq {p : T} {i : ℕ} (h : data[i]? = some p) (pos : ℚ) :
    distance x xScale data pos i = |xScale (x p) - pos| := by
  rw [distance, h, Option.map_some, Option.getD_some]

/-- An index is one of minimal distance exactly when its time is nearest. -/
theorem sampleNearest_iff {p : T} {i : ℕ} {pos : ℚ} (h : data[i]? = some p) :
    SampleNearest x xScale data pos (x p) ↔
      ∀ j < data.length, distance x xScale data pos i ≤ distance x xScale data pos j := by
  rw [distance_eq h]
  constructor
  · rintro ⟨-, -, hle⟩ j hj
    rw [distance_eq (List.getElem?_eq_getElem hj)]
    exact hle _ ⟨_, List.getElem_mem hj, rfl⟩
  · intro hle
    have hmem : p ∈ data := List.mem_of_getElem? h
    refine ⟨⟨p, hmem, rfl⟩, ⟨p, hmem, rfl⟩, ?_⟩
    rintro v ⟨q, hq, rfl⟩
    obtain ⟨j, hj, rfl⟩ := List.mem_iff_getElem.1 hq
    have := hle j hj
    rwa [distance_eq (List.getElem?_eq_getElem hj)] at this

/-- `setTimeRange` is called when neither index is zero. -/
theorem gesture_of_nearest {start stop : ℚ} {i j : ℕ} {p q : T} (moves : List ℚ)
    (hi : getNearestPointIdx x z least xScale data (clamped xRange start) = some i)
    (hj : getNearestPointIdx x z least xScale data (clamped xRange stop) = some j)
    (hp : data[i]? = some p) (hq : data[j]? = some q) :
    gesture x z least xScale xRange data start moves stop =
      if i ≠ 0 ∧ j ≠ 0 then some (x p, x q) else none := by
  rw [gesture_eq]
  simp only [onEnd, onStart, hi, hj, hp, hq, Option.map_some, Option.bind_some]

theorem gesture_of_first {start stop : ℚ} (moves : List ℚ)
    (h : getNearestPointIdx x z least xScale data (clamped xRange start) = some 0 ∨
      getNearestPointIdx x z least xScale data (clamped xRange stop) = some 0) :
    gesture x z least xScale xRange data start moves stop = none := by
  rw [gesture_eq]
  simp only [onEnd, onStart]
  split
  · rename_i startIdx endIdx hstart hend
    refine if_neg fun hne => ?_
    rcases h with h | h
    · rw [hstart] at h
      exact hne.1 (Option.some.inj h)
    · rw [hend] at h
      exact hne.2 (Option.some.inj h)
  · rfl

variable (x xScale) in
/-- The index found for a position, and its sample. -/
theorem exists_nearest (hleast : IsLeastFn least) (hz : ∀ p ∈ data, ∀ q ∈ data, z p = z q)
    (hne : data ≠ []) (pos : ℚ) :
    ∃ i p, getNearestPointIdx x z least xScale data pos = some i ∧ data[i]? = some p ∧
      SampleNearest x xScale data pos (x p) := by
  have hcount : linePointCount z data = data.length := linePointCount_single hz
  have hpos : 0 < linePointCount z data := hcount ▸ List.length_pos_iff.2 hne
  obtain ⟨i, hi⟩ := exists_getNearestPointIdx x xScale hleast hpos pos
  have hlt := getNearestPointIdx_lt hleast hi
  rw [hcount] at hlt
  refine ⟨i, _, hi, List.getElem?_eq_getElem hlt, ?_⟩
  rw [sampleNearest_iff (List.getElem?_eq_getElem hlt)]
  intro j hj
  exact getNearestPointIdx_le hleast hi (by rwa [hcount])

/-! ## Enough -/

section Scale

variable (hscale : ∀ p ∈ data, ∀ q ∈ data, x p < x q → xScale (x p) < xScale (x q))

include hscale

/-- Positions that do not grow have times that do not. -/
theorem time_le_of_position_le {p q : T} (hp : p ∈ data) (hq : q ∈ data)
    (h : xScale (x p) ≤ xScale (x q)) : x p ≤ x q := by
  by_contra hlt
  exact absurd (hscale q hq p hp (not_le.1 hlt)) (not_lt.2 h)

/-- Of two positions, no sample nearest to the left is later than one nearest to the
right. -/
theorem sampleNearest_mono {pos pos' : ℚ} {t t' : Date} (hlt : pos < pos')
    (h : SampleNearest x xScale data pos t) (h' : SampleNearest x xScale data pos' t') :
    t ≤ t' := by
  obtain ⟨⟨p, hp, rfl⟩, hnear⟩ := h
  obtain ⟨⟨q, hq, rfl⟩, hnear'⟩ := h'
  exact time_le_of_position_le hscale hp hq (isNearest_mono hlt hnear hnear')

theorem proper_of_selectable (hleast : IsLeastFn least)
    (hz : ∀ p ∈ data, ∀ q ∈ data, z p = z q) {start stop : ℚ} (moves : List ℚ)
    (h : Selectable x xScale data (clamped xRange start) (clamped xRange stop)) :
    ProperRange x xScale data (min (clamped xRange start) (clamped xRange stop))
      (max (clamped xRange start) (clamped xRange stop))
      (gesture x z least xScale xRange data start moves stop) := by
  obtain ⟨first, hfirst, hstart, hstop, hdir⟩ := h
  have hne : data ≠ [] := by
    rintro rfl
    simp at hfirst
  have hzero : data[0]? = some first := by
    rw [← List.head?_eq_getElem?]
    exact hfirst
  obtain ⟨i, p, hi, hp, hnear⟩ :=
    exists_nearest x xScale hleast hz hne (clamped xRange start)
  obtain ⟨j, q, hj, hq, hnear'⟩ :=
    exists_nearest x xScale hleast hz hne (clamped xRange stop)
  have hi0 : i ≠ 0 := by
    rintro rfl
    rw [hp] at hzero
    cases hzero
    exact hstart hnear
  have hj0 : j ≠ 0 := by
    rintro rfl
    rw [hq] at hzero
    cases hzero
    exact hstop hnear'
  have hcall : gesture x z least xScale xRange data start moves stop = some (x p, x q) := by
    rw [gesture_of_nearest moves hi hj hp hq, if_pos ⟨hi0, hj0⟩]
  refine ⟨x p, x q, hcall, ?_⟩
  rcases lt_trichotomy (clamped xRange start) (clamped xRange stop) with hlt | heq | hgt
  · rw [min_eq_left hlt.le, max_eq_right hlt.le]
    exact ⟨sampleNearest_mono hscale hlt hnear hnear', hnear, hnear'⟩
  · -- the same index for both ends
    rw [heq, hj] at hi
    obtain rfl : j = i := Option.some.inj hi
    rw [hp] at hq
    obtain rfl : p = q := Option.some.inj hq
    rw [← heq, min_self, max_self]
    exact ⟨le_rfl, hnear, hnear⟩
  · rw [min_eq_right hgt.le, max_eq_left hgt.le]
    have hsame : x p = x q := (hdir.resolve_left (not_le.2 hgt)) _ _ hnear hnear'
    rw [hsame] at hnear ⊢
    exact ⟨le_rfl, hnear', hnear⟩

end Scale

/-! ## Needed -/

/-- A function like `d3.least` that prefers the indices `pick`. -/
def preferring (pick : (ℕ → ℚ) → ℕ) (l : List ℕ) (f : ℕ → ℚ) : Option ℕ :=
  if pick f ∈ l ∧ ∀ j ∈ l, f (pick f) ≤ f j then some (pick f) else l.argmin f

theorem isLeastFn_preferring (pick : (ℕ → ℚ) → ℕ) : IsLeastFn (preferring pick) where
  mem l f i h := by
    unfold preferring at h
    split at h
    · rename_i hpick
      obtain rfl := Option.some.inj h
      exact hpick.1
    · exact isLeastFn_argmin.mem l f i h
  le l f i h := by
    unfold preferring at h
    split at h
    · rename_i hpick
      obtain rfl := Option.some.inj h
      exact hpick.2
    · exact isLeastFn_argmin.le l f i h
  eq_nil l f h := by
    unfold preferring at h
    split at h
    · cases h
    · exact isLeastFn_argmin.eq_nil l f h

theorem getNearestPointIdx_preferring {pick : (ℕ → ℚ) → ℕ} {pos : ℚ} {i : ℕ} {p : T}
    (hz : ∀ p ∈ data, ∀ q ∈ data, z p = z q) (hpick : pick (distance x xScale data pos) = i)
    (hp : data[i]? = some p) (hnear : SampleNearest x xScale data pos (x p)) :
    getNearestPointIdx x z (preferring pick) xScale data pos = some i := by
  have hlt : i < data.length := (List.getElem?_eq_some_iff.1 hp).1
  rw [getNearestPointIdx, linePointCount_single hz, preferring, hpick, if_pos]
  refine ⟨List.mem_range.2 hlt, fun j hj => ?_⟩
  exact (sampleNearest_iff hp).1 hnear j (List.mem_range.1 hj)

section Needed

variable (hz : ∀ p ∈ data, ∀ q ∈ data, z p = z q) {start stop : ℚ}

include hz

/-- The call at the end of a drag that ends with preferred indices. -/
theorem gesture_preferring {pick : (ℕ → ℚ) → ℕ} {i j : ℕ} {p q : T}
    (hp : data[i]? = some p) (hq : data[j]? = some q)
    (hi : pick (distance x xScale data (clamped xRange start)) = i)
    (hj : pick (distance x xScale data (clamped xRange stop)) = j)
    (hnear : SampleNearest x xScale data (clamped xRange start) (x p))
    (hnear' : SampleNearest x xScale data (clamped xRange stop) (x q)) :
    gesture x z (preferring pick) xScale xRange data start [] stop =
      if i ≠ 0 ∧ j ≠ 0 then some (x p, x q) else none := by
  have hidx := getNearestPointIdx_preferring hz hi hp hnear
  have hidx' := getNearestPointIdx_preferring hz hj hq hnear'
  exact gesture_of_nearest [] hidx hidx' hp hq

variable (h : ∀ least, IsLeastFn least →
  ∃ a b, gesture x z least xScale xRange data start [] stop = some (a, b) ∧ a ≤ b)

include h

/-- The first sample is nearest to neither end. -/
theorem first_not_nearest {first : T} (hfirst : data[0]? = some first) :
    ¬SampleNearest x xScale data (clamped xRange start) (x first) ∧
      ¬SampleNearest x xScale data (clamped xRange stop) (x first) := by
  obtain ⟨a, b, hcall, -⟩ := h _ (isLeastFn_preferring fun _ => 0)
  constructor
  · intro hnear
    rw [gesture_of_first _ (.inl (getNearestPointIdx_preferring hz rfl hfirst hnear))] at hcall
    cases hcall
  · intro hnear
    rw [gesture_of_first _ (.inr (getNearestPointIdx_preferring hz rfl hfirst hnear))] at hcall
    cases hcall

/-- A drag to the left has one nearest sample time to both ends. -/
theorem same_of_left (hscale : ∀ p ∈ data, ∀ q ∈ data, x p < x q → xScale (x p) < xScale (x q))
    (hleft : clamped xRange stop < clamped xRange start) {a b : Date}
    (ha : SampleNearest x xScale data (clamped xRange start) a)
    (hb : SampleNearest x xScale data (clamped xRange stop) b) : a = b := by
  classical
  have hba : b ≤ a := sampleNearest_mono hscale hleft hb ha
  obtain ⟨⟨p, hp, rfl⟩, hnear⟩ := ha
  obtain ⟨⟨q, hq, rfl⟩, hnear'⟩ := hb
  refine le_antisymm ?_ hba
  obtain ⟨i, hi⟩ := List.mem_iff_getElem?.1 hp
  obtain ⟨j, hj⟩ := List.mem_iff_getElem?.1 hq
  by_cases hsame : distance x xScale data (clamped xRange start) =
      distance x xScale data (clamped xRange stop)
  · -- what is equally far from both ends lies in the middle between them
    have hmid {k : ℕ} {r : T} (hr : data[k]? = some r) :
        2 * xScale (x r) = clamped xRange start + clamped xRange stop := by
      have heq := congrFun hsame k
      rw [distance_eq hr, distance_eq hr, abs_eq_abs] at heq
      rcases heq with heq | heq
      · linarith
      · linarith
    refine time_le_of_position_le hscale hp hq ?_
    have := hmid hi
    have := hmid hj
    linarith
  · -- a function that finds `p` at the start and `q` at the end
    obtain ⟨a, b, hcall, hle⟩ := h _ (isLeastFn_preferring fun f =>
      if f = distance x xScale data (clamped xRange start) then i else j)
    rw [gesture_preferring hz hi hj (if_pos rfl) (if_neg (Ne.symm hsame)) ⟨⟨p, hp, rfl⟩, hnear⟩
      ⟨⟨q, hq, rfl⟩, hnear'⟩] at hcall
    split at hcall
    · obtain ⟨rfl, rfl⟩ := Prod.mk.inj (Option.some.inj hcall)
      exact hle
    · cases hcall

/-- What a call with increasing times needs of the gesture, whichever of the nearest
indices `d3.least` returns. -/
theorem selectable_of_called (hne : data ≠ [])
    (hscale : ∀ p ∈ data, ∀ q ∈ data, x p < x q → xScale (x p) < xScale (x q)) :
    Selectable x xScale data (clamped xRange start) (clamped xRange stop) := by
  obtain ⟨first, hfirst⟩ : ∃ first, data.head? = some first :=
    ⟨data.head hne, List.head?_eq_some_head hne⟩
  have hzero : data[0]? = some first := by rwa [← List.head?_eq_getElem?]
  obtain ⟨hstart, hstop⟩ := first_not_nearest hz h hzero
  refine ⟨first, hfirst, hstart, hstop, ?_⟩
  rcases le_or_gt (clamped xRange start) (clamped xRange stop) with hright | hleft
  · exact .inl hright
  · exact .inr fun a b ha hb => same_of_left hz h hscale hleft ha hb

end Needed

variable (x z xScale xRange)

/-- **Which drags set a proper range.**  Whichever of the nearest indices `d3.least`
returns, the drag ends with the range between its two ends: exactly when it is
selectable. -/
theorem proper_iff_selectable (xDomain : Option (Date × Date)) (data : List T)
    (hz : ∀ p ∈ data, ∀ q ∈ data, z p = z q)
    (hscale : ∀ p ∈ filteredData x xDomain data, ∀ q ∈ filteredData x xDomain data,
      x p < x q → xScale (x p) < xScale (x q))
    (start : ℚ) (moves : List ℚ) (stop : ℚ) :
    (∀ least, IsLeastFn least →
      ProperRange x xScale (filteredData x xDomain data)
        (min (clamped xRange start) (clamped xRange stop))
        (max (clamped xRange start) (clamped xRange stop))
        (gesture x z least xScale xRange (filteredData x xDomain data) start moves stop)) ↔
      Selectable x xScale (filteredData x xDomain data) (clamped xRange start)
        (clamped xRange stop) := by
  have hsub : ∀ p ∈ filteredData x xDomain data, p ∈ data := filteredData_subset
  have hz' : ∀ p ∈ filteredData x xDomain data, ∀ q ∈ filteredData x xDomain data, z p = z q :=
    fun p hp q hq => hz p (hsub p hp) q (hsub q hq)
  constructor
  · intro h
    have hcalled (least) (hleast : IsLeastFn least) : ∃ a b,
        gesture x z least xScale xRange (filteredData x xDomain data) start [] stop =
          some (a, b) ∧ a ≤ b := by
      obtain ⟨a, b, hcall, hle, -⟩ := h least hleast
      rw [gesture_eq] at hcall
      exact ⟨a, b, (gesture_eq _ _ _).trans hcall, hle⟩
    have hne : filteredData x xDomain data ≠ [] := by
      obtain ⟨a, b, -, -, ⟨⟨p, hp, -⟩, -⟩, -⟩ := h _ isLeastFn_argmin
      exact List.ne_nil_of_mem hp
    exact selectable_of_called hz' hcalled hne hscale
  · intro h least hleast
    exact proper_of_selectable hscale hleast hz' moves h

/-- Samples at 0, 10 and 20, drawn at these positions. -/
def threeSamples : List Date := [0, 10, 20]

theorem proper_iff_selectable_right :
    ProperRange id (fun t => (t : ℚ)) threeSamples 12 19
      (gesture id (fun _ => ()) (fun l f => l.argmin f) (fun t => (t : ℚ)) (0, 20) threeSamples
        12 [15] 19) := by
  have hiff := proper_iff_selectable id (fun _ => ()) (fun t => (t : ℚ)) (0, 20) none threeSamples
    (fun _ _ _ _ => rfl) (fun _ _ _ _ h => Int.cast_lt.2 h) 12 [15] 19
  have hstart : clamped (0, 20) 12 = 12 := by decide +kernel
  have hstop : clamped (0, 20) 19 = 19 := by decide +kernel
  have hmin : min (12 : ℚ) 19 = 12 := by decide +kernel
  have hmax : max (12 : ℚ) 19 = 19 := by decide +kernel
  rw [hstart, hstop, hmin, hmax] at hiff
  refine hiff.2 ⟨0, rfl, ?_, ?_, .inl (by decide +kernel)⟩ _ isLeastFn_argmin
  · intro h
    have hle := h.2.2 10 ⟨10, by decide, by simp⟩
    revert hle
    decide +kernel
  · intro h
    have hle := h.2.2 20 ⟨20, by decide, by simp⟩
    revert hle
    decide +kernel

/-- A drag from the first sample sets no range, and a drag to the left sets the ends the
wrong way round. -/
theorem drag_not_proper :
    IsLeastFn (fun l f => l.argmin f) ∧
    (¬ProperRange id (fun t => (t : ℚ)) threeSamples 0 19
      (gesture id (fun _ => ()) (fun l f => l.argmin f) (fun t => (t : ℚ)) (0, 20) threeSamples
        0 [] 19)) ∧
    ¬ProperRange id (fun t => (t : ℚ)) threeSamples 12 19
      (gesture id (fun _ => ()) (fun l f => l.argmin f) (fun t => (t : ℚ)) (0, 20) threeSamples
        19 [] 12) := by
  have hfirst : gesture id (fun _ => ()) (fun l f => l.argmin f) (fun t => (t : ℚ)) (0, 20)
      threeSamples 0 [] 19 = none := by decide +kernel
  have hleft : gesture id (fun _ => ()) (fun l f => l.argmin f) (fun t => (t : ℚ)) (0, 20)
      threeSamples 19 [] 12 = some (20, 10) := by decide +kernel
  refine ⟨isLeastFn_argmin, ?_, ?_⟩
  · rintro ⟨a, b, hcall, -⟩
    rw [hfirst] at hcall
    cases hcall
  · rintro ⟨a, b, hcall, hle, -⟩
    rw [hleft] at hcall
    obtain ⟨rfl, rfl⟩ := Prod.mk.inj (Option.some.inj hcall)
    revert hle
    decide

end LineChart

end JobMon
