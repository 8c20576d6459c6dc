import Mathlib.Algebra.BigOperators.Group.Finset.Basic
import Mathlib.Data.List.Sort
import JobMon.Lib.Blocks
import JobMon.Frontend.LineChart

/-!
# The tooltip of a chart

`pointermoved` of `components/charts/LineChart.tsx`: the values of the lines at the index
nearest to the pointer.

* `collected`, `tooltipValues` — the values, one for each line.
* `Lines` — data that is the concatenation of non-empty lines, `visible` — what the filter
  leaves of them.
* `TooltipRight` — one point of each line that has one at the time shown, and no other.
* `Aligned`, `IsTable` — at the positions looked at are points of the right line and time.
* `tooltip_right_iff` — exactly when the values are right: at one index, and at all.
-/

namespace JobMon

namespace LineChart

open Blocks

variable {T K : Type} (x : T → Date) (y : T → ℚ) (z : T → K)

/-! ## The values -/

/-- The values of the lines, from the last line on; a position without a point would give
an undefined value. -/
def collected [DecidableEq K] (data : List T) (i : ℕ) : List (Option T) :=
  (List.range (zSet z data).length).reverse.map fun idx => data[idx * linePointCount z data + i]?

/-- `values`, sorted. -/
def tooltipValues [DecidableEq K] (data : List T) (i : ℕ) : List T :=
  ((collected z data i).filterMap id).insertionSort fun a b => ¬y b < y a

/-- The values shown for the time `t` are one point of each line that has one at `t`. -/
structure TooltipRight (data : List T) (t : Date) (values : List T) : Prop where
  time : ∀ p ∈ values, x p = t
  distinct : (values.map z).Nodup
  complete : ∀ p ∈ data, x p = t → z p ∈ values.map z

/-! ## Lines -/

/-- Non-empty lines, each with a `z` of its own. -/
structure Lines (series : List (List T)) : Prop where
  nonempty : ∀ line ∈ series, line ≠ []
  same : ∀ line ∈ series, ∀ p ∈ line, ∀ q ∈ line, z p = z q
  distinct : series.Pairwise fun line line' => ∀ p ∈ line, ∀ q ∈ line', z p ≠ z q

/-- Whether a point of the data is shown. -/
def inView (xDomain : Option (Date × Date)) (data : List T) (p : T) : Bool :=
  match xDomain with
  | none => true
  | some xDomain =>
    checkBetween (clampDomain x xDomain data).1 (clampDomain x xDomain data).2 (x p)

/-- What is shown of the lines. -/
def visible (xDomain : Option (Date × Date)) (series : List (List T)) : List (List T) :=
  (series.map (List.filter (inView x xDomain series.flatten))).filter (· ≠ [])

/-- The positions looked at for the index `i` are in their lines and have one time. -/
def Aligned (lines : List (List T)) (c i : ℕ) : Prop :=
  ∀ k < lines.length, InBlock lines k (k * c + i) ∧
    lines.flatten[k * c + i]?.map x = lines.flatten[i]?.map x

/-- The lines are a table with `c` columns, but for a longer last line, and each column has
one time. -/
structure IsTable (lines : List (List T)) (c : ℕ) : Prop where
  length_eq : ∀ line ∈ lines.dropLast, line.length = c
  le_last : ∀ line ∈ lines.getLast?, c ≤ line.length
  times : ∀ row ∈ lines, ∀ row' ∈ lines, ∀ i < c, row[i]?.map x = row'[i]?.map x

/-- What the tooltip shows at an index is right. -/
def RightAt [DecidableEq K] (data : List T) (i : ℕ) : Prop :=
  ∀ q ∈ data[i]?, TooltipRight x z data (x q) (tooltipValues y z data i)

variable {x y z}

theorem filteredData_flatten (xDomain : Option (Date × Date)) (series : List (List T)) :
    filteredData x xDomain series.flatten = (visible x xDomain series).flatten := by
  rw [visible, List.flatten_filter_ne_nil, ← List.filter_flatten]
  cases xDomain with
  | none => exact (List.filter_eq_self.2 fun _ _ => rfl).symm
  | some xDomain => rfl

theorem lines_visible {series : List (List T)} (h : Lines z series)
    (xDomain : Option (Date × Date)) : Lines z (visible x xDomain series) := by
  have hmem : ∀ line ∈ visible x xDomain series, ∃ whole ∈ series, line ⊆ whole := by
    intro line hline
    obtain ⟨whole, hwhole, rfl⟩ := List.mem_map.1 (List.mem_of_mem_filter hline)
    exact ⟨whole, hwhole, List.filter_subset_self _⟩
  refine ⟨fun line hline => by simpa using (List.mem_filter.1 hline).2, ?_, ?_⟩
  · intro line hline p hp q hq
    obtain ⟨whole, hwhole, hsub⟩ := hmem line hline
    exact h.same whole hwhole p (hsub hp) q (hsub hq)
  · refine List.Pairwise.filter _ (List.pairwise_map.2 (h.distinct.imp ?_))
    intro line line' hne p hp q hq
    exact hne p (List.mem_of_mem_filter hp) q (List.mem_of_mem_filter hq)

/-- Points of different lines differ in `z`. -/
theorem Lines.eq_of_z_eq {lines : List (List T)} (h : Lines z lines) {k k' : ℕ}
    {line line' : List T} {p q : T} (hk : lines[k]? = some line) (hk' : lines[k']? = some line')
    (hp : p ∈ line) (hq : q ∈ line') (heq : z p = z q) : k = k' := by
  obtain ⟨hlt, rfl⟩ := List.getElem?_eq_some_iff.1 hk
  obtain ⟨hlt', rfl⟩ := List.getElem?_eq_some_iff.1 hk'
  have hpairs := List.pairwise_iff_getElem.1 h.distinct
  rcases lt_trichotomy k k' with hlt'' | rfl | hgt
  · exact absurd heq (hpairs k k' hlt hlt' hlt'' p hp q hq)
  · rfl
  · exact absurd heq.symm (hpairs k' k hlt' hlt hgt q hq p hp)

section Values

variable [DecidableEq K] {lines : List (List T)}

/-- There are as many values of `z` as lines. -/
theorem length_zSet (h : Lines z lines) : (zSet z lines.flatten).length = lines.length := by
  rw [zSet, ← List.card_toFinset]
  induction lines with
  | nil => rfl
  | cons line lines ih =>
    obtain ⟨hdistinct, hpairs⟩ := List.pairwise_cons.1 h.distinct
    have hrest : Lines z lines :=
      ⟨fun l hl => h.nonempty l (List.mem_cons_of_mem _ hl),
        fun l hl => h.same l (List.mem_cons_of_mem _ hl), hpairs⟩
    obtain ⟨p, hp⟩ := List.exists_mem_of_ne_nil line (h.nonempty line List.mem_cons_self)
    have hline : (line.map z).toFinset = {z p} := by
      ext k
      simp only [List.mem_toFinset, List.mem_map, Finset.mem_singleton]
      constructor
      · rintro ⟨q, hq, rfl⟩
        exact h.same line List.mem_cons_self q hq p hp
      · rintro rfl
        exact ⟨p, hp, rfl⟩
    have hnew : z p ∉ (lines.flatten.map z).toFinset := by
      simp only [List.mem_toFinset, List.mem_map, List.mem_flatten]
      rintro ⟨q, ⟨line', hline', hq⟩, heq⟩
      exact hdistinct line' hline' p hp q hq heq.symm
    rw [List.flatten_cons, List.map_append, List.toFinset_append, hline, Finset.singleton_union,
      Finset.card_insert_of_notMem hnew, ih hrest, List.length_cons]

theorem linePointCount_flatten (h : Lines z lines) :
    linePointCount z lines.flatten = lines.flatten.length / lines.length := by
  rw [linePointCount, length_zSet h]

/-- No position looked at is beyond the data. -/
theorem position_lt (h : Lines z lines) {k i : ℕ} (hk : k < lines.length)
    (hi : i < linePointCount z lines.flatten) :
    k * linePointCount z lines.flatten + i < lines.flatten.length := by
  have hrow : (k + 1) * linePointCount z lines.flatten ≤
      lines.length * linePointCount z lines.flatten := Nat.mul_le_mul_right _ hk
  have hall : lines.length * linePointCount z lines.flatten ≤ lines.flatten.length := by
    rw [linePointCount_flatten h]
    exact Nat.mul_div_le _ _
  rw [Nat.succ_mul] at hrow
  omega

theorem exists_value (h : Lines z lines) {k i : ℕ} (hk : k < lines.length)
    (hi : i < linePointCount z lines.flatten) :
    ∃ p, lines.flatten[k * linePointCount z lines.flatten + i]? = some p :=
  ⟨_, List.getElem?_eq_getElem (position_lt h hk hi)⟩

/-- So no value is undefined. -/
theorem collected_defined (h : Lines z lines) {i : ℕ} (hi : i < linePointCount z lines.flatten) :
    none ∉ collected z lines.flatten i := by
  intro hmem
  obtain ⟨k, hk, hnone⟩ := List.mem_map.1 hmem
  rw [List.mem_reverse, List.mem_range, length_zSet h] at hk
  obtain ⟨p, hp⟩ := exists_value h hk hi
  rw [hp] at hnone
  cases hnone

theorem tooltipValues_perm (h : Lines z lines) (i : ℕ) :
    (tooltipValues y z lines.flatten i).Perm
      ((List.range lines.length).filterMap
        fun k => lines.flatten[k * linePointCount z lines.flatten + i]?) := by
  refine (List.perm_insertionSort _ _).trans ?_
  rw [collected, length_zSet h, List.filterMap_map]
  exact (List.reverse_perm _).filterMap _

theorem mem_tooltipValues_iff (h : Lines z lines) {i : ℕ} {p : T} :
    p ∈ tooltipValues y z lines.flatten i ↔
      ∃ k < lines.length, lines.flatten[k * linePointCount z lines.flatten + i]? = some p := by
  rw [(tooltipValues_perm h i).mem_iff, List.mem_filterMap]
  simp only [List.mem_range]

theorem nodup_tooltipValues_iff (h : Lines z lines) {i : ℕ} :
    ((tooltipValues y z lines.flatten i).map z).Nodup ↔
      ∀ k k', k < k' → k' < lines.length →
        ∀ p, lines.flatten[k * linePointCount z lines.flatten + i]? = some p →
        ∀ q, lines.flatten[k' * linePointCount z lines.flatten + i]? = some q → z p ≠ z q := by
  rw [((tooltipValues_perm h i).map z).nodup_iff, List.Nodup, List.pairwise_map,
    List.pairwise_filterMap, List.pairwise_iff_getElem]
  simp only [List.length_range, List.getElem_range]
  constructor
  · intro hpairs k k' hlt hk'
    exact hpairs k k' (by omega) hk' hlt
  · intro hpairs k k' _ hk' hlt
    exact hpairs k k' hlt hk'

end Values

/-! ## At one index -/

section Index

variable [DecidableEq K] {lines : List (List T)}

/-- What is looked at for different lines lies in different lines. -/
theorem inBlock_of_nodup (h : Lines z lines) {i : ℕ} (hi : i < linePointCount z lines.flatten)
    (hdistinct : ((tooltipValues y z lines.flatten i).map z).Nodup) :
    ∀ k < lines.length, InBlock lines k (k * linePointCount z lines.flatten + i) := by
  rw [nodup_tooltipValues_iff h] at hdistinct
  -- two positions in one line would have one `z`
  have hapart : ∀ k k' j, k < k' → k' < lines.length →
      InBlock lines j (k * linePointCount z lines.flatten + i) →
      ¬InBlock lines j (k' * linePointCount z lines.flatten + i) := by
    intro k k' j hlt hk' hin hin'
    have hj : j < lines.length := hin.lt_length
    have hline : lines[j]? = some lines[j] := List.getElem?_eq_getElem hj
    obtain ⟨p, hp⟩ := exists_value h (hlt.trans hk') hi
    obtain ⟨q, hq⟩ := exists_value h hk' hi
    refine hdistinct k k' hlt hk' p hp q hq ?_
    exact h.same _ (List.getElem_mem _) _ (hin.mem hline hp) _ (hin'.mem hline hq)
  refine inBlock_of_distinct ?_ (fun k hk => position_lt h hk hi) ?_
  · intro k k' hlt _
    have := Nat.mul_lt_mul_of_pos_right hlt (Nat.zero_lt_of_lt hi)
    omega
  · intro k hk k' hk' j hin hin'
    rcases lt_trichotomy k k' with hlt | heq | hgt
    · exact absurd hin' (hapart k k' j hlt hk' hin)
    · exact heq
    · exact absurd hin (hapart k' k j hgt hk hin')

theorem rightAt_iff_aligned (h : Lines z lines) {i : ℕ}
    (hi : i < linePointCount z lines.flatten) :
    RightAt x y z lines.flatten i ↔ Aligned x lines (linePointCount z lines.flatten) i := by
  obtain ⟨q, hq⟩ := exists_point hi
  constructor
  · intro hright k hk
    have hright := hright q hq
    refine ⟨inBlock_of_nodup h hi hright.distinct k hk, ?_⟩
    obtain ⟨p, hp⟩ := exists_value h hk hi
    rw [hp, hq, Option.map_some, Option.map_some,
      hright.time p ((mem_tooltipValues_iff h).2 ⟨k, hk, hp⟩)]
  · intro haligned q' hq'
    obtain rfl : q' = q := Option.some.inj (hq'.symm.trans hq)
    refine ⟨?_, ?_, ?_⟩
    · intro p hp
      obtain ⟨k, hk, hp⟩ := (mem_tooltipValues_iff h).1 hp
      have htime := (haligned k hk).2
      rw [hp, hq, Option.map_some, Option.map_some] at htime
      exact Option.some.inj htime
    · rw [nodup_tooltipValues_iff h]
      intro k k' hlt hk' p hp p' hp' heq
      have hk : k < lines.length := hlt.trans hk'
      have hline : lines[k]? = some lines[k] := List.getElem?_eq_getElem hk
      have hline' : lines[k']? = some lines[k'] := List.getElem?_eq_getElem hk'
      have := h.eq_of_z_eq hline hline' ((haligned k hk).1.mem hline hp)
        ((haligned k' hk').1.mem hline' hp') heq
      omega
    · intro p hp _
      obtain ⟨line, hline, hmem⟩ := List.mem_flatten.1 hp
      obtain ⟨k, hk, rfl⟩ := List.mem_iff_getElem.1 hline
      obtain ⟨r, hr⟩ := exists_value h hk hi
      have hrline := (haligned k hk).1.mem (List.getElem?_eq_getElem hk) hr
      rw [h.same _ hline p hmem r hrline]
      exact List.mem_map_of_mem ((mem_tooltipValues_iff h).2 ⟨k, hk, hr⟩)

end Index

/-! ## At every index -/

section All

variable [DecidableEq K] {lines : List (List T)}

theorem linePointCount_pos (h : Lines z lines) (hne : lines ≠ []) :
    0 < linePointCount z lines.flatten := by
  have hlen : lines.length ≤ lines.flatten.length := by
    have hones : ∀ n ∈ lines.map List.length, 1 ≤ n := by
      intro n hn
      obtain ⟨line, hline, rfl⟩ := List.mem_map.1 hn
      exact List.length_pos_iff.2 (h.nonempty line hline)
    have hsum := List.length_le_sum_of_one_le _ hones
    rwa [List.length_map, ← List.length_flatten] at hsum
  rw [linePointCount_flatten h]
  exact Nat.div_pos hlen (List.length_pos_iff.2 hne)

/-- The point at a position, seen in its line. -/
theorem getElem?_line {k p : ℕ} (h : InBlock lines k p) {row : List T}
    (hrow : lines[k]? = some row) : lines.flatten[p]? = row[p - offset lines k]? := by
  obtain ⟨row', hrow', hle, hlt⟩ := h
  obtain rfl : row' = row := Option.some.inj (hrow'.symm.trans hrow)
  rw [← getElem?_flatten hrow (by omega), Nat.add_sub_cancel' hle]

section Strict

variable (hstrict : ∀ line ∈ lines, line.Pairwise fun p q => x p < x q)

include hstrict

/-- Within a line the time grows with the position. -/
theorem time_lt_of_lt {k p p' : ℕ} {a b : T} (hin : InBlock lines k p) (hin' : InBlock lines k p')
    (hlt : p < p') (ha : lines.flatten[p]? = some a) (hb : lines.flatten[p']? = some b) :
    x a < x b := by
  have hk : k < lines.length := hin.lt_length
  have hline : lines[k]? = some lines[k] := List.getElem?_eq_getElem hk
  rw [getElem?_line hin hline] at ha
  rw [getElem?_line hin' hline] at hb
  obtain ⟨hi, rfl⟩ := List.getElem?_eq_some_iff.1 ha
  obtain ⟨hj, rfl⟩ := List.getElem?_eq_some_iff.1 hb
  have := hin.offset_le
  exact List.pairwise_iff_getElem.1 (hstrict _ (List.getElem_mem hk)) _ _ hi hj (by omega)

/-- Positions of a line with one time are the same. -/
theorem eq_of_time_eq {k p p' : ℕ} {a b : T} (hin : InBlock lines k p) (hin' : InBlock lines k p')
    (ha : lines.flatten[p]? = some a) (hb : lines.flatten[p']? = some b) (htime : x a = x b) :
    p = p' := by
  rcases lt_trichotomy p p' with hlt | heq | hgt
  · exact absurd htime (time_lt_of_lt hstrict hin hin' hlt ha hb).ne
  · exact heq
  · exact absurd htime (time_lt_of_lt hstrict hin' hin hgt hb ha).ne'

end Strict

variable {least : List ℕ → (ℕ → ℚ) → Option ℕ} {xScale : Date → ℚ}
  (hleast : IsLeastFn least)
  (hscale : ∀ p ∈ lines.flatten, ∀ q ∈ lines.flatten, x p < x q → xScale (x p) < xScale (x q))

include hleast hscale

/-- At the position of a sample an index with its time is found. -/
theorem exists_at_sample {i : ℕ} (hi : i < linePointCount z lines.flatten) {q : T}
    (hq : lines.flatten[i]? = some q) :
    ∃ j p, getNearestPointIdx x z least xScale lines.flatten (xScale (x q)) = some j ∧
      j < linePointCount z lines.flatten ∧ lines.flatten[j]? = some p ∧ x p = x q := by
  obtain ⟨j, hj⟩ := exists_getNearestPointIdx x xScale hleast
    (Nat.zero_lt_of_lt hi) (xScale (x q))
  have hlt := getNearestPointIdx_lt hleast hj
  obtain ⟨p, hp⟩ := exists_point hlt
  refine ⟨j, p, hj, hlt, hp, ?_⟩
  -- its distance is zero
  have hle := getNearestPointIdx_le hleast hj hi
  rw [distance, distance, hp, hq] at hle
  simp only [Option.map_some, Option.getD_some, sub_self, abs_zero] at hle
  have hzero := sub_eq_zero.1 (abs_nonpos_iff.1 hle)
  have hmem := List.mem_of_getElem? hp
  have hmem' := List.mem_of_getElem? hq
  rcases lt_trichotomy (x p) (x q) with hlt | heq | hgt
  · exact absurd hzero (hscale _ hmem _ hmem' hlt).ne
  · exact heq
  · exact absurd hzero (hscale _ hmem' _ hmem hgt).ne'

variable (hall : ∀ pos i, getNearestPointIdx x z least xScale lines.flatten pos = some i →
    Aligned x lines (linePointCount z lines.flatten) i)

include hall

/-- At the position of a sample an index of the first line is found. -/
theorem exists_in_first (hne : lines ≠ []) {i : ℕ} (hi : i < linePointCount z lines.flatten)
    {q : T} (hq : lines.flatten[i]? = some q) :
    ∃ j p, InBlock lines 0 j ∧ lines.flatten[j]? = some p ∧ x p = x q ∧
      Aligned x lines (linePointCount z lines.flatten) j := by
  obtain ⟨j, p, hj, -, hp, htime⟩ := exists_at_sample hleast hscale hi hq
  have haligned := hall _ j hj
  have hin := (haligned 0 (List.length_pos_iff.2 hne)).1
  rw [Nat.zero_mul, Nat.zero_add] at hin
  exact ⟨j, p, hin, hp, htime, haligned⟩

variable (h : Lines z lines) (hstrict : ∀ line ∈ lines, line.Pairwise fun p q => x p < x q)

include hstrict

/-- An index in the first line is aligned. -/
theorem aligned_of_inBlock (hne : lines ≠ []) {i : ℕ} (hi : i < linePointCount z lines.flatten)
    (hin : InBlock lines 0 i) : Aligned x lines (linePointCount z lines.flatten) i := by
  obtain ⟨q, hq⟩ := exists_point hi
  obtain ⟨j, p, hinj, hp, htime, haligned⟩ := exists_in_first hleast hscale hall hne hi hq
  rwa [eq_of_time_eq hstrict hinj hin hp hq htime] at haligned

include h

/-- The first line is long enough: if it were not, the first point of the second line would
come before the time of the first index. -/
theorem le_first (hne : lines ≠ []) {line : List T} (hline : lines[0]? = some line) :
    linePointCount z lines.flatten ≤ line.length := by
  by_contra hlt
  have hlt := not_le.1 hlt
  have hcount := linePointCount_pos h hne
  have hlen : 0 < line.length :=
    List.length_pos_iff.2 (h.nonempty line (List.mem_of_getElem? hline))
  have hoffset : offset lines 1 = line.length := by
    rw [offset_succ hline, offset_zero, Nat.zero_add]
  have hzero : InBlock lines 0 0 := ⟨line, hline, le_rfl, by simpa using hlen⟩
  have haligned := aligned_of_inBlock hleast hscale hall hstrict hne hcount hzero
  -- there is a second line
  have htwo : 1 < lines.length := by
    by_contra hone
    have hone : lines.length = 1 := by
      have := List.length_pos_iff.2 hne
      omega
    rw [linePointCount_flatten h, ← offset_length, hone, hoffset, Nat.div_one] at hlt
    omega
  obtain ⟨hin, htime⟩ := haligned 1 htwo
  rw [Nat.one_mul, Nat.add_zero] at hin htime
  have hsecond : InBlock lines 1 line.length := by
    refine ⟨lines[1], List.getElem?_eq_getElem htwo, hoffset.le, ?_⟩
    have := List.length_pos_iff.2 (h.nonempty lines[1] (List.getElem_mem htwo))
    omega
  obtain ⟨first, hfirst⟩ := exists_point hcount
  obtain ⟨q, hq⟩ := exists_point hlt
  obtain ⟨r, hr⟩ : ∃ r, lines.flatten[linePointCount z lines.flatten]? = some r := by
    rw [hfirst, Option.map_some, Option.map_eq_some_iff] at htime
    obtain ⟨r, hr, -⟩ := htime
    exact ⟨r, hr⟩
  rw [hr, hfirst, Option.map_some, Option.map_some, Option.some.injEq] at htime
  have hbefore : x q < x first := htime ▸ time_lt_of_lt hstrict hsecond hin hlt hq hr
  -- but the index found at that point is one of the first line
  obtain ⟨j, p, hinj, hp, hsame, -⟩ := exists_in_first hleast hscale hall hne hlt hq
  rw [← hsame] at hbefore
  rcases Nat.eq_zero_or_pos j with rfl | hpos
  · obtain rfl : first = p := Option.some.inj (hfirst.symm.trans hp)
    exact lt_irrefl _ hbefore
  · exact lt_asymm hbefore (time_lt_of_lt hstrict hzero hinj hpos hfirst hp)

/-- So every index is aligned. -/
theorem aligned_of_all {i : ℕ} (hi : i < linePointCount z lines.flatten) :
    Aligned x lines (linePointCount z lines.flatten) i := by
  have hne : lines ≠ [] := by
    rintro rfl
    simp [linePointCount] at hi
  have hlen : 0 < lines.length := List.length_pos_iff.2 hne
  have hline : lines[0]? = some lines[0] := List.getElem?_eq_getElem hlen
  have hle := le_first hleast hscale hall h hstrict hne hline
  exact aligned_of_inBlock hleast hscale hall hstrict hne hi
    ⟨lines[0], hline, Nat.zero_le _, by rw [offset_zero]; omega⟩

end All

/-- The position in column `i` of line `k`, seen in its line. -/
theorem getElem?_column {lines : List (List T)} {c k i : ℕ} {row : List T}
    (hrows : ∀ line ∈ lines.dropLast, line.length = c) (hin : InBlock lines k (k * c + i))
    (hrow : lines[k]? = some row) : lines.flatten[k * c + i]? = row[i]? := by
  rw [getElem?_line hin hrow, offset_of_dropLast hrows hin.lt_length, Nat.add_sub_cancel_left]

/-- **A table**: every index is aligned exactly when the lines are one. -/
theorem isTable_iff [DecidableEq K] {lines : List (List T)} (h : Lines z lines) :
    (∀ i < linePointCount z lines.flatten,
      Aligned x lines (linePointCount z lines.flatten) i) ↔
      IsTable x lines (linePointCount z lines.flatten) := by
  rcases eq_or_ne lines [] with rfl | hne
  · refine iff_of_true (fun i hi => ?_) ⟨by simp, by simp, by simp⟩
    simp [linePointCount] at hi
  have hcount := linePointCount_pos h hne
  have hlen : 0 < lines.length := List.length_pos_iff.2 hne
  generalize linePointCount z lines.flatten = c at hcount ⊢
  constructor
  · intro haligned
    have hin : ∀ k < lines.length, ∀ i < c, InBlock lines k (k * c + i) :=
      fun k hk i hi => (haligned i hi k hk).1
    obtain ⟨hrows, hlast⟩ := (regular_iff hcount).1 hin
    have hcolumn : ∀ row ∈ lines, ∀ i < c, row[i]?.map x = lines.flatten[i]?.map x := by
      intro row hrow i hi
      obtain ⟨k, hk, rfl⟩ := List.mem_iff_getElem.1 hrow
      rw [← (haligned i hi k hk).2,
        getElem?_column hrows (hin k hk i hi) (List.getElem?_eq_getElem hk)]
    refine ⟨hrows, hlast, fun row hrow row' hrow' i hi => ?_⟩
    rw [hcolumn row hrow i hi, hcolumn row' hrow' i hi]
  · intro htable i hi k hk
    have hin := (regular_iff hcount).2 ⟨htable.length_eq, htable.le_last⟩
    have hfirst :=
      getElem?_column htable.length_eq (hin 0 hlen i hi) (List.getElem?_eq_getElem hlen)
    rw [Nat.zero_mul, Nat.zero_add] at hfirst
    refine ⟨hin k hk i hi, ?_⟩
    rw [hfirst, getElem?_column htable.length_eq (hin k hk i hi) (List.getElem?_eq_getElem hk)]
    exact htable.times _ (List.getElem_mem hk) _ (List.getElem_mem hlen) i hi

/-- **When the tooltip is right.**  At an index that is found: when the positions looked at
are in their lines and have one time.  At all of them, for lines without repeated times:
when what is shown of the lines is a table. -/
theorem tooltip_right_iff [DecidableEq K] {series : List (List T)} (h : Lines z series)
    (xDomain : Option (Date × Date)) {least : List ℕ → (ℕ → ℚ) → Option ℕ}
    (hleast : IsLeastFn least) (xScale : Date → ℚ) :
    (∀ pos i,
      getNearestPointIdx x z least xScale (filteredData x xDomain series.flatten) pos = some i →
      (RightAt x y z (filteredData x xDomain series.flatten) i ↔
        Aligned x (visible x xDomain series)
          (linePointCount z (filteredData x xDomain series.flatten)) i)) ∧
    ((∀ line ∈ series, line.Pairwise fun p q => x p < x q) →
      (∀ p ∈ filteredData x xDomain series.flatten, ∀ q ∈ filteredData x xDomain series.flatten,
        x p < x q → xScale (x p) < xScale (x q)) →
      ((∀ pos i,
        getNearestPointIdx x z least xScale (filteredData x xDomain series.flatten) pos = some i →
        RightAt x y z (filteredData x xDomain series.flatten) i) ↔
      IsTable x (visible x xDomain series)
        (linePointCount z (filteredData x xDomain series.flatten)))) := by
  have hlines : Lines z (visible x xDomain series) := lines_visible h xDomain
  rw [filteredData_flatten]
  refine ⟨fun pos i hi => rightAt_iff_aligned hlines (getNearestPointIdx_lt hleast hi), ?_⟩
  intro hstrict hscale
  have hstrict' : ∀ line ∈ visible x xDomain series, line.Pairwise fun p q => x p < x q := by
    intro line hline
    obtain ⟨whole, hwhole, rfl⟩ := List.mem_map.1 (List.mem_of_mem_filter hline)
    exact (hstrict whole hwhole).filter _
  rw [← isTable_iff hlines]
  constructor
  · intro hright i hi
    refine aligned_of_all hleast hscale (fun pos j hj => ?_) hlines hstrict' hi
    exact (rightAt_iff_aligned hlines (getNearestPointIdx_lt hleast hj)).1 (hright pos j hj)
  · intro haligned pos i hi
    have hlt := getNearestPointIdx_lt hleast hi
    exact (rightAt_iff_aligned hlines hlt).2 (haligned i hlt)

/-- Lines of points at these times; a point is a time and the number of its line. -/
def timesOf (lines : List (List Date)) : List (List (Date × ℕ)) :=
  lines.zipIdx.map fun line => line.1.map fun t => (t, line.2)

theorem lines_two (s s' : List Date) (h : s ≠ []) (h' : s' ≠ []) :
    Lines Prod.snd (timesOf [s, s']) := by
  refine ⟨?_, ?_, ?_⟩
  · simp [timesOf, h, h']
  · simp [timesOf]
  · simp [timesOf]

theorem tooltip_right_iff_table :
    RightAt Prod.fst (fun _ => 0) Prod.snd (timesOf [[0, 10], [0, 10]]).flatten 1 := by
  have hlines : Lines Prod.snd (timesOf [[0, 10], [0, 10]]) :=
    lines_two _ _ (by simp) (by simp)
  have hall := (tooltip_right_iff (x := Prod.fst) (y := fun _ => 0) hlines none isLeastFn_argmin
    fun t => (t : ℚ)).2 (by decide) (fun _ _ _ _ hlt => Int.cast_lt.2 hlt)
  refine hall.2 ?_ 9 1 (by decide +kernel)
  have hvisible : visible Prod.fst none (timesOf [[0, 10], [0, 10]]) =
      timesOf [[0, 10], [0, 10]] := by decide
  have hcount : linePointCount Prod.snd
      (filteredData Prod.fst none (timesOf [[0, 10], [0, 10]]).flatten) = 2 := by decide
  rw [hvisible, hcount]
  exact ⟨by decide, by decide, by decide⟩

/-- With lines of one and of three points, the value shown of the second line at the first
time is that of another time. -/
theorem tooltip_other_time :
    Lines Prod.snd (timesOf [[0], [0, 10, 20]]) ∧
    getNearestPointIdx Prod.fst Prod.snd (fun l f => l.argmin f) (fun t => (t : ℚ))
      (timesOf [[0], [0, 10, 20]]).flatten 0 = some 0 ∧
    ¬RightAt Prod.fst (fun _ => 0) Prod.snd (timesOf [[0], [0, 10, 20]]).flatten 0 := by
  refine ⟨lines_two _ _ (by simp) (by simp), by decide +kernel, fun h => ?_⟩
  have hright := h (0, 0) rfl
  have htime := hright.time (10, 1) (by decide +kernel)
  simp at htime

end LineChart

end JobMon
