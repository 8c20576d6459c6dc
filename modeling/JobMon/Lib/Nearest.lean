import Mathlib.Algebra.Order.Field.Basic
import Mathlib.Data.Finset.Max
import Mathlib.Data.List.MinMax
import Mathlib.Order.Bounds.Basic
import Mathlib.Tactic.FieldSimp
import Mathlib.Tactic.Linarith
import Mathlib.Tactic.Ring

/-!
# The nearest of finitely many values

Choosing, among values on offer, one that comes closest to a target.

* `IsNearest` — a value on offer with no other closer to the target; the smallest one
  is characterised by midpoints (`isLeast_isNearest_iff`) and grows with the target
  (`isLeast_isNearest_mono`).
* `isLeast_foldl` — a running minimum that only moves on a strict improvement finds it.
* `abs_div_sub_le_iff` — comparing the ratios `d / a` and `d / b` with a wanted number
  is comparing `d` over that number with the harmonic mean of `a` and `b`.
* `agrees_iff_follows` — two families of thresholds select the same value exactly when
  no two neighbouring values tell them apart.
-/

namespace Nearest

variable {α : Type*}

/-! ## Nearest values -/

section Distance

variable [Field α] [LinearOrder α] [IsStrictOrderedRing α]

/-- No value of `s` is closer to `w` than `c`. -/
def IsNearest (s : Set α) (w c : α) : Prop := c ∈ s ∧ ∀ v ∈ s, |c - w| ≤ |v - w|

/-- The larger of two values is closer beyond the midpoint only. -/
theorem abs_sub_lt_abs_sub_iff {a b w : α} (h : a < b) :
    |b - w| < |a - w| ↔ (a + b) / 2 < w := by
  constructor
  · intro hlt
    by_contra hw
    have hb : a - w ≤ b - w := by linarith
    have hmid : w ≤ (a + b) / 2 := not_lt.1 hw
    have hle : |a - w| ≤ b - w := abs_le.2 ⟨by linarith, hb⟩
    exact absurd (lt_of_lt_of_le hlt hle) (not_lt.2 (le_abs_self _))
  · intro hw
    have hneg : |a - w| = w - a := by
      rw [abs_sub_comm, abs_of_nonneg (by linarith)]
    rw [hneg, abs_lt]
    constructor
    · linarith
    · linarith

theorem abs_sub_le_abs_sub_iff {a b w : α} (h : a < b) :
    |a - w| ≤ |b - w| ↔ w ≤ (a + b) / 2 := by
  rw [← not_lt, abs_sub_lt_abs_sub_iff h, not_lt]

theorem abs_sub_le_abs_sub_iff_right {a b w : α} (h : a < b) :
    |b - w| ≤ |a - w| ↔ (a + b) / 2 ≤ w := by
  have h' := abs_sub_le_abs_sub_iff (neg_lt_neg h) (w := -w)
  rw [neg_sub_neg, neg_sub_neg, abs_sub_comm w b, abs_sub_comm w a] at h'
  rw [h']
  constructor <;> intro hw <;> linarith

/-- Of two targets, no value nearest to the smaller is beyond one nearest to the larger. -/
theorem isNearest_mono {s : Set α} {w w' c c' : α} (h : w < w') (hc : IsNearest s w c)
    (hc' : IsNearest s w' c') : c ≤ c' := by
  by_contra hlt
  have hlt := not_le.1 hlt
  have h1 := (abs_sub_le_abs_sub_iff hlt).1 (hc'.2 c hc.1)
  have h2 := (abs_sub_le_abs_sub_iff_right hlt).1 (hc.2 c' hc'.1)
  linarith

/-- **The smallest nearest value**: beyond the midpoints below it, not beyond those
above. -/
theorem isLeast_isNearest_iff {s : Set α} {w c : α} :
    IsLeast {v | IsNearest s w v} c ↔
      c ∈ s ∧ (∀ a ∈ s, a < c → (a + c) / 2 < w) ∧ ∀ b ∈ s, c < b → w ≤ (c + b) / 2 := by
  constructor
  · rintro ⟨⟨hc, hnear⟩, hleast⟩
    refine ⟨hc, ?_, fun b hb hlt => (abs_sub_le_abs_sub_iff hlt).1 (hnear b hb)⟩
    intro a ha hlt
    by_contra hw
    have hle := (abs_sub_le_abs_sub_iff hlt).2 (not_lt.1 hw)
    exact not_lt.2 (hleast ⟨ha, fun v hv => le_trans hle (hnear v hv)⟩) hlt
  · rintro ⟨hc, hlow, hhigh⟩
    refine ⟨⟨hc, fun v hv => ?_⟩, fun v hv => ?_⟩
    · rcases lt_trichotomy v c with h | rfl | h
      · exact ((abs_sub_lt_abs_sub_iff h).2 (hlow v hv h)).le
      · exact le_refl _
      · exact (abs_sub_le_abs_sub_iff h).2 (hhigh v hv h)
    · by_contra h
      have hlt := not_le.1 h
      exact absurd ((abs_sub_lt_abs_sub_iff hlt).2 (hlow v hv.1 hlt)) (not_lt.2 (hv.2 c hc))

/-- It grows with the target. -/
theorem isLeast_isNearest_mono {s : Set α} {w w' c c' : α} (h : w ≤ w')
    (hc : IsLeast {v | IsNearest s w v} c) (hc' : IsLeast {v | IsNearest s w' v} c') :
    c ≤ c' := by
  obtain ⟨hmem, hlow, -⟩ := isLeast_isNearest_iff.1 hc
  obtain ⟨hmem', -, hhigh'⟩ := isLeast_isNearest_iff.1 hc'
  by_contra hlt
  have hlt := not_le.1 hlt
  have h1 := hlow c' hmem' hlt
  have h2 := hhigh' c hmem hlt
  linarith

/-- And is at least any value that the target reaches. -/
theorem le_of_isLeast_isNearest {s : Set α} {w c m : α} (hm : m ∈ s) (h : m ≤ w)
    (hc : IsLeast {v | IsNearest s w v} c) : m ≤ c := by
  by_contra hlt
  have hlt := not_le.1 hlt
  have hhigh := (isLeast_isNearest_iff.1 hc).2.2 m hm hlt
  linarith

end Distance

/-! ## A running minimum -/

section Scan

/-- A running minimum that moves on a strict improvement only. -/
theorem argmin_cons_eq_foldl {β : Type*} [LinearOrder β] (f : α → β) (a : α) (l : List α) :
    (a :: l).argmin f =
      some (l.foldl (fun best v => if f v < f best then v else best) a) := by
  rw [List.argmin, List.foldl_cons]
  change l.foldl _ (some a) = _
  induction l generalizing a with
  | nil => rfl
  | cons v l ih =>
    rw [List.foldl_cons, List.foldl_cons]
    have hstep : List.argAux (fun b c => f b < f c) (some a) v =
        some (if f v < f a then v else a) := by
      simp only [List.argAux]
      split <;> rfl
    rw [hstep, ih]

/-- In an increasing list the smaller of two values comes first. -/
theorem idxOf_lt_idxOf [LinearOrder α] {l : List α} (h : l.Pairwise (· < ·)) {a b : α}
    (ha : a ∈ l) (hb : b ∈ l) (hlt : a < b) : l.idxOf a < l.idxOf b := by
  by_contra hle
  have hb' := List.idxOf_lt_length_of_mem hb
  have ha' := List.idxOf_lt_length_of_mem ha
  rcases lt_or_eq_of_le (not_lt.1 hle) with hidx | hidx
  · have := List.pairwise_iff_getElem.1 h _ _ hb' ha' hidx
    rw [List.getElem_idxOf, List.getElem_idxOf] at this
    exact lt_asymm hlt this
  · exact hlt.ne ((List.idxOf_inj hb).1 hidx).symm

variable [Field α] [LinearOrder α] [IsStrictOrderedRing α]

/-- **The running minimum finds the smallest nearest value**, when it starts from a value
that the target reaches and goes through increasing values. -/
theorem isLeast_foldl {w m : α} {l : List α} (hl : l.Pairwise (· < ·)) (hm : m ≤ w) :
    IsLeast {v | IsNearest {v | v ∈ m :: l} w v}
      (l.foldl (fun best v => if |v - w| < |best - w| then v else best) m) := by
  have hargmin := List.argmin_eq_some_iff.1 (argmin_cons_eq_foldl (fun v => |v - w|) m l)
  generalize l.foldl (fun best v => if |v - w| < |best - w| then v else best) m = c at hargmin ⊢
  obtain ⟨hmem, hmin, hfirst⟩ := hargmin
  refine ⟨⟨hmem, hmin⟩, ?_⟩
  rintro v ⟨hv, hvmin⟩
  by_contra hlt
  have hlt := not_le.1 hlt
  have hidx := hfirst v hv (hvmin c hmem)
  -- a value below `m` is farther from the target than `m`
  have hmv : m ≤ v := by
    by_contra hlow
    have hlow := not_le.1 hlow
    have := (abs_sub_le_abs_sub_iff hlow).1 (hvmin m List.mem_cons_self)
    linarith
  have hne : m ≠ c := (lt_of_le_of_lt hmv hlt).ne
  rcases eq_or_ne m v with rfl | hne'
  · rw [List.idxOf_cons_self, List.idxOf_cons_ne _ hne] at hidx
    omega
  · rw [List.idxOf_cons_ne _ hne, List.idxOf_cons_ne _ hne'] at hidx
    have hcl := (List.mem_cons.1 hmem).resolve_left hne.symm
    have hvl := (List.mem_cons.1 hv).resolve_left hne'.symm
    have := idxOf_lt_idxOf hl hvl hcl hlt
    omega

end Scan

/-! ## Ratios -/

section Ratio

variable [Field α] [LinearOrder α] [IsStrictOrderedRing α]

/-- The harmonic mean. -/
def harmonicMean (a b : α) : α := 2 * a * b / (a + b)

/-- `n` is reached by the mean of two ratios when their harmonic mean is. -/
theorem ratio_mean_le_iff {a b d n : α} (ha : 0 < a) (hb : 0 < b) (hn : 0 < n) :
    (d / b + d / a) / 2 ≤ n ↔ d / n ≤ harmonicMean a b := by
  have hsum : (d / b + d / a) / 2 = d * (a + b) / (2 * a * b) := by
    field_simp
  rw [hsum, harmonicMean, div_le_iff₀ (by positivity), div_le_div_iff₀ hn (by positivity),
    mul_comm n]

theorem le_ratio_mean_iff {a b d n : α} (ha : 0 < a) (hb : 0 < b) (hn : 0 < n) :
    n ≤ (d / b + d / a) / 2 ↔ harmonicMean a b ≤ d / n := by
  have hsum : (d / b + d / a) / 2 = d * (a + b) / (2 * a * b) := by
    field_simp
  rw [hsum, harmonicMean, le_div_iff₀ (by positivity), div_le_div_iff₀ (by positivity) hn,
    mul_comm n]

/-- **Comparing two ratios with a wanted number.** -/
theorem abs_div_sub_le_iff {a b d n : α} (ha : 0 < a) (hab : a < b) (hd : 0 < d) (hn : 0 < n) :
    |d / a - n| ≤ |d / b - n| ↔ d / n ≤ harmonicMean a b := by
  have hlt : d / b < d / a := div_lt_div_of_pos_left hd ha hab
  rw [abs_sub_le_abs_sub_iff_right hlt, ratio_mean_le_iff ha (ha.trans hab) hn]

theorem abs_div_sub_le_iff_right {a b d n : α} (ha : 0 < a) (hab : a < b) (hd : 0 < d)
    (hn : 0 < n) : |d / b - n| ≤ |d / a - n| ↔ harmonicMean a b ≤ d / n := by
  have hlt : d / b < d / a := div_lt_div_of_pos_left hd ha hab
  rw [abs_sub_le_abs_sub_iff hlt, le_ratio_mean_iff ha (ha.trans hab) hn]

theorem harmonicMean_mono {a a' b b' : α} (ha : 0 < a) (hb : 0 < b) (haa : a ≤ a')
    (hbb : b ≤ b') : harmonicMean a b ≤ harmonicMean a' b' := by
  have ha' : 0 < a' := lt_of_lt_of_le ha haa
  have hb' : 0 < b' := lt_of_lt_of_le hb hbb
  rw [harmonicMean, harmonicMean, div_le_div_iff₀ (by positivity) (by positivity)]
  have h1 : a * b * a' ≤ a' * b' * a := by nlinarith [mul_pos ha ha']
  have h2 : a * b * b' ≤ a' * b' * b := by nlinarith [mul_pos hb hb']
  nlinarith

end Ratio

/-! ## Selecting by thresholds -/

section Thresholds

variable [LinearOrder α]

/-- `b` is the next value of `s` after `a`. -/
def Follows (s : Finset α) (a b : α) : Prop :=
  a ∈ s ∧ b ∈ s ∧ a < b ∧ ∀ v ∈ s, v ≤ a ∨ b ≤ v

/-- Thresholds between the values of `s` that grow with both. -/
def MonoOn (s : Finset α) (t : α → α → α) : Prop :=
  ∀ a ∈ s, ∀ b ∈ s, ∀ a' ∈ s, ∀ b' ∈ s, a ≤ a' → b ≤ b' → t a b ≤ t a' b'

/-- Every value that is not the first follows one, which is at least any smaller
value. -/
theorem exists_follows_below {s : Finset α} {a c : α} (ha : a ∈ s) (hc : c ∈ s) (h : a < c) :
    ∃ p, Follows s p c ∧ a ≤ p := by
  have hne : (s.filter (· < c)).Nonempty := ⟨a, Finset.mem_filter.2 ⟨ha, h⟩⟩
  have hmax := Finset.mem_filter.1 (Finset.max'_mem _ hne)
  refine ⟨(s.filter (· < c)).max' hne, ⟨hmax.1, hc, hmax.2, fun v hv => ?_⟩,
    Finset.le_max' _ _ (Finset.mem_filter.2 ⟨ha, h⟩)⟩
  rcases lt_or_ge v c with hlt | hge
  · exact .inl (Finset.le_max' _ _ (Finset.mem_filter.2 ⟨hv, hlt⟩))
  · exact .inr hge

/-- And every value that is not the last is followed by one. -/
theorem exists_follows_above {s : Finset α} {b c : α} (hb : b ∈ s) (hc : c ∈ s) (h : c < b) :
    ∃ q, Follows s c q ∧ q ≤ b := by
  have hne : (s.filter (c < ·)).Nonempty := ⟨b, Finset.mem_filter.2 ⟨hb, h⟩⟩
  have hmin := Finset.mem_filter.1 (Finset.min'_mem _ hne)
  refine ⟨(s.filter (c < ·)).min' hne, ⟨hc, hmin.1, hmin.2, fun v hv => ?_⟩,
    Finset.min'_le _ _ (Finset.mem_filter.2 ⟨hb, h⟩)⟩
  rcases lt_or_ge c v with hlt | hge
  · exact .inr (Finset.min'_le _ _ (Finset.mem_filter.2 ⟨hv, hlt⟩))
  · exact .inl hge

/-- **Two selections agree**: `c` is selected by the thresholds `t`, taking the smaller
value on a tie; the thresholds `u` select it as well exactly when no two neighbours have
`x` beyond one of their thresholds only. -/
theorem agrees_iff_follows {s : Finset α} {t u : α → α → α} (ht : MonoOn s t) (hu : MonoOn s u)
    {c x : α} (hc : c ∈ s) (hlow : ∀ a ∈ s, a < c → t a c < x)
    (hhigh : ∀ b ∈ s, c < b → x ≤ t c b) :
    ((∀ a ∈ s, a < c → u a c ≤ x) ∧ ∀ b ∈ s, c < b → x ≤ u c b) ↔
      ∀ a b, Follows s a b → ¬(t a b < x ∧ x < u a b) ∧ ¬(u a b < x ∧ x ≤ t a b) := by
  constructor
  · rintro ⟨hlow', hhigh'⟩ a b ⟨ha, hb, hab, hnext⟩
    rcases hnext c hc with hca | hbc
    · have hcb := lt_of_le_of_lt hca hab
      have h1 : x ≤ t a b := le_trans (hhigh b hb hcb) (ht c hc b hb a ha b hb hca le_rfl)
      have h2 : x ≤ u a b := le_trans (hhigh' b hb hcb) (hu c hc b hb a ha b hb hca le_rfl)
      exact ⟨fun h => absurd h.1 (not_lt.2 h1), fun h => absurd h.1 (not_lt.2 h2)⟩
    · have hac := lt_of_lt_of_le hab hbc
      have h1 : t a b < x := lt_of_le_of_lt (ht a ha b hb a ha c hc le_rfl hbc) (hlow a ha hac)
      have h2 : u a b ≤ x := le_trans (hu a ha b hb a ha c hc le_rfl hbc) (hlow' a ha hac)
      exact ⟨fun h => absurd h.2 (not_lt.2 h2), fun h => absurd h.2 (not_le.2 h1)⟩
  · intro h
    refine ⟨fun a ha hac => ?_, fun b hb hcb => ?_⟩
    · obtain ⟨p, hp, hap⟩ := exists_follows_below ha hc hac
      have hux : u p c ≤ x := by
        by_contra hlt
        exact (h p c hp).1 ⟨hlow p hp.1 hp.2.2.1, not_le.1 hlt⟩
      exact le_trans (hu a ha c hc p hp.1 c hc hap le_rfl) hux
    · obtain ⟨q, hq, hqb⟩ := exists_follows_above hb hc hcb
      have hux : x ≤ u c q := by
        by_contra hlt
        exact (h c q hq).2 ⟨not_le.1 hlt, hhigh q hq.2.1 hq.2.2.1⟩
      exact le_trans hux (hu c hc q hq.2.1 c hc b hb le_rfl hqb)

end Thresholds

end Nearest
