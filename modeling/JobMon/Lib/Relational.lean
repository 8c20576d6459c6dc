import Mathlib.Data.List.Dedup
import Mathlib.Data.List.Nodup
import Mathlib.Data.List.Perm.Subperm
import Mathlib.Tactic.Common

/-!
# Queries over rows

The operators a grouped query is made of, on lists of rows, as far as SQL fixes
them: a list stands for the bag of its rows, in some order.

* `join`, `groupBy`, `countDistinct` — `INNER JOIN … ON`, `GROUP BY` and
  `COUNT(DISTINCT …)`.
* `divide` — the groups that hold as many of the wanted items as were asked for.
* `mem_divide_iff` — for wanted items without repetition these are the groups
  that hold all of them: relational division.
-/

namespace Relational

variable {α β γ κ : Type}

/-! ## Joins -/

/-- `INNER JOIN … ON`. -/
def join (on : α → β → Bool) (xs : List α) (ys : List β) : List (α × β) :=
  xs.flatMap fun x => (ys.filter (on x)).map fun y => (x, y)

@[simp] theorem mem_join_iff {on : α → β → Bool} {xs : List α} {ys : List β} {p : α × β} :
    p ∈ join on xs ys ↔ p.1 ∈ xs ∧ p.2 ∈ ys ∧ on p.1 p.2 = true := by
  rw [join, List.mem_flatMap]
  constructor
  · rintro ⟨x, hx, hp⟩
    obtain ⟨y, hy, rfl⟩ := List.mem_map.1 hp
    obtain ⟨hy, hon⟩ := List.mem_filter.1 hy
    exact ⟨hx, hy, hon⟩
  · rintro ⟨hx, hy, hon⟩
    exact ⟨p.1, hx, List.mem_map.2 ⟨p.2, List.mem_filter.2 ⟨hy, hon⟩, rfl⟩⟩

/-! ## Groups -/

/-- `GROUP BY`: one group for every value of the key, with the rows that have it. -/
def groupBy [DecidableEq κ] (key : α → κ) (rows : List α) : List (κ × List α) :=
  (rows.map key).dedup.map fun k => (k, rows.filter fun r => key r = k)

/-- `COUNT(DISTINCT …)`. -/
def countDistinct [DecidableEq γ] (item : α → γ) (rows : List α) : ℕ :=
  (rows.map item).dedup.length

section Groups

variable [DecidableEq κ] {key : α → κ} {rows : List α}

theorem mem_groupBy_iff {g : κ × List α} :
    g ∈ groupBy key rows ↔ (∃ r ∈ rows, key r = g.1) ∧ g.2 = rows.filter fun r => key r = g.1 := by
  rw [groupBy, List.mem_map]
  constructor
  · rintro ⟨k, hk, rfl⟩
    exact ⟨List.mem_map.1 (List.mem_dedup.1 hk), rfl⟩
  · rintro ⟨hk, hg⟩
    exact ⟨g.1, List.mem_dedup.2 (List.mem_map.2 hk), Prod.ext rfl hg.symm⟩

theorem map_fst_groupBy : (groupBy key rows).map Prod.fst = (rows.map key).dedup := by
  rw [groupBy, List.map_map]
  exact List.map_id _

/-- No two groups share a key. -/
theorem nodup_groupBy : ((groupBy key rows).map Prod.fst).Nodup := by
  rw [map_fst_groupBy]
  exact List.nodup_dedup _

/-- A group has a row, and its rows are rows with its key. -/
theorem exists_head?_of_mem_groupBy {g : κ × List α} (hg : g ∈ groupBy key rows) :
    ∃ r ∈ rows, g.2.head? = some r ∧ key r = g.1 := by
  obtain ⟨⟨r, hr, hk⟩, hrows⟩ := mem_groupBy_iff.1 hg
  have hmem : r ∈ g.2 := by
    rw [hrows]
    exact List.mem_filter.2 ⟨hr, by simpa using hk⟩
  cases hhead : g.2.head? with
  | none => rw [List.head?_eq_none_iff.1 hhead] at hmem; cases hmem
  | some x =>
    have hx : x ∈ g.2 := List.mem_of_head? hhead
    rw [hrows, List.mem_filter] at hx
    exact ⟨x, hx.1, rfl, by simpa using hx.2⟩

end Groups

/-! ## Counting instead of comparing -/

section Count

variable [DecidableEq γ] {item : α → γ} {item' : β → γ} {rows : List α} {rows' : List β}
  {wanted : List γ}

/-- Only the items count. -/
theorem countDistinct_congr
    (h : ∀ w, (∃ r ∈ rows, item r = w) ↔ ∃ r ∈ rows', item' r = w) :
    countDistinct item rows = countDistinct item' rows' := by
  refine List.Perm.length_eq ?_
  rw [List.perm_ext_iff_of_nodup (List.nodup_dedup _) (List.nodup_dedup _)]
  intro w
  rw [List.mem_dedup, List.mem_dedup, List.mem_map, List.mem_map]
  exact h w

/-- Rows with wanted items hold all of them exactly when they hold as many. -/
theorem countDistinct_eq_length_iff (hwanted : wanted.Nodup)
    (hrows : ∀ r ∈ rows, item r ∈ wanted) :
    countDistinct item rows = wanted.length ↔ ∀ w ∈ wanted, ∃ r ∈ rows, item r = w := by
  have hsub : (rows.map item).dedup ⊆ wanted := by
    intro w hw
    obtain ⟨r, hr, rfl⟩ := List.mem_map.1 (List.mem_dedup.1 hw)
    exact hrows r hr
  have hperm : (rows.map item).dedup.Subperm wanted :=
    (List.nodup_dedup _).subperm hsub
  constructor
  · intro hcount w hw
    have hmem : w ∈ (rows.map item).dedup :=
      (hperm.perm_of_length_le (Nat.le_of_eq hcount.symm)).mem_iff.2 hw
    exact List.mem_map.1 (List.mem_dedup.1 hmem)
  · intro hall
    have hsup : wanted ⊆ (rows.map item).dedup := by
      intro w hw
      obtain ⟨r, hr, hitem⟩ := hall w hw
      exact List.mem_dedup.2 (List.mem_map.2 ⟨r, hr, hitem⟩)
    exact Nat.le_antisymm hperm.length_le (hwanted.subperm hsup).length_le

end Count

/-! ## Division -/

/-- The rows with wanted items, grouped, and of the groups those with as many
distinct items as were asked for
(`WHERE item IN (…) GROUP BY key HAVING COUNT(DISTINCT item) = …`). -/
def divide [DecidableEq κ] [DecidableEq γ] (key : α → κ) (item : α → γ) (wanted : List γ)
    (rows : List α) : List (κ × List α) :=
  (groupBy key (rows.filter fun r => item r ∈ wanted)).filter
    fun g => countDistinct item g.2 = wanted.length

section Divide

variable [DecidableEq κ] [DecidableEq γ] {key : α → κ} {item : α → γ} {wanted : List γ}
  {rows : List α}

theorem nodup_divide : ((divide key item wanted rows).map Prod.fst).Nodup :=
  List.Nodup.sublist (List.filter_sublist.map Prod.fst) nodup_groupBy

theorem exists_head?_of_mem_divide {g : κ × List α} (hg : g ∈ divide key item wanted rows) :
    ∃ r ∈ rows, g.2.head? = some r ∧ key r = g.1 := by
  obtain ⟨r, hr, hhead⟩ := exists_head?_of_mem_groupBy (List.mem_filter.1 hg).1
  exact ⟨r, (List.mem_filter.1 hr).1, hhead⟩

/-- The groups by their keys: a key has one when it has a wanted item at all. -/
theorem mem_divide_iff_count {k : κ} :
    k ∈ (divide key item wanted rows).map Prod.fst ↔
      (∃ r ∈ rows, key r = k ∧ item r ∈ wanted) ∧
        countDistinct item ((rows.filter fun r => item r ∈ wanted).filter fun r => key r = k) =
          wanted.length := by
  rw [List.mem_map]
  constructor
  · rintro ⟨g, hg, rfl⟩
    obtain ⟨hg, hlen⟩ := List.mem_filter.1 hg
    obtain ⟨⟨r, hr, hkey⟩, hrows⟩ := mem_groupBy_iff.1 hg
    obtain ⟨hr, hitem⟩ := List.mem_filter.1 hr
    rw [hrows] at hlen
    exact ⟨⟨r, hr, hkey, of_decide_eq_true hitem⟩, of_decide_eq_true hlen⟩
  · rintro ⟨⟨r, hr, hkey, hitem⟩, hlen⟩
    refine ⟨(k, (rows.filter fun r => item r ∈ wanted).filter fun r => key r = k), ?_, rfl⟩
    refine List.mem_filter.2 ⟨mem_groupBy_iff.2 ⟨⟨r, ?_, hkey⟩, rfl⟩, decide_eq_true hlen⟩
    exact List.mem_filter.2 ⟨hr, decide_eq_true hitem⟩

/-- Items that are wanted twice are more than a group can hold. -/
theorem nodup_of_mem_divide {k : κ} (h : k ∈ (divide key item wanted rows).map Prod.fst) :
    wanted.Nodup := by
  obtain ⟨-, hcount⟩ := mem_divide_iff_count.1 h
  have hsub : ((((rows.filter fun r => item r ∈ wanted).filter fun r => key r = k).map
      item).dedup) ⊆ wanted.dedup := by
    intro w hw
    obtain ⟨r, hr, rfl⟩ := List.mem_map.1 (List.mem_dedup.1 hw)
    exact List.mem_dedup.2 (of_decide_eq_true (List.mem_filter.1 (List.mem_filter.1 hr).1).2)
  have hle : wanted.length ≤ wanted.dedup.length :=
    hcount ▸ ((List.nodup_dedup _).subperm hsub).length_le
  rw [← (List.dedup_sublist wanted).eq_of_length_le hle]
  exact List.nodup_dedup wanted

/-- **Relational division.**  The keys selected are those with a row for every wanted
item. -/
theorem mem_divide_iff (hne : wanted ≠ []) (hwanted : wanted.Nodup) {k : κ} :
    k ∈ (divide key item wanted rows).map Prod.fst ↔
      ∀ w ∈ wanted, ∃ r ∈ rows, key r = k ∧ item r = w := by
  have hgroup : ∀ r ∈ (rows.filter fun r => item r ∈ wanted).filter fun r => key r = k,
      item r ∈ wanted := by
    intro r hr
    exact of_decide_eq_true (List.mem_filter.1 (List.mem_filter.1 hr).1).2
  rw [mem_divide_iff_count, countDistinct_eq_length_iff hwanted hgroup]
  constructor
  · rintro ⟨-, hall⟩ w hw
    obtain ⟨r, hr, hitem⟩ := hall w hw
    obtain ⟨hr, hkey⟩ := List.mem_filter.1 hr
    exact ⟨r, (List.mem_filter.1 hr).1, of_decide_eq_true hkey, hitem⟩
  · intro hall
    constructor
    · obtain ⟨w, hw⟩ := List.exists_mem_of_ne_nil wanted hne
      obtain ⟨r, hr, hkey, hitem⟩ := hall w hw
      exact ⟨r, hr, hkey, hitem ▸ hw⟩
    · intro w hw
      obtain ⟨r, hr, hkey, hitem⟩ := hall w hw
      refine ⟨r, List.mem_filter.2 ⟨List.mem_filter.2 ⟨hr, ?_⟩, decide_eq_true hkey⟩, hitem⟩
      exact decide_eq_true (hitem ▸ hw)

end Divide

end Relational
