import Mathlib.Data.List.Nodup
import Mathlib.Data.List.Basic
import Mathlib.Tactic.Common

/-!
# Tables with a primary key

A table is a list of rows whose keys are pairwise distinct, so a row is found
by its key and by nothing else.  The distinctness is a field of the type: an
operation that could break it does not typecheck.

* `Table.get?` — the row with a given key; `get?_eq_some_iff` says it is the
  only one.
* `Table.insert` — fails when the key is taken, as a primary key does.
* `Table.mapRows` — change the rows, but not their keys.
* `Table.replace` — overwrites the row with the same key, whole.
* `Table.upsert`, `Table.erase` — insert-or-overwrite, and delete.
* `get?_insert`, `get?_replace`, `get?_mapRows`, `get?_upsert`, `get?_erase` — what each of them
  does to every key, the ones it leaves alone included.
* `filter_insert` — what inserting does to the rows a column selects.
-/

namespace Keyed

/-- A list of rows with pairwise distinct keys. -/
structure Table (κ ρ : Type) (key : ρ → κ) where
  /-- The rows, in the order they were inserted. -/
  rows : List ρ
  /-- No two rows share a key. -/
  nodup : (rows.map key).Nodup

namespace Table

variable {κ ρ : Type} {key : ρ → κ}

@[ext] theorem ext' {t t' : Table κ ρ key} (h : t.rows = t'.rows) : t = t' := by
  cases t; cases t'; cases h; rfl

instance [DecidableEq ρ] : DecidableEq (Table κ ρ key) := fun t t' =>
  decidable_of_iff (t.rows = t'.rows) ⟨ext', fun h => by rw [h]⟩

/-- The table without rows. -/
def empty : Table κ ρ key := ⟨[], List.nodup_nil⟩

instance : Inhabited (Table κ ρ key) := ⟨empty⟩

variable [DecidableEq κ]

/-- The row with key `k`, if there is one. -/
def get? (t : Table κ ρ key) (k : κ) : Option ρ := t.rows.find? (fun r => key r = k)

theorem get?_eq_some_iff {t : Table κ ρ key} {k : κ} {r : ρ} :
    t.get? k = some r ↔ r ∈ t.rows ∧ key r = k := by
  constructor
  · intro h
    exact ⟨List.mem_of_find?_eq_some h, by simpa using List.find?_some h⟩
  · rintro ⟨hr, rfl⟩
    cases hf : t.get? (key r) with
    | none =>
      have := List.find?_eq_none.1 hf r hr
      simp at this
    | some x =>
      have hx : x ∈ t.rows := List.mem_of_find?_eq_some hf
      have hk : key x = key r := by simpa using List.find?_some hf
      rw [List.inj_on_of_nodup_map t.nodup hx hr hk]

theorem get?_eq_none_iff {t : Table κ ρ key} {k : κ} :
    t.get? k = none ↔ ∀ r ∈ t.rows, key r ≠ k := by
  simp [get?, List.find?_eq_none]

theorem key_of_get? {t : Table κ ρ key} {k : κ} {r : ρ} (h : t.get? k = some r) : key r = k :=
  (get?_eq_some_iff.1 h).2

theorem mem_of_get? {t : Table κ ρ key} {k : κ} {r : ρ} (h : t.get? k = some r) : r ∈ t.rows :=
  (get?_eq_some_iff.1 h).1

theorem get?_of_mem {t : Table κ ρ key} {r : ρ} (h : r ∈ t.rows) : t.get? (key r) = some r :=
  get?_eq_some_iff.2 ⟨h, rfl⟩

/-- Two rows of a table that are found under the same key are the same row. -/
theorem eq_of_get? {t : Table κ ρ key} {k : κ} {r : ρ} (h : t.get? k = some r) {x : ρ}
    (hx : x ∈ t.rows) (hk : key x = k) : x = r := by
  have := get?_of_mem hx
  rw [hk, h] at this
  exact (Option.some.inj this).symm

/-! ## Insertion -/

/-- Append a row; `none` when its key is taken. -/
def insert (t : Table κ ρ key) (r : ρ) : Option (Table κ ρ key) :=
  if h : t.get? (key r) = none then
    some ⟨t.rows ++ [r], by
      rw [List.map_append, List.nodup_append]
      refine ⟨t.nodup, by simp, ?_⟩
      intro a ha b hb
      obtain ⟨x, hx, rfl⟩ := List.mem_map.1 ha
      rw [List.map_singleton, List.mem_singleton] at hb
      rw [hb]
      exact get?_eq_none_iff.1 h x hx⟩
  else none

theorem insert_eq_some_iff {t t' : Table κ ρ key} {r : ρ} :
    t.insert r = some t' ↔ t.get? (key r) = none ∧ t'.rows = t.rows ++ [r] := by
  unfold insert
  by_cases h : t.get? (key r) = none
  · rw [dif_pos h, Option.some.injEq]
    exact ⟨fun ht => ⟨h, by rw [← ht]⟩, fun ht => ext' ht.2.symm⟩
  · rw [dif_neg h]
    simp [h]

theorem insert_eq_none_iff {t : Table κ ρ key} {r : ρ} :
    t.insert r = none ↔ t.get? (key r) ≠ none := by
  unfold insert
  by_cases h : t.get? (key r) = none <;> simp [h]

theorem insert_of_free {t : Table κ ρ key} {r : ρ} (h : t.get? (key r) = none) :
    ∃ t', t.insert r = some t' := by
  cases hins : t.insert r with
  | some t' => exact ⟨t', rfl⟩
  | none => exact absurd h (insert_eq_none_iff.1 hins)

theorem get?_insert {t t' : Table κ ρ key} {r : ρ} (h : t.insert r = some t') (k : κ) :
    t'.get? k = if k = key r then some r else t.get? k := by
  obtain ⟨hfree, hrows⟩ := insert_eq_some_iff.1 h
  rw [get?, hrows, List.find?_append]
  by_cases hk : k = key r
  · subst hk
    rw [if_pos rfl, show t.rows.find? (fun x => key x = key r) = none from hfree]
    simp
  · rw [if_neg hk, ← get?]
    cases hg : t.get? k with
    | none => simp [Ne.symm hk]
    | some x => rfl

theorem filter_insert {t t' : Table κ ρ key} {r : ρ} (h : t.insert r = some t') (p : ρ → Bool) :
    t'.rows.filter p = t.rows.filter p ++ if p r then [r] else [] := by
  rw [(insert_eq_some_iff.1 h).2, List.filter_append]
  cases hp : p r <;> simp [hp]

/-! ## Changing the rows -/

/-- Change every row, but not its key. -/
def mapRows (t : Table κ ρ key) (f : ρ → ρ) (hf : ∀ r, key (f r) = key r) : Table κ ρ key :=
  ⟨t.rows.map f, by
    have hkeys : (t.rows.map f).map key = t.rows.map key := by
      rw [List.map_map]
      exact List.map_congr_left fun r _ => hf r
    rw [hkeys]
    exact t.nodup⟩

theorem get?_mapRows (t : Table κ ρ key) (f : ρ → ρ) (hf : ∀ r, key (f r) = key r) (k : κ) :
    (t.mapRows f hf).get? k = (t.get? k).map f := by
  have hpred : (fun r => decide (key r = k)) ∘ f = fun r => decide (key r = k) := by
    funext r
    simp [hf]
  rw [get?, mapRows, List.find?_map, hpred, get?]

/-! ## Overwriting a row -/

/-- Overwrite the row with the same key as `r`, whole; nothing happens when
there is none. -/
def replace (t : Table κ ρ key) (r : ρ) : Table κ ρ key :=
  ⟨t.rows.map (fun x => if key x = key r then r else x), by
    have hkeys : (t.rows.map (fun x => if key x = key r then r else x)).map key
        = t.rows.map key := by
      rw [List.map_map]
      refine List.map_congr_left fun x _ => ?_
      by_cases hx : key x = key r <;> simp [hx]
    rw [hkeys]
    exact t.nodup⟩

theorem get?_replace (t : Table κ ρ key) (r : ρ) (k : κ) :
    (t.replace r).get? k = if k = key r then (t.get? k).map (fun _ => r) else t.get? k := by
  have hkeys : ∀ x, key (if key x = key r then r else x) = key x := by
    intro x
    by_cases hx : key x = key r <;> simp [hx]
  have hfind : (t.replace r).get? k
      = (t.get? k).map (fun x => if key x = key r then r else x) := get?_mapRows t _ hkeys k
  rw [hfind]
  cases hg : t.get? k with
  | none => simp
  | some x =>
    have hx : key x = k := key_of_get? hg
    by_cases hk : k = key r
    · simp [hk, hx.trans hk]
    · simp [hk, hx]

/-! ## Deletion -/

/-- Delete the row with key `k`. -/
def erase (t : Table κ ρ key) (k : κ) : Table κ ρ key :=
  ⟨t.rows.filter (fun r => key r ≠ k), (List.filter_sublist.map key).nodup t.nodup⟩

theorem get?_erase (t : Table κ ρ key) (k k' : κ) :
    (t.erase k).get? k' = if k' = k then none else t.get? k' := by
  by_cases hk : k' = k
  · rw [if_pos hk, get?_eq_none_iff]
    intro r hr
    rw [erase, List.mem_filter] at hr
    rw [hk]
    simpa using hr.2
  · have hpred : (fun r => decide (decide (key r ≠ k) = true ∧ decide (key r = k') = true))
        = fun r => decide (key r = k') := by
      funext r
      by_cases hr : key r = k' <;> simp [hr, hk]
    rw [if_neg hk, get?, erase, List.find?_filter, get?, hpred]

/-! ## Insert or overwrite -/

/-- Overwrite the row with the same key, or append. -/
def upsert (t : Table κ ρ key) (r : ρ) : Table κ ρ key :=
  match t.insert r with
  | some t' => t'
  | none => t.replace r

theorem get?_upsert (t : Table κ ρ key) (r : ρ) (k : κ) :
    (t.upsert r).get? k = if k = key r then some r else t.get? k := by
  unfold upsert
  cases h : t.insert r with
  | some t' => exact get?_insert h k
  | none =>
    rw [get?_replace]
    by_cases hk : k = key r
    · obtain ⟨x, hx⟩ := Option.ne_none_iff_exists'.1 (insert_eq_none_iff.1 h)
      rw [if_pos hk, if_pos hk, hk, hx, Option.map_some]
    · rw [if_neg hk, if_neg hk]

end Table

/-! ## Maps

A map is a table of key-value pairs; the order of its rows is the order a loop
over it happens to take. -/

/-- A finite map. -/
abbrev Map (κ ν : Type) := Table κ (κ × ν) Prod.fst

namespace Map

variable {κ ν ν' : Type} [DecidableEq κ]

/-- The value stored under `k`. -/
def lookup (m : Map κ ν) (k : κ) : Option ν := (m.get? k).map Prod.snd

/-- Apply `f` to every value. -/
def mapValues (f : ν → ν') (m : Map κ ν) : Map κ ν' :=
  ⟨m.rows.map (fun p => (p.1, f p.2)), by
    rw [List.map_map]
    exact m.nodup⟩

theorem lookup_eq_some_iff {m : Map κ ν} {k : κ} {v : ν} :
    m.lookup k = some v ↔ (k, v) ∈ m.rows := by
  rw [lookup, Option.map_eq_some_iff]
  constructor
  · rintro ⟨⟨k', v'⟩, h, rfl⟩
    obtain ⟨hm, rfl⟩ := Table.get?_eq_some_iff.1 h
    exact hm
  · intro h
    exact ⟨(k, v), Table.get?_eq_some_iff.2 ⟨h, rfl⟩, rfl⟩

theorem lookup_mapValues (f : ν → ν') (m : Map κ ν) (k : κ) :
    (m.mapValues f).lookup k = (m.lookup k).map f := by
  rw [lookup, lookup, Table.get?, Table.get?, mapValues, List.find?_map, Option.map_map,
    Option.map_map]
  rfl

theorem lookup_upsert (m : Map κ ν) (p : κ × ν) (k : κ) :
    lookup (m.upsert p) k = if k = p.1 then some p.2 else m.lookup k := by
  rw [lookup, Table.get?_upsert]
  split
  · rfl
  · rfl

theorem lookup_erase (m : Map κ ν) (k k' : κ) :
    lookup (m.erase k) k' = if k' = k then none else m.lookup k' := by
  rw [lookup, Table.get?_erase]
  split
  · rfl
  · rfl

/-- Writing to entries that are there, one after the other. -/
theorem rows_foldl_upsert {f : ν → ν} {l : List (κ × ν)} {m : Map κ ν}
    (hkeys : (l.map Prod.fst).Nodup) (hsub : ∀ p ∈ l, p.1 ∈ m.rows.map Prod.fst) :
    (l.foldl (fun m p => m.upsert (p.1, f p.2)) m).rows =
      m.rows.map fun x => ((l.find? fun p => p.1 = x.1).map fun p => (p.1, f p.2)).getD x := by
  induction l generalizing m with
  | nil => exact (List.map_id _).symm
  | cons q l ih =>
    obtain ⟨hq, hkeys⟩ := List.nodup_cons.1 hkeys
    have hfound : m.insert (q.1, f q.2) = none := by
      obtain ⟨x, hx, hk⟩ := List.mem_map.1 (hsub q List.mem_cons_self)
      exact Table.insert_eq_none_iff.2 fun hnone => Table.get?_eq_none_iff.1 hnone x hx hk
    have hrows : (m.upsert (q.1, f q.2)).rows =
        m.rows.map fun x => if x.1 = q.1 then (q.1, f q.2) else x := by
      rw [Table.upsert, hfound]
      rfl
    have hkept : (m.upsert (q.1, f q.2)).rows.map Prod.fst = m.rows.map Prod.fst := by
      rw [hrows, List.map_map]
      refine List.map_congr_left fun x _ => ?_
      by_cases hx : x.1 = q.1
      · simp [hx]
      · simp [hx]
    rw [List.foldl_cons, ih hkeys fun p hp => hkept ▸ hsub p (List.mem_cons_of_mem _ hp), hrows,
      List.map_map]
    refine List.map_congr_left fun x _ => ?_
    by_cases hx : x.1 = q.1
    · -- the entry just written, which the rest of the list leaves alone
      have hnone : (l.find? fun p => p.1 = q.1) = none := by
        rw [List.find?_eq_none]
        intro p hp hk
        exact hq (List.mem_map.2 ⟨p, hp, of_decide_eq_true hk⟩)
      simp [hx, hnone]
    · simp [hx, Ne.symm hx]

/-- **Writing to every entry is mapping the values.** -/
theorem foldl_upsert_eq_mapValues (f : ν → ν) (m : Map κ ν) :
    m.rows.foldl (fun m p => m.upsert (p.1, f p.2)) m = m.mapValues f := by
  refine Table.ext' ?_
  rw [rows_foldl_upsert m.nodup fun p hp => List.mem_map_of_mem hp]
  refine List.map_congr_left fun x hx => ?_
  have hself : (m.rows.find? fun p => p.1 = x.1) = some x := Table.get?_of_mem hx
  rw [hself]
  rfl

end Map

end Keyed
