import JobMon.Lib.Runs
import JobMon.Lib.Recency
import JobMon.Influx.JobData

/-!
# The job cache

`lru_cache.go`.  The cache is a list of items, the most recently used one in
front; every operation runs under the mutex, so a run is a sequence of them.

* `find`, `put`, `get`, `updateJob` — as in the source, the removal of the back of
  an empty list, which panics, included.
* `history` — the reference: which use every operation amounts to, in terms of
  the window of the `n` most recently used entries and of nothing else.
* `represents_of_run` — after any run the cache list is that window.
* `lru_refinement` — what every operation does, hit, miss, eviction and update.
-/

namespace JobMon

open Keyed Recency Runs

/-- A cache element. -/
structure Item where
  id : ℤ
  data : JobData
  deriving DecidableEq

/-- `LRUCache`; the front of the list is the head. -/
structure LRUCache where
  size : ℤ
  list : List Item := []
  deriving DecidableEq

namespace LRUCache

/-- `Init`. -/
def init (c : Configuration) : LRUCache := { size := c.cacheSize }

/-- `find`: an item that is found moves to the front. -/
def find (c : LRUCache) (id : ℤ) : Option JobData × LRUCache :=
  match c.list.find? fun el => el.id = id with
  | some el => (some el.data, { c with list := el :: c.list.eraseP fun el => el.id = id })
  | none => (none, c)

/-- `put`; `none` is the panic of removing the back of an empty list. -/
def put (c : LRUCache) (data : Item) : Option LRUCache :=
  if (c.list.length : ℤ) ≥ c.size then
    if c.list = [] then none else some { c with list := data :: c.list.dropLast }
  else some { c with list := data :: c.list }

/-- The nodes `Get` asks for: those of the job when it has one node, else none,
which means all. -/
def nodesOf (j : JobMetadata) : String := if j.numNodes = 1 then j.nodeList else ""

/-- `Get`, with the cache it leaves. -/
def get (db : DB) (c : LRUCache) (j : JobMetadata) (sampleInterval : Go.Duration) :
    Result JobData × LRUCache :=
  match c.find j.id with
  | (some data, c) => (.ok data, c)
  | (none, c) =>
    match db.getJobData j (nodesOf j) sampleInterval false with
    | .error e => (.error e, c)
    | .ok data =>
      match c.put { id := j.id, data } with
      | some c => (.ok data, c)
      | none => (.error .panic, c)

/-- `UpdateJob`, given the store's `GetJob`. -/
def updateJob (getJob : ℤ → Option JobMetadata) (c : LRUCache) (id : ℤ) :
    Result Unit × LRUCache :=
  match c.find id with
  | (none, c) => (.ok (), c)
  | (some data, c) =>
    match getJob id with
    | none => (.ok (), c)
    | some job =>
      -- the item is at the front after `find`, so the front is removed
      match { c with list := c.list.tail }.put
          { id := job.id, data := { data with metadata := job } } with
      | some c => (.ok (), c)
      | none => (.error .panic, c)

/-! ## Finding and putting -/

/-- The cached item of a job. -/
def cached (c : LRUCache) (id : ℤ) : Option Item := c.list.find? fun el => el.id = id

theorem cached_eq_some {c : LRUCache} {id : ℤ} {el : Item} (h : c.cached id = some el) :
    el ∈ c.list ∧ el.id = id :=
  ⟨List.mem_of_find?_eq_some h, by simpa using List.find?_some h⟩

theorem cached_eq_none_iff {c : LRUCache} {id : ℤ} :
    c.cached id = none ↔ id ∉ c.list.map Item.id := by
  simp [cached, List.find?_eq_none]

theorem find_of_cached {c : LRUCache} {id : ℤ} {el : Item} (hnd : (c.list.map Item.id).Nodup)
    (h : c.cached id = some el) :
    c.find id = (some el.data, { c with list := el :: without Item.id id c.list }) := by
  rw [find, show c.list.find? (fun el => el.id = id) = some el from h, ← eraseP_eq_without hnd]

theorem find_of_not_cached {c : LRUCache} {id : ℤ} (h : c.cached id = none) :
    c.find id = (none, c) := by
  rw [find, show c.list.find? (fun el => el.id = id) = none from h]

theorem put_of_room {c : LRUCache} {data : Item} (h : (c.list.length : ℤ) < c.size) :
    c.put data = some { c with list := data :: c.list } := by
  rw [put, if_neg (by omega)]

theorem put_of_full {c : LRUCache} {data : Item} (hsize : 1 ≤ c.size)
    (h : (c.list.length : ℤ) = c.size) :
    c.put data = some { c with list := data :: c.list.dropLast } := by
  have hne : c.list ≠ [] := by
    intro hnil
    rw [hnil, List.length_nil] at h
    omega
  rw [put, if_pos (by omega), if_neg hne]

/-! ## Operations and the reference -/

/-- An operation of the cache, with what the database and the store answer
during it. -/
inductive Op
  | get (db : DB) (j : JobMetadata) (sampleInterval : Go.Duration)
  | updateJob (getJob : ℤ → Option JobMetadata) (id : ℤ)

/-- The cache an operation leaves. -/
def step (c : LRUCache) : Op → LRUCache
  | .get db j sampleInterval => (c.get db j sampleInterval).2
  | .updateJob getJob id => (c.updateJob getJob id).2

/-- A successful read of a job returns a record with that ID. -/
def Op.StoreReturnsId : Op → Prop
  | .get _ _ _ => True
  | .updateJob getJob id => ∀ job, getJob id = some job → job.id = id

/-- The use an operation amounts to when `us` is the history so far: a hit uses
the entry it finds, a successful miss uses what it computed, an update uses the
entry with its new metadata.  A failed miss and the update of a job that is not
cached use nothing. -/
def refUse (n : ℕ) (us : List Item) : Op → Option Item
  | .get db j sampleInterval =>
    match (window Item.id n us).find? fun el => el.id = j.id with
    | some el => some el
    | none =>
      (db.getJobData j (nodesOf j) sampleInterval false).toOption.map fun data =>
        { id := j.id, data }
  | .updateJob getJob id =>
    match (window Item.id n us).find? fun el => el.id = id with
    | none => none
    | some el =>
      match getJob id with
      | none => some el
      | some job => some { id, data := { el.data with metadata := job } }

/-- The history after one more operation, newest use first. -/
def refStep (n : ℕ) (us : List Item) (op : Op) : List Item :=
  match refUse n us op with
  | some u => u :: us
  | none => us

/-- The history of a sequence of operations. -/
def history (n : ℕ) (ops : List Op) : List Item := ops.foldl (refStep n) []

/-- The cache is the window of its history. -/
structure Represents (c : LRUCache) (us : List Item) : Prop where
  size_pos : 1 ≤ c.size
  list_eq : c.list = window Item.id c.size.toNat us

namespace Represents

variable {c : LRUCache} {us : List Item}

theorem nodup (h : c.Represents us) : (c.list.map Item.id).Nodup := by
  rw [h.list_eq]
  exact nodup_window _ us

theorem length_le (h : c.Represents us) : (c.list.length : ℤ) ≤ c.size := by
  have hlen : (window Item.id c.size.toNat us).length ≤ c.size.toNat := length_window_le _ us
  rw [← h.list_eq] at hlen
  have := h.size_pos
  omega

/-- Using an entry that is cached moves it to the front. -/
theorem hit (h : c.Represents us) {u : Item} (hu : u.id ∈ c.list.map Item.id) :
    Represents { c with list := u :: without Item.id u.id c.list } (u :: us) := by
  refine ⟨h.size_pos, ?_⟩
  rw [h.list_eq] at hu
  show u :: without Item.id u.id c.list = window Item.id c.size.toNat (u :: us)
  rw [window_cons_of_mem hu, ← h.list_eq]

/-- Using the entry of a key that is cached, as it is or with other contents. -/
theorem use (h : c.Represents us) {id : ℤ} {el u : Item} (hel : c.cached id = some el)
    (hu : u.id = id) : Represents { c with list := u :: without Item.id id c.list } (u :: us) := by
  obtain ⟨hmem, hid⟩ := cached_eq_some hel
  subst hu
  refine h.hit ?_
  rw [← hid]
  exact List.mem_map_of_mem hmem

theorem find_window (h : c.Represents us) (id : ℤ) :
    ((window Item.id c.size.toNat us).find? fun el => el.id = id) = c.cached id := by
  rw [← h.list_eq]
  rfl

/-- Putting an entry that is not cached uses it. -/
theorem put (h : c.Represents us) {u : Item} (hu : u.id ∉ c.list.map Item.id) :
    ∃ c', c.put u = some c' ∧ c'.Represents (u :: us) ∧ c'.size = c.size ∧
      c'.list = u :: if (c.list.length : ℤ) < c.size then c.list else c.list.dropLast := by
  obtain ⟨m, hm⟩ : ∃ m, c.size.toNat = m + 1 :=
    ⟨c.size.toNat - 1, by have := h.size_pos; omega⟩
  have hlen := h.length_le
  have hwin : window Item.id c.size.toNat (u :: us) = u :: c.list.take m := by
    have hu' : u.id ∉ (window Item.id (m + 1) us).map Item.id := by
      rw [← hm, ← h.list_eq]
      exact hu
    rw [hm, window_cons_of_not_mem hu', ← hm, ← h.list_eq]
  by_cases hroom : (c.list.length : ℤ) < c.size
  · have htake : c.list.take m = c.list := List.take_of_length_le (by omega)
    refine ⟨_, put_of_room hroom, ⟨h.size_pos, ?_⟩, rfl, by rw [if_pos hroom]⟩
    show u :: c.list = window Item.id c.size.toNat (u :: us)
    rw [hwin, htake]
  · have hfull : (c.list.length : ℤ) = c.size := by omega
    have htake : c.list.take m = c.list.dropLast := by
      rw [List.dropLast_eq_take]
      congr 1
      omega
    refine ⟨_, put_of_full h.size_pos hfull, ⟨h.size_pos, ?_⟩, rfl, by rw [if_neg hroom]⟩
    show u :: c.list.dropLast = window Item.id c.size.toNat (u :: us)
    rw [hwin, htake]

end Represents

/-! ## What each operation does -/

section Steps

variable {c : LRUCache} {us : List Item} {db : DB} {j : JobMetadata}
  {sampleInterval : Go.Duration} {getJob : ℤ → Option JobMetadata} {id : ℤ} {el : Item}

theorem get_of_cached (h : c.Represents us) (hel : c.cached j.id = some el) :
    c.get db j sampleInterval =
      (.ok el.data, { c with list := el :: without Item.id j.id c.list }) := by
  rw [get, find_of_cached h.nodup hel]

theorem get_of_failed (hel : c.cached j.id = none) {e : Fault}
    (hdb : db.getJobData j (nodesOf j) sampleInterval false = .error e) :
    c.get db j sampleInterval = (.error e, c) := by
  rw [get, find_of_not_cached hel]
  simp only [hdb]

theorem get_of_loaded (h : c.Represents us) (hel : c.cached j.id = none) {data : JobData}
    (hdb : db.getJobData j (nodesOf j) sampleInterval false = .ok data) :
    ∃ c', c.get db j sampleInterval = (.ok data, c') ∧
      c'.Represents ({ id := j.id, data } :: us) ∧ c'.size = c.size ∧
      c'.list = { id := j.id, data } ::
        if (c.list.length : ℤ) < c.size then c.list else c.list.dropLast := by
  have hnot : ({ id := j.id, data } : Item).id ∉ c.list.map Item.id := cached_eq_none_iff.1 hel
  obtain ⟨c', hput, hrep, hsize, hlist⟩ := h.put hnot
  refine ⟨c', ?_, hrep, hsize, hlist⟩
  rw [get, find_of_not_cached hel]
  simp only [hdb, hput]

theorem updateJob_of_not_cached (hel : c.cached id = none) :
    c.updateJob getJob id = (.ok (), c) := by
  rw [updateJob, find_of_not_cached hel]

theorem updateJob_of_failed (h : c.Represents us) (hel : c.cached id = some el)
    (hget : getJob id = none) :
    c.updateJob getJob id = (.ok (), { c with list := el :: without Item.id id c.list }) := by
  rw [updateJob, find_of_cached h.nodup hel]
  simp only [hget]

/-- A cached entry and the other entries are all there is. -/
theorem perm_of_cached (h : c.Represents us) (hel : c.cached id = some el) :
    c.list.Perm (el :: without Item.id id c.list) := by
  obtain ⟨hmem, rfl⟩ := cached_eq_some hel
  exact perm_cons_without h.nodup hmem

/-- After the front has been removed there is room, so nothing is evicted. -/
theorem updateJob_of_read (h : c.Represents us) (hel : c.cached id = some el) {job : JobMetadata}
    (hget : getJob id = some job) (hjob : job.id = id) :
    c.updateJob getJob id = (.ok (), { c with
      list := { id, data := { el.data with metadata := job } } :: without Item.id id c.list }) := by
  have hroom : ((without Item.id id c.list).length : ℤ) < c.size := by
    have := (perm_of_cached h hel).length_eq
    have := h.length_le
    rw [List.length_cons] at *
    omega
  rw [updateJob, find_of_cached h.nodup hel]
  simp only [hget, List.tail_cons, hjob]
  rw [put_of_room hroom]

end Steps

/-! ## Any run of operations -/

theorem step_get {c : LRUCache} {us : List Item} (h : c.Represents us) (db : DB) (j : JobMetadata)
    (sampleInterval : Go.Duration) :
    (c.step (.get db j sampleInterval)).size = c.size ∧
      (c.step (.get db j sampleInterval)).Represents
        (refStep c.size.toNat us (.get db j sampleInterval)) := by
  have hwin := h.find_window j.id
  cases hel : c.cached j.id with
  | some el =>
    have href : refStep c.size.toNat us (.get db j sampleInterval) = el :: us := by
      simp only [refStep, refUse, hwin, hel]
    rw [step, get_of_cached h hel, href]
    exact ⟨rfl, h.use hel (cached_eq_some hel).2⟩
  | none =>
    cases hdb : db.getJobData j (nodesOf j) sampleInterval false with
    | error e =>
      have href : refStep c.size.toNat us (.get db j sampleInterval) = us := by
        simp only [refStep, refUse, hwin, hel, hdb, Except.toOption, Option.map_none]
      rw [step, get_of_failed hel hdb, href]
      exact ⟨rfl, h⟩
    | ok data =>
      have href : refStep c.size.toNat us (.get db j sampleInterval) =
          { id := j.id, data } :: us := by
        simp only [refStep, refUse, hwin, hel, hdb, Except.toOption, Option.map_some]
      obtain ⟨c', hget, hrep, hsize, -⟩ := get_of_loaded h hel hdb
      rw [step, hget, href]
      exact ⟨hsize, hrep⟩

theorem step_updateJob {c : LRUCache} {us : List Item} (h : c.Represents us)
    {getJob : ℤ → Option JobMetadata} {id : ℤ}
    (hread : ∀ job, getJob id = some job → job.id = id) :
    (c.step (.updateJob getJob id)).size = c.size ∧
      (c.step (.updateJob getJob id)).Represents
        (refStep c.size.toNat us (.updateJob getJob id)) := by
  have hwin := h.find_window id
  cases hel : c.cached id with
  | none =>
    have href : refStep c.size.toNat us (.updateJob getJob id) = us := by
      simp only [refStep, refUse, hwin, hel]
    rw [step, updateJob_of_not_cached hel, href]
    exact ⟨rfl, h⟩
  | some el =>
    cases hget : getJob id with
    | none =>
      have href : refStep c.size.toNat us (.updateJob getJob id) = el :: us := by
        simp only [refStep, refUse, hwin, hel, hget]
      rw [step, updateJob_of_failed h hel hget, href]
      exact ⟨rfl, h.use hel (cached_eq_some hel).2⟩
    | some job =>
      have href : refStep c.size.toNat us (.updateJob getJob id) =
          { id, data := { el.data with metadata := job } } :: us := by
        simp only [refStep, refUse, hwin, hel, hget]
      rw [step, updateJob_of_read h hel hget (hread job hget), href]
      exact ⟨rfl, h.use hel rfl⟩

theorem size_step (c : LRUCache) (op : Op) {us : List Item} (h : c.Represents us)
    (hop : op.StoreReturnsId) :
    (c.step op).size = c.size ∧ (c.step op).Represents (refStep c.size.toNat us op) := by
  cases op with
  | get db j sampleInterval => exact step_get h db j sampleInterval
  | updateJob getJob id => exact step_updateJob h hop

/-- The steps of a cache whose store returns records with the ID asked for. -/
def Step (c : LRUCache) (op : Op) (c' : LRUCache) : Prop := op.StoreReturnsId ∧ c' = c.step op

/-- **After any run the cache is the window of its history.** -/
theorem represents_of_run {size : ℤ} {ops : List Op} {c : LRUCache} (hsize : 1 ≤ size)
    (hrun : Run Step { size } ops c) :
    c.size = size ∧ c.Represents (history size.toNat ops) := by
  refine hrun.history (I := fun ops c => c.size = size ∧ c.Represents (history size.toNat ops))
    ⟨rfl, hsize, by simp [history]⟩ ?_
  rintro ops c op c' - ⟨hcsize, hrep⟩ ⟨hop, rfl⟩
  obtain ⟨hsize', hrep'⟩ := size_step c op hrep hop
  refine ⟨hsize'.trans hcsize, ?_⟩
  rw [history, List.foldl_append, ← history]
  rw [hcsize] at hrep'
  exact hrep'

/-! ## What an operation can leave in the cache -/

/-- A cache as operations leave it: the window of some history or, without any
room, empty. -/
def Usable (c : LRUCache) : Prop := (∃ us, c.Represents us) ∨ c.size ≤ 0 ∧ c.list = []

theorem usable_empty (size : ℤ) : Usable { size } := by
  by_cases hsize : 1 ≤ size
  · exact Or.inl ⟨[], hsize, by simp⟩
  · exact Or.inr ⟨by show size ≤ 0; omega, rfl⟩

section Contents

variable {c : LRUCache} {db : DB} {j : JobMetadata} {d : Go.Duration}
  {getJob : ℤ → Option JobMetadata} {id : ℤ}

/-- A cache without room panics when it is filled. -/
theorem get_of_no_room (hsize : c.size ≤ 0) (hlist : c.list = []) :
    c.get db j d = (match db.getJobData j (nodesOf j) d false with
      | .error e => .error e
      | .ok _ => .error .panic, c) := by
  have hel : c.cached j.id = none := by rw [cached, hlist]; rfl
  rw [get, find_of_not_cached hel]
  cases hdb : db.getJobData j (nodesOf j) d false with
  | error e => rfl
  | ok data =>
    have hput : c.put { id := j.id, data } = none := by
      rw [put, hlist, if_pos (by simpa using hsize), if_pos rfl]
    simp only [hput]

theorem size_get (h : c.Usable) : (c.get db j d).2.Usable ∧ (c.get db j d).2.size = c.size := by
  rcases h with ⟨us, h⟩ | ⟨hsize, hlist⟩
  · obtain ⟨hsize, hrep⟩ := size_step c (.get db j d) h trivial
    exact ⟨Or.inl ⟨_, hrep⟩, hsize⟩
  · rw [get_of_no_room hsize hlist]
    exact ⟨Or.inr ⟨hsize, hlist⟩, rfl⟩

/-- After `Get` the cache holds nothing but what it held and, after a miss, the
data the database had for the job. -/
theorem mem_get (h : c.Usable) {el : Item} (hel : el ∈ (c.get db j d).2.list) :
    el ∈ c.list ∨ c.cached j.id = none ∧ el.id = j.id ∧
      db.getJobData j (nodesOf j) d false = .ok el.data := by
  rcases h with ⟨us, h⟩ | ⟨hsize, hlist⟩
  · cases hcached : c.cached j.id with
    | some el₀ =>
      rw [get_of_cached h hcached] at hel
      left
      rcases List.mem_cons.1 hel with rfl | hel
      · exact (cached_eq_some hcached).1
      · exact (mem_without.1 hel).1
    | none =>
      cases hdb : db.getJobData j (nodesOf j) d false with
      | error e =>
        rw [get_of_failed hcached hdb] at hel
        exact Or.inl hel
      | ok data =>
        obtain ⟨c', hget, -, -, hlist⟩ := get_of_loaded h hcached hdb
        rw [hget] at hel
        simp only [hlist] at hel
        rcases List.mem_cons.1 hel with rfl | hel
        · exact Or.inr ⟨rfl, rfl, rfl⟩
        · left
          split at hel
          · exact hel
          · exact List.dropLast_subset _ hel
  · rw [get_of_no_room hsize hlist] at hel
    exact Or.inl hel

/-- `UpdateJob` does not fail, and afterwards the cache holds what it held, with
the metadata of the job as the store has it. -/
theorem mem_updateJob (h : c.Usable) (hread : ∀ job, getJob id = some job → job.id = id) :
    (c.updateJob getJob id).1 = .ok () ∧ (c.updateJob getJob id).2.Usable ∧
      (c.updateJob getJob id).2.size = c.size ∧
      ∀ el ∈ (c.updateJob getJob id).2.list, (el ∈ c.list ∧ el.id ≠ id) ∨
        ∃ el₀ ∈ c.list, el₀.id = id ∧ el = match getJob id with
          | none => el₀
          | some job => { id, data := { el₀.data with metadata := job } } := by
  cases hcached : c.cached id with
  | none =>
    rw [updateJob_of_not_cached hcached]
    refine ⟨rfl, h, rfl, fun el hel => Or.inl ⟨hel, ?_⟩⟩
    intro hid
    exact cached_eq_none_iff.1 hcached (hid ▸ List.mem_map_of_mem hel)
  | some el₀ =>
    obtain ⟨hmem, hid⟩ := cached_eq_some hcached
    rcases h with ⟨us, h⟩ | ⟨-, hlist⟩
    · cases hget : getJob id with
      | none =>
        rw [updateJob_of_failed h hcached hget]
        refine ⟨rfl, Or.inl ⟨el₀ :: us, ?_⟩, rfl, ?_⟩
        · exact h.use hcached hid
        · intro el hel
          rcases List.mem_cons.1 hel with rfl | hel
          · exact Or.inr ⟨el, hmem, hid, rfl⟩
          · exact Or.inl (mem_without.1 hel)
      | some job =>
        rw [updateJob_of_read h hcached hget (hread job hget)]
        refine ⟨rfl, Or.inl ⟨_, h.use hcached rfl⟩, rfl, ?_⟩
        intro el hel
        rcases List.mem_cons.1 hel with rfl | hel
        · exact Or.inr ⟨el₀, hmem, hid, rfl⟩
        · exact Or.inl (mem_without.1 hel)
    · rw [hlist] at hmem
      cases hmem

end Contents

/-! ## The refinement -/

/-- What holds of a cache whose uses so far are `us`, and of the next operation,
whichever it is. -/
structure Law (us : List Item) (c : LRUCache) : Prop where
  /-- IDs are pairwise distinct. -/
  nodup : (c.list.map Item.id).Nodup
  /-- There are never more entries than the cache has room for. -/
  length_le : (c.list.length : ℤ) ≤ c.size
  /-- Moving an entry to the front loses nothing. -/
  perm : ∀ id el, c.cached id = some el → c.list.Perm (el :: without Item.id id c.list)
  /-- A hit returns the data stored for the ID and moves it to the front. -/
  hit : ∀ db j d el, c.cached j.id = some el →
    c.get db j d = (.ok el.data, { c with list := el :: without Item.id j.id c.list })
  /-- A successful miss inserts at the front.  It evicts only when the cache is
  full, and then the entry whose last use is oldest. -/
  miss : ∀ db j d data, c.cached j.id = none →
    db.getJobData j (nodesOf j) d false = .ok data →
    ∃ c', c.get db j d = (.ok data, c') ∧ c'.size = c.size ∧
      (((c.list.length : ℤ) < c.size ∧ c'.list = { id := j.id, data } :: c.list) ∨
        ((c.list.length : ℤ) = c.size ∧ ∃ kept oldest, c.list = kept ++ [oldest] ∧
          c'.list = { id := j.id, data } :: kept ∧
          ∀ el ∈ kept, age Item.id us el.id < age Item.id us oldest.id))
  /-- A failed miss changes nothing. -/
  failed : ∀ db j d e, c.cached j.id = none →
    db.getJobData j (nodesOf j) d false = .error e → c.get db j d = (.error e, c)
  /-- Updating a cached job replaces its metadata and evicts nothing. -/
  updated : ∀ getJob id el job, c.cached id = some el → getJob id = some job → job.id = id →
    c.updateJob getJob id = (.ok (), { c with
      list := { id, data := { el.data with metadata := job } } :: without Item.id id c.list })
  /-- When the job cannot be read its entry is moved but not changed. -/
  notRead : ∀ getJob id el, c.cached id = some el → getJob id = none →
    c.updateJob getJob id = (.ok (), { c with list := el :: without Item.id id c.list })
  /-- Updating a job that is not cached changes nothing. -/
  notCached : ∀ getJob id, c.cached id = none → c.updateJob getJob id = (.ok (), c)

theorem law_of_represents {c : LRUCache} {us : List Item} (h : c.Represents us) : c.Law us where
  nodup := h.nodup
  length_le := h.length_le
  perm _ _ hel := perm_of_cached h hel
  hit _ _ _ _ hel := get_of_cached h hel
  miss db j d data hel hdb := by
    obtain ⟨c', hget, -, hsize, hlist⟩ := get_of_loaded h hel hdb
    refine ⟨c', hget, hsize, ?_⟩
    by_cases hroom : (c.list.length : ℤ) < c.size
    · rw [if_pos hroom] at hlist
      exact Or.inl ⟨hroom, hlist⟩
    · right
      rw [if_neg hroom] at hlist
      have hfull : (c.list.length : ℤ) = c.size := by
        have := h.length_le
        omega
      have hne : c.list ≠ [] := by
        intro hnil
        have := h.size_pos
        rw [hnil, List.length_nil] at hfull
        omega
      have hsplit := (List.dropLast_append_getLast hne).symm
      refine ⟨hfull, c.list.dropLast, c.list.getLast hne, hsplit, hlist, ?_⟩
      intro el hel
      exact age_lt_of_window_eq (h.list_eq.symm.trans hsplit) hel
  failed _ _ _ _ hel hdb := get_of_failed hel hdb
  updated _ _ _ _ hel hget hjob := updateJob_of_read h hel hget hjob
  notRead _ _ _ hel hget := updateJob_of_failed h hel hget
  notCached _ _ hel := updateJob_of_not_cached hel

/-- **The cache refines the reference list**: after every run of operations its
list is the window of most recently used entries, and the next operation does
what it does to that list. -/
theorem lru_refinement {size : ℤ} {ops : List Op} {c : LRUCache} (hsize : 1 ≤ size)
    (hrun : Run Step { size } ops c) :
    c.size = size ∧ c.list = window Item.id size.toNat (history size.toNat ops) ∧
      c.Law (history size.toNat ops) := by
  obtain ⟨hcsize, hrep⟩ := represents_of_run hsize hrun
  refine ⟨hcsize, ?_, law_of_represents hrep⟩
  rw [hrep.list_eq, hcsize]

/-- A database that has data for every job. -/
def plainDB : DB :=
  { getJobData := fun j _ _ _ => .ok { metadata := j }
    getJobMetadataMetrics := fun _ => .ok []
    getMetricDataWithAggFn := fun _ m _ _ => .ok { config := m } }

/-- Two jobs through a cache of size one, the second of them updated. -/
def twoJobs : List Op :=
  [.get plainDB { id := 1 } Go.second, .get plainDB { id := 2 } Go.second,
    .updateJob (fun id => some { id, exitCode := 3 }) 2]

/-- What the cache then holds. -/
def afterTwoJobs : LRUCache :=
  { size := 1, list := [{ id := 2, data := { metadata := { id := 2, exitCode := 3 } } }] }

theorem run_twoJobs : Run Step { size := 1 } twoJobs afterTwoJobs := by
  have hstart : Run Step { size := 1 } [] ({ size := 1 } : LRUCache) := .nil
  have hfirst : Step { size := 1 } (.get plainDB { id := 1 } Go.second)
      { size := 1, list := [{ id := 1, data := { metadata := { id := 1 } } }] } := ⟨trivial, rfl⟩
  have hsecond : Step { size := 1, list := [{ id := 1, data := { metadata := { id := 1 } } }] }
      (.get plainDB { id := 2 } Go.second)
      { size := 1, list := [{ id := 2, data := { metadata := { id := 2 } } }] } := ⟨trivial, rfl⟩
  refine ((hstart.snoc hfirst).snoc hsecond).snoc ⟨?_, rfl⟩
  intro job hjob
  cases hjob
  rfl

theorem lru_refinement_twoJobs :
    afterTwoJobs.size = 1 ∧ afterTwoJobs.list = window Item.id 1 (history 1 twoJobs) ∧
      afterTwoJobs.Law (history 1 twoJobs) :=
  lru_refinement (by decide) run_twoJobs

end LRUCache

end JobMon
