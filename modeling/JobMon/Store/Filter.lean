import JobMon.Lib.Relational
import JobMon.Store.Tables

/-!
# The filtered job list

`GetFilteredJobs` as the statement it is: the tags asked for are looked up by a
grouped double join, which takes the place of the table `job_metadata`, and every
other part of the filter is a condition on its rows.

* `filteredJobs` — the statement.
* `JobFilter.SatisfiedBy` — what a filter asks of a job.
* `mem_tagSubquery_iff` — the grouped join selects the jobs that have all the tags.
* `filteredJobs_spec` — the statement selects the jobs that satisfy the filter, each
  of them once.
* `getFilteredJobs_perm` — `getFilteredJobs` yields the same rows.

Numbers in the database are exact here; PostgreSQL refuses a product that leaves
the range of its type.
-/

namespace JobMon

open Keyed

/-! ## The statement -/

namespace Store

/-- A row of the double join: a job, a link and a tag. -/
abbrev Tagged := (JobMetadata × JobToTags) × JobTag

/-- `INNER JOIN job_to_tags ON job_to_tags.job_id = job_metadata.id
INNER JOIN job_tags ON job_tags.id = job_to_tags.tag_id`. -/
def taggedJobs (s : Store) : List Tagged :=
  Relational.join (fun p t => t.id = p.2.tagId)
    (Relational.join (fun j l => l.jobId = j.id) s.jobMetadata.rows s.jobToTags.rows)
    s.jobTags.rows

/-- The subquery of `appendTagFilter`.  A group is one job; its columns are those of
any of its rows. -/
def tagSubquery (s : Store) (tagIds : List ℤ) : List JobMetadata :=
  (Relational.divide (fun r : Tagged => r.1.1.id) (fun r => r.2.id) tagIds s.taggedJobs).filterMap
    fun g => g.2.head?.map fun r => r.1.1

/-- The table `GetFilteredJobs` selects from (`appendTagFilter`). -/
def appendTagFilter (s : Store) (tags : Option (List JobTag)) : List JobMetadata :=
  match tags with
  | some ts => s.tagSubquery (ts.map JobTag.id)
  | none => s.jobMetadata.rows

/-- The conditions `GetFilteredJobs` puts on a row (`appendValueFilter` and
`appendRangeFilter`). -/
def whereOk (filter : JobFilter) (j : JobMetadata) : Bool :=
  valueOk filter.userId j.userId && valueOk filter.userName j.userName &&
    valueOk filter.groupId j.groupId && valueOk filter.groupName j.groupName &&
    valueOk filter.isRunning j.isRunning && valueOk filter.partition j.partition &&
    rangeOk filter.numNodes j.numNodes && rangeOk filter.numTasks j.numTasks &&
    rangeOk filter.numGpus (j.numNodes * j.gpusPerNode) && rangeOk filter.time j.startTime

/-- `GetFilteredJobs`, with the tags of the selected jobs read afterwards. -/
def filteredJobs (s : Store) (filter : JobFilter) : List JobMetadata :=
  ((s.appendTagFilter filter.tags).filter (whereOk filter)).map s.withTags

end Store

/-! ## What a filter asks for -/

/-- A number lies between the ends of a range that are there. -/
structure RangeFilter.Contains (r : RangeFilter) (x : ℤ) : Prop where
  from_ : ∀ a, r.from_ = some a → a ≤ x
  to_ : ∀ b, r.to_ = some b → x ≤ b

/-- A job meets all constraints but those on tags. -/
structure JobFilter.FieldsSatisfiedBy (filter : JobFilter) (j : JobMetadata) : Prop where
  userId : ∀ v, filter.userId = some v → j.userId = v
  userName : ∀ v, filter.userName = some v → j.userName = v
  groupId : ∀ v, filter.groupId = some v → j.groupId = v
  groupName : ∀ v, filter.groupName = some v → j.groupName = v
  isRunning : ∀ v, filter.isRunning = some v → j.isRunning = v
  partition : ∀ v, filter.partition = some v → j.partition = v
  numNodes : ∀ r, filter.numNodes = some r → r.Contains j.numNodes
  numTasks : ∀ r, filter.numTasks = some r → r.Contains j.numTasks
  numGpus : ∀ r, filter.numGpus = some r → r.Contains (j.numNodes * j.gpusPerNode)
  time : ∀ r, filter.time = some r → r.Contains j.startTime

/-- The job is linked to a tag with this ID, and there is such a tag. -/
def Store.HasTag (s : Store) (id tagId : ℤ) : Prop :=
  (∃ t ∈ s.jobTags.rows, t.id = tagId) ∧ ∃ l ∈ s.jobToTags.rows, l.jobId = id ∧ l.tagId = tagId

/-- A job meets all constraints of a filter. -/
structure JobFilter.SatisfiedBy (filter : JobFilter) (s : Store) (j : JobMetadata) : Prop where
  fields : filter.FieldsSatisfiedBy j
  tags : ∀ ts, filter.tags = some ts → ∀ t ∈ ts, s.HasTag j.id t.id

namespace Store

variable {s : Store} {filter : JobFilter} {j : JobMetadata} {tagIds : List ℤ}

theorem valueOk_iff {V : Type} [DecidableEq V] {val : Option V} {x : V} :
    valueOk val x = true ↔ ∀ v, val = some v → x = v := by
  cases val with
  | none => simp [valueOk]
  | some v => simp [valueOk]

theorem rangeOk_iff {val : Option RangeFilter} {x : ℤ} :
    rangeOk val x = true ↔ ∀ r, val = some r → r.Contains x := by
  cases val with
  | none => simp [rangeOk]
  | some r =>
    rw [rangeOk, Bool.and_eq_true, Option.all_eq_true, Option.all_eq_true]
    simp only [decide_eq_true_eq, Option.some.injEq, forall_eq']
    exact ⟨fun h => ⟨h.1, h.2⟩, fun h => ⟨h.from_, h.to_⟩⟩

theorem whereOk_iff : whereOk filter j = true ↔ filter.FieldsSatisfiedBy j := by
  simp only [whereOk, Bool.and_eq_true, valueOk_iff, rangeOk_iff, and_assoc]
  constructor
  · rintro ⟨h1, h2, h3, h4, h5, h6, h7, h8, h9, h10⟩
    exact ⟨h1, h2, h3, h4, h5, h6, h7, h8, h9, h10⟩
  · intro h
    exact ⟨h.userId, h.userName, h.groupId, h.groupName, h.isRunning, h.partition, h.numNodes,
      h.numTasks, h.numGpus, h.time⟩

/-! ## The grouped join -/

theorem mem_taggedJobs_iff {r : Tagged} :
    r ∈ s.taggedJobs ↔ (r.1.1 ∈ s.jobMetadata.rows ∧ r.1.2 ∈ s.jobToTags.rows ∧
      r.1.2.jobId = r.1.1.id) ∧ r.2 ∈ s.jobTags.rows ∧ r.2.id = r.1.2.tagId := by
  simp only [taggedJobs, Relational.mem_join_iff, decide_eq_true_eq]

/-- Rows of the database with one key are one row. -/
theorem eq_of_id_eq {j j' : JobMetadata} (hj : j ∈ s.jobMetadata.rows)
    (hj' : j' ∈ s.jobMetadata.rows) (hid : j.id = j'.id) : j = j' :=
  List.inj_on_of_nodup_map s.jobMetadata.nodup hj hj' hid

/-- The job of a group is the one its key belongs to. -/
theorem map_id_tagSubquery (s : Store) (tagIds : List ℤ) :
    (s.tagSubquery tagIds).map JobMetadata.id =
      (Relational.divide (fun r : Tagged => r.1.1.id) (fun r => r.2.id) tagIds s.taggedJobs).map
        Prod.fst := by
  have hgroups : ∀ l : List (ℤ × List Tagged), (∀ g ∈ l, ∃ r ∈ s.taggedJobs,
      g.2.head? = some r ∧ r.1.1.id = g.1) →
      (l.filterMap fun g => g.2.head?.map fun r => r.1.1).map JobMetadata.id = l.map Prod.fst := by
    intro l
    induction l with
    | nil => exact fun _ => rfl
    | cons g l ih =>
      intro hl
      obtain ⟨r, -, hhead, hid⟩ := hl g List.mem_cons_self
      rw [List.filterMap_cons_some (b := r.1.1) (by rw [hhead]; rfl), List.map_cons, List.map_cons,
        hid, ih fun g' hg' => hl g' (List.mem_cons_of_mem _ hg')]
  exact hgroups _ fun g hg => Relational.exists_head?_of_mem_divide hg

theorem mem_rows_of_mem_tagSubquery (h : j ∈ s.tagSubquery tagIds) : j ∈ s.jobMetadata.rows := by
  obtain ⟨g, hg, hj⟩ := List.mem_filterMap.1 h
  obtain ⟨r, hr, hhead, -⟩ := Relational.exists_head?_of_mem_divide hg
  rw [hhead] at hj
  cases hj
  exact (mem_taggedJobs_iff.1 hr).1.1

/-- A stored job is selected by the subquery when its key is. -/
theorem mem_tagSubquery_iff_id (hj : j ∈ s.jobMetadata.rows) :
    j ∈ s.tagSubquery tagIds ↔ j.id ∈ (s.tagSubquery tagIds).map JobMetadata.id := by
  constructor
  · exact List.mem_map_of_mem
  · intro h
    obtain ⟨j', hj', hid⟩ := List.mem_map.1 h
    rwa [← eq_of_id_eq (mem_rows_of_mem_tagSubquery hj') hj hid]

/-- A row of the double join is a tag of the job. -/
theorem exists_tagged_iff (hj : j ∈ s.jobMetadata.rows) {tagId : ℤ} :
    (∃ r ∈ s.taggedJobs, r.1.1.id = j.id ∧ r.2.id = tagId) ↔ s.HasTag j.id tagId := by
  constructor
  · rintro ⟨r, hr, hid, rfl⟩
    obtain ⟨⟨-, hl, hjob⟩, ht, htag⟩ := mem_taggedJobs_iff.1 hr
    exact ⟨⟨r.2, ht, rfl⟩, r.1.2, hl, hjob.trans hid, htag.symm⟩
  · rintro ⟨⟨t, ht, rfl⟩, l, hl, hjob, htag⟩
    exact ⟨((j, l), t), mem_taggedJobs_iff.2 ⟨⟨hj, hl, hjob⟩, ht, htag.symm⟩, rfl, rfl⟩

/-- **The grouped double join selects the jobs that have all the tags.** -/
theorem mem_tagSubquery_iff (hne : tagIds ≠ []) (hnodup : tagIds.Nodup) :
    j ∈ s.tagSubquery tagIds ↔
      j ∈ s.jobMetadata.rows ∧ ∀ tagId ∈ tagIds, s.HasTag j.id tagId := by
  constructor
  · intro h
    have hj := mem_rows_of_mem_tagSubquery h
    refine ⟨hj, fun tagId htag => ?_⟩
    have hid := (mem_tagSubquery_iff_id hj).1 h
    rw [map_id_tagSubquery, Relational.mem_divide_iff hne hnodup] at hid
    exact (exists_tagged_iff hj).1 (hid tagId htag)
  · rintro ⟨hj, hall⟩
    rw [mem_tagSubquery_iff_id hj, map_id_tagSubquery, Relational.mem_divide_iff hne hnodup]
    exact fun tagId htag => (exists_tagged_iff hj).2 (hall tagId htag)

/-- The table that is selected from holds no job twice. -/
theorem nodup_appendTagFilter (s : Store) (tags : Option (List JobTag)) :
    ((s.appendTagFilter tags).map JobMetadata.id).Nodup := by
  cases tags with
  | none => exact s.jobMetadata.nodup
  | some ts =>
    show ((s.tagSubquery (ts.map JobTag.id)).map JobMetadata.id).Nodup
    rw [map_id_tagSubquery]
    exact Relational.nodup_divide

/-! ## The selected jobs -/

/-- No job is selected twice, whatever the filter. -/
theorem nodup_filteredJobs (s : Store) (filter : JobFilter) :
    ((s.filteredJobs filter).map JobMetadata.id).Nodup := by
  have hids : (s.filteredJobs filter).map JobMetadata.id =
      ((s.appendTagFilter filter.tags).filter (whereOk filter)).map JobMetadata.id := by
    rw [filteredJobs, List.map_map]
    rfl
  rw [hids]
  exact List.Nodup.sublist (List.filter_sublist.map _) (nodup_appendTagFilter s filter.tags)

/-- **`GetFilteredJobs` selects the jobs that satisfy the filter, each of them once**,
when the tags of the filter are some and have different IDs. -/
theorem filteredJobs_spec (s : Store) (filter : JobFilter)
    (htags : ∀ ts, filter.tags = some ts → ts ≠ [] ∧ (ts.map JobTag.id).Nodup) :
    ((s.filteredJobs filter).map JobMetadata.id).Nodup ∧
      ∀ j, j ∈ s.filteredJobs filter ↔
        ∃ row ∈ s.jobMetadata.rows, filter.SatisfiedBy s row ∧ s.withTags row = j := by
  refine ⟨nodup_filteredJobs s filter, fun j => ?_⟩
  have htable : ∀ row, row ∈ s.appendTagFilter filter.tags ↔ row ∈ s.jobMetadata.rows ∧
      ∀ ts, filter.tags = some ts → ∀ t ∈ ts, s.HasTag row.id t.id := by
    intro row
    cases hts : filter.tags with
    | none => simp [appendTagFilter]
    | some ts =>
      obtain ⟨hne, hnodup⟩ := htags ts hts
      have hmem : row ∈ s.tagSubquery (ts.map JobTag.id) ↔ _ :=
        mem_tagSubquery_iff (by simpa using hne) hnodup
      rw [appendTagFilter, hmem, List.forall_mem_map]
      simp only [Option.some.injEq, forall_eq']
  rw [filteredJobs, List.mem_map]
  refine exists_congr fun row => ?_
  rw [List.mem_filter, htable, whereOk_iff]
  constructor
  · rintro ⟨⟨⟨hrow, hall⟩, hfields⟩, hj⟩
    exact ⟨hrow, ⟨hfields, hall⟩, hj⟩
  · rintro ⟨hrow, hsat, hj⟩
    exact ⟨⟨⟨hrow, hsat.tags⟩, hsat.fields⟩, hj⟩

/-! ## The selection, without the statement -/

/-- The tags that are joined in are those a job is linked to. -/
theorem mem_tagsOf_iff {id tagId : ℤ} :
    (∃ t ∈ s.tagsOf id, t.id = tagId) ↔ s.HasTag id tagId := by
  constructor
  · rintro ⟨t, ht, rfl⟩
    obtain ⟨l, hl, hget⟩ := List.mem_filterMap.1 ht
    obtain ⟨hl, hjob⟩ := List.mem_filter.1 hl
    obtain ⟨htag, hid⟩ := Table.get?_eq_some_iff.1 hget
    exact ⟨⟨t, htag, rfl⟩, l, hl, of_decide_eq_true hjob, hid.symm⟩
  · rintro ⟨⟨t, ht, rfl⟩, l, hl, hjob, htag⟩
    refine ⟨t, List.mem_filterMap.2 ⟨l, List.mem_filter.2 ⟨hl, decide_eq_true hjob⟩, ?_⟩, rfl⟩
    rw [htag]
    exact Table.get?_of_mem ht

/-- The subquery and `tagsOk` count the same tags. -/
theorem mem_tagSubquery_iff_tagsOk {ts : List JobTag} (hj : j ∈ s.jobMetadata.rows) :
    j ∈ s.tagSubquery (ts.map JobTag.id) ↔ s.tagsOk (some ts) j.id = true := by
  have hitems : ∀ tagId, (∃ r ∈ (s.taggedJobs.filter fun r => r.2.id ∈ ts.map JobTag.id).filter
      fun r => r.1.1.id = j.id, r.2.id = tagId) ↔
      ∃ t ∈ ((s.tagsOf j.id).map JobTag.id).filter fun t => t ∈ ts.map JobTag.id, t = tagId := by
    intro tagId
    have hmem : tagId ∈ (s.tagsOf j.id).map JobTag.id ↔ s.HasTag j.id tagId := by
      rw [← mem_tagsOf_iff, List.mem_map]
    rw [exists_eq_right, List.mem_filter, hmem, ← exists_tagged_iff hj]
    constructor
    · rintro ⟨r, hr, rfl⟩
      obtain ⟨hr, hid⟩ := List.mem_filter.1 hr
      obtain ⟨hr, htag⟩ := List.mem_filter.1 hr
      exact ⟨⟨r, hr, of_decide_eq_true hid, rfl⟩, htag⟩
    · rintro ⟨⟨r, hr, hid, rfl⟩, htag⟩
      exact ⟨r, List.mem_filter.2 ⟨List.mem_filter.2 ⟨hr, htag⟩, decide_eq_true hid⟩, rfl⟩
  have hfound : (∃ r ∈ s.taggedJobs, r.1.1.id = j.id ∧ r.2.id ∈ ts.map JobTag.id) ↔
      (((s.tagsOf j.id).map JobTag.id).filter fun t => t ∈ ts.map JobTag.id) ≠ [] := by
    constructor
    · rintro ⟨r, hr, hid, htag⟩
      obtain ⟨t, ht, -⟩ := (hitems r.2.id).1 ⟨r,
        List.mem_filter.2 ⟨List.mem_filter.2 ⟨hr, decide_eq_true htag⟩, decide_eq_true hid⟩, rfl⟩
      exact List.ne_nil_of_mem ht
    · intro hne
      obtain ⟨t, ht⟩ := List.exists_mem_of_ne_nil _ hne
      obtain ⟨r, hr, -⟩ := (hitems t).2 ⟨t, ht, rfl⟩
      obtain ⟨hr, hid⟩ := List.mem_filter.1 hr
      obtain ⟨hr, htag⟩ := List.mem_filter.1 hr
      exact ⟨r, hr, of_decide_eq_true hid, of_decide_eq_true htag⟩
  have hcount : Relational.countDistinct (fun r : Tagged => r.2.id)
        ((s.taggedJobs.filter fun r => r.2.id ∈ ts.map JobTag.id).filter fun r =>
          r.1.1.id = j.id) =
      Relational.countDistinct id
        (((s.tagsOf j.id).map JobTag.id).filter fun t => t ∈ ts.map JobTag.id) :=
    Relational.countDistinct_congr hitems
  rw [mem_tagSubquery_iff_id hj, map_id_tagSubquery, Relational.mem_divide_iff_count, hfound,
    hcount, Relational.countDistinct, List.map_id, tagsOk, decide_eq_true_eq]

/-- **`getFilteredJobs` yields the rows of the statement.** -/
theorem getFilteredJobs_perm (s : Store) (filter : JobFilter) :
    (s.getFilteredJobs filter).Perm (s.filteredJobs filter) := by
  have hok : ∀ row, s.jobOk filter row = (s.tagsOk filter.tags row.id && whereOk filter row) := by
    intro row
    simp only [jobOk, whereOk, Bool.and_assoc]
  have hrows : (s.jobMetadata.rows.filter (s.jobOk filter)).Perm
      ((s.appendTagFilter filter.tags).filter (whereOk filter)) := by
    have hnodup : (s.jobMetadata.rows.filter (s.jobOk filter)).Nodup :=
      (List.Nodup.of_map _ s.jobMetadata.nodup).filter _
    have hnodup' : ((s.appendTagFilter filter.tags).filter (whereOk filter)).Nodup :=
      (List.Nodup.of_map _ (nodup_appendTagFilter s filter.tags)).filter _
    rw [List.perm_ext_iff_of_nodup hnodup hnodup']
    intro row
    rw [List.mem_filter, List.mem_filter, hok, Bool.and_eq_true, ← and_assoc]
    refine and_congr_left fun _ => ?_
    cases hts : filter.tags with
    | none => simp [tagsOk, appendTagFilter]
    | some ts =>
      show _ ↔ row ∈ s.tagSubquery (ts.map JobTag.id)
      constructor
      · rintro ⟨hrow, htags⟩
        exact (mem_tagSubquery_iff_tagsOk hrow).2 htags
      · intro hmem
        have hrow := mem_rows_of_mem_tagSubquery hmem
        exact ⟨hrow, (mem_tagSubquery_iff_tagsOk hrow).1 hmem⟩
  exact hrows.map _

/-! ## Two tags -/

/-- A job with two tags and one with the first of them only. -/
def taggedStore : Store :=
  { jobMetadata := ⟨[{ id := 1, numNodes := 2 }, { id := 2, numNodes := 3 }], by decide⟩
    jobTags := ⟨[{ id := 10, name := "slow" }, { id := 11, name := "io" }], by decide⟩
    jobToTags := ⟨[⟨1, 10⟩, ⟨1, 11⟩, ⟨2, 10⟩, ⟨2, 12⟩], by decide⟩ }

/-- Jobs with both tags and at least two nodes. -/
def bothTags : JobFilter :=
  { tags := some [{ id := 11 }, { id := 10 }], numNodes := some { from_ := some 2 } }

theorem filteredJobs_spec_bothTags :
    ((taggedStore.filteredJobs bothTags).map JobMetadata.id).Nodup ∧
      ∀ j, j ∈ taggedStore.filteredJobs bothTags ↔
        ∃ row ∈ taggedStore.jobMetadata.rows,
          bothTags.SatisfiedBy taggedStore row ∧ taggedStore.withTags row = j :=
  filteredJobs_spec taggedStore bothTags (by
    intro ts hts
    cases hts
    decide)

example : (taggedStore.filteredJobs bothTags).map JobMetadata.id = [1] := by decide

end Store

end JobMon
