import JobMon.Job.Types

/-!
# The PostgreSQL store

The tables behind `PostgresStore` and the statements it runs on them.  A row of
`job_metadata` has no tags of its own: they are joined in from `job_to_tags` and
`job_tags` when a job is read.

* `getJob_putJob`, `getJob_updateJob` — what inserting and overwriting a row does
  to every job.
* `getJob_addTag_of_ne`, `getJob_removeTag_of_ne` — tagging a job leaves the
  other jobs alone, as long as no link points to a tag that is not there
  (`LinksValid`).
* `mem_getFilteredJobs_iff`, `mem_getJobTags_iff` — what the two list queries
  select.

Statements do not fail here except for a key that is taken or a row that is not
there; failing calls are added where a claim is about them.
-/

namespace JobMon

open Keyed

/-- The session token of a user. -/
structure UserSession where
  username : String
  token : String := ""
  deriving DecidableEq

/-- The roles of a user. -/
structure UserRoles where
  username : String := ""
  roles : List String := []
  deriving DecidableEq

/-- The primary key of a link. -/
def JobToTags.key (l : JobToTags) : ℤ × ℤ := (l.jobId, l.tagId)

/-- The tables of the database. -/
structure Store where
  jobMetadata : Table ℤ JobMetadata JobMetadata.id := Table.empty
  jobTags : Table ℤ JobTag JobTag.id := Table.empty
  jobToTags : Table (ℤ × ℤ) JobToTags JobToTags.key := Table.empty
  /-- The next value of the sequence behind `job_tags.id`. -/
  nextTagId : ℤ := 1
  userSessions : Table String UserSession UserSession.username := Table.empty
  userRoles : Table String UserRoles UserRoles.username := Table.empty
  deriving DecidableEq

namespace Store

/-! ## Jobs -/

/-- The tags of a job: the links of the job, joined with the tags. -/
def tagsOf (s : Store) (id : ℤ) : List JobTag :=
  (s.jobToTags.rows.filter fun l => l.jobId = id).filterMap fun l => s.jobTags.get? l.tagId

/-- A row with its tags joined in. -/
def withTags (s : Store) (row : JobMetadata) : JobMetadata := { row with tags := s.tagsOf row.id }

/-- The row that is stored for a job. -/
def rowOf (j : JobMetadata) : JobMetadata := { j with tags := [] }

/-- `PutJob`; `none` is a failed insert. -/
def putJob (s : Store) (j : JobMetadata) : Option Store :=
  (s.jobMetadata.insert (rowOf j)).map fun t => { s with jobMetadata := t }

/-- `GetJob`. -/
def getJob (s : Store) (id : ℤ) : Option JobMetadata := (s.jobMetadata.get? id).map s.withTags

/-- `UpdateJob`: the whole row is overwritten; nothing happens when there is
none. -/
def updateJob (s : Store) (j : JobMetadata) : Store :=
  { s with jobMetadata := s.jobMetadata.replace (rowOf j) }

/-! ## Selecting jobs -/

/-- `appendValueFilter`. -/
def valueOk {V : Type} [DecidableEq V] (val : Option V) (x : V) : Bool :=
  match val with
  | some v => decide (x = v)
  | none => true

/-- `appendRangeFilter`. -/
def rangeOk (val : Option RangeFilter) (x : ℤ) : Bool :=
  match val with
  | some r => r.from_.all (· ≤ x) && r.to_.all (x ≤ ·)
  | none => true

/-- `appendTagFilter`: the number of distinct tags of the job among the wanted
ones is the number of tags asked for.  A job without any of them is in no group,
whatever the number asked for. -/
def tagsOk (s : Store) (tags : Option (List JobTag)) (id : ℤ) : Bool :=
  match tags with
  | some ts =>
    let tagIds := ts.map JobTag.id
    let found := ((s.tagsOf id).map JobTag.id).filter fun t => t ∈ tagIds
    decide (found ≠ [] ∧ found.dedup.length = tagIds.length)
  | none => true

/-- The conditions of `GetFilteredJobs`. -/
def jobOk (s : Store) (filter : JobFilter) (j : JobMetadata) : Bool :=
  s.tagsOk filter.tags j.id && valueOk filter.userId j.userId &&
    valueOk filter.userName j.userName && valueOk filter.groupId j.groupId &&
    valueOk filter.groupName j.groupName && valueOk filter.isRunning j.isRunning &&
    valueOk filter.partition j.partition && rangeOk filter.numNodes j.numNodes &&
    rangeOk filter.numTasks j.numTasks && rangeOk filter.numGpus (j.numNodes * j.gpusPerNode) &&
    rangeOk filter.time j.startTime

/-- `GetFilteredJobs`. -/
def getFilteredJobs (s : Store) (filter : JobFilter) : List JobMetadata :=
  (s.jobMetadata.rows.filter (s.jobOk filter)).map s.withTags

/-- `GetJobTags`: one row for every link to a tag, of the user's jobs unless the
user name is empty. -/
def getJobTags (s : Store) (username : String) : List JobTag :=
  (s.jobToTags.rows.filter fun l =>
    match s.jobMetadata.get? l.jobId with
    | some j => username = "" || decide (j.userName = username)
    | none => false).filterMap fun l => s.jobTags.get? l.tagId

/-! ## Searching

A search term goes into the statement as it is.  As long as it has no single
quote it stays inside the pattern of `LIKE`; with one it becomes part of the
statement, whose meaning is then a parameter. -/

/-- What a pattern of `LIKE` is made of. -/
inductive LikeToken
  | anyText
  | anyChar
  | char (c : Char)
  deriving DecidableEq

/-- The escape character of `LIKE`, a backslash. -/
def likeEscape : Char := Char.ofNat 92

/-- The single quote that ends a text in SQL. -/
def sqlQuote : Char := Char.ofNat 39

/-- A pattern, read. -/
def likeTokens : List Char → List LikeToken
  | [] => []
  | [c] => if c = '%' then [.anyText] else if c = '_' then [.anyChar] else [.char c]
  | c :: d :: cs =>
    if c = likeEscape then .char d :: likeTokens cs
    else if c = '%' then .anyText :: likeTokens (d :: cs)
    else if c = '_' then .anyChar :: likeTokens (d :: cs)
    else .char c :: likeTokens (d :: cs)

/-- Does a text match a pattern? -/
def likeMatch : List LikeToken → List Char → Bool
  | [], cs => cs.isEmpty
  | .anyText :: ts, cs => cs.tails.any (likeMatch ts)
  | .anyChar :: ts, cs =>
    match cs with
    | [] => false
    | _ :: cs => likeMatch ts cs
  | .char c :: ts, cs =>
    match cs with
    | [] => false
    | d :: cs => decide (c = d) && likeMatch ts cs

/-- `column LIKE '%term%'`. -/
def like (term column : String) : Bool :=
  likeMatch (likeTokens ('%' :: term.toList ++ ['%'])) column.toList

/-- What the database makes of a statement whose condition a search term has
broken out of. -/
structure RawSQL where
  jobs : String → String → List JobMetadata → Option (List JobMetadata)
  tags : String → String → List JobTag → Option (List JobTag)
  users : String → List JobMetadata → Option (List String)

/-- `GetJobByString`: the jobs come without their tags. -/
def getJobByString (sql : RawSQL) (s : Store) (searchTerm username : String) :
    Option (List JobMetadata) :=
  if Go.containsChar searchTerm sqlQuote then sql.jobs searchTerm username s.jobMetadata.rows
  else some ((s.jobMetadata.rows.filter fun j =>
    (like searchTerm (toString j.id) || like searchTerm j.jobName || like searchTerm j.account) &&
      (username = "" || decide (j.userName = username))).map rowOf)

/-- `GetJobTagsByName`. -/
def getJobTagsByName (sql : RawSQL) (s : Store) (searchTerm username : String) :
    Option (List JobTag) :=
  if Go.containsChar searchTerm sqlQuote then sql.tags searchTerm username s.jobTags.rows
  else some (s.jobTags.rows.filter fun t =>
    like searchTerm t.name && (username = "" || decide (t.createdBy = username)))

/-- `GetUserWithJob`. -/
def getUserWithJob (sql : RawSQL) (s : Store) (searchTerm : String) : Option (List String) :=
  if Go.containsChar searchTerm sqlQuote then sql.users searchTerm s.jobMetadata.rows
  else some ((s.jobMetadata.rows.map JobMetadata.userName).dedup.filter (like searchTerm))

/-! ## Tags -/

/-- The insert of a tag: a zero ID is replaced by the next value of the sequence,
which is used up even when the insert fails. -/
def insertTag (s : Store) (tag : JobTag) : Option JobTag × Store :=
  let s' := if tag.id = 0 then { s with nextTagId := s.nextTagId + 1 } else s
  let tag' := if tag.id = 0 then { tag with id := s.nextTagId } else tag
  match s.jobTags.insert tag' with
  | some t => (some tag', { s' with jobTags := t })
  | none => (none, s')

/-- The ID a new tag gets. -/
def newTagId (s : Store) (tag : JobTag) : ℤ := if tag.id = 0 then s.nextTagId else tag.id

/-- `AddTag`: create the tag, then link it to the job.  The tag comes back with
its ID; the flag says whether there was no error. -/
def addTag (s : Store) (id : ℤ) (tag : JobTag) : JobTag × Bool × Store :=
  match s.insertTag tag with
  | (none, s') => (tag, false, s')
  | (some tag', s') =>
    match s'.jobToTags.insert { jobId := id, tagId := tag'.id } with
    | some t => (tag', true, { s' with jobToTags := t })
    | none => (tag', false, s')

/-- `RemoveTag`: the link goes, the tag stays. -/
def removeTag (s : Store) (id : ℤ) (tag : JobTag) : Store :=
  { s with jobToTags := s.jobToTags.erase (id, tag.id) }

/-! ## Sessions and roles -/

/-- `GetUserSessionToken`. -/
def getUserSessionToken (s : Store) (username : String) : Option String :=
  (s.userSessions.get? username).map UserSession.token

/-- `SetUserSessionToken`. -/
def setUserSessionToken (s : Store) (username token : String) : Store :=
  { s with userSessions := s.userSessions.upsert { username, token } }

/-- `RemoveUserSession`. -/
def removeUserSession (s : Store) (username : String) : Store :=
  { s with userSessions := s.userSessions.erase username }

/-- `GetUserRoles`. -/
def getUserRoles (s : Store) (username : String) : Option UserRoles := s.userRoles.get? username

/-- `SetUserRoles`. -/
def setUserRoles (s : Store) (username : String) (roles : List String) : Store :=
  { s with userRoles := s.userRoles.upsert { username, roles } }

/-! ## What the statements on jobs do -/

@[simp] theorem withTags_id (s : Store) (j : JobMetadata) : (s.withTags j).id = j.id := rfl

@[simp] theorem rowOf_id (j : JobMetadata) : (rowOf j).id = j.id := rfl

theorem withTags_rowOf (s : Store) (j : JobMetadata) : s.withTags (rowOf j) = s.withTags j := rfl

theorem id_of_getJob {s : Store} {id : ℤ} {j : JobMetadata} (h : s.getJob id = some j) :
    j.id = id := by
  obtain ⟨row, hrow, rfl⟩ := Option.map_eq_some_iff.1 h
  rw [withTags_id]
  exact Table.key_of_get? hrow

theorem tags_of_getJob {s : Store} {id : ℤ} {j : JobMetadata} (h : s.getJob id = some j) :
    j.tags = s.tagsOf id := by
  obtain ⟨row, hrow, rfl⟩ := Option.map_eq_some_iff.1 h
  rw [← show row.id = id from Table.key_of_get? hrow]
  rfl

theorem getJob_putJob {s s' : Store} {j : JobMetadata} (h : s.putJob j = some s') (id : ℤ) :
    s'.getJob id = if id = j.id then some (s.withTags j) else s.getJob id := by
  obtain ⟨t, ht, rfl⟩ := Option.map_eq_some_iff.1 h
  show (t.get? id).map s.withTags = _
  rw [Table.get?_insert ht, rowOf_id]
  by_cases hid : id = j.id
  · rw [if_pos hid, if_pos hid, Option.map_some, withTags_rowOf]
  · rw [if_neg hid, if_neg hid]
    rfl

theorem putJob_eq_none_iff {s : Store} {j : JobMetadata} :
    s.putJob j = none ↔ s.getJob j.id ≠ none := by
  rw [putJob, Option.map_eq_none_iff, Table.insert_eq_none_iff, getJob, Ne, Ne,
    Option.map_eq_none_iff, rowOf_id]

theorem getJob_updateJob (s : Store) (j : JobMetadata) (id : ℤ) :
    (s.updateJob j).getJob id =
      if id = j.id then (s.getJob id).map fun _ => s.withTags j else s.getJob id := by
  show ((s.jobMetadata.replace (rowOf j)).get? id).map s.withTags = _
  rw [Table.get?_replace, rowOf_id, getJob]
  by_cases hid : id = j.id
  · rw [if_pos hid, if_pos hid, Option.map_map, Option.map_map]
    cases s.jobMetadata.get? id with
    | none => rfl
    | some row => rfl
  · rw [if_neg hid, if_neg hid]

theorem getJob_updateJob_of_ne {s : Store} {j : JobMetadata} {id : ℤ} (h : id ≠ j.id) :
    (s.updateJob j).getJob id = s.getJob id := by
  rw [getJob_updateJob, if_neg h]

/-- Overwriting a job that is there, by one that still has its tags. -/
theorem getJob_updateJob_self {s : Store} {j row : JobMetadata} (h : s.getJob j.id = some row)
    (htags : j.tags = row.tags) : (s.updateJob j).getJob j.id = some j := by
  rw [getJob_updateJob, if_pos rfl, h, Option.map_some, withTags, ← tags_of_getJob h, ← htags]

/-! ## What the list queries select -/

theorem mem_getFilteredJobs_iff {s : Store} {filter : JobFilter} {j : JobMetadata} :
    j ∈ s.getFilteredJobs filter ↔
      ∃ row ∈ s.jobMetadata.rows, s.jobOk filter row = true ∧ s.withTags row = j := by
  rw [getFilteredJobs, List.mem_map]
  constructor
  · rintro ⟨row, hrow, rfl⟩
    obtain ⟨hmem, hok⟩ := List.mem_filter.1 hrow
    exact ⟨row, hmem, hok, rfl⟩
  · rintro ⟨row, hmem, hok, rfl⟩
    exact ⟨row, List.mem_filter.2 ⟨hmem, hok⟩, rfl⟩

/-- **A user name in the filter is respected.** -/
theorem userName_of_mem_getFilteredJobs {s : Store} {filter : JobFilter} {u : String}
    (hu : filter.userName = some u) {j : JobMetadata} (h : j ∈ s.getFilteredJobs filter) :
    j.userName = u := by
  obtain ⟨row, -, hok, rfl⟩ := mem_getFilteredJobs_iff.1 h
  simp only [jobOk, Bool.and_eq_true, hu, valueOk, decide_eq_true_eq] at hok
  exact hok.1.1.1.1.1.1.1.1.2

/-! ## What tagging does -/

/-- Every link points to a tag. -/
def LinksValid (s : Store) : Prop := ∀ l ∈ s.jobToTags.rows, s.jobTags.get? l.tagId ≠ none

/-- **What inserting a tag does**: its ID is taken and only the sequence moves on, or it is
appended to the table of tags. -/
theorem insertTag_cases (s : Store) (tag : JobTag) :
    (∃ n, s.insertTag tag = (none, { s with nextTagId := n }) ∧
      s.jobTags.get? (s.newTagId tag) ≠ none) ∨
    (∃ n t, s.insertTag tag =
        (some { tag with id := s.newTagId tag }, { s with nextTagId := n, jobTags := t }) ∧
      s.jobTags.insert { tag with id := s.newTagId tag } = some t) := by
  unfold insertTag newTagId
  by_cases h0 : tag.id = 0
  · simp only [h0, if_true]
    cases hins : s.jobTags.insert { tag with id := s.nextTagId } with
    | none => exact .inl ⟨s.nextTagId + 1, rfl, Table.insert_eq_none_iff.1 hins⟩
    | some t => exact .inr ⟨s.nextTagId + 1, t, rfl, rfl⟩
  · simp only [h0, if_false]
    cases hins : s.jobTags.insert tag with
    | none => exact .inl ⟨s.nextTagId, rfl, Table.insert_eq_none_iff.1 hins⟩
    | some t => exact .inr ⟨s.nextTagId, t, rfl, rfl⟩

theorem insertTag_jobMetadata (s : Store) (tag : JobTag) :
    (s.insertTag tag).2.jobMetadata = s.jobMetadata := by
  rcases insertTag_cases s tag with ⟨n, h, -⟩ | ⟨n, t, h, -⟩
  · rw [h]
  · rw [h]

theorem insertTag_jobToTags (s : Store) (tag : JobTag) :
    (s.insertTag tag).2.jobToTags = s.jobToTags := by
  rcases insertTag_cases s tag with ⟨n, h, -⟩ | ⟨n, t, h, -⟩
  · rw [h]
  · rw [h]

theorem insertTag_userTables (s : Store) (tag : JobTag) :
    (s.insertTag tag).2.userSessions = s.userSessions ∧
      (s.insertTag tag).2.userRoles = s.userRoles := by
  rcases insertTag_cases s tag with ⟨n, h, -⟩ | ⟨n, t, h, -⟩
  · rw [h]
    exact ⟨rfl, rfl⟩
  · rw [h]
    exact ⟨rfl, rfl⟩

/-- The table of tags only grows. -/
theorem get?_insertTag {s : Store} {tag : JobTag} {k : ℤ} {t : JobTag}
    (h : s.jobTags.get? k = some t) : (s.insertTag tag).2.jobTags.get? k = some t := by
  rcases insertTag_cases s tag with ⟨n, heq, -⟩ | ⟨n, tbl, heq, hins⟩
  · rw [heq]
    exact h
  · rw [heq]
    show tbl.get? k = some t
    rw [Table.get?_insert hins]
    split
    · rename_i hk
      have hfree := (Table.insert_eq_some_iff.1 hins).1
      rw [← hk, h] at hfree
      cases hfree
    · exact h

/-- A created tag is in the table. -/
theorem get?_insertTag_self {s s' : Store} {tag tag' : JobTag}
    (h : s.insertTag tag = (some tag', s')) : s'.jobTags.get? tag'.id = some tag' := by
  rcases insertTag_cases s tag with ⟨n, heq, -⟩ | ⟨n, tbl, heq, hins⟩
  · rw [heq] at h
    cases h
  · rw [heq] at h
    cases h
    show tbl.get? _ = _
    rw [Table.get?_insert hins, if_pos rfl]

/-- With valid links, creating a tag changes no job's tags. -/
theorem tagsOf_insertTag {s : Store} (hs : s.LinksValid) (tag : JobTag) (id : ℤ) :
    (s.insertTag tag).2.tagsOf id = s.tagsOf id := by
  rw [tagsOf, tagsOf, insertTag_jobToTags]
  refine List.filterMap_congr fun l hl => ?_
  obtain ⟨t, ht⟩ := Option.ne_none_iff_exists'.1 (hs l (List.mem_of_mem_filter hl))
  rw [ht, get?_insertTag ht]

theorem linksValid_insertTag {s : Store} (hs : s.LinksValid) (tag : JobTag) :
    (s.insertTag tag).2.LinksValid := by
  intro l hl
  rw [insertTag_jobToTags] at hl
  obtain ⟨t, ht⟩ := Option.ne_none_iff_exists'.1 (hs l hl)
  rw [get?_insertTag ht]
  simp

/-- The three ways `AddTag` ends. -/
theorem addTag_cases (s : Store) (id : ℤ) (tag : JobTag) :
    (s.addTag id tag).2.2 = (s.insertTag tag).2 ∨
      ∃ tag' t, s.insertTag tag = (some tag', (s.insertTag tag).2) ∧
        (s.insertTag tag).2.jobToTags.insert { jobId := id, tagId := tag'.id } = some t ∧
        (s.addTag id tag).2.2 = { (s.insertTag tag).2 with jobToTags := t } := by
  unfold addTag
  cases hins : s.insertTag tag with
  | mk created s' =>
    cases created with
    | none => exact Or.inl rfl
    | some tag' =>
      cases hlink : s'.jobToTags.insert { jobId := id, tagId := tag'.id } with
      | none =>
        left
        simp only [hlink]
      | some t =>
        right
        refine ⟨tag', t, rfl, hlink, ?_⟩
        simp only [hlink]

theorem addTag_jobMetadata (s : Store) (id : ℤ) (tag : JobTag) :
    (s.addTag id tag).2.2.jobMetadata = s.jobMetadata := by
  rcases addTag_cases s id tag with h | ⟨tag', t, -, -, h⟩
  · rw [h, insertTag_jobMetadata]
  · rw [h]
    exact insertTag_jobMetadata s tag

theorem addTag_userTables (s : Store) (id : ℤ) (tag : JobTag) :
    (s.addTag id tag).2.2.userSessions = s.userSessions ∧
      (s.addTag id tag).2.2.userRoles = s.userRoles := by
  rcases addTag_cases s id tag with h | ⟨tag', t, -, -, h⟩
  · rw [h]
    exact insertTag_userTables s tag
  · rw [h]
    exact insertTag_userTables s tag

/-- **Tagging a job leaves the tags of the others alone.** -/
theorem tagsOf_addTag_of_ne {s : Store} (hs : s.LinksValid) {id id' : ℤ} (hne : id' ≠ id)
    (tag : JobTag) : (s.addTag id tag).2.2.tagsOf id' = s.tagsOf id' := by
  rcases addTag_cases s id tag with h | ⟨tag', t, -, hlink, h⟩
  · rw [h, tagsOf_insertTag hs]
  · rw [h, ← tagsOf_insertTag hs tag id']
    show (t.rows.filter fun l => decide (l.jobId = id')).filterMap _ = _
    rw [Table.filter_insert hlink, if_neg (by simpa using Ne.symm hne), List.append_nil]
    rfl

theorem linksValid_addTag {s : Store} (hs : s.LinksValid) (id : ℤ) (tag : JobTag) :
    (s.addTag id tag).2.2.LinksValid := by
  rcases addTag_cases s id tag with h | ⟨tag', t, hins, hlink, h⟩
  · rw [h]
    exact linksValid_insertTag hs tag
  · rw [h]
    intro l hl
    have hrows := (Table.insert_eq_some_iff.1 hlink).2
    rw [hrows, List.mem_append, List.mem_singleton] at hl
    rcases hl with hl | rfl
    · exact linksValid_insertTag hs tag l hl
    · show (s.insertTag tag).2.jobTags.get? tag'.id ≠ none
      rw [get?_insertTag_self hins]
      simp

theorem getJob_addTag_of_ne {s : Store} (hs : s.LinksValid) {id id' : ℤ} (hne : id' ≠ id)
    (tag : JobTag) : (s.addTag id tag).2.2.getJob id' = s.getJob id' := by
  rw [getJob, getJob, addTag_jobMetadata]
  cases hrow : s.jobMetadata.get? id' with
  | none => rfl
  | some row =>
    rw [Option.map_some, Option.map_some, withTags, withTags,
      show row.id = id' from Table.key_of_get? hrow, tagsOf_addTag_of_ne hs hne]

theorem tagsOf_removeTag_of_ne (s : Store) {id id' : ℤ} (hne : id' ≠ id) (tag : JobTag) :
    (s.removeTag id tag).tagsOf id' = s.tagsOf id' := by
  have hfilter : (s.removeTag id tag).jobToTags.rows.filter (fun l => decide (l.jobId = id')) =
      s.jobToTags.rows.filter fun l => decide (l.jobId = id') := by
    show (s.jobToTags.rows.filter _).filter _ = _
    rw [List.filter_filter]
    refine List.filter_congr fun l _ => ?_
    by_cases hl : l.jobId = id'
    · have hkey : l.key ≠ (id, tag.id) := fun hk => hne (hl ▸ congrArg Prod.fst hk)
      simp [hl, hkey]
    · simp [hl]
  rw [tagsOf, hfilter]
  rfl

theorem linksValid_removeTag {s : Store} (hs : s.LinksValid) (id : ℤ) (tag : JobTag) :
    (s.removeTag id tag).LinksValid := fun l hl => hs l (List.mem_of_mem_filter hl)

theorem getJob_removeTag_of_ne (s : Store) {id id' : ℤ} (hne : id' ≠ id) (tag : JobTag) :
    (s.removeTag id tag).getJob id' = s.getJob id' := by
  show (s.jobMetadata.get? id').map (s.removeTag id tag).withTags = _
  rw [getJob]
  cases hrow : s.jobMetadata.get? id' with
  | none => rfl
  | some row =>
    rw [Option.map_some, Option.map_some, withTags, withTags,
      show row.id = id' from Table.key_of_get? hrow, tagsOf_removeTag_of_ne s hne]

end Store

end JobMon
