import Mathlib.Data.Fintype.EquivFin
import Mathlib.Data.Finset.Dedup
import JobMon.Store.Tables

/-!
# What is a user's own in the store

Jobs belong to the user they carry the name of, the links of a job belong to its
owner, and a tag belongs to the user who created it.

* `SameFor` — two stores that agree on all that is one user's own, the tags linked
  to the user's jobs included.
* `SameFor.getJob_eq`, `SameFor.getFilteredJobs_eq`, `SameFor.getJobTags_eq`,
  `SameFor.getJobByString_eq`, `SameFor.getJobTagsByName_eq` — statements that are
  restricted to a user's own read the same in both.
* `like_iff_contains` — a search term without special characters is found where it is
  contained.
* `exists_sameFor_toggled`, `exists_sameFor_more` — what else there is in the store
  can be anything: a store that is the same for a user and has more.
-/

namespace JobMon

open Keyed

namespace Store

/-- The rows of the user's jobs. -/
def ownJobs (s : Store) (username : String) : List JobMetadata :=
  s.jobMetadata.rows.filter fun j => j.userName = username

/-- Does the job belong to the user? -/
def ownsJob (s : Store) (username : String) (id : ℤ) : Bool :=
  match s.jobMetadata.get? id with
  | some j => decide (j.userName = username)
  | none => false

/-- The links of the user's jobs. -/
def ownLinks (s : Store) (username : String) : List JobToTags :=
  s.jobToTags.rows.filter fun l => s.ownsJob username l.jobId

/-- The tags the user has created. -/
def ownTags (s : Store) (username : String) : List JobTag :=
  s.jobTags.rows.filter fun t => t.createdBy = username

/-- The stores agree on the user's jobs, on their tags and on the tags the user has
created. -/
structure SameFor (username : String) (s s' : Store) : Prop where
  jobs : s'.ownJobs username = s.ownJobs username
  links : s'.ownLinks username = s.ownLinks username
  linked : ∀ l ∈ s.ownLinks username, s'.jobTags.get? l.tagId = s.jobTags.get? l.tagId
  created : s'.ownTags username = s.ownTags username

theorem sameFor_refl (username : String) (s : Store) : SameFor username s s :=
  ⟨rfl, rfl, fun _ _ => rfl, rfl⟩

variable {username : String} {s s' : Store}

theorem ownsJob_iff {id : ℤ} :
    s.ownsJob username id = true ↔ ∃ row ∈ s.ownJobs username, row.id = id := by
  unfold ownsJob ownJobs
  constructor
  · intro h
    cases hrow : s.jobMetadata.get? id with
    | none =>
      rw [hrow] at h
      cases h
    | some row =>
      rw [hrow] at h
      exact ⟨row, List.mem_filter.2 ⟨Table.mem_of_get? hrow, h⟩, Table.key_of_get? hrow⟩
  · rintro ⟨row, hrow, rfl⟩
    obtain ⟨hmem, hown⟩ := List.mem_filter.1 hrow
    rw [Table.get?_of_mem hmem]
    exact hown

theorem ownsJob_congr (h : s'.ownJobs username = s.ownJobs username) (id : ℤ) :
    s'.ownsJob username id = s.ownsJob username id := by
  rw [Bool.eq_iff_iff, ownsJob_iff, ownsJob_iff, h]

/-- All links of a user's job are the user's own. -/
theorem filter_ownLinks {id : ℤ} (h : s.ownsJob username id = true) :
    s.jobToTags.rows.filter (fun l => l.jobId = id) =
      (s.ownLinks username).filter fun l => l.jobId = id := by
  rw [ownLinks, List.filter_filter]
  refine List.filter_congr fun l _ => ?_
  by_cases hl : l.jobId = id
  · simp [hl, h]
  · simp [hl]

/-! ## Reading what is one's own -/

namespace SameFor

theorem tagsOf_eq (h : SameFor username s s') {id : ℤ} (hown : s.ownsJob username id = true) :
    s'.tagsOf id = s.tagsOf id := by
  have hown' : s'.ownsJob username id = true := by rw [ownsJob_congr h.jobs, hown]
  rw [tagsOf, tagsOf, filter_ownLinks hown', filter_ownLinks hown, h.links]
  refine List.filterMap_congr fun l hl => ?_
  exact h.linked l (List.mem_of_mem_filter hl)

theorem withTags_eq (h : SameFor username s s') {row : JobMetadata}
    (hrow : row ∈ s.ownJobs username) : s'.withTags row = s.withTags row := by
  rw [withTags, withTags, h.tagsOf_eq (ownsJob_iff.2 ⟨row, hrow, rfl⟩)]

/-- A user's own job reads the same. -/
theorem getJob_eq (h : SameFor username s s') {id : ℤ} {j : JobMetadata}
    (hj : s.getJob id = some j) (hown : j.userName = username) : s'.getJob id = some j := by
  obtain ⟨row, hrow, rfl⟩ := Option.map_eq_some_iff.1 hj
  have hmem : row ∈ s.ownJobs username :=
    List.mem_filter.2 ⟨Table.mem_of_get? hrow, decide_eq_true hown⟩
  have hmem' : row ∈ s'.ownJobs username := h.jobs.symm ▸ hmem
  have hget : s'.jobMetadata.get? id = some row :=
    Table.get?_eq_some_iff.2 ⟨List.mem_of_mem_filter hmem', Table.key_of_get? hrow⟩
  rw [getJob, hget, Option.map_some, h.withTags_eq hmem]

theorem getFilteredJobs_eq (h : SameFor username s s') {filter : JobFilter}
    (hfilter : filter.userName = some username) :
    s'.getFilteredJobs filter = s.getFilteredJobs filter := by
  -- the conditions select among the user's own rows
  have hrows : ∀ t : Store, t.jobMetadata.rows.filter (t.jobOk filter) =
      (t.ownJobs username).filter (t.jobOk filter) := by
    intro t
    rw [ownJobs, List.filter_filter]
    refine List.filter_congr fun j _ => ?_
    by_cases hown : j.userName = username
    · simp [hown]
    · simp [hown, jobOk, hfilter, valueOk]
  have hok : ∀ j ∈ s.ownJobs username, s'.jobOk filter j = s.jobOk filter j := by
    intro j hj
    have htags := h.tagsOf_eq (ownsJob_iff.2 ⟨j, hj, rfl⟩)
    simp only [jobOk, tagsOk, htags]
  rw [getFilteredJobs, getFilteredJobs, hrows, hrows, h.jobs, List.filter_congr hok]
  refine List.map_congr_left fun j hj => ?_
  exact h.withTags_eq (List.mem_of_mem_filter hj)

/-- The tag query without a user name is not restricted at all. -/
theorem getJobTags_eq (h : SameFor username s s') (hname : username ≠ "") :
    s'.getJobTags username = s.getJobTags username := by
  have hlinks : ∀ t : Store, t.getJobTags username =
      (t.ownLinks username).filterMap fun l => t.jobTags.get? l.tagId := by
    intro t
    unfold getJobTags ownLinks ownsJob
    congr 1
    refine List.filter_congr fun l _ => ?_
    cases t.jobMetadata.get? l.jobId with
    | none => rfl
    | some j => simp [hname]
  rw [hlinks, hlinks, h.links]
  exact List.filterMap_congr h.linked

theorem getJobByString_eq (h : SameFor username s s') (hname : username ≠ "") (sql : RawSQL)
    {searchTerm : String} (hterm : Go.containsChar searchTerm sqlQuote = false) :
    s'.getJobByString sql searchTerm username = s.getJobByString sql searchTerm username := by
  have hrows : ∀ t : Store, (t.jobMetadata.rows.filter fun j =>
      (like searchTerm (toString j.id) || like searchTerm j.jobName || like searchTerm j.account) &&
        (username = "" || decide (j.userName = username))) =
      (t.ownJobs username).filter fun j =>
        like searchTerm (toString j.id) || like searchTerm j.jobName ||
          like searchTerm j.account := by
    intro t
    rw [ownJobs, List.filter_filter]
    refine List.filter_congr fun j _ => ?_
    simp [hname]
  rw [getJobByString, getJobByString, hterm, if_neg Bool.false_ne_true, if_neg Bool.false_ne_true,
    hrows, hrows, h.jobs]

theorem getJobTagsByName_eq (h : SameFor username s s') (hname : username ≠ "") (sql : RawSQL)
    {searchTerm : String} (hterm : Go.containsChar searchTerm sqlQuote = false) :
    s'.getJobTagsByName sql searchTerm username = s.getJobTagsByName sql searchTerm username := by
  have hrows : ∀ t : Store, (t.jobTags.rows.filter fun tag =>
      like searchTerm tag.name && (username = "" || decide (tag.createdBy = username))) =
      (t.ownTags username).filter fun tag => like searchTerm tag.name := by
    intro t
    rw [ownTags, List.filter_filter]
    refine List.filter_congr fun tag _ => ?_
    simp [hname]
  rw [getJobTagsByName, getJobTagsByName, hterm, if_neg Bool.false_ne_true,
    if_neg Bool.false_ne_true, hrows, hrows, h.created]

end SameFor

/-! ## Everything else can be anything -/

/-- Rows of other users do not matter. -/
theorem sameFor_of_ownJobs {t : Table ℤ JobMetadata JobMetadata.id}
    (h : (t.rows.filter fun j => decide (j.userName = username)) = s.ownJobs username) :
    SameFor username s { s with jobMetadata := t } := by
  refine ⟨h, ?_, fun _ _ => rfl, rfl⟩
  refine List.filter_congr fun l _ => ?_
  exact @ownsJob_congr username s { s with jobMetadata := t } h l.jobId

/-- **Whether there is a job of somebody else** under an ID makes no difference to what
is the user's own. -/
theorem exists_sameFor_toggled {id : ℤ} (hid : s.ownsJob username id = false) :
    ∃ s', SameFor username s s' ∧
      ((∃ j, s.getJob id = some j ∧ j.userName ≠ username ∧ s'.getJob id = none) ∨
        (∃ j, s.getJob id = none ∧ s'.getJob id = some j ∧ j.userName ≠ username)) := by
  cases hrow : s.jobMetadata.get? id with
  | some row =>
    have hforeign : row.userName ≠ username := by
      rw [ownsJob, hrow] at hid
      simpa using hid
    refine ⟨{ s with jobMetadata := s.jobMetadata.erase id }, sameFor_of_ownJobs ?_, Or.inl ?_⟩
    · show (s.jobMetadata.rows.filter _).filter _ = s.jobMetadata.rows.filter _
      rw [List.filter_filter]
      refine List.filter_congr fun j hj => ?_
      by_cases hkey : j.id = id
      · have hsame : j = row := Table.eq_of_get? hrow hj hkey
        simp [hsame, hforeign]
      · simp [hkey]
    · refine ⟨s.withTags row, ?_, hforeign, ?_⟩
      · rw [getJob, hrow, Option.map_some]
      · show ((s.jobMetadata.erase id).get? id).map _ = none
        rw [Table.get?_erase, if_pos rfl, Option.map_none]
  | none =>
    obtain ⟨t, ht⟩ := @Table.insert_of_free _ _ _ _ s.jobMetadata
      { id := id, userName := username ++ "x" } hrow
    refine ⟨{ s with jobMetadata := t }, sameFor_of_ownJobs ?_, Or.inr ?_⟩
    · rw [Table.filter_insert ht, if_neg (by simp), List.append_nil]
      rfl
    · refine ⟨withTags { s with jobMetadata := t } { id := id, userName := username ++ "x" }, ?_,
        ?_, by simp [withTags]⟩
      · rw [getJob, hrow, Option.map_none]
      · show (t.get? id).map _ = some _
        rw [Table.get?_insert ht, if_pos rfl, Option.map_some]

/-- A number that is not in a list. -/
theorem exists_fresh (l : List ℤ) : ∃ n, n ∉ l := by
  obtain ⟨n, hn⟩ := Infinite.exists_notMem_finset l.toFinset
  exact ⟨n, fun hmem => hn (List.mem_toFinset.2 hmem)⟩

/-- **A job of somebody else, with a tag**, makes no difference either. -/
theorem exists_sameFor_more (s : Store) (username name : String) :
    ∃ s' j tag, SameFor username s s' ∧
      s'.jobMetadata.rows = s.jobMetadata.rows ++ [j] ∧ j.jobName = name ∧
      s'.jobTags.rows = s.jobTags.rows ++ [tag] ∧ tag.name = name ∧
      s'.getJobTags "" = s.getJobTags "" ++ [tag] := by
  obtain ⟨n, hn⟩ := exists_fresh (s.jobMetadata.rows.map JobMetadata.id ++
    s.jobToTags.rows.map JobToTags.jobId)
  obtain ⟨m, hm⟩ := exists_fresh (s.jobTags.rows.map JobTag.id ++
    s.jobToTags.rows.map JobToTags.tagId)
  rw [List.mem_append, not_or] at hn hm
  have hjobFree : s.jobMetadata.get? n = none := Table.get?_eq_none_iff.2 fun r hr hid =>
    hn.1 (List.mem_map.2 ⟨r, hr, hid⟩)
  have htagFree : s.jobTags.get? m = none := Table.get?_eq_none_iff.2 fun r hr hid =>
    hm.1 (List.mem_map.2 ⟨r, hr, hid⟩)
  have hlinkFree : s.jobToTags.get? (n, m) = none := Table.get?_eq_none_iff.2 fun l hl hkey =>
    hn.2 (List.mem_map.2 ⟨l, hl, congrArg Prod.fst hkey⟩)
  obtain ⟨jobs, hjobs⟩ := @Table.insert_of_free _ _ _ _ s.jobMetadata
    { id := n, userName := username ++ "x", jobName := name } hjobFree
  obtain ⟨tags, htags⟩ := @Table.insert_of_free _ _ _ _ s.jobTags
    { id := m, name := name, createdBy := username ++ "x" } htagFree
  obtain ⟨links, hlinks⟩ := @Table.insert_of_free _ _ _ _ s.jobToTags
    { jobId := n, tagId := m } hlinkFree
  have hown : (jobs.rows.filter fun j => decide (j.userName = username)) =
      s.ownJobs username := by
    rw [Table.filter_insert hjobs, if_neg (by simp), List.append_nil]
    rfl
  have holdJob : ∀ l ∈ s.jobToTags.rows, jobs.get? l.jobId = s.jobMetadata.get? l.jobId := by
    intro l hl
    rw [Table.get?_insert hjobs, if_neg]
    intro hid
    exact hn.2 (List.mem_map.2 ⟨l, hl, hid⟩)
  have holdTag : ∀ l ∈ s.jobToTags.rows, tags.get? l.tagId = s.jobTags.get? l.tagId := by
    intro l hl
    rw [Table.get?_insert htags, if_neg]
    intro hid
    exact hm.2 (List.mem_map.2 ⟨l, hl, hid⟩)
  refine ⟨{ s with jobMetadata := jobs, jobTags := tags, jobToTags := links }, _, _,
    ⟨hown, ?_, ?_, ?_⟩, (Table.insert_eq_some_iff.1 hjobs).2, rfl,
    (Table.insert_eq_some_iff.1 htags).2, rfl, ?_⟩
  · show links.rows.filter _ = _
    rw [Table.filter_insert hlinks, if_neg, List.append_nil]
    · refine List.filter_congr fun l _ => ?_
      exact @ownsJob_congr username s
        { s with jobMetadata := jobs, jobTags := tags, jobToTags := links } hown l.jobId
    · simp only [ownsJob, Table.get?_insert hjobs, if_true]
      simp
  · intro l hl
    exact holdTag l (List.mem_of_mem_filter hl)
  · show tags.rows.filter _ = _
    rw [Table.filter_insert htags, if_neg (by simp), List.append_nil]
    rfl
  · show (links.rows.filter _).filterMap _ = _
    rw [Table.filter_insert hlinks, if_pos, List.filterMap_append]
    · congr 1
      · rw [getJobTags]
        have hsel : ∀ l ∈ s.jobToTags.rows,
            (match jobs.get? l.jobId with
              | some j => decide (("" : String) = "") || decide (j.userName = "")
              | none => false) =
            match s.jobMetadata.get? l.jobId with
              | some j => decide (("" : String) = "") || decide (j.userName = "")
              | none => false := by
          intro l hl
          rw [holdJob l hl]
        refine (congrArg _ (List.filter_congr hsel)).trans (List.filterMap_congr fun l hl => ?_)
        exact holdTag l (List.mem_of_mem_filter hl)
      · simp only [List.filterMap_cons, List.filterMap_nil, Table.get?_insert htags, if_true]
    · simp only [Table.get?_insert hjobs, if_true]
      rfl

/-! ## What `LIKE` finds -/

/-- A search term of letters and digits. -/
def PlainTerm (term : String) : Prop := ∀ c ∈ term.toList, c.isAlphanum = true

theorem containsChar_of_plain {term : String} (h : PlainTerm term) :
    Go.containsChar term sqlQuote = false := by
  rw [Go.containsChar_eq_false_iff]
  intro hmem
  have halnum := h _ hmem
  revert halnum
  decide

/-- The characters that mean something else in a pattern. -/
def likeSpecial : List Char := [likeEscape, '%', '_']

theorem likeTokens_cons {c : Char} (h : c ∉ likeSpecial) (cs : List Char) :
    likeTokens (c :: cs) = .char c :: likeTokens cs := by
  obtain ⟨hescape, hpercent, hunderscore⟩ : c ≠ likeEscape ∧ c ≠ '%' ∧ c ≠ '_' := by
    simpa [likeSpecial] using h
  cases cs with
  | nil => simp only [likeTokens, hpercent, hunderscore, if_false]
  | cons d cs => rw [likeTokens, if_neg hescape, if_neg hpercent, if_neg hunderscore]

theorem likeTokens_percent (cs : List Char) :
    likeTokens ('%' :: cs) = .anyText :: likeTokens cs := by
  cases cs with
  | nil => rfl
  | cons d cs => rw [likeTokens, if_neg (by decide), if_pos rfl]

theorem likeTokens_literal {cs : List Char} (h : ∀ c ∈ cs, c ∉ likeSpecial) :
    likeTokens (cs ++ ['%']) = cs.map LikeToken.char ++ [.anyText] := by
  induction cs with
  | nil => rfl
  | cons c cs ih =>
    rw [List.cons_append, likeTokens_cons (h c List.mem_cons_self),
      ih fun c' hc' => h c' (List.mem_cons_of_mem _ hc')]
    rfl

theorem likeMatch_literal_iff (cs text : List Char) :
    likeMatch (cs.map LikeToken.char ++ [.anyText]) text = true ↔ cs <+: text := by
  induction cs generalizing text with
  | nil =>
    refine iff_of_true ?_ List.nil_prefix
    simp only [List.map_nil, List.nil_append, likeMatch, List.any_eq_true]
    exact ⟨[], by simp, rfl⟩
  | cons c cs ih =>
    cases text with
    | nil => simp [likeMatch]
    | cons d text =>
      simp only [List.map_cons, List.cons_append, likeMatch, Bool.and_eq_true, decide_eq_true_eq,
        ih, List.cons_prefix_cons]

/-- **A term without special characters is found where it is contained.** -/
theorem like_iff_contains {term : String} (h : ∀ c ∈ term.toList, c ∉ likeSpecial)
    (column : String) :
    like term column = true ↔ term.toList <:+: column.toList := by
  rw [like, List.cons_append, likeTokens_percent, likeTokens_literal h, likeMatch,
    List.any_eq_true, List.infix_iff_prefix_suffix]
  simp only [List.mem_tails, likeMatch_literal_iff]
  exact exists_congr fun text => and_comm

/-- A plain term is found in itself. -/
theorem like_self {term : String} (h : PlainTerm term) : like term term = true := by
  refine (like_iff_contains (fun c hc hspecial => ?_) term).2 (List.infix_refl _)
  have halnum := h c hc
  simp only [likeSpecial, List.mem_cons, List.not_mem_nil, or_false] at hspecial
  rcases hspecial with rfl | rfl | rfl
  · revert halnum
    decide
  · revert halnum
    decide
  · revert halnum
    decide

end Store

end JobMon
