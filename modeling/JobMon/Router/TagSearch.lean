import JobMon.Router.Read
import JobMon.Store.Search

/-!
# Searching for tags

`GetJobs` lists the tags of the user's jobs, found through the links of these jobs;
`SearchTag` looks at the tags the user has created.

* `Store.OnJobOf`, `Store.CreatedBy` — the two notions of a user's tags.
* `mem_getJobTags_iff` — what `GetJobs` lists.
* `SearchAgrees` — the search finds the listed tags whose name contains the term.
* `searchAgrees_iff` — when the two notions are the same for the tags the term is about.
-/

namespace JobMon

open Keyed

namespace Store

/-- The tag is linked to a job of the user; everyone has every job when no user is
named. -/
def OnJobOf (s : Store) (username : String) (tag : JobTag) : Prop :=
  ∃ l ∈ s.jobToTags.rows, l.tagId = tag.id ∧
    ∃ j, s.jobMetadata.get? l.jobId = some j ∧ (username = "" ∨ j.userName = username)

/-- The user has created the tag. -/
def CreatedBy (username : String) (tag : JobTag) : Prop :=
  username = "" ∨ tag.createdBy = username

/-- **What `GetJobTags` returns.** -/
theorem mem_getJobTags_iff {s : Store} {username : String} {tag : JobTag} :
    tag ∈ s.getJobTags username ↔ tag ∈ s.jobTags.rows ∧ s.OnJobOf username tag := by
  rw [getJobTags, List.mem_filterMap]
  constructor
  · rintro ⟨l, hl, htag⟩
    obtain ⟨hmem, hjob⟩ := List.mem_filter.1 hl
    obtain ⟨hrow, hid⟩ := Table.get?_eq_some_iff.1 htag
    refine ⟨hrow, l, hmem, hid.symm, ?_⟩
    cases hj : s.jobMetadata.get? l.jobId with
    | none => simp [hj] at hjob
    | some j => exact ⟨j, rfl, by simpa [hj] using hjob⟩
  · rintro ⟨hrow, l, hmem, hid, j, hj, huser⟩
    refine ⟨l, List.mem_filter.2 ⟨hmem, ?_⟩, ?_⟩
    · simpa [hj] using huser
    · rw [hid]
      exact Table.get?_of_mem hrow

end Store

/-! ## The two answers -/

/-- The search finds exactly the tags that `GetJobs` lists and whose name contains the
term. -/
def SearchAgrees (sql : Store.RawSQL) (b : Backend) (user : UserInfo) (params : QueryParams)
    (term : String) : Prop :=
  ∃ jobs radarChart partitions listed found,
    getJobs b user params = .ok (.jobList jobs radarChart partitions listed) ∧
      searchTag sql b user term = .ok (.tags found) ∧
        ∀ tag, tag ∈ found ↔ tag ∈ listed ∧ Store.Contains tag.name term

/-- Letters and digits mean nothing else in a search. -/
theorem literalTerm_of_alphanum {term : String} (h : ∀ c ∈ term.toList, c.isAlphanum = true) :
    Store.LiteralTerm term := by
  have hspecial : ((Store.sqlQuote :: Store.likeSpecial).all fun c => !c.isAlphanum) = true := by
    decide
  have hnot := List.all_eq_true.1 hspecial
  intro c hc
  constructor
  · rintro rfl
    simpa [h _ hc] using hnot _ List.mem_cons_self
  · intro hmem
    simpa [h _ hc] using hnot _ (List.mem_cons_of_mem _ hmem)

/-- **When the search agrees with the list**: among the tags whose name contains the term,
those the user has created are those that are linked to one of the user's jobs. -/
theorem searchAgrees_iff (sql : Store.RawSQL) (b : Backend) (user : UserInfo)
    (params : QueryParams) {term : String} (hterm : Store.LiteralTerm term) :
    SearchAgrees sql b user params term ↔
      ∀ tag ∈ b.store.jobTags.rows, Store.Contains tag.name term →
        (Store.CreatedBy (searchUsername user) tag ↔
          b.store.OnJobOf (searchUsername user) tag) := by
  obtain ⟨found, hfound, -, hmem⟩ := hterm.tags sql b.store (searchUsername user)
  have hsearch : searchTag sql b user term = .ok (.tags found) := by
    rw [searchTag, hfound]
  have hlisted : ∀ tag, tag ∈ b.store.getJobTags (searchUsername user) ↔
      tag ∈ b.store.jobTags.rows ∧ b.store.OnJobOf (searchUsername user) tag :=
    fun _ => Store.mem_getJobTags_iff
  constructor
  · rintro ⟨jobs, radarChart, partitions, listed, found', hgetJobs, hsearch', hagree⟩ tag htag hname
    rw [hsearch] at hsearch'
    cases hsearch'
    have hlist : listed = b.store.getJobTags (searchUsername user) := by
      cases hgetJobs
      rfl
    rw [hlist] at hagree
    constructor
    · intro hcreated
      exact ((hlisted tag).1 ((hagree tag).1 ((hmem tag).2 ⟨htag, hcreated, hname⟩)).1).2
    · intro hjob
      exact ((hmem tag).1 ((hagree tag).2 ⟨(hlisted tag).2 ⟨htag, hjob⟩, hname⟩)).2.1
  · intro h
    refine ⟨_, _, _, b.store.getJobTags (searchUsername user), found, rfl, hsearch, fun tag => ?_⟩
    rw [hmem, hlisted]
    constructor
    · rintro ⟨htag, hcreated, hname⟩
      exact ⟨⟨htag, (h tag htag hname).1 hcreated⟩, hname⟩
    · rintro ⟨⟨htag, hjob⟩, hname⟩
      exact ⟨htag, (h tag htag hname).2 hjob, hname⟩

/-! ## A tag on somebody else's job -/

/-- A job of `bob` with a tag; `creator` has added it. -/
def taggedJobBackend (creator : String) : Backend :=
  { store :=
      { jobMetadata := ⟨[{ id := 1, userName := "bob" }], List.nodup_singleton 1⟩
        jobTags := ⟨[{ id := 1, name := "slow", createdBy := creator }], List.nodup_singleton 1⟩
        jobToTags := ⟨[{ jobId := 1, tagId := 1 }], List.nodup_singleton (1, 1)⟩ } }

theorem searchAgrees_own_tag :
    SearchAgrees Store.refusing (taggedJobBackend "bob") { roles := [USER], username := "bob" }
      (fun _ => "") "slow" := by
  refine (searchAgrees_iff Store.refusing (taggedJobBackend "bob")
    { roles := [USER], username := "bob" } (fun _ => "")
    (literalTerm_of_alphanum (List.all_eq_true.1 (by decide)))).2 ?_
  intro tag htag _
  rw [List.mem_singleton.1 htag]
  exact ⟨fun _ => ⟨_, List.mem_cons_self, rfl, _, rfl, .inr rfl⟩, fun _ => .inr rfl⟩

/-- A tag that an administrator has added is listed for the owner of the job, and the
owner's search does not find it. -/
theorem search_not_agrees :
    ¬∀ (sql : Store.RawSQL) (b : Backend) (user : UserInfo) (params : QueryParams)
      (term : String), term ≠ "" → (∀ c ∈ term.toList, c.isAlphanum = true) →
      SearchAgrees sql b user params term := by
  intro h
  obtain ⟨jobs, radarChart, partitions, listed, found, hgetJobs, hsearch, hagree⟩ :=
    h Store.refusing (taggedJobBackend "admin") { roles := [USER], username := "bob" }
      (fun _ => "") "slow" (by decide) (List.all_eq_true.1 (by decide))
  have hfound : found = [] := by
    have hnone : searchTag Store.refusing (taggedJobBackend "admin")
        { roles := [USER], username := "bob" } "slow" = .ok (.tags []) := by decide +kernel
    rw [hnone] at hsearch
    cases hsearch
    rfl
  have hlisted : listed = [{ id := 1, name := "slow", createdBy := "admin" }] := by
    cases hgetJobs
    decide +kernel
  have hmem := (hagree { id := 1, name := "slow", createdBy := "admin" }).2
    ⟨by rw [hlisted]; exact List.mem_cons_self, List.infix_rfl⟩
  rw [hfound] at hmem
  cases hmem

end JobMon
