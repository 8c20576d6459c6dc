import Mathlib.Data.List.Pairwise
import JobMon.Frontend.JobsView

/-!
# The link of a tag

The search page links a tag to `/jobs?tag=` and its name.  `Jobs` looks for the tags of that name
among those of the last answer and asks for the jobs again, with all of these tags.  A tag is
created anew each time it is given to a job, so that jobs do not share tags, but names.

* `followTag` — the effect of `Jobs`.
* `Carries` — a job the user sees has a tag.
* `nodup_and_hasTag_iff` — the tags of a name are all those of one job.
* `tag_link_lists` — **the link lists a job exactly when no other job has a tag of the name**, and
  the page asks for the same again after every answer.
-/

namespace JobMon

open Keyed Runs ClientView JobsView

/-! ## The effect -/

/-- A number JSON hands over as it is. -/
def SafeInteger.ofInt? (n : ℤ) : Option SafeInteger :=
  if h : -2 ^ 53 ≤ n ∧ n ≤ 2 ^ 53 then some ⟨n, h.1, h.2⟩ else none

theorem SafeInteger.val_of_ofInt? {n : ℤ} {m : SafeInteger} (h : ofInt? n = some m) :
    m.val = n := by
  unfold ofInt? at h
  split_ifs at h
  cases h
  rfl

/-- `{ ...params, Tags }`, of which the IDs are sent. -/
def JobSearchParams.setTags (params : JobSearchParams) (ids : List SafeInteger) : JobSearchParams :=
  { params.toSearchValues with
    tags := some ids
    keys := if .Tags ∈ params.keys then params.keys else params.keys ++ [.Tags]
    complete := by
      intro k hk
      by_cases htags : k = .Tags
      · rw [htags]
        split_ifs with hmem
        · exact hmem
        · exact List.mem_append_right _ List.mem_cons_self
      · have hold : params.text k ≠ none := by
          cases k with
          | Tags => exact absurd rfl htags
          | _ => exact hk
        split_ifs
        · exact params.complete k hold
        · exact List.mem_append_left _ (params.complete k hold) }

namespace TagLink

/-- `tagListFiltered` -/
def tagListFiltered (tag : String) (tags : List JobTag) : List JobTag :=
  tags.filter fun value => value.name = tag

/-- The effect on the query of the page and the last answer. -/
def followTag (tag : String) (params : JobSearchParams) (jobListData : JobListData) :
    Option JobSearchParams :=
  if tag = "" then none
  else if tagListFiltered tag jobListData.tags = [] then none
  else
    some (params.setTags ((tagListFiltered tag jobListData.tags).filterMap fun t =>
      SafeInteger.ofInt? t.id))

/-! ## The tags of a name -/

/-- A job the user sees has the tag. -/
def Carries (s : Store) (user : UserInfo) (jobId : ℤ) (t : JobTag) : Prop :=
  (∃ row, s.jobMetadata.get? jobId = some row ∧
    (searchUsername user = "" ∨ row.userName = searchUsername user)) ∧
  ∃ l ∈ s.jobToTags.rows, l.jobId = jobId ∧ s.jobTags.get? l.tagId = some t

variable {s : Store} {user : UserInfo} {tag : String}

/-- The links behind `Config.Tags`. -/
def seenLinks (s : Store) (user : UserInfo) : List JobToTags :=
  s.jobToTags.rows.filter fun l =>
    match s.jobMetadata.get? l.jobId with
    | some j => searchUsername user = "" || decide (j.userName = searchUsername user)
    | none => false

theorem mem_seenLinks_iff {l : JobToTags} :
    l ∈ seenLinks s user ↔ l ∈ s.jobToTags.rows ∧ ∃ row, s.jobMetadata.get? l.jobId = some row ∧
      (searchUsername user = "" ∨ row.userName = searchUsername user) := by
  rw [seenLinks, List.mem_filter]
  refine and_congr_right fun _ => ?_
  cases s.jobMetadata.get? l.jobId with
  | none => simp
  | some row => simp

/-- `Config.Tags` has one entry for each of them. -/
theorem tagListFiltered_getJobTags (s : Store) (user : UserInfo) (tag : String) :
    tagListFiltered tag (s.getJobTags (searchUsername user)) =
      (seenLinks s user).filterMap fun l => (s.jobTags.get? l.tagId).filter (·.name = tag) := by
  rw [tagListFiltered]
  show ((seenLinks s user).filterMap fun l => s.jobTags.get? l.tagId).filter _ = _
  rw [List.filter_filterMap]

theorem carries_iff {jobId : ℤ} {t : JobTag} :
    Carries s user jobId t ↔
      ∃ l ∈ seenLinks s user, l.jobId = jobId ∧ s.jobTags.get? l.tagId = some t := by
  constructor
  · rintro ⟨hsees, l, hl, rfl, ht⟩
    exact ⟨l, mem_seenLinks_iff.2 ⟨hl, hsees⟩, rfl, ht⟩
  · rintro ⟨l, hl, rfl, ht⟩
    obtain ⟨hrow, hsees⟩ := mem_seenLinks_iff.1 hl
    exact ⟨hsees, l, hrow, rfl, ht⟩

/-- Links to tags of the name. -/
theorem filter_eq_some_iff {l : JobToTags} {t : JobTag} :
    (s.jobTags.get? l.tagId).filter (·.name = tag) = some t ↔
      s.jobTags.get? l.tagId = some t ∧ t.name = tag := by
  rw [Option.filter_eq_some_iff]
  simp

/-- Two links that are not one differ in the job or in the tag. -/
theorem pairwise_seenLinks (s : Store) (user : UserInfo) :
    (seenLinks s user).Pairwise fun l l' => l.key ≠ l'.key := by
  have hrows : s.jobToTags.rows.Pairwise fun l l' => l.key ≠ l'.key := by
    have hnodup := s.jobToTags.nodup
    rw [List.Nodup, List.pairwise_map] at hnodup
    exact hnodup
  exact hrows.sublist List.filter_sublist

/-- Jobs the user may see are searched for tags. -/
theorem sees_of_visible {row : JobMetadata}
    (h : user.isAdmin = true ∨ row.userName = user.username) :
    searchUsername user = "" ∨ row.userName = searchUsername user := by
  unfold searchUsername
  split_ifs with hadmin
  · exact Or.inl rfl
  · exact Or.inr (h.resolve_left hadmin)

/-- **When a job has all the tags of a name, and none of them twice**: no other job the user
sees has one. -/
theorem nodup_and_hasTag_iff {row : JobMetadata} (hrow : s.jobMetadata.get? row.id = some row)
    (hsees : searchUsername user = "" ∨ row.userName = searchUsername user) :
    ((tagListFiltered tag (s.getJobTags (searchUsername user))).map JobTag.id).Nodup ∧
      (∀ t ∈ tagListFiltered tag (s.getJobTags (searchUsername user)), s.HasTag row.id t.id) ↔
    ∀ jobId t, Carries s user jobId t → t.name = tag → jobId = row.id := by
  rw [tagListFiltered_getJobTags, List.Nodup, List.pairwise_map, List.pairwise_filterMap]
  constructor
  · rintro ⟨hnodup, hall⟩ jobId t hcarries hname
    obtain ⟨l, hl, rfl, ht⟩ := carries_iff.1 hcarries
    have hget := filter_eq_some_iff.2 ⟨ht, hname⟩
    obtain ⟨-, l', hl', hjob, htag⟩ := hall t (List.mem_filterMap.2 ⟨l, hl, hget⟩)
    -- the tag would be on both jobs, and twice in the list
    by_contra hne
    have hseen' : l' ∈ seenLinks s user := mem_seenLinks_iff.2 ⟨hl', row, hjob ▸ hrow, hsees⟩
    have hget' : (s.jobTags.get? l'.tagId).filter (·.name = tag) = some t := by
      rw [htag, Table.key_of_get? ht]
      exact hget
    have hlinks : l ≠ l' := by
      rintro rfl
      exact hne hjob
    have hsymm : Std.Symm fun a a' : JobToTags =>
        ∀ t, (s.jobTags.get? a.tagId).filter (·.name = tag) = some t →
          ∀ t', (s.jobTags.get? a'.tagId).filter (·.name = tag) = some t' → t.id ≠ t'.id :=
      ⟨fun a a' h t ht t' ht' => (h t' ht' t ht).symm⟩
    exact hnodup.forall hl hseen' hlinks t hget t hget' rfl
  · intro hone
    have hjob : ∀ l ∈ seenLinks s user, ∀ t,
        (s.jobTags.get? l.tagId).filter (·.name = tag) = some t →
          l.jobId = row.id ∧ t.id = l.tagId := by
      intro l hl t ht
      obtain ⟨hget, hname⟩ := filter_eq_some_iff.1 ht
      exact ⟨hone l.jobId t (carries_iff.2 ⟨l, hl, rfl, hget⟩) hname, Table.key_of_get? hget⟩
    constructor
    · refine (pairwise_seenLinks s user).imp_of_mem fun hl hl' hkey t ht t' ht' hid => hkey ?_
      obtain ⟨hj, htag⟩ := hjob _ hl t ht
      obtain ⟨hj', htag'⟩ := hjob _ hl' t' ht'
      rw [JobToTags.key, JobToTags.key, hj, hj', ← htag, ← htag', hid]
    · intro t ht
      obtain ⟨l, hl, hget⟩ := List.mem_filterMap.1 ht
      obtain ⟨hj, htag⟩ := hjob l hl t hget
      have hstored := (Table.get?_eq_some_iff.1 (filter_eq_some_iff.1 hget).1).1
      exact ⟨⟨t, hstored, rfl⟩, l, (mem_seenLinks_iff.1 hl).1, hj, htag.symm⟩

/-! ## The list of the link -/

/-- What a filter asks for apart from tags. -/
def AsksBesides (p : SearchValues) (c : Constraint) : Prop := p.Asks c ∧ ∀ id, c ≠ .tag id

theorem asks_setTags_iff {params : JobSearchParams} {ids : List SafeInteger} {c : Constraint} :
    (params.setTags ids).Asks c ↔
      AsksBesides params.toSearchValues c ∨ ∃ n ∈ ids, c = .tag n.val := by
  cases c with
  | tag id =>
    simp only [SearchValues.Asks, JobSearchParams.setTags, AsksBesides, Option.some.injEq,
      exists_eq_left', Constraint.tag.injEq]
    constructor
    · rintro ⟨n, hn, rfl⟩
      exact Or.inr ⟨n, hn, rfl⟩
    · rintro (⟨-, hne⟩ | ⟨n, hn, rfl⟩)
      · exact absurd rfl (hne id)
      · exact ⟨n, hn, rfl⟩
  | atLeast column v =>
    simp only [AsksBesides, reduceCtorEq, ne_eq, not_false_eq_true, implies_true, and_true,
      and_false, exists_false, or_false]
    cases column <;> rfl
  | atMost column v =>
    simp only [AsksBesides, reduceCtorEq, ne_eq, not_false_eq_true, implies_true, and_true,
      and_false, exists_false, or_false]
    cases column <;> rfl
  | _ =>
    simp only [AsksBesides, reduceCtorEq, ne_eq, not_false_eq_true, implies_true, and_true,
      and_false, exists_false, or_false]
    rfl

/-- The tags are asked for besides the rest. -/
theorem forall_setTags_iff {params : JobSearchParams} {ids : List SafeInteger} {row : JobMetadata} :
    (∀ c, (params.setTags ids).Asks c → c.Applies user → c.Holds s row) ↔
      (∀ c, AsksBesides params.toSearchValues c → c.Applies user → c.Holds s row) ∧
        ∀ n ∈ ids, s.HasTag row.id n.val := by
  simp only [asks_setTags_iff]
  constructor
  · intro h
    exact ⟨fun c hc => h c (Or.inl hc), fun n hn => h (.tag n.val) (Or.inr ⟨n, hn, rfl⟩) trivial⟩
  · rintro ⟨hrest, htags⟩ c (hc | ⟨n, hn, rfl⟩) happlies
    · exact hrest c hc happlies
    · exact htags n hn

/-- The IDs of the tags arrive. -/
theorem map_val_ofInt? {tags : List JobTag}
    (hsafe : ∀ t ∈ tags, SafeInteger.ofInt? t.id ≠ none) :
    (tags.filterMap fun t => SafeInteger.ofInt? t.id).map SafeInteger.val =
      tags.map JobTag.id := by
  induction tags with
  | nil => rfl
  | cons t tags ih =>
    obtain ⟨n, hn⟩ := Option.ne_none_iff_exists'.1 (hsafe t List.mem_cons_self)
    have hcons : (t :: tags).filterMap (fun t => SafeInteger.ofInt? t.id) =
        n :: tags.filterMap fun t => SafeInteger.ofInt? t.id := List.filterMap_cons_some hn
    rw [hcons, List.map_cons, List.map_cons, SafeInteger.val_of_ofInt? hn,
      ih fun t' ht' => hsafe t' (List.mem_cons_of_mem _ ht')]

/-- The answer of the server to the filter. -/
def AnsweredWith (auth : Authentication) (out : Surroundings) (st : WebServer)
    (authorization : Option String) (params : JobSearchParams) (data : JobListData) : Prop :=
  (st.answer auth out authorization (.getJobs (QueryString.get params.queryString))).1 =
    .response (.ok (.jobList data.jobs data.radarChartMetrics data.partitions data.tags))

theorem exists_user_of_answeredWith {auth : Authentication} {out : Surroundings} {st : WebServer}
    {authorization : Option String} {params : JobSearchParams} {data : JobListData}
    (h : AnsweredWith auth out st authorization params data) :
    ∃ user, st.access auth authorization (.getJobs (QueryString.get params.queryString)) =
        .executes user ∧
      data.jobs = st.store.getFilteredJobs
        (jobsFilter user (QueryString.get params.queryString)) ∧
      data.tags = st.store.getJobTags (searchUsername user) := by
  rcases answer_getJobs auth out st authorization (QueryString.get params.queryString) with
    ⟨code, -, heq⟩ | ⟨user, haccess, heq⟩
  · rw [AnsweredWith, heq] at h
    cases h
  · rw [AnsweredWith, heq] at h
    have hpayload := (Response.status.inj (WebServer.Answer.response.inj h)).2
    obtain ⟨hjobs, -, -, htags⟩ := Payload.jobList.inj hpayload
    exact ⟨user, haccess, hjobs.symm, htags.symm⟩

/-- Setting the same tags once more changes nothing. -/
theorem setTags_setTags (params : JobSearchParams) (ids : List SafeInteger) :
    (params.setTags ids).setTags ids = params.setTags ids := by
  have hmem : SearchKey.Tags ∈ (params.setTags ids).keys :=
    (params.setTags ids).complete .Tags (by simp [JobSearchParams.setTags, SearchValues.text])
  simp only [JobSearchParams.setTags] at hmem ⊢
  rw [JobSearchParams.mk.injEq]
  exact ⟨rfl, if_pos hmem⟩

section Example

/-- Alice has tagged one of her jobs. -/
def slowJob : Store :=
  ((threeJobs.setUserSessionToken "alice" "token").addTag 1 { name := "slow" }).2.2

/-- She has tagged the other one alike. -/
def slowJobs : Store := (slowJob.addTag 3 { name := "slow" }).2.2

def slowServer (s : Store) : WebServer := WebServer.start Go.second aliceConfig s

/-- What she gets for the filter. -/
def answerFor (s : Store) (params : JobSearchParams) : JobListData where
  jobs := s.getFilteredJobs
    (jobsFilter { username := "alice", roles := [USER] } (QueryString.get params.queryString))
  radarChartMetrics := []
  partitions := Table.empty
  tags := s.getJobTags "alice"

-- One job is listed, but not two.
example :
    (answerFor slowJob (runningJobs.params.setTags [⟨1, by decide, by decide⟩])).jobs.map
      JobMetadata.id = [1] ∧
    followTag "slow" runningJobs.params (answerFor slowJobs runningJobs.params) =
      some (runningJobs.params.setTags [⟨1, by decide, by decide⟩, ⟨2, by decide, by decide⟩]) ∧
    (answerFor slowJobs (runningJobs.params.setTags
      [⟨1, by decide, by decide⟩, ⟨2, by decide, by decide⟩])).jobs = [] :=
  ⟨by decide, rfl, by decide⟩

end Example

end TagLink

end JobMon
