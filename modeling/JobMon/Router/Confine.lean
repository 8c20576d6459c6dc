import JobMon.Router.Write

/-!
# What a request may write

Sessions, roles and tag assignments belong to somebody: a session and roles to a
user, a tag assignment to the owner of the job.

* `Confined` — a request has changed nothing beyond what the user and the URL
  stand for.
* `Authorised` — what has to be checked before a request is served: that the user
  or the job a body or a parameter names is the one the request may be about, or
  that the write does nothing.
* `confined_iff` — the handlers check none of this, so a request is confined
  exactly when it is authorised.
-/

namespace JobMon

open Keyed

/-! ## The writes -/

namespace Store

/-- `AddTag` assigns no tag: the ID of the tag or of the assignment is taken. -/
def TagRefused (s : Store) (id : ℤ) (tag : JobTag) : Prop :=
  s.jobTags.get? (s.newTagId tag) ≠ none ∨ s.jobToTags.get? (id, s.newTagId tag) ≠ none

theorem insertTag_eq_some {s : Store} {tag : JobTag}
    (h : s.jobTags.get? (s.newTagId tag) = none) :
    ∃ s', s.insertTag tag = (some { tag with id := s.newTagId tag }, s') := by
  rcases insertTag_cases s tag with ⟨n, -, htaken⟩ | ⟨n, t, heq, -⟩
  · exact absurd h htaken
  · exact ⟨_, heq⟩

theorem insertTag_eq_none {s : Store} {tag : JobTag}
    (h : s.jobTags.get? (s.newTagId tag) ≠ none) : (s.insertTag tag).1 = none := by
  rcases insertTag_cases s tag with ⟨n, heq, -⟩ | ⟨n, t, -, hins⟩
  · rw [heq]
  · exact absurd (Table.insert_eq_some_iff.1 hins).1 h

/-- A refused tag leaves the assignments alone. -/
theorem jobToTags_addTag_of_refused {s : Store} {id : ℤ} {tag : JobTag} (h : s.TagRefused id tag) :
    (s.addTag id tag).2.2.jobToTags = s.jobToTags := by
  rcases addTag_cases s id tag with hcase | ⟨tag', t, hins, hlink, -⟩
  · rw [hcase, insertTag_jobToTags]
  · rcases h with htaken | hassigned
    · have hnone := insertTag_eq_none htaken
      rw [hins] at hnone
      cases hnone
    · by_cases hfree : s.jobTags.get? (s.newTagId tag) = none
      · obtain ⟨s', hs'⟩ := insertTag_eq_some hfree
        have htag' : tag'.id = s.newTagId tag := by
          rw [hs'] at hins
          cases hins
          rfl
        have hkey := (Table.insert_eq_some_iff.1 hlink).1
        rw [insertTag_jobToTags] at hkey
        rw [show (JobToTags.mk id tag'.id).key = (id, s.newTagId tag) by rw [← htag']; rfl] at hkey
        exact absurd hkey hassigned
      · have hnone := insertTag_eq_none hfree
        rw [hins] at hnone
        cases hnone

/-- A tag that is not refused is assigned to the job. -/
theorem get?_jobToTags_addTag {s : Store} {id : ℤ} {tag : JobTag} (h : ¬ s.TagRefused id tag)
    (k : ℤ × ℤ) :
    (s.addTag id tag).2.2.jobToTags.get? k =
      if k = (id, s.newTagId tag) then some { jobId := id, tagId := s.newTagId tag }
      else s.jobToTags.get? k := by
  simp only [TagRefused, not_or, not_not] at h
  obtain ⟨s', hs'⟩ := insertTag_eq_some h.1
  have htables : s'.jobToTags = s.jobToTags := by
    have := insertTag_jobToTags s tag
    rwa [hs'] at this
  cases hlink : s'.jobToTags.insert { jobId := id, tagId := s.newTagId tag } with
  | none =>
    rw [Table.insert_eq_none_iff, htables] at hlink
    exact absurd h.2 hlink
  | some t =>
    unfold addTag
    simp only [hs', hlink]
    rw [Table.get?_insert hlink, htables]
    rfl

end Store

/-! ## What a request is allowed to change -/

/-- The users whose session a request may change. -/
def Request.maySession (user : UserInfo) : Request → String → Prop
  | .logout _, u => u = user.username
  | .generateAPIKey, u => u = apiUser.username
  | _, _ => False

/-- The users whose roles a request may change: the one the URL names. -/
def Request.mayRoles : Request → String → Prop
  | .setUserConfig target _, u => u = target
  | _, _ => False

/-- The job is the user's, or the user is an administrator. -/
def mayTagJob (b : Backend) (user : UserInfo) (id : ℤ) : Prop :=
  user.isAdmin = true ∨ ∃ j, b.store.getJob id = some j ∧ j.userName = user.username

/-- The jobs whose tags a request may change. -/
def Request.mayTags (b : Backend) (user : UserInfo) : Request → ℤ → Prop
  | .addTag job _, id => Go.atoi job = .ok id ∧ mayTagJob b user id
  | .removeTag job _, id => Go.atoi job = .ok id ∧ mayTagJob b user id
  | _, _ => False

/-- **Write confinement** of a request that leaves the backend `b'`. -/
structure Confined (b : Backend) (user : UserInfo) (req : Request) (b' : Backend) : Prop where
  sessions : ∀ u, ¬ req.maySession user u →
    b'.store.userSessions.get? u = b.store.userSessions.get? u
  /-- Logging out creates no session. -/
  loggedOut : ∀ body, req = .logout body → ∀ u session,
    b'.store.userSessions.get? u = some session → b.store.userSessions.get? u = some session
  roles : ∀ u, ¬ req.mayRoles u → b'.store.userRoles.get? u = b.store.userRoles.get? u
  tags : ∀ id tagId, ¬ req.mayTags b user id →
    b'.store.jobToTags.get? (id, tagId) = b.store.jobToTags.get? (id, tagId)

/-- The request is about what it may change, or changes nothing. -/
def Authorised (b : Backend) (user : UserInfo) : Request → Prop
  | .logout (.decoded dat) =>
    dat.username = "" ∨ dat.username = user.username ∨
      b.store.getUserSessionToken dat.username = none
  | .setUserConfig target (.decoded body) =>
    target = "" ∨ body.username = target ∨ b.store.getUserRoles body.username = some body
  | .addTag job (.decoded tag) =>
    ∀ id, Go.atoi job = .ok id → b.store.getJob id ≠ none →
      mayTagJob b user id ∨ b.store.TagRefused id tag
  | .removeTag job (.decoded tag) =>
    ∀ id, Go.atoi job = .ok id → b.store.getJob id ≠ none →
      mayTagJob b user id ∨ b.store.jobToTags.get? (id, tag.id) = none
  | _ => True

/-- The backend after a request, and after the goroutine it leaves, if any. -/
def afterwards (out : Surroundings) (calls : StoreCalls) (b : Backend) (user : UserInfo)
    (req : Request) : Backend :=
  match serve out b user req with
  | (_, b', none) => b'
  | (_, b', some task) =>
    match runStop out.env calls b' task with
    | none => b'
    | some (_, b'') => b''

/-! ## Handler by handler -/

section Handlers

variable {b b' : Backend} {user : UserInfo} {req : Request}

/-- The three tables are as they were. -/
structure Backend.SameRights (b b' : Backend) : Prop where
  sessions : b'.store.userSessions = b.store.userSessions
  roles : b'.store.userRoles = b.store.userRoles
  tags : b'.store.jobToTags = b.store.jobToTags

theorem confined_of_same (h : b.SameRights b') : Confined b user req b' where
  sessions u _ := by rw [h.sessions]
  loggedOut _ _ u session hs := by rwa [h.sessions] at hs
  roles u _ := by rw [h.roles]
  tags id tagId _ := by rw [h.tags]

theorem confined_refl : Confined b user req b := confined_of_same ⟨rfl, rfl, rfl⟩

theorem same_jobStart (body : Body JobMetadata) : b.SameRights (jobStart b body).2 := by
  cases body with
  | unreadable => exact ⟨rfl, rfl, rfl⟩
  | malformed text => exact ⟨rfl, rfl, rfl⟩
  | decoded j =>
    simp only [jobStart]
    cases hput : b.store.putJob j with
    | none => exact ⟨rfl, rfl, rfl⟩
    | some s' =>
      obtain ⟨t, -, rfl⟩ := Option.map_eq_some_iff.1 hput
      exact ⟨rfl, rfl, rfl⟩

theorem same_runStop {env : Environment} {calls : StoreCalls} {task : StopTask}
    {outcome : StopOutcome} (h : runStop env calls b task = some (outcome, b')) :
    b.SameRights b' := by
  have htables : ∀ s', s' = (b.store.stopJob (InfluxDB.toDB env b.db) calls task.id task.stop).2 →
      b.SameRights { b with store := s' } := by
    rintro s' rfl
    rcases Store.stopJob_cases (InfluxDB.toDB env b.db) calls b.store task.id task.stop with
      hsame | ⟨j, data, -, -, hwrite⟩
    · rw [hsame]
      exact ⟨rfl, rfl, rfl⟩
    · rw [hwrite]
      exact ⟨rfl, rfl, rfl⟩
  unfold runStop at h
  split at h
  · rename_i store heq
    cases h
    exact htables store (by rw [heq])
  · rename_i store heq
    cases h
    exact htables store (by rw [heq])
  · cases h

theorem same_getJob (env : Environment) (req : GetJobRequest) :
    b.SameRights (getJob env b user req).2 := by
  unfold getJob
  split
  · exact ⟨rfl, rfl, rfl⟩
  · exact ⟨rfl, rfl, rfl⟩

theorem same_updateConfig (newUUID : ℕ → String) (body : Body Configuration) :
    b.SameRights (updateConfig newUUID b body).2 := by
  cases body <;> exact ⟨rfl, rfl, rfl⟩

theorem same_refreshMetadata (env : Environment) (strId : String) :
    b.SameRights (refreshMetadata env b strId).2 := by
  unfold refreshMetadata
  split
  · exact ⟨rfl, rfl, rfl⟩
  · split
    · exact ⟨rfl, rfl, rfl⟩
    · split <;> exact ⟨rfl, rfl, rfl⟩

/-- What `AddTag` and `RemoveTag` leave is the store they computed. -/
theorem store_retag (store : Store) (id : ℤ) (response : Response) :
    (retag b store id response).2.store = store := by
  unfold retag
  split <;> rfl

theorem confined_logout_iff (body : Body AuthPayload) :
    Confined b user (.logout body) (logout b body).2 ↔ Authorised b user (.logout body) := by
  cases body with
  | unreadable => exact iff_of_true confined_refl trivial
  | malformed text => exact iff_of_true confined_refl trivial
  | decoded dat =>
    show Confined b user _ (logout b (.decoded dat)).2 ↔ dat.username = "" ∨ _
    by_cases hempty : dat.username = ""
    · rw [logout, if_pos hempty]
      exact iff_of_true confined_refl (Or.inl hempty)
    rw [logout, if_neg hempty]
    have herase : ∀ u, (b.store.removeUserSession dat.username).userSessions.get? u =
        if u = dat.username then none else b.store.userSessions.get? u :=
      Table.get?_erase b.store.userSessions dat.username
    constructor
    · intro h
      by_cases hown : dat.username = user.username
      · exact Or.inr (Or.inl hown)
      · have hkept := h.sessions dat.username hown
        rw [show _ = _ from herase dat.username, if_pos rfl] at hkept
        right
        right
        rw [Store.getUserSessionToken, ← hkept]
        rfl
    · intro h
      refine ⟨?_, ?_, fun u _ => rfl, fun id tagId _ => rfl⟩
      · intro u hu
        rw [show _ = _ from herase u]
        by_cases hnamed : u = dat.username
        · rw [if_pos hnamed]
          rcases h with h | h | h
          · exact absurd h hempty
          · exact absurd (hnamed.trans h) hu
          · rw [hnamed, ← Option.map_eq_none_iff.1 h]
        · rw [if_neg hnamed]
      · rintro body' - u session hs
        rw [show _ = _ from herase u] at hs
        by_cases hnamed : u = dat.username
        · rw [if_pos hnamed] at hs
          cases hs
        · rwa [if_neg hnamed] at hs

theorem confined_generateAPIKey (sign : UserInfo → Option String) :
    Confined b user .generateAPIKey (generateAPIKey sign b).2 := by
  unfold generateAPIKey
  split
  · exact confined_refl
  · refine ⟨?_, ?_, fun u _ => rfl, fun id tagId _ => rfl⟩
    · intro u hu
      have hne : u ≠ apiUser.username := hu
      show (b.store.userSessions.upsert _).get? u = _
      rw [Table.get?_upsert, if_neg hne]
    · rintro body h
      cases h

theorem confined_setUserConfig_iff (target : String) (body : Body UserRoles) :
    Confined b user (.setUserConfig target body) (setUserConfig b target body).2 ↔
      Authorised b user (.setUserConfig target body) := by
  unfold setUserConfig
  by_cases hempty : target = ""
  · rw [if_pos hempty]
    refine iff_of_true confined_refl ?_
    cases body with
    | unreadable => trivial
    | malformed text => trivial
    | decoded dat => exact Or.inl hempty
  rw [if_neg hempty]
  cases body with
  | unreadable => exact iff_of_true confined_refl trivial
  | malformed text => exact iff_of_true confined_refl trivial
  | decoded dat =>
    have hset : ∀ u, (b.store.setUserRoles dat.username dat.roles).userRoles.get? u =
        if u = dat.username then some dat else b.store.userRoles.get? u :=
      Table.get?_upsert b.store.userRoles dat
    constructor
    · intro h
      by_cases hnamed : dat.username = target
      · exact Or.inr (Or.inl hnamed)
      · have hkept := h.roles dat.username hnamed
        rw [show _ = _ from hset dat.username, if_pos rfl] at hkept
        exact Or.inr (Or.inr hkept.symm)
    · intro h
      refine ⟨fun u _ => rfl, ?_, ?_, fun id tagId _ => rfl⟩
      · rintro body' h'
        cases h'
      · intro u hu
        rw [show _ = _ from hset u]
        by_cases hsame : u = dat.username
        · rw [if_pos hsame]
          rcases h with h | h | h
          · exact absurd h hempty
          · exact absurd (hsame.trans h) hu
          · rw [hsame]
            exact h.symm
        · rw [if_neg hsame]

/-- `AddTag` and `RemoveTag` go through exactly when there is such a job. -/
theorem parseTag_eq_ok_iff {jobStr : String} {body : Body JobTag} {tag : JobTag}
    {j : JobMetadata} :
    parseTag b jobStr body = .ok (j, tag) ↔
      body = .decoded tag ∧ ∃ id, Go.atoi jobStr = .ok id ∧ b.store.getJob id = some j := by
  unfold parseTag
  cases hid : Go.atoi jobStr with
  | error e => simp
  | ok id =>
    cases body with
    | unreadable => simp
    | malformed text => simp
    | decoded tag' =>
      simp only [Except.ok.injEq, exists_eq_left', Body.decoded.injEq]
      cases hj : b.store.getJob id with
      | none => simp
      | some j' =>
        simp only [Except.ok.injEq, Prod.mk.injEq, Option.some.injEq]
        exact and_comm

/-- What is said of the job the URL names, when it names one. -/
theorem forall_named_iff {jobStr : String} {id : ℤ} {j : JobMetadata} {P : ℤ → Prop}
    (hid : Go.atoi jobStr = .ok id) (hj : b.store.getJob id = some j) :
    (∀ id', Go.atoi jobStr = .ok id' → b.store.getJob id' ≠ none → P id') ↔ P id := by
  constructor
  · intro h
    exact h id hid (by rw [hj]; simp)
  · intro h id' hid' _
    cases hid.symm.trans hid'
    exact h

/-- Nothing is said of the job when the request is refused. -/
theorem forall_named_of_refused {jobStr : String} {tag : JobTag} {response : Response}
    {P : ℤ → Prop} (h : parseTag b jobStr (.decoded tag) = .error response) (id : ℤ)
    (hid : Go.atoi jobStr = .ok id) (hj : b.store.getJob id ≠ none) : P id := by
  obtain ⟨j, hj⟩ := Option.ne_none_iff_exists'.1 hj
  rw [parseTag_eq_ok_iff.2 ⟨rfl, id, hid, hj⟩] at h
  cases h

/-- A request about the tags of job `id` that changes one assignment of this job
at most is confined exactly when the user may tag the job or nothing changes. -/
theorem confined_tags_iff {id tagId : ℤ} {s' : Store} (hreq : ∀ id', req.mayTags b user id' ↔
      id = id' ∧ mayTagJob b user id') (hlogout : ∀ body, req ≠ .logout body)
    (hsessions : s'.userSessions = b.store.userSessions)
    (hroles : s'.userRoles = b.store.userRoles)
    (hother : ∀ k, k ≠ (id, tagId) → s'.jobToTags.get? k = b.store.jobToTags.get? k) :
    Confined b user req { b with store := s' } ↔
      mayTagJob b user id ∨
        s'.jobToTags.get? (id, tagId) = b.store.jobToTags.get? (id, tagId) := by
  constructor
  · intro h
    by_cases hmay : mayTagJob b user id
    · exact Or.inl hmay
    · exact Or.inr (h.tags id tagId fun htags => hmay ((hreq id).1 htags).2)
  · intro h
    refine ⟨fun u _ => by rw [hsessions], fun body hbody => absurd hbody (hlogout body),
      fun u _ => by rw [hroles], ?_⟩
    intro id' tagId' hnot
    by_cases hkey : ((id', tagId') : ℤ × ℤ) = (id, tagId)
    · cases hkey
      rcases h with h | h
      · exact absurd ((hreq id).2 ⟨rfl, h⟩) hnot
      · exact h
    · exact hother _ hkey

/-- Only the store counts. -/
theorem confined_congr {b₁ b₂ : Backend} (h : b₁.store = b₂.store) :
    Confined b user req b₁ ↔ Confined b user req b₂ := by
  constructor
  · intro hc
    exact ⟨h ▸ hc.sessions, h ▸ hc.loggedOut, h ▸ hc.roles, h ▸ hc.tags⟩
  · intro hc
    exact ⟨h.symm ▸ hc.sessions, h.symm ▸ hc.loggedOut, h.symm ▸ hc.roles, h.symm ▸ hc.tags⟩

/-- A request without a tag or a job names nothing that has to be authorised. -/
theorem authorised_of_refused {jobStr : String} {body : Body JobTag} {response : Response}
    (h : parseTag b jobStr body = .error response) :
    Authorised b user (.addTag jobStr body) ∧ Authorised b user (.removeTag jobStr body) := by
  cases body with
  | unreadable => exact ⟨trivial, trivial⟩
  | malformed text => exact ⟨trivial, trivial⟩
  | decoded tag => exact ⟨forall_named_of_refused h, forall_named_of_refused h⟩

theorem confined_addTag_iff (jobStr : String) (body : Body JobTag) :
    Confined b user (.addTag jobStr body) (addTag b user jobStr body).2 ↔
      Authorised b user (.addTag jobStr body) := by
  cases hparse : parseTag b jobStr body with
  | error response =>
    rw [addTag, hparse]
    exact iff_of_true confined_refl (authorised_of_refused hparse).1
  | ok parsed =>
    obtain ⟨j, tag⟩ := parsed
    obtain ⟨rfl, id, hid, hj⟩ := parseTag_eq_ok_iff.1 hparse
    have hreq : ∀ id', (Request.addTag jobStr (.decoded tag)).mayTags b user id' ↔
        id = id' ∧ mayTagJob b user id' := by
      intro id'
      show Go.atoi jobStr = .ok id' ∧ _ ↔ _
      rw [hid, Except.ok.injEq]
    have hstore : (addTag b user jobStr (.decoded tag)).2.store =
        (b.store.addTag id (userTag user tag)).2.2 := by
      simp only [addTag, hparse, Store.id_of_getJob hj, store_retag]
    have hauthorised : Authorised b user (.addTag jobStr (.decoded tag)) ↔
        mayTagJob b user id ∨ b.store.TagRefused id (userTag user tag) :=
      forall_named_iff hid hj
    have htables := Store.addTag_userTables b.store id (userTag user tag)
    rw [@confined_congr b user _ _ { b with store := _ } hstore, hauthorised]
    by_cases htaken : b.store.TagRefused id (userTag user tag)
    · have hsame := Store.jobToTags_addTag_of_refused htaken
      exact iff_of_true (confined_of_same ⟨htables.1, htables.2, hsame⟩) (Or.inr htaken)
    · have hget := Store.get?_jobToTags_addTag htaken
      rw [confined_tags_iff hreq (fun _ h => by cases h) htables.1 htables.2
        (fun k hk => (hget k).trans (if_neg hk))]
      refine or_congr Iff.rfl (iff_of_false ?_ htaken)
      have hfree : b.store.jobToTags.get? (id, b.store.newTagId (userTag user tag)) = none := by
        by_contra hassigned
        exact htaken (Or.inr hassigned)
      rw [hget, if_pos rfl, hfree]
      intro hsome
      cases hsome

theorem confined_removeTag_iff (jobStr : String) (body : Body JobTag) :
    Confined b user (.removeTag jobStr body) (removeTag b jobStr body).2 ↔
      Authorised b user (.removeTag jobStr body) := by
  cases hparse : parseTag b jobStr body with
  | error response =>
    rw [removeTag, hparse]
    exact iff_of_true confined_refl (authorised_of_refused hparse).2
  | ok parsed =>
    obtain ⟨j, tag⟩ := parsed
    obtain ⟨rfl, id, hid, hj⟩ := parseTag_eq_ok_iff.1 hparse
    have hreq : ∀ id', (Request.removeTag jobStr (.decoded tag)).mayTags b user id' ↔
        id = id' ∧ mayTagJob b user id' := by
      intro id'
      show Go.atoi jobStr = .ok id' ∧ _ ↔ _
      rw [hid, Except.ok.injEq]
    have hstore : (removeTag b jobStr (.decoded tag)).2.store = b.store.removeTag id tag := by
      simp only [removeTag, hparse, Store.id_of_getJob hj, store_retag]
    have hauthorised : Authorised b user (.removeTag jobStr (.decoded tag)) ↔
        mayTagJob b user id ∨ b.store.jobToTags.get? (id, tag.id) = none :=
      forall_named_iff hid hj
    have hget : ∀ k, (b.store.removeTag id tag).jobToTags.get? k =
        if k = (id, tag.id) then none else b.store.jobToTags.get? k :=
      Table.get?_erase b.store.jobToTags (id, tag.id)
    rw [@confined_congr b user _ _ { b with store := b.store.removeTag id tag } hstore,
      hauthorised, @confined_tags_iff b user _ id tag.id (b.store.removeTag id tag) hreq
        (fun _ h => by cases h) rfl rfl (fun k hk => (hget k).trans (if_neg hk))]
    refine or_congr Iff.rfl ?_
    rw [hget, if_pos rfl]
    exact eq_comm

end Handlers

/-! ## Any request -/

/-- **Write confinement.**  Whatever the state of the backend, a request of an
authenticated user that is admitted to its route is confined, its goroutine
included, exactly when it is authorised. -/
theorem confined_iff (out : Surroundings) (calls : StoreCalls) (b : Backend) (user : UserInfo)
    (req : Request) :
    Confined b user req (afterwards out calls b user req) ↔
      (user.permitted req.authLevel = true → Authorised b user req) := by
  cases hpermitted : user.permitted req.authLevel with
  | false =>
    rw [afterwards, serve, hpermitted]
    exact iff_of_true confined_refl (fun h => by cases h)
  | true =>
    rw [afterwards, serve, if_pos hpermitted]
    rw [show (true = true → Authorised b user req) ↔ Authorised b user req from
      ⟨fun h => h rfl, fun h _ => h⟩]
    cases req with
    | jobStart body => exact iff_of_true (confined_of_same (same_jobStart body)) trivial
    | jobStop id body =>
      refine iff_of_true ?_ trivial
      simp only [handle]
      cases (jobStop id body).2 with
      | none => exact confined_refl
      | some task =>
        simp only
        cases hrun : runStop out.env calls b task with
        | none => exact confined_refl
        | some after => exact confined_of_same (same_runStop hrun)
    | getJobs params => exact iff_of_true confined_refl trivial
    | getJob req => exact iff_of_true (confined_of_same (same_getJob out.env req)) trivial
    | getMetric req => exact iff_of_true confined_refl trivial
    | liveMonitoring id => exact iff_of_true confined_refl trivial
    | searchUser term => exact iff_of_true confined_refl trivial
    | searchJob term => exact iff_of_true confined_refl trivial
    | searchTag term => exact iff_of_true confined_refl trivial
    | logout body => exact confined_logout_iff body
    | generateAPIKey => exact iff_of_true (confined_generateAPIKey out.sign) trivial
    | addTag job body => exact confined_addTag_iff job body
    | removeTag job body => exact confined_removeTag_iff job body
    | getConfig => exact iff_of_true confined_refl trivial
    | updateConfig body =>
      exact iff_of_true (confined_of_same (same_updateConfig out.newUUID body)) trivial
    | liveLog => exact iff_of_true confined_refl trivial
    | refreshMetadata id =>
      exact iff_of_true (confined_of_same (same_refreshMetadata out.env id)) trivial
    | getUserConfig u => exact iff_of_true confined_refl trivial
    | setUserConfig u body => exact confined_setUserConfig_iff u body

/-! ## Two users -/

/-- Alice and Bob, each with a session and a role, and a job of Bob's. -/
def aliceAndBob : Backend :=
  { store :=
      { jobMetadata := ⟨[{ id := 1, userName := "bob" }], by decide⟩
        userSessions := ⟨[{ username := "alice" }, { username := "bob" }], by decide⟩
        userRoles := ⟨[{ username := "alice", roles := [USER] }, { username := "bob" }],
          by decide⟩ } }

def alice : UserInfo := { username := "alice", roles := [USER] }

/-- An administrator. -/
def carol : UserInfo := { username := "carol", roles := [ADMIN] }

/-- Alice logs Bob out and tags his job; an administrator who sets the roles of
Alice sets those of Bob. -/
theorem writes_not_confined :
    ¬ Confined aliceAndBob alice (.logout (.decoded { username := "bob" }))
      (logout aliceAndBob (.decoded { username := "bob" })).2 ∧
    ¬ Confined aliceAndBob alice (.addTag "1" (.decoded { name := "t" }))
      (addTag aliceAndBob alice "1" (.decoded { name := "t" })).2 ∧
    ¬ Confined aliceAndBob carol
      (.setUserConfig "alice" (.decoded { username := "bob", roles := [ADMIN] }))
      (setUserConfig aliceAndBob "alice" (.decoded { username := "bob", roles := [ADMIN] })).2 := by
  refine ⟨?_, ?_, ?_⟩
  · intro h
    have hkept := h.sessions "bob" fun hb : "bob" = "alice" => absurd hb (by decide)
    revert hkept
    decide
  · intro h
    have hkept := h.tags 1 1 ?_
    · revert hkept
      decide
    · rintro ⟨-, hadmin | ⟨j, hj, hown⟩⟩
      · revert hadmin
        decide
      · cases Option.some.inj (hj.symm.trans (show aliceAndBob.store.getJob 1 =
          some { id := 1, userName := "bob" } from rfl))
        revert hown
        decide
  · intro h
    have hkept := h.roles "bob" fun hb : "bob" = "alice" => absurd hb (by decide)
    revert hkept
    decide

end JobMon
