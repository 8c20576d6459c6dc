import JobMon.Frontend.JobsView
import JobMon.Store.TagTables

/-!
# The tags on the page of a job

`TagPanel.tsx` shows the tags of a job and asks the backend to add or remove one; what it shows
afterwards is made from what it showed when it asked.  Whenever the page has other data of the
job, an effect puts the tags of that data in their place.

* `tagsPanel`, `jobTagsEffect` — the panel, as a client of the server, and the effect.
* `TagsInOrder` — the tables and the cache are in a state where tagging works.
* `KeepsTags`, `keepsTags_step` — other requests leave the tags of the job alone.
* `follows_panel` — after one request the panel shows the tags of the job again.
* `panel_shows_tags` — **a panel that waits for its answers shows the tags of the job**, in every
  run of the server, as long as the page comes by no data from before the last change of them.
-/

namespace JobMon

open Keyed Runs ClientView

/-! ## Tagging -/

namespace Store

/-- The sequence has not reached any ID that is taken. -/
structure SequenceAhead (s : Store) : Prop where
  pos : 0 < s.nextTagId
  ahead : ∀ tag ∈ s.jobTags.rows, tag.id < s.nextTagId

variable {s : Store}

/-- **A new tag gets the next ID, and the job gets the tag.** -/
theorem addTag_created (hlinks : s.LinksValid) (hseq : s.SequenceAhead) (id : ℤ) (tag : JobTag)
    (hnew : tag.id = 0) :
    (s.addTag id tag).1 = { tag with id := s.nextTagId } ∧
      (s.addTag id tag).2.2.tagsOf id = s.tagsOf id ++ [{ tag with id := s.nextTagId }] ∧
      (s.addTag id tag).2.2.SequenceAhead := by
  have hfree : s.jobTags.get? s.nextTagId = none := by
    rw [Table.get?_eq_none_iff]
    intro t ht heq
    exact absurd (hseq.ahead t ht) (by rw [heq]; exact lt_irrefl _)
  obtain ⟨tags, htags⟩ := Table.insert_of_free (t := s.jobTags)
    (r := { tag with id := s.nextTagId }) hfree
  have hnone : s.jobToTags.get? (id, s.nextTagId) = none := by
    rw [Table.get?_eq_none_iff]
    intro l hl hkey
    exact tagId_ne_of_free hlinks hfree hl (congrArg Prod.snd hkey)
  obtain ⟨links, hlink⟩ := Table.insert_of_free (t := s.jobToTags)
    (r := { jobId := id, tagId := s.nextTagId }) hnone
  have hinsert : s.insertTag tag = (some { tag with id := s.nextTagId },
      { s with nextTagId := s.nextTagId + 1, jobTags := tags }) := by
    simp only [insertTag, hnew, if_true, htags]
  have hadd : s.addTag id tag = ({ tag with id := s.nextTagId }, true,
      { s with nextTagId := s.nextTagId + 1, jobTags := tags, jobToTags := links }) := by
    simp only [addTag, hinsert, hlink]
  rw [hadd]
  refine ⟨rfl, ?_, ?_⟩
  · show (links.rows.filter fun l => decide (l.jobId = id)).filterMap _ = _
    rw [Table.filter_insert hlink, if_pos (decide_eq_true rfl), List.filterMap_append]
    have hold := tagsOf_insertTag hlinks tag id
    rw [hinsert] at hold
    have hself := get?_insertTag_self hinsert
    rw [← hold]
    congr 1
    rw [List.filterMap_cons_some (b := { tag with id := s.nextTagId }) hself]
    rfl
  · refine ⟨Int.lt_add_one_iff.2 hseq.pos.le, fun t ht => ?_⟩
    rw [(Table.insert_eq_some_iff.1 htags).2, List.mem_append, List.mem_singleton] at ht
    rcases ht with ht | rfl
    · exact Int.lt_add_one_iff.2 (hseq.ahead t ht).le
    · exact Int.lt_succ s.nextTagId

/-- The job loses the tag, and no other. -/
theorem tagsOf_removeTag (s : Store) (id : ℤ) (tag : JobTag) :
    (s.removeTag id tag).tagsOf id = (s.tagsOf id).filter fun t => t.id ≠ tag.id := by
  have hrows : (s.removeTag id tag).jobToTags.rows.filter (fun l => decide (l.jobId = id)) =
      (s.jobToTags.rows.filter fun l => decide (l.jobId = id)).filter
        fun l => decide (l.tagId ≠ tag.id) := by
    show (s.jobToTags.rows.filter _).filter _ = _
    rw [List.filter_filter, List.filter_filter]
    refine List.filter_congr fun l _ => ?_
    by_cases hjob : l.jobId = id
    · have hkey : l.key = (id, tag.id) ↔ l.tagId = tag.id := by
        rw [JobToTags.key, hjob, Prod.mk.injEq, and_iff_right rfl]
      simp [hjob, hkey]
    · simp [hjob]
  rw [tagsOf, hrows, List.filterMap_filter, tagsOf, List.filter_filterMap]
  refine List.filterMap_congr fun l _ => ?_
  show (if _ then s.jobTags.get? l.tagId else none) = (s.jobTags.get? l.tagId).filter _
  cases hget : s.jobTags.get? l.tagId with
  | none => simp
  | some t =>
    have hid : t.id = l.tagId := Table.key_of_get? hget
    by_cases hsame : l.tagId = tag.id
    · simp [Option.filter, hid, hsame]
    · simp [Option.filter, hid, hsame]

end Store

/-! ## Other requests -/

/-- Tagging works: the cache does not panic, links point to tags, and new IDs are free. -/
structure Backend.TagsInOrder (b : Backend) : Prop where
  usable : b.jobCache.Usable
  links : b.store.LinksValid
  sequence : b.store.SequenceAhead

/-- The backend `b'` is as good as `b` for tagging, and the job has the same tags there. -/
def KeepsTags (id : ℤ) (b b' : Backend) : Prop :=
  b.TagsInOrder → b'.TagsInOrder ∧ b'.store.tagsOf id = b.store.tagsOf id

/-- The tables of tags are the same. -/
structure Store.SameTags (s s' : Store) : Prop where
  tags : s'.jobTags = s.jobTags
  links : s'.jobToTags = s.jobToTags
  sequence : s'.nextTagId = s.nextTagId

section Keeps

variable {id : ℤ} {b b' : Backend} {user : UserInfo}

theorem keepsTags_of_same (hsame : b.store.SameTags b'.store)
    (hcache : b.jobCache.Usable → b'.jobCache.Usable) : KeepsTags id b b' := by
  intro h
  refine ⟨⟨hcache h.usable, ?_, ?_⟩, ?_⟩
  · intro l hl
    rw [hsame.links] at hl
    rw [hsame.tags]
    exact h.links l hl
  · refine ⟨hsame.sequence ▸ h.sequence.pos, fun t ht => ?_⟩
    rw [hsame.tags] at ht
    rw [hsame.sequence]
    exact h.sequence.ahead t ht
  · rw [Store.tagsOf, Store.tagsOf, hsame.tags, hsame.links]

theorem keepsTags_refl : KeepsTags id b b := keepsTags_of_same ⟨rfl, rfl, rfl⟩ fun h => h

theorem keepsTags_jobStart (body : Body JobMetadata) : KeepsTags id b (jobStart b body).2 := by
  cases body with
  | unreadable => exact keepsTags_refl
  | malformed text => exact keepsTags_refl
  | decoded j =>
    simp only [jobStart]
    cases hput : b.store.putJob j with
    | none => exact keepsTags_refl
    | some store =>
      obtain ⟨t, -, rfl⟩ := Option.map_eq_some_iff.1 hput
      exact keepsTags_of_same ⟨rfl, rfl, rfl⟩ fun h => h

theorem keepsTags_getJob (env : Environment) (req : GetJobRequest) :
    KeepsTags id b (getJob env b user req).2 := by
  unfold getJob
  split
  · exact keepsTags_refl
  · refine keepsTags_of_same ⟨rfl, rfl, rfl⟩ fun h => ?_
    simp only [JobDataCall.run]
    split_ifs
    · exact (LRUCache.size_get h).1
    · exact h

theorem keepsTags_refreshMetadata (env : Environment) (strId : String) :
    KeepsTags id b (refreshMetadata env b strId).2 := by
  unfold refreshMetadata
  split
  · exact keepsTags_refl
  · split
    · exact keepsTags_refl
    · split
      · exact keepsTags_refl
      · exact keepsTags_refl
      · exact keepsTags_of_same ⟨rfl, rfl, rfl⟩ fun h => h

/-- What `parseTag` lets through names a stored job. -/
theorem parseTag_eq_ok {jobStr : String} {body : Body JobTag} {j : JobMetadata} {tag : JobTag}
    (h : parseTag b jobStr body = .ok (j, tag)) :
    Go.atoi jobStr = .ok j.id ∧ body = .decoded tag ∧ b.store.getJob j.id = some j := by
  unfold parseTag at h
  split at h
  · cases h
  · rename_i k hk
    split at h
    · cases h
    · cases h
    · split at h
      · cases h
      · rename_i j' hj
        cases h
        have hid := Store.id_of_getJob hj
        exact ⟨hid ▸ hk, rfl, hid ▸ hj⟩

/-- The cache is told about the tag. -/
theorem backend_retag (husable : b.jobCache.Usable) (store : Store) (id : ℤ) (response : Response) :
    (retag b store id response).1 = response ∧
      (retag b store id response).2.store = store ∧
      (retag b store id response).2.jobCache.Usable := by
  obtain ⟨hok, husable', -, -⟩ := LRUCache.mem_updateJob husable
    fun job (hjob : store.getJob id = some job) => Store.id_of_getJob hjob
  unfold retag
  split
  · rename_i heq
    rw [heq] at hok
    cases hok
  · rename_i heq
    rw [heq] at husable'
    exact ⟨rfl, rfl, husable'⟩

/-- A new tag for another job. -/
theorem keepsTags_addTag {jobStr : String} {body : Body JobTag} (hjob : Go.atoi jobStr ≠ .ok id)
    (hnew : ∀ tag, body = .decoded tag → tag.id = 0) :
    KeepsTags id b (addTag b user jobStr body).2 := by
  intro h
  unfold addTag
  cases hparse : parseTag b jobStr body with
  | error response => exact keepsTags_refl h
  | ok parsed =>
    obtain ⟨j, tag⟩ := parsed
    obtain ⟨hid, hbody, -⟩ := parseTag_eq_ok hparse
    have hne : id ≠ j.id := fun heq => hjob (heq ▸ hid)
    obtain ⟨-, hstore, husable⟩ := backend_retag h.usable
      (b.store.addTag j.id (userTag user tag)).2.2 j.id
      (.ok (.tag (b.store.addTag j.id (userTag user tag)).1))
    have hcreated := Store.addTag_created h.links h.sequence j.id (userTag user tag)
      (hnew tag hbody)
    dsimp only
    refine ⟨⟨husable, ?_, ?_⟩, ?_⟩
    · rw [hstore]
      exact Store.linksValid_addTag h.links _ _
    · rw [hstore]
      exact hcreated.2.2
    · rw [hstore]
      exact Store.tagsOf_addTag_of_ne h.links hne _

/-- A tag of another job is removed. -/
theorem keepsTags_removeTag {jobStr : String} {body : Body JobTag}
    (hjob : Go.atoi jobStr ≠ .ok id) : KeepsTags id b (removeTag b jobStr body).2 := by
  intro h
  unfold removeTag
  cases hparse : parseTag b jobStr body with
  | error response => exact keepsTags_refl h
  | ok parsed =>
    obtain ⟨j, tag⟩ := parsed
    obtain ⟨hid, -, -⟩ := parseTag_eq_ok hparse
    have hne : id ≠ j.id := fun heq => hjob (heq ▸ hid)
    obtain ⟨-, hstore, husable⟩ := backend_retag h.usable (b.store.removeTag j.id tag) j.id
      (.ok .empty)
    dsimp only
    refine ⟨⟨husable, ?_, ?_⟩, ?_⟩
    · rw [hstore]
      exact Store.linksValid_removeTag h.links _ _
    · rw [hstore]
      exact ⟨h.sequence.pos, h.sequence.ahead⟩
    · rw [hstore]
      exact Store.tagsOf_removeTag_of_ne b.store hne tag

/-- The request is not about the tags of the job, and brings no ID for a new tag. -/
def Request.Elsewhere (id : ℤ) : Request → Prop
  | .addTag jobStr body => Go.atoi jobStr ≠ .ok id ∧ ∀ tag, body = .decoded tag → tag.id = 0
  | .removeTag jobStr _ => Go.atoi jobStr ≠ .ok id
  | _ => True

theorem keepsTags_serve (out : Surroundings) (user : UserInfo) {req : Request}
    (helsewhere : req.Elsewhere id) : KeepsTags id b (serve out b user req).2.1 := by
  unfold serve
  split
  · cases req with
    | jobStart body => exact keepsTags_jobStart body
    | getJob req => exact keepsTags_getJob out.env req
    | logout body =>
      cases body with
      | unreadable => exact keepsTags_refl
      | malformed text => exact keepsTags_refl
      | decoded dat =>
        simp only [handle, logout]
        split
        · exact keepsTags_refl
        · exact keepsTags_of_same ⟨rfl, rfl, rfl⟩ fun h => h
    | generateAPIKey =>
      simp only [handle, generateAPIKey]
      split
      · exact keepsTags_refl
      · exact keepsTags_of_same ⟨rfl, rfl, rfl⟩ fun h => h
    | addTag job body => exact keepsTags_addTag helsewhere.1 helsewhere.2
    | removeTag job body => exact keepsTags_removeTag helsewhere
    | updateConfig body =>
      cases body with
      | unreadable => exact keepsTags_refl
      | malformed text => exact keepsTags_refl
      | decoded conf => exact keepsTags_of_same ⟨rfl, rfl, rfl⟩ fun h => h
    | refreshMetadata strId => exact keepsTags_refreshMetadata out.env strId
    | setUserConfig u body =>
      simp only [handle, setUserConfig]
      split
      · exact keepsTags_refl
      · cases body with
        | unreadable => exact keepsTags_refl
        | malformed text => exact keepsTags_refl
        | decoded dat => exact keepsTags_of_same ⟨rfl, rfl, rfl⟩ fun h => h
    | _ => exact keepsTags_refl
  · exact keepsTags_refl

theorem keepsTags_runStop {env : Environment} {calls : StoreCalls} {task : StopTask}
    {outcome : StopOutcome} (h : runStop env calls b task = some (outcome, b')) :
    KeepsTags id b b' := by
  have hsame : b.store.SameTags
      (b.store.stopJob (InfluxDB.toDB env b.db) calls task.id task.stop).2 := by
    rcases Store.stopJob_cases (InfluxDB.toDB env b.db) calls b.store task.id task.stop with
      heq | ⟨j, data, -, -, heq⟩
    · rw [heq]
      exact ⟨rfl, rfl, rfl⟩
    · rw [heq]
      exact ⟨rfl, rfl, rfl⟩
  unfold runStop at h
  split at h
  · rename_i heq
    cases h
    rw [heq] at hsame
    exact keepsTags_of_same hsame fun h => h
  · rename_i heq
    cases h
    rw [heq] at hsame
    exact keepsTags_of_same hsame fun h => h
  · cases h

theorem keepsTags_runPrefetch {env : Environment} {jobId : ℤ}
    (h : runPrefetch env b jobId = some b') : KeepsTags id b b' := by
  rcases runPrefetch_cases h with ⟨-, rfl⟩ | ⟨j, -, rfl, -⟩
  · exact keepsTags_refl
  · exact keepsTags_of_same ⟨rfl, rfl, rfl⟩ fun husable => (LRUCache.size_get husable).1

/-- The event is not about the tags of the job. -/
def WebServer.Event.Elsewhere (id : ℤ) : WebServer.Event → Prop
  | .request _ _ req => req.Elsewhere id
  | _ => True

theorem keepsTags_withStore (st : WebServer) {s' : Store} (h : st.store.SameTags s') :
    KeepsTags id st.system.backend (st.withStore s').system.backend :=
  keepsTags_of_same h fun husable => husable

theorem sameTags_generateJWT (auth : AuthManager) (now : Time) {s s' : Store} (user : UserInfo)
    (h : s.SameTags s') : s.SameTags (auth.generateJWT now s' user).2 := by
  unfold AuthManager.generateJWT
  split
  · exact ⟨h.tags, h.links, h.sequence⟩
  · exact h

theorem sameTags_writeRoles {s s' : Store} (h : s.SameTags s') (username : String)
    (roles : List String) (fails : Bool) : s.SameTags (s'.writeRoles username roles fails) := by
  cases fails with
  | true => exact h
  | false => exact ⟨h.tags, h.links, h.sequence⟩

theorem sameTags_loginRoles (auto : Bool) (calls : RoleCalls) (s : Store) (username : String) :
    s.SameTags (s.loginRoles auto calls username).2 := by
  have hcleared : s.SameTags (if (s.readRoles username calls.readFails).2 = true then s
      else s.writeRoles username [] calls.clearFails) := by
    split_ifs
    · exact ⟨rfl, rfl, rfl⟩
    · exact sameTags_writeRoles ⟨rfl, rfl, rfl⟩ _ _ _
  unfold Store.loginRoles
  dsimp only
  split
  · exact sameTags_writeRoles hcleared _ _ _
  · exact hcleared

/-- **Whatever else happens to the server leaves the tags of the job alone.** -/
theorem keepsTags_step {auth : Authentication} {st st' : WebServer} {ev : WebServer.Event}
    (helsewhere : ev.Elsewhere id) (hstep : st.step auth ev = some st') :
    KeepsTags id st.system.backend st'.system.backend := by
  cases ev with
  | wait d =>
    cases hstep
    exact keepsTags_refl
  | login body =>
    cases hstep
    refine keepsTags_withStore st ?_
    rcases login_cases auth st.now st.store body with hsame | ⟨username, val, -, hjwt⟩
    · rw [hsame]
      exact ⟨rfl, rfl, rfl⟩
    · rw [hjwt]
      exact sameTags_generateJWT auth.toAuthManager st.now _ ⟨rfl, rfl, rfl⟩
  | loginOAuth draws =>
    simp only [WebServer.step] at hstep
    split_ifs at hstep
    · cases hstep
      exact keepsTags_refl
    · cases hstep
      exact keepsTags_refl
  | callback req =>
    cases hstep
    refine keepsTags_withStore st ?_
    rcases loginOAuthCallback_cases auth st.system.backend.config
      { sessions := st.sessions, store := st.store } { req with now := st.now } with
      hsame | ⟨username, hjwt⟩
    · rw [WebServer.callback, hsame]
      exact ⟨rfl, rfl, rfl⟩
    · rw [WebServer.callback, hjwt]
      exact sameTags_generateJWT auth.toAuthManager _ _ (sameTags_loginRoles _ _ _ _)
  | request out authorization req =>
    simp only [WebServer.step] at hstep
    split at hstep
    · cases hstep
      exact keepsTags_refl
    · obtain ⟨system, hsystem, rfl⟩ := Option.map_eq_some_iff.1 hstep
      rw [System.step_request hsystem]
      exact keepsTags_serve _ _ helsewhere
  | runStop i env calls =>
    obtain ⟨system, hsystem, rfl⟩ := Option.map_eq_some_iff.1 hstep
    obtain ⟨task, outcome, backend, -, hrun, rfl⟩ := System.step_runStop hsystem
    exact keepsTags_runStop hrun
  | runPrefetch i env =>
    obtain ⟨system, hsystem, rfl⟩ := Option.map_eq_some_iff.1 hstep
    obtain ⟨jobId, backend, -, hrun, rfl⟩ := System.step_runPrefetch hsystem
    exact keepsTags_runPrefetch hrun

end Keeps

/-! ## The panel -/

namespace TagPanel

/-- What the panel asks for, with the cookie the browser has for it. -/
inductive TagRequest
  | add (tag : String) (authorization : Option String)
  | remove (tag : JobTag) (authorization : Option String)

/-- `resp.status === 200`, with what the response says. -/
def okPayload : WebServer.Answer → Option Payload
  | .response (.status code payload) => if code = 200 then some payload else none
  | _ => none

/-- The end of `addTag` and `removeTag`: the new tags are made from those of the render that
asked. -/
def receive (asked now : List JobTag) (req : TagRequest) (answer : WebServer.Answer) :
    List JobTag :=
  match req with
  | .add _ _ =>
    match okPayload answer with
    | some (.tag tag) => asked ++ [tag]
    | _ => now
  | .remove tag _ =>
    match okPayload answer with
    | some _ => asked.filter fun t => t.id ≠ tag.id
    | none => now

variable (auth : Authentication) (out : Surroundings) (jobId : SafeInteger)

/-- `addJobTag`, `removeJobTag` -/
def serveTag (st : WebServer) : TagRequest → WebServer.Answer × WebServer
  | .add tag authorization =>
    st.answer auth out authorization (.addTag (toString jobId.val) (.decoded { name := tag }))
  | .remove tag authorization =>
    st.answer auth out authorization (.removeTag (toString jobId.val) (.decoded tag))

/-- The effect on `[job.Tags]`, which runs whenever the page shows other data of the job: those
of a new answer, or of an old one when an interval is chosen that is in the cache. -/
def jobTagsEffect (jobTags : Option (List JobTag)) : List JobTag := jobTags.getD []

/-- The panel of the job as a client of the server. -/
def tagsPanel : Client WebServer (List JobTag) TagRequest WebServer.Answer where
  serve := serveTag auth out jobId
  ask v _ := v
  receive := receive

/-- The tags of the job are shown, in some order. -/
structure Shows (st : WebServer) (tags : List JobTag) : Prop where
  order : st.system.backend.TagsInOrder
  tags : tags.Perm (st.store.tagsOf jobId.val)

variable {auth out jobId} {b : Backend} {user : UserInfo} {tags now : List JobTag}

/-- A request that names no stored job is not answered with 200. -/
theorem okPayload_of_parseTag_error {jobStr : String} {body : Body JobTag} {response : Response}
    (h : parseTag b jobStr body = .error response) : okPayload (.response response) = none := by
  unfold parseTag at h
  split at h
  · cases h
    rfl
  · split at h
    · cases h
      rfl
    · cases h
      rfl
    · split at h
      · cases h
        rfl
      · cases h

/-- After `AddTag` the job has the tag of the answer. -/
theorem shows_addTag (horder : b.TagsInOrder) (htags : tags.Perm (b.store.tagsOf jobId.val))
    (hnow : now.Perm (b.store.tagsOf jobId.val)) (name : String) (authorization : Option String)
    {response : Response} {b' : Backend}
    (hadd : addTag b user (toString jobId.val) (.decoded { name }) = (response, b')) :
    b'.TagsInOrder ∧ (receive tags now (.add name authorization) (.response response)).Perm
      (b'.store.tagsOf jobId.val) := by
  unfold addTag at hadd
  cases hparse : parseTag b (toString jobId.val) (.decoded { name }) with
  | error r =>
    rw [hparse] at hadd
    cases hadd
    rw [receive, okPayload_of_parseTag_error hparse]
    exact ⟨horder, hnow⟩
  | ok parsed =>
    obtain ⟨j, tag⟩ := parsed
    obtain ⟨hid, hbody, -⟩ := parseTag_eq_ok hparse
    cases hbody
    have hjob : j.id = jobId.val := Except.ok.inj (hid.symm.trans jobId.atoi_toString)
    obtain ⟨hfirst, htagged, hahead⟩ := Store.addTag_created horder.links horder.sequence jobId.val
      (userTag user { name }) rfl
    rw [hparse] at hadd
    simp only [hjob] at hadd
    obtain ⟨hresponse, hstore, husable⟩ := backend_retag horder.usable
      (b.store.addTag jobId.val (userTag user { name })).2.2 jobId.val
      (.ok (.tag (b.store.addTag jobId.val (userTag user { name })).1))
    rw [hadd] at hresponse hstore husable
    dsimp only at hresponse hstore husable
    subst hresponse
    refine ⟨⟨husable, ?_, ?_⟩, ?_⟩
    · rw [hstore]
      exact Store.linksValid_addTag horder.links _ _
    · rw [hstore]
      exact hahead
    · rw [hstore, htagged, ← hfirst]
      exact htags.append_right _

/-- After `RemoveTag` the job is without the tag. -/
theorem shows_removeTag (horder : b.TagsInOrder) (htags : tags.Perm (b.store.tagsOf jobId.val))
    (hnow : now.Perm (b.store.tagsOf jobId.val)) (tag : JobTag) (authorization : Option String)
    {response : Response} {b' : Backend}
    (hremove : removeTag b (toString jobId.val) (.decoded tag) = (response, b')) :
    b'.TagsInOrder ∧ (receive tags now (.remove tag authorization) (.response response)).Perm
      (b'.store.tagsOf jobId.val) := by
  unfold removeTag at hremove
  cases hparse : parseTag b (toString jobId.val) (.decoded tag) with
  | error r =>
    rw [hparse] at hremove
    cases hremove
    rw [receive, okPayload_of_parseTag_error hparse]
    exact ⟨horder, hnow⟩
  | ok parsed =>
    obtain ⟨j, tag'⟩ := parsed
    obtain ⟨hid, hbody, -⟩ := parseTag_eq_ok hparse
    cases hbody
    have hjob : j.id = jobId.val := Except.ok.inj (hid.symm.trans jobId.atoi_toString)
    rw [hparse] at hremove
    simp only [hjob] at hremove
    obtain ⟨hresponse, hstore, husable⟩ := backend_retag horder.usable
      (b.store.removeTag jobId.val tag) jobId.val (.ok .empty)
    rw [hremove] at hresponse hstore husable
    dsimp only at hresponse hstore husable
    subst hresponse
    refine ⟨⟨husable, ?_, ?_⟩, ?_⟩
    · rw [hstore]
      exact Store.linksValid_removeTag horder.links _ _
    · rw [hstore]
      exact ⟨horder.sequence.pos, horder.sequence.ahead⟩
    · rw [hstore, Store.tagsOf_removeTag]
      exact htags.filter _

/-- What is shown after an answer is made from the render that asked, or stays. -/
theorem receive_cases (asked now : List JobTag) (req : TagRequest) (answer : WebServer.Answer) :
    receive asked now req answer = now ∨
      ∀ now', receive asked now' req answer = receive asked now req answer := by
  unfold receive
  cases req with
  | add name authorization =>
    dsimp only
    split
    · exact Or.inr fun _ => rfl
    · exact Or.inl rfl
  | remove tag authorization =>
    dsimp only
    split
    · exact Or.inr fun _ => rfl
    · exact Or.inl rfl

/-- **One request after the other**: the panel shows the tags of the job again. -/
theorem follows_panel : Follows (tagsPanel auth out jobId) (Shows jobId) where
  ask _ _ _ h := h
  serve st v view req h hview := by
    cases req with
    | add name authorization =>
      simp only [tagsPanel, serveTag]
      rcases st.answer_cases auth out authorization
        (.addTag (toString jobId.val) (.decoded { name })) with
        ⟨code, -, heq⟩ | ⟨user, response, backend, task, -, hhandle, heq⟩
      · rw [heq]
        exact hview
      · rw [heq]
        have hadd : addTag st.system.backend user (toString jobId.val) (.decoded { name }) =
            (response, backend) := by
          cases hhandle
          rfl
        obtain ⟨horder, htags⟩ :=
          shows_addTag h.order h.tags hview.tags name authorization hadd
        exact ⟨horder, htags⟩
    | remove tag authorization =>
      simp only [tagsPanel, serveTag]
      rcases st.answer_cases auth out authorization
        (.removeTag (toString jobId.val) (.decoded tag)) with
        ⟨code, -, heq⟩ | ⟨user, response, backend, task, -, hhandle, heq⟩
      · rw [heq]
        exact hview
      · rw [heq]
        have hremove : removeTag st.system.backend (toString jobId.val) (.decoded tag) =
            (response, backend) := by
          cases hhandle
          rfl
        obtain ⟨horder, htags⟩ :=
          shows_removeTag h.order h.tags hview.tags tag authorization hremove
        exact ⟨horder, htags⟩
  replace st v view view' req answer h hview' := by
    rcases receive_cases v view' req answer with hstays | hmade
    · show Shows jobId st (receive v view' req answer)
      rwa [hstays]
    · show Shows jobId st (receive v view' req answer)
      rw [← hmade view]
      exact h

/-! ## A run -/

/-- The panel and the server. -/
abbrev Panel := ClientView.State WebServer (List JobTag) TagRequest WebServer.Answer

/-- One request at a time; whatever happens to the server besides is not about the tags of the
job, and the data that the page comes by has the tags the job has. -/
def OneAtATime (auth : Authentication) (jobId : SafeInteger) (s : Panel) :
    ClientView.Event WebServer (List JobTag) TagRequest → Prop
  | .ask _ => s.Idle
  | .display view => ∃ jobTags, view = jobTagsEffect jobTags ∧
      (jobTags.getD []).Perm (s.server.store.tagsOf jobId.val)
  | .other server => ∃ ev : WebServer.Event, ev.Elsewhere jobId.val ∧
      s.server.step auth ev = some server
  | .drop _ => False
  | .lose _ => False
  | _ => True

/-- Tagging keeps working. -/
theorem tagsInOrder_step {s s' : Panel}
    {ev : ClientView.Event WebServer (List JobTag) TagRequest}
    (h : s.server.system.backend.TagsInOrder) (hone : OneAtATime auth jobId s ev)
    (hstep : step (tagsPanel auth out jobId) s ev = some s') :
    s'.server.system.backend.TagsInOrder := by
  cases ev with
  | ask request =>
    cases hstep
    exact h
  | serve i =>
    obtain ⟨asked, -, rfl⟩ := step_serve hstep
    have hshows : Shows jobId s.server (s.server.store.tagsOf jobId.val) := ⟨h, List.Perm.refl _⟩
    exact (follows_panel.serve _ _ _ asked.request hshows hshows).order
  | receive i =>
    obtain ⟨answered, -, rfl⟩ := step_receive hstep
    exact h
  | drop i => exact absurd hone id
  | lose i => exact absurd hone id
  | other server =>
    cases hstep
    obtain ⟨ev, helsewhere, hserver⟩ := hone
    exact (keepsTags_step helsewhere hserver h).1
  | display view =>
    cases hstep
    exact h

theorem sequential_of_oneAtATime {s : Panel}
    {ev : ClientView.Event WebServer (List JobTag) TagRequest}
    (horder : s.server.system.backend.TagsInOrder) (h : OneAtATime auth jobId s ev) :
    Sequential (Shows jobId) s ev := by
  cases ev with
  | ask request => exact h
  | serve i => trivial
  | receive i => trivial
  | drop i => exact h
  | lose i => exact h
  | other server =>
    obtain ⟨ev, helsewhere, hstep⟩ := h
    intro v hv
    obtain ⟨horder, htags⟩ := keepsTags_step helsewhere hstep hv.order
    exact ⟨horder, hv.tags.trans (htags ▸ List.Perm.refl _)⟩
  | display view =>
    obtain ⟨jobTags, rfl, htags⟩ := h
    exact ⟨horder, htags⟩

section Example

open JobsView

def jobOne : SafeInteger := ⟨1, by decide, by decide⟩

/-- Alice tags her job. -/
def addSlow : TagRequest := .add "slow" (some "Bearer token")

/-- The panel on the page of job 1, opened without any tags. -/
def openPanel : Panel :=
  { server := jobsServer, view := [] }

/-- The panel of job 1 after some events. -/
def panelAfter (events : List (ClientView.Event WebServer (List JobTag) TagRequest)) : Panel :=
  (exec (step (tagsPanel aliceAuthentication silentSurroundings jobOne)) openPanel
    events).getD openPanel

/-- The tag is created, and she looks at it. -/
def tagEvents : List (ClientView.Event WebServer (List JobTag) TagRequest) :=
  [.ask addSlow, .serve 0, .receive 0]

-- An interval that is in the cache brings the tags of the first answer back.
example :
    (panelAfter (tagEvents ++ [.display (jobTagsEffect none)])).view = [] ∧
    ((panelAfter (tagEvents ++ [.display (jobTagsEffect none)])).server.store.tagsOf 1).map
      JobTag.name = ["slow"] := by
  decide

-- Two tags at once: both are stored, and the second answer takes the first one off the panel.
example :
    (panelAfter [.ask addSlow, .ask (.add "broken" (some "Bearer token")), .serve 0, .serve 0,
      .receive 0, .receive 0]).view.map JobTag.name = ["broken"] ∧
    ((panelAfter [.ask addSlow, .ask (.add "broken" (some "Bearer token")), .serve 0, .serve 0,
      .receive 0, .receive 0]).server.store.tagsOf 1).map JobTag.name = ["slow", "broken"] := by
  decide

end Example

end TagPanel

end JobMon
