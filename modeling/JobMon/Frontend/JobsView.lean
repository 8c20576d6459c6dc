import JobMon.Auth.Origin
import JobMon.Frontend.Browser
import JobMon.Router.FilterParams
import JobMon.Router.FollowUp

/-!
# The job list on the screen

`useGetJobs` of `utils.ts` asks the backend for the jobs of a filter whenever the filter changes,
and shows the last answer that has arrived.

* `Constraint.Applies`, `Lists` — what of a filter reaches the statement, and the list of jobs
  that it makes `GetJobs` select.
* `View`, `jobsClient` — the hook, as a client of the server, and the outcomes of the selects.
* `mem_getFilteredJobs_iff` — the handler answers with such a list.
* `jobs_on_screen` — **in every run the list on the screen is the one of a filter that was asked
  for**, and where answers keep their order it is that of the filter on the screen, unless the
  last answer was none.
-/

namespace JobMon

open Keyed Runs ClientView

/-! ## What a filter asks for -/

/-- The constraints of a filter that reach the statement: those on the user ID and the group ID
are lost on the way, and an ordinary user gets only jobs of her own, whatever user name the
filter has. -/
def Constraint.Applies (user : UserInfo) : Constraint → Prop
  | .userId _ => False
  | .groupId _ => False
  | .userName _ => user.isAdmin = true
  | _ => True

/-- The list holds the jobs the user may see that meet the constraints which apply, each of them
once. -/
structure Lists (s : Store) (user : UserInfo) (p : SearchValues) (jobs : List JobMetadata) :
    Prop where
  nodup : (jobs.map JobMetadata.id).Nodup
  mem_iff : ∀ j, j ∈ jobs ↔ ∃ row ∈ s.jobMetadata.rows,
    (user.isAdmin = true ∨ row.userName = user.username) ∧
      (∀ c, p.Asks c → c.Applies user → c.Holds s row) ∧ s.withTags row = j

/-- No tag is asked for twice. -/
def SearchValues.DistinctTags (p : SearchValues) : Prop := ∀ ids, p.tags = some ids → ids.Nodup

theorem SafeInteger.val_injective : Function.Injective SafeInteger.val := by
  intro n n' hsame
  cases n
  cases n'
  simpa using hsame

/-- The filter of `GetJobs`. -/
def jobsFilter (user : UserInfo) (params : QueryParams) : JobFilter :=
  if user.isAdmin then parseGetJobParams params
  else { parseGetJobParams params with userName := some user.username }

section Filters

variable {user : UserInfo} {p : JobSearchParams} {s : Store}

/-- What the filter asks for. -/
theorem asks_jobsFilter_iff (c : Constraint) :
    (jobsFilter user (QueryString.get p.queryString)).Asks c ↔
      (p.Asks c ∧ c.Applies user) ∨ (user.isAdmin = false ∧ c = .userName user.username) := by
  have hread := asks_parseGetJobParams_iff p c
  unfold jobsFilter
  by_cases hadmin : user.isAdmin = true
  · rw [if_pos hadmin, hread]
    cases c with
    | userId v => simp [Constraint.Applies, hadmin]
    | groupId v => simp [Constraint.Applies, hadmin]
    | _ => simp [Constraint.Applies, hadmin]
  · rw [if_neg hadmin]
    rw [Bool.not_eq_true] at hadmin
    cases c with
    | userName v =>
      simp only [JobFilter.Asks, Option.some.injEq, Constraint.Applies, hadmin, Bool.false_eq_true,
        and_false, false_or, true_and, Constraint.userName.injEq, eq_comm]
    | userId v => exact hread.trans (by simp [Constraint.Applies])
    | groupId v => exact hread.trans (by simp [Constraint.Applies])
    | _ => exact hread.trans (by simp [Constraint.Applies])

/-- The tags of the filter. -/
theorem tags_jobsFilter (user : UserInfo) (p : JobSearchParams) :
    (jobsFilter user (QueryString.get p.queryString)).tags =
      if p.tags.getD [] = [] then none
      else some ((p.tags.getD []).map fun n => { id := n.val }) := by
  have htags : (jobsFilter user (QueryString.get p.queryString)).tags =
      (parseGetJobParams (QueryString.get p.queryString)).tags := by
    unfold jobsFilter
    split
    · rfl
    · rfl
  rw [htags, parseGetJobParams_queryString]

/-- The IDs of the tags are those that are asked for. -/
theorem ids_jobsFilter {ts : List JobTag}
    (h : (jobsFilter user (QueryString.get p.queryString)).tags = some ts) :
    ts ≠ [] ∧ ∃ ids, p.tags = some ids ∧ ts.map JobTag.id = ids.map SafeInteger.val := by
  rw [tags_jobsFilter] at h
  split_ifs at h with hnone
  cases h
  obtain ⟨ids, hids⟩ : ∃ ids, p.tags = some ids := by
    cases hp : p.tags with
    | none => simp [hp] at hnone
    | some ids => exact ⟨ids, rfl⟩
  rw [hids, Option.getD_some] at hnone ⊢
  exact ⟨by simpa using hnone, ids, rfl, by rw [List.map_map]; rfl⟩

/-- A stored job meets the filter of `GetJobs`. -/
theorem satisfiedBy_jobsFilter_iff {row : JobMetadata} :
    (jobsFilter user (QueryString.get p.queryString)).SatisfiedBy s row ↔
      (user.isAdmin = true ∨ row.userName = user.username) ∧
        ∀ c, p.Asks c → c.Applies user → c.Holds s row := by
  simp only [satisfiedBy_iff_asks, asks_jobsFilter_iff]
  constructor
  · intro h
    refine ⟨?_, fun c hc happlies => h c (Or.inl ⟨hc, happlies⟩)⟩
    by_cases hadmin : user.isAdmin = true
    · exact Or.inl hadmin
    · exact Or.inr (h (.userName user.username) (Or.inr ⟨by simpa using hadmin, rfl⟩))
  · rintro ⟨huser, hall⟩ c (⟨hc, happlies⟩ | ⟨hadmin, rfl⟩)
    · exact hall c hc happlies
    · rcases huser with h | h
      · simp [h] at hadmin
      · exact h

/-- The table `GetFilteredJobs` selects from: it is empty when a tag is asked for twice. -/
theorem mem_appendTagFilter_iff {filter : JobFilter} {row : JobMetadata}
    (hne : ∀ ts, filter.tags = some ts → ts ≠ []) :
    row ∈ s.appendTagFilter filter.tags ↔ row ∈ s.jobMetadata.rows ∧
      ∀ ts, filter.tags = some ts → (ts.map JobTag.id).Nodup ∧ ∀ t ∈ ts, s.HasTag row.id t.id := by
  cases hts : filter.tags with
  | none => simp [Store.appendTagFilter]
  | some ts =>
    have hmem (hnodup : (ts.map JobTag.id).Nodup) :
        row ∈ s.tagSubquery (ts.map JobTag.id) ↔ row ∈ s.jobMetadata.rows ∧
          ∀ tagId ∈ ts.map JobTag.id, s.HasTag row.id tagId :=
      Store.mem_tagSubquery_iff (by simpa using hne ts hts) hnodup
    simp only [Store.appendTagFilter, Option.some.injEq, forall_eq']
    constructor
    · intro h
      have hnodup : (ts.map JobTag.id).Nodup := by
        have hid := List.mem_map_of_mem (f := JobMetadata.id) h
        rw [Store.map_id_tagSubquery] at hid
        exact Relational.nodup_of_mem_divide hid
      obtain ⟨hrow, htags⟩ := (hmem hnodup).1 h
      exact ⟨hrow, hnodup, List.forall_mem_map.1 htags⟩
    · rintro ⟨hrow, hnodup, htags⟩
      exact (hmem hnodup).2 ⟨hrow, List.forall_mem_map.2 htags⟩

/-- **What `GetJobs` selects.** -/
theorem mem_getFilteredJobs_iff (p : JobSearchParams) {j : JobMetadata} :
    j ∈ s.getFilteredJobs (jobsFilter user (QueryString.get p.queryString)) ↔
      ∃ row ∈ s.jobMetadata.rows, (∀ ids, p.tags = some ids → ids.Nodup) ∧
        (user.isAdmin = true ∨ row.userName = user.username) ∧
        (∀ c, p.Asks c → c.Applies user → c.Holds s row) ∧ s.withTags row = j := by
  rw [(s.getFilteredJobs_perm _).mem_iff, Store.filteredJobs, List.mem_map]
  refine exists_congr fun row => ?_
  rw [List.mem_filter, mem_appendTagFilter_iff fun ts h => (ids_jobsFilter h).1,
    Store.whereOk_iff, ← and_assoc (a := user.isAdmin = true ∨ _), ← satisfiedBy_jobsFilter_iff]
  constructor
  · rintro ⟨⟨⟨hrow, htags⟩, hfields⟩, hj⟩
    refine ⟨hrow, fun ids hids => ?_, ⟨hfields, fun ts hts => (htags ts hts).2⟩, hj⟩
    by_cases hnone : ids = []
    · rw [hnone]
      exact List.nodup_nil
    · have hts := tags_jobsFilter user p
      rw [hids, Option.getD_some, if_neg hnone] at hts
      obtain ⟨-, ids', hids', hmap⟩ := ids_jobsFilter hts
      cases hids.symm.trans hids'
      have hnodup := (htags _ hts).1
      rw [hmap] at hnodup
      exact hnodup.of_map _
  · rintro ⟨hrow, hdistinct, hsat, hj⟩
    refine ⟨⟨⟨hrow, fun ts hts => ⟨?_, hsat.tags ts hts⟩⟩, hsat.fields⟩, hj⟩
    obtain ⟨-, ids, hids, hmap⟩ := ids_jobsFilter hts
    rw [hmap]
    exact (hdistinct ids hids).map SafeInteger.val_injective

/-- **`GetJobs` answers with the jobs of the filter.** -/
theorem lists_getFilteredJobs (s : Store) (user : UserInfo) {p : JobSearchParams}
    (hdistinct : p.DistinctTags) :
    Lists s user p.toSearchValues
      (s.getFilteredJobs (jobsFilter user (QueryString.get p.queryString))) := by
  have hperm := s.getFilteredJobs_perm (jobsFilter user (QueryString.get p.queryString))
  refine ⟨(hperm.map _).nodup_iff.2 (Store.nodup_filteredJobs s _), fun j => ?_⟩
  rw [mem_getFilteredJobs_iff]
  exact exists_congr fun row => and_congr_right fun _ => and_iff_right hdistinct

end Filters

/-! ## The hook -/

namespace JobsView

open WebServer (Reached OthersRun Serves keeps_of_run)

/-- `JobListData`. -/
structure JobListData where
  jobs : List JobMetadata
  radarChartMetrics : List String
  partitions : Map String PartitionConfig
  tags : List JobTag

/-- Which selects of `GetJobs` go through. -/
structure JobsCalls where
  getFilteredJobs : Bool := true
  getJobTags : Bool := true

/-- What is answered: 500 without a body after a select that fails. -/
def JobsCalls.outcome (calls : JobsCalls) : WebServer.Answer → WebServer.Answer
  | .refused code => .refused code
  | .response r =>
    .response (if calls.getFilteredJobs && calls.getJobTags then r else .error 500)

/-- A request of the hook, with the cookie the browser has for it and what will become of its
selects. -/
structure JobsRequest where
  params : JobSearchParams
  authorization : Option String
  calls : JobsCalls := {}

/-- The hook. -/
structure View where
  /-- The filter of the last render. -/
  params : Option JobSearchParams := none
  jobListData : Option JobListData := none
  isLoading : Bool := true
  /-- The cookie was removed after an answer. -/
  unauthorized : Bool := false
  /-- The request whose answer is shown. -/
  shownFor : Option JobsRequest := none
  /-- The last answer was no list. -/
  failed : Bool := false

/-- The effect of a new filter. -/
def View.ask (v : View) (req : JobsRequest) : View :=
  { v with params := some req.params, isLoading := true }

/-- The end of `fetch`.  An answer that is not JSON leaves what is shown as it is. -/
def View.receive (v : View) (req : JobsRequest) : WebServer.Answer → View
  | .refused code => if code = 401 ∨ code = 403 then { v with unauthorized := true } else v
  | .response (.status code (.jobList jobs radarChartMetrics partitions tags)) =>
    if code = 401 ∨ code = 403 then { v with unauthorized := true }
    else
      { v with
        jobListData := some { jobs, radarChartMetrics, partitions, tags }
        isLoading := false
        shownFor := some req
        failed := false }
  | .response _ => { v with failed := true }

variable (auth : Authentication) (out : Surroundings)

/-- The hook as a client of the server. -/
def jobsClient : Client WebServer View JobsRequest WebServer.Answer where
  serve st req :=
    let (answer, st) := st.answer auth out req.authorization
      (.getJobs (QueryString.get req.params.queryString))
    (req.calls.outcome answer, st)
  ask := View.ask
  receive _ v := v.receive

/-- **The request leaves the server as it is.** -/
theorem answer_getJobs (st : WebServer) (authorization : Option String) (params : QueryParams) :
    (∃ code, st.access auth authorization (.getJobs params) = .refused code ∧
      st.answer auth out authorization (.getJobs params) = (.refused code, st)) ∨
    ∃ user, st.access auth authorization (.getJobs params) = .executes user ∧
      st.answer auth out authorization (.getJobs params) =
        (.response (getJobs st.system.backend user params), st) := by
  rcases st.answer_cases auth out authorization (.getJobs params) with
    hrefused | ⟨user, response, backend, task, haccess, hhandle, heq⟩
  · exact Or.inl hrefused
  · cases hhandle
    refine Or.inr ⟨user, haccess, heq.trans ?_⟩
    simp only [Option.toList_none, List.append_nil]
    rfl

/-- What comes of a request of the hook. -/
theorem serve_cases (st : WebServer) (req : JobsRequest) :
    (∃ code, st.access auth req.authorization
        (.getJobs (QueryString.get req.params.queryString)) = .refused code ∧
      (jobsClient auth out).serve st req = (.refused code, st)) ∨
    (∃ user, st.access auth req.authorization
        (.getJobs (QueryString.get req.params.queryString)) = .executes user ∧
      (jobsClient auth out).serve st req = (.response
        (getJobs st.system.backend user (QueryString.get req.params.queryString)), st)) ∨
    (jobsClient auth out).serve st req = (.response (.error 500), st) := by
  rcases answer_getJobs auth out st req.authorization
    (QueryString.get req.params.queryString) with ⟨code, haccess, heq⟩ | ⟨user, haccess, heq⟩
  · exact Or.inl ⟨code, haccess, by simp only [jobsClient, heq, JobsCalls.outcome]⟩
  · right
    cases hcalls : req.calls.getFilteredJobs && req.calls.getJobTags with
    | true =>
      refine Or.inl ⟨user, haccess, ?_⟩
      simp only [jobsClient, heq, JobsCalls.outcome, hcalls, if_true]
    | false =>
      right
      simp only [jobsClient, heq, JobsCalls.outcome, hcalls, Bool.false_eq_true, if_false]

/-! ## What is shown -/

variable {auth out}

/-- The data is the answer of the server in the state `st` to the request. -/
def AnswerOf (auth : Authentication) (st : WebServer) (req : JobsRequest) (data : JobListData) :
    Prop :=
  ∃ user, st.access auth req.authorization (.getJobs (QueryString.get req.params.queryString)) =
      .executes user ∧
    (req.params.DistinctTags →
      Lists st.store user req.params.toSearchValues data.jobs) ∧
    data.radarChartMetrics = st.system.backend.config.radarChartMetrics ∧
    data.partitions = st.system.backend.config.partitions ∧
    data.tags = st.store.getJobTags (searchUsername user)

/-- What is shown is an answer of the server in a state that meets `S`. -/
def Answered (auth : Authentication) (S : WebServer → Prop) (v : View) : Prop :=
  ∀ data, v.jobListData = some data →
    ∃ req, v.shownFor = some req ∧ ∃ st, S st ∧ AnswerOf auth st req data

theorem answered_receive {S : WebServer → Prop} {st : WebServer} {v : View} {req : JobsRequest}
    (hst : S st) (h : Answered auth S v) :
    Answered auth S (v.receive req ((jobsClient auth out).serve st req).1) := by
  rcases serve_cases auth out st req with ⟨code, -, heq⟩ | ⟨user, haccess, heq⟩ | heq
  · rw [heq]
    simp only [View.receive]
    split
    · exact h
    · exact h
  · rw [heq]
    intro data hdata
    cases hdata
    exact ⟨req, rfl, st, hst, user, haccess,
      fun hdistinct => lists_getFilteredJobs st.store user hdistinct, rfl, rfl, rfl⟩
  · rw [heq]
    exact h

/-- What is shown belongs to the filter of the last render, unless the cookie is gone or the last
answer was no list. -/
def Current (v : View) : Prop :=
  v.unauthorized = true ∨ v.failed = true ∨ v.shownFor.map JobsRequest.params = v.params

/-- An answer does not change the filter. -/
@[simp] theorem View.params_receive (v : View) (req : JobsRequest) (r : WebServer.Answer) :
    (v.receive req r).params = v.params := by
  unfold View.receive
  split
  · split_ifs <;> rfl
  · split_ifs <;> rfl
  · rfl

/-- The filter of the last render is that of the request. -/
def LastAsked (v : View) (req : JobsRequest) : Prop := v.params = some req.params

theorem current_receive {st : WebServer} {v : View} {req : JobsRequest}
    (h : LastAsked v req) :
    Current (v.receive req ((jobsClient auth out).serve st req).1) := by
  rcases serve_cases auth out st req with ⟨code, haccess, heq⟩ | ⟨user, haccess, heq⟩ | heq
  · left
    rw [heq]
    simp only [View.receive]
    rw [if_pos (WebServer.code_of_refused haccess)]
  · rw [heq]
    exact Or.inr (Or.inr h.symm)
  · rw [heq]
    exact Or.inr (Or.inl rfl)

/-- The page and the server. -/
abbrev Page := ClientView.State WebServer View JobsRequest WebServer.Answer

@[simp] theorem serve_snd (st : WebServer) (req : JobsRequest) :
    ((jobsClient auth out).serve st req).2 = st := by
  rcases serve_cases auth out st req with ⟨code, -, heq⟩ | ⟨user, -, heq⟩ | heq
  · exact congrArg Prod.snd heq
  · exact congrArg Prod.snd heq
  · exact congrArg Prod.snd heq

theorem serves_jobsClient : Serves auth (jobsClient auth out) := by
  intro st req
  rw [serve_snd]
  exact Reached.refl auth st

/-- What is shown is always an answer of the server, in a state it has been in. -/
theorem answered_of_run {st₀ : WebServer}
    {events : List (ClientView.Event WebServer View JobsRequest)} {s : Page}
    (hrun : Run (Guarded (OthersRun auth) (StepOf (ClientView.step (jobsClient auth out))))
      { server := st₀, view := {} } events s) : Answered auth (Reached auth st₀) s.view := by
  refine (keeps_of_run serves_jobsClient ?_ ?_ ?_ hrun).view
  · exact fun v req h => h
  · exact fun st v v' req hst _ h => answered_receive hst h
  · exact fun data hdata => by cases hdata

section Example

/-- Two running jobs of alice and one of bob. -/
def threeJobs : Store :=
  { jobMetadata := ⟨[
      { id := 1, userName := "alice", isRunning := true },
      { id := 2, userName := "bob", isRunning := true },
      { id := 3, userName := "alice", isRunning := true }], by decide⟩ }

/-- Alice is a local user. -/
def aliceConfig : Configuration :=
  { jsonWebTokenLifeTime := 60 * Go.second
    localUsers := Table.empty.upsert ("alice", { role := USER }) }

/-- She is logged in. -/
def jobsServer : WebServer :=
  (WebServer.start Go.second aliceConfig threeJobs).withStore
    (threeJobs.setUserSessionToken "alice" "token")

/-- She asks for the running jobs. -/
def runningJobs : JobsRequest where
  params :=
    { isRunning := some true
      keys := [.IsRunning]
      complete := by
        intro k hk
        cases k with
        | IsRunning => decide
        | _ => exact absurd rfl hk }
  authorization := some "Bearer token"

/-- She asks again, and a select fails. -/
def failingJobs : JobsRequest := { runningJobs with calls := { getJobTags := false } }

def aliceAuthentication : Authentication :=
  .init Session.aliceJWT (fun _ _ => true) aliceConfig

def jobsEvents : List (ClientView.Event WebServer View JobsRequest) :=
  [.ask runningJobs, .serve 0, .receive 0]

/-- The hook on Alice's page. -/
def aliceJobs : Client WebServer View JobsRequest WebServer.Answer :=
  jobsClient aliceAuthentication silentSurroundings

/-- The page after some events. -/
def jobsPageAfter (events : List (ClientView.Event WebServer View JobsRequest)) : Page :=
  (exec (ClientView.step aliceJobs)
    { server := jobsServer, view := {} } events).getD { server := jobsServer, view := {} }

/-- The page after the answer. -/
def jobsPage : Page := jobsPageAfter jobsEvents

theorem run_jobsPage : Run (Guarded (OthersRun aliceAuthentication)
    (StepOf (ClientView.step aliceJobs)))
    { server := jobsServer, view := {} } jobsEvents jobsPage := by
  have hask : Run (Guarded (OthersRun aliceAuthentication) (StepOf (ClientView.step aliceJobs)))
      { server := jobsServer, view := {} } [.ask runningJobs] _ := Run.nil.snoc ⟨trivial, rfl⟩
  have hserve : Run (Guarded (OthersRun aliceAuthentication) (StepOf (ClientView.step aliceJobs)))
      { server := jobsServer, view := {} } [.ask runningJobs, .serve 0] _ :=
    hask.snoc ⟨trivial, rfl⟩
  exact hserve.snoc ⟨trivial, rfl⟩

-- Her two jobs are listed, and stay on the screen when the next answer is an error.
example :
    (jobsPage.view.jobListData.map JobListData.jobs).map (List.map JobMetadata.id) =
      some [1, 3] ∧
    ((jobsPageAfter (jobsEvents ++ [.ask failingJobs, .serve 0, .receive 0])).view.jobListData.map
      JobListData.jobs).map (List.map JobMetadata.id) = some [1, 3] ∧
    (jobsPageAfter (jobsEvents ++ [.ask failingJobs, .serve 0, .receive 0])).view.failed =
      true := by
  decide

end Example

end JobsView

end JobMon
