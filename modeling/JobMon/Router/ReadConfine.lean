import JobMon.Influx.Flux
import JobMon.Store.Own
import JobMon.Router.Answer

/-!
# What a request may read

The two-run property of the handlers that read: what is not a user's own makes no
difference to the answer.

* `ReadConfined` — two backends that agree on all that is the user's own, over two
  sets of samples that agree on those of the user's jobs, give the same answer.
* `AboutOwn` — what has to be checked before the records of a job are read.
* `readConfined_iff` — a request is confined exactly when it is about the user's own
  and none of its queries reads the samples of other jobs.
-/

namespace JobMon

open Keyed InfluxDB

/-! ## The property -/

/-- The times at which a request is served. -/
def ReadRequest.times (now : ℤ) : ReadRequest → List ℤ
  | .liveMonitoring _ events => now :: events.map Prod.fst
  | _ => [now]

/-- A sample of one of the user's jobs: measured on a node of the job during its
life, as it is at one of the times. -/
def OwnSample (b : Backend) (user : UserInfo) (times : List ℤ) (x : Sample) : Prop :=
  ∃ j ∈ b.store.ownJobs user.username, ∃ now ∈ times,
    x.In j.nodeList j.startTime (j.lifetimeEnd now)

/-- The backends agree on the configuration and on all that is the user's own. -/
structure Backend.SameFor (username : String) (b b' : Backend) : Prop where
  config : b'.config = b.config
  db : b'.db = b.db
  jobCache : b'.jobCache = b.jobCache
  store : b.store.SameFor username b'.store

/-- **Read confinement**: the answer is the same in every backend that agrees on what
is the user's own, whatever else there is in the store and among the samples. -/
def ReadConfined (Pipeline : String → Prop) (out : Surroundings) (b : Backend) (user : UserInfo)
    (req : ReadRequest) : Prop :=
  ∀ server : Server, server.Local Pipeline → ∀ (S S' : Set Sample) (b' : Backend),
    b.SameFor user.username b' →
    (∀ x, OwnSample b user (req.times out.env.now) x → (x ∈ S ↔ x ∈ S')) →
    req.answer (out.withAPI (server S)) b user = req.answer (out.withAPI (server S')) b' user

/-! ## The condition -/

/-- The text is not a number, or the ID of a job of the user. -/
def OwnId (b : Backend) (user : UserInfo) (strId : String) : Prop :=
  ∀ id, Go.atoi strId = .ok id → ∃ j, b.store.getJob id = some j ∧ j.userName = user.username

/-- The request is about the user's own: it names a job of the user, or it is restricted
by a user name. -/
def ReadRequest.AboutOwn (b : Backend) (user : UserInfo) : ReadRequest → Prop
  | .getJobs _ => user.username ≠ ""
  | .getJob req => OwnId b user req.id
  | .getMetric req => req.metric = "" ∨ req.aggFn = "" ∨ OwnId b user req.id
  | .liveMonitoring id _ => OwnId b user id
  | .searchJob _ => user.username ≠ ""
  | .searchTag _ => user.username ≠ ""

/-- The search term, if there is one, is plain. -/
def ReadRequest.PlainTerm : ReadRequest → Prop
  | .searchJob term => Store.PlainTerm term
  | .searchTag term => Store.PlainTerm term
  | _ => True

/-! ## What is the user's own reads the same -/

section Own

variable {out : Surroundings} {b b' : Backend} {user : UserInfo} {req : ReadRequest}

theorem sampleInterval_of_sameFor {username : String} (h : b.SameFor username b') :
    b'.sampleInterval = b.sampleInterval := by
  rw [Backend.sampleInterval, Backend.sampleInterval, h.config]

theorem getJob_of_ownId (h : b.SameFor user.username b') {strId : String}
    (hown : OwnId b user strId) {id : ℤ} (hid : Go.atoi strId = .ok id) :
    b'.store.getJob id = b.store.getJob id := by
  obtain ⟨j, hj, hname⟩ := hown id hid
  rw [hj, h.store.getJob_eq hj hname]

theorem getJobCall_of_ownId (h : b.SameFor user.username b') {req : GetJobRequest}
    (hown : OwnId b user req.id) (now : ℤ) :
    getJobCall now b' user req = getJobCall now b user req := by
  unfold getJobCall
  cases hid : Go.atoi req.id with
  | error e => rfl
  | ok id => simp only [getJob_of_ownId h hown hid, sampleInterval_of_sameFor h]

theorem getMetricCall_of_ownId (h : b.SameFor user.username b') {req : GetMetricRequest}
    (hown : req.metric = "" ∨ req.aggFn = "" ∨ OwnId b user req.id) (now : ℤ) :
    getMetricCall now b' user req = getMetricCall now b user req := by
  unfold getMetricCall
  by_cases hmetric : req.metric = ""
  · rw [if_pos hmetric, if_pos hmetric]
  by_cases haggFn : req.aggFn = ""
  · rw [if_neg hmetric, if_neg hmetric, if_pos haggFn, if_pos haggFn]
  rw [if_neg hmetric, if_neg hmetric, if_neg haggFn, if_neg haggFn]
  have hid' : OwnId b user req.id := by
    rcases hown with hown | hown | hown
    · exact absurd hown hmetric
    · exact absurd hown haggFn
    · exact hown
  cases hid : Go.atoi req.id with
  | error e => rfl
  | ok id => simp only [getJob_of_ownId h hid' hid, sampleInterval_of_sameFor h, h.config]

theorem LiveEvent.answer_of_sameFor {username : String} (h : b.SameFor username b')
    (env : Environment) (conn : LiveConnection) (e : LiveEvent) :
    e.answer env b' conn = e.answer env b conn := by
  cases e with
  | message msg =>
    cases msg with
    | other => rfl
    | loadMetrics startTime stopTime =>
      simp only [LiveEvent.answer, loadMetrics, loadMetricsCall, sampleInterval_of_sameFor h, h.db]
  | tick => simp only [LiveEvent.answer, latestMetrics, h.db]

/-- **What is not the user's own makes no difference** to a request about the user's
own, as long as the samples are the same. -/
theorem answer_of_sameFor (hadmin : user.isAdmin = false) (hterm : req.PlainTerm)
    (hown : req.AboutOwn b user) (h : b.SameFor user.username b') :
    req.answer out b user = req.answer out b' user := by
  cases req with
  | getJobs params =>
    refine answer_ext ?_ rfl
    have hjobs := @Store.SameFor.getFilteredJobs_eq _ _ _ h.store
      { parseGetJobParams params with userName := some user.username } rfl
    have htags := h.store.getJobTags_eq hown
    simp only [ReadRequest.route, handle, getJobs, hadmin, Bool.false_eq_true, if_false, h.config,
      hjobs, htags]
  | getJob req =>
    refine answer_ext ?_ rfl
    have hcall := getJobCall_of_ownId h hown out.env.now
    simp only [ReadRequest.route, handle, getJob, hcall, JobDataCall.run, h.db, h.jobCache]
    cases getJobCall out.env.now b user req with
    | error response => rfl
    | ok call => rfl
  | getMetric req =>
    refine answer_ext ?_ rfl
    have hcall := getMetricCall_of_ownId h hown out.env.now
    simp only [ReadRequest.route, handle, getMetric, hcall, h.db]
  | liveMonitoring id events =>
    have hlive : liveMonitoring b' user id = liveMonitoring b user id := by
      unfold liveMonitoring
      cases hid : Go.atoi id with
      | error e => rfl
      | ok n => simp only [getJob_of_ownId h hown hid]
    refine answer_ext ?_ ?_
    · simp only [ReadRequest.route, handle, hlive]
    · simp only [ReadRequest.live, hlive]
      refine congrArg (fun f => Option.map f _) (funext fun conn => ?_)
      refine serveLive_congr fun p _ => ?_
      rw [LiveEvent.answer_of_sameFor h]
  | searchJob term =>
    refine answer_ext ?_ rfl
    have hjobs := h.store.getJobByString_eq hown out.sql (Store.containsChar_of_plain hterm)
    simp only [ReadRequest.route, handle, searchJob, searchUsername, hadmin, Bool.false_eq_true,
      if_false, hjobs]
  | searchTag term =>
    refine answer_ext ?_ rfl
    have htags := h.store.getJobTagsByName_eq hown out.sql (Store.containsChar_of_plain hterm)
    simp only [ReadRequest.route, handle, searchTag, searchUsername, hadmin, Bool.false_eq_true,
      if_false, htags]

end Own

/-! ## What is not the user's own is seen -/

section Foreign

variable {out : Surroundings} {b : Backend} {user : UserInfo}

/-- The same backend with another store. -/
def Backend.withStore (b : Backend) (store : Store) : Backend := { b with store }

theorem Backend.sameFor_withStore {username : String} {store : Store}
    (h : b.store.SameFor username store) : b.SameFor username (b.withStore store) :=
  ⟨rfl, rfl, rfl, h⟩

theorem getJob_of_foreign (env : Environment) (hadmin : user.isAdmin = false)
    {req : GetJobRequest} {id : ℤ} (hid : Go.atoi req.id = .ok id) {j : JobMetadata}
    (hj : b.store.getJob id = some j) (hname : j.userName ≠ user.username) :
    (getJob env b user req).1 = .error 401 := by
  have haccess : mayAccess user j = false := by simp [mayAccess, hadmin, hname.symm]
  simp only [getJob, getJobCall, hid, hj, haccess, if_true]

theorem getJob_of_absent (env : Environment) {req : GetJobRequest} {id : ℤ}
    (hid : Go.atoi req.id = .ok id) (hj : b.store.getJob id = none) :
    (getJob env b user req).1 = .error 500 := by
  simp only [getJob, getJobCall, hid, hj]

theorem getMetric_of_foreign (env : Environment) (hadmin : user.isAdmin = false)
    {req : GetMetricRequest} (hmetric : req.metric ≠ "") (haggFn : req.aggFn ≠ "") {id : ℤ}
    (hid : Go.atoi req.id = .ok id) {j : JobMetadata} (hj : b.store.getJob id = some j)
    (hname : j.userName ≠ user.username) : getMetric env b user req = .error 401 := by
  have haccess : mayAccess user j = false := by simp [mayAccess, hadmin, hname.symm]
  simp only [getMetric, getMetricCall, if_neg hmetric, if_neg haggFn, hid, hj, haccess, if_true]

theorem getMetric_of_absent (env : Environment) {req : GetMetricRequest}
    (hmetric : req.metric ≠ "") (haggFn : req.aggFn ≠ "") {id : ℤ}
    (hid : Go.atoi req.id = .ok id) (hj : b.store.getJob id = none) :
    getMetric env b user req = .error 500 := by
  simp only [getMetric, getMetricCall, if_neg hmetric, if_neg haggFn, hid, hj]

/-- Under an ID that is not the user's own there can be a job or none. -/
theorem exists_toggled {strId : String} (h : ¬ OwnId b user strId) :
    ∃ id store, Go.atoi strId = .ok id ∧ b.store.SameFor user.username store ∧
      ((∃ j, b.store.getJob id = some j ∧ j.userName ≠ user.username ∧ store.getJob id = none) ∨
        (∃ j, b.store.getJob id = none ∧ store.getJob id = some j ∧
          j.userName ≠ user.username)) := by
  simp only [OwnId, not_forall] at h
  obtain ⟨id, hid, hnone⟩ := h
  have hforeign : b.store.ownsJob user.username id = false := by
    rw [Bool.eq_false_iff]
    intro hown
    obtain ⟨row, hrow, hrowId⟩ := Store.ownsJob_iff.1 hown
    obtain ⟨hmem, hname⟩ := List.mem_filter.1 hrow
    refine hnone ⟨b.store.withTags row, ?_, of_decide_eq_true hname⟩
    rw [Store.getJob, ← hrowId, Table.get?_of_mem hmem, Option.map_some]
  obtain ⟨store, hsame, hcases⟩ := Store.exists_sameFor_toggled hforeign
  exact ⟨id, store, hid, hsame, hcases⟩

theorem exists_getJobs_ne (out : Surroundings) (b : Backend) (hadmin : user.isAdmin = false)
    (hname : user.username = "") (params : QueryParams) :
    ∃ store, b.store.SameFor user.username store ∧
      (handle out b user (.getJobs params)).1 ≠
        (handle out (b.withStore store) user (.getJobs params)).1 := by
  obtain ⟨store, j, tag, hsame, -, -, -, -, htags⟩ :=
    Store.exists_sameFor_more b.store user.username ""
  refine ⟨store, hsame, fun hlists => ?_⟩
  simp only [handle, getJobs, hadmin, Bool.false_eq_true, if_false, hname, Response.ok,
    Response.status.injEq, Payload.jobList.injEq] at hlists
  have hlen := congrArg List.length hlists.2.2.2.2
  rw [show (b.withStore store).store = store from rfl, htags, List.length_append,
    List.length_singleton] at hlen
  omega

theorem exists_getJob_ne (out : Surroundings) (hadmin : user.isAdmin = false) {req : GetJobRequest}
    (hown : ¬ OwnId b user req.id) :
    ∃ store, b.store.SameFor user.username store ∧
      (getJob out.env b user req).1 ≠ (getJob out.env (b.withStore store) user req).1 := by
  obtain ⟨id, store, hid, hsame, hcases⟩ := exists_toggled hown
  refine ⟨store, hsame, fun hcodes => ?_⟩
  rcases hcases with ⟨j, hj, hname, hnone⟩ | ⟨j, hnone, hj, hname⟩
  · rw [getJob_of_foreign out.env hadmin hid hj hname,
      @getJob_of_absent (b.withStore store) user out.env req id hid hnone] at hcodes
    cases hcodes
  · rw [getJob_of_absent out.env hid hnone,
      @getJob_of_foreign (b.withStore store) user out.env hadmin req id hid j hj hname] at hcodes
    cases hcodes

theorem exists_getMetric_ne (out : Surroundings) (hadmin : user.isAdmin = false)
    {req : GetMetricRequest} (hmetric : req.metric ≠ "") (haggFn : req.aggFn ≠ "")
    (hown : ¬ OwnId b user req.id) :
    ∃ store, b.store.SameFor user.username store ∧
      getMetric out.env b user req ≠ getMetric out.env (b.withStore store) user req := by
  obtain ⟨id, store, hid, hsame, hcases⟩ := exists_toggled hown
  refine ⟨store, hsame, fun hcodes => ?_⟩
  rcases hcases with ⟨j, hj, hname, hnone⟩ | ⟨j, hnone, hj, hname⟩
  · rw [getMetric_of_foreign out.env hadmin hmetric haggFn hid hj hname,
      @getMetric_of_absent (b.withStore store) user out.env req hmetric haggFn id hid hnone]
      at hcodes
    cases hcodes
  · rw [getMetric_of_absent out.env hmetric haggFn hid hnone,
      @getMetric_of_foreign (b.withStore store) user out.env hadmin req hmetric haggFn id hid j
        hj hname] at hcodes
    cases hcodes

theorem exists_live_ne (env : Environment) {id : String} (events : List (ℤ × LiveEvent))
    (hown : ¬ OwnId b user id) :
    ∃ store, b.store.SameFor user.username store ∧
      (ReadRequest.liveMonitoring id events).live env b user ≠
        (ReadRequest.liveMonitoring id events).live env (b.withStore store) user := by
  obtain ⟨n, store, hid, hsame, hcases⟩ := exists_toggled hown
  refine ⟨store, hsame, fun hserved => ?_⟩
  rcases hcases with ⟨j, hj, -, hnone⟩ | ⟨j, hnone, hj, -⟩
  · simp only [ReadRequest.live, liveMonitoring, hid, Backend.withStore, hj, hnone,
      Option.map_some, Option.map_none] at hserved
    cases hserved
  · simp only [ReadRequest.live, liveMonitoring, hid, Backend.withStore, hj, hnone,
      Option.map_some, Option.map_none] at hserved
    cases hserved

theorem exists_searchJob_ne (sql : Store.RawSQL) (b : Backend) (hadmin : user.isAdmin = false)
    (hname : user.username = "") {term : String} (hterm : Store.PlainTerm term) :
    ∃ store, b.store.SameFor user.username store ∧
      searchJob sql b user term ≠ searchJob sql (b.withStore store) user term := by
  obtain ⟨store, j, tag, hsame, hjobs, hjob, -, -, -⟩ :=
    Store.exists_sameFor_more b.store user.username term
  refine ⟨store, hsame, fun hlists => ?_⟩
  have hfound : Store.like term j.jobName = true := by
    rw [hjob]
    exact Store.like_self hterm
  simp only [searchJob, searchUsername, hadmin, Bool.false_eq_true, if_false, hname,
    Store.getJobByString, Store.containsChar_of_plain hterm, Backend.withStore, hjobs, Response.ok,
    Response.status.injEq, Payload.jobs.injEq, List.filter_append, List.map_append,
    true_and] at hlists
  have hlen := congrArg List.length hlists
  simp [hfound] at hlen

theorem exists_searchTag_ne (sql : Store.RawSQL) (b : Backend) (hadmin : user.isAdmin = false)
    (hname : user.username = "") {term : String} (hterm : Store.PlainTerm term) :
    ∃ store, b.store.SameFor user.username store ∧
      searchTag sql b user term ≠ searchTag sql (b.withStore store) user term := by
  obtain ⟨store, j, tag, hsame, -, -, htags, htag, -⟩ :=
    Store.exists_sameFor_more b.store user.username term
  refine ⟨store, hsame, fun hlists => ?_⟩
  have hfound : Store.like term tag.name = true := by
    rw [htag]
    exact Store.like_self hterm
  simp only [searchTag, searchUsername, hadmin, Bool.false_eq_true, if_false, hname,
    Store.getJobTagsByName, Store.containsChar_of_plain hterm, Backend.withStore, htags,
    Response.ok, Response.status.injEq, Payload.tags.injEq, List.filter_append,
    true_and] at hlists
  have hlen := congrArg List.length hlists
  simp [hfound] at hlen

/-- **A request that is not about the user's own** gets another answer when something
changes that is not. -/
theorem exists_answer_ne (hadmin : user.isAdmin = false) (huser : user.permitted USER = true)
    {req : ReadRequest} (hterm : req.PlainTerm) (hown : ¬ req.AboutOwn b user) :
    ∃ store, b.store.SameFor user.username store ∧
      req.answer out b user ≠ req.answer out (b.withStore store) user := by
  -- another response, or something else on the live connection
  suffices hne : ∃ store, b.store.SameFor user.username store ∧
      ((handle out b user req.route).1 ≠ (handle out (b.withStore store) user req.route).1 ∨
        req.live out.env b user ≠ req.live out.env (b.withStore store) user) by
    obtain ⟨store, hsame, hne⟩ := hne
    refine ⟨store, hsame, fun heq => ?_⟩
    rw [answer_eq, answer_eq, if_pos huser, if_pos huser] at heq
    rcases hne with hne | hne
    · exact hne (congrArg Answer.response heq)
    · exact hne (congrArg Answer.live heq)
  cases req with
  | getJobs params =>
    obtain ⟨store, hsame, hne⟩ := exists_getJobs_ne out b hadmin (not_not.1 hown) params
    exact ⟨store, hsame, Or.inl hne⟩
  | getJob req =>
    obtain ⟨store, hsame, hne⟩ := exists_getJob_ne out hadmin hown
    exact ⟨store, hsame, Or.inl hne⟩
  | getMetric req =>
    simp only [ReadRequest.AboutOwn, not_or] at hown
    obtain ⟨hmetric, haggFn, hown⟩ := hown
    obtain ⟨store, hsame, hne⟩ := exists_getMetric_ne out hadmin hmetric haggFn hown
    exact ⟨store, hsame, Or.inl hne⟩
  | liveMonitoring id events =>
    obtain ⟨store, hsame, hne⟩ := exists_live_ne out.env events hown
    exact ⟨store, hsame, Or.inr hne⟩
  | searchJob term =>
    obtain ⟨store, hsame, hne⟩ := exists_searchJob_ne out.sql b hadmin (not_not.1 hown) hterm
    exact ⟨store, hsame, Or.inl hne⟩
  | searchTag term =>
    obtain ⟨store, hsame, hne⟩ := exists_searchTag_ne out.sql b hadmin (not_not.1 hown) hterm
    exact ⟨store, hsame, Or.inl hne⟩

end Foreign

/-! ## The condition is exact -/

section Exact

variable {Pipeline : String → Prop} {out : Surroundings} {b : Backend} {user : UserInfo}
  {req : ReadRequest}

theorem exists_below {α : Type} (f : α → ℤ) (l : List α) : ∃ t, ∀ a ∈ l, t < f a := by
  induction l with
  | nil => exact ⟨0, fun a ha => by cases ha⟩
  | cons a l ih =>
    obtain ⟨t, ht⟩ := ih
    refine ⟨min t (f a - 1), fun a' ha' => ?_⟩
    rcases List.mem_cons.1 ha' with rfl | ha'
    · omega
    · have hlt := ht a' ha'
      omega

/-- There are samples from before all jobs of a user. -/
theorem exists_not_ownSample (b : Backend) (user : UserInfo) (times : List ℤ) :
    ∃ x, ¬ OwnSample b user times x := by
  obtain ⟨t, ht⟩ := exists_below (fun j : JobMetadata => j.startTime * Go.second)
    (b.store.ownJobs user.username)
  refine ⟨{ hostname := "", time := t, columns := Table.empty }, ?_⟩
  rintro ⟨j, hj, now, -, -, hstart, -⟩
  have hlt := ht j hj
  simp only at hlt hstart
  omega

/-- Harmless queries about the user's own give a confined answer. -/
theorem readConfined_of_harmless (hadmin : user.isAdmin = false) (hcache : b.jobCache.list = [])
    (hterm : req.PlainTerm) (hown : req.AboutOwn b user)
    (hharmless : ∀ q ∈ req.asks out.env.now b user,
      Harmless Pipeline (OwnSample b user (req.times out.env.now)) q) :
    ReadConfined Pipeline out b user req := by
  intro server hlocal S S' b' hsame hS
  have hagree : (server S).AgreeOn (server S') (req.asks out.env.now b user) :=
    agreeOn_of_harmless hlocal hS hharmless
  calc req.answer (out.withAPI (server S)) b user
      = req.answer (out.withAPI (server S')) b user :=
        @answer_congr (out.withAPI (server S)) b user req (server S') hcache hagree
    _ = req.answer (out.withAPI (server S')) b' user :=
        answer_of_sameFor hadmin hterm hown hsame

/-- In a confined request every query is harmless: on any other, a server can end the
process because of a sample that is not the user's own. -/
theorem harmless_of_readConfined (huser : user.permitted USER = true)
    (hcache : b.jobCache.list = []) (h : ReadConfined Pipeline out b user req)
    {q : Option FluxQuery} (hq : q ∈ req.asks out.env.now b user) :
    Harmless Pipeline (OwnSample b user (req.times out.env.now)) q := by
  by_contra hharm
  obtain ⟨hne, x, hx, hreads⟩ := exists_of_not_harmless hharm
    (exists_not_ownSample b user (req.times out.env.now))
  have hsame : b.SameFor user.username b := ⟨rfl, rfl, rfl, Store.sameFor_refl _ _⟩
  have hsamples : ∀ y, OwnSample b user (req.times out.env.now) y →
      (y ∈ (∅ : Set Sample) ↔ y ∈ ({x} : Set Sample)) := by
    intro y hy
    have hyx : y ≠ x := fun heq => hx (heq ▸ hy)
    simp [hyx]
  have heq := h (spy (queryText q) x) (spy_local hne hreads) ∅ {x} b hsame hsamples
  have hcrash : (req.answer (out.withAPI (spy (queryText q) x {x})) b user).Crashed :=
    crashed_of_panics huser hcache (spy_singleton hq x)
  rw [← heq] at hcrash
  refine @not_crashed_of_quiet (out.withAPI (spy (queryText q) x ∅)) b user req hcache
    (spy_empty _ x) ?_ hcrash
  exact List.ne_nil_of_mem hq

/-- **Read confinement, exactly.**  A request is confined when the role is missing, or
when it is about the user's own and none of its queries reads samples of other jobs;
otherwise it is not. -/
theorem readConfined_iff (hadmin : user.isAdmin = false) (hcache : b.jobCache.list = [])
    (hterm : req.PlainTerm) :
    ReadConfined Pipeline out b user req ↔
      user.permitted USER = false ∨
        req.AboutOwn b user ∧ ∀ q ∈ req.asks out.env.now b user,
          Harmless Pipeline (OwnSample b user (req.times out.env.now)) q := by
  cases huser : user.permitted USER with
  | false =>
    have hconfined : ReadConfined Pipeline out b user req := by
      intro server _ S S' b' _ _
      rw [answer_eq, answer_eq, huser, if_neg Bool.false_ne_true, if_neg Bool.false_ne_true]
    simp [hconfined]
  | true =>
    simp only [Bool.true_eq_false, false_or]
    constructor
    · intro h
      refine ⟨?_, fun q hq => harmless_of_readConfined huser hcache h hq⟩
      by_contra hown
      obtain ⟨store, hsame, hne⟩ := exists_answer_ne hadmin huser hterm hown
      -- the server always answers the same
      have hconst : Server.Local Pipeline fun _ => out.env.api :=
        ⟨fun _ _ _ _ _ => rfl, fun _ _ _ _ _ => rfl, fun _ _ => ⟨rfl, rfl⟩⟩
      exact hne (h _ hconst ∅ ∅ (b.withStore store) (Backend.sameFor_withStore hsame)
        fun _ _ => Iff.rfl)
    · rintro ⟨hown, hharmless⟩
      exact readConfined_of_harmless hadmin hcache hterm hown hharmless

end Exact

end JobMon
