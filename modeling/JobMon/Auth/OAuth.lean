import JobMon.Auth.Session

/-!
# The OAuth login

`LoginOAuth` opens a login session and sends the browser to the provider;
`LoginOAuthCallback` is where the provider sends it back to.

* `generateSession`, `getSession`, `loginOAuth`, `loginOAuthCallback` — the code; the
  answers of the provider and failing store calls come with the request.
* `loginOAuthCallback_of_accepted`, `loginOAuthCallback_of_not_accepted` — what a callback
  answers.
* `Sound` — in every reachable state the login sessions are those that were opened,
  and stay valid for good.
* `callbacks_iff` — in a run every callback is answered as the protocol asks exactly
  when every callback has a cookie and none repeats a completed login.
* `replay_and_missing_cookie` — a run where one does, and a callback
  without a cookie.
-/

namespace JobMon

open Keyed Runs

/-! ## Login sessions -/

/-- `UserSession` of `auth.go`; the user information in it is never set. -/
structure LoginSession where
  timestamp : Time := 0
  isValid : Bool := false
  deriving DecidableEq, Inhabited

/-- `sessions` of the `AuthManager`, by session ID. -/
abbrev LoginSessions := Map String LoginSession

/-- The session ID `GenerateSession` settles on: the first one drawn that is not taken.
The list is what `rand.Read` yields, up to its first failure. -/
def freshDraw (sessions : LoginSessions) : List String → Option String
  | [] => none
  | sessionID :: draws =>
    if (sessions.lookup sessionID).isSome then freshDraw sessions draws else some sessionID

/-- `GenerateSession`; `none` is an error. -/
def generateSession (now : Time) (sessions : LoginSessions) (draws : List String) :
    Option String × LoginSessions :=
  match freshDraw sessions draws with
  | some sessionID =>
    (some sessionID, sessions.upsert (sessionID, { isValid := true, timestamp := now }))
  | none => (none, sessions)

/-- `GetSession`: the zero session when there is none. -/
def getSession (sessions : LoginSessions) (sessionID : String) : LoginSession × Bool :=
  ((sessions.lookup sessionID).getD {}, (sessions.lookup sessionID).isSome)

/-! ## The provider -/

/-- A token of the provider. -/
structure OAuthToken where
  accessToken : String := ""
  /-- `token.Valid()`. -/
  valid : Bool := true
  deriving DecidableEq

/-- What the provider says about a user; the callback reads the name only. -/
structure OAuthUserInfo where
  username : String := ""
  deriving DecidableEq

/-- The answers of the provider; `none` is an error. -/
structure Provider where
  exchangeOAuthToken : String → Option OAuthToken
  getOAuthUserInfo : OAuthToken → Option OAuthUserInfo

/-- The user the provider names for a code, if it does. -/
def Provider.userFor (provider : Provider) (code : String) : Option OAuthUserInfo :=
  (provider.exchangeOAuthToken code).bind fun token =>
    if token.valid then provider.getOAuthUserInfo token else none

/-! ## Roles at a login -/

/-- Which of the store calls of a callback fail. -/
structure RoleCalls where
  readFails : Bool := false
  clearFails : Bool := false
  assignFails : Bool := false
  deriving DecidableEq

namespace Store

/-- `GetUserRoles`, which reports an error like a missing entry. -/
def readRoles (s : Store) (username : String) (fails : Bool) : List String × Bool :=
  if fails then ([], false)
  else
    match s.getUserRoles username with
    | some userRoles => (userRoles.roles, true)
    | none => ([], false)

/-- `SetUserRoles`, whose error is only logged. -/
def writeRoles (s : Store) (username : String) (roles : List String) (fails : Bool) : Store :=
  if fails then s else s.setUserRoles username roles

/-- The part of the callback that is about roles: read them, write an empty list when
that was not possible, and assign the user role when there are none. -/
def loginRoles (autoAssignUserRole : Bool) (calls : RoleCalls) (s : Store) (username : String) :
    List String × Store :=
  let (roles, ok) := s.readRoles username calls.readFails
  let s := if ok then s else s.writeRoles username [] calls.clearFails
  if roles.length = 0 ∧ autoAssignUserRole = true then
    ([USER], s.writeRoles username [USER] calls.assignFails)
  else (roles, s)

end Store

namespace OAuth

/-! ## The handlers -/

/-- The answer of a handler. -/
inductive Reply
  | redirect (url : String)
  | status (code : ℕ)
  /-- The handler ends in a nil dereference and sends nothing. -/
  | panic
  deriving DecidableEq

/-- A request to the callback. -/
structure CallbackRequest where
  now : Time
  /-- The `oauth_session` cookie. -/
  cookie : Option String
  state : String
  code : String
  provider : Provider
  calls : RoleCalls := {}

/-- The login sessions, the store, and what the protocol is about: the states handed
out by `GenerateSession`, and those of successful callbacks. -/
structure State where
  sessions : LoginSessions := Table.empty
  store : Store := {}
  generated : List String := []
  completed : List String := []

variable (auth : AuthManager) (config : Configuration) (authURL : String → String)

/-- `OAuthAvailable`: whether `createOAuthConfig` went through. -/
def oauthAvailable (c : OAuthConfig) : Bool :=
  c.clientID ≠ "" ∧ c.secret ≠ "" ∧ c.redirectURL ≠ "" ∧ c.authURL ≠ "" ∧ c.tokenURL ≠ "" ∧
    c.userInfoURL ≠ ""

/-- `LoginOAuth`: the answer, and the state. -/
def loginOAuth (st : State) (now : Time) (draws : List String) : Reply × State :=
  if oauthAvailable config.oAuth = false then (.status 400, st)
  else
    match generateSession now st.sessions draws with
    | (some sessionID, sessions) =>
      (.redirect (authURL sessionID),
        { st with sessions, generated := sessionID :: st.generated })
    | (none, sessions) => (.status 500, { st with sessions })

/-- `LoginOAuthCallback`: the answer, and the store. -/
def loginOAuthCallback (st : State) (req : CallbackRequest) : Reply × Store :=
  match req.cookie with
  -- the error of `Cookie` is dropped, and `sessionID.Value` reads a nil pointer
  | none => (.panic, st.store)
  | some sessionID =>
    if req.state ≠ sessionID then (.status 500, st.store)
    else
      let (session, ok) := getSession st.sessions req.state
      if session.isValid = false ∨ ok = false then (.status 500, st.store)
      else if req.code = "" then (.status 500, st.store)
      else
        match req.provider.exchangeOAuthToken req.code with
        | none => (.status 500, st.store)
        | some token =>
          if token.valid = false then (.status 500, st.store)
          else
            match req.provider.getOAuthUserInfo token with
            | none => (.status 500, st.store)
            | some userInfo =>
              let (roles, store) :=
                st.store.loginRoles config.autoAssignUserRole req.calls userInfo.username
              match auth.generateJWT req.now store { roles, username := userInfo.username } with
              | (none, store) => (.status 500, store)
              | (some _, store) => (.redirect config.oAuth.afterLoginRedirectUrl, store)

/-- What happens next. -/
inductive Event
  | loginOAuth (now : Time) (draws : List String)
  | callback (req : CallbackRequest)

/-- Whether an answer is the redirect of a successful callback. -/
def Reply.succeeds : Reply → Bool
  | redirect _ => true
  | _ => false

/-- One event. -/
def step (st : State) : Event → Option State
  | .loginOAuth now draws => some (loginOAuth config authURL st now draws).2
  | .callback req =>
    let (reply, store) := loginOAuthCallback auth config st req
    some { st with
      store
      completed := if reply.succeeds then req.state :: st.completed else st.completed }

/-! ## What a callback answers -/

/-- Signing with HS256 does not fail. -/
def Signs (jwt : JWT) : Prop := ∀ claims, jwt.signedString claims ≠ none

/-- The state of the request is that of the cookie and belongs to a valid session, and
the provider names a user for the code. -/
def Accepted (sessions : LoginSessions) (req : CallbackRequest) (userInfo : OAuthUserInfo) : Prop :=
  req.cookie = some req.state ∧
    (∃ session, sessions.lookup req.state = some session ∧ session.isValid = true) ∧
    req.code ≠ "" ∧ req.provider.userFor req.code = some userInfo

variable {auth config authURL}

theorem getSession_valid_iff {sessions : LoginSessions} {sessionID : String} :
    ¬ ((getSession sessions sessionID).1.isValid = false ∨
        (getSession sessions sessionID).2 = false) ↔
      ∃ session, sessions.lookup sessionID = some session ∧ session.isValid = true := by
  unfold getSession
  cases h : sessions.lookup sessionID with
  | none => simp
  | some session => simp

theorem userFor_eq_some_iff {provider : Provider} {code : String} {userInfo : OAuthUserInfo} :
    provider.userFor code = some userInfo ↔ ∃ token,
      provider.exchangeOAuthToken code = some token ∧ token.valid = true ∧
        provider.getOAuthUserInfo token = some userInfo := by
  unfold Provider.userFor
  rw [Option.bind_eq_some_iff]
  refine exists_congr fun token => and_congr_right fun _ => ?_
  by_cases hvalid : token.valid = true
  · simp [hvalid]
  · simp [hvalid]

theorem generateJWT_of_signs (hsigns : Signs auth.jwt) (now : Time) (s : Store) (user : UserInfo) :
    ∃ token s', auth.generateJWT now s user = (some token, s') := by
  unfold AuthManager.generateJWT
  obtain ⟨token, htoken⟩ := Option.ne_none_iff_exists'.1 (hsigns (auth.claimsFor now user))
  rw [htoken]
  exact ⟨token, _, rfl⟩

/-- A callback without a cookie. -/
theorem loginOAuthCallback_of_none {st : State} {req : CallbackRequest} (h : req.cookie = none) :
    loginOAuthCallback auth config st req = (.panic, st.store) := by
  simp only [loginOAuthCallback, h]

/-- A callback that is accepted succeeds. -/
theorem loginOAuthCallback_of_accepted (hsigns : Signs auth.jwt) {st : State}
    {req : CallbackRequest} {userInfo : OAuthUserInfo} (h : Accepted st.sessions req userInfo) :
    (loginOAuthCallback auth config st req).1 = .redirect config.oAuth.afterLoginRedirectUrl := by
  obtain ⟨hcookie, hsession, hcode, huser⟩ := h
  obtain ⟨token, htoken, hvalid, hinfo⟩ := userFor_eq_some_iff.1 huser
  obtain ⟨jwt, s', hjwt⟩ := generateJWT_of_signs hsigns req.now
    (st.store.loginRoles config.autoAssignUserRole req.calls userInfo.username).2
    { roles := (st.store.loginRoles config.autoAssignUserRole req.calls userInfo.username).1
      username := userInfo.username }
  simp only [loginOAuthCallback, hcookie, ne_eq, not_true_eq_false, if_false,
    getSession_valid_iff.2 hsession, hcode, htoken, hvalid, Bool.true_eq_false, hinfo, hjwt]

/-- Every other callback with a cookie is refused, and the store stays as it is. -/
theorem loginOAuthCallback_of_not_accepted {st : State} {req : CallbackRequest}
    (hcookie : req.cookie ≠ none) (h : ∀ userInfo, ¬ Accepted st.sessions req userInfo) :
    loginOAuthCallback auth config st req = (.status 500, st.store) := by
  obtain ⟨sessionID, hsome⟩ := Option.ne_none_iff_exists'.1 hcookie
  simp only [loginOAuthCallback, hsome]
  by_cases hstate : req.state = sessionID
  · rw [if_neg (not_not.2 hstate)]
    by_cases hsession : ∃ session, st.sessions.lookup req.state = some session ∧
        session.isValid = true
    · rw [if_neg (getSession_valid_iff.2 hsession)]
      by_cases hcode : req.code = ""
      · rw [if_pos hcode]
      · rw [if_neg hcode]
        cases htoken : req.provider.exchangeOAuthToken req.code with
        | none => rfl
        | some token =>
          by_cases hvalid : token.valid = false
          · exact if_pos hvalid
          · cases hinfo : req.provider.getOAuthUserInfo token with
            | none =>
              simp only [hvalid, hinfo, ite_self]
            | some userInfo =>
              refine absurd ⟨hstate ▸ hsome, hsession, hcode, ?_⟩ (h userInfo)
              exact userFor_eq_some_iff.2 ⟨token, htoken, by simpa using hvalid, hinfo⟩
    · rw [if_pos (not_not.1 (fun hc => hsession (getSession_valid_iff.1 hc)))]
  · rw [if_pos hstate]

/-! ## The sessions of a run -/

/-- The login sessions are those that were opened, all of them valid. -/
structure Sound (st : State) : Prop where
  lookup : ∀ sessionID, (∃ session, st.sessions.lookup sessionID = some session ∧
    session.isValid = true) ↔ sessionID ∈ st.generated
  completed : ∀ sessionID ∈ st.completed, sessionID ∈ st.generated

theorem sound_start (s : Store) : Sound { store := s } :=
  ⟨fun sessionID => iff_of_false (by rintro ⟨session, h, -⟩; cases h) List.not_mem_nil,
    fun sessionID h => by cases h⟩

theorem sound_loginOAuth {st : State} (h : Sound st) (now : Time) (draws : List String) :
    Sound (loginOAuth config authURL st now draws).2 := by
  unfold loginOAuth generateSession
  split
  · exact h
  cases hdraw : freshDraw st.sessions draws with
  | none => exact h
  | some drawn =>
    refine ⟨fun sessionID => ?_, fun sessionID hmem => List.mem_cons_of_mem _ (h.completed _ hmem)⟩
    show (∃ session, Map.lookup (st.sessions.upsert (drawn, _)) sessionID = some session ∧ _) ↔
      sessionID ∈ drawn :: st.generated
    rw [Map.lookup_upsert, List.mem_cons]
    by_cases hid : sessionID = drawn
    · rw [if_pos hid]
      exact iff_of_true ⟨_, rfl, rfl⟩ (Or.inl hid)
    · rw [if_neg hid, h.lookup]
      simp [hid]

/-- A successful callback was accepted. -/
theorem accepted_of_succeeds {st : State} {req : CallbackRequest}
    (h : (loginOAuthCallback auth config st req).1.succeeds = true) :
    ∃ userInfo, Accepted st.sessions req userInfo := by
  by_contra hnone
  rw [not_exists] at hnone
  by_cases hcookie : req.cookie = none
  · rw [loginOAuthCallback_of_none hcookie] at h
    cases h
  · rw [loginOAuthCallback_of_not_accepted hcookie hnone] at h
    cases h

/-- **Step.** -/
theorem Sound.step {st st' : State} {ev : Event} (h : Sound st)
    (hstep : step auth config authURL st ev = some st') : Sound st' := by
  cases ev with
  | loginOAuth now draws =>
    cases hstep
    exact sound_loginOAuth h now draws
  | callback req =>
    cases hstep
    refine ⟨h.lookup, fun sessionID hmem => ?_⟩
    have hcompleted : sessionID ∈ if (loginOAuthCallback auth config st req).1.succeeds = true then
        req.state :: st.completed else st.completed := hmem
    by_cases hsucceeds : (loginOAuthCallback auth config st req).1.succeeds = true
    · rw [if_pos hsucceeds] at hcompleted
      rcases List.mem_cons.1 hcompleted with rfl | hcompleted
      · obtain ⟨userInfo, -, hsession, -⟩ := accepted_of_succeeds hsucceeds
        exact (h.lookup _).1 hsession
      · exact h.completed _ hcompleted
    · rw [if_neg hsucceeds] at hcompleted
      exact h.completed _ hcompleted

/-! ## The protocol -/

/-- What the protocol asks of the answer to a callback: it succeeds only for a state that
is that of the cookie, was handed out, and has not been used; every other one is answered
with an error status and changes nothing. -/
def Answered (auth : AuthManager) (config : Configuration) (st : State) : Event → Prop
  | .loginOAuth _ _ => True
  | .callback req =>
    ((loginOAuthCallback auth config st req).1.succeeds = true →
      req.cookie = some req.state ∧ req.state ∈ st.generated ∧ req.state ∉ st.completed) ∧
    ((loginOAuthCallback auth config st req).1.succeeds = false →
      (∃ code, 400 ≤ code ∧ (loginOAuthCallback auth config st req).1 = .status code) ∧
        (loginOAuthCallback auth config st req).2 = st.store)

/-- The callback has a cookie, and a state that has been used does not come again with its
own cookie and a code the provider accepts. -/
def Careful (st : State) : Event → Prop
  | .loginOAuth _ _ => True
  | .callback req => req.cookie ≠ none ∧
    (req.state ∈ st.completed → req.cookie = some req.state → req.code ≠ "" →
      req.provider.userFor req.code = none)

/-- **Step.** -/
theorem answered_iff_careful (hsigns : Signs auth.jwt) {st : State} (h : Sound st) (ev : Event) :
    Answered auth config st ev ↔ Careful st ev := by
  cases ev with
  | loginOAuth now draws => exact Iff.rfl
  | callback req =>
    by_cases hcookie : req.cookie = none
    · -- the nil dereference
      refine iff_of_false (fun hanswered => ?_) fun hcareful => hcareful.1 hcookie
      have hpanic : loginOAuthCallback auth config st req = (.panic, st.store) :=
        loginOAuthCallback_of_none hcookie
      obtain ⟨⟨code, -, hstatus⟩, -⟩ := hanswered.2 (by rw [hpanic]; rfl)
      rw [hpanic] at hstatus
      cases hstatus
    by_cases haccepted : ∃ userInfo, Accepted st.sessions req userInfo
    · obtain ⟨userInfo, hacc⟩ := haccepted
      have hredirect : (loginOAuthCallback auth config st req).1 =
          .redirect config.oAuth.afterLoginRedirectUrl := loginOAuthCallback_of_accepted hsigns hacc
      have hsucceeds : (loginOAuthCallback auth config st req).1.succeeds = true := by
        rw [hredirect]
        rfl
      obtain ⟨hstate, hsession, hcode, huser⟩ := hacc
      constructor
      · intro hanswered
        refine ⟨hcookie, fun hused => absurd hused (hanswered.1 hsucceeds).2.2⟩
      · intro hcareful
        refine ⟨fun _ => ⟨hstate, (h.lookup _).1 hsession, fun hused => ?_⟩, fun hfails => ?_⟩
        · rw [hcareful.2 hused hstate hcode] at huser
          cases huser
        · rw [hsucceeds] at hfails
          cases hfails
    · rw [not_exists] at haccepted
      have hrefused : loginOAuthCallback auth config st req = (.status 500, st.store) :=
        loginOAuthCallback_of_not_accepted hcookie haccepted
      refine iff_of_true ⟨fun hsucceeds => ?_, fun _ => ?_⟩ ⟨hcookie, fun hused hstate hcode => ?_⟩
      · rw [hrefused] at hsucceeds
        cases hsucceeds
      · rw [hrefused]
        exact ⟨⟨500, by decide, rfl⟩, rfl⟩
      · by_contra huser
        obtain ⟨userInfo, hinfo⟩ := Option.ne_none_iff_exists'.1 huser
        exact haccepted userInfo
          ⟨hstate, (h.lookup _).2 (h.completed _ hused), hcode, hinfo⟩

/-- **The callback protocol.**  A run from the start in which every callback is answered as
the protocol asks is one in which every callback has a cookie and none repeats a completed
login. -/
theorem callbacks_iff (hsigns : Signs auth.jwt) (s : Store) (events : List Event) (st : State) :
    Run (Guarded (Answered auth config) (StepOf (step auth config authURL))) { store := s } events
        st ↔
      Run (Guarded Careful (StepOf (step auth config authURL))) { store := s } events st := by
  constructor
  · intro h
    exact h.guard_congr (sound_start s) (fun _ _ _ hs hstep => hs.step hstep.2)
      fun _ _ _ hs hstep => (answered_iff_careful hsigns hs _).1 hstep.1
  · intro h
    exact h.guard_congr (sound_start s) (fun _ _ _ hs hstep => hs.step hstep.2)
      fun _ _ _ hs hstep => (answered_iff_careful hsigns hs _).2 hstep.1

/-! ## A replay, and a callback without a cookie -/

/-- A library that signs with the user name. -/
def nameAuth : AuthManager :=
  { jwt := { signedString := fun claims => some claims.user.username
             parseWithClaims := fun _ _ => none }
    jsonWebTokenLifeTime := 0
    apiTokenLifeTime := 0 }

theorem nameAuth_signs : Signs nameAuth.jwt := fun _ h => by cases h

/-- A configuration with which OAuth is available. -/
def oauthRunning : Configuration :=
  { oAuth :=
      { clientID := "c", secret := "s", redirectURL := "r", authURL := "a", tokenURL := "t"
        userInfoURL := "u", afterLoginRedirectUrl := "/" } }

/-- The provider names the same user for every code. -/
def aliceProvider : Provider :=
  { exchangeOAuthToken := fun _ => some {}
    getOAuthUserInfo := fun _ => some { username := "alice" } }

/-- A browser comes back with the state it was given. -/
def aliceCallback : CallbackRequest :=
  { now := 0, cookie := some "s1", state := "s1", code := "c", provider := aliceProvider }

/-- The state after `LoginOAuth` has drawn `s1` and the callback has succeeded. -/
def afterCallback : State :=
  ((exec (step nameAuth oauthRunning id) {}
    [.loginOAuth 0 ["s1"], .callback aliceCallback]).getD {})

theorem callbacks_iff_aliceCallback :
    Run (Guarded (Answered nameAuth oauthRunning) (StepOf (step nameAuth oauthRunning id)))
        { store := {} } [.loginOAuth 0 ["s1"], .callback aliceCallback] afterCallback ↔
      Run (Guarded Careful (StepOf (step nameAuth oauthRunning id))) { store := {} }
        [.loginOAuth 0 ["s1"], .callback aliceCallback] afterCallback :=
  callbacks_iff nameAuth_signs {} [.loginOAuth 0 ["s1"], .callback aliceCallback] afterCallback

/-- The same callback succeeds again, and one without a cookie panics. -/
theorem replay_and_missing_cookie :
    Run (StepOf (step nameAuth oauthRunning id)) { store := {} }
        [.loginOAuth 0 ["s1"], .callback aliceCallback] afterCallback ∧
      afterCallback.completed = ["s1"] ∧
      (loginOAuthCallback nameAuth oauthRunning afterCallback aliceCallback).1 = .redirect "/" ∧
      ¬ Answered nameAuth oauthRunning afterCallback (.callback aliceCallback) ∧
      (loginOAuthCallback nameAuth oauthRunning {} { aliceCallback with cookie := none }).1 =
        .panic ∧
      ¬ Answered nameAuth oauthRunning {} (.callback { aliceCallback with cookie := none }) := by
  have hreplay : (loginOAuthCallback nameAuth oauthRunning afterCallback aliceCallback).1 =
      .redirect "/" := by decide
  have hpanic : (loginOAuthCallback nameAuth oauthRunning {}
      { aliceCallback with cookie := none }).1 = .panic := by decide
  refine ⟨run_exec_iff.2 rfl, by decide, hreplay, fun h => ?_, hpanic, fun h => ?_⟩
  · exact (h.1 (by rw [hreplay]; rfl)).2.2 (by decide)
  · obtain ⟨⟨code, -, hstatus⟩, -⟩ := h.2 (by rw [hpanic]; rfl)
    rw [hpanic] at hstatus
    cases hstatus

end OAuth

end JobMon
