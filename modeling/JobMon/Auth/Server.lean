import JobMon.Auth.Roles
import JobMon.Router.Confine
import JobMon.Router.System

/-!
# The backend as a server

Everything that reaches the backend from outside: logins, the OAuth login, and requests to
protected routes, which `Protected` answers by the cookie they bring.

* `authLocalUser`, `appendJWT`, `login` — the login of local users.
* `WebServer.step` — a login, a step of the OAuth login, a request, or a goroutine; a request
  is served for the user its token names, or refused.
* `answer`, `answer_cases`, `step_of_answer` — a request as the browser sees it.
* `Grant` — what an administrator has given to somebody, recorded with every request that
  is served.
* `rights_of_serve` — what a request does to sessions and roles.
* `login_cases`, `loginOAuthCallback_cases` — what a login does to them.
-/

namespace JobMon

open Keyed Runs

/-! ## Local users -/

/-- What `AuthManager` holds, with the comparison of bcrypt as a parameter. -/
structure Authentication extends AuthManager where
  localUsers : Map String LocalUser := Table.empty
  /-- `bcrypt.CompareHashAndPassword` returns no error. -/
  compareHashAndPassword : String → String → Bool

/-- `Init`. -/
def Authentication.init (jwt : JWT) (compareHashAndPassword : String → String → Bool)
    (c : Configuration) : Authentication :=
  { jwt
    jsonWebTokenLifeTime := c.jsonWebTokenLifeTime
    apiTokenLifeTime := c.apiTokenLifeTime
    localUsers := c.localUsers
    compareHashAndPassword }

/-- The `Authorization` cookie of a response. -/
structure AuthorizationCookie where
  value : String
  expires : Time
  deriving DecidableEq

section Login

variable (auth : Authentication)

/-- `AuthLocalUser`; `none` is an error. -/
def authLocalUser (username password : String) : Option UserInfo :=
  match auth.localUsers.lookup username with
  | none => none
  | some val =>
    if auth.compareHashAndPassword val.bCryptHash password then
      some { roles := [val.role], username }
    else none

/-- `AppendJWT`: the cookie lasts as long as the token of an ordinary user. -/
def appendJWT (now : Time) (s : Store) (user : UserInfo) : Option AuthorizationCookie × Store :=
  match auth.generateJWT now s user with
  | (some token, s) =>
    (some { value := "Bearer " ++ token, expires := now + auth.jsonWebTokenLifeTime }, s)
  | (none, s) => (none, s)

/-- `Login`: the status, the cookie, and the store. -/
def login (now : Time) (s : Store) : Body AuthPayload → ℕ × Option AuthorizationCookie × Store
  | .unreadable => (400, none, s)
  | .malformed _ => (400, none, s)
  | .decoded dat =>
    match authLocalUser auth dat.username dat.password with
    | none => (401, none, s)
    | some user =>
      if Utils.contains user.roles JOBCONTROL = true ∧ dat.frontendOnly = true then (401, none, s)
      else
        match appendJWT auth now s user with
        | (none, s) => (500, none, s)
        | (some cookie, s) => (200, some cookie, s)

end Login

/-! ## The server -/

/-- A role an administrator has given to a user. -/
structure Grant where
  admin : UserInfo
  username : String
  role : String
  deriving DecidableEq

/-- What a request that is served for `user` gives to whom: `SetUserConfig` stores the
roles of the body, `GenerateAPIKey` signs a token for the user of the API. -/
def Request.grants (user : UserInfo) : Request → List Grant
  | .setUserConfig target (.decoded body) =>
    if target = "" then [] else body.roles.map fun role => ⟨user, body.username, role⟩
  | .generateAPIKey => apiUser.roles.map fun role => ⟨user, apiUser.username, role⟩
  | _ => []

/-- The time, the backend with its goroutines, the login sessions, and the grants so far,
newest first. -/
structure WebServer where
  now : Time
  system : System
  sessions : LoginSessions := Table.empty
  grants : List Grant := []

namespace WebServer

/-- What happens next. -/
inductive Event
  | wait (d : ℕ)
  | login (body : Body AuthPayload)
  | loginOAuth (draws : List String)
  | callback (req : OAuth.CallbackRequest)
  /-- A request to a protected route, with its `Authorization` cookie. -/
  | request (out : Surroundings) (authorization : Option String) (req : Request)
  | runStop (i : ℕ) (env : Environment) (calls : StoreCalls)
  | runPrefetch (i : ℕ) (env : Environment)

def store (st : WebServer) : Store := st.system.backend.store

/-- The server with another store. -/
def withStore (st : WebServer) (store : Store) : WebServer :=
  { st with system := { st.system with backend := { st.system.backend with store } } }

@[simp] theorem store_withStore (st : WebServer) (s : Store) : (st.withStore s).store = s := rfl

@[simp] theorem grants_withStore (st : WebServer) (s : Store) :
    (st.withStore s).grants = st.grants := rfl

variable (auth : Authentication)

/-- The surroundings of a request, with the tokens the server signs. -/
def signing (st : WebServer) (out : Surroundings) : Surroundings :=
  { out with sign := fun user => (auth.generateJWT st.now st.store user).1 }

/-- Whether `Protected` lets a request through. -/
def access (st : WebServer) (authorization : Option String) (req : Request) : Access :=
  auth.protectedAccess st.now st.store authorization req.authLevel

/-- The answer to a callback and the store it leaves; a panic ends the request only. -/
def callback (st : WebServer) (req : OAuth.CallbackRequest) : OAuth.Reply × Store :=
  OAuth.loginOAuthCallback auth.toAuthManager st.system.backend.config
    { sessions := st.sessions, store := st.store } { req with now := st.now }

/-- One event; nothing comes after the end of the process. -/
def step (st : WebServer) : Event → Option WebServer
  | .wait d => some { st with now := st.now + d }
  | .login body => some (st.withStore (JobMon.login auth st.now st.store body).2.2)
  | .loginOAuth draws =>
    if OAuth.oauthAvailable st.system.backend.config.oAuth = false then some st
    else some { st with sessions := (generateSession st.now st.sessions draws).2 }
  | .callback req => some (st.withStore (st.callback auth req).2)
  | .request out authorization req =>
    match st.access auth authorization req with
    | .refused _ => some st
    | .executes user =>
      (st.system.step (.request (st.signing auth out) user req)).map fun system =>
        { st with system, grants := req.grants user ++ st.grants }
  | .runStop i env calls => (st.system.step (.runStop i env calls)).map fun system =>
      { st with system }
  | .runPrefetch i env => (st.system.step (.runPrefetch i env)).map fun system =>
      { st with system }

/-- What a browser gets for a request to a protected route. -/
inductive Answer
  | refused (code : ℕ)
  | response (r : Response)
  deriving DecidableEq

/-- The answer to a request, and the server after it. -/
def answer (out : Surroundings) (st : WebServer) (authorization : Option String) (req : Request) :
    Answer × WebServer :=
  match st.access auth authorization req with
  | .refused code => (.refused code, st)
  | .executes user =>
    let (response, backend, task) := serve (st.signing auth out) st.system.backend user req
    (.response response,
      { st with
        system := { st.system with backend, stops := st.system.stops ++ task.toList }
        grants := req.grants user ++ st.grants })

/-- The server as it starts up, with the store it finds. -/
def start (now : Time) (c : Configuration) (s : Store) : WebServer :=
  { now, system := .start c s }

variable {auth}

/-- **An answer comes with the step of the server**, unless the process ends. -/
theorem step_of_answer (out : Surroundings) (st : WebServer) (authorization : Option String)
    (req : Request) (halive : (st.answer auth out authorization req).1 ≠ .response .crash) :
    st.step auth (.request out authorization req) =
      some (st.answer auth out authorization req).2 := by
  unfold answer at halive ⊢
  simp only [WebServer.step]
  cases haccess : st.access auth authorization req with
  | refused code => rfl
  | executes user =>
    simp only [haccess] at halive
    cases hserve : serve (st.signing auth out) st.system.backend user req with
    | mk response rest =>
      rw [hserve] at halive
      cases response with
      | crash => exact absurd rfl halive
      | status code payload =>
        simp only [System.step, hserve]
        rfl
      | upgraded =>
        simp only [System.step, hserve]
        rfl

/-- **A request is refused, or handled for the user its cookie names.** -/
theorem answer_cases (auth : Authentication) (out : Surroundings) (st : WebServer)
    (authorization : Option String) (req : Request) :
    (∃ code, st.access auth authorization req = .refused code ∧
      st.answer auth out authorization req = (.refused code, st)) ∨
    ∃ user response backend task, st.access auth authorization req = .executes user ∧
      handle (st.signing auth out) st.system.backend user req = (response, backend, task) ∧
      st.answer auth out authorization req =
        (.response response,
          { st with
            system := { st.system with backend, stops := st.system.stops ++ task.toList }
            grants := req.grants user ++ st.grants }) := by
  unfold answer
  cases haccess : st.access auth authorization req with
  | refused code => exact Or.inl ⟨code, rfl, rfl⟩
  | executes user =>
    have hserve : serve (st.signing auth out) st.system.backend user req =
        handle (st.signing auth out) st.system.backend user req :=
      Session.serve_of_executes (b := st.system.backend) haccess
    obtain ⟨response, backend, task, hhandle⟩ : ∃ response backend task,
        handle (st.signing auth out) st.system.backend user req = (response, backend, task) :=
      ⟨_, _, _, rfl⟩
    refine Or.inr ⟨user, response, backend, task, rfl, hhandle, ?_⟩
    simp only [hserve, hhandle]

/-- Refusals are 401 and 403. -/
theorem code_of_refused {now : Time} {s : Store} {authorization : Option String}
    {authLevel : String} {code : ℕ}
    (h : auth.protectedAccess now s authorization authLevel = .refused code) :
    code = 401 ∨ code = 403 := by
  unfold AuthManager.protectedAccess at h
  split at h
  · cases h
    exact Or.inl rfl
  · split at h
    · split_ifs at h
      · cases h
        exact Or.inl rfl
      · split at h
        · cases h
          exact Or.inl rfl
        · split_ifs at h
          cases h
          exact Or.inr rfl
    · cases h
      exact Or.inl rfl

end WebServer

/-! ## What a request does to sessions and roles -/

/-- What a request may do to the two tables. -/
inductive Rights (sign : UserInfo → Option String) (s : Store) : Request → Store → Prop
  | same {req : Request} {s' : Store} (hsessions : s'.userSessions = s.userSessions)
      (hroles : s'.userRoles = s.userRoles) : Rights sign s req s'
  | logout (dat : AuthPayload) :
      Rights sign s (.logout (.decoded dat)) (s.removeUserSession dat.username)
  | apiKey {token : String} (h : sign apiUser = some token) :
      Rights sign s .generateAPIKey (s.setUserSessionToken apiUser.username token)
  | roles {target : String} (h : target ≠ "") (body : UserRoles) :
      Rights sign s (.setUserConfig target (.decoded body))
        (s.setUserRoles body.username body.roles)

section Requests

variable {b : Backend} {user : UserInfo} {sign : UserInfo → Option String}

theorem Rights.of_sameRights {req : Request} {b' : Backend} (h : b.SameRights b') :
    Rights sign b.store req b'.store := .same h.sessions h.roles

theorem rights_addTag (jobStr : String) (body : Body JobTag) :
    Rights sign b.store (.addTag jobStr body) (addTag b user jobStr body).2.store := by
  unfold addTag
  split
  · exact .same rfl rfl
  · rename_i j tag _
    have htables := Store.addTag_userTables b.store j.id (userTag user tag)
    exact .same (by rw [store_retag, htables.1]) (by rw [store_retag, htables.2])

theorem rights_removeTag (jobStr : String) (body : Body JobTag) :
    Rights sign b.store (.removeTag jobStr body) (removeTag b jobStr body).2.store := by
  unfold removeTag
  split
  · exact .same rfl rfl
  · exact .same (by rw [store_retag]; rfl) (by rw [store_retag]; rfl)

theorem rights_logout (body : Body AuthPayload) :
    Rights sign b.store (.logout body) (logout b body).2.store := by
  cases body with
  | unreadable => exact .same rfl rfl
  | malformed text => exact .same rfl rfl
  | decoded dat =>
    simp only [logout]
    split_ifs
    · exact .same rfl rfl
    · exact .logout dat

theorem rights_generateAPIKey :
    Rights sign b.store .generateAPIKey (generateAPIKey sign b).2.store := by
  unfold generateAPIKey
  split
  · exact .same rfl rfl
  · rename_i token h
    exact .apiKey h

theorem rights_setUserConfig (target : String) (body : Body UserRoles) :
    Rights sign b.store (.setUserConfig target body) (setUserConfig b target body).2.store := by
  unfold setUserConfig
  split_ifs with htarget
  · exact .same rfl rfl
  · cases body with
    | unreadable => exact .same rfl rfl
    | malformed text => exact .same rfl rfl
    | decoded user => exact .roles htarget user

/-- **A request changes sessions and roles in one of these ways.** -/
theorem rights_of_serve (out : Surroundings) (b : Backend) (user : UserInfo) (req : Request) :
    Rights out.sign b.store req (serve out b user req).2.1.store := by
  unfold serve
  split
  · cases req with
    | jobStart body => exact .of_sameRights (same_jobStart body)
    | getJob req => exact .of_sameRights (same_getJob out.env req)
    | logout body => exact rights_logout body
    | generateAPIKey => exact rights_generateAPIKey
    | addTag job body => exact rights_addTag job body
    | removeTag job body => exact rights_removeTag job body
    | updateConfig body => exact .of_sameRights (same_updateConfig out.newUUID body)
    | refreshMetadata id => exact .of_sameRights (same_refreshMetadata out.env id)
    | setUserConfig u body => exact rights_setUserConfig u body
    | _ => exact .same rfl rfl
  · exact .same rfl rfl

end Requests

/-! ## What a login does to them -/

section Logins

variable (auth : Authentication)

/-- A login leaves the store alone, or signs a token for a local user. -/
theorem login_cases (now : Time) (s : Store) (body : Body AuthPayload) :
    (login auth now s body).2.2 = s ∨
      ∃ (username : String) (val : LocalUser), auth.localUsers.lookup username = some val ∧
        (login auth now s body).2.2 =
          (auth.generateJWT now s { roles := [val.role], username }).2 := by
  cases body with
  | unreadable => exact Or.inl rfl
  | malformed text => exact Or.inl rfl
  | decoded dat =>
    cases hlookup : auth.localUsers.lookup dat.username with
    | none => exact Or.inl (by simp [login, authLocalUser, hlookup])
    | some val =>
      by_cases hpassword : auth.compareHashAndPassword val.bCryptHash dat.password = true
      · by_cases hfrontend : val.role = JOBCONTROL ∧ dat.frontendOnly = true
        · left
          simp [login, authLocalUser, hlookup, hpassword, hfrontend]
        · right
          refine ⟨dat.username, val, hlookup, ?_⟩
          simp only [login, authLocalUser, hlookup, hpassword, if_true, appendJWT,
            Utils.contains_eq_true_iff, List.mem_singleton, eq_comm (a := JOBCONTROL),
            if_neg hfrontend]
          cases hjwt : auth.generateJWT now s { roles := [val.role], username := dat.username } with
          | mk token s' => cases token <;> rfl
      · left
        simp [login, authLocalUser, hlookup, hpassword]

/-- A callback leaves the store alone, or writes roles and signs a token for them. -/
theorem loginOAuthCallback_cases (config : Configuration) (st : OAuth.State)
    (req : OAuth.CallbackRequest) :
    (OAuth.loginOAuthCallback auth.toAuthManager config st req).2 = st.store ∨
      ∃ username : String, (OAuth.loginOAuthCallback auth.toAuthManager config st req).2 =
        (auth.generateJWT req.now
          (st.store.loginRoles config.autoAssignUserRole req.calls username).2
          { roles := (st.store.loginRoles config.autoAssignUserRole req.calls username).1
            username }).2 := by
  by_cases hcookie : req.cookie = none
  · exact Or.inl (by rw [OAuth.loginOAuthCallback_of_none hcookie])
  by_cases haccepted : ∃ userInfo, OAuth.Accepted st.sessions req userInfo
  · obtain ⟨userInfo, hstate, hsession, hcode, huser⟩ := haccepted
    obtain ⟨token, htoken, hvalid, hinfo⟩ := OAuth.userFor_eq_some_iff.1 huser
    right
    refine ⟨userInfo.username, ?_⟩
    simp only [OAuth.loginOAuthCallback, hstate, ne_eq, not_true_eq_false, if_false,
      OAuth.getSession_valid_iff.2 hsession, hcode, htoken, hvalid, Bool.true_eq_false, hinfo]
    cases hjwt : auth.generateJWT req.now
        (st.store.loginRoles config.autoAssignUserRole req.calls userInfo.username).2
        { roles := (st.store.loginRoles config.autoAssignUserRole req.calls userInfo.username).1
          username := userInfo.username } with
    | mk token s' => cases token <;> rfl
  · exact Or.inl (by
      rw [OAuth.loginOAuthCallback_of_not_accepted hcookie (not_exists.1 haccepted)])

end Logins

end JobMon
