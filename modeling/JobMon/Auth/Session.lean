import JobMon.Lib.Runs
import JobMon.Router.Write

/-!
# Sessions

`auth.go`: a token is signed for a user (`GenerateJWT`), kept in the session table,
and asked for by `Protected` on every request to a handler.

* `generateJWT`, `validate`, `protectedAccess` — the methods; the signing library is
  a parameter, `JWT.Documented` what it is relied on for.
* `Event`, `step` — time passing, calls that sign or log out, and requests to
  protected handlers, which make such calls themselves.
* `Consistent` — in every reachable state the session table is what the log of the
  run says, user by user.
* `session_law` — a handler is executed for a user exactly when the cookie holds the
  token of the latest issue for this user, the user has not logged out since, the
  token has not expired, and the role is there.
-/

namespace JobMon

open Keyed Runs

/-! ## Tokens -/

/-- The issuer of the tokens. -/
def ISSUER : String := "monitoring-backend"

/-- `jwt.NewNumericDate`: whole seconds. -/
def numericDate (t : Time) : Time := t / Go.second * Go.second

theorem numericDate_le (t : Time) : numericDate t ≤ t :=
  Int.ediv_mul_le t (by decide)

/-- What is signed. -/
structure UserClaims where
  user : UserInfo
  expiresAt : Time
  issuedAt : Time
  issuer : String
  deriving DecidableEq

/-- The library that signs, with the secret of the backend and HS256. -/
structure JWT where
  /-- `SignedString`; `none` is an error. -/
  signedString : UserClaims → Option String
  /-- `ParseWithClaims` at a given time; `none` is an error. -/
  parseWithClaims : Time → String → Option UserClaims

/-- What is documented of the library. -/
structure JWT.Documented (jwt : JWT) : Prop where
  /-- A token is accepted when it was signed and the time is right. -/
  accepts : ∀ t token claims, jwt.parseWithClaims t token = some claims ↔
    jwt.signedString claims = some token ∧ claims.issuedAt ≤ t ∧ t < claims.expiresAt
  /-- The claims are part of the token. -/
  readable : ∀ claims claims' token, jwt.signedString claims = some token →
    jwt.signedString claims' = some token → claims = claims'
  /-- A token is made of Base64 characters and dots. -/
  noSpace : ∀ claims token, jwt.signedString claims = some token → ' ' ∉ token.toList

/-- What `AuthManager` holds for this. -/
structure AuthManager where
  jwt : JWT
  jsonWebTokenLifeTime : Go.Duration
  apiTokenLifeTime : Go.Duration

/-- Why a token is refused. -/
inductive ValidateError
  | parse
  | issuer
  | revoked
  deriving DecidableEq

/-- The text of the error; that of the library is its own. -/
def ValidateError.message : ValidateError → Option String
  | parse => none
  | issuer => some "issuer does not match"
  | revoked => some "session was revoked"

/-- What `Protected` does with a request: the handler, or a status code, and then the
cookie is cleared. -/
inductive Access
  | executes (user : UserInfo)
  | refused (code : ℕ)
  deriving DecidableEq

namespace AuthManager

variable (auth : AuthManager)

/-- The life time of the token of a user: longer for the users of the API. -/
def lifeTime (user : UserInfo) : Go.Duration :=
  if Utils.contains user.roles JOBCONTROL then auth.apiTokenLifeTime
  else auth.jsonWebTokenLifeTime

/-- The claims `GenerateJWT` signs. -/
def claimsFor (now : Time) (user : UserInfo) : UserClaims :=
  { user
    expiresAt := numericDate (now + auth.lifeTime user)
    issuedAt := numericDate now
    issuer := ISSUER }

/-- `GenerateJWT`: the token and the store; `none` is an error. -/
def generateJWT (now : Time) (s : Store) (user : UserInfo) : Option String × Store :=
  match auth.jwt.signedString (auth.claimsFor now user) with
  | some token => (some token, s.setUserSessionToken user.username token)
  | none => (none, s)

/-- `Logout`. -/
def logout (s : Store) (username : String) : Store := s.removeUserSession username

/-- `validate`. -/
def validate (now : Time) (s : Store) (tokenStr : String) : Except ValidateError UserInfo :=
  match auth.jwt.parseWithClaims now tokenStr with
  | none => .error .parse
  | some claims =>
    if claims.issuer ≠ ISSUER then .error .issuer
    else if s.getUserSessionToken claims.user.username ≠ some tokenStr then .error .revoked
    else .ok claims.user

/-- `Protected`, up to the call of the handler; `authorization` is the value of the
cookie. -/
def protectedAccess (now : Time) (s : Store) (authorization : Option String) (authLevel : String) :
    Access :=
  match authorization with
  | none => .refused 401
  | some value =>
    match Go.split value ' ' with
    | [scheme, tokenStr] =>
      if scheme ≠ "Bearer" then .refused 401
      else
        match auth.validate now s tokenStr with
        | .error _ => .refused 401
        | .ok user => if user.permitted authLevel then .executes user else .refused 403
    | _ => .refused 401

end AuthManager

/-! ## Runs -/

namespace Session

/-- A call that changes the session table: a login, the API key, or a logout. -/
inductive Call
  | generateJWT (user : UserInfo)
  | logout (username : String)
  deriving DecidableEq

/-- A request to a protected handler, and the calls the handler makes. -/
structure ProtectedRequest where
  /-- The `Authorization` cookie. -/
  authorization : Option String
  authLevel : String
  handler : UserInfo → List Call

/-- What happens next. -/
inductive Event
  | wait (d : ℕ)
  | call (c : Call)
  | request (req : ProtectedRequest)

/-- What has become of a call. -/
inductive Record
  | issued (user : UserInfo) (token : String) (expiresAt : Time)
  | loggedOut (username : String)
  deriving DecidableEq

/-- The user a record is about. -/
def Record.username : Record → String
  | issued user _ _ => user.username
  | loggedOut username => username

/-- The time, the store, and what has been done so far, newest first. -/
structure State where
  now : Time
  store : Store
  log : List Record := []

variable (auth : AuthManager)

/-- One call. -/
def runCall (st : State) : Call → State
  | .generateJWT user =>
    match auth.generateJWT st.now st.store user with
    | (some token, store) =>
      { st with
        store
        log := .issued user token (auth.claimsFor st.now user).expiresAt :: st.log }
    | (none, store) => { st with store }
  | .logout username =>
    { st with
      store := AuthManager.logout st.store username
      log := .loggedOut username :: st.log }

/-- A request: the handler runs when it is executed, and nothing happens when not. -/
def runRequest (st : State) (req : ProtectedRequest) : State :=
  match auth.protectedAccess st.now st.store req.authorization req.authLevel with
  | .executes user => (req.handler user).foldl (runCall auth) st
  | .refused _ => st

/-- One event. -/
def step (st : State) : Event → Option State
  | .wait d => some { st with now := st.now + d }
  | .call c => some (runCall auth st c)
  | .request req => some (runRequest auth st req)

/-- The start of the history: a store without sessions. -/
def start (t₀ : Time) (s : Store) : State :=
  { now := t₀, store := { s with userSessions := Table.empty } }

/-! ## The log and the table -/

/-- The latest thing done for a user. -/
def latest (log : List Record) (username : String) : Option Record :=
  log.find? fun r => r.username = username

/-- The token is the one returned by the latest issue for `user.username`, without a
logout since; it was issued for `user`. -/
def LiveToken (log : List Record) (user : UserInfo) (token : String) (expiresAt : Time) : Prop :=
  latest log user.username = some (.issued user token expiresAt)

instance (log : List Record) (user : UserInfo) (token : String) (expiresAt : Time) :
    Decidable (LiveToken log user token expiresAt) := inferInstanceAs (Decidable (_ = _))

/-- Nothing was done for the user after the issue of a live token. -/
theorem liveToken_iff {log : List Record} {user : UserInfo} {token : String} {expiresAt : Time} :
    LiveToken log user token expiresAt ↔
      ∃ later earlier, log = later ++ .issued user token expiresAt :: earlier ∧
        ∀ r ∈ later, r.username ≠ user.username := by
  rw [LiveToken, latest, List.find?_eq_some_iff_append]
  constructor
  · rintro ⟨-, later, earlier, hlog, hlater⟩
    exact ⟨later, earlier, hlog, fun r hr => by simpa using hlater r hr⟩
  · rintro ⟨later, earlier, hlog, hlater⟩
    refine ⟨decide_eq_true rfl, later, earlier, hlog, fun r hr => ?_⟩
    simpa using hlater r hr

/-- The token a record leaves in the session table. -/
def Record.token? : Record → Option String
  | issued _ token _ => some token
  | loggedOut _ => none

/-- A record of an issue is about claims that were signed. -/
def Record.Genuine (now : Time) : Record → Prop
  | issued user token expiresAt => ∃ claims, auth.jwt.signedString claims = some token ∧
      claims.user = user ∧ claims.expiresAt = expiresAt ∧ claims.issuer = ISSUER ∧
      claims.issuedAt ≤ now
  | loggedOut _ => True

/-- **The invariant**: the session table holds what the log says, and every issue in the
log was signed. -/
structure Consistent (st : State) : Prop where
  table : ∀ username, st.store.getUserSessionToken username =
    (latest st.log username).bind Record.token?
  genuine : ∀ r ∈ st.log, r.Genuine auth st.now

variable {auth}

theorem Record.Genuine.mono {now now' : Time} {r : Record} (h : r.Genuine auth now)
    (hle : now ≤ now') : r.Genuine auth now' := by
  cases r with
  | issued user token expiresAt =>
    obtain ⟨claims, hsigned, huser, hexp, hissuer, hiat⟩ := h
    exact ⟨claims, hsigned, huser, hexp, hissuer, le_trans hiat hle⟩
  | loggedOut username => trivial

theorem latest_cons (r : Record) (log : List Record) (username : String) :
    latest (r :: log) username = if r.username = username then some r else latest log username := by
  rw [latest, List.find?_cons]
  by_cases h : r.username = username
  · simp [h]
  · simp [h, latest]

theorem getUserSessionToken_set (s : Store) (username token username' : String) :
    (s.setUserSessionToken username token).getUserSessionToken username' =
      if username = username' then some token else s.getUserSessionToken username' := by
  show ((s.userSessions.upsert _).get? username').map UserSession.token = _
  rw [Table.get?_upsert]
  by_cases h : username = username'
  · rw [if_pos h.symm, if_pos h]
    rfl
  · rw [if_neg (Ne.symm h), if_neg h]
    rfl

theorem getUserSessionToken_remove (s : Store) (username username' : String) :
    (s.removeUserSession username).getUserSessionToken username' =
      if username = username' then none else s.getUserSessionToken username' := by
  show ((s.userSessions.erase username).get? username').map UserSession.token = _
  rw [Table.get?_erase]
  by_cases h : username = username'
  · rw [if_pos h.symm, if_pos h]
    rfl
  · rw [if_neg (Ne.symm h), if_neg h]
    rfl

theorem genuine_claimsFor {now : Time} {user : UserInfo} {token : String}
    (h : auth.jwt.signedString (auth.claimsFor now user) = some token) :
    (Record.issued user token (auth.claimsFor now user).expiresAt).Genuine auth now :=
  ⟨_, h, rfl, rfl, rfl, numericDate_le now⟩

/-- Logging a record together with what it does to the table. -/
theorem Consistent.cons {st : State} (h : Consistent auth st) {r : Record} {store : Store}
    (htable : ∀ username, store.getUserSessionToken username =
      if r.username = username then r.token? else st.store.getUserSessionToken username)
    (hr : r.Genuine auth st.now) : Consistent auth { st with store, log := r :: st.log } := by
  constructor
  · intro username
    show store.getUserSessionToken username = (latest (r :: st.log) username).bind Record.token?
    rw [htable, latest_cons]
    by_cases hu : r.username = username
    · rw [if_pos hu, if_pos hu]
      rfl
    · rw [if_neg hu, if_neg hu]
      exact h.table username
  · intro r' hr'
    rcases List.mem_cons.1 hr' with rfl | hr'
    · exact hr
    · exact h.genuine r' hr'

theorem runCall_of_signed {st : State} {user : UserInfo} {token : String}
    (h : auth.jwt.signedString (auth.claimsFor st.now user) = some token) :
    runCall auth st (.generateJWT user) =
      { st with
        store := st.store.setUserSessionToken user.username token
        log := .issued user token (auth.claimsFor st.now user).expiresAt :: st.log } := by
  simp only [runCall, AuthManager.generateJWT, h]

theorem runCall_of_unsigned {st : State} {user : UserInfo}
    (h : auth.jwt.signedString (auth.claimsFor st.now user) = none) :
    runCall auth st (.generateJWT user) = st := by
  simp only [runCall, AuthManager.generateJWT, h]

/-- **Step**, for a call. -/
theorem Consistent.runCall {st : State} (h : Consistent auth st) (c : Call) :
    Consistent auth (runCall auth st c) := by
  cases c with
  | generateJWT user =>
    cases hsigned : auth.jwt.signedString (auth.claimsFor st.now user) with
    | none =>
      rw [runCall_of_unsigned hsigned]
      exact h
    | some token =>
      rw [runCall_of_signed hsigned]
      exact h.cons (fun username => getUserSessionToken_set st.store user.username token username)
        (genuine_claimsFor hsigned)
  | logout username =>
    exact h.cons (fun username' => getUserSessionToken_remove st.store username username') trivial

theorem Consistent.runCalls {st : State} (h : Consistent auth st) (calls : List Call) :
    Consistent auth (calls.foldl (Session.runCall auth) st) := by
  induction calls generalizing st with
  | nil => exact h
  | cons c calls ih => exact ih (h.runCall c)

/-- **Step.** -/
theorem Consistent.step {st st' : State} {ev : Event} (h : Consistent auth st)
    (hstep : step auth st ev = some st') : Consistent auth st' := by
  cases ev with
  | wait d =>
    cases hstep
    have hlater : st.now ≤ st.now + d := Int.le_add_of_nonneg_right (Int.natCast_nonneg d)
    exact ⟨h.table, fun r hr => (h.genuine r hr).mono hlater⟩
  | call c =>
    cases hstep
    exact h.runCall c
  | request req =>
    cases hstep
    unfold runRequest
    split
    · exact h.runCalls _
    · exact h

/-- **Run.** -/
theorem consistent_of_run {t₀ : Time} {s : Store} {events : List Event} {st : State}
    (hrun : Run (StepOf (step auth)) (start t₀ s) events st) : Consistent auth st := by
  refine hrun.invariant ?_ fun _ _ _ h hstep => h.step hstep
  refine ⟨fun username => ?_, fun r hr => by cases hr⟩
  rfl

/-! ## The law -/

theorem split_bearer_iff {value token : String} :
    Go.split value ' ' = ["Bearer", token] ↔
      value = "Bearer " ++ token ∧ ' ' ∉ token.toList := by
  have hjoin : (String.singleton ' ').intercalate ["Bearer", token] = "Bearer " ++ token := by
    rw [← String.toList_inj, String.toList_intercalate]
    simp
  constructor
  · intro h
    refine ⟨?_, Go.not_mem_of_mem_split (s := value) (by rw [h]; simp)⟩
    rw [← Go.intercalate_split value ' ', h, hjoin]
  · rintro ⟨rfl, htoken⟩
    rw [← hjoin]
    refine Go.split_intercalate ?_ (by simp)
    intro part hpart
    rcases List.mem_pair.1 hpart with rfl | rfl
    · decide
    · exact htoken

/-- What `Protected` asks of a cookie. -/
theorem protectedAccess_eq_executes_iff {now : Time} {s : Store} {authorization : Option String}
    {authLevel : String} {user : UserInfo} :
    auth.protectedAccess now s authorization authLevel = .executes user ↔
      ∃ value token, authorization = some value ∧ Go.split value ' ' = ["Bearer", token] ∧
        auth.validate now s token = .ok user ∧ user.permitted authLevel = true := by
  unfold AuthManager.protectedAccess
  cases authorization with
  | none => simp
  | some value =>
    constructor
    · intro h
      dsimp only at h
      split at h
      · rename_i scheme token hsplit
        by_cases hscheme : scheme = "Bearer"
        · rw [if_neg (not_not.2 hscheme)] at h
          cases hvalid : auth.validate now s token with
          | error e => simp [hvalid] at h
          | ok user' =>
            simp only [hvalid] at h
            by_cases hrole : user'.permitted authLevel = true
            · rw [if_pos hrole] at h
              cases h
              exact ⟨value, token, rfl, hscheme ▸ hsplit, hvalid, hrole⟩
            · rw [if_neg hrole] at h
              cases h
        · rw [if_pos hscheme] at h
          cases h
      · cases h
    · rintro ⟨value', token, hvalue, hsplit, hvalid, hrole⟩
      cases hvalue
      simp only [hsplit, ne_eq, not_true_eq_false, if_false, hvalid, hrole, if_true]

/-- A token is valid for a user exactly when it is the live one and has not expired. -/
theorem validate_eq_ok_iff (hlib : auth.jwt.Documented) {st : State} (h : Consistent auth st)
    {token : String} {user : UserInfo} :
    auth.validate st.now st.store token = .ok user ↔
      ∃ expiresAt, LiveToken st.log user token expiresAt ∧ st.now < expiresAt := by
  constructor
  · intro hvalid
    unfold AuthManager.validate at hvalid
    cases hparse : auth.jwt.parseWithClaims st.now token with
    | none => simp [hparse] at hvalid
    | some claims =>
      simp only [hparse] at hvalid
      split at hvalid
      · cases hvalid
      split at hvalid
      · cases hvalid
      rename_i hstored
      cases hvalid
      obtain ⟨hsigned, -, hexp⟩ := (hlib.accepts _ _ _).1 hparse
      have htable := h.table claims.user.username
      rw [not_not.1 hstored] at htable
      cases hlatest : latest st.log claims.user.username with
      | none => simp [hlatest] at htable
      | some r =>
        rw [hlatest] at htable
        cases r with
        | loggedOut username => cases htable
        | issued user' token' expiresAt =>
          cases htable
          -- the claims in the log are those of the token
          obtain ⟨claims', hsigned', huser, hexp', -, -⟩ :=
            h.genuine _ (List.mem_of_find?_eq_some hlatest)
          have hsame := hlib.readable _ _ _ hsigned hsigned'
          rw [hsame] at hlatest hexp ⊢
          rw [huser] at hlatest ⊢
          exact ⟨expiresAt, hlatest, hexp' ▸ hexp⟩
  · rintro ⟨expiresAt, hlive, hexp⟩
    obtain ⟨claims, hsigned, rfl, rfl, hissuer, hiat⟩ :=
      h.genuine _ (List.mem_of_find?_eq_some hlive)
    have hparse := (hlib.accepts st.now token claims).2 ⟨hsigned, hiat, hexp⟩
    have hstored : st.store.getUserSessionToken claims.user.username = some token := by
      rw [h.table, show latest st.log claims.user.username = _ from hlive]
      rfl
    unfold AuthManager.validate
    simp only [hparse]
    rw [if_neg (not_not.2 hissuer), if_neg (not_not.2 hstored)]

theorem permitted_iff {user : UserInfo} {authLevel : String} :
    user.permitted authLevel = true ↔ ADMIN ∈ user.roles ∨ authLevel ∈ user.roles := by
  rw [UserInfo.permitted, Bool.or_eq_true, Utils.contains_eq_true_iff, Utils.contains_eq_true_iff]

/-- **The law of sessions.**  In every state a run can reach, a request to a protected
handler executes it for `user` exactly when its cookie is `Bearer ` and the live token
of this user, the token has not expired, and the user has the role; when no handler is
executed the session table stays as it is. -/
theorem session_law (hlib : auth.jwt.Documented) {t₀ : Time} {s : Store} {events : List Event}
    {st : State} (hrun : Run (StepOf (step auth)) (start t₀ s) events st)
    (req : ProtectedRequest) :
    (∀ user, auth.protectedAccess st.now st.store req.authorization req.authLevel = .executes user ↔
      ∃ token expiresAt, req.authorization = some ("Bearer " ++ token) ∧
        LiveToken st.log user token expiresAt ∧ st.now < expiresAt ∧
        (ADMIN ∈ user.roles ∨ req.authLevel ∈ user.roles)) ∧
      ((∀ user, auth.protectedAccess st.now st.store req.authorization req.authLevel ≠
          .executes user) →
        (runRequest auth st req).store.userSessions = st.store.userSessions) := by
  have hcons := consistent_of_run hrun
  constructor
  · intro user
    rw [protectedAccess_eq_executes_iff]
    constructor
    · rintro ⟨value, token, hvalue, hsplit, hvalid, hrole⟩
      obtain ⟨expiresAt, hlive, hexp⟩ := (validate_eq_ok_iff hlib hcons).1 hvalid
      rw [(split_bearer_iff.1 hsplit).1] at hvalue
      exact ⟨token, expiresAt, hvalue, hlive, hexp, permitted_iff.1 hrole⟩
    · rintro ⟨token, expiresAt, hvalue, hlive, hexp, hrole⟩
      obtain ⟨claims, hsigned, -⟩ := hcons.genuine _ (List.mem_of_find?_eq_some hlive)
      refine ⟨_, token, hvalue, split_bearer_iff.2 ⟨rfl, hlib.noSpace _ _ hsigned⟩, ?_,
        permitted_iff.2 hrole⟩
      exact (validate_eq_ok_iff hlib hcons).2 ⟨expiresAt, hlive, hexp⟩
  · intro hnone
    unfold runRequest
    split
    · rename_i user hexec
      exact absurd hexec (hnone user)
    · rfl

/-! ## The routes -/

/-- What `Protected` lets through is handled. -/
theorem serve_of_executes {now : Time} {out : Surroundings} {b : Backend} {req : Request}
    {authorization : Option String} {user : UserInfo}
    (h : auth.protectedAccess now b.store authorization req.authLevel = .executes user) :
    serve out b user req = handle out b user req := by
  obtain ⟨-, -, -, -, -, hrole⟩ := protectedAccess_eq_executes_iff.1 h
  exact if_pos hrole

/-- The API key is a call of `GenerateJWT`. -/
theorem store_generateAPIKey (auth : AuthManager) (now : Time) (b : Backend) :
    (generateAPIKey (fun user => (auth.generateJWT now b.store user).1) b).2.store =
      (auth.generateJWT now b.store apiUser).2 := by
  cases hsigned : auth.jwt.signedString (auth.claimsFor now apiUser) with
  | none => simp only [generateAPIKey, AuthManager.generateJWT, hsigned]
  | some token => simp only [generateAPIKey, AuthManager.generateJWT, hsigned]

/-- A logout that names a user is a call of `Logout`. -/
theorem store_logout (b : Backend) {dat : AuthPayload} (h : dat.username ≠ "") :
    (JobMon.logout b (.decoded dat)).2.store = AuthManager.logout b.store dat.username := by
  simp only [JobMon.logout, h, if_false, AuthManager.logout]

/-! ## One login -/

/-- A user, and the claims of a login one second after the epoch. -/
def alice : UserInfo := { roles := [USER], username := "alice" }

def aliceClaims : UserClaims :=
  { user := alice
    expiresAt := 61 * Go.second
    issuedAt := Go.second
    issuer := ISSUER }

/-- A library that has been asked for these claims only. -/
def aliceJWT : JWT :=
  { signedString := fun claims => if claims = aliceClaims then some "token" else none
    parseWithClaims := fun t token =>
      if token = "token" ∧ Go.second ≤ t ∧ t < 61 * Go.second then some aliceClaims else none }

theorem aliceJWT_documented : aliceJWT.Documented where
  accepts t token claims := by
    show (if token = "token" ∧ Go.second ≤ t ∧ t < 61 * Go.second then some aliceClaims else none) =
      some claims ↔ (if claims = aliceClaims then some "token" else none) = some token ∧ _
    by_cases hclaims : claims = aliceClaims
    · subst hclaims
      rw [if_pos rfl, Option.some.injEq, eq_comm (a := "token")]
      by_cases hok : token = "token" ∧ Go.second ≤ t ∧ t < 61 * Go.second
      · rw [if_pos hok]
        exact iff_of_true rfl hok
      · rw [if_neg hok]
        exact iff_of_false (fun hc => by cases hc) hok
    · rw [if_neg hclaims]
      constructor
      · intro h
        split at h
        · cases h
          exact absurd rfl hclaims
        · cases h
      · rintro ⟨h, -⟩
        cases h
  readable claims claims' token h h' := by
    have hsame : ∀ c, aliceJWT.signedString c = some token → c = aliceClaims := by
      intro c hc
      by_contra hne
      rw [show aliceJWT.signedString c = none from if_neg hne] at hc
      cases hc
    rw [hsame claims h, hsame claims' h']
  noSpace claims token h := by
    by_cases hclaims : claims = aliceClaims
    · rw [show aliceJWT.signedString claims = some "token" from if_pos hclaims] at h
      cases h
      decide
    · rw [show aliceJWT.signedString claims = none from if_neg hclaims] at h
      cases h

/-- Tokens for a minute. -/
def aliceAuth : AuthManager :=
  { jwt := aliceJWT, jsonWebTokenLifeTime := 60 * Go.second, apiTokenLifeTime := 3600 * Go.second }

/-- The state after a login. -/
def aliceState : State := runCall aliceAuth (start Go.second {}) (.generateJWT alice)

/-- A request with the token of the login. -/
def aliceRequest : ProtectedRequest :=
  { authorization := some "Bearer token", authLevel := USER, handler := fun _ => [] }

theorem session_law_alice :
    (∀ user, aliceAuth.protectedAccess aliceState.now aliceState.store aliceRequest.authorization
        aliceRequest.authLevel = .executes user ↔
      ∃ token expiresAt, aliceRequest.authorization = some ("Bearer " ++ token) ∧
        LiveToken aliceState.log user token expiresAt ∧ aliceState.now < expiresAt ∧
        (ADMIN ∈ user.roles ∨ aliceRequest.authLevel ∈ user.roles)) ∧
      ((∀ user, aliceAuth.protectedAccess aliceState.now aliceState.store
          aliceRequest.authorization aliceRequest.authLevel ≠ .executes user) →
        (runRequest aliceAuth aliceState aliceRequest).store.userSessions =
          aliceState.store.userSessions) := by
  have hlib : aliceAuth.jwt.Documented := aliceJWT_documented
  have hrun : Run (StepOf (step aliceAuth)) (start Go.second {}) [.call (.generateJWT alice)]
      aliceState := run_exec_iff.2 rfl
  exact session_law hlib hrun aliceRequest

example : aliceAuth.protectedAccess aliceState.now aliceState.store (some "Bearer token") USER =
    .executes alice := by decide

example : aliceAuth.protectedAccess aliceState.now aliceState.store (some "Bearer token")
    JOBCONTROL = .refused 403 := by decide

end Session

end JobMon
