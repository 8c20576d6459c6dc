import JobMon.Auth.Origin

/-!
# How long a role outlives its revocation

`SetUserConfig` changes the stored roles and leaves the session table alone, and `Protected`
goes by the roles in the token.  A role that has been taken away is used until the token runs
out.

* `Change`, `change_of_step` — what an event does to sessions and roles.
* `Dated` — every token in the session table was there at the start, or was signed before now.
* `Without` — a user does not have the role, except with a token that was stored when it was
  taken away.
* `revoked_role_expires` — **in every run where nobody gives the role back, the user has it with
  that one token only, and no longer than it lasts**.
-/

namespace JobMon

open Keyed Runs Roles

namespace WebServer

/-! ## What an event does -/

section Steps

variable (auth : Authentication)

/-- What an event does to sessions and roles. -/
inductive Change (st : WebServer) : Event → Store → Prop
  | same {ev : Event} {s' : Store} (hsessions : s'.userSessions = st.store.userSessions)
      (hroles : s'.userRoles = st.store.userRoles) : Change st ev s'
  | login (body : Body AuthPayload) {username : String} {val : LocalUser}
      (hval : auth.localUsers.lookup username = some val) :
      Change st (.login body)
        (auth.generateJWT st.now st.store { roles := [val.role], username }).2
  | callback (req : OAuth.CallbackRequest) (username : String) :
      Change st (.callback req)
        (auth.generateJWT st.now
          (st.store.loginRoles st.system.backend.config.autoAssignUserRole req.calls username).2
          { roles := (st.store.loginRoles st.system.backend.config.autoAssignUserRole req.calls
              username).1
            username }).2
  | request (out : Surroundings) {authorization : Option String} {req : Request} {user : UserInfo}
      {s' : Store} (hexec : st.access auth authorization req = .executes user)
      (hrights : Rights (st.signing auth out).sign st.store req s') :
      Change st (.request out authorization req) s'

variable {auth} {st st' : WebServer} {ev : Event}

theorem change_of_step (h : st.step auth ev = some st') : Change auth st ev st'.store := by
  cases ev with
  | wait d =>
    cases h
    exact .same rfl rfl
  | login body =>
    cases h
    rw [store_withStore]
    rcases login_cases auth st.now st.store body with hsame | ⟨username, val, hval, hjwt⟩
    · rw [hsame]
      exact .same rfl rfl
    · rw [hjwt]
      exact .login body hval
  | loginOAuth draws =>
    simp only [WebServer.step] at h
    split_ifs at h
    · cases h
      exact .same rfl rfl
    · cases h
      exact .same rfl rfl
  | callback req =>
    cases h
    rw [store_withStore, callback]
    rcases loginOAuthCallback_cases auth st.system.backend.config
      { sessions := st.sessions, store := st.store } { req with now := st.now } with
      hsame | ⟨username, hjwt⟩
    · rw [hsame]
      exact .same rfl rfl
    · rw [hjwt]
      exact .callback req username
  | request out authorization req =>
    simp only [WebServer.step] at h
    split at h
    · cases h
      exact .same rfl rfl
    · rename_i user hexec
      obtain ⟨system, hsystem, rfl⟩ := Option.map_eq_some_iff.1 h
      rw [System.step_request hsystem]
      exact .request out hexec (rights_of_serve (st.signing auth out) st.system.backend user req)
  | runStop i env calls =>
    obtain ⟨system, hsystem, rfl⟩ := Option.map_eq_some_iff.1 h
    obtain ⟨task, outcome, backend, -, hrun, rfl⟩ := System.step_runStop hsystem
    exact .same (same_runStop hrun).sessions (same_runStop hrun).roles
  | runPrefetch i env =>
    obtain ⟨system, hsystem, rfl⟩ := Option.map_eq_some_iff.1 h
    obtain ⟨id, backend, -, hrun, rfl⟩ := System.step_runPrefetch hsystem
    rcases runPrefetch_cases hrun with ⟨-, rfl⟩ | ⟨j, -, rfl, -⟩
    · exact .same rfl rfl
    · exact .same rfl rfl

/-- Time does not run backwards. -/
theorem now_le_of_step (h : st.step auth ev = some st') : st.now ≤ st'.now := by
  cases ev with
  | wait d =>
    cases h
    exact Int.le_add_of_nonneg_right (Int.natCast_nonneg d)
  | login body =>
    cases h
    exact le_refl _
  | loginOAuth draws =>
    simp only [WebServer.step] at h
    split_ifs at h
    · cases h
      exact le_refl _
    · cases h
      exact le_refl _
  | callback req =>
    cases h
    exact le_refl _
  | request out authorization req =>
    simp only [WebServer.step] at h
    split at h
    · cases h
      exact le_refl _
    · obtain ⟨system, -, rfl⟩ := Option.map_eq_some_iff.1 h
      exact le_refl _
  | runStop i env calls =>
    obtain ⟨system, -, rfl⟩ := Option.map_eq_some_iff.1 h
    exact le_refl _
  | runPrefetch i env =>
    obtain ⟨system, -, rfl⟩ := Option.map_eq_some_iff.1 h
    exact le_refl _

end Steps

/-! ## The two tables -/

section Tables

variable {s : Store} {now : Time}

/-- Roles are written without a look at the sessions. -/
theorem userSessions_writeRoles (username : String) (roles : List String) (fails : Bool) :
    (s.writeRoles username roles fails).userSessions = s.userSessions := by
  cases fails with
  | true => rfl
  | false => rfl

theorem userSessions_loginRoles (auto : Bool) (calls : RoleCalls) (username : String) :
    (s.loginRoles auto calls username).2.userSessions = s.userSessions := by
  have hcleared : (if (s.readRoles username calls.readFails).2 = true then s
      else s.writeRoles username [] calls.clearFails).userSessions = s.userSessions := by
    split_ifs
    · rfl
    · exact userSessions_writeRoles username [] calls.clearFails
  unfold Store.loginRoles
  dsimp only
  split
  · exact (userSessions_writeRoles _ _ _).trans hcleared
  · exact hcleared

theorem getUserSessionToken_congr {s' : Store} (h : s'.userSessions = s.userSessions)
    (username : String) : s'.getUserSessionToken username = s.getUserSessionToken username := by
  rw [Store.getUserSessionToken, Store.getUserSessionToken, h]

variable {auth : AuthManager}

/-- A token that is valid is stored for the user it names, and has not run out. -/
theorem validate_eq_ok (hlib : auth.jwt.Documented) {token : String} {user : UserInfo}
    (h : auth.validate now s token = .ok user) :
    ∃ claims, auth.jwt.signedString claims = some token ∧ now < claims.expiresAt ∧
      s.getUserSessionToken claims.user.username = some token ∧ claims.user = user := by
  unfold AuthManager.validate at h
  cases hparse : auth.jwt.parseWithClaims now token with
  | none => simp [hparse] at h
  | some claims =>
    simp only [hparse] at h
    split_ifs at h with hissuer hstored
    cases h
    obtain ⟨hsigned, -, hexpires⟩ := (hlib.accepts _ _ _).1 hparse
    exact ⟨claims, hsigned, hexpires, not_not.1 hstored, rfl⟩

/-- A token in the table after a signature was there before, or is the one that was signed. -/
theorem token_of_generateJWT (hlib : auth.jwt.Documented) {user : UserInfo} {claims : UserClaims}
    {token : String} (hsigned : auth.jwt.signedString claims = some token)
    (h : (auth.generateJWT now s user).2.getUserSessionToken claims.user.username = some token) :
    s.getUserSessionToken claims.user.username = some token ∨
      claims = auth.claimsFor now user := by
  unfold AuthManager.generateJWT at h
  split at h
  · rename_i token' hsigned'
    rw [Session.getUserSessionToken_set] at h
    split_ifs at h
    · cases h
      exact Or.inr (hlib.readable _ _ _ hsigned hsigned')
    · exact Or.inl h
  · exact Or.inl h

/-- A token in the table after a request was there before, or is an API key. -/
theorem token_of_rights (hlib : auth.jwt.Documented) {req : Request} {s' : Store}
    (h : Rights (fun user => (auth.generateJWT now s user).1) s req s') {claims : UserClaims}
    {token : String} (hsigned : auth.jwt.signedString claims = some token)
    (htoken : s'.getUserSessionToken claims.user.username = some token) :
    s.getUserSessionToken claims.user.username = some token ∨
      req = .generateAPIKey ∧ claims = auth.claimsFor now apiUser := by
  cases h with
  | same hsessions hroles =>
    exact Or.inl ((getUserSessionToken_congr hsessions _).symm.trans htoken)
  | logout dat =>
    rw [Session.getUserSessionToken_remove] at htoken
    split_ifs at htoken
    exact Or.inl htoken
  | @apiKey token' hsign =>
    have hgenerated : (auth.generateJWT now s apiUser).2.getUserSessionToken
        claims.user.username = some token := by
      unfold AuthManager.generateJWT at hsign ⊢
      split at hsign
      · cases hsign
        exact htoken
      · cases hsign
    exact (token_of_generateJWT hlib hsigned hgenerated).imp id fun hclaims => ⟨rfl, hclaims⟩
  | roles htarget body => exact Or.inl htoken

/-- The roles of a login are stored ones, or the one it assigns. -/
theorem mem_loginRoles {auto : Bool} {calls : RoleCalls} {username role : String}
    (h : role ∈ (s.loginRoles auto calls username).1) :
    role ∈ rolesOf s username ∨ auto = true ∧ role = USER := by
  unfold Store.loginRoles at h
  dsimp only at h
  split at h
  · rename_i hassign
    exact Or.inr ⟨hassign.2, List.mem_singleton.1 h⟩
  · exact Or.inl (mem_rolesOf_of_readRoles h)

/-- A stored role after roles were written was stored before, or is one of them. -/
theorem mem_rolesOf_writeRoles {username username' role : String} {roles : List String}
    {fails : Bool} (h : role ∈ rolesOf (s.writeRoles username roles fails) username') :
    role ∈ rolesOf s username' ∨ username' = username ∧ role ∈ roles := by
  cases fails with
  | true => exact Or.inl h
  | false =>
    rw [rolesOf_writeRoles] at h
    split_ifs at h with hname
    · exact Or.inr ⟨hname, h⟩
    · exact Or.inl h

/-- A login stores no role but the one it assigns. -/
theorem mem_rolesOf_loginRoles {auto : Bool} {calls : RoleCalls} {username username' role : String}
    (h : role ∈ rolesOf (s.loginRoles auto calls username).2 username') :
    role ∈ rolesOf s username' ∨ auto = true ∧ role = USER := by
  have hcleared : ∀ {role}, role ∈ rolesOf (if (s.readRoles username calls.readFails).2 = true then
      s else s.writeRoles username [] calls.clearFails) username' → role ∈ rolesOf s username' := by
    intro role h
    split_ifs at h
    · exact h
    · exact (mem_rolesOf_writeRoles h).elim id fun hmem => absurd hmem.2 List.not_mem_nil
  unfold Store.loginRoles at h
  dsimp only at h
  split at h
  · rename_i hassign
    rcases mem_rolesOf_writeRoles h with h | ⟨-, h⟩
    · exact Or.inl (hcleared h)
    · exact Or.inr ⟨hassign.2, List.mem_singleton.1 h⟩
  · exact Or.inl (hcleared h)

theorem rolesOf_congr {s' : Store} (h : s'.userRoles = s.userRoles) (username : String) :
    rolesOf s' username = rolesOf s username := by
  rw [rolesOf, rolesOf, Store.getUserRoles, Store.getUserRoles, h]

theorem userRoles_generateJWT (user : UserInfo) :
    (auth.generateJWT now s user).2.userRoles = s.userRoles := by
  unfold AuthManager.generateJWT
  split
  · rfl
  · rfl

end Tables

/-! ## The tokens in the table -/

section Dated

variable (auth : Authentication) (s : Store)

/-- Every token in the session table was there at the start, or was signed before now. -/
def Dated (st : WebServer) : Prop :=
  ∀ claims token, auth.jwt.signedString claims = some token →
    st.store.getUserSessionToken claims.user.username = some token →
      s.getUserSessionToken claims.user.username = some token ∨
        ∃ t ≤ st.now, claims = auth.claimsFor t claims.user

variable {auth s} {st st' : WebServer} {ev : Event}

/-- **Step.** -/
theorem Dated.step (h : Dated auth s st) (hlib : auth.jwt.Documented)
    (hstep : st.step auth ev = some st') : Dated auth s st' := by
  have hlater := now_le_of_step hstep
  intro claims token hsigned htoken
  have hbefore : st.store.getUserSessionToken claims.user.username = some token →
      s.getUserSessionToken claims.user.username = some token ∨
        ∃ t ≤ st'.now, claims = auth.claimsFor t claims.user := fun htoken =>
    (h claims token hsigned htoken).imp id fun ⟨t, ht, hclaims⟩ => ⟨t, ht.trans hlater, hclaims⟩
  have hissued : ∀ user, claims = auth.claimsFor st.now user →
      ∃ t ≤ st'.now, claims = auth.claimsFor t claims.user := fun user hclaims =>
    ⟨st.now, hlater, by subst hclaims; rfl⟩
  have hchange := change_of_step hstep
  generalize hs' : st'.store = s' at hchange htoken
  cases hchange with
  | same hsessions hroles =>
    exact hbefore ((getUserSessionToken_congr hsessions _).symm.trans htoken)
  | login body hval =>
    rcases token_of_generateJWT hlib hsigned htoken with htoken | hclaims
    · exact hbefore htoken
    · exact Or.inr (hissued _ hclaims)
  | callback req username =>
    rcases token_of_generateJWT hlib hsigned htoken with htoken | hclaims
    · rw [getUserSessionToken_congr (userSessions_loginRoles _ _ _)] at htoken
      exact hbefore htoken
    · exact Or.inr (hissued _ hclaims)
  | request out hexec hrights =>
    rcases token_of_rights hlib hrights hsigned htoken with htoken | ⟨-, hclaims⟩
    · exact hbefore htoken
    · exact Or.inr (hissued _ hclaims)

end Dated

/-! ## Without the role -/

section Without

variable (auth : Authentication) (c : Configuration) (s₀ : Store) (username role : String)

/-- The user does not have the role, except with the token that is stored in `s₀`. -/
structure Without (s : Store) : Prop where
  roles : role ∉ rolesOf s username
  tokens : ∀ claims token, auth.jwt.signedString claims = some token →
    claims.user.username = username → role ∈ claims.user.roles →
      s.getUserSessionToken username = some token → s₀.getUserSessionToken username = some token

/-- No login gives the role to the user. -/
structure NotByLogin : Prop where
  localUser : ∀ val, c.localUsers.lookup username = some val → val.role ≠ role
  assigned : c.autoAssignUserRole = true → role ≠ USER

/-- The event is a request that gives the role to the user. -/
def Gives (st : WebServer) : Event → Prop
  | .request _ authorization req =>
    ∃ admin, st.access auth authorization req = .executes admin ∧
      ⟨admin, username, role⟩ ∈ req.grants admin
  | _ => False

variable {auth c s₀ username role} {st st' : WebServer} {ev : Event}

/-- A token signed for somebody else, or without the role, changes nothing. -/
theorem Without.generateJWT {s : Store} (h : Without auth s₀ username role s)
    (hlib : auth.jwt.Documented) (now : Time) {user : UserInfo}
    (huser : user.username = username → role ∉ user.roles) :
    Without auth s₀ username role (auth.generateJWT now s user).2 where
  roles := by
    rw [rolesOf_congr (userRoles_generateJWT user)]
    exact h.roles
  tokens claims token hsigned hname hrole htoken := by
    subst hname
    rcases token_of_generateJWT hlib hsigned htoken with htoken | hclaims
    · exact h.tokens claims token hsigned rfl hrole htoken
    · subst hclaims
      exact absurd hrole (huser rfl)

/-- The roles of a login do not have the role among them. -/
theorem Without.loginRoles {s : Store} (h : Without auth s₀ username role s)
    (hlogin : NotByLogin c username role) (calls : RoleCalls) (username' : String) :
    Without auth s₀ username role (s.loginRoles c.autoAssignUserRole calls username').2 ∧
      (username' = username →
        role ∉ (s.loginRoles c.autoAssignUserRole calls username').1) := by
  refine ⟨⟨fun hmem => ?_, fun claims token hsigned hname hrole htoken => ?_⟩, ?_⟩
  · rcases mem_rolesOf_loginRoles hmem with hmem | ⟨hauto, huser⟩
    · exact h.roles hmem
    · exact hlogin.assigned hauto huser
  · rw [getUserSessionToken_congr (userSessions_loginRoles _ _ _)] at htoken
    exact h.tokens claims token hsigned hname hrole htoken
  · rintro rfl hmem
    rcases mem_loginRoles hmem with hmem | ⟨hauto, huser⟩
    · exact h.roles hmem
    · exact hlogin.assigned hauto huser

/-- A request that does not give the role. -/
theorem Without.rights {s s' : Store} (h : Without auth s₀ username role s)
    (hlib : auth.jwt.Documented) {now : Time} {req : Request} {admin : UserInfo}
    (hrights : Rights (fun user => (auth.generateJWT now s user).1) s req s')
    (hgrants : ⟨admin, username, role⟩ ∉ req.grants admin) :
    Without auth s₀ username role s' where
  roles hmem := by
    cases hrights with
    | same hsessions hroles => exact h.roles ((rolesOf_congr hroles username) ▸ hmem)
    | logout dat => exact h.roles hmem
    | apiKey hsign => exact h.roles hmem
    | @roles target htarget body =>
      have hwritten : role ∈ rolesOf (s.writeRoles _ _ false) username := hmem
      rcases mem_rolesOf_writeRoles hwritten with hmem | ⟨hname, hmem⟩
      · exact h.roles hmem
      · refine hgrants ?_
        rw [Request.grants, if_neg htarget, hname]
        exact List.mem_map_of_mem hmem
  tokens claims token hsigned hname hrole htoken := by
    subst hname
    rcases token_of_rights hlib hrights hsigned htoken with htoken | ⟨rfl, hclaims⟩
    · exact h.tokens claims token hsigned rfl hrole htoken
    · subst hclaims
      exact absurd (List.mem_map_of_mem hrole) hgrants

/-- **Step.** -/
theorem Without.step (h : Without auth s₀ username role st.store) (hlib : auth.jwt.Documented)
    (hlocal : auth.localUsers = c.localUsers)
    (hauto : st.system.backend.config.autoAssignUserRole = c.autoAssignUserRole)
    (hlogin : NotByLogin c username role) (hgives : ¬ Gives auth username role st ev)
    (hstep : st.step auth ev = some st') : Without auth s₀ username role st'.store := by
  have hchange := change_of_step hstep
  generalize st'.store = s' at hchange ⊢
  cases hchange with
  | same hsessions hroles =>
    refine ⟨fun hmem => h.roles ((rolesOf_congr hroles username) ▸ hmem), ?_⟩
    intro claims token hsigned hname hrole htoken
    rw [getUserSessionToken_congr hsessions] at htoken
    exact h.tokens claims token hsigned hname hrole htoken
  | login body hval =>
    refine h.generateJWT hlib st.now ?_
    rintro rfl hrole
    exact hlogin.localUser _ (hlocal ▸ hval) (List.mem_singleton.1 hrole).symm
  | callback req username' =>
    rw [hauto]
    obtain ⟨hstored, hroles⟩ := h.loginRoles hlogin req.calls username'
    exact hstored.generateJWT hlib st.now hroles
  | request out hexec hrights =>
    exact h.rights hlib hrights fun hmem => hgives ⟨_, hexec, hmem⟩

end Without

/-! ## The result -/

section Results

theorem numericDate_mono {t t' : Time} (h : t ≤ t') : numericDate t ≤ numericDate t' :=
  Int.mul_le_mul_of_nonneg_right (Int.ediv_le_ediv (by decide) h) (by decide)

variable {jwt : JWT} {compareHashAndPassword : String → String → Bool} {c : Configuration}
  {s : Store} {now : Time} {events more : List Event} {st₀ st : WebServer}
  {username role : String}

/-- **A revoked role expires.**  Where a user does not have a role in the store, and in no
later step somebody gives it back, the user never has it stored again, and a request that is
served for the user with the role brings the token that was stored when the role was gone; it
runs out within the life time of such a token, unless the server found it when it started. -/
theorem revoked_role_expires (hlib : jwt.Documented)
    (hrun : Run (StepOf (step (.init jwt compareHashAndPassword c))) (start now c s) events st₀)
    (hlogin : NotByLogin c username role) (hrevoked : role ∉ rolesOf st₀.store username)
    (hmore : Run (Guarded (fun st ev => ¬ Gives (.init jwt compareHashAndPassword c) username role
      st ev) (StepOf (step (.init jwt compareHashAndPassword c)))) st₀ more st) :
    role ∉ rolesOf st.store username ∧
      ∀ authorization req user,
        st.access (.init jwt compareHashAndPassword c) authorization req = .executes user →
        user.username = username → role ∈ user.roles →
        ∃ token, authorization = some ("Bearer " ++ token) ∧
          st₀.store.getUserSessionToken username = some token ∧
          (s.getUserSessionToken username = some token ∨
            st.now < numericDate (st₀.now +
              (Authentication.init jwt compareHashAndPassword c).lifeTime user)) := by
  have hdated : Dated (.init jwt compareHashAndPassword c) s st₀ := by
    refine hrun.invariant (fun _ _ _ htoken => Or.inl htoken) ?_
    exact fun st ev st' h hstep => h.step hlib hstep
  have hwithout : Sound (.init jwt compareHashAndPassword c) c s st ∧
      Without (.init jwt compareHashAndPassword c) st₀.store username role st.store := by
    refine Run.invariant (I := fun st => Sound (.init jwt compareHashAndPassword c) c s st ∧
      Without (.init jwt compareHashAndPassword c) st₀.store username role st.store) hmore ?_ ?_
    · exact ⟨sound_of_run hlib rfl hrun, hrevoked, fun _ _ _ _ _ htoken => htoken⟩
    · rintro st ev st' ⟨hsound, h⟩ ⟨hgives, hstep⟩
      exact ⟨hsound.step hlib rfl hstep, h.step hlib rfl hsound.auto hlogin hgives hstep⟩
  refine ⟨hwithout.2.roles, ?_⟩
  rintro authorization req user hexec rfl hrole
  obtain ⟨value, token, hvalue, hsplit, hvalid, -⟩ :=
    Session.protectedAccess_eq_executes_iff.1 hexec
  obtain ⟨claims, hsigned, hexpires, hstored, rfl⟩ := validate_eq_ok hlib hvalid
  have hold := hwithout.2.tokens claims token hsigned rfl hrole hstored
  refine ⟨token, ?_, hold, ?_⟩
  · rw [hvalue, (Session.split_bearer_iff.1 hsplit).1]
  · refine (hdated claims token hsigned hold).imp id ?_
    rintro ⟨t, ht, hclaims⟩
    rw [hclaims] at hexpires
    exact hexpires.trans_le (numericDate_mono (Int.add_le_add_right ht _))

end Results

/-! ## One revocation -/

section Example

def aliceRoles : Store := ({} : Store).setUserRoles "alice" [USER]

/-- Alice and the administrator log in, and alice's roles are taken away. -/
def officeHours : List Event :=
  aliceLogins ++ [rootLogin,
    .request silentSurroundings (some "Bearer root's")
      (.setUserConfig "alice" (.decoded { username := "alice" }))]

/-- The server then. -/
def office : WebServer :=
  (exec (step (.init officeJWT (fun _ _ => true) officeConfig))
    (start Go.second officeConfig aliceRoles) officeHours).getD
      (start Go.second officeConfig aliceRoles)

/-- A second later alice is still served. -/
theorem revoked_role_expires_office :
    USER ∉ rolesOf { office with now := office.now + Go.second }.store "alice" ∧
      ∀ authorization req user,
        { office with now := office.now + Go.second }.access
          (.init officeJWT (fun _ _ => true) officeConfig) authorization req = .executes user →
        user.username = "alice" → USER ∈ user.roles →
        ∃ token, authorization = some ("Bearer " ++ token) ∧
          office.store.getUserSessionToken "alice" = some token ∧
          (aliceRoles.getUserSessionToken "alice" = some token ∨
            office.now + Go.second < numericDate (office.now +
              (Authentication.init officeJWT (fun _ _ => true) officeConfig).lifeTime user)) := by
  have hrun : Run (StepOf (step (.init officeJWT (fun _ _ => true) officeConfig)))
      (start Go.second officeConfig aliceRoles) officeHours office := run_exec_iff.2 rfl
  have hlogin : NotByLogin officeConfig "alice" USER := by
    constructor
    · intro val hval
      cases hval
    · intro hauto
      cases hauto
  have hmore : Run (Guarded (fun st ev => ¬ Gives (.init officeJWT (fun _ _ => true) officeConfig)
      "alice" USER st ev) (StepOf (step (.init officeJWT (fun _ _ => true) officeConfig))))
      office [.wait 1000000000] { office with now := office.now + Go.second } :=
    Run.nil.snoc ⟨id, rfl⟩
  exact revoked_role_expires officeJWT_documented hrun hlogin (by decide) hmore

example : { office with now := office.now + Go.second }.access
    (.init officeJWT (fun _ _ => true) officeConfig) (some "Bearer alice's") (.liveMonitoring "1") =
      .executes Session.alice := by decide

end Example

end WebServer

end JobMon
