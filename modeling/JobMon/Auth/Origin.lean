import JobMon.Auth.Server
import JobMon.Router.FollowUp

/-!
# Where roles come from

A token carries the roles its user had when it was signed.  They come from the
configuration, from the store, from an administrator, or from a login that assigns the
user role by itself.

* `AtStart`, `Origin` — who had a role when the server started, and where a role of a user
  may come from.
* `Chain` — every grant was made by an administrator whose role has an origin of its own.
* `Sound.step`, `sound_of_run` — in every reachable state the stored roles and the roles in
  the stored tokens have origins.
* `roles_have_origin` — **every role a handler is executed with has an origin**, and
  without an administrator at the start there never is one.
* `nothing_without_roles` — where nobody has a role, no run changes anything but sessions and
  entries without roles.
-/

namespace JobMon

open Keyed Runs Roles

namespace WebServer

section Origins

variable (jwt : JWT) (c : Configuration) (s : Store)

/-- Who has a role when the server starts: a local user, a user for whom it is stored, or
one whose session is stored with a token that carries it. -/
inductive AtStart (username role : String) : Prop
  | localUser {val : LocalUser} (hval : c.localUsers.lookup username = some val)
      (hrole : val.role = role)
  | stored (hrole : role ∈ rolesOf s username)
  | session {claims : UserClaims} {token : String}
      (htoken : s.getUserSessionToken username = some token)
      (hsigned : jwt.signedString claims = some token) (hname : claims.user.username = username)
      (hrole : role ∈ claims.user.roles)

/-- Where a role of a user may come from. -/
inductive Origin (grants : List Grant) (username role : String) : Prop
  | atStart (h : AtStart jwt c s username role)
  /-- A login assigns it. -/
  | assigned (hauto : c.autoAssignUserRole = true) (hrole : role = USER)
  | granted (admin : UserInfo) (h : ⟨admin, username, role⟩ ∈ grants)

/-- Every grant was made with a role that has an origin in the grants before it. -/
inductive Chain : List Grant → Prop
  | nil : Chain []
  | cons {g : Grant} {grants : List Grant} (hadmin : ADMIN ∈ g.admin.roles)
      (horigin : Origin jwt c s grants g.admin.username ADMIN) (h : Chain grants) :
      Chain (g :: grants)

variable {jwt c s}

theorem Origin.mono {grants more : List Grant} {username role : String}
    (h : Origin jwt c s grants username role) : Origin jwt c s (more ++ grants) username role := by
  cases h with
  | atStart h => exact .atStart h
  | assigned hauto hrole => exact .assigned hauto hrole
  | granted admin h => exact .granted admin (List.mem_append_right more h)

/-- Grants made at the same time do not rest on each other. -/
theorem Chain.append {grants more : List Grant} (h : Chain jwt c s grants)
    (hmore : ∀ g ∈ more, ADMIN ∈ g.admin.roles ∧ Origin jwt c s grants g.admin.username ADMIN) :
    Chain jwt c s (more ++ grants) := by
  induction more with
  | nil => exact h
  | cons g more ih =>
    obtain ⟨hadmin, horigin⟩ := hmore g List.mem_cons_self
    exact .cons hadmin horigin.mono (ih fun g' hg' => hmore g' (List.mem_cons_of_mem g hg'))

/-- **A chain of grants goes back to an administrator of the start.** -/
theorem Chain.exists_admin {grants : List Grant} (h : Chain jwt c s grants) {g : Grant}
    (hg : g ∈ grants) : ∃ username, AtStart jwt c s username ADMIN := by
  induction h generalizing g with
  | nil => exact absurd hg List.not_mem_nil
  | @cons g' grants hadmin horigin h ih =>
    rcases List.mem_cons.1 hg with rfl | hg
    · cases horigin with
      | atStart h => exact ⟨_, h⟩
      | assigned hauto hrole => exact absurd hrole (by decide)
      | granted admin h => exact ih h
    · exact ih hg

theorem Chain.forall_admin {grants : List Grant} (h : Chain jwt c s grants) :
    ∀ g ∈ grants, ADMIN ∈ g.admin.roles := by
  induction h with
  | nil => exact fun g hg => absurd hg List.not_mem_nil
  | cons hadmin _ _ ih => exact List.forall_mem_cons.2 ⟨hadmin, ih⟩

/-- A role that no login assigns was there at the start, or an administrator was. -/
theorem Origin.atStart_or {grants : List Grant} {username role : String}
    (h : Origin jwt c s grants username role) (hchain : Chain jwt c s grants)
    (hrole : c.autoAssignUserRole = true → role ≠ USER) :
    (∃ u, AtStart jwt c s u role) ∨ ∃ u, AtStart jwt c s u ADMIN := by
  cases h with
  | atStart h => exact Or.inl ⟨username, h⟩
  | assigned hauto huser => exact absurd huser (hrole hauto)
  | granted admin h => exact Or.inr (hchain.exists_admin h)

end Origins

/-! ## The store -/

section Stores

variable (jwt : JWT) (c : Configuration) (s : Store)

/-- The roles in the two tables have origins. -/
structure StoreSound (grants : List Grant) (s' : Store) : Prop where
  roles : ∀ username, ∀ role ∈ rolesOf s' username, Origin jwt c s grants username role
  tokens : ∀ claims token, s'.getUserSessionToken claims.user.username = some token →
    jwt.signedString claims = some token →
      ∀ role ∈ claims.user.roles, Origin jwt c s grants claims.user.username role

variable {jwt c s} {grants : List Grant} {s' : Store}

theorem StoreSound.mono (h : StoreSound jwt c s grants s') (more : List Grant) :
    StoreSound jwt c s (more ++ grants) s' where
  roles username role hrole := (h.roles username role hrole).mono
  tokens claims token htoken hsigned role hrole :=
    (h.tokens claims token htoken hsigned role hrole).mono

theorem StoreSound.of_tables (h : StoreSound jwt c s grants s') {s'' : Store}
    (hsessions : s''.userSessions = s'.userSessions) (hroles : s''.userRoles = s'.userRoles) :
    StoreSound jwt c s grants s'' where
  roles username role hrole := by
    refine h.roles username role ?_
    rwa [rolesOf, Store.getUserRoles, hroles] at hrole
  tokens claims token htoken := by
    refine h.tokens claims token ?_
    rwa [Store.getUserSessionToken, hsessions] at htoken

theorem StoreSound.removeUserSession (h : StoreSound jwt c s grants s') (username : String) :
    StoreSound jwt c s grants (s'.removeUserSession username) where
  roles := h.roles
  tokens claims token htoken := by
    rw [Session.getUserSessionToken_remove] at htoken
    split_ifs at htoken
    exact h.tokens claims token htoken

/-- A token is stored for a user whose roles have origins. -/
theorem StoreSound.setUserSessionToken (h : StoreSound jwt c s grants s') (hlib : jwt.Documented)
    {claims : UserClaims} {token : String} (hsigned : jwt.signedString claims = some token)
    (hroles : ∀ role ∈ claims.user.roles, Origin jwt c s grants claims.user.username role) :
    StoreSound jwt c s grants (s'.setUserSessionToken claims.user.username token) where
  roles := h.roles
  tokens claims' token' htoken hsigned' := by
    rw [Session.getUserSessionToken_set] at htoken
    split_ifs at htoken
    · cases htoken
      rw [hlib.readable _ _ _ hsigned' hsigned]
      exact hroles
    · exact h.tokens claims' token' htoken hsigned'

theorem StoreSound.generateJWT {auth : AuthManager} (h : StoreSound auth.jwt c s grants s')
    (hlib : auth.jwt.Documented) (now : Time) {user : UserInfo}
    (hroles : ∀ role ∈ user.roles, Origin auth.jwt c s grants user.username role) :
    StoreSound auth.jwt c s grants (auth.generateJWT now s' user).2 := by
  unfold AuthManager.generateJWT
  split
  · rename_i token hsigned
    exact h.setUserSessionToken hlib hsigned hroles
  · exact h

theorem StoreSound.writeRoles (h : StoreSound jwt c s grants s') {username : String}
    {roles : List String} (hroles : ∀ role ∈ roles, Origin jwt c s grants username role)
    (fails : Bool) : StoreSound jwt c s grants (s'.writeRoles username roles fails) where
  roles username' role hrole := by
    cases fails with
    | true => exact h.roles username' role hrole
    | false =>
      rw [rolesOf_writeRoles] at hrole
      split_ifs at hrole with hname
      · exact hname ▸ hroles role hrole
      · exact h.roles username' role hrole
  tokens claims token htoken := by
    refine h.tokens claims token ?_
    cases fails with
    | true => exact htoken
    | false => exact htoken

/-- The roles read at a login are stored ones. -/
theorem mem_rolesOf_of_readRoles {username role : String} {fails : Bool}
    (h : role ∈ (s'.readRoles username fails).1) : role ∈ rolesOf s' username := by
  unfold Store.readRoles at h
  split_ifs at h
  · exact absurd h List.not_mem_nil
  · unfold rolesOf
    split at h
    · rename_i userRoles hget
      rw [hget]
      exact h
    · exact absurd h List.not_mem_nil

/-- The roles of a login have origins, those it writes and those it goes on with. -/
theorem StoreSound.loginRoles (h : StoreSound jwt c s grants s') (calls : RoleCalls)
    (username : String) :
    StoreSound jwt c s grants (s'.loginRoles c.autoAssignUserRole calls username).2 ∧
      ∀ role ∈ (s'.loginRoles c.autoAssignUserRole calls username).1,
        Origin jwt c s grants username role := by
  unfold Store.loginRoles
  cases hread : s'.readRoles username calls.readFails with
  | mk roles ok =>
    have hroles : ∀ role ∈ roles, Origin jwt c s grants username role := fun role hrole =>
      h.roles username role (mem_rolesOf_of_readRoles (by rw [hread]; exact hrole))
    have hcleared : StoreSound jwt c s grants
        (if ok = true then s' else s'.writeRoles username [] calls.clearFails) := by
      split_ifs
      · exact h
      · exact h.writeRoles (fun role hrole => absurd hrole List.not_mem_nil) _
    dsimp only
    generalize (if ok = true then s' else s'.writeRoles username [] calls.clearFails) = cleared
      at hcleared
    split_ifs with hassign
    · have huser : ∀ role ∈ [USER], Origin jwt c s grants username role := fun role hrole =>
        .assigned hassign.2 (List.mem_singleton.1 hrole)
      exact ⟨hcleared.writeRoles huser _, huser⟩
    · exact ⟨hcleared, hroles⟩

/-- A request leaves the tables sound, counting what it grants. -/
theorem StoreSound.rights {auth : AuthManager} (h : StoreSound auth.jwt c s grants s')
    (hlib : auth.jwt.Documented) {now : Time} {req : Request} {s'' : Store}
    (hrights : Rights (fun user => (auth.generateJWT now s' user).1) s' req s'')
    (user : UserInfo) : StoreSound auth.jwt c s (req.grants user ++ grants) s'' := by
  cases hrights with
  | same hsessions hroles => exact (h.mono _).of_tables hsessions hroles
  | logout dat => exact (h.mono _).removeUserSession dat.username
  | @apiKey token hsign =>
    have hsigned : auth.jwt.signedString (auth.claimsFor now apiUser) = some token := by
      unfold AuthManager.generateJWT at hsign
      split at hsign
      · rename_i token' hsigned
        cases hsign
        exact hsigned
      · cases hsign
    refine (h.mono _).setUserSessionToken hlib hsigned fun role hrole =>
      .granted user ?_
    exact List.mem_append_left grants (List.mem_map_of_mem hrole)
  | @roles target htarget body =>
    refine (h.mono _).writeRoles (fun role hrole => .granted user ?_) false
    rw [Request.grants, if_neg htarget]
    exact List.mem_append_left grants (List.mem_map_of_mem hrole)

end Stores

/-! ## The server -/

section Runs

variable (auth : Authentication) (c : Configuration) (s : Store)

/-- **The invariant.** -/
structure Sound (st : WebServer) : Prop where
  store : StoreSound auth.jwt c s st.grants st.store
  chain : Chain auth.jwt c s st.grants
  /-- The configuration is updated without this setting. -/
  auto : st.system.backend.config.autoAssignUserRole = c.autoAssignUserRole

variable {auth c s} {st st' : WebServer}

/-- The user a handler is executed for has roles with origins. -/
theorem Sound.origin (h : Sound auth c s st) (hlib : auth.jwt.Documented)
    {authorization : Option String} {req : Request} {user : UserInfo}
    (hexec : st.access auth authorization req = .executes user) :
    ∀ role ∈ user.roles, Origin auth.jwt c s st.grants user.username role := by
  obtain ⟨value, token, -, -, hvalid, -⟩ := Session.protectedAccess_eq_executes_iff.1 hexec
  unfold AuthManager.validate at hvalid
  cases hparse : auth.jwt.parseWithClaims st.now token with
  | none => simp [hparse] at hvalid
  | some claims =>
    simp only [hparse] at hvalid
    split_ifs at hvalid with hissuer hstored
    cases hvalid
    exact h.store.tokens claims token (not_not.1 hstored) ((hlib.accepts _ _ _).1 hparse).1

theorem autoAssignUserRole_of_effect {env : Environment} {b b' : Backend} (h : Effect env b b') :
    b'.config.autoAssignUserRole = b.config.autoAssignUserRole := by
  cases h with
  | quiet => rfl
  | put => rfl
  | write => rfl
  | tag => rfl
  | configure => rfl
  | fill => rfl

/-- What an executed request grants is granted by an administrator. -/
theorem grants_of_executes {authorization : Option String} {req : Request} {user : UserInfo}
    (hexec : st.access auth authorization req = .executes user) :
    ∀ g ∈ req.grants user, g.admin = user ∧ ADMIN ∈ user.roles := by
  obtain ⟨-, -, -, -, -, hpermitted⟩ := Session.protectedAccess_eq_executes_iff.1 hexec
  have hadmin : req.authLevel = ADMIN → ADMIN ∈ user.roles := fun hlevel =>
    (Session.permitted_iff.1 hpermitted).elim id fun h => hlevel ▸ h
  intro g hg
  unfold Request.grants at hg
  split at hg
  · split_ifs at hg
    · exact absurd hg List.not_mem_nil
    · obtain ⟨role, -, rfl⟩ := List.mem_map.1 hg
      exact ⟨rfl, hadmin rfl⟩
  · obtain ⟨role, -, rfl⟩ := List.mem_map.1 hg
    exact ⟨rfl, hadmin rfl⟩
  · exact absurd hg List.not_mem_nil

theorem Sound.request (h : Sound auth c s st) (hlib : auth.jwt.Documented) {out : Surroundings}
    {authorization : Option String} {req : Request} {user : UserInfo}
    (hexec : st.access auth authorization req = .executes user) {system : System}
    (hstep : st.system.step (.request (st.signing auth out) user req) = some system) :
    Sound auth c s { st with system, grants := req.grants user ++ st.grants } := by
  rw [System.step_request hstep]
  have hrights := rights_of_serve (st.signing auth out) st.system.backend user req
  refine ⟨h.store.rights hlib hrights user, h.chain.append fun g hg => ?_, ?_⟩
  · obtain ⟨hsame, hadmin⟩ := grants_of_executes hexec g hg
    rw [hsame]
    exact ⟨hadmin, h.origin hlib hexec ADMIN hadmin⟩
  · exact (autoAssignUserRole_of_effect (effect_of_serve _ user req)).trans h.auto

/-- The goroutines of `JobStop` touch neither table. -/
theorem Sound.goroutine (h : Sound auth c s st) {ev : JobMon.Event} {system : System}
    (hev : ∀ out user req, ev ≠ .request out user req)
    (hstep : st.system.step ev = some system) : Sound auth c s { st with system } := by
  cases ev with
  | request out user req => exact absurd rfl (hev out user req)
  | runStop i env calls =>
    obtain ⟨task, outcome, backend, -, hrun, rfl⟩ := System.step_runStop hstep
    have hsame := same_runStop hrun
    refine ⟨h.store.of_tables hsame.sessions hsame.roles, h.chain, ?_⟩
    exact (autoAssignUserRole_of_effect (effect_of_runStop hrun)).trans h.auto
  | runPrefetch i env =>
    obtain ⟨id, backend, -, hrun, rfl⟩ := System.step_runPrefetch hstep
    rcases runPrefetch_cases hrun with ⟨-, rfl⟩ | ⟨j, -, rfl, -⟩
    · exact ⟨h.store, h.chain, h.auto⟩
    · exact ⟨h.store.of_tables rfl rfl, h.chain, h.auto⟩

/-- **Step.** -/
theorem Sound.step (h : Sound auth c s st) (hlib : auth.jwt.Documented)
    (hlocal : auth.localUsers = c.localUsers) {ev : Event}
    (hstep : st.step auth ev = some st') : Sound auth c s st' := by
  cases ev with
  | wait d =>
    cases hstep
    exact ⟨h.store, h.chain, h.auto⟩
  | login body =>
    cases hstep
    refine ⟨?_, h.chain, h.auto⟩
    rw [store_withStore]
    rcases login_cases auth st.now st.store body with hsame | ⟨username, val, hval, hjwt⟩
    · rw [hsame]
      exact h.store
    · rw [hjwt]
      refine h.store.generateJWT hlib st.now fun role hrole => ?_
      exact .atStart (.localUser (hlocal ▸ hval) (List.mem_singleton.1 hrole).symm)
  | loginOAuth draws =>
    simp only [WebServer.step] at hstep
    split_ifs at hstep
    · cases hstep
      exact h
    · cases hstep
      exact ⟨h.store, h.chain, h.auto⟩
  | callback req =>
    cases hstep
    refine ⟨?_, h.chain, h.auto⟩
    rw [store_withStore, callback]
    rcases loginOAuthCallback_cases auth st.system.backend.config
      { sessions := st.sessions, store := st.store } { req with now := st.now } with
      hsame | ⟨username, hjwt⟩
    · rw [hsame]
      exact h.store
    · rw [hjwt, h.auto]
      obtain ⟨hstore, hroles⟩ := h.store.loginRoles req.calls username
      exact hstore.generateJWT hlib st.now hroles
  | request out authorization req =>
    simp only [WebServer.step] at hstep
    split at hstep
    · cases hstep
      exact h
    · rename_i user hexec
      obtain ⟨system, hsystem, rfl⟩ := Option.map_eq_some_iff.1 hstep
      exact h.request hlib hexec hsystem
  | runStop i env calls =>
    obtain ⟨system, hsystem, rfl⟩ := Option.map_eq_some_iff.1 hstep
    exact h.goroutine (by simp) hsystem
  | runPrefetch i env =>
    obtain ⟨system, hsystem, rfl⟩ := Option.map_eq_some_iff.1 hstep
    exact h.goroutine (by simp) hsystem

theorem sound_start (now : Time) : Sound auth c s (start now c s) where
  store :=
    { roles := fun _ _ hrole => .atStart (.stored hrole)
      tokens := fun _ _ htoken hsigned _ hrole =>
        .atStart (.session htoken hsigned rfl hrole) }
  chain := .nil
  auto := rfl

/-- **Run.** -/
theorem sound_of_run (hlib : auth.jwt.Documented) (hlocal : auth.localUsers = c.localUsers)
    {now : Time} {events : List Event}
    (hrun : Run (StepOf (step auth)) (start now c s) events st) : Sound auth c s st :=
  hrun.invariant (sound_start now) fun _ _ _ h hstep => h.step hlib hlocal hstep

end Runs

/-! ## The results -/

section Results

variable {jwt : JWT} {compareHashAndPassword : String → String → Bool} {c : Configuration}
  {s : Store} {now : Time} {events : List Event} {st : WebServer}

/-- **Every role a handler is executed with has an origin.**  In every state a run can
reach, a user for whom a handler is executed has each role from the configuration, from the
store as it was, from a login that assigns the user role, or from an administrator, and the
chain of administrators goes back to one there was at the start. -/
theorem roles_have_origin (hlib : jwt.Documented)
    (hrun : Run (StepOf (step (.init jwt compareHashAndPassword c))) (start now c s) events st)
    {authorization : Option String} {req : Request} {user : UserInfo}
    (hexec : st.access (.init jwt compareHashAndPassword c) authorization req = .executes user) :
    (∀ role ∈ user.roles, Origin jwt c s st.grants user.username role) ∧
      Chain jwt c s st.grants ∧ (∀ g ∈ st.grants, ADMIN ∈ g.admin.roles) ∧
      (ADMIN ∈ user.roles ∨ st.grants ≠ [] → ∃ username, AtStart jwt c s username ADMIN) := by
  have hsound : Sound (.init jwt compareHashAndPassword c) c s st := sound_of_run hlib rfl hrun
  have horigin := hsound.origin hlib hexec
  refine ⟨horigin, hsound.chain, hsound.chain.forall_admin, ?_⟩
  rintro (hadmin | hgrants)
  · have hstart := (horigin ADMIN hadmin).atStart_or hsound.chain fun _ => by decide
    exact hstart.elim id id
  · obtain ⟨g, hg⟩ := List.exists_mem_of_ne_nil _ hgrants
    exact hsound.chain.exists_admin hg

end Results

/-! ### An office -/

section Office

/-- A library that signs these claims only, with these tokens. -/
def knownJWT (known : List (UserClaims × String)) : JWT where
  signedString claims := known.lookup claims
  parseWithClaims t token :=
    ((known.map Prod.swap).lookup token).filter fun claims =>
      claims.issuedAt ≤ t ∧ t < claims.expiresAt

/-- Where no key comes twice, each of them finds its own value. -/
theorem lookup_known {α β : Type} [DecidableEq α] {known : List (α × β)}
    (hkeys : (known.map Prod.fst).Nodup) {a : α} {b : β} :
    known.lookup a = some b ↔ (a, b) ∈ known := by
  induction known with
  | nil => simp
  | cons p known ih =>
    obtain ⟨hnew, hkeys⟩ := List.nodup_cons.1 hkeys
    by_cases hkey : a = p.1
    · have hother : (p.1, b) ∉ known := fun hmem => hnew (List.mem_map.2 ⟨_, hmem, rfl⟩)
      rw [hkey, List.lookup_cons_self, List.mem_cons, or_iff_left hother, Option.some.injEq]
      exact ⟨fun h => Prod.ext rfl h.symm, fun h => (congrArg Prod.snd h).symm⟩
    · have hfirst : (a, b) ≠ p := fun h => hkey (congrArg Prod.fst h)
      rw [List.lookup_cons, beq_false_of_ne hkey, ih hkeys, List.mem_cons, or_iff_right hfirst]

theorem knownJWT_documented {known : List (UserClaims × String)}
    (hclaims : (known.map Prod.fst).Nodup) (htokens : (known.map Prod.snd).Nodup)
    (hspace : ∀ p ∈ known, ' ' ∉ p.2.toList) : (knownJWT known).Documented := by
  have hread : ∀ token claims, (known.map Prod.swap).lookup token = some claims ↔
      (claims, token) ∈ known := by
    intro token claims
    rw [lookup_known (by rwa [List.map_map])]
    simp
  refine ⟨fun t token claims => ?_, fun claims claims' token h h' => ?_, fun claims token h => ?_⟩
  · show Option.filter _ _ = some claims ↔ known.lookup claims = some token ∧ _
    simp [Option.filter_eq_some_iff, hread, lookup_known hclaims]
  · have hsame := (hread token claims).2 ((lookup_known hclaims).1 h)
    rw [(hread token claims').2 ((lookup_known hclaims).1 h')] at hsame
    exact (Option.some.inj hsame).symm
  · exact hspace _ ((lookup_known hclaims).1 h)

/-- The administrator. -/
def root : UserInfo := { roles := [ADMIN], username := "root" }

/-- A library that knows alice, the administrator, and alice when she has no roles. -/
def officeJWT : JWT :=
  knownJWT
    [(Session.aliceClaims, "alice's"), ({ Session.aliceClaims with user := root }, "root's"),
      ({ Session.aliceClaims with user := { Session.alice with roles := [] } }, "guest's")]

theorem officeJWT_documented : officeJWT.Documented :=
  knownJWT_documented (by decide) (by decide) (by decide)

/-- The administrator is a local user; alice logs in with the provider. -/
def officeConfig : Configuration :=
  { jsonWebTokenLifeTime := 60 * Go.second
    localUsers := Table.empty.upsert ("root", { role := ADMIN })
    oAuth :=
      { clientID := "id"
        secret := "secret"
        authURL := "auth"
        tokenURL := "token"
        redirectURL := "redirect"
        userInfoURL := "user" } }

def rootLogin : Event :=
  .login (.decoded { username := "root", password := "password", frontendOnly := false })

/-- The provider names alice. -/
def aliceProvider : Provider where
  exchangeOAuthToken _ := some {}
  getOAuthUserInfo _ := some { username := "alice" }

/-- Her login. -/
def aliceLogins : List Event :=
  [.loginOAuth ["state"],
    .callback
      { now := 0
        cookie := some "state"
        state := "state"
        code := "code"
        provider := aliceProvider }]

/-- The administrator makes alice a user, and she logs in. -/
def aliceHired : List Event :=
  [rootLogin, .request silentSurroundings (some "Bearer root's")
    (.setUserConfig "alice" (.decoded { username := "alice", roles := [USER] }))] ++ aliceLogins

/-- The server then. -/
def hired : WebServer :=
  (exec (step (.init officeJWT (fun _ _ => true) officeConfig)) (start Go.second officeConfig {})
    aliceHired).getD (start Go.second officeConfig {})

/-- Her role is the one that was granted, by an administrator of the configuration. -/
theorem roles_have_origin_alice :
    hired.grants = [⟨root, "alice", USER⟩] ∧
      (∀ role ∈ Session.alice.roles,
        Origin officeJWT officeConfig {} hired.grants Session.alice.username role) ∧
      Chain officeJWT officeConfig {} hired.grants ∧ (∀ g ∈ hired.grants, ADMIN ∈ g.admin.roles) ∧
      (ADMIN ∈ Session.alice.roles ∨ hired.grants ≠ [] →
        ∃ username, AtStart officeJWT officeConfig {} username ADMIN) := by
  have hrun : Run (StepOf (step (.init officeJWT (fun _ _ => true) officeConfig)))
      (start Go.second officeConfig {}) aliceHired hired := run_exec_iff.2 rfl
  have hexec : hired.access (.init officeJWT (fun _ _ => true) officeConfig)
      (some "Bearer alice's") (.liveMonitoring "1") = .executes Session.alice := rfl
  exact ⟨rfl, roles_have_origin officeJWT_documented hrun hexec⟩

end Office

/-! ## Nobody with a role -/

section Vacancy

variable (jwt : JWT) (c : Configuration) (s : Store)

/-- Nobody has the role or that of an administrator, and no login assigns it. -/
structure Vacant (role : String) : Prop where
  nobody : ∀ username, ¬ AtStart jwt c s username role
  noAdmin : ∀ username, ¬ AtStart jwt c s username ADMIN
  auto : c.autoAssignUserRole = true → role ≠ USER

/-- The two tables apart, the store is the one of the start. -/
def OnlyRights (s' : Store) : Prop :=
  ∃ userSessions userRoles, s' = { s with userSessions, userRoles }

variable {jwt c s} {s' : Store}

theorem OnlyRights.generateJWT {auth : AuthManager} (h : OnlyRights s s') (now : Time)
    (user : UserInfo) : OnlyRights s (auth.generateJWT now s' user).2 := by
  obtain ⟨userSessions, userRoles, rfl⟩ := h
  unfold AuthManager.generateJWT
  split
  · exact ⟨_, userRoles, rfl⟩
  · exact ⟨userSessions, userRoles, rfl⟩

theorem OnlyRights.writeRoles (h : OnlyRights s s') (username : String) (roles : List String)
    (fails : Bool) : OnlyRights s (s'.writeRoles username roles fails) := by
  obtain ⟨userSessions, userRoles, rfl⟩ := h
  cases fails with
  | true => exact ⟨userSessions, userRoles, rfl⟩
  | false => exact ⟨userSessions, _, rfl⟩

theorem OnlyRights.loginRoles (h : OnlyRights s s') (auto : Bool) (calls : RoleCalls)
    (username : String) : OnlyRights s (s'.loginRoles auto calls username).2 := by
  have hcleared : OnlyRights s (if (s'.readRoles username calls.readFails).2 = true then s'
      else s'.writeRoles username [] calls.clearFails) := by
    split_ifs
    · exact h
    · exact h.writeRoles _ _ _
  unfold Store.loginRoles
  dsimp only
  split
  · exact hcleared.writeRoles _ _ _
  · exact hcleared

variable {auth : Authentication} {st st' : WebServer}

/-- No request for a vacant role is let through. -/
theorem Sound.refused (h : Sound auth c s st) (hlib : auth.jwt.Documented) {req : Request}
    (hvacant : Vacant auth.jwt c s req.authLevel) (authorization : Option String)
    (user : UserInfo) : st.access auth authorization req ≠ .executes user := by
  intro hexec
  have horigin := h.origin hlib hexec
  have hstart : ∀ role ∈ user.roles, (c.autoAssignUserRole = true → role ≠ USER) →
      (∃ u, AtStart auth.jwt c s u role) ∨ ∃ u, AtStart auth.jwt c s u ADMIN :=
    fun role hrole hauto => (horigin role hrole).atStart_or h.chain hauto
  obtain ⟨-, -, -, -, -, hpermitted⟩ := Session.protectedAccess_eq_executes_iff.1 hexec
  rcases Session.permitted_iff.1 hpermitted with hadmin | hrole
  · rcases hstart ADMIN hadmin fun _ => by decide with ⟨u, hu⟩ | ⟨u, hu⟩
    · exact hvacant.noAdmin u hu
    · exact hvacant.noAdmin u hu
  · rcases hstart _ hrole hvacant.auto with ⟨u, hu⟩ | ⟨u, hu⟩
    · exact hvacant.nobody u hu
    · exact hvacant.noAdmin u hu

/-- The roles of the routes. -/
theorem authLevel_cases (req : Request) :
    req.authLevel = JOBCONTROL ∨ req.authLevel = USER ∨ req.authLevel = ADMIN := by
  cases req <;> simp [Request.authLevel]

variable (c s) in
/-- The server has done nothing but keep sessions and roles. -/
def Idle (st : WebServer) : Prop :=
  ∃ s', OnlyRights s s' ∧ st.system = .start c s'

theorem Idle.withStore (h : Idle c s st) (hs' : OnlyRights s s') : Idle c s (st.withStore s') := by
  obtain ⟨s'', -, hsystem⟩ := h
  refine ⟨s', hs', ?_⟩
  rw [WebServer.withStore, hsystem]
  rfl

theorem Idle.onlyRights (h : Idle c s st) : OnlyRights s st.store := by
  obtain ⟨s', hs', hsystem⟩ := h
  rw [WebServer.store, hsystem]
  exact hs'

/-- Where every request is refused, no goroutine starts either. -/
theorem Idle.step (h : Idle c s st)
    (hrefused : ∀ authorization req user, st.access auth authorization req ≠ .executes user)
    {ev : Event} (hstep : st.step auth ev = some st') : Idle c s st' := by
  cases ev with
  | wait d =>
    cases hstep
    exact h
  | login body =>
    cases hstep
    refine h.withStore ?_
    rcases login_cases auth st.now st.store body with hsame | ⟨username, val, -, hjwt⟩
    · rw [hsame]
      exact h.onlyRights
    · rw [hjwt]
      exact h.onlyRights.generateJWT st.now _
  | loginOAuth draws =>
    simp only [WebServer.step] at hstep
    split_ifs at hstep
    · cases hstep
      exact h
    · cases hstep
      exact h
  | callback req =>
    cases hstep
    refine h.withStore ?_
    rcases loginOAuthCallback_cases auth st.system.backend.config
      { sessions := st.sessions, store := st.store } { req with now := st.now } with
      hsame | ⟨username, hjwt⟩
    · rw [callback, hsame]
      exact h.onlyRights
    · rw [callback, hjwt]
      exact (h.onlyRights.loginRoles _ _ _).generateJWT _ _
  | request out authorization req =>
    simp only [WebServer.step] at hstep
    split at hstep
    · cases hstep
      exact h
    · rename_i user hexec
      exact absurd hexec (hrefused authorization req user)
  | runStop i env calls =>
    obtain ⟨s', -, hsystem⟩ := h
    obtain ⟨system, hrun, -⟩ := Option.map_eq_some_iff.1 hstep
    rw [hsystem] at hrun
    cases hrun
  | runPrefetch i env =>
    obtain ⟨s', -, hsystem⟩ := h
    obtain ⟨system, hrun, -⟩ := Option.map_eq_some_iff.1 hstep
    rw [hsystem] at hrun
    cases hrun

/-- **Without roles nothing happens.**  Where nobody has a role at the start and no login
assigns one, no handler is executed in any state a run can reach, and of the backend
nothing has changed but sessions and stored roles. -/
theorem nothing_without_roles {compareHashAndPassword : String → String → Bool} {now : Time}
    {events : List Event} (hlib : jwt.Documented)
    (hvacant : ∀ role ∈ [JOBCONTROL, USER, ADMIN], Vacant jwt c s role)
    (hrun : Run (StepOf (step (.init jwt compareHashAndPassword c))) (start now c s) events st) :
    (∀ authorization req user,
      st.access (.init jwt compareHashAndPassword c) authorization req ≠ .executes user) ∧
    ∃ userSessions userRoles, st.system = .start c { s with userSessions, userRoles } := by
  have hrefused : ∀ st : WebServer, Sound (.init jwt compareHashAndPassword c) c s st →
      ∀ authorization req user,
        st.access (.init jwt compareHashAndPassword c) authorization req ≠ .executes user := by
    intro st hsound authorization req user
    refine hsound.refused hlib (hvacant _ ?_) authorization user
    rcases authLevel_cases req with h | h | h <;> simp [h]
  have hinv : Sound (.init jwt compareHashAndPassword c) c s st ∧ Idle c s st := by
    refine Run.invariant (I := fun st => Sound _ c s st ∧ Idle c s st) hrun ?_ ?_
    · exact ⟨sound_start now, s, ⟨s.userSessions, s.userRoles, rfl⟩, rfl⟩
    · rintro st ev st' ⟨hsound, hidle⟩ hstep
      exact ⟨hsound.step hlib rfl hstep, hidle.step (hrefused st hsound) hstep⟩
  obtain ⟨s', ⟨userSessions, userRoles, rfl⟩, hsystem⟩ := hinv.2
  exact ⟨hrefused st hinv.1, userSessions, userRoles, hsystem⟩

/-- Without local users, stored roles and sessions, nobody has a role. -/
theorem vacant_of_empty (hlocal : ∀ username, c.localUsers.lookup username = none)
    (hroles : ∀ username, rolesOf s username = [])
    (hsessions : ∀ username, s.getUserSessionToken username = none)
    (hauto : c.autoAssignUserRole = false) (role : String) : Vacant jwt c s role := by
  have hnone : ∀ role username, ¬ AtStart jwt c s username role := by
    intro role username h
    cases h with
    | localUser hval hrole =>
      rw [hlocal] at hval
      cases hval
    | stored hrole =>
      rw [hroles] at hrole
      cases hrole
    | session htoken hsigned hname hrole =>
      rw [hsessions] at htoken
      cases htoken
  refine ⟨hnone role, hnone ADMIN, fun h => ?_⟩
  rw [hauto] at h
  cases h

/-- The office without its local user. -/
def guestConfig : Configuration := { officeConfig with localUsers := Table.empty }

/-- A store with two jobs. -/
def twoJobs : Store :=
  { jobMetadata := ⟨[
      { id := 1, userName := "alice" },
      { id := 2, userName := "bob", isRunning := true }], by decide⟩ }

/-- Alice logs in, and asks for her job. -/
def guestVisit : List Event :=
  aliceLogins ++
    [.request silentSurroundings (some "Bearer guest's") (.getJob { id := "1" })]

/-- The server then. -/
def visited : WebServer :=
  (exec (step (.init officeJWT (fun _ _ => true) guestConfig)) (start Go.second guestConfig twoJobs)
    guestVisit).getD (start Go.second guestConfig twoJobs)

/-- Her login leaves a session and an entry without roles; with the token she is refused. -/
theorem nothing_without_roles_login :
    visited.store.getUserSessionToken "alice" = some "guest's" ∧
      visited.store.getUserRoles "alice" = some { username := "alice", roles := [] } ∧
      visited.access (.init officeJWT (fun _ _ => true) guestConfig) (some "Bearer guest's")
        (.getJob { id := "1" }) = .refused 403 ∧
      (∀ authorization req user,
        visited.access (.init officeJWT (fun _ _ => true) guestConfig) authorization req ≠
          .executes user) ∧
      ∃ userSessions userRoles,
        visited.system = .start guestConfig { twoJobs with userSessions, userRoles } := by
  have hrun : Run (StepOf (step (.init officeJWT (fun _ _ => true) guestConfig)))
      (start Go.second guestConfig twoJobs) guestVisit visited := run_exec_iff.2 rfl
  exact ⟨rfl, rfl, rfl, nothing_without_roles officeJWT_documented
    (fun role _ => vacant_of_empty (fun _ => rfl) (fun _ => rfl) (fun _ => rfl) rfl role) hrun⟩

end Vacancy

end WebServer

end JobMon
