import JobMon.Auth.OAuth

/-!
# Roles at a login

`LoginOAuthCallback` reads the roles of a user and may then write them, once or twice,
in store calls of their own; `SetUserConfig` requests of administrators come in
between.

* `step` — the read of a callback, its next write, and a `SetUserConfig` request.
* `exec_login` — a callback that is not interrupted is `loginRoles`.
* `expected` — the roles as they would be without the writes of the callback.
* `keepsRoles_iff` — in a run no role is lost to a login exactly when the writes of
  callbacks take effect only on users who have no roles at that moment.
* `failedRead_and_lateGrant_lose` — a read that fails, and a role granted between read and
  write.
-/

namespace JobMon

open Keyed Runs

namespace Roles

/-! ## Steps -/

/-- A callback at its next write. -/
inductive Login
  /-- The read found nothing: an empty list is to be written. -/
  | clear (username : String)
  /-- There are no roles: the user role is to be assigned. -/
  | assign (username : String)
  deriving DecidableEq

def Login.username : Login → String
  | clear username => username
  | assign username => username

/-- The roles the next write stores. -/
def Login.roles : Login → List String
  | clear _ => []
  | assign _ => [USER]

/-- The store, the callback under way, and what the claims about roles are made of. -/
structure State where
  store : Store
  /-- The store as it was when the callback started, with the `SetUserConfig` requests
  since. -/
  expected : Store
  login : Option Login := none
  /-- The roles that were overwritten by callbacks so far. -/
  overwritten : List (List String) := []

/-- What happens next; `fails` is whether the store call does. -/
inductive Event
  /-- A callback starts: `GetUserRoles`. -/
  | read (username : String) (fails : Bool)
  /-- The callback under way makes its next call of `SetUserRoles`. -/
  | write (fails : Bool)
  | setUserConfig (user : UserRoles) (fails : Bool)

/-- The stored roles of a user; none without an entry. -/
def rolesOf (s : Store) (username : String) : List String :=
  ((s.getUserRoles username).map UserRoles.roles).getD []

variable (autoAssignUserRole : Bool)

/-- What a callback has to write once its roles are empty. -/
def assignment (username : String) : Option Login :=
  if autoAssignUserRole then some (.assign username) else none

/-- What a callback has to write after its read. -/
def afterRead (username : String) (roles : List String) (ok : Bool) : Option Login :=
  if ok = false then some (.clear username)
  else if roles.length = 0 then assignment autoAssignUserRole username
  else none

/-- What a callback has to write after a write. -/
def Login.next : Login → Option Login
  | clear username => assignment autoAssignUserRole username
  | assign _ => none

/-- One event. -/
def step (st : State) : Event → Option State
  | .read username fails =>
    match st.login with
    | some _ => none
    | none =>
      let (roles, ok) := st.store.readRoles username fails
      some { st with
        expected := st.store
        login := afterRead autoAssignUserRole username roles ok }
  | .write fails =>
    match st.login with
    | none => none
    | some login =>
      some { st with
        store := st.store.writeRoles login.username login.roles fails
        login := login.next autoAssignUserRole
        overwritten :=
          if fails then st.overwritten else rolesOf st.store login.username :: st.overwritten }
  | .setUserConfig user fails =>
    some { st with
      store := st.store.writeRoles user.username user.roles fails
      expected := st.expected.writeRoles user.username user.roles fails }

/-- A store before anybody logs in. -/
def start (s : Store) : State := { store := s, expected := s }

/-! ## A callback that is not interrupted -/

theorem readRoles_of_not_ok {s : Store} {username : String} {fails : Bool} {roles : List String}
    (h : s.readRoles username fails = (roles, false)) : roles = [] := by
  unfold Store.readRoles at h
  split at h
  · cases h
    rfl
  · split at h
    · cases h
    · cases h
      rfl

/-- **The steps of a callback, one after the other, are `loginRoles`.** -/
theorem exec_login (calls : RoleCalls) (st : State) (username : String) (h : st.login = none) :
    ∃ events,
      (exec (step autoAssignUserRole) st (.read username calls.readFails :: events)).map
          (fun st' => (st'.login, st'.store)) =
        some (none, (st.store.loginRoles autoAssignUserRole calls username).2) := by
  cases hread : st.store.readRoles username calls.readFails with
  | mk roles ok =>
    simp only [exec, step, h, hread, Option.bind_some, Store.loginRoles]
    cases ok with
    | false =>
      obtain rfl := readRoles_of_not_ok hread
      cases autoAssignUserRole with
      | false => exact ⟨[.write calls.clearFails], rfl⟩
      | true => exact ⟨[.write calls.clearFails, .write calls.assignFails], rfl⟩
    | true =>
      rw [afterRead, if_neg (by decide), assignment, if_pos rfl]
      by_cases hlen : roles.length = 0
      · rw [if_pos hlen]
        obtain rfl := List.length_eq_zero_iff.1 hlen
        cases autoAssignUserRole with
        | false => exact ⟨[], rfl⟩
        | true => exact ⟨[.write calls.assignFails], rfl⟩
      · rw [if_neg hlen, if_neg fun hassign => hlen hassign.1]
        exact ⟨[], rfl⟩

/-! ## The stored roles after a write -/

@[simp] theorem writeRoles_fails (s : Store) (username : String) (roles : List String) :
    s.writeRoles username roles true = s := rfl

theorem rolesOf_writeRoles (s : Store) (username : String) (roles : List String) (v : String) :
    rolesOf (s.writeRoles username roles false) v =
      if v = username then roles else rolesOf s v := by
  have hrow := Table.get?_upsert s.userRoles { username, roles } v
  unfold rolesOf Store.getUserRoles Store.writeRoles
  rw [if_neg Bool.false_ne_true, Store.setUserRoles, hrow]
  by_cases hv : v = username
  · rw [if_pos hv, if_pos hv]
    rfl
  · rw [if_neg hv, if_neg hv]

/-- Stores that agree on the roles do so after the same write. -/
theorem rolesOf_writeRoles_congr {s s' : Store} {v : String} (h : rolesOf s v = rolesOf s' v)
    (username : String) (roles : List String) (fails : Bool) :
    rolesOf (s.writeRoles username roles fails) v =
      rolesOf (s'.writeRoles username roles fails) v := by
  cases fails with
  | true => exact h
  | false => rw [rolesOf_writeRoles, rolesOf_writeRoles, h]

/-! ## What a login must not do -/

/-- No role is lost to a login. -/
structure NoLoss (st : State) : Prop where
  /-- A role stored when the callback started, or granted since, is stored. -/
  kept : ∀ username, ∀ role ∈ rolesOf st.expected username, role ∈ rolesOf st.store username
  /-- Only a user without roles got a list written by a callback. -/
  justified : ∀ roles ∈ st.overwritten, roles = []

/-- The event loses no role to a login. -/
def Keeps (st : State) (ev : Event) : Prop :=
  ∀ st', step autoAssignUserRole st ev = some st' → NoLoss st'

/-- A write of a callback that goes through is for a user who had no roles when the
callback started, and got none by a `SetUserConfig` request since. -/
def RoleSafe (st : State) : Event → Prop
  | .read _ _ => True
  | .write fails =>
    fails = false → ∀ login, st.login = some login → rolesOf st.expected login.username = []
  | .setUserConfig _ _ => True

/-- What holds in a run without losses: while a callback is under way, it has not changed
anybody's roles. -/
structure Inv (st : State) : Prop extends NoLoss st where
  pending : ∀ login, st.login = some login →
    ∀ username, rolesOf st.store username = rolesOf st.expected username

theorem inv_start (s : Store) : Inv (start s) where
  kept _ _ hrole := hrole
  justified _ hroles := absurd hroles List.not_mem_nil
  pending _ _ _ := rfl

/-- A write that another one follows stores the empty list. -/
theorem Login.roles_of_next {login next : Login}
    (h : login.next autoAssignUserRole = some next) : login.roles = [] := by
  cases login with
  | clear username => rfl
  | assign username => cases h

variable {autoAssignUserRole}

theorem Inv.read {st : State} (hinv : Inv st) (login : Option Login) :
    Inv { st with expected := st.store, login } where
  kept _ _ hrole := hrole
  justified := hinv.justified
  pending _ _ _ := rfl

theorem Inv.setUserConfig {st : State} (hinv : Inv st) (user : UserRoles) (fails : Bool) :
    Inv { st with
      store := st.store.writeRoles user.username user.roles fails
      expected := st.expected.writeRoles user.username user.roles fails } where
  kept username role hrole := by
    cases fails with
    | true => exact hinv.kept username role hrole
    | false =>
      rw [rolesOf_writeRoles] at hrole ⊢
      by_cases hv : username = user.username
      · rwa [if_pos hv] at hrole ⊢
      · rw [if_neg hv] at hrole ⊢
        exact hinv.kept username role hrole
  justified := hinv.justified
  pending login hlogin username :=
    rolesOf_writeRoles_congr (hinv.pending login hlogin username) _ _ _

/-- A write for a user without roles. -/
theorem Inv.write {st : State} (hinv : Inv st) {login : Login} (hlogin : st.login = some login)
    (hnone : rolesOf st.expected login.username = []) :
    Inv { st with
      store := st.store.writeRoles login.username login.roles false
      login := login.next autoAssignUserRole
      overwritten := rolesOf st.store login.username :: st.overwritten } where
  kept username role hrole := by
    rw [rolesOf_writeRoles]
    by_cases hv : username = login.username
    · rw [hv, hnone] at hrole
      exact absurd hrole List.not_mem_nil
    · rw [if_neg hv]
      exact hinv.kept username role hrole
  justified roles hroles := by
    rcases List.mem_cons.1 hroles with rfl | hroles
    · rw [hinv.pending login hlogin, hnone]
    · exact hinv.justified roles hroles
  pending next hnext username := by
    rw [rolesOf_writeRoles]
    by_cases hv : username = login.username
    · rw [if_pos hv, hv, hnone]
      exact login.roles_of_next autoAssignUserRole hnext
    · rw [if_neg hv]
      exact hinv.pending login hlogin username

/-- **One event.** -/
theorem Inv.step {st st' : State} {ev : Event} (hinv : Inv st) (hsafe : RoleSafe st ev)
    (h : step autoAssignUserRole st ev = some st') : Inv st' := by
  cases ev with
  | read username fails =>
    unfold Roles.step at h
    cases hlogin : st.login with
    | some login => simp only [hlogin, reduceCtorEq] at h
    | none =>
      simp only [hlogin] at h
      cases h
      exact hinv.read _
  | write fails =>
    unfold Roles.step at h
    cases hlogin : st.login with
    | none => simp only [hlogin, reduceCtorEq] at h
    | some login =>
      simp only [hlogin] at h
      cases h
      cases fails with
      | true =>
        exact
          { kept := hinv.kept
            justified := hinv.justified
            pending := fun _ _ => hinv.pending login hlogin }
      | false => exact hinv.write hlogin (hsafe rfl login hlogin)
  | setUserConfig user fails =>
    cases h
    exact hinv.setUserConfig user fails

/-- **Where no role was lost so far, an event loses none exactly when it is safe.** -/
theorem keeps_iff {st : State} {ev : Event} (hinv : Inv st) :
    Keeps autoAssignUserRole st ev ↔ RoleSafe st ev := by
  constructor
  · intro hkeeps
    cases ev with
    | read username fails => trivial
    | setUserConfig user fails => trivial
    | write fails =>
      rintro rfl login hlogin
      have hloss : NoLoss _ := hkeeps _ (by simp only [step, hlogin]; rfl)
      have hroles : rolesOf st.store login.username = [] :=
        hloss.justified _ List.mem_cons_self
      rwa [hinv.pending login hlogin] at hroles
  · intro hsafe st' h
    exact (hinv.step hsafe h).toNoLoss

/-- **The runs in which no login takes a role away are those in which every write of a
callback that goes through is for a user who had no roles when the callback started and
got none since.** -/
theorem keepsRoles_iff {s : Store} {events : List Event} {st : State} :
    Run (Guarded (Keeps autoAssignUserRole) (StepOf (step autoAssignUserRole))) (start s)
        events st ↔
      Run (Guarded RoleSafe (StepOf (step autoAssignUserRole))) (start s) events st := by
  constructor
  · intro hrun
    refine hrun.guard_congr (inv_start s) ?_ ?_
    · intro st ev st' hinv hstep
      exact hinv.step ((keeps_iff hinv).1 hstep.1) hstep.2
    · intro st ev st' hinv hstep
      exact (keeps_iff hinv).1 hstep.1
  · intro hrun
    refine hrun.guard_congr (inv_start s) ?_ ?_
    · intro st ev st' hinv hstep
      exact hinv.step hstep.1 hstep.2
    · intro st ev st' hinv hstep
      exact (keeps_iff hinv).2 hstep.1

/-! ## How roles are lost -/

/-- A store with an administrator. -/
def adminStore : Store := ({} : Store).setUserRoles "alice" [ADMIN]

/-- The read fails, and both writes go through. -/
def failedRead : List Event := [.read "alice" true, .write false, .write false]

/-- A role is granted between the read and the write. -/
def lateGrant : List Event :=
  [.read "alice" false, .setUserConfig { username := "alice", roles := [ADMIN] } false,
    .write false, .write false]

/-- **Logins that take away a role: one whose read fails, and one that overtakes an
administrator.** -/
theorem failedRead_and_lateGrant_lose :
    (∃ st, exec (step true) (start adminStore) failedRead = some st ∧ st.login = none ∧
      ¬ NoLoss st) ∧
    ∃ st, exec (step true) (start {}) lateGrant = some st ∧ st.login = none ∧ ¬ NoLoss st := by
  constructor
  · refine ⟨_, rfl, rfl, fun hloss => ?_⟩
    exact absurd (hloss.kept "alice" ADMIN (by decide)) (by decide)
  · refine ⟨_, rfl, rfl, fun hloss => ?_⟩
    exact absurd (hloss.kept "alice" ADMIN (by decide)) (by decide)

end Roles

end JobMon
