import GameClub.Auth.Phases

/-! # What a call does to the accounts

* `AccountStep`: the ways a request goes on with the account it has loaded, and `account_step`.
* `users_of_call`: only a save changes the accounts. -/

namespace GameClub.Auth

open GameClub.Lib GameClub.Lib.Interleave GameClub.Common

namespace Phase

/-- The account a login has loaded, until it has saved it. -/
def login : Phase → Option User
  | .checkingLock _ user _ => some user
  | .verifyingPassword _ user => some user
  | .datingLock _ user => some user
  | .savingFailure _ user => some user
  | .datingLogin _ user => some user
  | .savingLogin _ user => some user
  | _ => none

/-- The account `setPassword` has loaded, until it has saved it. -/
def changing : Phase → Option Profile
  | .savingPassword _ _ profile => some profile
  | _ => none

/-- The entity a request is about to save. -/
def saves (env : Env) : Phase → Option UserEntity
  | .savingFailure _ user => some user.entity
  | .savingLogin _ user => some user.entity
  | .savingPassword q _ profile =>
    some (profile.withPassword (env.hashPassword q.dto.newPassword q.salt))
  | .savingUpdate profile dto => some (profile.assign dto)
  | _ => none

theorem login_loaded {q : LoginCall} {user user' : User} (h : (loaded q user).login = some user') :
    user' = user := by
  unfold loaded at h
  split_ifs at h
  · split at h <;> exact (Option.some.inj h).symm
  · cases h

theorem login_wrong (q : LoginCall) (user : User) : (wrong q user).login = some user.failed := by
  unfold wrong
  split_ifs <;> rfl

end Phase

/-- The request holds no copy of an account that it will save. -/
structure Phase.NoCopy (p : Phase) : Prop where
  login : p.login = none
  changing : p.changing = none

theorem start_noCopy (q : Request) : (start q).NoCopy := by
  cases q with
  | refresh q =>
    simp only [start]
    split_ifs <;> exact ⟨rfl, rfl⟩
  | logout presented =>
    simp only [start]
    repeat' split
    all_goals exact ⟨rfl, rfl⟩
  | _ => exact ⟨rfl, rfl⟩

/-- **The ways a request goes on with an account**: a login loads it, finds it not locked any more,
verifies a password, dates its lock, dates its login; `setPassword` loads it; or the request drops
what it has. -/
inductive AccountStep (env : Env) (db : AuthDb) (p p' : Phase) : Prop
  | load {q : LoginCall} {user : User} (hp : p = .findingEmail q)
      (hget : db.users.get? user.id = some user) (hp' : p' = .loaded q user)
  | unlocked {q : LoginCall} {user : User} {lockedUntil : ℤ}
      (hp : p = .checkingLock q user lockedUntil) (hclock : lockedUntil ≤ db.clock)
      (hp' : p' = .verifyingPassword q user)
  | right {q : LoginCall} {user : User} (hp : p = .verifyingPassword q user)
      (hverify : env.verify user.passwordHash q.dto.password = true)
      (hp' : p' = .datingLogin q user)
  | wrong {q : LoginCall} {user : User} (hp : p = .verifyingPassword q user)
      (hverify : env.verify user.passwordHash q.dto.password = false) (hp' : p' = .wrong q user)
  | lock {q : LoginCall} {user : User} (hp : p = .datingLock q user)
      (hp' : p' = .savingFailure q (user.locked db.clock))
  | enter {q : LoginCall} {user : User} (hp : p = .datingLogin q user)
      (hp' : p' = .savingLogin q (user.loggedIn env q.dto.password q.g.passwordSalt db.clock))
  | find {q : ChangeCall} {user row : User} (hp : p = .findingProfile q user)
      (hget : db.users.get? row.id = some row) (hp' : p' = .savingPassword q user row.profile)
  | drop (hp' : p'.NoCopy) (hp : p.login = none ∨ p.saves env ≠ none ∨
      ∃ q user lockedUntil, p = .checkingLock q user lockedUntil)

theorem account_step {env : Env} {p : Phase} {s : Stmt} {k : Res s → Phase} {db : AuthDb}
    (hv : view env p = .call s k) : AccountStep env db p (k (exec env s db).1) := by
  cases p with
  | finished r => cases hv
  | findingEmail q =>
    cases hv
    dsimp only [exec]
    split
    · exact .drop ⟨rfl, rfl⟩ (Or.inl rfl)
    · next user hfound => exact .load rfl (AuthDb.findUserByEmail_get? hfound) rfl
  | checkingLock q user lockedUntil =>
    cases hv
    dsimp only [exec]
    split_ifs with hlt
    · exact .drop ⟨rfl, rfl⟩ (Or.inr (Or.inr ⟨q, user, lockedUntil, rfl⟩))
    · exact .unlocked rfl (not_lt.mp hlt) rfl
  | verifyingPassword q user =>
    cases hv
    dsimp only [exec]
    split_ifs with hok
    · exact .right rfl hok rfl
    · exact .wrong rfl (Bool.not_eq_true _ ▸ hok) rfl
  | datingLock q user =>
    cases hv
    exact .lock rfl rfl
  | datingLogin q user =>
    cases hv
    exact .enter rfl rfl
  | findingProfile q user =>
    cases hv
    dsimp only [exec]
    cases hfound : db.findUser q.userId with
    | none => exact .drop ⟨rfl, rfl⟩ (Or.inl rfl)
    | some row =>
      obtain ⟨hget, -⟩ := AuthDb.findUser_eq_some.mp hfound
      exact .find rfl (by rw [Table.key_of_get? hget]; exact hget) rfl
  | findingUser q userId =>
    cases hv
    refine .drop ?_ (Or.inl rfl)
    dsimp only [exec]
    split
    · exact ⟨rfl, rfl⟩
    · split_ifs
      · unfold Phase.claimed
        split <;> exact ⟨rfl, rfl⟩
      · exact ⟨rfl, rfl⟩
  | verifyingSecret q claims secret record =>
    cases hv
    refine .drop ?_ (Or.inl rfl)
    dsimp only [exec]
    split_ifs
    · unfold Phase.verified
      split_ifs <;> exact ⟨rfl, rfl⟩
    · exact ⟨rfl, rfl⟩
  | inserting i accessToken now =>
    cases hv
    refine .drop ?_ (Or.inl rfl)
    dsimp only [exec]
    split
    · unfold Phase.issued
      split <;> exact ⟨rfl, rfl⟩
    · cases i.origin <;> exact ⟨rfl, rfl⟩
  | savingFailure q user | savingLogin q user =>
    cases hv
    refine .drop ?_ (Or.inr (Or.inl (by simp [Phase.saves])))
    dsimp only [exec]
    split <;> exact ⟨rfl, rfl⟩
  | _ =>
    cases hv
    refine .drop ?_ (Or.inl rfl)
    dsimp only [exec]
    repeat' split
    all_goals exact ⟨rfl, rfl⟩

/-- **Only a save changes the accounts.** -/
theorem users_of_call {env : Env} {p : Phase} {s : Stmt} {k : Res s → Phase} {db : AuthDb}
    (hv : view env p = .call s k) : (exec env s db).2.users =
      match p.saves env with
      | none => db.users
      | some entity => (db.execSaveUser entity).2.users := by
  cases p with
  | finished r => cases hv
  | inserting i accessToken now =>
    cases hv
    dsimp only [exec, AuthDb.execInsertToken]
    split_ifs <;> rfl
  | _ =>
    cases hv
    rfl

/-- A request that saves an account drops its copy. -/
theorem AccountStep.of_saves {env : Env} {db : AuthDb} {p p' : Phase}
    (h : AccountStep env db p p') (hp : p.saves env ≠ none) : p'.NoCopy := by
  cases h with
  | drop hp' => exact hp'
  | _ =>
    subst_vars
    exact absurd rfl hp

/-- Only time passes without a call. -/
theorem clock_of_call (env : Env) (s : Stmt) (db : AuthDb) : (exec env s db).2.clock = db.clock := by
  cases s with
  | insertToken record =>
    dsimp only [exec, AuthDb.execInsertToken]
    split_ifs <;> rfl
  | saveUser entity =>
    dsimp only [exec, AuthDb.execSaveUser]
    split <;> rfl
  | _ => rfl

/-- **What a call does to the rows**: nothing, or it puts the one it has saved. -/
def RowStep (env : Env) (db db' : AuthDb) (p : Phase) : Prop :=
  (∀ u, db'.users.get? u = db.users.get? u) ∧
      (∀ entity row, p.saves env = some entity → db.savedUser entity ≠ .ok row) ∨
    ∃ entity row, p.saves env = some entity ∧ db.savedUser entity = .ok row ∧
      ∀ u, db'.users.get? u = if u = row.id then some row else db.users.get? u

theorem RowStep.same {env : Env} {db db' : AuthDb} {p : Phase} (h : RowStep env db db' p)
    (hp : p.saves env = none) (u : Uuid) : db'.users.get? u = db.users.get? u := by
  rcases h with ⟨hsame, -⟩ | ⟨entity, row, hsaves, -⟩
  · exact hsame u
  · rw [hp] at hsaves
    cases hsaves

/-- **What a step does to the accounts**: nothing, unless it is a call. -/
inductive AccountEvent (env : Env) (c : AuthConfig) : AuthEvent → AuthConfig → Prop
  | other {e : AuthEvent} {c' : AuthConfig} (he : ∀ i p db, e ≠ .called i p db)
      (husers : c'.db.users = c.db.users) (hclock : c.db.clock ≤ c'.db.clock)
      (hthreads : ∀ j p, c'.threads j = some p → c.threads j = some p ∨ p.NoCopy)
      (hback : ∀ j p, c.threads j = some p → c'.threads j = some p ∨ p.NoCopy) :
      AccountEvent env c e c'
  | call {i : ℕ} {p p' : Phase} {db' : AuthDb} (hi : c.threads i = some p)
      (h : AccountStep env c.db p p') (hclock : db'.clock = c.db.clock)
      (husers : RowStep env c.db db' p) :
      AccountEvent env c (.called i p c.db) (c.put db' i (some p'))

theorem account_event {env : Env} {c c' : AuthConfig} {e : AuthEvent}
    (h : (system env).Step c e c') : AccountEvent env c e c' := by
  have hother : (∀ i p db, e ≠ .called i p db) → c'.db.users = c.db.users →
      c.db.clock ≤ c'.db.clock → AccountEvent env c e c' := by
    intro he husers hclock
    obtain ⟨hstarted, hover⟩ := h.of_ne_called he
    refine .other he husers hclock (fun j p hj => (hstarted j p hj).imp_right ?_) fun j p hj =>
      (hover j p hj).imp_right ?_
    · rintro ⟨q, rfl⟩
      exact start_noCopy q
    · rintro ⟨r, hv⟩
      rw [view_done hv]
      exact ⟨rfl, rfl⟩
  cases h with
  | arrive q hi => exact hother (by simp) rfl le_rfl
  | @call i p s k hi hv =>
    refine .call hi (account_step hv) (clock_of_call env s c.db) ?_
    have husers : (exec env s c.db).2.users = _ := users_of_call hv
    cases hsaves : p.saves env with
    | none =>
      rw [hsaves] at husers
      refine Or.inl ⟨fun u => congrArg (Table.get? · u) husers, fun entity row heq => ?_⟩
      rw [hsaves] at heq
      cases heq
    | some entity =>
      rw [hsaves] at husers
      cases hrow : c.db.savedUser entity with
      | error err =>
        simp only [AuthDb.execSaveUser, hrow] at husers
        refine Or.inl ⟨fun u => congrArg (Table.get? · u) husers, fun entity' row heq => ?_⟩
        rw [hsaves] at heq
        cases heq
        rw [hrow]
        simp
      | ok row =>
        simp only [AuthDb.execSaveUser, hrow] at husers
        refine Or.inr ⟨entity, row, hsaves, hrow, fun u => ?_⟩
        show (exec env s c.db).2.users.get? u = _
        rw [husers]
        exact Table.get?_put _ _ _
  | leave hi hv => exact hother (by simp) rfl le_rfl
  | pass n =>
    have hle : c.db.clock ≤ c.db.clock + n := by omega
    exact hother (by simp) rfl hle

/-! ### What saves write -/

theorem savedUser_login {db : AuthDb} {user row : User} (h : db.savedUser user.entity = .ok row) :
    row.id = user.id ∧ row.isActive = user.isActive ∧ row.passwordHash = user.passwordHash ∧
      row.failedLoginAttempts = user.failedLoginAttempts ∧ row.lockedUntil = user.lockedUntil := by
  obtain ⟨hid, hfailed, hlocked, hactive, hhash⟩ := AuthDb.savedUser_ok h
  exact ⟨hid, (Option.some.inj hactive).symm, (Option.some.inj hhash).symm, hfailed, hlocked⟩

/-- A new password is always accepted. -/
theorem savedUser_password (db : AuthDb) (profile : Profile) (hash : String) :
    ∃ row, db.savedUser (profile.withPassword hash) = .ok row := ⟨_, rfl⟩

theorem savedUser_withPassword {db : AuthDb} {profile : Profile} {hash : String} {row : User}
    (h : db.savedUser (profile.withPassword hash) = .ok row) :
    row.id = profile.id ∧ row.isActive = profile.isActive ∧ row.passwordHash = hash := by
  obtain ⟨hid, -, -, hactive, hhash⟩ := AuthDb.savedUser_ok h
  exact ⟨hid, (Option.some.inj hactive).symm, (Option.some.inj hhash).symm⟩

theorem savedUser_assign {db : AuthDb} {profile : Profile} {dto : UpdateUserDto} {row stored : User}
    (h : db.savedUser (profile.assign dto) = .ok row)
    (hget : db.users.get? profile.id = some stored) :
    row.id = profile.id ∧ row.passwordHash = stored.passwordHash ∧
      dto.isActive.getD (some stored.isActive) = some row.isActive := by
  obtain ⟨hid, -, -, hactive, hhash⟩ := AuthDb.savedUser_ok h
  rw [show (profile.assign dto).id = profile.id from rfl, hget] at hactive hhash
  exact ⟨hid, (Option.some.inj hhash).symm, hactive⟩

end GameClub.Auth
