import GameClub.Auth.Timed
import GameClub.Common.Pagination
import GameClub.Lib.Relate

/-! # Two runs that differ in password hashes

The requests are run twice, with hash functions whose hashes verify the same passwords. The two
stores differ in hashes only, and stay so: a hash is read to verify a password against it, to see
whether it is outdated, and to save it again.

* `exec_sent`: one call of either run.
* `side_handler`: the handlers send related calls, and have one outcome.
* `run_alike`: their runs end alike. -/

namespace GameClub.Auth

open GameClub.Lib GameClub.Common

/-! ### Hashes -/

/-- The same passwords are verified against `h` and against `h'`. -/
def SamePasswords (env : Env) (h h' : String) : Prop :=
  ∀ plain, env.verify h plain = env.verify h' plain

/-- The environment with another hash function. -/
def Env.withHash (env : Env) (hash : String → String → String) : Env :=
  { env with hashPassword := hash }

/-- **Verification gives the same answers in both runs**: against the two hashes of a password, and
against a new hash of a password that has been verified. -/
structure SameVerification (env : Env) (hash : String → String → String) : Prop where
  hashed : ∀ plain salt, SamePasswords env (env.hashPassword plain salt) (hash plain salt)
  rehashed : ∀ h plain salt, env.verify h plain = true →
    SamePasswords env (env.hashPassword plain salt) h

/-- An account with another hash for its password. -/
def UserAlike (env : Env) (u u' : User) : Prop :=
  ∃ h, u' = { u with passwordHash := h } ∧ SamePasswords env u.passwordHash h

/-- An entity with another hash, or none as well. -/
def EntityAlike (env : Env) (e e' : UserEntity) : Prop :=
  ∃ h, e' = { e with passwordHash := h } ∧ Option.Rel (SamePasswords env) e.passwordHash h

/-- Two stores that differ in hashes only. -/
structure StoresAlike (env : Env) (db db' : AuthDb) : Prop where
  users : db.users.Alike (UserAlike env) db'.users
  refreshTokens : db'.refreshTokens = db.refreshTokens
  auditLogs : db'.auditLogs = db.auditLogs
  clock : db'.clock = db.clock

variable {env : Env} {hash : String → String → String}

theorem UserAlike.id_eq (u u' : User) (h : UserAlike env u u') : u.id = u'.id := by
  obtain ⟨h', rfl, -⟩ := h
  rfl

theorem UserAlike.profile_eq (u u' : User) (h : UserAlike env u u') : u.profile = u'.profile := by
  obtain ⟨h', rfl, -⟩ := h
  rfl

theorem entityAlike_of_none (e : UserEntity) (h : e.passwordHash = none) : EntityAlike env e e :=
  ⟨none, by rw [← h], by rw [h]; exact .none⟩

/-! ### Calls side by side -/

/-- A call that reads no hash and writes none. -/
def Plain : Stmt → Prop
  | .findUserByEmail _ | .findUserWithSecret _ | .saveUser _ => False
  | _ => True

/-- **The calls of the two runs.** -/
inductive Sent (env : Env) : Sides Res
  | same {s : Stmt} (h : Plain s) : Sent env s s Eq
  | verify {h h' : String} (plain : String) (hsame : SamePasswords env h h') :
      Sent env (.verify h plain) (.verify h' plain) fun r r' =>
        r = .ok (env.verify h plain) ∧ r' = .ok (env.verify h plain)
  | findUserByEmail (email : String) :
      Sent env (.findUserByEmail email) (.findUserByEmail email)
        (Relates.Result (Option.Rel (UserAlike env)))
  | findUserWithSecret (id : Uuid) :
      Sent env (.findUserWithSecret id) (.findUserWithSecret id)
        (Relates.Result (Option.Rel (UserAlike env)))
  | saveUser {e e' : UserEntity} (h : EntityAlike env e e') :
      Sent env (.saveUser e) (.saveUser e') Eq

/-- Programs side by side. -/
abbrev Side (env : Env) {α β : Type} (R : α → β → Prop) : Async α → Async β → Prop :=
  Relates (Sent env) R

theorem exec_withHash (s : Stmt) (db : AuthDb) : exec (env.withHash hash) s db = exec env s db := by
  cases s <;> rfl

section Stores

variable {db db' : AuthDb} (h : StoresAlike env db db')
include h

theorem StoresAlike.findUserByEmail (email : String) :
    Option.Rel (UserAlike env) (db.findUserByEmail email) (db'.findUserByEmail email) := by
  refine Table.rel_find? h.users fun u u' hu => ?_
  obtain ⟨h', rfl, -⟩ := hu
  rfl

theorem StoresAlike.findUser (id : Uuid) :
    Option.Rel (UserAlike env) (db.findUser id) (db'.findUser id) := by
  refine Table.rel_filter (h.users.get? UserAlike.id_eq id) fun u u' hu => ?_
  obtain ⟨h', rfl, -⟩ := hu
  rfl

omit h in
theorem result_notNull {A : String → String → Prop} {column : String} {x y : Option String}
    (h : Option.Rel A x y) : Relates.Result A (notNull column x) (notNull column y) := by
  cases h with
  | none => rfl
  | some hab => exact hab

/-- What is saved differs in the hash only. -/
theorem StoresAlike.savedUser {e e' : UserEntity} (he : EntityAlike env e e') :
    Relates.Result (UserAlike env) (db.savedUser e) (db'.savedUser e') := by
  obtain ⟨hash', rfl, hhash⟩ := he
  have hget := h.users.get? UserAlike.id_eq e.id
  unfold AuthDb.savedUser
  dsimp only
  generalize db.users.get? e.id = stored at hget ⊢
  generalize db'.users.get? e.id = stored' at hget ⊢
  obtain ⟨hname, hrole, hactive, hstored⟩ :
      stored'.map (·.fullName) = stored.map (·.fullName) ∧
      stored'.elim .cashier (·.role) = stored.elim .cashier (·.role) ∧
      stored'.elim true (·.isActive) = stored.elim true (·.isActive) ∧
      Option.Rel (SamePasswords env) (stored.map (·.passwordHash))
        (stored'.map (·.passwordHash)) := by
    cases hget with
    | none => exact ⟨rfl, rfl, rfl, .none⟩
    | some hu =>
      obtain ⟨h', rfl, hsame⟩ := hu
      exact ⟨rfl, rfl, rfl, .some hsame⟩
  rw [hname, hrole, hactive]
  refine Relates.Result.bind (Relates.Result.refl _) fun fullName _ heq => ?_
  subst heq
  refine Relates.Result.bind (Relates.Result.refl _) fun role _ heq => ?_
  subst heq
  refine Relates.Result.bind (Relates.Result.refl _) fun isActive _ heq => ?_
  subst heq
  refine Relates.Result.bind (result_notNull (Table.rel_or hhash hstored)) fun a b hab => ?_
  exact ⟨b, rfl, hab⟩

theorem exec_sent {s s' : Stmt} {Q : Res s → Res s' → Prop} (hs : Sent env s s' Q) :
    Q (exec env s db).1 (exec env s' db').1 ∧
      StoresAlike env (exec env s db).2 (exec env s' db').2 := by
  cases hs with
  | same hplain =>
    cases s with
    | now => exact ⟨congrArg Except.ok h.clock.symm, h⟩
    | sign claims => exact ⟨by simp [exec, h.clock], h⟩
    | verify hash plain => exact ⟨rfl, h⟩
    | findToken id => exact ⟨by simp [exec, AuthDb.findToken, h.refreshTokens], h⟩
    | insertToken record =>
      simp only [exec, AuthDb.execInsertToken, h.refreshTokens]
      split_ifs
      · exact ⟨rfl, h.users, rfl, h.auditLogs, h.clock⟩
      · exact ⟨rfl, h⟩
    | saveToken record =>
      exact ⟨rfl, h.users, by simp [exec, AuthDb.saveToken, h.refreshTokens], h.auditLogs, h.clock⟩
    | revokeFamily familyId =>
      exact ⟨rfl, h.users, by simp [exec, AuthDb.revoke, h.refreshTokens], h.auditLogs, h.clock⟩
    | revokeAllForUser userId =>
      exact ⟨rfl, h.users, by simp [exec, AuthDb.revoke, h.refreshTokens], h.auditLogs, h.clock⟩
    | findUserByEmail email => exact hplain.elim
    | findUserWithSecret id => exact hplain.elim
    | findUser id =>
      have hprofile := Table.map_eq_of_rel (h.findUser id) UserAlike.profile_eq
      exact ⟨congrArg Except.ok hprofile, h⟩
    | saveUser entity => exact hplain.elim
    | audit entry =>
      exact ⟨rfl, h.users, h.refreshTokens, by simp [exec, h.auditLogs], h.clock⟩
  | verify plain hsame => exact ⟨⟨rfl, congrArg Except.ok (hsame plain).symm⟩, h⟩
  | findUserByEmail email => exact ⟨h.findUserByEmail email, h⟩
  | findUserWithSecret id => exact ⟨h.findUser id, h⟩
  | @saveUser e e' he =>
    have hsaved := h.savedUser he
    simp only [exec, AuthDb.execSaveUser]
    cases hrow : db.savedUser e with
    | error err =>
      cases hrow' : db'.savedUser e' with
      | error err' =>
        rw [hrow, hrow'] at hsaved
        cases hsaved
        exact ⟨rfl, h⟩
      | ok row' =>
        rw [hrow, hrow'] at hsaved
        exact hsaved.elim
    | ok row =>
      cases hrow' : db'.savedUser e' with
      | error err' =>
        rw [hrow, hrow'] at hsaved
        exact hsaved.elim
      | ok row' =>
        rw [hrow, hrow'] at hsaved
        exact ⟨rfl, h.users.put UserAlike.id_eq hsaved, h.refreshTokens, h.auditLogs, h.clock⟩

end Stores

/-! ### Handlers side by side -/

theorem side_ask {s s' : Stmt} {R : Reply s → Reply s' → Prop}
    (hs : Sent env s s' (Relates.Result R)) : Side env R (ask s) (ask s') := by
  refine .call hs fun r r' hr => ?_
  cases r with
  | ok a =>
    cases r' with
    | ok a' => exact .pure hr
    | error e' => exact hr.elim
  | error e =>
    cases r' with
    | ok a' => exact hr.elim
    | error e' =>
      cases hr
      exact .throw e

/-- A call beside itself. -/
theorem side_same {s : Stmt} (hs : Plain s) : Side env Eq (ask s) (ask s) := by
  exact Relates.of_sends (sends_ask hs) fun _ h => .same h

theorem side_save {e e' : UserEntity} (he : EntityAlike env e e') :
    Side env Eq (ask (.saveUser e)) (ask (.saveUser e')) := by
  refine .call (.saveUser he) fun r r' hr => ?_
  subst hr
  cases r with
  | ok a => exact .pure rfl
  | error err => exact .throw err

theorem side_findById (id : UuidText) : Side env Eq (findById id) (findById id) := by
  refine Relates.bind (side_same trivial) fun found _ heq => ?_
  subst heq
  cases found with
  | none => exact .throw _
  | some user => exact .pure rfl

/-- The entity that an update returns was found without its hash. -/
theorem side_update (id : UuidText) (dto : UpdateUserDto) :
    Side env (fun e e' => e = e' ∧ e.passwordHash = none) (update id dto) (update id dto) := by
  refine Relates.bind (side_findById id) fun user _ heq => ?_
  subst heq
  refine Relates.bind (side_save (entityAlike_of_none _ rfl)) fun _ _ _ => ?_
  exact .pure ⟨rfl, rfl⟩

/-! ### Programs that touch no account -/

theorem plain_tokenCalls : TokenCalls Plain :=
  ⟨trivial, fun _ => trivial, fun _ _ => trivial, fun _ => trivial, fun _ => trivial,
    fun _ => trivial, fun _ => trivial⟩

/-- A plain program beside itself. -/
theorem side_plain {α : Type} {p : Async α} (h : p.Sends Plain) : Side env Eq p p :=
  Relates.of_sends h fun _ hs => .same hs

/-! ### Programs that read and save an account -/

section Users

variable {user : User} {h : String} (hsame : SamePasswords env user.passwordHash h)
include hsame

theorem side_registerFailure :
    Side env Eq (registerFailure user) (registerFailure { user with passwordHash := h }) := by
  set user' : User := { user with passwordHash := h }
  have hlocked : ∀ now, EntityAlike env (user.failed.locked now).entity
      (user'.failed.locked now).entity := fun now => ⟨some h, rfl, .some hsame⟩
  have hfailed : EntityAlike env user.failed.entity user'.failed.entity :=
    ⟨some h, rfl, .some hsame⟩
  have hcount : user'.failed.failedLoginAttempts = user.failed.failedLoginAttempts := rfl
  unfold registerFailure
  rw [hcount]
  split_ifs
  · unfold lockOut
    refine Relates.bind (side_same (s := .now) trivial) fun now _ heq => ?_
    subst heq
    exact side_save (hlocked now)
  · exact side_save hfailed

/-- The hash of an account that has signed in: a new one, or the stored one. -/
theorem loggedIn_alike (hver : SameVerification env hash) {password : String}
    (hok : env.verify user.passwordHash password = true) (salt : String) (now : ℤ) :
    EntityAlike env (user.loggedIn env password salt now).entity
      (({ user with passwordHash := h } : User).loggedIn (env.withHash hash) password salt
        now).entity := by
  have hnew := hver.hashed password salt
  have hold := hver.rehashed user.passwordHash password salt hok
  refine ⟨some (if env.needsRehash h then hash password salt else h), rfl, .some fun plain => ?_⟩
  simp only [User.loggedIn]
  by_cases hneeds : env.needsRehash user.passwordHash = true
  · by_cases hneeds' : env.needsRehash h = true
    · rw [if_pos hneeds, if_pos hneeds']
      exact hnew plain
    · rw [if_pos hneeds, if_neg hneeds']
      exact (hold plain).trans (hsame plain)
  · by_cases hneeds' : env.needsRehash h = true
    · rw [if_neg hneeds, if_pos hneeds']
      exact (hold plain).symm.trans (hnew plain)
    · rw [if_neg hneeds, if_neg hneeds']
      exact hsame plain

theorem side_authenticate (hver : SameVerification env hash) (dto : LoginDto)
    (ctx : RequestContext) (g : Generated) :
    Side env Eq (authenticate env dto ctx g user)
      (authenticate (env.withHash hash) dto ctx g { user with passwordHash := h }) := by
  refine Relates.bind (R := fun ok ok' => ok = env.verify user.passwordHash dto.password ∧ ok' = ok)
    (.call (.verify dto.password hsame) ?_) ?_
  · rintro r r' ⟨rfl, rfl⟩
    exact .pure ⟨rfl, rfl⟩
  · rintro _ ok ⟨hok, rfl⟩
    by_cases hright : ok = true
    · rw [if_pos hright, if_pos hright]
      refine Relates.bind (side_same (s := .now) trivial) fun now _ heq => ?_
      subst heq
      refine Relates.bind (side_save (loggedIn_alike hsame hver (hok ▸ hright) _ now))
        fun _ _ _ => ?_
      have hwelcome : (welcome env ctx g (user.loggedIn env dto.password g.passwordSalt
          now)).Sends Plain :=
        Prog.Sends.bind (sends_ask trivial) fun _ => sends_issue plain_tokenCalls _ _ _ _
      exact side_plain hwelcome
    · rw [if_neg hright, if_neg hright]
      refine Relates.bind (side_registerFailure hsame) fun _ _ _ => ?_
      exact Relates.bind (side_same (s := .audit _) trivial) fun _ _ _ => .throw _

theorem side_loginFound (hver : SameVerification env hash) (dto : LoginDto)
    (ctx : RequestContext) (g : Generated) :
    Side env Eq (loginFound env dto ctx g user)
      (loginFound (env.withHash hash) dto ctx g { user with passwordHash := h }) := by
  have hauth := side_authenticate hsame hver dto ctx g
  set user' : User := { user with passwordHash := h }
  have hactive : user'.isActive = user.isActive := rfl
  have hlock : user'.lockedUntil = user.lockedUntil := rfl
  unfold loginFound
  rw [hactive, hlock]
  split_ifs
  · cases user.lockedUntil with
    | none => exact hauth
    | some lockedUntil =>
      refine Relates.bind (side_same (s := .now) trivial) fun now _ heq => ?_
      subst heq
      split_ifs
      · exact .throw _
      · exact hauth
  · exact .throw _

theorem side_changeFound (hver : SameVerification env hash) (userId : Uuid)
    (dto : ChangePasswordDto) (ctx : RequestContext) (salt : String) :
    Side env Eq
      (ask (.verify user.passwordHash dto.currentPassword) >>= fun ok =>
        changeVerified env userId dto ctx salt user ok)
      (ask (.verify h dto.currentPassword) >>= fun ok =>
        changeVerified (env.withHash hash) userId dto ctx salt { user with passwordHash := h }
          ok) := by
  refine Relates.bind (R := Eq) (.call (.verify dto.currentPassword hsame) ?_) ?_
  · rintro r r' ⟨rfl, rfl⟩
    exact .pure rfl
  · rintro ok _ rfl
    unfold changeVerified
    split_ifs
    · refine Relates.bind (R := Eq) ?_ fun _ _ _ => ?_
      · refine Relates.bind (side_findById _) fun profile _ heq => ?_
        subst heq
        exact side_save ⟨_, rfl, .some (hver.hashed _ _)⟩
      · exact side_plain (Prog.Sends.bind (sends_ask trivial) fun _ => sends_ask trivial)
    · exact .throw _

end Users

theorem side_login (hver : SameVerification env hash) (dto : LoginDto) (ctx : RequestContext)
    (g : Generated) :
    Side env Eq (login env dto ctx g) (login (env.withHash hash) dto ctx g) := by
  refine Relates.bind (side_ask (.findUserByEmail _)) fun found found' hfound => ?_
  cases hfound with
  | none => exact .throw _
  | some hu =>
    obtain ⟨h', rfl, hsame⟩ := hu
    exact side_loginFound hsame hver dto ctx g

theorem side_changePassword (hver : SameVerification env hash) (userId : Uuid)
    (dto : ChangePasswordDto) (ctx : RequestContext) (salt : String) :
    Side env Eq (changePassword env userId dto ctx salt)
      (changePassword (env.withHash hash) userId dto ctx salt) := by
  refine Relates.bind (side_ask (.findUserWithSecret userId)) fun found found' hfound => ?_
  cases hfound with
  | none => exact .throw _
  | some hu =>
    obtain ⟨h', rfl, hsame⟩ := hu
    exact side_changeFound hsame hver userId dto ctx salt

/-- One outcome, with no hash in it. -/
def OutcomeAlike (o o' : Outcome) : Prop := o = o' ∧ ∀ e, o = .user e → e.passwordHash = none

/-- **The handlers send related calls**, and have one outcome. -/
theorem side_handler (hver : SameVerification env hash) (q : Request) :
    Side env OutcomeAlike (handler env q) (handler (env.withHash hash) q) := by
  cases q with
  | login q =>
    refine Relates.bind (side_login hver q.dto q.ctx q.g) fun t _ heq => ?_
    exact .pure ⟨congrArg Outcome.tokens heq, fun _ he => nomatch he⟩
  | refresh q =>
    refine Relates.bind (side_plain
      (sends_refresh plain_tokenCalls (fun _ => trivial) q.presented q.ctx q.g)) fun t _ heq => ?_
    exact .pure ⟨congrArg Outcome.tokens heq, fun _ he => nomatch he⟩
  | logout presented =>
    refine Relates.bind (side_plain (sends_logout plain_tokenCalls presented)) fun _ _ _ => ?_
    exact .pure ⟨rfl, fun _ he => nomatch he⟩
  | changePassword q =>
    refine Relates.bind (side_changePassword hver q.userId q.dto q.ctx q.salt) fun _ _ _ => ?_
    exact .pure ⟨rfl, fun _ he => nomatch he⟩
  | updateUser id dto =>
    refine Relates.bind (side_update id dto) fun saved _ ⟨heq, hnone⟩ => ?_
    refine .pure ⟨congrArg Outcome.user heq, fun e he => ?_⟩
    cases he
    exact hnone

/-! ### Runs side by side -/

/-- The calls made so far, and two stores that differ in hashes only. -/
def Abreast (env : Env) (x y : ℕ × AuthDb) : Prop := x.1 = y.1 ∧ StoresAlike env x.2 y.2

theorem answer_sent {times : ℕ → ℤ} {s s' : Stmt} {Q : Res s → Res s' → Prop}
    (hs : Sent env s s' Q) {x y : ℕ × AuthDb} (hxy : Abreast env x y) :
    Q (Timed.answer env times s x).1 (Timed.answer (env.withHash hash) times s' y).1 ∧
      Abreast env (Timed.answer env times s x).2
        (Timed.answer (env.withHash hash) times s' y).2 := by
  obtain ⟨k, d⟩ := x
  obtain ⟨k', d'⟩ := y
  obtain ⟨hk, hd⟩ := hxy
  dsimp only at hk hd
  subst hk
  have hclock : StoresAlike env { d with clock := times k } { d' with clock := times k } :=
    ⟨hd.users, hd.refreshTokens, hd.auditLogs, rfl⟩
  obtain ⟨hreply, hstores⟩ := exec_sent hclock hs
  simp only [Timed.answer, exec_withHash]
  exact ⟨hreply, rfl, hstores⟩

/-- **Related programs on one schedule** end alike, on stores that differ in hashes only. -/
theorem run_alike {α β : Type} {R : α → β → Prop} {p : Async α} {p' : Async β}
    (h : Side env R p p') (times : ℕ → ℤ) {db db' : AuthDb} (hdb : StoresAlike env db db') :
    Relates.Result R (Timed.run env times p (0, db)).1
        (Timed.run (env.withHash hash) times p' (0, db')).1 ∧
      Abreast env (Timed.run env times p (0, db)).2
        (Timed.run (env.withHash hash) times p' (0, db')).2 := by
  have hstart : Abreast env (0, db) (0, db') := ⟨rfl, hdb⟩
  have hanswer : ∀ {s s' : Stmt} {Q : Res s → Res s' → Prop}, Sent env s s' Q →
      ∀ {x y}, Abreast env x y →
        Q (Timed.answer env times s x).1 (Timed.answer (env.withHash hash) times s' y).1 ∧
          Abreast env (Timed.answer env times s x).2
            (Timed.answer (env.withHash hash) times s' y).2 :=
    fun hs _ _ hxy => answer_sent hs hxy
  exact Relates.serve (S := Sent env) hanswer h hstart

end GameClub.Auth
