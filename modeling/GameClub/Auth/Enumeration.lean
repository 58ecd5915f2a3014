import GameClub.Auth.Timed

/-! # What a login tells of an account

Logins for one email, all with wrong passwords, are sent to a store with an active account of that
email and to a store without one. An unknown email and a wrong password are answered alike; a
locked account is answered with a message of its own.

* `run_login_unknown`, `run_login_wrong`, `run_login_locked`: what a login answers, and which account
  it leaves.
* `responses_eq_iff`: the two sequences of responses are equal exactly when no login reads its clock
  while the account is locked.
* `responses_reveal_account`: six logins, a minute apart. -/

namespace GameClub.Auth

open GameClub.Lib GameClub.Common

/-! ### Logins -/

/-- A login, and the time of each of its calls. -/
structure TimedLogin where
  call : LoginCall
  times : ℕ → ℤ

namespace TimedLogin

/-- The program that serves it. -/
def program (env : Env) (q : TimedLogin) : Async IssuedTokens :=
  login env q.call.dto q.call.ctx q.call.g

/-- The response, and the store afterwards. -/
def serve (env : Env) (q : TimedLogin) (db : AuthDb) : Except ErrorResponse IssuedTokens × AuthDb :=
  let y := Timed.run env q.times (q.program env) (0, db)
  (y.1.mapError normalise, y.2.2)

/-- The login is for `email`, with a password that is wrong for `hash`. -/
def Wrong (env : Env) (email hash : String) (q : TimedLogin) : Prop :=
  normalizeEmail env q.call.dto.email = email ∧ env.verify hash q.call.dto.password = false

end TimedLogin

/-- The responses to logins one after another. -/
def responses (env : Env) : List TimedLogin → AuthDb → List (Except ErrorResponse IssuedTokens)
  | [], _ => []
  | q :: qs, db => (q.serve env db).1 :: responses env qs (q.serve env db).2

/-- No login finds the account locked at the time it reads the clock, which is its second call. -/
def NeverLocked (env : Env) (email : String) : List TimedLogin → AuthDb → Prop
  | [], _ => True
  | q :: qs, db =>
    (∀ u lockedUntil, db.findUserByEmail email = some u → u.lockedUntil = some lockedUntil →
      lockedUntil ≤ q.times 1) ∧ NeverLocked env email qs (q.serve env db).2

/-! ### One login -/

/-- The same account as far as a login with a wrong password can tell, its lock apart. -/
structure SameAccount (u v : User) : Prop where
  id : v.id = u.id
  email : v.email = u.email
  isActive : v.isActive = u.isActive
  deletedAt : v.deletedAt = u.deletedAt
  passwordHash : v.passwordHash = u.passwordHash

section Login

variable {env : Env} {times : ℕ → ℤ} {dto : LoginDto} {ctx : RequestContext} {g : Generated}
  {email : String} {u : User} {db : AuthDb}

variable (env times) in
/-- A failure is counted, or locks the account. -/
theorem run_registerFailure (u : User) (x : ℕ × AuthDb) :
    ∃ v y, SameAccount u v ∧ y.2.users = x.2.users.put v ∧
      Timed.run env times (registerFailure u) x = (.ok (), y) := by
  unfold registerFailure
  split_ifs
  · set v := u.failed.locked (times x.1)
    refine ⟨v, (x.1 + 2, { x.2 with users := x.2.users.put v, clock := times (x.1 + 1) }),
      ⟨rfl, rfl, rfl, rfl, rfl⟩, rfl, ?_⟩
    unfold lockOut
    rw [Timed.run_ask_bind _ rfl, Timed.run_ask]
    rfl
  · set v := u.failed
    refine ⟨v, (x.1 + 1, { x.2 with users := x.2.users.put v, clock := times x.1 }),
      ⟨rfl, rfl, rfl, rfl, rfl⟩, rfl, ?_⟩
    rw [Timed.run_ask]
    rfl

variable (env times ctx) in
theorem run_refuse (u : User) (x : ℕ × AuthDb) : ∃ y, y.2.users = x.2.users ∧
    Timed.run env times (refuse ctx u) x = (.error genericError, y) := by
  refine ⟨(x.1 + 1, { x.2 with
    auditLogs := Audit.AuditService.record env.saves
      (auditEntry u.id u.email "LOGIN_FAILED" ctx) x.2.auditLogs
    clock := times x.1 }), rfl, ?_⟩
  unfold refuse
  rw [Timed.run_ask_bind _ rfl, Timed.run_throw]

/-- A wrong password is answered with the generic error. -/
theorem run_authenticate (hwrong : env.verify u.passwordHash dto.password = false)
    (x : ℕ × AuthDb) : ∃ v y, SameAccount u v ∧ y.2.users = x.2.users.put v ∧
      Timed.run env times (authenticate env dto ctx g u) x = (.error genericError, y) := by
  unfold authenticate
  rw [Timed.run_ask_bind _ rfl, hwrong, if_neg Bool.false_ne_true]
  obtain ⟨v, y, hv, husers, hrun⟩ := run_registerFailure env times u
    (x.1 + 1, { x.2 with clock := times x.1 })
  obtain ⟨z, hz, hrefuse⟩ := run_refuse env times ctx u y
  refine ⟨v, z, hv, hz.trans husers, ?_⟩
  rw [Timed.run_bind, hrun]
  exact hrefuse

theorem run_login_unknown (hnone : db.findUserByEmail (normalizeEmail env dto.email) = none) :
    Timed.run env times (login env dto ctx g) (0, db) =
      (.error genericError, 1, { db with clock := times 0 }) := by
  have hfound : exec env (.findUserByEmail (normalizeEmail env dto.email))
      { db with clock := times 0 } = (.ok none, { db with clock := times 0 }) := by
    rw [← hnone]
    rfl
  unfold login
  rw [Timed.run_ask_bind _ hfound]
  rfl

/-- The account has been found. -/
theorem run_login_found (hfound : db.findUserByEmail (normalizeEmail env dto.email) = some u) :
    Timed.run env times (login env dto ctx g) (0, db) =
      Timed.run env times (loginFound env dto ctx g u) (1, { db with clock := times 0 }) := by
  have hexec : exec env (.findUserByEmail (normalizeEmail env dto.email))
      { db with clock := times 0 } = (.ok (some u), { db with clock := times 0 }) := by
    rw [← hfound]
    rfl
  unfold login
  rw [Timed.run_ask_bind _ hexec]

/-- **A wrong password for an account that is not locked**: one more failure. -/
theorem run_login_wrong (hfound : db.findUserByEmail (normalizeEmail env dto.email) = some u)
    (hactive : u.isActive = true) (hwrong : env.verify u.passwordHash dto.password = false)
    (hunlocked : ∀ lockedUntil, u.lockedUntil = some lockedUntil → lockedUntil ≤ times 1) :
    ∃ v y, SameAccount u v ∧ y.2.users = db.users.put v ∧
      Timed.run env times (login env dto ctx g) (0, db) = (.error genericError, y) := by
  rw [run_login_found hfound, loginFound, if_pos hactive]
  cases hlock : u.lockedUntil with
  | none => exact run_authenticate hwrong (1, { db with clock := times 0 })
  | some lockedUntil =>
    have hle := hunlocked lockedUntil hlock
    dsimp only
    rw [Timed.run_ask_bind _ rfl, if_neg (not_lt.mpr hle)]
    exact run_authenticate hwrong (2, { db with clock := times 1 })

/-- **A login that finds the account locked** answers so. -/
theorem run_login_locked (hfound : db.findUserByEmail (normalizeEmail env dto.email) = some u)
    (hactive : u.isActive = true) {lockedUntil : ℤ} (hlock : u.lockedUntil = some lockedUntil)
    (hlt : times 1 < lockedUntil) :
    (Timed.run env times (login env dto ctx g) (0, db)).1 = .error lockedError := by
  rw [run_login_found hfound, loginFound, if_pos hactive, hlock]
  dsimp only
  rw [Timed.run_ask_bind _ rfl, if_pos hlt, Timed.run_throw]

end Login

/-! ### Sequences of logins -/

section Sequences

variable {env : Env} {email : String} {u : User} {db db' : AuthDb}

theorem serve_unknown {q : TimedLogin} (hnone : db.findUserByEmail email = none)
    (hemail : normalizeEmail env q.call.dto.email = email) :
    (q.serve env db).1 = .error (normalise genericError) ∧
      (q.serve env db).2.findUserByEmail email = none := by
  have hrun : Timed.run env q.times (login env q.call.dto q.call.ctx q.call.g) (0, db) = _ :=
    run_login_unknown (hemail ▸ hnone)
  unfold TimedLogin.serve TimedLogin.program
  rw [hrun]
  exact ⟨rfl, hnone⟩

/-- The account is found again after a wrong password, with its hash. -/
theorem serve_wrong {q : TimedLogin} (hfound : db.findUserByEmail email = some u)
    (hactive : u.isActive = true) (hwrong : q.Wrong env email u.passwordHash)
    (hunlocked : ∀ lockedUntil, u.lockedUntil = some lockedUntil → lockedUntil ≤ q.times 1) :
    (q.serve env db).1 = .error (normalise genericError) ∧
      ∃ v, SameAccount u v ∧ (q.serve env db).2.findUserByEmail email = some v := by
  obtain ⟨hemail, hverify⟩ := hwrong
  have hlogin : ∃ v y, SameAccount u v ∧ y.2.users = db.users.put v ∧ Timed.run env q.times
      (login env q.call.dto q.call.ctx q.call.g) (0, db) = (.error genericError, y) :=
    run_login_wrong (hemail ▸ hfound) hactive hverify hunlocked
  obtain ⟨v, y, hv, husers, hrun⟩ := hlogin
  unfold TimedLogin.serve TimedLogin.program
  rw [hrun]
  refine ⟨rfl, v, hv, ?_⟩
  have hsearch := List.find?_some hfound
  simp only [Bool.and_eq_true, decide_eq_true_eq] at hsearch
  unfold AuthDb.findUserByEmail
  rw [husers]
  refine Table.find?_put hfound hv.id ?_
  rw [hv.email, hv.deletedAt]
  simpa using hsearch

/-- **Responses do not tell that the account exists, exactly when no login finds it locked.** -/
theorem responses_eq_iff (env : Env) (email : String) (u : User) (qs : List TimedLogin)
    (db db' : AuthDb) (hfound : db.findUserByEmail email = some u) (hactive : u.isActive = true)
    (hnone : db'.findUserByEmail email = none)
    (hwrong : ∀ q ∈ qs, q.Wrong env email u.passwordHash) :
    responses env qs db = responses env qs db' ↔ NeverLocked env email qs db := by
  induction qs generalizing u db db' with
  | nil => simp [responses, NeverLocked]
  | cons q qs ih =>
    have hq := hwrong q List.mem_cons_self
    obtain ⟨hgeneric, hnone'⟩ := serve_unknown hnone hq.1
    simp only [responses, NeverLocked, hgeneric, List.cons.injEq]
    by_cases hunlocked : ∀ lockedUntil, u.lockedUntil = some lockedUntil → lockedUntil ≤ q.times 1
    · obtain ⟨hresponse, v, hv, hfound'⟩ := serve_wrong hfound hactive hq hunlocked
      have hrest := ih v (q.serve env db).2 (q.serve env db').2 hfound'
        (hv.isActive.trans hactive) hnone' fun p hp => by
          rw [hv.passwordHash]
          exact hwrong p (List.mem_cons_of_mem _ hp)
      have hhead : ∀ w lockedUntil, db.findUserByEmail email = some w →
          w.lockedUntil = some lockedUntil → lockedUntil ≤ q.times 1 := by
        intro w lockedUntil hw
        rw [hfound] at hw
        cases hw
        exact hunlocked lockedUntil
      exact and_congr (iff_of_true hresponse hhead) hrest
    · push Not at hunlocked
      obtain ⟨lockedUntil, hlock, hlt⟩ := hunlocked
      have hlocked : (Timed.run env q.times (login env q.call.dto q.call.ctx q.call.g)
          (0, db)).1 = .error lockedError := run_login_locked (hq.1 ▸ hfound) hactive hlock hlt
      have hresponse : (q.serve env db).1 = .error (normalise lockedError) := by
        unfold TimedLogin.serve TimedLogin.program
        dsimp only
        rw [hlocked]
        rfl
      have hdiffer : ¬(q.serve env db).1 = .error (normalise genericError) := by
        rw [hresponse]
        simp [normalise, lockedError, genericError]
      refine iff_of_false (fun h => hdiffer h.1) fun h => ?_
      exact absurd (h.1 u lockedUntil hfound hlock) (not_le.mpr hlt)

end Sequences

/-! ### Six logins -/

/-- A body of the cashier with a wrong password. -/
def wrongDto : LoginDto where
  email := cashierDto.email
  password := "letmein"
  email_le := cashierDto.email_le
  password_ge := by decide
  password_le := by decide

/-- A login with it, `k` minutes after the first. -/
def wrongAt (k : ℕ) : TimedLogin where
  call := ⟨wrongDto, noContext, ⟨0, 0, "", "", ""⟩⟩
  times _ := 60000 * k

/-- The store with the cashier's account, and the one without. -/
def withCashier : AuthDb := ⟨.single cashier, .empty, [], 0⟩
def withoutCashier : AuthDb := ⟨.empty, .empty, [], 0⟩

theorem wrongAt_wrong : ∀ q ∈ (List.range 6).map wrongAt,
    q.Wrong plainEnv "cashier@club.uz" cashier.passwordHash := by
  intro q hq
  obtain ⟨k, -, rfl⟩ := List.mem_map.mp hq
  have hverify : plainEnv.verify cashier.passwordHash wrongDto.password = false := by decide
  exact ⟨rfl, hverify⟩

/-- The sixth response differs. -/
theorem six_responses :
    responses plainEnv ((List.range 6).map wrongAt) withCashier =
        List.replicate 5 (.error (normalise genericError)) ++ [.error (normalise lockedError)] ∧
      responses plainEnv ((List.range 6).map wrongAt) withoutCashier =
        List.replicate 6 (.error (normalise genericError)) := by
  constructor <;> rfl

theorem responses_eq_iff_cashier :
    responses plainEnv ((List.range 6).map wrongAt) withCashier =
        responses plainEnv ((List.range 6).map wrongAt) withoutCashier ↔
      NeverLocked plainEnv "cashier@club.uz" ((List.range 6).map wrongAt) withCashier :=
  responses_eq_iff plainEnv "cashier@club.uz" cashier _ _ _ rfl rfl rfl wrongAt_wrong

/-- The lock tells that there is an account. -/
theorem responses_reveal_account : ¬∀ (env : Env) (email : String) (u : User)
    (qs : List TimedLogin) (db db' : AuthDb), db.findUserByEmail email = some u →
      u.isActive = true → db'.findUserByEmail email = none →
      (∀ q ∈ qs, q.Wrong env email u.passwordHash) →
        responses env qs db = responses env qs db' := by
  intro h
  have hequal := h plainEnv "cashier@club.uz" cashier _ withCashier withoutCashier rfl rfl rfl
    wrongAt_wrong
  rw [six_responses.1, six_responses.2] at hequal
  simp [List.replicate, normalise, lockedError, genericError] at hequal

end GameClub.Auth
