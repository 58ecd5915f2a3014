import GameClub.Api.Authority
import GameClub.Lib.Journal

/-! # The audit trail

The audit interceptor records an entry when an audited handler has returned; a login and a change of a
password record their own; and nothing else is recorded.

* `LoginTrail`, `leaves_login`, `leaves_changePassword`: what the two leave.
* `Trail`: what a request leaves in the audit, by its outcome. `leaves_handle`: every request does.
* `audit_trail`: the rows of an interleaved run are those of the requests. -/

namespace GameClub.Api

open GameClub.Lib GameClub.Lib.Interleave GameClub.Common GameClub.Store
open GameClub.Auth (AccessTokenClaims AuthDb ErrorResponse Generated IssuedTokens LoginDto
  ChangePasswordDto RequestContext User auditEntry normalise)
open GameClub.Audit (AuditEntryInput AuditLog JsValue)

/-! ### Entries -/

/-- The entries that a program on the accounts records. -/
def accountsJournal (env : Auth.Env) : Journal Auth.Res AuthDb AuditEntryInput where
  exec := Auth.exec env
  entry
    | .audit entry, _ => some entry
    | _, _ => none

/-- The entries of the interceptor, and those of the handlers. -/
def auditJournal (env : Env) : Journal Res Server AuditEntryInput where
  exec := exec env
  entry
    | .record entry, _ => some entry
    | .account (.audit entry), _ => some entry
    | _, _ => none

/-- **What a login leaves**: its success or its failure, for an account with the email, by whether the
password is verified against the hash; or nothing, when it is refused before or while it is stored. -/
inductive LoginTrail {ε α : Type} (env : Auth.Env) (dto : LoginDto) (ctx : RequestContext) :
    Except ε α → List AuditEntryInput → Prop
  | refused (e : ε) : LoginTrail env dto ctx (.error e) []
  | failed (e : ε) {user : User} (hemail : user.email = Auth.normalizeEmail env dto.email)
      (hwrong : env.verify user.passwordHash dto.password = false) :
      LoginTrail env dto ctx (.error e) [auditEntry user.id user.email "LOGIN_FAILED" ctx]
  | success (r : Except ε α) {user : User}
      (hemail : user.email = Auth.normalizeEmail env dto.email)
      (hright : env.verify user.passwordHash dto.password = true) :
      LoginTrail env dto ctx r [auditEntry user.id user.email "LOGIN_SUCCESS" ctx]

/-- **What a change of a password leaves**: one entry for the account, once it is done. -/
inductive ChangeTrail {ε α : Type} (sub : Uuid) (ctx : RequestContext) :
    Except ε α → List AuditEntryInput → Prop
  | refused (e : ε) : ChangeTrail sub ctx (.error e) []
  | changed (a : α) {user : User} (hid : user.id = sub) :
      ChangeTrail sub ctx (.ok a) [auditEntry sub user.email "PASSWORD_CHANGED" ctx]

/-- The principal comes from a token of the request. -/
def Presents (env : Env) (req : Request) (claims : AccessTokenClaims) : Prop :=
  ∃ token time, Realtime.JwtAuthGuard.extractToken req.http = some token ∧
    env.verifyAsync token time = some claims

/-- **What a handler leaves itself**: nothing, but for a login, and for a change of the password of the
principal of the token. -/
inductive Own {α : Type} (env : Env) (req : Request) :
    Except ErrorResponse α → List AuditEntryInput → Prop
  | refused (e : ErrorResponse) : Own env req (.error e) []
  | silent (a : α) (h : ¬ req.handler.Records) : Own env req (.ok a) []
  | login {r : Except ErrorResponse α} {es : List AuditEntryInput} {dto : LoginDto} {g : Generated}
      (haction : req.action = .ok (.login dto g)) (h : LoginTrail env.toEnv dto req.ctx r es) :
      Own env req r es
  | changePassword {r : Except ErrorResponse α} {es : List AuditEntryInput} {dto : ChangePasswordDto}
      {salt : String} {claims : AccessTokenClaims}
      (haction : req.action = .ok (.changePassword dto salt)) (hpresents : Presents env req claims)
      (h : ChangeTrail claims.sub req.ctx r es) : Own env req r es

/-- **What a request leaves in the audit**: one entry when an audited handler has answered it, for the
principal of its token, whose role the handler allows; and otherwise what its handler leaves. -/
def Trail (env : Env) (req : Request) (r : Except ErrorResponse JsValue)
    (es : List AuditEntryInput) : Prop :=
  match r, req.handler.audited with
  | .ok response, some audited => ∃ claims, Presents env req claims ∧
      req.handler.Allows claims.role ∧
        es = [Audit.AuditInterceptor.entry audited.metadata (req.audit (some claims)) response]
  | r, _ => Own env req r es

/-- The rows after these entries. -/
def recorded (env : Env) (logs : List AuditLog) (es : List AuditEntryInput) : List AuditLog :=
  es.foldl (fun logs e => Audit.AuditService.record env.saves e logs) logs

theorem recorded_append {env : Env} (logs : List AuditLog) (es es' : List AuditEntryInput) :
    recorded env logs (es ++ es') = recorded env (recorded env logs es) es' := List.foldl_append ..

/-! ### The handlers of the accounts -/

section Accounts

variable {env : Auth.Env} {α : Type} {es : List AuditEntryInput}

/-- The call leaves no entry. -/
def Unaudited (env : Auth.Env) (s : Auth.Stmt) : Prop := ∀ r, (accountsJournal env).entry s r = none

theorem unaudited_tokenCalls : Auth.TokenCalls (Unaudited env) where
  now _ := rfl
  sign _ _ := rfl
  verify _ _ _ := rfl
  findToken _ _ := rfl
  insertToken _ _ := rfl
  saveToken _ _ := rfl
  revokeFamily _ _ := rfl

/-- A call that leaves no entry, and what follows. -/
theorem leaves_ask_bind {s : Auth.Stmt} {f : Auth.Reply s → Auth.Async α}
    {Q : Except Thrown α → List AuditEntryInput → Prop} (hs : Unaudited env s)
    (he : ∀ e, Q (.error e) es)
    (hf : ∀ db a, (Auth.exec env s db).1 = .ok a → (accountsJournal env).Leaves (f a) Q es) :
    (accountsJournal env).Leaves (Auth.ask s >>= f) Q es := by
  intro db
  have hnone : (accountsJournal env).entry s ((accountsJournal env).exec s db).1 = none := hs _
  rw [hnone, Option.toList_none, List.append_nil]
  cases hr : (Auth.exec env s db).1 with
  | error e =>
    have hreply : ((accountsJournal env).exec s db).1 = .error e := hr
    rw [hreply]
    exact he e
  | ok a =>
    have hreply : ((accountsJournal env).exec s db).1 = .ok a := hr
    rw [hreply]
    exact hf db a hr

/-- A program that leaves no entry, and what follows. -/
theorem leaves_silent_bind {β : Type} {p : Auth.Async β} {f : β → Auth.Async α}
    {Q : Except Thrown α → List AuditEntryInput → Prop} (hp : p.Sends (Unaudited env))
    (he : ∀ e, Q (.error e) es) (hf : ∀ b, (accountsJournal env).Leaves (f b) Q es) :
    (accountsJournal env).Leaves (p >>= f) Q es := by
  have hleaves : (accountsJournal env).Leaves p (fun _ es' => es' = es) es :=
    Journal.leaves_of_sends hp fun _ => rfl
  exact Journal.leaves_bind hleaves (fun e _ heq => heq ▸ he e) fun b _ heq => heq ▸ hf b

variable (dto : LoginDto) (ctx : RequestContext) (g : Generated) {user : User}

theorem leaves_authenticate (hemail : user.email = Auth.normalizeEmail env dto.email) :
    (accountsJournal env).Leaves (Auth.authenticate env dto ctx g user)
      (LoginTrail env dto ctx) [] := by
  refine leaves_ask_bind (fun _ => rfl) .refused fun db (ok : Bool) hok => ?_
  have hverify : env.verify user.passwordHash dto.password = ok := Except.ok.inj hok
  cases ok with
  | true =>
    refine leaves_ask_bind (fun _ => rfl) .refused fun _ now _ => ?_
    refine leaves_ask_bind (fun _ => rfl) .refused fun _ _ _ => ?_
    -- the account is saved, so that the success is recorded before the tokens are issued
    intro db
    have hsuccess : ∀ r : Except Thrown IssuedTokens, LoginTrail env dto ctx r
        [auditEntry user.id user.email "LOGIN_SUCCESS" ctx] := fun r => .success r hemail hverify
    exact Journal.leaves_of_sends (Auth.sends_issue unaudited_tokenCalls _ _ _ _) hsuccess
  | false =>
    refine leaves_silent_bind (Auth.sends_registerFailure (fun _ => rfl) (fun _ _ => rfl) user)
      .refused fun _ => ?_
    intro db
    exact .failed _ hemail hverify

/-- **A login** leaves its trail. -/
theorem leaves_login :
    (accountsJournal env).Leaves (Auth.login env dto ctx g) (LoginTrail env dto ctx) [] := by
  refine leaves_ask_bind (fun _ => rfl) .refused fun db (found : Option User) hfound => ?_
  cases found with
  | none => exact .refused _
  | some user =>
    have hfind : db.findUserByEmail (Auth.normalizeEmail env dto.email) = some user :=
      Except.ok.inj hfound
    have hemail : user.email = Auth.normalizeEmail env dto.email := by
      have hmatch := List.find?_some hfind
      exact of_decide_eq_true (Bool.and_eq_true_iff.mp hmatch).1
    unfold Auth.loginFound
    dsimp only
    split_ifs
    · cases user.lockedUntil with
      | none => exact leaves_authenticate dto ctx g hemail
      | some lockedUntil =>
        refine leaves_ask_bind (fun _ => rfl) .refused fun _ (now : ℤ) _ => ?_
        split_ifs
        · exact .refused _
        · exact leaves_authenticate dto ctx g hemail
    · exact .refused _

/-- **A change of a password** leaves its trail. -/
theorem leaves_changePassword (userId : Uuid) (dto : ChangePasswordDto) (salt : String) :
    (accountsJournal env).Leaves (Auth.changePassword env userId dto ctx salt)
      (ChangeTrail userId ctx) [] := by
  refine leaves_ask_bind (fun _ => rfl) .refused fun db (found : Option User) hfound => ?_
  cases found with
  | none => exact .refused _
  | some user =>
    have hfind : db.findUser userId = some user := Except.ok.inj hfound
    have hid : user.id = userId := Table.key_of_get? (AuthDb.findUser_eq_some.mp hfind).1
    refine leaves_ask_bind (fun _ => rfl) .refused fun _ (ok : Bool) _ => ?_
    cases ok with
    | false => exact .refused _
    | true =>
      refine leaves_silent_bind (Auth.sends_setPassword (fun _ _ => rfl) (fun _ _ => rfl) _ _ _)
        .refused fun _ => ?_
      refine leaves_ask_bind (fun _ => rfl) .refused fun _ _ _ => ?_
      exact fun db => .changed () hid

end Accounts

/-! ### One request -/

section Requests

variable {env : Env} {req : Request} {es : List AuditEntryInput} {α : Type}

/-- What a program on the accounts leaves, it leaves as part of a request. -/
theorem leaves_onAccounts {p : Auth.Async α} {Q : Except ErrorResponse α → List AuditEntryInput → Prop}
    (hp : (accountsJournal env.toEnv).Leaves p (fun r es => Q (r.mapError normalise) es) es) :
    (auditJournal env).Leaves (onAccounts p) Q es := by
  induction p generalizing es with
  | pure a => exact hp
  | throw e => exact hp
  | call s k ih =>
    intro w
    have hentry : ∀ r, (auditJournal env).entry (.account s) r =
        (accountsJournal env.toEnv).entry s r := fun r => by cases s <;> rfl
    rw [hentry]
    exact ih _ (hp w.accounts)

theorem LoginTrail.map {β ε ε' : Type} {env : Auth.Env} {dto : LoginDto} {ctx : RequestContext}
    {r : Except ε α} (h : LoginTrail env dto ctx r es) (f : ε → ε') (g : α → β) :
    LoginTrail env dto ctx ((r.mapError f).map g) es := by
  cases h with
  | refused e => exact .refused (f e)
  | failed e hemail hwrong => exact .failed (f e) hemail hwrong
  | success r hemail hright => exact .success _ hemail hright

theorem ChangeTrail.map {β ε ε' : Type} {sub : Uuid} {ctx : RequestContext} {r : Except ε α}
    (h : ChangeTrail sub ctx r es) (f : ε → ε') (g : α → β) :
    ChangeTrail sub ctx ((r.mapError f).map g) es := by
  cases h with
  | refused e => exact .refused (f e)
  | changed a hid => exact .changed (g a) hid

/-- The answer that is made of what the handler returns. -/
theorem Own.map {β : Type} {r : Except ErrorResponse α} (h : Own env req r es) (g : α → β) :
    Own env req (r.map g) es := by
  have hsame : (r.mapError fun e => e) = r := by cases r <;> rfl
  cases h with
  | refused e => exact .refused e
  | silent a h => exact .silent (g a) h
  | login haction h => exact .login haction (hsame ▸ h.map (fun e => e) g)
  | changePassword haction hpresents h =>
    exact .changePassword haction hpresents (hsame ▸ h.map (fun e => e) g)

/-- An audited handler leaves nothing itself. -/
theorem Own.eq_nil {r : Except ErrorResponse α} (h : Own env req r es)
    (haudited : req.handler.audited ≠ none) : es = [] := by
  cases h with
  | refused e => rfl
  | silent a h => rfl
  | login haction h =>
    rw [← req.routed _ haction] at haudited
    exact absurd rfl haudited
  | changePassword haction hpresents h =>
    rw [← req.routed _ haction] at haudited
    exact absurd rfl haudited

/-- The call leaves no entry. -/
def Unrecorded (env : Env) (s : Stmt) : Prop := ∀ r, (auditJournal env).entry s r = none

theorem unrecorded_admits : Admits (Unrecorded env) where
  account s hs r := by
    cases s with
    | audit entry => exact absurd rfl (hs entry)
    | _ => rfl
  insertUser _ _ := rfl
  softRemoveUser _ _ := rfl
  findSetting _ _ := rfl
  saveSetting _ _ := rfl
  other _ _ := rfl

/-- A program on the accounts, and what the handler returns of it. -/
theorem leaves_returned {p : Auth.Async α} {f : α → Returned}
    {T : Except Thrown α → List AuditEntryInput → Prop}
    (hp : (accountsJournal env.toEnv).Leaves p T [])
    (hmap : ∀ r es, T r es → Own env req ((r.mapError normalise).map f) es) :
    (auditJournal env).Leaves (onAccounts p >>= fun a => pure (f a) : Async Returned)
      (Own env req) [] := by
  have hreturned : (auditJournal env).Leaves (onAccounts p)
      (fun r es => Own env req (r.map f) es) [] := leaves_onAccounts (hp.mono hmap)
  exact Journal.leaves_bind hreturned (fun _ _ h => h) fun _ _ h => h

/-- **What a handler leaves**, for the principal the guard has attached. -/
theorem leaves_run {user : Option AccessTokenClaims} {a : Action} (haction : req.action = .ok a)
    (hpresents : ∀ claims, user = some claims → Presents env req claims) :
    (auditJournal env).Leaves (a.run env req user) (Own env req) [] := by
  have hrouted : a.handler = req.handler := req.routed a haction
  by_cases hrecords : a.handler.Records
  · cases a with
    | login dto g =>
      exact leaves_returned (leaves_login dto req.ctx g) fun r es h =>
        .login haction (LoginTrail.map h normalise _)
    | changePassword dto salt =>
      refine Journal.leaves_lift_bind (fun e _ => .refused e) fun claims hclaims => ?_
      have huser : user = some claims := by
        cases user with
        | none => cases hclaims
        | some claims' =>
          cases hclaims
          rfl
      exact leaves_returned (leaves_changePassword req.ctx claims.sub dto salt) fun r es h =>
        .changePassword haction (hpresents claims huser) (ChangeTrail.map h normalise _)
    | other handler hother =>
      rcases hrecords with rfl | rfl <;> simp at hother
    | _ => rcases hrecords with h | h <;> cases h
  · have hrun : (auditJournal env).Leaves (a.run env req user) (fun _ es => es = []) [] :=
      Journal.leaves_of_sends (sends_run unrecorded_admits user a (fun _ _ _ _ => rfl)
        fun h => absurd h hrecords) fun _ => rfl
    refine hrun.mono fun r es hes => ?_
    subst hes
    cases r with
    | error e => exact .refused e
    | ok returned => exact .silent returned (hrouted ▸ hrecords)

/-- **The guard** leaves nothing, and attaches the principal of the token. -/
theorem leaves_canActivate :
    (auditJournal env).Leaves (JwtAuthGuard.canActivate req)
      (fun r es => es = [] ∧
        ∀ user, r = .ok user → ∀ claims, user = some claims → Presents env req claims) [] := by
  unfold JwtAuthGuard.canActivate
  split_ifs
  · refine ⟨rfl, fun user hr claims hu => ?_⟩
    cases hr
    cases hu
  · split
    · exact ⟨rfl, fun user hr => nomatch hr⟩
    · next token htoken =>
      intro w
      have hreply : ((auditJournal env).exec (.verifyAsync token) w).1 =
          env.verifyAsync token w.accounts.clock := rfl
      rw [hreply]
      cases hv : env.verifyAsync token w.accounts.clock with
      | none => exact ⟨rfl, fun user hr => nomatch hr⟩
      | some payload =>
        refine ⟨rfl, fun user hr claims hu => ?_⟩
        cases hr
        cases hu
        exact ⟨token, _, (Option.filter_eq_some_iff.mp htoken).1, hv⟩

/-- **The interceptor** leaves the entry of an audited handler. -/
theorem leaves_intercepted {user : Option AccessTokenClaims} {returned : Returned}
    (hown : Own env req (.ok returned) es)
    (hpresents : ∀ claims, user = some claims → Presents env req claims)
    (hroles : RolesGuard.canActivate req.handler user = .ok ()) :
    (auditJournal env).Leaves (intercepted env req user returned) (Trail env req) es := by
  unfold intercepted
  dsimp only
  cases haudited : req.handler.audited with
  | none =>
    have htrail : Trail env req (.ok (Audit.ResponseInterceptor.envelope (req.audit user) req.now
        (env.object returned))) es := by
      unfold Trail
      rw [haudited]
      exact hown.map fun returned =>
        Audit.ResponseInterceptor.envelope (req.audit user) req.now (env.object returned)
    exact htrail
  | some audited =>
    obtain rfl := hown.eq_nil (by simp [haudited])
    obtain ⟨claims, rfl, hallows⟩ : ∃ claims, user = some claims ∧ req.handler.Allows claims.role :=
      (RolesGuard.canActivate_ok.mp hroles).resolve_left (required_of_audited haudited)
    intro w
    have htrail : Trail env req (.ok (Audit.ResponseInterceptor.envelope (req.audit (some claims))
        req.now (env.object returned))) [Audit.AuditInterceptor.entry audited.metadata
          (req.audit (some claims)) (Audit.ResponseInterceptor.envelope (req.audit (some claims))
            req.now (env.object returned))] := by
      unfold Trail
      rw [haudited]
      exact ⟨claims, hpresents claims rfl, hallows, rfl⟩
    exact htrail

/-- A request that fails leaves what its handler has left. -/
theorem Own.trail_error {e : ErrorResponse} (h : Own (α := JsValue) env req (.error e) es) :
    Trail env req (.error e) es := by
  unfold Trail
  exact h

/-- **Every request leaves its trail.** -/
theorem leaves_handle (req : Request) :
    (auditJournal env).Leaves (handle env req) (Trail env req) [] := by
  unfold handle
  refine Journal.leaves_bind leaves_canActivate ?_ ?_
  · rintro e es ⟨rfl, -⟩
    exact (Own.refused e).trail_error
  rintro user es ⟨rfl, hpresents⟩
  refine Journal.leaves_lift_bind (fun e _ => (Own.refused e).trail_error) fun _ hroles => ?_
  refine Journal.leaves_lift_bind (fun e _ => (Own.refused e).trail_error) fun a haction => ?_
  refine Journal.leaves_bind (leaves_run haction (hpresents user rfl)) (fun e es hown => ?_)
    fun returned es hown => leaves_intercepted hown (hpresents user rfl) hroles
  exact (hown.map fun _ => JsValue.undefined).trail_error

theorem keeps (env : Env) : (auditJournal env).Keeps (system env) (Trail env) where
  exec := rfl
  view := rfl
  start := leaves_handle

end Requests

/-! ### Runs -/

section Runs

variable {env : Env} {w₀ : Server} {tr : List ApiEvent} {c : ApiConfig}

/-- A call adds the row of its entry, if it leaves one. -/
theorem auditLogs_exec (s : Stmt) (w : Server) : (exec env s w).2.accounts.auditLogs =
    recorded env w.accounts.auditLogs ((auditJournal env).entry s (exec env s w).1).toList := by
  cases s with
  | account s =>
    cases s with
    | insertToken record =>
      simp only [exec, Auth.exec, AuthDb.execInsertToken]
      split_ifs <;> rfl
    | saveUser entity =>
      simp only [exec, Auth.exec, AuthDb.execSaveUser]
      split <;> rfl
    | _ => rfl
  | insertUser user =>
    simp only [exec, execInsertUser]
    split_ifs <;> rfl
  | _ => rfl

/-- **The rows are those of the entries**, in the order of their calls. -/
theorem auditLogs_recorded (hrun : (system env).Run (fun _ _ => True) (.idle w₀) tr c) :
    c.db.accounts.auditLogs =
      recorded env w₀.accounts.auditLogs ((auditJournal env).entries tr) := by
  induction hrun with
  | nil => rfl
  | step _ hs _ ih =>
    cases hs with
    | arrive q hi => exact ih
    | leave hi hv => exact ih
    | pass n => exact ih
    | @call i p s k hi hv =>
      cases p with
      | pure a => cases hv
      | throw e => cases hv
      | call s' k' =>
        cases hv
        rw [Journal.entries, recorded_append, ← ih]
        exact auditLogs_exec s _

/-- **The audit trail is complete and says nothing else.** In every interleaved run the rows of the
audit are those of the entries that have been recorded, but for those the database refuses. A request
that is over has left one entry, for the principal of its token, if it is audited and was answered; a
login one of its success or its failure, unless it was refused before; a change of a password one, for
the principal, if it was done; and any other request none. When no request is in flight there are no
other entries. -/
theorem audit_trail (hrun : (system env).Run (fun _ _ => True) (.idle w₀) tr c) :
    c.db.accounts.auditLogs =
        recorded env w₀.accounts.auditLogs ((auditJournal env).entries tr) ∧
      (∀ x ∈ (auditJournal env).completed tr, Trail env x.1 x.2.1 x.2.2) ∧
      (c.Quiet → ((auditJournal env).entries tr).Perm ((auditJournal env).completedEntries tr)) := by
  have hkept := Journal.run (keeps env) hrun
  exact ⟨auditLogs_recorded hrun, hkept.completed, hkept.quiet⟩

end Runs

/-- The trail of the shift: the login, and the customers that were created. -/
theorem audit_trail_shift : ∃ (tr : List ApiEvent) (c : ApiConfig),
    (system plainEnv).Run (fun _ _ => True) (.idle oneCashier) tr c ∧
      c.db.accounts.auditLogs.map (fun row => (row.action, row.entity, row.actorEmail)) =
        [("LOGIN_SUCCESS", "User", some "cashier@club.uz"),
          ("CUSTOMER_CREATE", "Customer", some "cashier@club.uz"),
          ("CUSTOMER_CREATE", "Customer", some "cashier@club.uz")] ∧
      c.db.accounts.auditLogs = recorded plainEnv [] ((auditJournal plainEnv).entries tr) ∧
      ∀ x ∈ (auditJournal plainEnv).completed tr, Trail plainEnv x.1 x.2.1 x.2.2 := by
  obtain ⟨tr, c, hrun, hrows, -⟩ := System.exists_run (S := system plainEnv)
    (A := fun _ _ => True) (fun _ _ => true) 3 (fun _ _ _ _ => trivial) oneCashier shift
    (fun x => decide (x.2.db.accounts.auditLogs.map
      (fun row => (row.action, row.entity, row.actorEmail)) =
        [("LOGIN_SUCCESS", "User", some "cashier@club.uz"),
          ("CUSTOMER_CREATE", "Customer", some "cashier@club.uz"),
          ("CUSTOMER_CREATE", "Customer", some "cashier@club.uz")]))
    (by decide) (by decide +kernel)
  obtain ⟨hlogs, hcompleted, -⟩ := audit_trail hrun
  exact ⟨tr, c, hrun, of_decide_eq_true hrows, hlogs, hcompleted⟩

end GameClub.Api
