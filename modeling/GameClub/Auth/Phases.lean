import GameClub.Auth.Services
import GameClub.Lib.Interleave

/-! # Handlers as phases

A handler in flight is at one of its awaits. A phase says which, and carries the variables the rest
of the handler reads.

* `view`: the call a phase awaits, and the phase after it.
* `implements`: the phases are the points of the handlers, and `system_programs`: so their
  interleavings are those of the handlers. -/

namespace GameClub.Auth

open GameClub.Lib GameClub.Lib.Interleave GameClub.Common

/-! ### Requests -/

structure RefreshCall where
  presented : String
  ctx : RequestContext
  g : Generated

structure LoginCall where
  dto : LoginDto
  ctx : RequestContext
  g : Generated

structure ChangeCall where
  userId : Uuid
  dto : ChangePasswordDto
  ctx : RequestContext
  salt : String

inductive Request
  | login (q : LoginCall)
  | refresh (q : RefreshCall)
  | logout (presented : Option String)
  | changePassword (q : ChangeCall)
  | updateUser (id : UuidText) (dto : UpdateUserDto)

inductive Outcome
  | tokens (t : IssuedTokens)
  | done
  | user (saved : UserEntity)

def handler (env : Env) : Request → Async Outcome
  | .login q => do
    let t ← login env q.dto q.ctx q.g
    pure (.tokens t)
  | .refresh q => do
    let t ← refresh env q.presented q.ctx q.g
    pure (.tokens t)
  | .logout presented => do
    logout presented
    pure .done
  | .changePassword q => do
    changePassword env q.userId q.dto q.ctx q.salt
    pure .done
  | .updateUser id dto => do
    let saved ← update id dto
    pure (.user saved)

/-! ### Phases -/

/-- What a new token is issued for. -/
inductive Origin
  | login (familyId : Uuid)
  | rotation (record : RefreshToken)

def Origin.familyId : Origin → Uuid
  | .login familyId => familyId
  | .rotation record => record.familyId

/-- The arguments of `issue`. -/
structure Issuance where
  claims : AccessTokenClaims
  origin : Origin
  ctx : RequestContext
  g : Generated

/-- The awaits of the handlers. -/
inductive Phase
  | finished (r : Except Thrown Outcome)
  | peeking (q : RefreshCall)
  | findingUser (q : RefreshCall) (userId : Uuid)
  | loading (q : RefreshCall) (claims : AccessTokenClaims) (id secret : String)
  | verifyingSecret (q : RefreshCall) (claims : AccessTokenClaims) (secret : String)
      (record : RefreshToken)
  | revokingFamily (record : RefreshToken)
  | checkingExpiry (q : RefreshCall) (claims : AccessTokenClaims) (record : RefreshToken)
  | signing (i : Issuance)
  | dating (i : Issuance) (accessToken : String)
  | inserting (i : Issuance) (accessToken : String) (now : ℤ)
  | savingReplaced (record : RefreshToken) (next : IssuedTokens)
  | findingEmail (q : LoginCall)
  | checkingLock (q : LoginCall) (user : User) (lockedUntil : ℤ)
  | verifyingPassword (q : LoginCall) (user : User)
  | datingLock (q : LoginCall) (user : User)
  | savingFailure (q : LoginCall) (user : User)
  | auditingFailure (q : LoginCall) (user : User)
  | datingLogin (q : LoginCall) (user : User)
  | savingLogin (q : LoginCall) (user : User)
  | auditingLogin (q : LoginCall) (user : User)
  | loadingOut (id secret : String)
  | verifyingOut (secret : String) (record : RefreshToken)
  | savingOut (record : RefreshToken)
  | findingSecret (q : ChangeCall)
  | verifyingCurrent (q : ChangeCall) (user : User)
  | findingProfile (q : ChangeCall) (user : User)
  | savingPassword (q : ChangeCall) (user : User) (profile : Profile)
  | revokingAll (q : ChangeCall) (user : User)
  | auditingChange (q : ChangeCall) (user : User)
  | findingUpdate (id : UuidText) (dto : UpdateUserDto)
  | savingUpdate (profile : Profile) (dto : UpdateUserDto)

namespace Phase

def failed (e : Thrown) : Phase := .finished (.error e)

/-- What is thrown in a rotation is replaced. -/
def refused (e : Thrown) : Phase := .finished (.error (refreshError e))

end Phase

/-- What is thrown while a token is issued. -/
def Origin.refused : Origin → Thrown → Phase
  | .login _ => .failed
  | .rotation _ => .refused

/-- The row of the token that is issued. -/
def Issuance.record (env : Env) (i : Issuance) (now : ℤ) : RefreshToken :=
  newToken env i.claims i.origin.familyId i.ctx i.g now

def Issuance.tokens (env : Env) (i : Issuance) (accessToken : String) (now : ℤ) : IssuedTokens :=
  ⟨accessToken, refreshTokenText (i.record env now).id i.g.secret, (i.record env now).expiresAt⟩

/-- What a request does first. -/
def start : Request → Phase
  | .login q => .findingEmail q
  | .refresh q =>
    if q.presented = "" then .failed (.unauthorized "Missing refresh token")
    else if (splitDot q.presented).headD "" = "" then
      .refused (.unauthorized "Invalid refresh token")
    else .peeking q
  | .logout presented =>
    match presented with
    | none => .finished (.ok .done)
    | some token =>
      if token = "" then .finished (.ok .done)
      else
        match parts token with
        | none => .finished (.ok .done)
        | some (id, secret) => .loadingOut id secret
  | .changePassword q => .findingSecret q
  | .updateUser id dto => .findingUpdate id dto

/-- Await `s`: `k` with what it resolves to, `fail` with what it rejects with. -/
def await (s : Stmt) (fail : Thrown → Phase) (k : Reply s → Phase) :
    View Res (Except Thrown Outcome) Phase :=
  .call s fun r =>
    match r with
    | .ok a => k a
    | .error e => fail e

namespace Phase

/-- The claims have been read: the token is parsed, and loaded again. -/
def claimed (q : RefreshCall) (claims : AccessTokenClaims) : Phase :=
  match parts q.presented with
  | none => .refused (.error "UNKNOWN_REFRESH_TOKEN")
  | some (id, secret) => .loading q claims id secret

/-- The secret is the one of the record. -/
def verified (q : RefreshCall) (claims : AccessTokenClaims) (record : RefreshToken) : Phase :=
  if record.revoked then .revokingFamily record else .checkingExpiry q claims record

/-- The account has been found. -/
def loaded (q : LoginCall) (user : User) : Phase :=
  if user.isActive then
    match user.lockedUntil with
    | none => .verifyingPassword q user
    | some lockedUntil => .checkingLock q user lockedUntil
  else .failed genericError

/-- The password was wrong. -/
def wrong (q : LoginCall) (user : User) : Phase :=
  if MAX_FAILED_ATTEMPTS ≤ user.failed.failedLoginAttempts then .datingLock q user.failed
  else .savingFailure q user.failed

/-- The token has been stored. -/
def issued (env : Env) (i : Issuance) (accessToken : String) (now : ℤ) : Phase :=
  match i.origin with
  | .login _ => .finished (.ok (.tokens (i.tokens env accessToken now)))
  | .rotation record => .savingReplaced record (i.tokens env accessToken now)

end Phase

/-- **The call a phase awaits, and the phases after it.** -/
def view (env : Env) : Phase → View Res (Except Thrown Outcome) Phase
  | .finished r => .done r
  | .peeking q => await (.findToken ((splitDot q.presented).headD "")) .refused
    fun (found : Option RefreshToken) =>
      match found with
      | none => .refused (.unauthorized "Invalid refresh token")
      | some record => .findingUser q record.userId
  | .findingUser q userId => await (.findUser userId) .refused fun (found : Option Profile) =>
      match found with
      | none =>
        .refused (.domain (ResourceNotFoundException "User" (Uuid.asText userId).text))
      | some user =>
        if user.isActive then .claimed q (toClaims user)
        else .refused (.unauthorized "Account is disabled")
  | .loading q claims id secret => await (.findToken id) .refused
    fun (found : Option RefreshToken) =>
      match found with
      | none => .refused (.error "UNKNOWN_REFRESH_TOKEN")
      | some record => .verifyingSecret q claims secret record
  | .verifyingSecret q claims secret record =>
    await (.verify record.tokenHash secret) .refused fun (valid : Bool) =>
      if valid then .verified q claims record
      else .refused (.error "UNKNOWN_REFRESH_TOKEN")
  | .revokingFamily record => await (.revokeFamily record.familyId) .refused fun _ =>
      .refused (.error "REFRESH_TOKEN_REUSED")
  | .checkingExpiry q claims record => await .now .refused fun (now : ℤ) =>
      if record.expiresAt ≤ now then .refused (.error "REFRESH_TOKEN_EXPIRED")
      else .signing ⟨claims, .rotation record, q.ctx, q.g⟩
  | .signing i => await (.sign i.claims) i.origin.refused fun accessToken => .dating i accessToken
  | .dating i accessToken => await .now i.origin.refused fun now => .inserting i accessToken now
  | .inserting i accessToken now => await (.insertToken (i.record env now)) i.origin.refused
      fun _ => .issued env i accessToken now
  | .savingReplaced record next => await (.saveToken (record.replaced next)) .refused fun _ =>
      .finished (.ok (.tokens next))
  | .findingEmail q => await (.findUserByEmail (normalizeEmail env q.dto.email)) .failed
    fun (found : Option User) =>
      match found with
      | none => .failed genericError
      | some user => .loaded q user
  | .checkingLock q user lockedUntil => await .now .failed fun (now : ℤ) =>
      if now < lockedUntil then .failed lockedError else .verifyingPassword q user
  | .verifyingPassword q user => await (.verify user.passwordHash q.dto.password) .failed
    fun (ok : Bool) =>
      if ok then .datingLogin q user else .wrong q user
  | .datingLock q user => await .now .failed fun now => .savingFailure q (user.locked now)
  | .savingFailure q user => await (.saveUser user.entity) .failed fun _ => .auditingFailure q user
  | .auditingFailure q user =>
    await (.audit (auditEntry user.id user.email "LOGIN_FAILED" q.ctx)) .failed fun _ =>
      .failed genericError
  | .datingLogin q user => await .now .failed fun now =>
      .savingLogin q (user.loggedIn env q.dto.password q.g.passwordSalt now)
  | .savingLogin q user => await (.saveUser user.entity) .failed fun _ => .auditingLogin q user
  | .auditingLogin q user =>
    await (.audit (auditEntry user.id user.email "LOGIN_SUCCESS" q.ctx)) .failed fun _ =>
      .signing ⟨toClaims user.profile, .login q.g.familyId, q.ctx, q.g⟩
  | .loadingOut id secret => await (.findToken id) .failed fun (found : Option RefreshToken) =>
      match found with
      | none => .finished (.ok .done)
      | some record => .verifyingOut secret record
  | .verifyingOut secret record => await (.verify record.tokenHash secret) .failed
    fun (valid : Bool) =>
      if valid then
        if record.revoked then .finished (.ok .done) else .savingOut record
      else .finished (.ok .done)
  | .savingOut record => await (.saveToken { record with revoked := true }) .failed fun _ =>
      .finished (.ok .done)
  | .findingSecret q => await (.findUserWithSecret q.userId) .failed fun (found : Option User) =>
      match found with
      | none => .failed (.unauthorized "User not found")
      | some user => .verifyingCurrent q user
  | .verifyingCurrent q user =>
    await (.verify user.passwordHash q.dto.currentPassword) .failed fun (ok : Bool) =>
      if ok then .findingProfile q user
      else .failed
        (.domain (BusinessRuleException "WRONG_PASSWORD" "Current password is incorrect" []))
  | .findingProfile q user => await (.findUser q.userId) .failed fun (found : Option Profile) =>
      match found with
      | none =>
        .failed (.domain (ResourceNotFoundException "User" (Uuid.asText q.userId).text))
      | some profile => .savingPassword q user profile
  | .savingPassword q user profile =>
    await (.saveUser (profile.withPassword (env.hashPassword q.dto.newPassword q.salt))) .failed
      fun _ => .revokingAll q user
  | .revokingAll q user => await (.revokeAllForUser q.userId) .failed fun _ =>
      .auditingChange q user
  | .auditingChange q user =>
    await (.audit (auditEntry q.userId user.email "PASSWORD_CHANGED" q.ctx)) .failed fun _ =>
      .finished (.ok .done)
  | .findingUpdate id dto => await (.findUser id.value) .failed fun (found : Option Profile) =>
      match found with
      | none => .failed (.domain (ResourceNotFoundException "User" id.text))
      | some profile => .savingUpdate profile dto
  | .savingUpdate profile dto => await (.saveUser (profile.assign dto)) .failed fun _ =>
      .finished (.ok (.user (profile.assign dto)))

/-! ### What is left of a handler -/

/-- What is left of a refresh while a token pair is made. -/
def rescued (p : Async IssuedTokens) : Async Outcome := do
  let t ← p.tryCatch fun err => .throw (refreshError err)
  pure (.tokens t)

/-- What is left of a login or a refresh while a token is issued. -/
def Origin.finish : Origin → Async IssuedTokens → Async Outcome
  | .login _, p => do
    let t ← p
    pure (.tokens t)
  | .rotation record, p => rescued do
    let next ← p
    ask (.saveToken (record.replaced next))
    pure next

def signedIn (p : Async IssuedTokens) : Async Outcome := do
  let t ← p
  pure (.tokens t)

/-- What is left of a handler that returns nothing. -/
def completed (p : Async Unit) : Async Outcome := do
  p
  pure .done

/-- **What is left of a handler at a phase.** -/
def rest (env : Env) : Phase → Async Outcome
  | .finished r => liftM r
  | .peeking q => rescued do
    let claims ← (do
      let userId ← peekRecord ((splitDot q.presented).headD "")
      claimsOf userId)
    rotate env q.presented claims q.ctx q.g
  | .findingUser q userId => rescued do
    let claims ← claimsOf (some userId)
    rotate env q.presented claims q.ctx q.g
  | .loading q claims id secret => rescued do
    let loaded ← loadToken id secret
    rotateLoaded env claims q.ctx q.g loaded
  | .verifyingSecret q claims secret record => rescued do
    let loaded ← checkToken secret record
    rotateLoaded env claims q.ctx q.g loaded
  | .revokingFamily record => rescued do
    ask (.revokeFamily record.familyId)
    .throw (.error "REFRESH_TOKEN_REUSED")
  | .checkingExpiry q claims record => rescued (rotateRecord env claims q.ctx q.g record)
  | .signing i => i.origin.finish (issue env i.claims i.origin.familyId i.ctx i.g)
  | .dating i accessToken => i.origin.finish do
    let now ← ask .now
    ask (.insertToken (i.record env now))
    pure (i.tokens env accessToken now)
  | .inserting i accessToken now => i.origin.finish do
    ask (.insertToken (i.record env now))
    pure (i.tokens env accessToken now)
  | .savingReplaced record next => rescued do
    ask (.saveToken (record.replaced next))
    pure next
  | .findingEmail q => signedIn (login env q.dto q.ctx q.g)
  | .checkingLock q user lockedUntil => signedIn do
    let now ← ask .now
    if now < lockedUntil then .throw lockedError else authenticate env q.dto q.ctx q.g user
  | .verifyingPassword q user => signedIn (authenticate env q.dto q.ctx q.g user)
  | .datingLock q user => signedIn do
    lockOut user
    refuse q.ctx user
  | .savingFailure q user => signedIn do
    ask (.saveUser user.entity)
    refuse q.ctx user
  | .auditingFailure q user => signedIn (refuse q.ctx user)
  | .datingLogin q user => signedIn (signIn env q.dto q.ctx q.g user)
  | .savingLogin q user => signedIn do
    ask (.saveUser user.entity)
    welcome env q.ctx q.g user
  | .auditingLogin q user => signedIn (welcome env q.ctx q.g user)
  | .loadingOut id secret => completed do
    let loaded ← loadToken id secret
    revokeLoaded loaded
  | .verifyingOut secret record => completed do
    let loaded ← checkToken secret record
    revokeLoaded loaded
  | .savingOut record => completed (ask (.saveToken { record with revoked := true }))
  | .findingSecret q => completed (changePassword env q.userId q.dto q.ctx q.salt)
  | .verifyingCurrent q user => completed do
    let ok ← ask (.verify user.passwordHash q.dto.currentPassword)
    changeVerified env q.userId q.dto q.ctx q.salt user ok
  | .findingProfile q user => completed do
    setPassword env q.userId q.dto.newPassword q.salt
    passwordChanged q.userId q.ctx user
  | .savingPassword q user profile => completed do
    ask (.saveUser (profile.withPassword (env.hashPassword q.dto.newPassword q.salt)))
    passwordChanged q.userId q.ctx user
  | .revokingAll q user => completed (passwordChanged q.userId q.ctx user)
  | .auditingChange q user =>
    completed (ask (.audit (auditEntry q.userId user.email "PASSWORD_CHANGED" q.ctx)))
  | .findingUpdate id dto => do
    let saved ← update id dto
    pure (.user saved)
  | .savingUpdate profile dto => do
    let saved ← (do
      ask (.saveUser (profile.assign dto))
      pure (profile.assign dto) : Async UserEntity)
    pure (.user saved)

/-- **The handlers, over the accounts, the tokens and the clock.** -/
def system (env : Env) : System Res AuthDb Request (Except Thrown Outcome) Phase where
  exec := exec env
  start := start
  view := view env
  pass := passTime

/-- What happens in a run. -/
abbrev AuthEvent := Event AuthDb Request (Except Thrown Outcome) Phase

/-- The store and the requests in flight. -/
abbrev AuthConfig := Config AuthDb Phase

variable {env : Env}

theorem await_eq {s : Stmt} {fail : Thrown → Phase} {k : Reply s → Phase} {K : Res s → Async Outcome}
    (hok : ∀ a, K (.ok a) = rest env (k a)) (herror : ∀ e, K (.error e) = rest env (fail e)) :
    (View.call s K : View Res (Except Thrown Outcome) (Async Outcome)) =
      (await s fail k).map (rest env) := by
  refine congrArg (View.call s) (funext fun r => ?_)
  cases r with
  | ok a => exact hok a
  | error e => exact herror e

/-- Only a request that is over awaits nothing. -/
theorem view_done {p : Phase} {r : Except Thrown Outcome} (h : view env p = .done r) :
    p = .finished r := by
  cases p with
  | finished r' =>
    cases h
    rfl
  | _ => cases h

theorem rest_claimed (q : RefreshCall) (claims : AccessTokenClaims) :
    rest env (.claimed q claims) = rescued (rotate env q.presented claims q.ctx q.g) := by
  unfold Phase.claimed rotate parseAndLoad
  cases parts q.presented with
  | none => rfl
  | some x => rfl

theorem rest_verified (q : RefreshCall) (claims : AccessTokenClaims) (record : RefreshToken) :
    rest env (.verified q claims record) =
      rescued (rotateLoaded env claims q.ctx q.g (some record)) := by
  obtain ⟨id, userId, familyId, tokenHash, revoked⟩ := record
  cases revoked <;> rfl

theorem rest_loaded (q : LoginCall) (user : User) :
    rest env (.loaded q user) = signedIn (loginFound env q.dto q.ctx q.g user) := by
  unfold Phase.loaded loginFound
  split_ifs
  · cases user.lockedUntil <;> rfl
  · rfl

theorem rest_wrong (q : LoginCall) (user : User) :
    rest env (.wrong q user) = signedIn (do registerFailure user; refuse q.ctx user) := by
  unfold Phase.wrong registerFailure
  split_ifs <;> rfl

/-- **Each phase is a point of its handler.** -/
theorem implements (env : Env) : Implements (view env) (rest env) := by
  intro p
  cases p with
  | finished r => cases r <;> rfl
  | peeking q =>
    refine await_eq (fun found => ?_) fun e => rfl
    cases found <;> rfl
  | findingUser q userId =>
    refine await_eq (fun found => ?_) fun e => rfl
    rcases found with _ | ⟨id, email, fullName, role, _ | _⟩
    · rfl
    · rfl
    · exact (rest_claimed q _).symm
  | loading q claims id secret =>
    refine await_eq (fun found => ?_) fun e => rfl
    cases found <;> rfl
  | verifyingSecret q claims secret record =>
    refine await_eq (fun valid => ?_) fun e => rfl
    rcases valid with _ | _
    · rfl
    · exact (rest_verified q claims record).symm
  | revokingFamily record => exact await_eq (fun _ => rfl) fun e => rfl
  | checkingExpiry q claims record =>
    refine await_eq (fun (now : ℤ) => ?_) fun e => rfl
    show rescued (if record.expiresAt ≤ now then _ else _) = rest env (if _ then _ else _)
    split_ifs <;> rfl
  | signing i =>
    obtain ⟨claims, o, ctx, g⟩ := i
    cases o <;> exact await_eq (fun _ => rfl) fun e => rfl
  | dating i accessToken =>
    obtain ⟨claims, o, ctx, g⟩ := i
    cases o <;> exact await_eq (fun _ => rfl) fun e => rfl
  | inserting i accessToken now =>
    obtain ⟨claims, o, ctx, g⟩ := i
    cases o <;> exact await_eq (fun _ => rfl) fun e => rfl
  | savingReplaced record next => exact await_eq (fun _ => rfl) fun e => rfl
  | findingEmail q =>
    refine await_eq (fun found => ?_) fun e => rfl
    rcases found with _ | user
    · rfl
    · exact (rest_loaded q user).symm
  | checkingLock q user lockedUntil =>
    refine await_eq (fun (now : ℤ) => ?_) fun e => rfl
    show signedIn (if now < lockedUntil then _ else _) = rest env (if _ then _ else _)
    split_ifs <;> rfl
  | verifyingPassword q user =>
    refine await_eq (fun ok => ?_) fun e => rfl
    rcases ok with _ | _
    · exact (rest_wrong q user).symm
    · rfl
  | datingLock q user => exact await_eq (fun _ => rfl) fun e => rfl
  | savingFailure q user => exact await_eq (fun _ => rfl) fun e => rfl
  | auditingFailure q user => exact await_eq (fun _ => rfl) fun e => rfl
  | datingLogin q user => exact await_eq (fun _ => rfl) fun e => rfl
  | savingLogin q user => exact await_eq (fun _ => rfl) fun e => rfl
  | auditingLogin q user => exact await_eq (fun _ => rfl) fun e => rfl
  | loadingOut id secret =>
    refine await_eq (fun found => ?_) fun e => rfl
    cases found <;> rfl
  | verifyingOut secret record =>
    refine await_eq (fun valid => ?_) fun e => rfl
    obtain ⟨id, userId, familyId, tokenHash, revoked⟩ := record
    cases valid <;> cases revoked <;> rfl
  | savingOut record => exact await_eq (fun _ => rfl) fun e => rfl
  | findingSecret q =>
    refine await_eq (fun found => ?_) fun e => rfl
    cases found <;> rfl
  | verifyingCurrent q user =>
    refine await_eq (fun ok => ?_) fun e => rfl
    cases ok <;> rfl
  | findingProfile q user =>
    refine await_eq (fun found => ?_) fun e => rfl
    cases found <;> rfl
  | savingPassword q user profile => exact await_eq (fun _ => rfl) fun e => rfl
  | revokingAll q user => exact await_eq (fun _ => rfl) fun e => rfl
  | auditingChange q user => exact await_eq (fun _ => rfl) fun e => rfl
  | findingUpdate id dto =>
    refine await_eq (fun found => ?_) fun e => rfl
    cases found <;> rfl
  | savingUpdate profile dto => exact await_eq (fun _ => rfl) fun e => rfl

/-- **A request starts where its handler does.** -/
theorem rest_start (q : Request) : rest env (start q) = handler env q := by
  cases q with
  | login q => rfl
  | refresh q =>
    unfold start handler refresh claimsFromRefresh peekUserId
    dsimp only
    split_ifs <;> rfl
  | logout presented =>
    rcases presented with _ | token
    · rfl
    · unfold start handler logout revoke parseAndLoad
      dsimp only
      split_ifs
      · rfl
      · cases parts token <;> rfl
  | changePassword q => rfl
  | updateUser id dto => rfl

/-- The handlers themselves, interleaved call by call. -/
def handlers (env : Env) :
    System Res AuthDb Request (Except Thrown Outcome) (Async Outcome) where
  exec := exec env
  start := handler env
  view := progView
  pass := passTime

theorem system_programs (env : Env) : (system env).programs (rest env) = handlers env := by
  unfold System.programs handlers
  congr
  funext q
  exact rest_start q

/-- **The interleavings of the handlers are those of their phases.** -/
theorem run_handlers {db : AuthDb}
    {tr' : List (Event AuthDb Request (Except Thrown Outcome) (Async Outcome))}
    {d : Config AuthDb (Async Outcome)} :
    (handlers env).Run (fun _ _ => True) (.idle db) tr' d ↔
      ∃ tr c, (system env).Run (fun _ _ => True) (.idle db) tr c ∧
        tr' = tr.map (Event.map (rest env)) ∧ d = c.map (rest env) := by
  rw [← system_programs]
  exact run_programs (implements env) (c := .idle db)

/-! ### One login -/

/-- Hashes that show what they are of, and a lifetime of a week. -/
def plainEnv : Env where
  refreshTtlMs := 604800000
  signAsync claims now := s!"{claims.sub}@{now}"
  hashSecret secret _ := "argon2:" ++ secret
  hashPassword plain _ := "argon2:" ++ plain
  verify hash plain := hash = "argon2:" ++ plain
  needsRehash _ := false
  trim text := text
  toLowerCase text := text
  returned entity := { entity with passwordHash := none }
  saves _ := true

/-- The account of a cashier. -/
def cashier : User :=
  ⟨1, "cashier@club.uz", "Aziz Karimov", .cashier, true, none, 0, none, none,
    plainEnv.hashPassword "Str0ng-Passw0rd" "salt"⟩

/-- The token of their one login. -/
def firstToken : RefreshToken :=
  ⟨2, 1, 3, plainEnv.hashSecret "secret" "salt", false, none, 604800000, none, none⟩

def oneLogin : AuthDb := ⟨.single cashier, .single firstToken, [], 0⟩

/-- The body of their login. -/
def cashierDto : LoginDto := ⟨"cashier@club.uz", "Str0ng-Passw0rd", by decide, by decide, by decide⟩

/-- The body that changes their password. -/
def newPasswordDto : ChangePasswordDto :=
  ⟨"Str0ng-Passw0rd", "N3w-Passw0rd", by decide, by decide, by decide, by decide, by decide⟩

/-- The body that sets `isActive` of an account. -/
def activationDto (isActive : Bool) : UpdateUserDto := ⟨none, none, some (some isActive), by simp⟩

def noContext : RequestContext := ⟨none, none, none⟩

/-- A refresh with the first token, whose successor gets the id `newId`. -/
def refreshFirst (newId : Uuid) : Request :=
  .refresh ⟨refreshTokenText 2 "secret", noContext, ⟨0, newId, "next", "salt", ""⟩⟩

end GameClub.Auth
