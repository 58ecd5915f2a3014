import GameClub.Auth.Store

/-! # Signing in, refreshing and changing passwords

The handlers of `AuthService` and what they use of `TokenService`, `PasswordService` and
`UsersService`, each a program of the calls it awaits. What the request generates at random (uuids,
secrets, salts) is an argument.

* `login`, `refresh`, `logout`, `changePassword`, `update`: the handlers.
* `sends_refresh`, `sends_logout`, ...: which calls they make. -/

namespace GameClub.Auth

open GameClub.Lib GameClub.Common

/-! ### Requests -/

structure RequestContext where
  userAgent : Option String
  ipAddress : Option String
  requestId : Option String
deriving DecidableEq

/-- What a request generates: the family and the id of a new token, its secret, and salts. -/
structure Generated where
  familyId : Uuid
  tokenId : Uuid
  secret : String
  secretSalt : String
  passwordSalt : String
deriving DecidableEq

structure LoginDto where
  email : String
  password : String
  email_le : email.length ≤ 160
  password_ge : 1 ≤ password.length
  password_le : password.length ≤ 128
deriving DecidableEq

structure ChangePasswordDto where
  currentPassword : String
  newPassword : String
  currentPassword_le : currentPassword.length ≤ 128
  newPassword_ge : 10 ≤ newPassword.length
  newPassword_le : newPassword.length ≤ 128
  newPassword_letter : newPassword.toList.any Char.isAlpha
  newPassword_digit : newPassword.toList.any Char.isDigit
deriving DecidableEq

structure UpdateUserDto where
  fullName : Patch String
  role : Patch Role
  isActive : Patch Bool
  fullName_valid : ∀ name, fullName = some (some name) → 2 ≤ name.length ∧ name.length ≤ 120

structure IssuedTokens where
  accessToken : String
  refreshToken : String
  refreshExpiresAt : ℤ
deriving DecidableEq

/-! ### TokenService -/

/-- `presented.split('.')`. -/
def splitDot (presented : String) : List String :=
  (presented.toList.splitOn '.').map String.ofList

/-- The opaque refresh token `<id>.<secret>`. -/
def refreshTokenText (id : Uuid) (secret : String) : String := Uuid.text id ++ "." ++ secret

/-- The row of a new token. -/
def newToken (env : Env) (claims : AccessTokenClaims) (familyId : Uuid) (ctx : RequestContext)
    (g : Generated) (now : ℤ) : RefreshToken where
  id := g.tokenId
  userId := claims.sub
  familyId := familyId
  tokenHash := env.hashSecret g.secret g.secretSalt
  revoked := false
  replacedBy := none
  expiresAt := now + env.refreshTtlMs
  userAgent := ctx.userAgent
  ipAddress := ctx.ipAddress

def issue (env : Env) (claims : AccessTokenClaims) (familyId : Uuid) (ctx : RequestContext)
    (g : Generated) : Async IssuedTokens := do
  let accessToken ← ask (.sign claims)
  let now ← ask .now
  let record := newToken env claims familyId ctx g now
  ask (.insertToken record)
  pure ⟨accessToken, refreshTokenText record.id g.secret, record.expiresAt⟩

/-- The `[id, secret]` of a presented token, if neither is missing. -/
def parts (presented : String) : Option (String × String) :=
  match splitDot presented with
  | id :: secret :: _ => if id = "" ∨ secret = "" then none else some (id, secret)
  | _ => none

/-- The token, if the secret is its own. -/
def checkToken (secret : String) (record : RefreshToken) : Async (Option RefreshToken) := do
  let valid ← ask (.verify record.tokenHash secret)
  pure (if valid then some record else none)

def loadToken (id secret : String) : Async (Option RefreshToken) := do
  let found ← ask (.findToken id)
  match found with
  | none => pure none
  | some record => checkToken secret record

def parseAndLoad (presented : String) : Async (Option RefreshToken) :=
  match parts presented with
  | none => pure none
  | some (id, secret) => loadToken id secret

/-- The record of a token that has been replaced by `next`. -/
def RefreshToken.replaced (record : RefreshToken) (next : IssuedTokens) : RefreshToken :=
  { record with
    revoked := true
    replacedBy := Uuid.parse ((splitDot next.refreshToken).headD "").toList }

/-- What is left of a rotation once the token has been found unrevoked. -/
def rotateRecord (env : Env) (claims : AccessTokenClaims) (ctx : RequestContext) (g : Generated)
    (record : RefreshToken) : Async IssuedTokens := do
  let now ← ask .now
  if record.expiresAt ≤ now then .throw (.error "REFRESH_TOKEN_EXPIRED")
  else do
    let next ← issue env claims record.familyId ctx g
    ask (.saveToken (record.replaced next))
    pure next

/-- What is left of a rotation once the token has been loaded: one that is revoked is being used
again, and its family is revoked. -/
def rotateLoaded (env : Env) (claims : AccessTokenClaims) (ctx : RequestContext) (g : Generated) :
    Option RefreshToken → Async IssuedTokens
  | none => .throw (.error "UNKNOWN_REFRESH_TOKEN")
  | some record =>
    if record.revoked then do
      ask (.revokeFamily record.familyId)
      .throw (.error "REFRESH_TOKEN_REUSED")
    else rotateRecord env claims ctx g record

def rotate (env : Env) (presented : String) (claims : AccessTokenClaims) (ctx : RequestContext)
    (g : Generated) : Async IssuedTokens := do
  let loaded ← parseAndLoad presented
  rotateLoaded env claims ctx g loaded

def revokeLoaded : Option RefreshToken → Async Unit
  | none => pure ()
  | some record =>
    if record.revoked then pure () else ask (.saveToken { record with revoked := true })

def revoke (presented : String) : Async Unit := do
  let loaded ← parseAndLoad presented
  revokeLoaded loaded

def peekRecord (id : String) : Async (Option Uuid) := do
  let record ← ask (.findToken id)
  pure (record.map (·.userId))

def peekUserId (presented : String) : Async (Option Uuid) :=
  let id := (splitDot presented).headD ""
  if id = "" then pure none else peekRecord id

/-! ### UsersService -/

def normalizeEmail (env : Env) (email : String) : String := env.toLowerCase (env.trim email)

def findById (id : UuidText) : Async Profile := do
  let found ← ask (.findUser id.value)
  match found with
  | none => .throw (.domain (ResourceNotFoundException "User" id.text))
  | some user => pure user

/-- `Object.assign(user, dto)`: a field missing from the body is assigned as undefined. -/
def Profile.assign (user : Profile) (dto : UpdateUserDto) : UserEntity :=
  { user.entity with fullName := dto.fullName, role := dto.role, isActive := dto.isActive }

/-- The account was found without its hash, so that `save` leaves nothing out of what it returns. -/
def update (id : UuidText) (dto : UpdateUserDto) : Async UserEntity := do
  let user ← findById id
  ask (.saveUser (user.assign dto))
  pure (user.assign dto)

/-- The text of an id that was not read from a request. -/
def Uuid.asText (id : Uuid) : UuidText := ⟨id, 0⟩

def Profile.withPassword (user : Profile) (passwordHash : String) : UserEntity :=
  { user.entity with passwordHash := some passwordHash }

def setPassword (env : Env) (id : Uuid) (newPassword salt : String) : Async Unit := do
  let user ← findById (Uuid.asText id)
  ask (.saveUser (user.withPassword (env.hashPassword newPassword salt)))

/-! ### AuthService -/

def MAX_FAILED_ATTEMPTS : ℕ := 5
def LOCK_DURATION_MS : ℤ := 15 * 60 * 1000

def genericError : Thrown := .unauthorized "Invalid credentials"

def lockedError : Thrown :=
  .unauthorized "Account temporarily locked due to failed login attempts"

def auditEntry (actorId : Uuid) (actorEmail action : String) (ctx : RequestContext) :
    Audit.AuditEntryInput :=
  ⟨some (Uuid.text actorId), some actorEmail, action, "User", some (Uuid.text actorId), .undefined,
    .undefined, ctx.ipAddress, ctx.userAgent, ctx.requestId⟩

def toClaims (user : Profile) : AccessTokenClaims := ⟨user.id, user.email, user.role⟩

/-- One more failed attempt. -/
def User.failed (user : User) : User :=
  { user with failedLoginAttempts := user.failedLoginAttempts + 1 }

/-- Locked from `now` on, with the counter reset. -/
def User.locked (user : User) (now : ℤ) : User :=
  { user with lockedUntil := some (now + LOCK_DURATION_MS), failedLoginAttempts := 0 }

def lockOut (user : User) : Async Unit := do
  let now ← ask .now
  ask (.saveUser (user.locked now).entity)

def registerFailure (user : User) : Async Unit :=
  if MAX_FAILED_ATTEMPTS ≤ user.failed.failedLoginAttempts then lockOut user.failed
  else ask (.saveUser user.failed.entity)

/-- The lockout state reset, and the password hashed again if its hash is outdated. -/
def User.loggedIn (env : Env) (user : User) (password salt : String) (now : ℤ) : User :=
  { user with
    failedLoginAttempts := 0
    lockedUntil := none
    lastLoginAt := some now
    passwordHash :=
      if env.needsRehash user.passwordHash then env.hashPassword password salt
      else user.passwordHash }

/-- The end of a failed login. -/
def refuse (ctx : RequestContext) (user : User) : Async IssuedTokens := do
  ask (.audit (auditEntry user.id user.email "LOGIN_FAILED" ctx))
  .throw genericError

/-- The end of a login, with the account saved. -/
def welcome (env : Env) (ctx : RequestContext) (g : Generated) (user : User) :
    Async IssuedTokens := do
  ask (.audit (auditEntry user.id user.email "LOGIN_SUCCESS" ctx))
  issue env (toClaims user.profile) g.familyId ctx g

/-- What is left of a login with the right password. -/
def signIn (env : Env) (dto : LoginDto) (ctx : RequestContext) (g : Generated) (user : User) :
    Async IssuedTokens := do
  let now ← ask .now
  ask (.saveUser (user.loggedIn env dto.password g.passwordSalt now).entity)
  welcome env ctx g (user.loggedIn env dto.password g.passwordSalt now)

/-- What is left of a login once the lock has been checked. -/
def authenticate (env : Env) (dto : LoginDto) (ctx : RequestContext) (g : Generated) (user : User) :
    Async IssuedTokens := do
  let ok ← ask (.verify user.passwordHash dto.password)
  if ok then signIn env dto ctx g user
  else do
    registerFailure user
    refuse ctx user

/-- What is left of a login once the account has been found. -/
def loginFound (env : Env) (dto : LoginDto) (ctx : RequestContext) (g : Generated) (user : User) :
    Async IssuedTokens :=
  if user.isActive then
    match user.lockedUntil with
    | none => authenticate env dto ctx g user
    | some lockedUntil => do
      let now ← ask .now
      if now < lockedUntil then .throw lockedError else authenticate env dto ctx g user
  else .throw genericError

def login (env : Env) (dto : LoginDto) (ctx : RequestContext) (g : Generated) :
    Async IssuedTokens := do
  let found ← ask (.findUserByEmail (normalizeEmail env dto.email))
  match found with
  | none => .throw genericError
  | some user => loginFound env dto ctx g user

/-- The claims of the account a token belongs to, as it is now. -/
def claimsOf (userId : Option Uuid) : Async AccessTokenClaims :=
  match userId with
  | none => .throw (.unauthorized "Invalid refresh token")
  | some userId => do
    let user ← findById (Uuid.asText userId)
    if user.isActive then pure (toClaims user)
    else .throw (.unauthorized "Account is disabled")

def claimsFromRefresh (presented : String) : Async AccessTokenClaims := do
  let userId ← peekUserId presented
  claimsOf userId

/-- What the caller is told of what was thrown during a rotation. -/
def refreshError (err : Thrown) : Thrown :=
  if err = .error "REFRESH_TOKEN_REUSED" then
    .unauthorized "Refresh token reuse detected; all sessions revoked"
  else .unauthorized "Invalid or expired refresh token"

def refresh (env : Env) (presented : String) (ctx : RequestContext) (g : Generated) :
    Async IssuedTokens :=
  if presented = "" then .throw (.unauthorized "Missing refresh token")
  else
    (do
      let claims ← claimsFromRefresh presented
      rotate env presented claims ctx g : Async IssuedTokens).tryCatch
      fun err => .throw (refreshError err)

def logout (presented : Option String) : Async Unit :=
  match presented with
  | none => pure ()
  | some token => if token = "" then pure () else revoke token

/-- The end of a password change. -/
def passwordChanged (userId : Uuid) (ctx : RequestContext) (user : User) : Async Unit := do
  ask (.revokeAllForUser userId)
  ask (.audit (auditEntry userId user.email "PASSWORD_CHANGED" ctx))

/-- What is left of a password change once the current password has been verified. -/
def changeVerified (env : Env) (userId : Uuid) (dto : ChangePasswordDto) (ctx : RequestContext)
    (salt : String) (user : User) (ok : Bool) : Async Unit :=
  if ok then do
    setPassword env userId dto.newPassword salt
    passwordChanged userId ctx user
  else .throw (.domain (BusinessRuleException "WRONG_PASSWORD" "Current password is incorrect" []))

def changePassword (env : Env) (userId : Uuid) (dto : ChangePasswordDto) (ctx : RequestContext)
    (salt : String) : Async Unit := do
  let found ← ask (.findUserWithSecret userId)
  match found with
  | none => .throw (.unauthorized "User not found")
  | some user => do
    let ok ← ask (.verify user.passwordHash dto.currentPassword)
    changeVerified env userId dto ctx salt user ok

/-! ### What the programs send -/

section Sends

variable {A : Stmt → Prop} {env : Env}

theorem sends_ask {s : Stmt} (h : A s) : (ask s).Sends A := ⟨h, fun _ => Prog.sends_lift _⟩

theorem sends_parseAndLoad (hfind : ∀ id, A (.findToken id))
    (hverify : ∀ hash plain, A (.verify hash plain)) (presented : String) :
    (parseAndLoad presented).Sends A := by
  unfold parseAndLoad
  split
  · trivial
  · refine Prog.Sends.bind (sends_ask (hfind _)) fun found => ?_
    cases found with
    | none => trivial
    | some record => exact Prog.Sends.bind (sends_ask (hverify _ _)) fun _ => trivial

theorem sends_findById (hfind : ∀ id, A (.findUser id)) (id : UuidText) :
    (findById id).Sends A := by
  refine Prog.Sends.bind (sends_ask (hfind _)) fun found => ?_
  cases found <;> trivial

theorem sends_setPassword (hfind : ∀ id, A (.findUser id)) (hsave : ∀ entity, A (.saveUser entity))
    (id : Uuid) (newPassword salt : String) : (setPassword env id newPassword salt).Sends A :=
  Prog.Sends.bind (sends_findById hfind _) fun _ => sends_ask (hsave _)

theorem sends_update (hfind : ∀ id, A (.findUser id)) (hsave : ∀ entity, A (.saveUser entity))
    (id : UuidText) (dto : UpdateUserDto) : (update id dto).Sends A :=
  Prog.Sends.bind (sends_findById hfind _) fun _ =>
    Prog.Sends.bind (sends_ask (hsave _)) fun _ => trivial

theorem sends_registerFailure (hnow : A .now) (hsave : ∀ entity, A (.saveUser entity))
    (user : User) : (registerFailure user).Sends A := by
  unfold registerFailure lockOut
  split_ifs
  · exact Prog.Sends.bind (sends_ask hnow) fun _ => sends_ask (hsave _)
  · exact sends_ask (hsave _)

/-- The calls of the token service are among those of `A`. -/
structure TokenCalls (A : Stmt → Prop) : Prop where
  now : A .now
  sign : ∀ claims, A (.sign claims)
  verify : ∀ hash plain, A (.verify hash plain)
  findToken : ∀ id, A (.findToken id)
  insertToken : ∀ record, A (.insertToken record)
  saveToken : ∀ record, A (.saveToken record)
  revokeFamily : ∀ familyId, A (.revokeFamily familyId)

theorem sends_issue (hA : TokenCalls A) (claims : AccessTokenClaims) (familyId : Uuid)
    (ctx : RequestContext) (g : Generated) : (issue env claims familyId ctx g).Sends A :=
  Prog.Sends.bind (sends_ask (hA.sign _)) fun _ => Prog.Sends.bind (sends_ask hA.now) fun _ =>
    Prog.Sends.bind (sends_ask (hA.insertToken _)) fun _ => trivial

theorem sends_logout (hA : TokenCalls A) (presented : Option String) :
    (logout presented).Sends A := by
  unfold logout
  split
  · trivial
  · split_ifs
    · trivial
    · refine Prog.Sends.bind (sends_parseAndLoad hA.findToken hA.verify _) fun loaded => ?_
      unfold revokeLoaded
      split
      · trivial
      · split_ifs
        · trivial
        · exact sends_ask (hA.saveToken _)

theorem sends_peekUserId (hfind : ∀ id, A (.findToken id)) (presented : String) :
    (peekUserId presented).Sends A := by
  unfold peekUserId
  dsimp only
  split_ifs
  · trivial
  · exact Prog.Sends.bind (sends_ask (hfind _)) fun _ => trivial

theorem sends_claimsFromRefresh (hA : TokenCalls A) (hfind : ∀ id, A (.findUser id))
    (presented : String) : (claimsFromRefresh presented).Sends A := by
  refine Prog.Sends.bind (sends_peekUserId hA.findToken presented) fun userId => ?_
  unfold claimsOf
  split
  · trivial
  · refine Prog.Sends.bind (sends_findById hfind _) fun user => ?_
    split_ifs <;> trivial

theorem sends_rotate (hA : TokenCalls A) (presented : String) (claims : AccessTokenClaims)
    (ctx : RequestContext) (g : Generated) : (rotate env presented claims ctx g).Sends A := by
  refine Prog.Sends.bind (sends_parseAndLoad hA.findToken hA.verify _) fun loaded => ?_
  unfold rotateLoaded
  split
  · trivial
  · split_ifs
    · exact Prog.Sends.bind (sends_ask (hA.revokeFamily _)) fun _ => trivial
    · refine Prog.Sends.bind (sends_ask hA.now) fun now => ?_
      split_ifs
      · trivial
      · exact Prog.Sends.bind (sends_issue hA _ _ _ _) fun _ =>
          Prog.Sends.bind (sends_ask (hA.saveToken _)) fun _ => trivial

theorem sends_refresh (hA : TokenCalls A) (hfind : ∀ id, A (.findUser id)) (presented : String)
    (ctx : RequestContext) (g : Generated) : (refresh env presented ctx g).Sends A := by
  unfold refresh
  split_ifs
  · trivial
  · refine Prog.Sends.tryCatch ?_ fun _ => trivial
    exact Prog.Sends.bind (sends_claimsFromRefresh hA hfind _) fun _ => sends_rotate hA _ _ _ _

end Sends

end GameClub.Auth
