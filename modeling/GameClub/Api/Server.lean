import GameClub.Api.Routes
import GameClub.Auth.Endpoints
import GameClub.Lib.Past

/-! # The server

A request passes the guards, the pipes, its handler and the interceptors. Requests run side by side,
and each goes on when what it awaits is there; a call of a service of the club takes effect at once.

* `Action`: a handler with the arguments the pipes give it, and `Action.run`: what it does.
* `handle`: a request from the guards to the response.
* `system`: the requests side by side, over everything that is stored. -/

namespace GameClub.Api

open GameClub.Lib GameClub.Lib.Interleave GameClub.Common GameClub.Store
open GameClub.Auth (AuthDb AccessTokenClaims ErrorResponse Generated IssuedTokens LoginDto
  ChangePasswordDto CreateUserDto UpdateUserDto User UserEntity Profile normalise)
open GameClub.Audit (JsValue)
open GameClub.Services (World CreateRoomDto UpdateRoomDto CreateComputerDto UpdateComputerDto
  CreateCustomerDto UpdateCustomerDto ComputerEntity CustomerEntity)
open GameClub.Services.Settings (Setting UpdateSettingDto)
open GameClub.Sessions (StartSessionDto ExtendSessionDto EndSessionDto)
open GameClub.Realtime (HttpRequest)

/-! ### Requests -/

/-- A valid body of a payment. -/
structure RecordPaymentDto where
  amount : ℤ
  reason : String
  amountMin : 1 ≤ amount
  reasonLength : reason.length ≤ 255

/-- A valid body of a correction. -/
structure CorrectionDto where
  signedAmount : ℤ
  reason : String
  signedAmountNonzero : signedAmount ≠ 0
  reasonLength : reason ≠ "" ∧ reason.length ≤ 255

/-- **A handler with its arguments**, and what the database and the clock generate for it. The
handlers that write nothing that is modelled here are `other`. -/
inductive Action
  | login (dto : LoginDto) (g : Generated)
  | refresh (g : Generated)
  | logout
  | me
  | changePassword (dto : ChangePasswordDto) (salt : String)
  | createUser (dto : CreateUserDto) (newId : Uuid) (salt : String)
  | updateUser (id : UuidText) (dto : UpdateUserDto)
  | removeUser (id : UuidText)
  | setSetting (dto : UpdateSettingDto)
  | recordPayment (customerId : UuidText) (dto : RecordPaymentDto) (newId : Uuid)
  | correct (customerId : UuidText) (dto : CorrectionDto) (newId : Uuid)
  | createComputer (dto : CreateComputerDto) (newId : Uuid)
  | updateComputer (id : UuidText) (dto : UpdateComputerDto) (byRelation : Bool)
  | removeComputer (id : UuidText) (now : Instant)
  | createRoom (dto : CreateRoomDto) (newId : Uuid)
  | updateRoom (id : UuidText) (dto : UpdateRoomDto)
  | removeRoom (id : UuidText) (now : Instant)
  | createCustomer (dto : CreateCustomerDto) (newId : Uuid)
  | updateCustomer (id : UuidText) (dto : UpdateCustomerDto)
  | removeCustomer (id : UuidText) (now : Instant)
  | startSession (dto : StartSessionDto) (startedAt : Instant) (randomUUID : Uuid)
      (newIds : ℕ → Uuid)
  | extendSession (id : UuidText) (dto : ExtendSessionDto)
  | endSession (id : UuidText) (dto : EndSessionDto) (endedAt : Instant) (newId : Uuid)
  | cancelSession (id : UuidText) (now : Instant)
  | other (handler : Handler) (h : handler ∈ [.summary, .findAuditLogs, .findComputers,
      .findComputer, .findCustomers, .findCustomer, .balance, .ledger, .live, .ready,
      .findNotifications, .markRead, .markAllRead, .findRooms, .findRoom, .findSessions,
      .activeSessions, .findSession, .quote, .getSettings, .findUsers, .findUser])

def Action.handler : Action → Handler
  | login _ _ => .login
  | refresh _ => .refresh
  | logout => .logout
  | me => .me
  | changePassword _ _ => .changePassword
  | createUser _ _ _ => .createUser
  | updateUser _ _ => .updateUser
  | removeUser _ => .removeUser
  | setSetting _ => .setSetting
  | recordPayment _ _ _ => .recordPayment
  | correct _ _ _ => .correct
  | createComputer _ _ => .createComputer
  | updateComputer _ _ _ => .updateComputer
  | removeComputer _ _ => .removeComputer
  | createRoom _ _ => .createRoom
  | updateRoom _ _ => .updateRoom
  | removeRoom _ _ => .removeRoom
  | createCustomer _ _ => .createCustomer
  | updateCustomer _ _ => .updateCustomer
  | removeCustomer _ _ => .removeCustomer
  | startSession _ _ _ _ => .startSession
  | extendSession _ _ => .extendSession
  | endSession _ _ _ _ => .endSession
  | cancelSession _ _ => .cancelSession
  | other handler _ => handler

/-- A request: its credentials, what the audit reads of it, the time its response is wrapped at, its
handler, and what the pipes make of its body and its parameters. -/
structure Request where
  http : HttpRequest
  body : JsValue
  params : List (String × String)
  ip : Option String
  userAgent : Option String
  requestId : Option String
  now : Instant
  handler : Handler
  action : Except ErrorResponse Action
  routed : ∀ a, action = .ok a → a.handler = handler

/-- The request as the interceptors see it, with the principal the guard has attached. -/
def Request.audit (req : Request) (user : Option AccessTokenClaims) : Audit.Request where
  user := user.map fun user => ⟨Uuid.text user.sub, user.email⟩
  body := req.body
  params := req.params
  ip := req.ip
  userAgent := req.userAgent
  requestId := req.requestId

/-- `ctx(req)` -/
def Request.ctx (req : Request) : Auth.RequestContext where
  userAgent := req.userAgent
  ipAddress := req.ip
  requestId := some (Audit.getRequestId (req.audit none))

/-- `readRefreshCookie(req)` -/
def Request.refreshCookie (req : Request) : String :=
  (req.http.cookies.lookup "refresh_token".toList).getD ""

/-- What a handler returns, with the cookies it sets. -/
inductive Returned
  | nothing
  | authenticated (authenticated : Bool) (cookies : Option IssuedTokens)
  | passwordChanged
  | user (saved : UserEntity)
  | profile (found : Profile)
  | setting (saved : Setting)
  | room (saved : Room)
  | computer (saved : ComputerEntity)
  | customer (saved : CustomerEntity)
  | session (saved : Session)
  | sessions (created : List Session)
  | entry (booked : DebtTransaction)
  | value (v : JsValue)

/-! ### Calls -/

/-- **Everything that is stored**; the audit rows of the interceptor are among those of the accounts. -/
structure Server where
  world : World
  accounts : AuthDb
  settings : Table Setting.key

/-- **What is not of this repository**: what the handlers of the accounts use, the verification of an
access token at a time, the objects that handlers return as JavaScript values, and what the handlers
do that are not modelled here. -/
structure Env extends Auth.Env where
  verifyAsync : String → ℤ → Option AccessTokenClaims
  object : Returned → JsValue
  answer : Handler → Server → Except ErrorResponse JsValue

/-- What a request awaits. -/
inductive Stmt
  | verifyAsync (token : String)
  | account (s : Auth.Stmt)
  | insertUser (user : User)
  | softRemoveUser (id : Uuid)
  | club (c : Services.Call)
  | findSetting (key : String)
  | saveSetting (row : Setting)
  | other (handler : Handler)
  | record (entry : Audit.AuditEntryInput)

/-- The type of the reply; a rejected verification replies nothing. -/
abbrev Res : Stmt → Type
  | .verifyAsync _ => Option AccessTokenClaims
  | .account s => Auth.Res s
  | .insertUser _ => Except Thrown Unit
  | .softRemoveUser _ => Unit
  | .club _ => Except Thrown Returned
  | .findSetting _ => Option Setting
  | .saveSetting _ => Unit
  | .other _ => Except ErrorResponse JsValue
  | .record _ => Unit

/-- A call of a service, and what it returns. -/
def answered {α : Type} (x : Services.Service α) (f : α → Returned) (w : World) :
    Except Thrown Returned × World := ((x.call w).1.map f, (x.call w).2)

/-- What a call on the club returns, and the world after it. -/
def callClub : Services.Call → World → Except Thrown Returned × World
  | .op (.start dto ctx startedAt randomUUID newIds) =>
    answered (Services.start dto ctx startedAt randomUUID newIds) .sessions
  | .op (.extend id dto) => answered (Services.extend id dto) .session
  | .op (.endSession id dto ctx endedAt newId) =>
    answered (Services.endSession id dto ctx endedAt newId) .session
  | .op (.cancel id ctx now) => answered (Services.cancel id ctx now) .session
  | .op (.recordPayment input newId) => answered (Services.recordPayment input newId) .entry
  | .op (.correct customerId signedAmount actorId reason newId) =>
    answered (Services.correct customerId signedAmount actorId reason newId) .entry
  | .op (.createComputer dto newId) => answered (Services.Computers.create dto newId) .computer
  | .op (.updateComputer id dto byRelation) =>
    answered (Services.Computers.update id dto byRelation) .computer
  | .op (.removeComputer id now) => answered (Services.Computers.remove id now) fun _ => .nothing
  | .op (.updateRoom id dto) => answered (Services.Rooms.update id dto) .room
  | .createRoom dto newId => answered (Services.Rooms.create dto newId) .room
  | .removeRoom id now => answered (Services.Rooms.remove id now) fun _ => .nothing
  | .createCustomer dto newId => answered (Services.Customers.create dto newId) .customer
  | .updateCustomer id dto => answered (Services.Customers.update id dto) .customer
  | .removeCustomer id now => answered (Services.Customers.remove id now) fun _ => .nothing

theorem callClub_world (c : Services.Call) (w : World) : (callClub c w).2 = w.perform c := by
  cases c with
  | op op => cases op <;> rfl
  | _ => rfl

/-- `users.save` of a new account. -/
def execInsertUser (user : User) (db : AuthDb) : Except Thrown Unit × AuthDb :=
  if db.users.rows.any fun u => u.email = user.email then
    (.error (.database (.uniqueViolation "uq_users_email")), db)
  else if (db.users.get? user.id).isSome then
    (.error (.database (.uniqueViolation "PK_a3ffb1c0c8416b9fc6f907b7433")), db)
  else (.ok (), { db with users := db.users.insert user })

/-- What a call does. A call of a service of the club is one step here, with what it loads, saves and
announces; the steps within are those of `Services.Updates` and `Concurrency.Locking`. -/
def exec (env : Env) : (s : Stmt) → Server → Res s × Server
  | .verifyAsync token, w => (env.verifyAsync token w.accounts.clock, w)
  | .account s, w =>
    let y := Auth.exec env.toEnv s w.accounts
    (y.1, { w with accounts := y.2 })
  | .insertUser user, w =>
    let y := execInsertUser user w.accounts
    (y.1, { w with accounts := y.2 })
  | .softRemoveUser id, w => ((), { w with accounts := w.accounts.softRemove id })
  | .club c, w =>
    let y := callClub c w.world
    (y.1, { w with world := y.2 })
  | .findSetting key, w => (w.settings.get? key, w)
  | .saveSetting row, w => ((), { w with settings := w.settings.put row })
  | .other handler, w => (env.answer handler w, w)
  | .record entry, w => ((), { w with accounts := { w.accounts with
    auditLogs := Audit.AuditService.record env.saves entry w.accounts.auditLogs } })

/-! ### The handlers -/

/-- A request, which awaits its calls; what it throws is what the filter answers. -/
abbrev Async (α : Type) := Prog Res ErrorResponse α

def send (s : Stmt) : Async (Res s) := Prog.stmt s

/-- A program on the accounts, as part of a request. -/
def onAccounts {α : Type} : Auth.Async α → Async α
  | .pure a => .pure a
  | .throw e => .throw (normalise e)
  | .call s k => .call (.account s) fun r => onAccounts (k r)

def onClub (c : Services.Call) : Async Returned :=
  .call (.club c) fun r => liftM (r.mapError normalise)

/-- `user.sub` of the principal. -/
def principal (user : Option AccessTokenClaims) : Except ErrorResponse AccessTokenClaims :=
  match user with
  | none => .error (normalise (.error "Cannot read properties of undefined (reading 'sub')"))
  | some user => .ok user

namespace JwtAuthGuard

/-- `canActivate`: the principal it attaches to the request. -/
def canActivate (req : Request) : Async (Option AccessTokenClaims) :=
  if req.handler.getAllAndOverride Metadata.isPublic = some true then pure none
  else
    match (Realtime.JwtAuthGuard.extractToken req.http).filter (· ≠ "") with
    | none => .throw (UnauthorizedException "Authentication token is missing")
    | some token => .call (.verifyAsync token) fun payload =>
      match (payload : Option AccessTokenClaims) with
      | none => .throw (UnauthorizedException "Invalid or expired access token")
      | some payload => .pure (some payload)

end JwtAuthGuard

namespace UsersService

def create (env : Env) (dto : CreateUserDto) (newId : Uuid) (salt : String) : Async Returned := do
  let user := Auth.UsersService.newUser env.toEnv dto newId salt
  let found ← onAccounts (Auth.ask (.findUserByEmail user.email))
  if found.isSome then
    .throw (normalise (.domain
      (ConflictException "EMAIL_TAKEN" "A user with this email already exists" [])))
  else .call (.insertUser user) fun r =>
    liftM ((r.map fun _ => .user (env.returned user.entity)).mapError normalise)

def remove (id : UuidText) : Async Returned := do
  let user ← onAccounts (Auth.findById id)
  send (.softRemoveUser user.id)
  pure .nothing

end UsersService

/-- `SettingsService.set`. -/
def SettingsService.set (key : String) (value : JsValue) (updatedBy : Uuid) : Async Returned := do
  let existing ← send (.findSetting key)
  let row : Setting := match (existing : Option Setting) with
    | some existing => { existing with value, updatedBy := some updatedBy }
    | none => ⟨key, value, some updatedBy⟩
  send (.saveSetting row)
  pure (.setting row)

/-- **What a handler does.** -/
def Action.run (env : Env) (req : Request) (user : Option AccessTokenClaims) :
    Action → Async Returned
  | .login dto g => do
    let tokens ← onAccounts (Auth.login env.toEnv dto req.ctx g)
    pure (.authenticated true (some tokens))
  | .refresh g => do
    let tokens ← onAccounts (Auth.refresh env.toEnv req.refreshCookie req.ctx g)
    pure (.authenticated true (some tokens))
  | .logout => do
    onAccounts (Auth.logout (some req.refreshCookie))
    pure (.authenticated false none)
  | .me => do
    let user ← principal user
    let profile ← onAccounts (Auth.findById (Auth.Uuid.asText user.sub))
    pure (.profile profile)
  | .changePassword dto salt => do
    let user ← principal user
    onAccounts (Auth.changePassword env.toEnv user.sub dto req.ctx salt)
    pure .passwordChanged
  | .createUser dto newId salt => UsersService.create env dto newId salt
  | .updateUser id dto => do
    let saved ← onAccounts (Auth.update id dto)
    pure (.user saved)
  | .removeUser id => UsersService.remove id
  | .setSetting dto => do
    let user ← principal user
    -- the pipe has gone into the value
    SettingsService.set dto.key (Services.ValidationPipe.transform dto.value) user.sub
  | .recordPayment customerId dto newId => do
    let user ← principal user
    onClub (.op (.recordPayment ⟨customerId.value, (dto.amount : Number), none, some user.sub,
      some dto.reason⟩ newId))
  | .correct customerId dto newId => do
    let user ← principal user
    onClub (.op (.correct customerId.value (dto.signedAmount : Number) user.sub dto.reason newId))
  | .createComputer dto newId => onClub (.op (.createComputer dto newId))
  | .updateComputer id dto byRelation => onClub (.op (.updateComputer id dto byRelation))
  | .removeComputer id now => onClub (.op (.removeComputer id now))
  | .createRoom dto newId => onClub (.createRoom dto newId)
  | .updateRoom id dto => onClub (.op (.updateRoom id dto))
  | .removeRoom id now => onClub (.removeRoom id now)
  | .createCustomer dto newId => onClub (.createCustomer dto newId)
  | .updateCustomer id dto => onClub (.updateCustomer id dto)
  | .removeCustomer id now => onClub (.removeCustomer id now)
  | .startSession dto startedAt randomUUID newIds => do
    let user ← principal user
    onClub (.op (.start dto ⟨user.sub⟩ startedAt randomUUID newIds))
  | .extendSession id dto => onClub (.op (.extend id dto))
  | .endSession id dto endedAt newId => do
    let user ← principal user
    onClub (.op (.endSession id dto ⟨user.sub⟩ endedAt newId))
  | .cancelSession id now => do
    let user ← principal user
    onClub (.op (.cancel id ⟨user.sub⟩ now))
  | .other handler _ => .call (.other handler) fun r => liftM (r.map Returned.value)

/-- The interceptors, once the handler has returned. The response does not wait for the entry, which is
sent with `void`; the request is over when both are done. -/
def intercepted (env : Env) (req : Request) (user : Option AccessTokenClaims) (returned : Returned) :
    Async JsValue :=
  let response := Audit.ResponseInterceptor.envelope (req.audit user) req.now (env.object returned)
  match req.handler.audited with
  | none => pure response
  | some audited => do
    send (.record (Audit.AuditInterceptor.entry audited.metadata (req.audit user) response))
    pure response

/-- **A request**, from the guards to the response. -/
def handle (env : Env) (req : Request) : Async JsValue := do
  let user ← JwtAuthGuard.canActivate req
  RolesGuard.canActivate req.handler user
  let action ← req.action
  let returned ← action.run env req user
  intercepted env req user returned

/-- **The requests side by side.** -/
def system (env : Env) :
    System Res Server Request (Except ErrorResponse JsValue) (Async JsValue) where
  exec := exec env
  start := handle env
  view := progView
  pass n w := { w with accounts := Auth.passTime n w.accounts }

abbrev ApiEvent := Event Server Request (Except ErrorResponse JsValue) (Async JsValue)

abbrev ApiConfig := Config Server (Async JsValue)

/-- The calls that have been made on the server. -/
abbrev ApiPast := Past Stmt Server

/-! ### The calls of a handler -/

/-- The call on the club that a handler makes for the principal `sub`. -/
def Action.club (sub : Uuid) : Action → Option Services.Call
  | .recordPayment customerId dto newId => some (.op (.recordPayment
    ⟨customerId.value, (dto.amount : Number), none, some sub, some dto.reason⟩ newId))
  | .correct customerId dto newId =>
    some (.op (.correct customerId.value (dto.signedAmount : Number) sub dto.reason newId))
  | .createComputer dto newId => some (.op (.createComputer dto newId))
  | .updateComputer id dto byRelation => some (.op (.updateComputer id dto byRelation))
  | .removeComputer id now => some (.op (.removeComputer id now))
  | .createRoom dto newId => some (.createRoom dto newId)
  | .updateRoom id dto => some (.op (.updateRoom id dto))
  | .removeRoom id now => some (.removeRoom id now)
  | .createCustomer dto newId => some (.createCustomer dto newId)
  | .updateCustomer id dto => some (.updateCustomer id dto)
  | .removeCustomer id now => some (.removeCustomer id now)
  | .startSession dto startedAt randomUUID newIds =>
    some (.op (.start dto ⟨sub⟩ startedAt randomUUID newIds))
  | .extendSession id dto => some (.op (.extend id dto))
  | .endSession id dto endedAt newId => some (.op (.endSession id dto ⟨sub⟩ endedAt newId))
  | .cancelSession id now => some (.op (.cancel id ⟨sub⟩ now))
  | _ => none

/-- The handlers that record an entry themselves. -/
def Handler.Records (handler : Handler) : Prop := handler = .login ∨ handler = .changePassword

/-- The calls that handlers make elsewhere, but for entries in the audit, are among those of `A`. -/
structure Admits (A : Stmt → Prop) : Prop where
  account : ∀ s, (∀ entry, s ≠ .audit entry) → A (.account s)
  insertUser : ∀ user, A (.insertUser user)
  softRemoveUser : ∀ id, A (.softRemoveUser id)
  findSetting : ∀ key, A (.findSetting key)
  saveSetting : ∀ row, A (.saveSetting row)
  other : ∀ handler, A (.other handler)

section Sends

variable {A : Stmt → Prop} {α : Type}

theorem sends_onAccounts {p : Auth.Async α} (hp : p.Sends fun s => A (.account s)) :
    (onAccounts p).Sends A := by
  induction p with
  | pure a => trivial
  | throw e => trivial
  | call s k ih => exact ⟨hp.1, fun r => ih r (hp.2 r)⟩

theorem Admits.tokenCalls (hA : Admits A) : Auth.TokenCalls fun s => A (.account s) where
  now := hA.account _ fun _ h => nomatch h
  sign _ := hA.account _ fun _ h => nomatch h
  verify _ _ := hA.account _ fun _ h => nomatch h
  findToken _ := hA.account _ fun _ h => nomatch h
  insertToken _ := hA.account _ fun _ h => nomatch h
  saveToken _ := hA.account _ fun _ h => nomatch h
  revokeFamily _ := hA.account _ fun _ h => nomatch h

theorem Admits.findUser (hA : Admits A) (id : Uuid) : A (.account (.findUser id)) :=
  hA.account _ fun _ h => nomatch h

theorem Admits.saveUser (hA : Admits A) (entity : UserEntity) : A (.account (.saveUser entity)) :=
  hA.account _ fun _ h => nomatch h

theorem sends_principal {user : Option AccessTokenClaims} {f : AccessTokenClaims → Async α}
    (hf : ∀ claims, (f claims).Sends A) :
    ((liftM (principal user) : Async AccessTokenClaims) >>= f).Sends A :=
  (Prog.sends_lift _).bind hf

theorem sends_createUser {env : Env} (hA : Admits A) (dto : CreateUserDto) (newId : Uuid)
    (salt : String) : (UsersService.create env dto newId salt).Sends A := by
  have hfind : ∀ email, A (.account (.findUserByEmail email)) := fun _ =>
    hA.account _ fun _ h => nomatch h
  refine (sends_onAccounts (Auth.sends_ask (hfind _))).bind fun found => ?_
  split_ifs
  · trivial
  · exact ⟨hA.insertUser _, fun _ => Prog.sends_lift _⟩

/-- **What a handler sends**: its own call on the club, if it has one, and calls elsewhere. -/
theorem sends_run {env : Env} {req : Request} (hA : Admits A) (user : Option AccessTokenClaims)
    (a : Action) (hclub : ∀ sub c, a.club sub = some c → A (.club c))
    (haudit : a.handler.Records → ∀ entry, A (.account (.audit entry))) :
    (a.run env req user).Sends A := by
  have haccounts : ∀ {β : Type} {p : Auth.Async β} (f : β → Returned),
      (p.Sends fun s => A (.account s)) →
        (onAccounts p >>= fun r => pure (f r) : Async Returned).Sends A :=
    fun f hp => (sends_onAccounts hp).bind fun _ => trivial
  have hall : a.handler.Records → ∀ s, A (.account s) := fun hrecords s => by
    by_cases hs : ∃ entry, s = .audit entry
    · obtain ⟨entry, rfl⟩ := hs
      exact haudit hrecords entry
    · exact hA.account s fun entry heq => hs ⟨entry, heq⟩
  have honClub : ∀ c, A (.club c) → (onClub c).Sends A := fun c hc =>
    ⟨hc, fun _ => Prog.sends_lift _⟩
  cases a with
  | login dto g => exact haccounts _ (Prog.sends_of_forall (hall (Or.inl rfl)) _)
  | refresh g => exact haccounts _ (Auth.sends_refresh hA.tokenCalls hA.findUser _ _ _)
  | logout => exact haccounts _ (Auth.sends_logout hA.tokenCalls _)
  | me => exact sends_principal fun claims => haccounts _ (Auth.sends_findById hA.findUser _)
  | changePassword dto salt =>
    exact sends_principal fun claims =>
      haccounts _ (Prog.sends_of_forall (hall (Or.inr rfl)) _)
  | createUser dto newId salt => exact sends_createUser hA dto newId salt
  | updateUser id dto =>
    exact haccounts _ (Auth.sends_update hA.findUser hA.saveUser _ _)
  | removeUser id =>
    exact (sends_onAccounts (Auth.sends_findById hA.findUser _)).bind fun user =>
      ⟨hA.softRemoveUser _, fun _ => trivial⟩
  | setSetting dto =>
    exact sends_principal fun claims =>
      ⟨hA.findSetting _, fun existing => ⟨hA.saveSetting _, fun _ => trivial⟩⟩
  | recordPayment customerId dto newId =>
    exact sends_principal fun claims => honClub _ (hclub claims.sub _ rfl)
  | correct customerId dto newId =>
    exact sends_principal fun claims => honClub _ (hclub claims.sub _ rfl)
  | startSession dto startedAt randomUUID newIds =>
    exact sends_principal fun claims => honClub _ (hclub claims.sub _ rfl)
  | endSession id dto endedAt newId =>
    exact sends_principal fun claims => honClub _ (hclub claims.sub _ rfl)
  | cancelSession id now =>
    exact sends_principal fun claims => honClub _ (hclub claims.sub _ rfl)
  | other handler hother => exact ⟨hA.other handler, fun _ => Prog.sends_lift _⟩
  | _ => exact honClub _ (hclub 0 _ rfl)

/-- **What a request sends**, from the guards to the interceptors. -/
theorem sends_handle {env : Env} (hA : Admits A) (hverify : ∀ token, A (.verifyAsync token))
    (hrecord : ∀ entry, A (.record entry)) (haudit : ∀ entry, A (.account (.audit entry)))
    (req : Request) (hclub : ∀ a sub c, req.action = .ok a → a.club sub = some c → A (.club c)) :
    (handle env req).Sends A := by
  have hguard : (JwtAuthGuard.canActivate req).Sends A := by
    unfold JwtAuthGuard.canActivate
    split_ifs
    · trivial
    · split
      · trivial
      · exact ⟨hverify _, fun payload => by cases payload <;> trivial⟩
  have hintercepted : ∀ user returned, (intercepted env req user returned).Sends A := by
    intro user returned
    unfold intercepted
    dsimp only
    split
    · trivial
    · exact ⟨hrecord _, fun _ => trivial⟩
  refine hguard.bind fun user => (Prog.sends_lift _).bind fun _ => ?_
  cases haction : req.action with
  | error e => trivial
  | ok a =>
    exact (sends_run hA user a (fun sub c hc => hclub a sub c haction hc) fun _ => haudit).bind
      fun returned => hintercepted user returned

end Sends

end GameClub.Api
