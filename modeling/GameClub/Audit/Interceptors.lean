import GameClub.Common.Exceptions
import GameClub.Common.IsoDate

/-! # The global interceptors

A request passes the interceptors in the order they are registered, and its response passes them in
the reverse order: the one registered first sees the response last. `AuditInterceptor` is registered
before `ResponseInterceptor`, so what it sees is the envelope, which has no id.

* `respond_ok`: what an audited request answers, and the one entry it records.
* `respond_error`: a request that fails records nothing.
* `names_entity_iff`: when the audit row names the entity of the payload.
* `createComputer_not_named`: the row of a created computer names nothing. -/

namespace GameClub.Audit

open GameClub.Common

/-! ### JavaScript values -/

/-- A value of the language; an object is its own enumerable fields. -/
inductive JsValue
  | undefined
  | null
  | boolean (b : Bool)
  | number (x : ℚ)
  | nan
  | infinity (negative : Bool)
  | string (s : String)
  | array (items : List JsValue)
  | object (fields : List (String × JsValue))

namespace JsValue

/-- `typeof value === 'object'`, `null` apart. -/
def isObject : JsValue → Bool
  | array _ | object _ => true
  | _ => false

/-- `value[key]` of an object with `key in value`; no key that is read is an array's. -/
def property? (key : String) : JsValue → Option JsValue
  | object fields => fields.lookup key
  | _ => none

def truthy : JsValue → Bool
  | undefined | null | nan => false
  | boolean b => b
  | number x => x ≠ 0
  | string s => s ≠ ""
  | infinity _ | array _ | object _ => true

/-- `value ?? other` -/
def orElse : JsValue → JsValue → JsValue
  | undefined, other | null, other => other
  | value, _ => value

/-- `Object.keys(value).length` is not zero. -/
def hasKeys : JsValue → Bool
  | string s => s ≠ ""
  | array items => items ≠ []
  | object fields => !fields.isEmpty
  | _ => false

/-- The `id` of an object with a string there. -/
def stringId : JsValue → Option String
  | object fields =>
    match fields.lookup "id" with
    | some (string id) => some id
    | _ => none
  | _ => none

end JsValue

/-! ### Calls and interceptors -/

variable {σ : Type}

/-- What `next.handle()` does when it is subscribed to: it emits one value, or fails. -/
abbrev CallHandler (σ : Type) := σ → Except Thrown JsValue × σ

/-- `pipe(tap(f))` -/
def CallHandler.tap (f : JsValue → σ → σ) (next : CallHandler σ) : CallHandler σ := fun s =>
  match next s with
  | (.ok value, s') => (.ok value, f value s')
  | (.error e, s') => (.error e, s')

/-- `pipe(map(f))` -/
def CallHandler.map (f : JsValue → JsValue) (next : CallHandler σ) : CallHandler σ := fun s =>
  match next s with
  | (.ok value, s') => (.ok (f value), s')
  | (.error e, s') => (.error e, s')

/-- The interceptors around a handler, the first of the list outermost. -/
def intercepted {κ : Type} (interceptors : List (κ → CallHandler σ → CallHandler σ)) (context : κ)
    (handler : CallHandler σ) : CallHandler σ :=
  interceptors.foldr (fun intercept next => intercept context next) handler

theorem tap_ok {f : JsValue → σ → σ} {next : CallHandler σ} {s s' : σ} {value : JsValue}
    (h : next s = (.ok value, s')) : next.tap f s = (.ok value, f value s') := by
  simp [CallHandler.tap, h]

theorem tap_error {f : JsValue → σ → σ} {next : CallHandler σ} {s s' : σ} {e : Thrown}
    (h : next s = (.error e, s')) : next.tap f s = (.error e, s') := by
  simp [CallHandler.tap, h]

theorem map_ok {f : JsValue → JsValue} {next : CallHandler σ} {s s' : σ} {value : JsValue}
    (h : next s = (.ok value, s')) : next.map f s = (.ok (f value), s') := by
  simp [CallHandler.map, h]

theorem map_error {f : JsValue → JsValue} {next : CallHandler σ} {s s' : σ} {e : Thrown}
    (h : next s = (.error e, s')) : next.map f s = (.error e, s') := by
  simp [CallHandler.map, h]

/-! ### Requests -/

structure AuthenticatedUser where
  sub : String
  email : String

structure Request where
  user : Option AuthenticatedUser
  body : JsValue
  params : List (String × String)
  ip : Option String
  userAgent : Option String
  requestId : Option String

def getRequestId (req : Request) : String := req.requestId.getD "unknown"

/-- `@Audited(action, entity)` -/
structure AuditMetadata where
  action : String
  entity : String

/-- The handler's metadata, the request, and the clock when the response is wrapped. -/
structure ExecutionContext where
  audited : Option AuditMetadata
  request : Request
  now : Instant

/-! ### The response interceptor -/

namespace ResponseInterceptor

/-- The success envelope. -/
def envelope (req : Request) (now : Instant) (payload : JsValue) : JsValue :=
  let isEnvelope := payload.isObject && (payload.property? "data").isSome
  let data := if isEnvelope then (payload.property? "data").getD .undefined else payload
  let info := if isEnvelope then (payload.property? "meta").getD .undefined else .undefined
  .object ([("success", .boolean true), ("data", data)] ++
    (if info.truthy then [("meta", info)] else []) ++
    [("requestId", .string (getRequestId req)), ("timestamp", .string now.toISOString)])

def intercept (context : ExecutionContext) (next : CallHandler σ) : CallHandler σ :=
  next.map (envelope context.request context.now)

end ResponseInterceptor

/-! ### The audit -/

structure AuditEntryInput where
  actorId : Option String
  actorEmail : Option String
  action : String
  entity : String
  entityId : Option String
  oldValue : JsValue
  newValue : JsValue
  ipAddress : Option String
  userAgent : Option String
  requestId : Option String

/-- A row of `audit_logs`. -/
structure AuditLog where
  actorId : Option String
  actorEmail : Option String
  action : String
  entity : String
  entityId : Option String
  oldValue : JsValue
  newValue : JsValue
  ipAddress : Option String
  userAgent : Option String
  requestId : Option String

namespace AuditService

def sensitive : List String := ["password", "passwordHash", "token", "refreshToken"]

mutual

/-- Secrets at the top of an object, or of the objects of an array. -/
def redact : JsValue → JsValue
  | .array items => .array (redactAll items)
  | .object fields =>
    .object (fields.map fun f => if f.1 ∈ sensitive then (f.1, .string "[REDACTED]") else f)
  | value => value

def redactAll : List JsValue → List JsValue
  | [] => []
  | item :: items => redact item :: redactAll items

end

/-- The row of an entry. -/
def row (entry : AuditEntryInput) : AuditLog where
  actorId := entry.actorId
  actorEmail := entry.actorEmail
  action := entry.action
  entity := entry.entity
  entityId := entry.entityId
  oldValue := (redact entry.oldValue).orElse .null
  newValue := (redact entry.newValue).orElse .null
  ipAddress := entry.ipAddress
  userAgent := entry.userAgent
  requestId := entry.requestId

/-- `record`: a row the database refuses is logged and left out. -/
def record (saves : AuditLog → Bool) (entry : AuditEntryInput) (logs : List AuditLog) :
    List AuditLog :=
  if saves (row entry) then logs ++ [row entry] else logs

end AuditService

namespace AuditInterceptor

def extractId (result : JsValue) : Option String :=
  if result.truthy && result.isObject && (result.property? "id").isSome then
    match (result.property? "id").getD .undefined with
    | .string id => some id
    | _ => none
  else none

/-- The entry of a handler that emitted `result`. -/
def entry (audited : AuditMetadata) (req : Request) (result : JsValue) : AuditEntryInput :=
  let body := req.body.orElse (.object [])
  { actorId := req.user.map AuthenticatedUser.sub
    actorEmail := req.user.map AuthenticatedUser.email
    action := audited.action
    entity := audited.entity
    entityId := (extractId result).or (req.params.lookup "id")
    oldValue := .undefined
    newValue := if body.hasKeys then body else result
    ipAddress := req.ip
    userAgent := req.userAgent
    requestId := some (getRequestId req) }

def intercept (saves : AuditLog → Bool) (context : ExecutionContext)
    (next : CallHandler (List AuditLog)) : CallHandler (List AuditLog) :=
  match context.audited with
  | none => next
  | some audited =>
    next.tap fun result => AuditService.record saves (entry audited context.request result)

theorem extractId_eq_stringId (result : JsValue) : extractId result = result.stringId := by
  cases result with
  | object fields =>
    simp only [extractId, JsValue.truthy, JsValue.isObject, JsValue.property?, JsValue.stringId,
      Bool.true_and]
    cases fields.lookup "id" with
    | none => rfl
    | some id => cases id <;> rfl
  | _ => simp [extractId, JsValue.isObject, JsValue.property?, JsValue.stringId]

end AuditInterceptor

/-! ### The application -/

/-- The handlers with an `@Audited`. -/
inductive AuditedHandler
  | recordPayment
  | correct
  | createComputer
  | updateComputer
  | removeComputer
  | createUser
  | updateUser
  | removeUser
  | createRoom
  | updateRoom
  | removeRoom
  | createCustomer
  | updateCustomer
  | removeCustomer
  | setSetting
  | startSession
  | extendSession
  | endSession
  | cancelSession

namespace AuditedHandler

def metadata : AuditedHandler → AuditMetadata
  | recordPayment => ⟨"DEBT_PAYMENT", "DebtTransaction"⟩
  | correct => ⟨"DEBT_CORRECTION", "DebtTransaction"⟩
  | createComputer => ⟨"COMPUTER_CREATE", "Computer"⟩
  | updateComputer => ⟨"COMPUTER_UPDATE", "Computer"⟩
  | removeComputer => ⟨"COMPUTER_DELETE", "Computer"⟩
  | createUser => ⟨"USER_CREATE", "User"⟩
  | updateUser => ⟨"USER_UPDATE", "User"⟩
  | removeUser => ⟨"USER_DELETE", "User"⟩
  | createRoom => ⟨"ROOM_CREATE", "Room"⟩
  | updateRoom => ⟨"ROOM_UPDATE", "Room"⟩
  | removeRoom => ⟨"ROOM_DELETE", "Room"⟩
  | createCustomer => ⟨"CUSTOMER_CREATE", "Customer"⟩
  | updateCustomer => ⟨"CUSTOMER_UPDATE", "Customer"⟩
  | removeCustomer => ⟨"CUSTOMER_DELETE", "Customer"⟩
  | setSetting => ⟨"SETTING_UPDATE", "Setting"⟩
  | startSession => ⟨"SESSION_START", "Session"⟩
  | extendSession => ⟨"SESSION_EXTEND", "Session"⟩
  | endSession => ⟨"SESSION_END", "Session"⟩
  | cancelSession => ⟨"SESSION_CANCEL", "Session"⟩

/-- The parameters of the route. -/
def paramNames : AuditedHandler → List String
  | recordPayment | correct => ["customerId"]
  | createComputer | createUser | createRoom | createCustomer | setSetting | startSession => []
  | updateComputer | removeComputer | updateUser | removeUser | updateRoom | removeRoom
  | updateCustomer | removeCustomer | extendSession | endSession | cancelSession => ["id"]

end AuditedHandler

namespace AppModule

/-- The interceptors among the `providers`, in their order. -/
def interceptors (saves : AuditLog → Bool) :
    List (ExecutionContext → CallHandler (List AuditLog) → CallHandler (List AuditLog)) :=
  [AuditInterceptor.intercept saves, ResponseInterceptor.intercept]

end AppModule

/-- An audited request whose handler does `call`. -/
def respond (saves : AuditLog → Bool) (handler : AuditedHandler) (req : Request) (now : Instant)
    (call : CallHandler (List AuditLog)) : CallHandler (List AuditLog) :=
  intercepted (AppModule.interceptors saves) ⟨some handler.metadata, req, now⟩ call

/-- A handler that returns `payload`. -/
def returns (payload : JsValue) : CallHandler σ := fun s => (.ok payload, s)

/-- The row names the entity of the payload: its id, or the route's where it has none. -/
def NamesEntity (req : Request) (payload : JsValue) (row : AuditLog) : Prop :=
  row.entityId = payload.stringId.or (req.params.lookup "id")

variable {saves : AuditLog → Bool} {req : Request} {now : Instant} {payload : JsValue}
  {logs : List AuditLog}

/-- The row names the entity of the value its interceptor sees. -/
theorem row_names_seen (audited : AuditMetadata) (req : Request) (seen : JsValue) :
    NamesEntity req seen (AuditService.row (AuditInterceptor.entry audited req seen)) := by
  simp [NamesEntity, AuditService.row, AuditInterceptor.entry,
    AuditInterceptor.extractId_eq_stringId]

/-- The envelope has no id. -/
theorem stringId_envelope (req : Request) (now : Instant) (payload : JsValue) :
    (ResponseInterceptor.envelope req now payload).stringId = none := by
  simp only [ResponseInterceptor.envelope, JsValue.stringId]
  split_ifs <;> simp [List.lookup_cons]

/-- An audited request answers the envelope and records what it saw of it. -/
theorem respond_ok (handler : AuditedHandler) {call : CallHandler (List AuditLog)}
    {logs' : List AuditLog} (h : call logs = (.ok payload, logs')) :
    respond saves handler req now call logs =
      (.ok (ResponseInterceptor.envelope req now payload),
        AuditService.record saves (AuditInterceptor.entry handler.metadata req
          (ResponseInterceptor.envelope req now payload)) logs') :=
  tap_ok (map_ok h)

/-- **A request that fails records nothing.** -/
theorem respond_error (handler : AuditedHandler) {call : CallHandler (List AuditLog)}
    {logs' : List AuditLog} {e : Thrown} (h : call logs = (.error e, logs')) :
    respond saves handler req now call logs = (.error e, logs') :=
  tap_error (map_error h)

/-- With the interceptors in the other order the row names the entity of every payload. -/
theorem swapped_names_entity (handler : AuditedHandler) :
    ∃ row, intercepted (AppModule.interceptors saves).reverse ⟨some handler.metadata, req, now⟩
        (returns payload) logs =
      (.ok (ResponseInterceptor.envelope req now payload),
        if saves row then logs ++ [row] else logs) ∧ NamesEntity req payload row := by
  refine ⟨_, ?_, row_names_seen handler.metadata req payload⟩
  have hcall : returns payload logs = (.ok payload, logs) := rfl
  have hrecord : AuditInterceptor.intercept saves ⟨some handler.metadata, req, now⟩
      (returns payload) logs = (.ok payload, AuditService.record saves
        (AuditInterceptor.entry handler.metadata req payload) logs) :=
    tap_ok (f := fun result => AuditService.record saves
      (AuditInterceptor.entry handler.metadata req result)) hcall
  exact map_ok hrecord

/-- **The row names the entity exactly when the payload has no id, or it is the route's.** -/
theorem names_entity_iff (saves : AuditLog → Bool) (handler : AuditedHandler) (req : Request)
    (now : Instant) (payload : JsValue) (logs : List AuditLog) :
    ∃ row, respond saves handler req now (returns payload) logs =
        (.ok (ResponseInterceptor.envelope req now payload),
          if saves row then logs ++ [row] else logs) ∧
      (NamesEntity req payload row ↔
        payload.stringId = none ∨ payload.stringId = req.params.lookup "id") := by
  refine ⟨_, respond_ok handler rfl, ?_⟩
  have hseen := row_names_seen handler.metadata req (ResponseInterceptor.envelope req now payload)
  unfold NamesEntity at hseen ⊢
  rw [hseen, stringId_envelope, Option.none_or]
  cases payload.stringId with
  | none => simp
  | some id => simp [eq_comm]

/-- Where the route has no `id`, no row names an entity. -/
theorem entityId_eq_none (handler : AuditedHandler) (hparams : req.params.map Prod.fst =
    handler.paramNames) (hid : "id" ∉ handler.paramNames) :
    (AuditService.row (AuditInterceptor.entry handler.metadata req
      (ResponseInterceptor.envelope req now payload))).entityId = none := by
  have hseen := row_names_seen handler.metadata req (ResponseInterceptor.envelope req now payload)
  have hlookup : req.params.lookup "id" = none := by
    simp only [← hparams, List.mem_map, not_exists, not_and] at hid
    exact List.lookup_eq_none_iff.mpr fun p hp => by simpa using Ne.symm (hid p hp)
  unfold NamesEntity at hseen
  rw [hseen, stringId_envelope, hlookup, Option.none_or]

/-! ### A created computer -/

/-- What `POST /computers` returns. -/
def createdComputer : JsValue :=
  .object [("label", .string "PC-01"), ("roomId", .string (Uuid.text 1)),
    ("status", .string "AVAILABLE"), ("specs", .null), ("isActive", .boolean true),
    ("deletedAt", .null), ("id", .string (Uuid.text 2))]

/-- The request that creates it. -/
def createRequest : Request where
  user := some ⟨Uuid.text 3, "manager@club.uz"⟩
  body := .object [("label", .string "PC-01"), ("roomId", .string (Uuid.text 1))]
  params := []
  ip := some "10.0.0.7"
  userAgent := none
  requestId := some "r-1"

/-- The row of the created computer names nothing. -/
theorem createComputer_not_named :
    (∃ row, (respond (fun _ => true) .createComputer createRequest .epoch
        (returns createdComputer) []).2 = [row] ∧ row.entityId = none ∧
      createdComputer.stringId = some (Uuid.text 2)) ∧
    ¬∀ (saves : AuditLog → Bool) (handler : AuditedHandler) (req : Request) (now : Instant)
      (payload : JsValue) (logs : List AuditLog) (row : AuditLog),
      (respond saves handler req now (returns payload) logs).2 = logs ++ [row] →
        NamesEntity req payload row := by
  have hrow : (respond (fun _ => true) .createComputer createRequest .epoch
      (returns createdComputer) []).2 = [_] :=
    congrArg Prod.snd (respond_ok .createComputer rfl)
  have hnone : (AuditService.row (AuditInterceptor.entry AuditedHandler.createComputer.metadata
      createRequest (ResponseInterceptor.envelope createRequest .epoch createdComputer))).entityId =
        none := entityId_eq_none .createComputer rfl (by simp [AuditedHandler.paramNames])
  have hid : createdComputer.stringId = some (Uuid.text 2) := rfl
  refine ⟨⟨_, hrow, hnone, hid⟩, fun h => ?_⟩
  have hnamed := h _ _ _ _ _ _ _ hrow
  rw [NamesEntity, hnone, hid] at hnamed
  simp at hnamed

end GameClub.Audit
