import GameClub.Debt.Transactions
import GameClub.Sessions.Pricing

/-! # The sessions

The transactions of the sessions service. The clock is read when a request arrives, and the ids of
new rows are generated; both are parameters here.

* `startOne_ok`, `extend_ok`, `endSession_ok`, `cancel_ok`: what each of them has checked and written
  when it succeeds.
* `startAll_preserves`: what the start of one session preserves, the start of a group preserves. -/

namespace GameClub.Sessions

open GameClub.Lib GameClub.Common GameClub.Store

structure ActorContext where
  actorId : Uuid

/-- A valid body of a start request. -/
structure StartSessionDto where
  computerIds : List UuidText
  type : SessionType
  customerId : Option UuidText
  durationMinutes : Option ℤ
  plannedEndAt : Option Instant
  notes : Option String
  arrayMinSize : 1 ≤ computerIds.length
  arrayUnique : (computerIds.map UuidText.text).Nodup
  durationRange : ∀ m, durationMinutes = some m → 1 ≤ m ∧ m ≤ 24 * 60
  notesLength : ∀ n, notes = some n → n.length ≤ 255

/-- The body that starts an open session on one computer. -/
def StartSessionDto.openOn (computerId : UuidText) : StartSessionDto :=
  ⟨[computerId], .openSession, none, none, none, none, by simp, by simp, by simp, noText_length⟩

/-- A valid body of an extend request. -/
structure ExtendSessionDto where
  addMinutes : Option ℤ
  newEndAt : Option Instant
  minutesRange : ∀ m, addMinutes = some m → 1 ≤ m ∧ m ≤ 24 * 60

theorem half_range (m : ℤ) (h : some 30 = some m) : 1 ≤ m ∧ m ≤ 24 * 60 := by
  cases h
  decide

/-- The body that adds half an hour. -/
def ExtendSessionDto.byHalf : ExtendSessionDto := ⟨some 30, none, half_range⟩

/-- A valid body of an end request. -/
structure EndSessionDto where
  amountPaid : Option ℤ
  notes : Option String
  amountMin : ∀ a, amountPaid = some a → 0 ≤ a
  notesLength : ∀ n, notes = some n → n.length ≤ 255

/-- The body without fields: everything is paid. -/
def EndSessionDto.inFull : EndSessionDto := ⟨none, none, by simp, noText_length⟩

theorem part_nonneg (a : ℤ) (h : some 5000 = some a) : 0 ≤ a := by
  cases h
  decide

/-- The body of a payment of 5000. -/
def EndSessionDto.inPart : EndSessionDto := ⟨some 5000, none, part_nonneg, noText_length⟩

/-! ### The transactions -/

def resolveCustomer (customerId : Option UuidText) : Txn (Option Customer) :=
  match customerId with
  | none => pure none
  | some id => do
    match ← findCustomer id.value with
    | none => raise (ResourceNotFoundException "Customer" id.text)
    | some customer =>
      if customer.isBlocked then
        raise (BusinessRuleException "CUSTOMER_BLOCKED"
          "This customer is blocked and cannot start sessions" [])
      else pure (some customer)

def lockActive (id : UuidText) : Txn Session := do
  match ← lockSession id.value with
  | none => raise (ResourceNotFoundException "Session" id.text)
  | some session =>
    if session.status = .active then pure session
    else
      raise (ConflictException "SESSION_NOT_ACTIVE"
        ("Session is " ++ session.status.text ++ " and cannot be modified") [])

def releaseComputer (computerId : Uuid) : Txn Unit := do
  match ← lockComputer computerId with
  | none => pure ()
  | some computer =>
    if computer.status = .inUse then updateComputerStatus computer.id .available else pure ()

/-- The column value of a date; the driver refuses an Invalid Date. -/
def dateColumn : Option JsDate → Except Thrown (Option Instant)
  | none => .ok none
  | some none => .error (.database .invalidDatetime)
  | some (some d) => .ok (some d)

/-- The row of a new session. -/
def newSession (dto : StartSessionDto) (ctx : ActorContext) (startedAt : Instant)
    (groupId : Option Uuid) (customer : Option Customer) (computer : Computer) (room : Room)
    (plannedEndAt : Option Instant) (plannedAmount : Money) (newId : Uuid) : Session where
  id := newId
  groupId := groupId
  computerId := computer.id
  roomId := room.id
  customerId := customer.map Customer.id
  type := dto.type
  status := .active
  ratePerHour := room.pricePerHour
  startedAt := startedAt
  plannedEndAt := plannedEndAt
  endedAt := none
  amountDue := plannedAmount.value
  amountPaid := 0
  startedBy := some ctx.actorId
  endedBy := none
  notes := dto.notes

/-- The start of the session on one computer. -/
def startOne (dto : StartSessionDto) (ctx : ActorContext) (startedAt : Instant)
    (groupId : Option Uuid) (customer : Option Customer) (computerId : UuidText) (newId : Uuid) :
    Txn Session := do
  match ← lockComputer computerId.value with
  | none => raise (ResourceNotFoundException "Computer" computerId.text)
  | some computer =>
    if computer.isActive = false ∨ computer.status ≠ .available then
      raise (ConflictException "COMPUTER_NOT_AVAILABLE"
        ("Computer " ++ computer.label ++ " is not available")
        [("computerId", .str computerId.text), ("status", .str computer.status.text)])
    else
      match (← findRoom computer.roomId).filter fun room => room.isActive with
      | none =>
        raise (BusinessRuleException "ROOM_INACTIVE" "The room for this computer is inactive" [])
      | some room =>
        let plan ← Pricing.plan dto.type room.pricePerHour startedAt
          ⟨dto.durationMinutes, dto.plannedEndAt⟩
        let plannedEndAt ← dateColumn plan.plannedEndAt
        let saved ← insertSession (newSession dto ctx startedAt groupId customer computer room
          plannedEndAt plan.plannedAmount newId)
        updateComputerStatus computer.id .inUse
        pure saved

/-- The loop of `start`: each computer with the id of its new session. -/
def startAll (dto : StartSessionDto) (ctx : ActorContext) (startedAt : Instant)
    (groupId : Option Uuid) (customer : Option Customer) :
    List (UuidText × Uuid) → Txn (List Session)
  | [] => pure []
  | (computerId, newId) :: rest => do
    let saved ← startOne dto ctx startedAt groupId customer computerId newId
    let results ← startAll dto ctx startedAt groupId customer rest
    pure (saved :: results)

/-- Starts one session, or an atomic group of sessions across several computers. -/
def start (dto : StartSessionDto) (ctx : ActorContext) (startedAt : Instant) (randomUUID : Uuid)
    (newIds : ℕ → Uuid) : Txn (List Session) := do
  let groupId := if dto.computerIds.length > 1 then some randomUUID else none
  let customer ← resolveCustomer dto.customerId
  startAll dto ctx startedAt groupId customer (dto.computerIds.mapIdx fun i id => (id, newIds i))

/-- Extends a fixed session and recomputes its locked charge. -/
def extend (id : UuidText) (dto : ExtendSessionDto) : Txn Session := do
  let session ← lockActive id
  let plan ← Pricing.extend session ⟨dto.addMinutes, dto.newEndAt⟩
  let plannedEndAt ← dateColumn plan.plannedEndAt
  updateSession { session with plannedEndAt, amountDue := plan.plannedAmount.value }

/-- The amount collected: what the request says, in full by default. -/
def amountPaid (dto : EndSessionDto) (due : Money) : Except Thrown Money :=
  match dto.amountPaid with
  | some amount => Money.fromMinor amount
  | none => .ok due

/-- The row of an ended session. -/
def endedSession (session : Session) (dto : EndSessionDto) (ctx : ActorContext) (endedAt : Instant)
    (due paid : Money) : Session :=
  { session with
    status := .ended
    endedAt := some endedAt
    amountDue := due.value
    amountPaid := paid.value
    endedBy := some ctx.actorId
    notes := (dto.notes.filter fun n => n ≠ "").or session.notes }

/-- The debt entry for what was not paid. -/
def shortfallEntry (session : Session) (ctx : ActorContext) (customerId : Uuid)
    (shortfall : Money) : Debt.LedgerEntryInput where
  customerId := customerId
  amount := shortfall.value
  sessionId := some session.id
  actorId := some ctx.actorId
  reason := some ("Unpaid balance for session " ++ Uuid.text session.id)

/-- The end of a session once the charge and the payment are known. -/
def settle (session : Session) (dto : EndSessionDto) (ctx : ActorContext) (endedAt : Instant)
    (newId : Uuid) (due paid : Money) : Txn (Session × Option DebtTransaction) := do
  if paid.greaterThan due then
    raise (BusinessRuleException "OVERPAYMENT"
      "Amount paid exceeds the amount due; give change instead"
      [("due", .num due.value), ("paid", .num paid.value)])
  else
    let shortfall ← due.subtract paid
    if shortfall.isPositive ∧ session.customerId = none then
      raise (BusinessRuleException "DEBT_REQUIRES_CUSTOMER"
        "Cannot leave an unpaid balance without an attached customer"
        [("due", .num due.value), ("paid", .num paid.value)])
    else
      let saved ← updateSession (endedSession session dto ctx endedAt due paid)
      match session.customerId.filter fun _ => shortfall.isPositive with
      | some customerId =>
        let debt ← Debt.addDebt (shortfallEntry session ctx customerId shortfall) newId
        releaseComputer session.computerId
        pure (saved, some debt)
      | none =>
        releaseComputer session.computerId
        pure (saved, none)

/-- Ends a session: finalises the charge, records payment, frees the computer, and pushes any
shortfall to the customer's debt ledger. -/
def endSession (id : UuidText) (dto : EndSessionDto) (ctx : ActorContext) (endedAt : Instant)
    (newId : Uuid) : Txn (Session × Option DebtTransaction) := do
  let session ← lockActive id
  let due ← Pricing.finalize session endedAt
  let paid ← amountPaid dto due
  settle session dto ctx endedAt newId due paid

/-- Cancels an active session with no charge. -/
def cancel (id : UuidText) (ctx : ActorContext) (now : Instant) : Txn Session := do
  let session ← lockActive id
  let saved ← updateSession
    { session with
      status := .cancelled
      endedAt := some now
      amountDue := 0
      amountPaid := 0
      endedBy := some ctx.actorId }
  releaseComputer session.computerId
  pure saved

/-! ### What succeeds -/

/-- The database after a session is saved. -/
def save (db : Db) (s : Session) : Db := { db with sessions := db.sessions.set s }

/-- The database after a session is inserted and its computer taken. -/
def opened (db : Db) (s : Session) : Db :=
  Db.setStatus { db with sessions := db.sessions.insert s } s.computerId .inUse

/-- The database after a computer is released. -/
def release (db : Db) (computerId : Uuid) : Db :=
  match db.findComputer computerId with
  | none => db
  | some computer => if computer.status = .inUse then db.setStatus computer.id .available else db

variable {index : Bool} {db db' : Db}

theorem resolveCustomer_ok {customerId : Option UuidText} {r : Option Customer} :
    (database index).eval (resolveCustomer customerId) db = .ok (r, db') ↔ db' = db ∧
      ((customerId = none ∧ r = none) ∨ ∃ id c, customerId = some id ∧ r = some c ∧
        db.findCustomer id.value = some c ∧ c.isBlocked = false) := by
  cases customerId with
  | none =>
    constructor
    · intro h
      cases h
      exact ⟨rfl, Or.inl ⟨rfl, rfl⟩⟩
    · rintro ⟨rfl, ⟨-, rfl⟩ | ⟨id, c, hid, -⟩⟩
      · rfl
      · cases hid
  | some id =>
    simp only [resolveCustomer, Sem.eval_bind_ok, findCustomer_ok]
    constructor
    · rintro ⟨found, db₁, ⟨rfl, rfl⟩, h⟩
      split at h
      · cases h
      · next customer hc =>
        split_ifs at h with hb
        · cases h
        · cases h
          exact ⟨rfl, Or.inr ⟨id, customer, rfl, rfl, hc, by simpa using hb⟩⟩
    · rintro ⟨rfl, ⟨hn, -⟩ | ⟨id', c, hid, rfl, hc, hb⟩⟩
      · cases hn
      · cases hid
        refine ⟨_, db', ⟨rfl, rfl⟩, ?_⟩
        simp [hc, hb]

theorem lockActive_ok {id : UuidText} {s : Session} :
    (database index).eval (lockActive id) db = .ok (s, db') ↔
      db.sessions.get? id.value = some s ∧ s.status = .active ∧ db' = db := by
  simp only [lockActive, Sem.eval_bind_ok, lockSession_ok]
  constructor
  · rintro ⟨found, db₁, ⟨rfl, rfl⟩, h⟩
    split at h
    · cases h
    · next session hs =>
      split_ifs at h with ha
      · cases h
        exact ⟨hs, ha, rfl⟩
      · cases h
  · rintro ⟨hs, ha, rfl⟩
    refine ⟨_, db', ⟨rfl, rfl⟩, ?_⟩
    simp [hs, ha]

theorem releaseComputer_ok {computerId : Uuid} {r : Unit} :
    (database index).eval (releaseComputer computerId) db = .ok (r, db') ↔
      db' = release db computerId := by
  simp only [releaseComputer, Sem.eval_bind_ok, lockComputer_ok]
  constructor
  · rintro ⟨found, db₁, ⟨rfl, rfl⟩, h⟩
    unfold release
    split at h
    · cases h; rfl
    · split_ifs at h ⊢
      · exact updateComputerStatus_ok.mp h
      · cases h; rfl
  · rintro rfl
    refine ⟨_, db, ⟨rfl, rfl⟩, ?_⟩
    unfold release
    cases hc : db.findComputer computerId with
    | none => rfl
    | some computer =>
      dsimp only
      split_ifs
      · exact updateComputerStatus_ok.mpr rfl
      · rfl

/-- A date is stored exactly when it is valid. -/
theorem dateColumn_ok {date : Option JsDate} {r : Option Instant} :
    dateColumn date = .ok r ↔ date = r.map some := by
  match date, r with
  | none, none => simp [dateColumn]
  | none, some d => simp [dateColumn]
  | some none, none => simp [dateColumn]
  | some none, some d => simp [dateColumn]
  | some (some d'), none => simp [dateColumn]
  | some (some d'), some d => simp [dateColumn]

/-- What `startOne` has found when it succeeds. -/
structure Startable (db : Db) (dto : StartSessionDto) (startedAt : Instant) (computerId : UuidText)
    (computer : Computer) (room : Room) (plannedEndAt : Option Instant) (amount : Money) : Prop where
  findComputer : db.findComputer computerId.value = some computer
  computerActive : computer.isActive = true
  available : computer.status = .available
  findRoom : db.findRoom computer.roomId = some room
  roomActive : room.isActive = true
  plan : ∃ p, Pricing.plan dto.type room.pricePerHour startedAt
    ⟨dto.durationMinutes, dto.plannedEndAt⟩ = .ok p ∧ p.plannedEndAt = plannedEndAt.map some ∧
    p.plannedAmount = amount

/-- **A start of one session** takes an available computer of an active room. -/
theorem startOne_ok {dto : StartSessionDto} {ctx : ActorContext} {startedAt : Instant}
    {groupId : Option Uuid} {customer : Option Customer} {computerId : UuidText} {newId : Uuid}
    {s : Session} :
    (database index).eval (startOne dto ctx startedAt groupId customer computerId newId) db =
        .ok (s, db') ↔
      ∃ computer room plannedEndAt amount,
        Startable db dto startedAt computerId computer room plannedEndAt amount ∧
        s = newSession dto ctx startedAt groupId customer computer room plannedEndAt amount newId ∧
        db.sessions.get? newId = none ∧ ¬ (index = true ∧ db.activeOn computer.id ≠ []) ∧
        (∀ c, customer = some c → db.customers.get? c.id ≠ none) ∧ db' = opened db s := by
  unfold startOne
  simp only [Sem.eval_bind_ok, lockComputer_ok]
  constructor
  · rintro ⟨found, _, ⟨rfl, rfl⟩, h⟩
    split at h
    · cases h
    · next computer hcomputer =>
      split_ifs at h with hbusy
      · cases h
      · obtain ⟨foundRoom, _, hfound, hroom⟩ := (Sem.eval_bind_ok _).mp h
        obtain ⟨rfl, rfl⟩ := findRoom_ok.mp hfound
        split at hroom
        · cases hroom
        · next room hr =>
          obtain ⟨p, _, hplan, hdated⟩ := (Sem.eval_bind_ok _).mp hroom
          obtain ⟨hp, rfl⟩ := (Sem.eval_lift_ok _).mp hplan
          obtain ⟨plannedEndAt, _, hcolumn, hsave⟩ := (Sem.eval_bind_ok _).mp hdated
          obtain ⟨hdate, rfl⟩ := (Sem.eval_lift_ok _).mp hcolumn
          obtain ⟨saved, _, hins, hset⟩ := (Sem.eval_bind_ok _).mp hsave
          obtain ⟨rfl, hid, hindex, -, hcust, rfl⟩ := insertSession_ok.mp hins
          obtain ⟨_, _, hstatus, hret⟩ := (Sem.eval_bind_ok _).mp hset
          rw [updateComputerStatus_ok] at hstatus
          cases hret
          obtain ⟨hroom, hract⟩ := Option.filter_eq_some_iff.mp hr
          push Not at hbusy
          refine ⟨computer, room, plannedEndAt, p.plannedAmount,
            ⟨hcomputer, by simpa using hbusy.1, hbusy.2, hroom, hract,
              p, hp, dateColumn_ok.mp hdate, rfl⟩, rfl, hid, ?_, ?_, hstatus⟩
          · rintro ⟨hi, hne⟩
            exact hindex ⟨hi, rfl, hne⟩
          · rintro c rfl
            exact hcust c.id rfl
  · rintro ⟨computer, room, plannedEndAt, amount, ⟨hcomputer, hact, havail, hroom, hract,
      p, hp, hdate, rfl⟩, rfl, hid, hindex, hcust, rfl⟩
    refine ⟨_, db, ⟨rfl, rfl⟩, ?_⟩
    rw [hcomputer]
    dsimp only
    rw [if_neg (by simp [hact, havail])]
    refine (Sem.eval_bind_ok _).mpr ⟨_, db, findRoom_ok.mpr ⟨rfl, rfl⟩, ?_⟩
    rw [hroom, Option.filter_some, if_pos hract]
    refine (Sem.eval_bind_ok _).mpr ⟨p, db, (Sem.eval_lift_ok _).mpr ⟨hp, rfl⟩, ?_⟩
    refine (Sem.eval_bind_ok _).mpr
      ⟨plannedEndAt, db, (Sem.eval_lift_ok _).mpr ⟨dateColumn_ok.mpr hdate, rfl⟩, ?_⟩
    have hrow := (Db.findComputer_eq_some.mp hcomputer).1
    have hkey : computer.id = computerId.value := Table.key_of_get? hrow
    refine (Sem.eval_bind_ok _).mpr ⟨_, _, insertSession_ok.mpr ⟨rfl, hid, ?_, ?_, ?_, rfl⟩, ?_⟩
    · rintro ⟨hi, -, hne⟩
      exact hindex ⟨hi, hne⟩
    · show db.computers.get? computer.id ≠ none
      rw [hkey, hrow]
      simp
    · intro c hc
      obtain ⟨c', rfl, rfl⟩ := Option.map_eq_some_iff.mp hc
      exact hcust c' rfl
    · exact (Sem.eval_bind_ok _).mpr ⟨(), _, updateComputerStatus_ok.mpr rfl, rfl⟩

/-- What the start of each session of a group preserves, by induction on the group. -/
theorem startAll_preserves_of_mem {dto : StartSessionDto} {ctx : ActorContext} {startedAt : Instant}
    {groupId : Option Uuid} {customer : Option Customer} (I : Db → Prop)
    {ids : List (UuidText × Uuid)} {results : List Session}
    (hone : ∀ computerId newId s db db', (computerId, newId) ∈ ids → I db → (database index).eval
      (startOne dto ctx startedAt groupId customer computerId newId) db = .ok (s, db') → I db')
    (h : I db)
    (hrun : (database index).eval (startAll dto ctx startedAt groupId customer ids) db =
      .ok (results, db')) : I db' := by
  induction ids generalizing db results with
  | nil => cases hrun; exact h
  | cons x rest ih =>
    obtain ⟨saved, db₁, hsaved, hrest⟩ := (Sem.eval_bind_ok _).mp hrun
    obtain ⟨results', db₂, hresults, hret⟩ := (Sem.eval_bind_ok _).mp hrest
    cases hret
    have hfirst : I db₁ := hone _ _ _ _ _ (List.mem_cons_self ..) h hsaved
    exact ih (fun computerId newId s d d' hmem => hone computerId newId s d d'
      (List.mem_cons_of_mem _ hmem)) hfirst hresults

/-- **What the start of one session preserves, the start of a group preserves.** -/
theorem startAll_preserves {dto : StartSessionDto} {ctx : ActorContext} {startedAt : Instant}
    {groupId : Option Uuid} {customer : Option Customer} (I : Db → Prop)
    (hone : ∀ computerId newId s db db', I db → (database index).eval
      (startOne dto ctx startedAt groupId customer computerId newId) db = .ok (s, db') → I db')
    {ids : List (UuidText × Uuid)} {results : List Session} (h : I db)
    (hrun : (database index).eval (startAll dto ctx startedAt groupId customer ids) db =
      .ok (results, db')) : I db' :=
  startAll_preserves_of_mem I (fun computerId newId s d d' _ => hone computerId newId s d d') h hrun

theorem start_ok {dto : StartSessionDto} {ctx : ActorContext} {startedAt : Instant}
    {randomUUID : Uuid} {newIds : ℕ → Uuid} {results : List Session}
    (h : (database index).eval (start dto ctx startedAt randomUUID newIds) db =
      .ok (results, db')) :
    ∃ groupId customer, (database index).eval (resolveCustomer dto.customerId) db =
        .ok (customer, db) ∧
      (database index).eval (startAll dto ctx startedAt groupId customer
        (dto.computerIds.mapIdx fun i id => (id, newIds i))) db = .ok (results, db') := by
  obtain ⟨customer, _, hcust, hall⟩ := (Sem.eval_bind_ok _).mp h
  obtain ⟨rfl, -⟩ := resolveCustomer_ok.mp hcust
  exact ⟨_, customer, hcust, hall⟩

/-- **An extension** saves the new plan of an active session. -/
theorem extend_ok {id : UuidText} {dto : ExtendSessionDto} {s : Session} :
    (database index).eval (extend id dto) db = .ok (s, db') ↔
      ∃ session p plannedEndAt, db.sessions.get? id.value = some session ∧
        session.status = .active ∧ Pricing.extend session ⟨dto.addMinutes, dto.newEndAt⟩ = .ok p ∧
        p.plannedEndAt = plannedEndAt.map some ∧
        s = { session with plannedEndAt, amountDue := p.plannedAmount.value } ∧ db' = save db s := by
  unfold extend
  simp only [Sem.eval_bind_ok, lockActive_ok, Sem.eval_lift_ok, dateColumn_ok, updateSession_ok]
  constructor
  · rintro ⟨session, _, ⟨hs, ha, rfl⟩, p, _, ⟨hp, rfl⟩, plannedEndAt, _, ⟨hd, rfl⟩, rfl, rfl⟩
    exact ⟨session, p, plannedEndAt, hs, ha, hp, hd, rfl, rfl⟩
  · rintro ⟨session, p, plannedEndAt, hs, ha, hp, hd, rfl, rfl⟩
    exact ⟨session, db, ⟨hs, ha, rfl⟩, p, db, ⟨hp, rfl⟩, plannedEndAt, db, ⟨hd, rfl⟩, rfl, rfl⟩

/-- **A cancellation** clears the charge of an active session and releases its computer. -/
theorem cancel_ok {id : UuidText} {ctx : ActorContext} {now : Instant} {s : Session} :
    (database index).eval (cancel id ctx now) db = .ok (s, db') ↔
      ∃ session, db.sessions.get? id.value = some session ∧ session.status = .active ∧
        s = { session with
          status := .cancelled
          endedAt := some now
          amountDue := 0
          amountPaid := 0
          endedBy := some ctx.actorId } ∧
        db' = release (save db s) session.computerId := by
  unfold cancel
  simp only [Sem.eval_bind_ok, lockActive_ok, updateSession_ok, releaseComputer_ok]
  constructor
  · rintro ⟨session, _, ⟨hs, ha, rfl⟩, saved, _, ⟨rfl, rfl⟩, _, _, rfl, h⟩
    cases h
    exact ⟨session, hs, ha, rfl, rfl⟩
  · rintro ⟨session, hs, ha, rfl, rfl⟩
    exact ⟨session, db, ⟨hs, ha, rfl⟩, _, _, ⟨rfl, rfl⟩, (), _, rfl, rfl⟩

theorem amountPaid_nonneg {dto : EndSessionDto} {due paid : Money} (hdue : 0 ≤ due.value)
    (h : amountPaid dto due = .ok paid) : 0 ≤ paid.value := by
  unfold amountPaid at h
  split at h
  · next amount ha => rw [fromMinor_ok.mp h]; exact dto.amountMin amount ha
  · cases h; exact hdue

/-- What is left to pay is a safe amount. -/
theorem shortfall_safe {dto : EndSessionDto} {due paid : Money} (h : amountPaid dto due = .ok paid)
    (hle : paid.value ≤ due.value) : |due.value - paid.value| ≤ Binary64.maxSafeInteger := by
  have hsafe := (abs_le.mp due.safe).2
  unfold amountPaid at h
  split at h
  · next amount ha =>
    have hpaid : 0 ≤ paid.value := by rw [fromMinor_ok.mp h]; exact dto.amountMin amount ha
    exact abs_le.mpr ⟨by linarith [abs_nonneg due.value, due.safe], by omega⟩
  · cases h
    simp [Binary64.maxSafeInteger]

/-- The entry an end books for a shortfall. -/
def shortfallRow (session : Session) (ctx : ActorContext) (customerId newId : Uuid)
    (due paid : Money) : DebtTransaction where
  id := newId
  customerId := customerId
  type := .debtAdd
  signedAmount := due.value - paid.value
  sessionId := some session.id
  actorId := some ctx.actorId
  reason := some ("Unpaid balance for session " ++ Uuid.text session.id)

/-- What `settle` does when it succeeds: nothing is left to pay, or the rest is booked on the
customer. -/
inductive Settles (db : Db) (session saved : Session) (ctx : ActorContext) (newId : Uuid)
    (due paid : Money) : Option DebtTransaction → Db → Prop
  | inFull (h : paid.value = due.value) : Settles db session saved ctx newId due paid none
      (release (save db saved) session.computerId)
  | booked {customerId : Uuid} (h : paid.value < due.value)
      (hc : session.customerId = some customerId) (hid : db.debtTransactions.get? newId = none)
      (hrow : db.customers.get? customerId ≠ none) :
      Settles db session saved ctx newId due paid
        (some (shortfallRow session ctx customerId newId due paid))
        (release (Debt.append (save db saved)
          (shortfallRow session ctx customerId newId due paid)) session.computerId)

theorem settle_ok {session : Session} {dto : EndSessionDto} {ctx : ActorContext}
    {endedAt : Instant} {newId : Uuid} {due paid : Money} {saved : Session}
    {debt : Option DebtTransaction} (hpaid : amountPaid dto due = .ok paid) :
    (database index).eval (settle session dto ctx endedAt newId due paid) db =
        .ok ((saved, debt), db') ↔
      saved = endedSession session dto ctx endedAt due paid ∧
        Settles db session saved ctx newId due paid debt db' := by
  unfold settle
  constructor
  · intro h
    split_ifs at h with hover
    · cases h
    · have hle : paid.value ≤ due.value := by simpa [Money.greaterThan] using hover
      obtain ⟨shortfall, _, hlift, hrest⟩ := (Sem.eval_bind_ok _).mp h
      obtain ⟨hsub, rfl⟩ := (Sem.eval_lift_ok _).mp hlift
      have hshort := subtract_ok.mp hsub
      split_ifs at hrest with hneed
      · cases hrest
      · obtain ⟨_, _, hsaved, hbook⟩ := (Sem.eval_bind_ok _).mp hrest
        obtain ⟨rfl, rfl⟩ := updateSession_ok.mp hsaved
        split at hbook
        · next customerId hfilter =>
          obtain ⟨hc, hpos⟩ := Option.filter_eq_some_iff.mp hfilter
          have hlt : paid.value < due.value := by simpa [Money.isPositive, hshort] using hpos
          simp only [Sem.eval_bind_ok, Debt.addDebt_ok, releaseComputer_ok] at hbook
          obtain ⟨_, _, ⟨magnitude, hbuilt, -, rfl, hid, hrow, rfl⟩, _, _, rfl, hret⟩ := hbook
          cases hret
          have hmag : magnitude.value = due.value - paid.value := by
            rw [← hshort]; exact fromMinor_ok.mp hbuilt
          have hrowEq : (⟨newId, customerId, .debtAdd, magnitude.value, some session.id,
              some ctx.actorId, some ("Unpaid balance for session " ++ Uuid.text session.id)⟩ :
              DebtTransaction) = shortfallRow session ctx customerId newId due paid := by
            rw [hmag]; rfl
          exact ⟨rfl, hrowEq ▸ .booked hlt hc hid hrow⟩
        · next hfilter =>
          simp only [Sem.eval_bind_ok, releaseComputer_ok] at hbook
          obtain ⟨_, _, rfl, hret⟩ := hbook
          cases hret
          refine ⟨rfl, .inFull (le_antisymm hle (not_lt.mp fun hlt => ?_))⟩
          have hpos : shortfall.isPositive = true := by simp [Money.isPositive, hshort, hlt]
          obtain ⟨c, hc⟩ := Option.ne_none_iff_exists'.mp fun hn => hneed ⟨hpos, hn⟩
          simp [hc, hpos] at hfilter
  · rintro ⟨rfl, hset⟩
    have hle : paid.value ≤ due.value := by
      cases hset with
      | inFull h => exact h.le
      | booked h => exact h.le
    have hsub : due.subtract paid = .ok ⟨_, shortfall_safe hpaid hle⟩ := subtract_ok.mpr rfl
    rw [if_neg (by simpa [Money.greaterThan] using hle)]
    refine (Sem.eval_bind_ok _).mpr ⟨_, db, (Sem.eval_lift_ok _).mpr ⟨hsub, rfl⟩, ?_⟩
    cases hset with
    | inFull h =>
      have hzero : Money.isPositive ⟨_, shortfall_safe hpaid hle⟩ = false := by
        simp [Money.isPositive, h]
      rw [if_neg (by simp [hzero])]
      refine (Sem.eval_bind_ok _).mpr ⟨_, _, updateSession_ok.mpr ⟨rfl, rfl⟩, ?_⟩
      have hnone : (session.customerId.filter fun _ =>
          Money.isPositive ⟨_, shortfall_safe hpaid hle⟩) = none := by
        simp [hzero]
      rw [hnone]
      exact (Sem.eval_bind_ok _).mpr ⟨(), _, releaseComputer_ok.mpr rfl, rfl⟩
    | booked h hc hid hrow =>
      have hpos : Money.isPositive ⟨_, shortfall_safe hpaid hle⟩ = true := by
        simp [Money.isPositive, h]
      rw [if_neg (by simp [hc])]
      refine (Sem.eval_bind_ok _).mpr ⟨_, _, updateSession_ok.mpr ⟨rfl, rfl⟩, ?_⟩
      simp only [hpos, hc, Option.filter_some, if_true]
      refine (Sem.eval_bind_ok _).mpr ⟨_, _, Debt.addDebt_ok.mpr
        ⟨_, fromMinor_value _, by simpa using h, rfl, hid, hrow, rfl⟩, ?_⟩
      exact (Sem.eval_bind_ok _).mpr ⟨(), _, releaseComputer_ok.mpr rfl, rfl⟩

/-- **An end** charges an active session, takes the payment, books what was not paid, and releases
the computer. -/
theorem endSession_ok {id : UuidText} {dto : EndSessionDto} {ctx : ActorContext} {endedAt : Instant}
    {newId : Uuid} {saved : Session} {debt : Option DebtTransaction} :
    (database index).eval (endSession id dto ctx endedAt newId) db = .ok ((saved, debt), db') ↔
      ∃ session due paid, db.sessions.get? id.value = some session ∧ session.status = .active ∧
        Pricing.finalize session endedAt = .ok due ∧ amountPaid dto due = .ok paid ∧
        saved = endedSession session dto ctx endedAt due paid ∧
        Settles db session saved ctx newId due paid debt db' := by
  unfold endSession
  simp only [Sem.eval_bind_ok, lockActive_ok, Sem.eval_lift_ok]
  constructor
  · rintro ⟨session, _, ⟨hs, ha, rfl⟩, due, _, ⟨hdue, rfl⟩, paid, _, ⟨hpaid, rfl⟩, h⟩
    exact ⟨session, due, paid, hs, ha, hdue, hpaid, (settle_ok hpaid).mp h⟩
  · rintro ⟨session, due, paid, hs, ha, hdue, hpaid, h⟩
    exact ⟨session, db, ⟨hs, ha, rfl⟩, due, db, ⟨hdue, rfl⟩, paid, db, ⟨hpaid, rfl⟩,
      (settle_ok hpaid).mpr h⟩

end GameClub.Sessions
