import GameClub.Services.World

/-! # The debt and sessions services

Their calls: the transaction, then the event, for the ledger with the balance read again.

* `start_db`, `extend_db`, `endSession_db`, `cancel_db`, `recordPayment_db`, `correct_db`: what a call
  leaves in the database is what its transaction leaves. -/

namespace GameClub.Services

open GameClub.Lib GameClub.Common GameClub.Store GameClub.Sessions

/-! ### The debt service -/

/-- The payload of the events of the ledger. -/
def debtEvent (customerId : Uuid) (entry : DebtTransaction) (balance : Money) : DebtEvent where
  customerId := customerId
  transactionId := entry.id
  type := entry.type
  signedAmount := entry.signedAmount
  balance := balance.value

def emitAfterChange (customerId : Uuid) (event : DebtEvent → DomainEvent)
    (entry : DebtTransaction) : Service Unit := do
  let balance ← getBalance customerId
  emit (event (debtEvent customerId entry balance))

def recordPayment (input : Debt.LedgerEntryInput) (newId : Uuid) : Service DebtTransaction := do
  let entry ← transaction (Debt.recordPayment input newId)
  emitAfterChange input.customerId .debtUpdated entry
  pure entry

/-- Announce a debt change committed by another aggregate. -/
def announceDebtChange (customerId : Uuid) (entry : DebtTransaction) : Service Unit :=
  emitAfterChange customerId .debtCreated entry

def correct (customerId : Uuid) (signedAmount : Number) (actorId : Uuid) (reason : String)
    (newId : Uuid) : Service DebtTransaction := do
  let entry ← transaction (Debt.correct customerId signedAmount actorId reason newId)
  emitAfterChange customerId .debtUpdated entry
  pure entry

/-! ### The sessions service -/

def toEvent (session : Session) : SessionEvent where
  id := session.id
  groupId := session.groupId
  computerId := session.computerId
  customerId := session.customerId
  type := session.type
  status := session.status
  startedAt := session.startedAt
  plannedEndAt := session.plannedEndAt
  endedAt := session.endedAt
  amountDue := session.amountDue
  amountPaid := session.amountPaid

/-- One event for each session. -/
def emitStarted : List Session → Service Unit
  | [] => pure ()
  | session :: rest => do
    emit (.sessionStarted (toEvent session))
    emitStarted rest

def start (dto : StartSessionDto) (ctx : ActorContext) (startedAt : Instant) (randomUUID : Uuid)
    (newIds : ℕ → Uuid) : Service (List Session) := do
  let created ← transaction (Sessions.start dto ctx startedAt randomUUID newIds)
  emitStarted created
  pure created

def extend (id : UuidText) (dto : ExtendSessionDto) : Service Session := do
  let updated ← transaction (Sessions.extend id dto)
  emit (.sessionExtended (toEvent updated))
  pure updated

/-- The debt of an end is announced after its transaction has committed. -/
def announceDebtEntry (result : Session) (debtEntry : Option DebtTransaction) : Service Unit :=
  match debtEntry, result.customerId with
  | some debtEntry, some customerId => announceDebtChange customerId debtEntry
  | _, _ => pure ()

def endSession (id : UuidText) (dto : EndSessionDto) (ctx : ActorContext) (endedAt : Instant)
    (newId : Uuid) : Service Session := do
  let ended ← transaction (Sessions.endSession id dto ctx endedAt newId)
  emit (.sessionEnded (toEvent ended.1))
  announceDebtEntry ended.1 ended.2
  pure ended.1

def cancel (id : UuidText) (ctx : ActorContext) (now : Instant) : Service Session := do
  let result ← transaction (Sessions.cancel id ctx now)
  emit (.sessionEnded (toEvent result))
  pure result

theorem call_emitStarted (created : List Session) (w : World) :
    (emitStarted created).call w = (.ok (), { w with
      events := (created.map fun s => .sessionStarted (toEvent s)).reverse ++ w.events }) := by
  induction created generalizing w with
  | nil => rfl
  | cons s rest ih =>
    unfold emitStarted
    rw [Service.call_bind, call_emit]
    dsimp only
    rw [ih]
    simp

section

variable {dto : StartSessionDto} {ctx : ActorContext} {startedAt : Instant} {randomUUID : Uuid}
  {newIds : ℕ → Uuid} {w : World}

/-- A start that commits is announced, a session at a time. -/
theorem call_start_ok {results : List Session} {db' : Db}
    (h : store.eval (Sessions.start dto ctx startedAt randomUUID newIds) w.db =
      .ok (results, db')) :
    (start dto ctx startedAt randomUUID newIds).call w = (.ok results, ⟨db',
      (results.map fun s => .sessionStarted (toEvent s)).reverse ++ w.events⟩) := by
  unfold start
  rw [Service.call_bind, call_transaction_ok h]
  dsimp only
  rw [Service.call_bind, call_emitStarted]
  rfl

theorem call_start_error {e : Thrown}
    (h : store.eval (Sessions.start dto ctx startedAt randomUUID newIds) w.db = .error e) :
    (start dto ctx startedAt randomUUID newIds).call w = (.error e, w) := by
  unfold start
  rw [Service.call_bind, call_transaction_error h]

end

/-- An extension that commits is announced. -/
theorem call_extend_ok {id : UuidText} {dto : ExtendSessionDto} {w : World} {s : Session} {db' : Db}
    (h : store.eval (Sessions.extend id dto) w.db = .ok (s, db')) :
    (extend id dto).call w = (.ok s, ⟨db', .sessionExtended (toEvent s) :: w.events⟩) := by
  unfold extend
  rw [Service.call_bind, call_transaction_ok h]
  rfl

/-- A cancellation that commits is announced. -/
theorem call_cancel_ok {id : UuidText} {ctx : ActorContext} {now : Instant} {w : World}
    {s : Session} {db' : Db} (h : store.eval (Sessions.cancel id ctx now) w.db = .ok (s, db')) :
    (cancel id ctx now).call w = (.ok s, ⟨db', .sessionEnded (toEvent s) :: w.events⟩) := by
  unfold cancel
  rw [Service.call_bind, call_transaction_ok h]
  rfl

/-! ### What a call leaves in the database -/

section

variable (w : World)

theorem emitAfterChange_db (customerId : Uuid) (event : DebtEvent → DomainEvent)
    (entry : DebtTransaction) :
    ((emitAfterChange customerId event entry).call w).2.db = w.db := by
  unfold emitAfterChange
  rw [Service.call_bind]
  by_cases h : |w.db.balance customerId| ≤ Binary64.maxSafeInteger
  · rw [call_getBalance_ok h]
    rfl
  · obtain ⟨e, he⟩ := call_getBalance_error h
    rw [he]

/-- A balance out of range makes the announcement throw, and only that. -/
theorem emitAfterChange_rejects {customerId : Uuid} {event : DebtEvent → DomainEvent}
    {entry : DebtTransaction} {w : World} :
    (∃ e, ((emitAfterChange customerId event entry).call w).1 = .error e) ↔
      ¬ |w.db.balance customerId| ≤ Binary64.maxSafeInteger := by
  unfold emitAfterChange
  rw [Service.call_bind]
  by_cases h : |w.db.balance customerId| ≤ Binary64.maxSafeInteger
  · rw [call_getBalance_ok h]
    simp [h]
  · obtain ⟨e, he⟩ := call_getBalance_error h
    rw [he]
    simp [h]

/-- What follows a call that leaves the database alone. -/
theorem call_bind_db {α β : Type} {x : Service α} {f : α → Service β}
    (hx : (x.call w).2.db = w.db) (hf : ∀ a w', ((f a).call w').2.db = w'.db) :
    ((x >>= f).call w).2.db = w.db := by
  rw [Service.call_bind]
  rcases hxw : x.call w with ⟨r, w'⟩
  rw [hxw] at hx
  cases r with
  | error e => exact hx
  | ok a => exact (hf a w').trans hx

theorem emitStarted_db (created : List Session) :
    ((emitStarted created).call w).2.db = w.db := by
  induction created generalizing w with
  | nil => rfl
  | cons s rest ih => exact call_bind_db w rfl fun _ w' => ih w'

theorem recordPayment_db (input : Debt.LedgerEntryInput) (newId : Uuid) :
    ((recordPayment input newId).call w).2.db =
      (store.transaction (Debt.recordPayment input newId) w.db).2 :=
  call_transaction_db fun _ w' => call_bind_db w' (emitAfterChange_db w' _ _ _) fun _ _ => rfl

theorem correct_db (customerId : Uuid) (signedAmount : Number) (actorId : Uuid) (reason : String)
    (newId : Uuid) : ((correct customerId signedAmount actorId reason newId).call w).2.db =
      (store.transaction (Debt.correct customerId signedAmount actorId reason newId) w.db).2 :=
  call_transaction_db fun _ w' => call_bind_db w' (emitAfterChange_db w' _ _ _) fun _ _ => rfl

theorem start_db (dto : StartSessionDto) (ctx : ActorContext) (startedAt : Instant)
    (randomUUID : Uuid) (newIds : ℕ → Uuid) :
    ((start dto ctx startedAt randomUUID newIds).call w).2.db =
      (store.transaction (Sessions.start dto ctx startedAt randomUUID newIds) w.db).2 :=
  call_transaction_db fun _ w' => call_bind_db w' (emitStarted_db w' _) fun _ _ => rfl

theorem extend_db (id : UuidText) (dto : ExtendSessionDto) :
    ((extend id dto).call w).2.db = (store.transaction (Sessions.extend id dto) w.db).2 :=
  call_transaction_db fun _ _ => rfl

theorem endSession_db (id : UuidText) (dto : EndSessionDto) (ctx : ActorContext)
    (endedAt : Instant) (newId : Uuid) : ((endSession id dto ctx endedAt newId).call w).2.db =
      (store.transaction (Sessions.endSession id dto ctx endedAt newId) w.db).2 := by
  refine call_transaction_db fun r w' => call_bind_db w' rfl fun _ w'' => ?_
  refine call_bind_db w'' ?_ fun _ _ => rfl
  unfold announceDebtEntry
  split
  · exact emitAfterChange_db w'' _ _ _
  · rfl

theorem cancel_db (id : UuidText) (ctx : ActorContext) (now : Instant) :
    ((cancel id ctx now).call w).2.db = (store.transaction (Sessions.cancel id ctx now) w.db).2 :=
  call_transaction_db fun _ _ => rfl

end

end GameClub.Services
