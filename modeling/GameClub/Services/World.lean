import GameClub.Sessions.Changes

/-! # Services

A service call runs on the database and the bus of events. It runs transactions, reads committed
rows, emits events, and throws to its caller; what was committed before it throws stays committed.

* `Service`: these calls, and `call_bind` how they go on one after another.
* `transaction`, `getBalance`, `emit`: what they are made of. -/

namespace GameClub.Services

open GameClub.Lib GameClub.Common GameClub.Store

/-! ### Events -/

structure SessionEvent where
  id : Uuid
  groupId : Option Uuid
  computerId : Uuid
  customerId : Option Uuid
  type : SessionType
  status : SessionStatus
  startedAt : Instant
  plannedEndAt : Option Instant
  endedAt : Option Instant
  amountDue : ℤ
  amountPaid : ℤ
deriving DecidableEq

structure DebtEvent where
  customerId : Uuid
  transactionId : Uuid
  type : DebtTransactionType
  signedAmount : ℤ
  balance : ℤ
deriving DecidableEq

/-- The properties of an updated entity may be null or undefined. -/
structure ComputerEvent where
  id : Uuid
  label : Option String
  roomId : Option Uuid
  status : Option ComputerStatus
deriving DecidableEq

/-- A `DomainEvent` that the services emit, with its payload. `analytics.updated` is emitted by a
listener of some of these. -/
inductive DomainEvent
  | computerCreated (payload : ComputerEvent)
  | computerUpdated (payload : ComputerEvent)
  | sessionStarted (payload : SessionEvent)
  | sessionExtended (payload : SessionEvent)
  | sessionEnded (payload : SessionEvent)
  | debtCreated (payload : DebtEvent)
  | debtUpdated (payload : DebtEvent)
deriving DecidableEq

/-! ### Calls -/

/-- The committed database and the events emitted so far, the last one first. -/
structure World where
  db : Db
  events : List DomainEvent

/-- A service call. -/
def Service (α : Type) : Type := World → Except Thrown α × World

namespace Service

variable {α β : Type}

/-- `x`, then `f` on its result; a call that throws ends there. -/
def bind (x : Service α) (f : α → Service β) : Service β := fun w =>
  match x w with
  | (.ok a, w') => f a w'
  | (.error e, w') => (.error e, w')

instance : Monad Service where
  pure a := fun w => (.ok a, w)
  bind := bind

instance : MonadLift (Except Thrown) Service where
  monadLift x := fun w => (x, w)

/-- The outcome of the call on `w`. -/
def call (x : Service α) (w : World) : Except Thrown α × World := x w

theorem call_bind (x : Service α) (f : α → Service β) (w : World) : (x >>= f).call w =
    match x.call w with
    | (.ok a, w') => (f a).call w'
    | (.error e, w') => (.error e, w') := rfl

@[simp] theorem call_pure (a : α) (w : World) : (pure a : Service α).call w = (.ok a, w) := rfl

/-- The call throws. -/
def Rejects (x : Service α) (w : World) : Prop := ∃ e, (x.call w).1 = .error e

end Service

/-- What is read of the committed rows, or thrown. -/
def read {α : Type} (f : Db → Except Thrown α) : Service α := fun w => (f w.db, w)

/-- `dataSource.transaction`. -/
def transaction {α : Type} (p : Txn α) : Service α := fun w =>
  let (r, db) := store.transaction p w.db
  (r, { w with db })

/-- `getBalance` outside of a transaction. -/
def getBalance (customerId : Uuid) : Service Money := fun w =>
  (Money.fromString (String.ofList (decimal (w.db.balance customerId))), w)

/-- `events.emit`. -/
def emit (event : DomainEvent) : Service Unit := fun w =>
  (.ok (), { w with events := event :: w.events })

variable {α : Type}

theorem call_transaction_ok {p : Txn α} {w : World} {a : α} {db' : Db}
    (h : store.eval p w.db = .ok (a, db')) :
    (transaction p).call w = (.ok a, { w with db := db' }) := by
  simp only [Service.call, transaction, Sem.transaction_ok _ h]

theorem call_transaction_error {p : Txn α} {w : World} {e : Thrown}
    (h : store.eval p w.db = .error e) : (transaction p).call w = (.error e, w) := by
  simp only [Service.call, transaction, Sem.transaction_error _ h]

@[simp] theorem call_read (f : Db → Except Thrown α) (w : World) :
    (read f).call w = (f w.db, w) := rfl

@[simp] theorem call_emit (event : DomainEvent) (w : World) :
    (emit event).call w = (.ok (), { w with events := event :: w.events }) := rfl

/-- A balance in range is read. -/
theorem call_getBalance_ok {customerId : Uuid} {w : World}
    (h : |w.db.balance customerId| ≤ Binary64.maxSafeInteger) :
    (getBalance customerId).call w = (.ok ⟨_, h⟩, w) := by
  simp only [Service.call, getBalance, fromString_decimal_ok h]

/-- A balance out of range is refused. -/
theorem call_getBalance_error {customerId : Uuid} {w : World}
    (h : ¬ |w.db.balance customerId| ≤ Binary64.maxSafeInteger) :
    ∃ e, (getBalance customerId).call w = (.error e, w) := by
  obtain ⟨e, he⟩ := fromString_decimal_error h
  exact ⟨e, by simp only [Service.call, getBalance, he]⟩

/-- A transaction and something that leaves the database alone. -/
theorem call_transaction_db {β : Type} {p : Txn α} {f : α → Service β} {w : World}
    (hf : ∀ a w', ((f a).call w').2.db = w'.db) :
    ((transaction p >>= f).call w).2.db = (store.transaction p w.db).2 := by
  rw [Service.call_bind]
  cases he : store.eval p w.db with
  | error e => rw [call_transaction_error he, Sem.transaction_error _ he]
  | ok x =>
    rw [call_transaction_ok he, Sem.transaction_ok _ he]
    exact hf _ _

end GameClub.Services
