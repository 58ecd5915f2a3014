import GameClub.Common.Money
import GameClub.Lib.Table

/-! # The tables

The rows of the entities, one table each, keyed by the primary key. Money columns hold integers,
timestamps hold valid dates, and `deletedAt` is set by a soft delete: such a row stays in its table,
and a find does not return it. -/

namespace GameClub.Store

open GameClub.Lib GameClub.Common

inductive ComputerStatus
  | available
  | inUse
  | maintenance
  | offline
deriving DecidableEq

def ComputerStatus.text : ComputerStatus → String
  | .available => "AVAILABLE"
  | .inUse => "IN_USE"
  | .maintenance => "MAINTENANCE"
  | .offline => "OFFLINE"

inductive SessionType
  | fixedDuration
  | fixedEndTime
  | openSession
deriving DecidableEq

inductive SessionStatus
  | active
  | ended
  | cancelled
deriving DecidableEq

def SessionStatus.text : SessionStatus → String
  | .active => "ACTIVE"
  | .ended => "ENDED"
  | .cancelled => "CANCELLED"

inductive DebtTransactionType
  | debtAdd
  | debtPayment
  | debtCorrection
deriving DecidableEq

/-- A pricing zone; `pricePerHour` is in minor units. -/
structure Room where
  id : Uuid
  name : String
  description : Option String
  pricePerHour : ℤ
  isActive : Bool
  deletedAt : Option Instant
deriving DecidableEq

/-- A workstation; `specs` is the text of its `jsonb`. -/
structure Computer where
  id : Uuid
  label : String
  roomId : Uuid
  status : ComputerStatus
  specs : Option String
  isActive : Bool
  deletedAt : Option Instant
deriving DecidableEq

structure Customer where
  id : Uuid
  fullName : String
  phone : Option String
  note : Option String
  isBlocked : Bool
  deletedAt : Option Instant
deriving DecidableEq

/-- A play session on one computer. -/
structure Session where
  id : Uuid
  groupId : Option Uuid
  computerId : Uuid
  roomId : Uuid
  customerId : Option Uuid
  type : SessionType
  status : SessionStatus
  ratePerHour : ℤ
  startedAt : Instant
  plannedEndAt : Option Instant
  endedAt : Option Instant
  amountDue : ℤ
  amountPaid : ℤ
  startedBy : Option Uuid
  endedBy : Option Uuid
  notes : Option String
deriving DecidableEq

/-- An entry of the ledger; `signedAmount` is its effect on the balance. -/
structure DebtTransaction where
  id : Uuid
  customerId : Uuid
  type : DebtTransactionType
  signedAmount : ℤ
  sessionId : Option Uuid
  actorId : Option Uuid
  reason : Option String
deriving DecidableEq

/-- The database. -/
@[ext] structure Db where
  rooms : Table Room.id
  computers : Table Computer.id
  customers : Table Customer.id
  sessions : Table Session.id
  debtTransactions : Table DebtTransaction.id
deriving DecidableEq

namespace Db

/-- The database without rows. -/
def empty : Db := ⟨.empty, .empty, .empty, .empty, .empty⟩

/-- `findOne` of a room that is not soft-deleted. -/
def findRoom (db : Db) (id : Uuid) : Option Room :=
  (db.rooms.get? id).filter fun r => r.deletedAt.isNone

def findComputer (db : Db) (id : Uuid) : Option Computer :=
  (db.computers.get? id).filter fun c => c.deletedAt.isNone

def findCustomer (db : Db) (id : Uuid) : Option Customer :=
  (db.customers.get? id).filter fun c => c.deletedAt.isNone

/-- The rows of `uq_session_active_computer` at `computerId`. -/
def activeOn (db : Db) (computerId : Uuid) : List Session :=
  db.sessions.rows.filter fun s => s.computerId = computerId && s.status = .active

/-- The ledger of a customer. -/
def ledger (db : Db) (customerId : Uuid) : List DebtTransaction :=
  db.debtTransactions.rows.filter fun t => t.customerId = customerId

/-- `SUM(t.signed_amount)` over the ledger of a customer. -/
def balance (db : Db) (customerId : Uuid) : ℤ :=
  ((db.ledger customerId).map DebtTransaction.signedAmount).sum

theorem findComputer_eq_some {db : Db} {id : Uuid} {c : Computer} :
    db.findComputer id = some c ↔ db.computers.get? id = some c ∧ c.deletedAt = none := by
  simp [findComputer, Option.filter_eq_some_iff]

theorem findCustomer_eq_some {db : Db} {id : Uuid} {c : Customer} :
    db.findCustomer id = some c ↔ db.customers.get? id = some c ∧ c.deletedAt = none := by
  simp [findCustomer, Option.filter_eq_some_iff]

theorem findRoom_eq_some {db : Db} {id : Uuid} {r : Room} :
    db.findRoom id = some r ↔ db.rooms.get? id = some r ∧ r.deletedAt = none := by
  simp [findRoom, Option.filter_eq_some_iff]

theorem mem_activeOn {db : Db} {computerId : Uuid} {s : Session} :
    s ∈ db.activeOn computerId ↔
      s ∈ db.sessions.rows ∧ s.computerId = computerId ∧ s.status = .active := by
  simp [activeOn]

end Db

end GameClub.Store
