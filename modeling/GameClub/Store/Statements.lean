import GameClub.Lib.RowLock
import GameClub.Store.Entities

/-! # Statements

The SQL statements the transactions of the services send, what each replies and writes, and the row
locks it takes. A statement that cannot be served is refused with a driver error. -/

namespace GameClub.Store

open GameClub.Lib GameClub.Lib.RowLock GameClub.Common

inductive Stmt
  /-- `findOne(Customer, id)` -/
  | findCustomer (id : Uuid)
  /-- `findOne(Room, id)` -/
  | findRoom (id : Uuid)
  /-- `findOne(Computer, id)` with `pessimistic_write` -/
  | lockComputer (id : Uuid)
  /-- `findOne(Session, id)` with `pessimistic_write` -/
  | lockSession (id : Uuid)
  /-- `findOne(Customer, id)` with `pessimistic_write` -/
  | lockCustomer (id : Uuid)
  /-- `SELECT COALESCE(SUM(t.signed_amount), 0) … WHERE t.customer_id = customerId` -/
  | sumDebt (customerId : Uuid)
  /-- `save` of a new session; the row carries the id the database generates for it -/
  | insertSession (row : Session)
  /-- `save` of a loaded session -/
  | updateSession (row : Session)
  /-- `save` of a loaded computer whose `status` was set -/
  | updateComputerStatus (id : Uuid) (status : ComputerStatus)
  /-- `save` of a new ledger entry -/
  | insertDebt (row : DebtTransaction)
deriving DecidableEq

/-- The type of the reply. -/
def Res : Stmt → Type
  | .findCustomer _ => Option Customer
  | .findRoom _ => Option Room
  | .lockComputer _ => Option Computer
  | .lockSession _ => Option Session
  | .lockCustomer _ => Option Customer
  | .sumDebt _ => String
  | .insertSession _ => Session
  | .updateSession _ => Session
  | .updateComputerStatus _ _ => Unit
  | .insertDebt _ => DebtTransaction

inductive Write
  | insertSession (row : Session)
  | updateSession (row : Session)
  | computerStatus (id : Uuid) (status : ComputerStatus)
  | insertDebt (row : DebtTransaction)
deriving DecidableEq

/-- The rows that can be locked. -/
inductive RowId
  | session (id : Uuid)
  | computer (id : Uuid)
  | customer (id : Uuid)
  | debt (id : Uuid)
deriving DecidableEq

/-- Sets the status of a computer. -/
def Db.setStatus (db : Db) (id : Uuid) (status : ComputerStatus) : Db :=
  match db.computers.get? id with
  | none => db
  | some c => { db with computers := db.computers.set { c with status } }

def applyWrite : Write → Db → Db
  | .insertSession row, db => { db with sessions := db.sessions.insert row }
  | .updateSession row, db => { db with sessions := db.sessions.set row }
  | .computerStatus id status, db => db.setStatus id status
  | .insertDebt row, db => { db with debtTransactions := db.debtTransactions.insert row }

/-- `INSERT INTO sessions`: the primary key, the partial unique index and the foreign keys. Without
`index` the partial unique index is not checked. -/
def execInsertSession (index : Bool) (row : Session) (db : Db) :
    Except Thrown (Session × List Write) :=
  if db.sessions.get? row.id ≠ none then
    .error (.database (.uniqueViolation "PK_3238ef96f18b355b671619111bc"))
  else if index && row.status = .active && db.activeOn row.computerId ≠ [] then
    .error (.database (.uniqueViolation "uq_session_active_computer"))
  else if db.computers.get? row.computerId = none then
    .error (.database (.foreignKeyViolation "FK_393a78591fbc3b9932ef314a2e6"))
  else if row.customerId.any fun c => db.customers.get? c = none then
    .error (.database (.foreignKeyViolation "FK_6a3108a0f6f738a6b0346e07f2d"))
  else .ok (row, [.insertSession row])

/-- `INSERT INTO debt_transactions`. -/
def execInsertDebt (row : DebtTransaction) (db : Db) :
    Except Thrown (DebtTransaction × List Write) :=
  if db.debtTransactions.get? row.id ≠ none then
    .error (.database (.uniqueViolation "PK_d11bec344ff2957536c9e4756da"))
  else if db.customers.get? row.customerId = none then
    .error (.database (.foreignKeyViolation "FK_1fcbc8757c0c47f8210dce5547e"))
  else .ok (row, [.insertDebt row])

def execStmt (index : Bool) : (s : Stmt) → Db → Except Thrown (Res s × List Write)
  | .findCustomer id, db => .ok (db.findCustomer id, [])
  | .findRoom id, db => .ok (db.findRoom id, [])
  | .lockComputer id, db => .ok (db.findComputer id, [])
  | .lockSession id, db => .ok (db.sessions.get? id, [])
  | .lockCustomer id, db => .ok (db.findCustomer id, [])
  | .sumDebt customerId, db => .ok (String.ofList (decimal (db.balance customerId)), [])
  | .insertSession row, db => execInsertSession index row db
  | .updateSession row, _ => .ok (row, [.updateSession row])
  | .updateComputerStatus id status, _ => .ok ((), [.computerStatus id status])
  | .insertDebt row, db => execInsertDebt row db

/-- The row locks of a statement. A `pessimistic_write` find locks the row it returns, an insert its
new row and, for each foreign key, the row it refers to. -/
def stmtLocks : Stmt → Db → List (Lock RowId)
  | .findCustomer _, _ | .findRoom _, _ | .sumDebt _, _ => []
  | .lockComputer id, db => if db.findComputer id = none then [] else [⟨.computer id, .update⟩]
  | .lockSession id, db => if db.sessions.get? id = none then [] else [⟨.session id, .update⟩]
  | .lockCustomer id, db => if db.findCustomer id = none then [] else [⟨.customer id, .update⟩]
  | .insertSession row, _ => ⟨.session row.id, .update⟩ :: ⟨.computer row.computerId, .keyShare⟩ ::
      row.customerId.toList.map fun c => ⟨.customer c, .keyShare⟩
  | .updateSession row, _ => [⟨.session row.id, .noKeyUpdate⟩]
  | .updateComputerStatus id _, _ => [⟨.computer id, .noKeyUpdate⟩]
  | .insertDebt row, _ => [⟨.debt row.id, .update⟩, ⟨.customer row.customerId, .keyShare⟩]

/-- The database, with or without its partial unique index. -/
def database (index : Bool) : Sem Res Thrown Db Write := ⟨execStmt index, applyWrite⟩

/-- The database of the services. -/
abbrev store : Sem Res Thrown Db Write := database true

/-- The same without the partial unique index: it refuses less. -/
abbrev laxStore : Sem Res Thrown Db Write := database false

/-- A program of one transaction. -/
abbrev Txn (α : Type) := Prog Res Thrown α

/-- `throw new …Exception`. -/
def raise {α : Type} (e : DomainException) : Txn α := .throw (.domain e)

def findCustomer (id : Uuid) : Txn (Option Customer) := Prog.stmt (Stmt.findCustomer id)

def findRoom (id : Uuid) : Txn (Option Room) := Prog.stmt (Stmt.findRoom id)

def lockComputer (id : Uuid) : Txn (Option Computer) := Prog.stmt (Stmt.lockComputer id)

def lockSession (id : Uuid) : Txn (Option Session) := Prog.stmt (Stmt.lockSession id)

def lockCustomer (id : Uuid) : Txn (Option Customer) := Prog.stmt (Stmt.lockCustomer id)

def sumDebt (customerId : Uuid) : Txn String := Prog.stmt (Stmt.sumDebt customerId)

def insertSession (row : Session) : Txn Session := Prog.stmt (Stmt.insertSession row)

def updateSession (row : Session) : Txn Session := Prog.stmt (Stmt.updateSession row)

def updateComputerStatus (id : Uuid) (status : ComputerStatus) : Txn Unit :=
  Prog.stmt (Stmt.updateComputerStatus id status)

def insertDebt (row : DebtTransaction) : Txn DebtTransaction := Prog.stmt (Stmt.insertDebt row)

/-! ### What succeeds -/

theorem execInsertSession_ok {index : Bool} {row : Session} {db : Db} {x : Session × List Write} :
    execInsertSession index row db = .ok x ↔ db.sessions.get? row.id = none ∧
      ¬ (index = true ∧ row.status = .active ∧ db.activeOn row.computerId ≠ []) ∧
      db.computers.get? row.computerId ≠ none ∧
      (∀ c, row.customerId = some c → db.customers.get? c ≠ none) ∧
      x = (row, [.insertSession row]) := by
  unfold execInsertSession
  split_ifs with h1 h2 h3 h4
  · simp [h1]
  · have h2' : index = true ∧ row.status = .active ∧ db.activeOn row.computerId ≠ [] := by
      simpa [and_assoc] using h2
    simp [h2']
  · simp [h3]
  · obtain ⟨c, hc, hnone⟩ : ∃ c, row.customerId = some c ∧ db.customers.get? c = none := by
      simpa [Option.any_eq_true] using h4
    simp only [false_iff]
    rintro ⟨-, -, -, h, -⟩
    exact h c hc hnone
  · have h4' : ∀ c, row.customerId = some c → db.customers.get? c ≠ none := by
      simpa [Option.any_eq_true] using h4
    have h2' : ¬ (index = true ∧ row.status = .active ∧ db.activeOn row.computerId ≠ []) := by
      simpa [and_assoc] using h2
    exact ⟨fun h => ⟨not_not.mp h1, h2', h3, h4', by cases h; rfl⟩, fun h => by rw [h.2.2.2.2]⟩

theorem execInsertDebt_ok {row : DebtTransaction} {db : Db} {x : DebtTransaction × List Write} :
    execInsertDebt row db = .ok x ↔ db.debtTransactions.get? row.id = none ∧
      db.customers.get? row.customerId ≠ none ∧ x = (row, [.insertDebt row]) := by
  unfold execInsertDebt
  split_ifs with h1 h2
  · simp [h1]
  · simp [h2]
  · exact ⟨fun h => ⟨not_not.mp h1, h2, by cases h; rfl⟩, fun h => by rw [h.2.2]⟩

/-- A statement that never fails. -/
theorem stmt_ok {index : Bool} (s : Stmt) (f : Db → Res s) (g : Db → List Write)
    (h : ∀ db, (database index).exec s db = .ok (f db, g db)) {db db' : Db} {r : Res s} :
    (database index).eval (Prog.stmt s : Txn (Res s)) db = .ok (r, db') ↔
      r = f db ∧ db' = (database index).applyAll (g db) db := by
  rw [Sem.eval_stmt_ok, h]
  constructor
  · rintro ⟨ws, hx, rfl⟩
    cases hx
    exact ⟨rfl, rfl⟩
  · rintro ⟨rfl, rfl⟩
    exact ⟨_, rfl, rfl⟩

section

variable {index : Bool} {db db' : Db}

theorem findCustomer_ok {id : Uuid} {r : Option Customer} :
    (database index).eval (findCustomer id) db = .ok (r, db') ↔ r = db.findCustomer id ∧ db' = db :=
  stmt_ok (Stmt.findCustomer id) (fun db => db.findCustomer id) (fun _ => []) fun _ => rfl

theorem findRoom_ok {id : Uuid} {r : Option Room} :
    (database index).eval (findRoom id) db = .ok (r, db') ↔ r = db.findRoom id ∧ db' = db :=
  stmt_ok (Stmt.findRoom id) (fun db => db.findRoom id) (fun _ => []) fun _ => rfl

theorem lockComputer_ok {id : Uuid} {r : Option Computer} :
    (database index).eval (lockComputer id) db = .ok (r, db') ↔ r = db.findComputer id ∧ db' = db :=
  stmt_ok (Stmt.lockComputer id) (fun db => db.findComputer id) (fun _ => []) fun _ => rfl

theorem lockSession_ok {id : Uuid} {r : Option Session} :
    (database index).eval (lockSession id) db = .ok (r, db') ↔ r = db.sessions.get? id ∧ db' = db :=
  stmt_ok (Stmt.lockSession id) (fun db => db.sessions.get? id) (fun _ => []) fun _ => rfl

theorem lockCustomer_ok {id : Uuid} {r : Option Customer} :
    (database index).eval (lockCustomer id) db = .ok (r, db') ↔ r = db.findCustomer id ∧ db' = db :=
  stmt_ok (Stmt.lockCustomer id) (fun db => db.findCustomer id) (fun _ => []) fun _ => rfl

theorem sumDebt_ok {customerId : Uuid} {r : String} :
    (database index).eval (sumDebt customerId) db = .ok (r, db') ↔
      r = String.ofList (decimal (db.balance customerId)) ∧ db' = db :=
  stmt_ok (Stmt.sumDebt customerId) (fun db => String.ofList (decimal (db.balance customerId)))
    (fun _ => []) fun _ => rfl

theorem updateSession_ok {row r : Session} :
    (database index).eval (updateSession row) db = .ok (r, db') ↔
      r = row ∧ db' = { db with sessions := db.sessions.set row } :=
  stmt_ok (Stmt.updateSession row) (fun _ => row) (fun _ => [.updateSession row]) fun _ => rfl

theorem updateComputerStatus_ok {id : Uuid} {status : ComputerStatus} {r : Unit} :
    (database index).eval (updateComputerStatus id status) db = .ok (r, db') ↔
      db' = db.setStatus id status := by
  refine (stmt_ok (Stmt.updateComputerStatus id status) (fun _ => ())
    (fun _ => [.computerStatus id status]) fun _ => rfl).trans ?_
  exact ⟨And.right, fun h => ⟨rfl, h⟩⟩

theorem insertSession_ok {row r : Session} :
    (database index).eval (insertSession row) db = .ok (r, db') ↔
      r = row ∧ db.sessions.get? row.id = none ∧
        ¬ (index = true ∧ row.status = .active ∧ db.activeOn row.computerId ≠ []) ∧
        db.computers.get? row.computerId ≠ none ∧
        (∀ c, row.customerId = some c → db.customers.get? c ≠ none) ∧
        db' = { db with sessions := db.sessions.insert row } := by
  refine (Sem.eval_stmt_ok (database index) (s := Stmt.insertSession row)).trans ?_
  constructor
  · rintro ⟨ws, hx, rfl⟩
    obtain ⟨hid, hindex, hcomputer, hcustomer, he⟩ := execInsertSession_ok.mp hx
    cases he
    exact ⟨rfl, hid, hindex, hcomputer, hcustomer, rfl⟩
  · rintro ⟨rfl, hid, hindex, hcomputer, hcustomer, rfl⟩
    exact ⟨_, execInsertSession_ok.mpr ⟨hid, hindex, hcomputer, hcustomer, rfl⟩, rfl⟩

theorem insertDebt_ok {row r : DebtTransaction} :
    (database index).eval (insertDebt row) db = .ok (r, db') ↔
      r = row ∧ db.debtTransactions.get? row.id = none ∧ db.customers.get? row.customerId ≠ none ∧
        db' = { db with debtTransactions := db.debtTransactions.insert row } := by
  refine (Sem.eval_stmt_ok (database index) (s := Stmt.insertDebt row)).trans ?_
  constructor
  · rintro ⟨ws, hx, rfl⟩
    obtain ⟨hid, hcustomer, he⟩ := execInsertDebt_ok.mp hx
    cases he
    exact ⟨rfl, hid, hcustomer, rfl⟩
  · rintro ⟨rfl, hid, hcustomer, rfl⟩
    exact ⟨_, execInsertDebt_ok.mpr ⟨hid, hcustomer, rfl⟩, rfl⟩

end

/-- **Without the index a statement that succeeds still succeeds.** -/
theorem exec_lax {s : Stmt} {db : Db} {x : Res s × List Write} (h : store.exec s db = .ok x) :
    laxStore.exec s db = .ok x := by
  cases s with
  | insertSession row =>
    obtain ⟨h1, -, h3⟩ := execInsertSession_ok.mp h
    exact execInsertSession_ok.mpr ⟨h1, by simp, h3⟩
  | _ => exact h

/-! ### What the writes leave alone -/

theorem setStatus_get? (db : Db) (id : Uuid) (status : ComputerStatus) (k : Uuid) :
    (db.setStatus id status).computers.get? k =
      if k = id then (db.computers.get? id).map fun c => { c with status }
      else db.computers.get? k := by
  unfold Db.setStatus
  cases hc : db.computers.get? id with
  | none =>
    by_cases hk : k = id
    · subst hk; simp [hc]
    · simp [hk]
  | some c =>
    have hid : c.id = id := Table.key_of_get? hc
    simp only [Option.map_some]
    rw [Table.get?_set]
    simp only [hid]
    by_cases hk : k = id
    · subst hk; simp [hc]
    · simp [hk]

/-- The rows of the computers: the one named has the status. -/
theorem setStatus_computers (db : Db) (id : Uuid) (status : ComputerStatus) :
    (db.setStatus id status).computers.rows =
      db.computers.rows.map fun c => if c.id = id then { c with status } else c := by
  unfold Db.setStatus
  rcases hc : db.computers.get? id with _ | row
  · have hnone : ∀ c ∈ db.computers.rows, c.id ≠ id := by
      intro c hmem heq
      rw [← heq, Table.get?_of_mem hmem] at hc
      cases hc
    have hsame : (db.computers.rows.map fun c => if c.id = id then { c with status } else c) =
        db.computers.rows.map fun c => c :=
      List.map_congr_left fun c hmem => if_neg (hnone c hmem)
    rw [hsame, List.map_id']
  · obtain ⟨hrow, hid⟩ := Table.mem_of_get? hc
    rw [Table.rows_set]
    refine List.map_congr_left fun c hmem => ?_
    by_cases heq : c.id = id
    · have hsame : c = row := Table.eq_of_key_eq hmem hrow (heq.trans hid.symm)
      rw [if_pos heq, if_pos (heq.trans hid.symm), hsame]
    · rw [if_neg heq, if_neg fun h => heq (h.trans hid)]

@[simp] theorem setStatus_rooms (db : Db) (id : Uuid) (status : ComputerStatus) :
    (db.setStatus id status).rooms = db.rooms := by unfold Db.setStatus; split <;> rfl

@[simp] theorem setStatus_customers (db : Db) (id : Uuid) (status : ComputerStatus) :
    (db.setStatus id status).customers = db.customers := by unfold Db.setStatus; split <;> rfl

@[simp] theorem setStatus_sessions (db : Db) (id : Uuid) (status : ComputerStatus) :
    (db.setStatus id status).sessions = db.sessions := by unfold Db.setStatus; split <;> rfl

@[simp] theorem setStatus_debtTransactions (db : Db) (id : Uuid) (status : ComputerStatus) :
    (db.setStatus id status).debtTransactions = db.debtTransactions := by
  unfold Db.setStatus; split <;> rfl

/-- The balance after an entry is appended. -/
theorem balance_insertDebt {db : Db} {row : DebtTransaction}
    (h : db.debtTransactions.get? row.id = none) (c : Uuid) :
    (applyWrite (.insertDebt row) db).balance c =
      db.balance c + if row.customerId = c then row.signedAmount else 0 := by
  simp only [Db.balance, Db.ledger, applyWrite, Table.rows_insert h, List.filter_append,
    List.map_append, List.sum_append]
  by_cases hc : row.customerId = c <;> simp [hc]

end GameClub.Store
