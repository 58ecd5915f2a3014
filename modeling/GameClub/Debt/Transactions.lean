import GameClub.Store.Statements

/-! # The ledger

The transactions of the debt service. The ids of new entries are generated by the database and are
parameters here.

* `addDebt_ok`, `recordPayment_ok`, `correct_ok`: what each of them has checked and written when it
  succeeds. -/

namespace GameClub.Debt

open GameClub.Lib GameClub.Common GameClub.Store

structure LedgerEntryInput where
  customerId : Uuid
  amount : Number
  sessionId : Option Uuid
  actorId : Option Uuid
  reason : Option String

/-- `getBalance` on the connection of the transaction. -/
def getBalance (customerId : Uuid) : Txn Money := do
  let sum ← sumDebt customerId
  Money.fromString sum

def insert (data : DebtTransaction) : Txn DebtTransaction := insertDebt data

/-- Append a `DEBT_ADD` entry, inside the transaction of the caller. -/
def addDebt (input : LedgerEntryInput) (newId : Uuid) : Txn DebtTransaction := do
  let magnitude ← Money.fromMinor input.amount
  if magnitude.isPositive = false then
    raise (BusinessRuleException "INVALID_DEBT_AMOUNT" "Debt amount must be positive" [])
  else
    insert
      { id := newId
        customerId := input.customerId
        type := .debtAdd
        signedAmount := magnitude.value
        sessionId := input.sessionId
        actorId := input.actorId
        reason := input.reason }

/-- Append a `DEBT_PAYMENT` entry, under a lock on the row of the customer. -/
def recordPayment (input : LedgerEntryInput) (newId : Uuid) : Txn DebtTransaction := do
  let magnitude ← Money.fromMinor input.amount
  if magnitude.isPositive = false then
    raise (BusinessRuleException "INVALID_PAYMENT_AMOUNT" "Payment amount must be positive" [])
  else
    match ← lockCustomer input.customerId with
    | none => raise (BusinessRuleException "CUSTOMER_NOT_FOUND" "Customer does not exist" [])
    | some _ =>
      let balance ← getBalance input.customerId
      if magnitude.greaterThan balance then
        raise (BusinessRuleException "OVERPAYMENT" "Payment exceeds the outstanding balance"
          [("balance", .num balance.value), ("attempted", .num magnitude.value)])
      else
        insert
          { id := newId
            customerId := input.customerId
            type := .debtPayment
            signedAmount := -magnitude.value
            sessionId := input.sessionId
            actorId := input.actorId
            reason := input.reason }

/-- Append a signed `DEBT_CORRECTION`; the insert is a transaction of its own. -/
def correct (customerId : Uuid) (signedAmount : Number) (actorId : Uuid) (reason : String)
    (newId : Uuid) : Txn DebtTransaction := do
  let value ← Money.fromMinor signedAmount
  if value.isZero then
    raise (BusinessRuleException "INVALID_CORRECTION" "Correction amount cannot be zero" [])
  else
    insert
      { id := newId
        customerId
        type := .debtCorrection
        signedAmount := value.value
        sessionId := none
        actorId := some actorId
        reason := some reason }

/-! ### What succeeds -/

variable {index : Bool}

/-- The database after the new entry `e`. -/
def append (db : Db) (e : DebtTransaction) : Db :=
  { db with debtTransactions := db.debtTransactions.insert e }

theorem insert_ok {data e : DebtTransaction} {db db' : Db} :
    (database index).eval (insert data) db = .ok (e, db') ↔
      e = data ∧ db.debtTransactions.get? data.id = none ∧
        db.customers.get? data.customerId ≠ none ∧ db' = append db data := insertDebt_ok

theorem getBalance_ok {customerId : Uuid} {balance : Money} {db db' : Db} :
    (database index).eval (getBalance customerId) db = .ok (balance, db') ↔
      balance.value = db.balance customerId ∧ db' = db := by
  unfold getBalance
  rw [Sem.eval_bind_ok]
  simp only [sumDebt_ok, Sem.eval_lift_ok]
  constructor
  · rintro ⟨sum, db₁, ⟨rfl, rfl⟩, hf, rfl⟩
    exact ⟨(fromString_decimal _).mp hf, rfl⟩
  · rintro ⟨hv, rfl⟩
    exact ⟨_, _, ⟨rfl, rfl⟩, (fromString_decimal _).mpr hv, rfl⟩

/-- **A debt is booked** exactly when it is a positive amount of an existing customer. -/
theorem addDebt_ok {input : LedgerEntryInput} {newId : Uuid} {e : DebtTransaction} {db db' : Db} :
    (database index).eval (addDebt input newId) db = .ok (e, db') ↔
      ∃ magnitude, Money.fromMinor input.amount = .ok magnitude ∧ 0 < magnitude.value ∧
        e = ⟨newId, input.customerId, .debtAdd, magnitude.value, input.sessionId, input.actorId,
          input.reason⟩ ∧ db.debtTransactions.get? newId = none ∧
        db.customers.get? input.customerId ≠ none ∧ db' = append db e := by
  unfold addDebt
  rw [Sem.eval_bind_ok]
  simp only [Sem.eval_lift_ok, Money.isPositive, decide_eq_false_iff_not]
  constructor
  · rintro ⟨magnitude, _, ⟨hm, rfl⟩, h⟩
    split_ifs at h with hpos
    · obtain ⟨rfl, hid, hc, rfl⟩ := insert_ok.mp h
      exact ⟨magnitude, hm, hpos, rfl, hid, hc, rfl⟩
    · cases h
  · rintro ⟨magnitude, hm, hpos, rfl, hid, hc, rfl⟩
    refine ⟨magnitude, db, ⟨hm, rfl⟩, ?_⟩
    rw [if_neg (not_not.mpr hpos)]
    exact insert_ok.mpr ⟨rfl, hid, hc, rfl⟩

/-- **A payment is booked** exactly when it is positive and at most the balance of a customer. -/
theorem recordPayment_ok {input : LedgerEntryInput} {newId : Uuid} {e : DebtTransaction}
    {db db' : Db} :
    (database index).eval (recordPayment input newId) db = .ok (e, db') ↔
      ∃ magnitude customer, Money.fromMinor input.amount = .ok magnitude ∧ 0 < magnitude.value ∧
        db.findCustomer input.customerId = some customer ∧
        |db.balance input.customerId| ≤ Lib.Binary64.maxSafeInteger ∧
        magnitude.value ≤ db.balance input.customerId ∧
        e = ⟨newId, input.customerId, .debtPayment, -magnitude.value, input.sessionId,
          input.actorId, input.reason⟩ ∧ db.debtTransactions.get? newId = none ∧
        db' = append db e := by
  unfold recordPayment
  rw [Sem.eval_bind_ok]
  simp only [Sem.eval_lift_ok, Money.isPositive, decide_eq_false_iff_not]
  constructor
  · rintro ⟨magnitude, _, ⟨hm, rfl⟩, h⟩
    split_ifs at h with hpos
    · obtain ⟨found, _, hfound, hfor⟩ := (Sem.eval_bind_ok (database index)).mp h
      obtain ⟨rfl, rfl⟩ := lockCustomer_ok.mp hfound
      split at hfor
      · cases hfor
      · next customer hcustomer =>
        obtain ⟨balance, _, hread, hguard⟩ := (Sem.eval_bind_ok (database index)).mp hfor
        obtain ⟨hb, rfl⟩ := getBalance_ok.mp hread
        split_ifs at hguard with hover
        · cases hguard
        · obtain ⟨rfl, hid, -, rfl⟩ := insert_ok.mp hguard
          have hle : magnitude.value ≤ balance.value := by simpa [Money.greaterThan] using hover
          exact ⟨magnitude, customer, hm, hpos, hcustomer, hb ▸ balance.safe, hb ▸ hle, rfl, hid,
            rfl⟩
    · cases h
  · rintro ⟨magnitude, customer, hm, hpos, hcustomer, hsafe, hle, rfl, hid, rfl⟩
    refine ⟨magnitude, db, ⟨hm, rfl⟩, ?_⟩
    rw [if_neg (not_not.mpr hpos)]
    refine (Sem.eval_bind_ok (database index)).mpr
      ⟨db.findCustomer input.customerId, db, lockCustomer_ok.mpr ⟨rfl, rfl⟩, ?_⟩
    rw [hcustomer]
    refine (Sem.eval_bind_ok (database index)).mpr ⟨⟨_, hsafe⟩, db, getBalance_ok.mpr ⟨rfl, rfl⟩, ?_⟩
    rw [if_neg (by simpa [Money.greaterThan] using hle)]
    have hrow := (Db.findCustomer_eq_some.mp hcustomer).1
    exact insert_ok.mpr ⟨rfl, hid, by simp [hrow], rfl⟩

/-- **A correction is booked** exactly when it is a nonzero amount of an existing customer. -/
theorem correct_ok {customerId : Uuid} {signedAmount : Number} {actorId : Uuid} {reason : String}
    {newId : Uuid} {e : DebtTransaction} {db db' : Db} :
    (database index).eval (correct customerId signedAmount actorId reason newId) db = .ok (e, db') ↔
      ∃ value, Money.fromMinor signedAmount = .ok value ∧ value.value ≠ 0 ∧
        e = ⟨newId, customerId, .debtCorrection, value.value, none, some actorId, some reason⟩ ∧
        db.debtTransactions.get? newId = none ∧ db.customers.get? customerId ≠ none ∧
        db' = append db e := by
  unfold correct
  rw [Sem.eval_bind_ok]
  simp only [Sem.eval_lift_ok, Money.isZero, beq_iff_eq]
  constructor
  · rintro ⟨value, _, ⟨hm, rfl⟩, h⟩
    split_ifs at h with hzero
    · cases h
    · obtain ⟨rfl, hid, hc, rfl⟩ := insert_ok.mp h
      exact ⟨value, hm, hzero, rfl, hid, hc, rfl⟩
  · rintro ⟨value, hm, hzero, rfl, hid, hc, rfl⟩
    refine ⟨value, db, ⟨hm, rfl⟩, ?_⟩
    rw [if_neg hzero]
    exact insert_ok.mpr ⟨rfl, hid, hc, rfl⟩

/-! ### The ledger after an entry -/

theorem balance_append {db : Db} {e : DebtTransaction} (h : db.debtTransactions.get? e.id = none)
    (c : Uuid) : (append db e).balance c =
      db.balance c + if e.customerId = c then e.signedAmount else 0 :=
  balance_insertDebt h c

theorem balance_append_self {db : Db} {e : DebtTransaction}
    (h : db.debtTransactions.get? e.id = none) :
    (append db e).balance e.customerId = db.balance e.customerId + e.signedAmount := by
  rw [balance_append h, if_pos rfl]

end GameClub.Debt
