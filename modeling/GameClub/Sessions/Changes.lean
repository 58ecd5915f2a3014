import GameClub.Sessions.Transactions

/-! # What the transactions change

The transactions of the sessions and debt services seen from outside: each is a sequence of changes
of six kinds, every one with what has been checked before it. An invariant of the changes is an
invariant of the services.

* `start_changes`, `extend_change`, `endSession_change`, `cancel_change`, `recordPayment_change`,
  `correct_change`: a transaction that succeeds makes such changes. -/

namespace GameClub.Sessions

open GameClub.Lib GameClub.Common GameClub.Store

/-- **One change of the store** by the sessions and debt services. -/
inductive Change (db : Db) : Db → Prop
  | opened {dto : StartSessionDto} {ctx : ActorContext} {startedAt : Instant}
      {groupId : Option Uuid} {customer : Option Customer} {computerId : UuidText}
      {computer : Computer} {room : Room} {plannedEndAt : Option Instant} {amount : Money}
      {newId : Uuid}
      (h : Startable db dto startedAt computerId computer room plannedEndAt amount)
      (hid : db.sessions.get? newId = none) :
      Change db (opened db
        (newSession dto ctx startedAt groupId customer computer room plannedEndAt amount newId))
  | extended {id : Uuid} {session : Session} {params : ExtendParams} {p : PricingPlan}
      {plannedEndAt : Option Instant} (hs : db.sessions.get? id = some session)
      (ha : session.status = .active) (hp : Pricing.extend session params = .ok p)
      (hdate : p.plannedEndAt = plannedEndAt.map some) :
      Change db (save db { session with plannedEndAt, amountDue := p.plannedAmount.value })
  | ended {id : Uuid} {dto : EndSessionDto} {ctx : ActorContext} {endedAt : Instant} {newId : Uuid}
      {session : Session} {due paid : Money} {debt : Option DebtTransaction} {db' : Db}
      (hs : db.sessions.get? id = some session) (ha : session.status = .active)
      (hdue : Pricing.finalize session endedAt = .ok due) (hpaid : amountPaid dto due = .ok paid)
      (h : Settles db session (endedSession session dto ctx endedAt due paid) ctx newId due paid
        debt db') : Change db db'
  | cancelled {id : Uuid} {ctx : ActorContext} {now : Instant} {session : Session}
      (hs : db.sessions.get? id = some session) (ha : session.status = .active) :
      Change db (release (save db
        { session with
          status := .cancelled
          endedAt := some now
          amountDue := 0
          amountPaid := 0
          endedBy := some ctx.actorId }) session.computerId)
  | paid {e : DebtTransaction} (ht : e.type = .debtPayment) (hneg : e.signedAmount < 0)
      (hle : -e.signedAmount ≤ db.balance e.customerId)
      (hid : db.debtTransactions.get? e.id = none) : Change db (Debt.append db e)
  | corrected {e : DebtTransaction} (ht : e.type = .debtCorrection)
      (hid : db.debtTransactions.get? e.id = none) : Change db (Debt.append db e)

/-- **What every change keeps, a sequence of changes keeps.** -/
theorem changes_preserve (I : Db → Prop) (hI : ∀ {db db'}, Change db db' → I db → I db') {db db' : Db}
    (hc : Relation.ReflTransGen Change db db') (h : I db) : I db' := by
  induction hc with
  | refl => exact h
  | tail _ hc ih => exact hI hc ih

variable {index : Bool} {db db' : Db}

theorem startOne_change {dto : StartSessionDto} {ctx : ActorContext} {startedAt : Instant}
    {groupId : Option Uuid} {customer : Option Customer} {computerId : UuidText} {newId : Uuid}
    {s : Session} (h : (database index).eval
      (startOne dto ctx startedAt groupId customer computerId newId) db = .ok (s, db')) :
    Change db db' := by
  obtain ⟨computer, room, plannedEndAt, amount, hstart, rfl, hid, -, -, rfl⟩ := startOne_ok.mp h
  exact .opened hstart hid

/-- A start makes one change for each computer. -/
theorem start_changes {dto : StartSessionDto} {ctx : ActorContext} {startedAt : Instant}
    {randomUUID : Uuid} {newIds : ℕ → Uuid} {results : List Session}
    (h : (database index).eval (start dto ctx startedAt randomUUID newIds) db =
      .ok (results, db')) : Relation.ReflTransGen Change db db' := by
  obtain ⟨groupId, customer, -, hall⟩ := start_ok h
  exact startAll_preserves (Relation.ReflTransGen Change db)
    (fun _ _ _ _ _ hdb hone => hdb.tail (startOne_change hone)) .refl hall

/-- A start leaves the ledger alone. -/
theorem start_ledger {dto : StartSessionDto} {ctx : ActorContext} {startedAt : Instant}
    {randomUUID : Uuid} {newIds : ℕ → Uuid} {results : List Session}
    (h : (database index).eval (start dto ctx startedAt randomUUID newIds) db =
      .ok (results, db')) : db'.debtTransactions = db.debtTransactions := by
  obtain ⟨groupId, customer, -, hall⟩ := start_ok h
  refine startAll_preserves (fun d => d.debtTransactions = db.debtTransactions)
    (fun _ _ _ d d' hd hone => ?_) rfl hall
  obtain ⟨computer, room, plannedEndAt, amount, -, -, -, -, -, rfl⟩ := startOne_ok.mp hone
  simpa [opened] using hd

theorem extend_change {id : UuidText} {dto : ExtendSessionDto} {s : Session}
    (h : (database index).eval (extend id dto) db = .ok (s, db')) : Change db db' := by
  obtain ⟨session, p, plannedEndAt, hs, ha, hp, hdate, rfl, rfl⟩ := extend_ok.mp h
  exact .extended hs ha hp hdate

theorem endSession_change {id : UuidText} {dto : EndSessionDto} {ctx : ActorContext}
    {endedAt : Instant} {newId : Uuid} {saved : Session} {debt : Option DebtTransaction}
    (h : (database index).eval (endSession id dto ctx endedAt newId) db =
      .ok ((saved, debt), db')) : Change db db' := by
  obtain ⟨session, due, paid, hs, ha, hdue, hpaid, rfl, hset⟩ := endSession_ok.mp h
  exact .ended hs ha hdue hpaid hset

theorem cancel_change {id : UuidText} {ctx : ActorContext} {now : Instant} {s : Session}
    (h : (database index).eval (cancel id ctx now) db = .ok (s, db')) : Change db db' := by
  obtain ⟨session, hs, ha, rfl, rfl⟩ := cancel_ok.mp h
  exact .cancelled hs ha

theorem recordPayment_change {input : Debt.LedgerEntryInput} {newId : Uuid} {e : DebtTransaction}
    (h : (database index).eval (Debt.recordPayment input newId) db = .ok (e, db')) :
    Change db db' := by
  obtain ⟨magnitude, customer, -, hpos, -, -, hle, rfl, hid, rfl⟩ := Debt.recordPayment_ok.mp h
  exact .paid rfl (by simpa using hpos) (by simpa using hle) hid

theorem correct_change {customerId : Uuid} {signedAmount : Number} {actorId : Uuid}
    {reason : String} {newId : Uuid} {e : DebtTransaction}
    (h : (database index).eval (Debt.correct customerId signedAmount actorId reason newId) db =
      .ok (e, db')) : Change db db' := by
  obtain ⟨value, -, -, rfl, hid, -, rfl⟩ := Debt.correct_ok.mp h
  exact .corrected rfl hid

/-! ### What a change leaves alone -/

@[simp] theorem release_sessions (db : Db) (id : Uuid) : (release db id).sessions = db.sessions := by
  unfold release
  split
  · rfl
  · split_ifs <;> simp

@[simp] theorem release_debtTransactions (db : Db) (id : Uuid) :
    (release db id).debtTransactions = db.debtTransactions := by
  unfold release
  split
  · rfl
  · split_ifs <;> simp

@[simp] theorem release_customers (db : Db) (id : Uuid) :
    (release db id).customers = db.customers := by
  unfold release
  split
  · rfl
  · split_ifs <;> simp

theorem balance_release (db : Db) (id c : Uuid) : (release db id).balance c = db.balance c := by
  simp [Db.balance, Db.ledger]

@[simp] theorem opened_sessions (db : Db) (s : Session) :
    (opened db s).sessions = db.sessions.insert s := by simp [opened]

@[simp] theorem opened_debtTransactions (db : Db) (s : Session) :
    (opened db s).debtTransactions = db.debtTransactions := by simp [opened]

/-- The sessions after an end. -/
theorem Settles.sessions {session saved : Session} {ctx : ActorContext} {newId : Uuid}
    {due paid : Money} {debt : Option DebtTransaction}
    (h : Settles db session saved ctx newId due paid debt db') :
    db'.sessions = db.sessions.set saved := by
  cases h with
  | inFull heq => exact release_sessions _ _
  | booked hlt hc hid hrow => exact release_sessions _ _

/-- The ledger after an end. -/
theorem Settles.ledger {session saved : Session} {ctx : ActorContext} {newId : Uuid}
    {due paid : Money} {debt : Option DebtTransaction}
    (h : Settles db session saved ctx newId due paid debt db') :
    db'.debtTransactions = db.debtTransactions ∨ ∃ customerId, paid.value < due.value ∧
      db.debtTransactions.get? newId = none ∧ db'.debtTransactions =
        db.debtTransactions.insert (shortfallRow session ctx customerId newId due paid) := by
  cases h with
  | inFull heq => exact Or.inl (release_debtTransactions _ _)
  | booked hlt hc hid hrow => exact Or.inr ⟨_, hlt, hid, release_debtTransactions _ _⟩

/-- **No change touches a customer.** -/
theorem Change.customers (h : Change db db') : db'.customers = db.customers := by
  cases h with
  | opened hstart hid => simp [Sessions.opened]
  | extended hs ha hp hdate => rfl
  | ended hs ha hdue hpaid hset => cases hset <;> simp [save, Debt.append]
  | cancelled hs ha => simp [save]
  | paid ht hneg hle hid => rfl
  | corrected ht hid => rfl

@[simp] theorem release_rooms (db : Db) (id : Uuid) : (release db id).rooms = db.rooms := by
  unfold release
  split
  · rfl
  · split_ifs <;> simp

/-- **No change touches a room.** -/
theorem Change.rooms (h : Change db db') : db'.rooms = db.rooms := by
  cases h with
  | opened hstart hid => simp [Sessions.opened]
  | extended hs ha hp hdate => rfl
  | ended hs ha hdue hpaid hset => cases hset <;> simp [save, Debt.append]
  | cancelled hs ha => simp [save]
  | paid ht hneg hle hid => rfl
  | corrected ht hid => rfl

/-- The sessions after one is saved. -/
theorem mem_save {db : Db} {old s t : Session} (h : db.sessions.get? s.id = some old) :
    t ∈ (save db s).sessions.rows ↔ t = s ∨ (t ∈ db.sessions.rows ∧ t.id ≠ s.id) :=
  Table.mem_set (by rw [h]; simp)

end GameClub.Sessions
