import GameClub.Services.Customers
import GameClub.Services.Sessions
import GameClub.Debt.Overpayment

/-! # Paying a debt back

A payment is refused when the balance cannot be read or its customer is not found. A call that is
accepted has read the balance it leaves, and customers are removed softly, so that every entry of the
ledger keeps its customer row.

* `accepted_payable`: accepted calls keep the balances readable.
* `payment_call`: what becomes of a payment of at most the balance.
* `debt_repayable`: it is accepted unless the customer was removed, and then it is refused. -/

namespace GameClub.Services

open GameClub.Lib GameClub.Common GameClub.Store GameClub.Sessions

/-! ### Accepted calls -/

/-- `x` is accepted on `w` and leaves `w'`. -/
def Accepts {α : Type} (x : Service α) (w w' : World) : Prop := ∃ a, x.call w = (.ok a, w')

/-- An accepted call of the customers, sessions or debt service. -/
inductive Accepted (w w' : World) : Prop
  | createCustomer {dto : CreateCustomerDto} {newId : Uuid}
      (h : Accepts (Customers.create dto newId) w w')
  | updateCustomer {id : UuidText} {dto : UpdateCustomerDto}
      (h : Accepts (Customers.update id dto) w w')
  | removeCustomer {id : UuidText} {now : Instant} (h : Accepts (Customers.remove id now) w w')
  | start {dto : StartSessionDto} {ctx : ActorContext} {startedAt : Instant} {randomUUID : Uuid}
      {newIds : ℕ → Uuid} (h : Accepts (start dto ctx startedAt randomUUID newIds) w w')
  | extend {id : UuidText} {dto : ExtendSessionDto} (h : Accepts (extend id dto) w w')
  | endSession {id : UuidText} {dto : EndSessionDto} {ctx : ActorContext} {endedAt : Instant}
      {newId : Uuid} (h : Accepts (endSession id dto ctx endedAt newId) w w')
  | cancel {id : UuidText} {ctx : ActorContext} {now : Instant} (h : Accepts (cancel id ctx now) w w')
  | recordPayment {input : Debt.LedgerEntryInput} {newId : Uuid}
      (h : Accepts (recordPayment input newId) w w')
  | correct {customerId : Uuid} {signedAmount : Number} {actorId : Uuid} {reason : String}
      {newId : Uuid} (h : Accepts (correct customerId signedAmount actorId reason newId) w w')

/-- Every balance can be read, and every entry of the ledger has its customer. -/
structure Payable (db : Db) : Prop where
  readable : ∀ c, |db.balance c| ≤ Binary64.maxSafeInteger
  owned : ∀ e ∈ db.debtTransactions.rows, db.customers.get? e.customerId ≠ none

theorem payable_of_noLedger {db : Db} (h : db.debtTransactions = .empty) : Payable db where
  readable c := by
    have hzero : db.balance c = 0 := by
      unfold Db.balance Db.ledger
      rw [h]
      rfl
    rw [hzero]
    decide
  owned e he := by
    rw [h] at he
    cases he

/-- A row that is written does not go. -/
theorem get?_set_ne_none {t : Table Customer.id} {row : Customer} {c : Uuid} (h : t.get? c ≠ none) :
    (t.set row).get? c ≠ none := by
  rcases eq_or_ne c row.id with rfl | hne
  · rw [Table.get?_set_self h]
    simp
  · rw [Table.get?_set_ne hne]
    exact h

/-- The ledger stays as it is and no customer row goes. -/
theorem Payable.congr {db db' : Db} (h : Payable db)
    (hledger : db'.debtTransactions = db.debtTransactions)
    (hrows : ∀ c, db.customers.get? c ≠ none → db'.customers.get? c ≠ none) : Payable db' where
  readable c := by
    rw [Debt.balance_congr hledger]
    exact h.readable c
  owned e he := by
    rw [hledger] at he
    exact hrows _ (h.owned e he)

/-- An entry is appended, and the balance it leaves is read. -/
theorem Payable.append {db db' : Db} (h : Payable db) {e : DebtTransaction}
    (hid : db.debtTransactions.get? e.id = none) (hc : db.customers.get? e.customerId ≠ none)
    (hledger : db'.debtTransactions = db.debtTransactions.insert e)
    (hcustomers : db'.customers = db.customers)
    (hread : |db'.balance e.customerId| ≤ Binary64.maxSafeInteger) : Payable db' where
  readable c := by
    have hbalance : db'.balance c = (Debt.append db e).balance c := Debt.balance_congr hledger c
    rcases eq_or_ne e.customerId c with rfl | hne
    · exact hread
    · rw [hbalance, Debt.balance_append hid, if_neg hne, add_zero]
      exact h.readable c
  owned t ht := by
    rw [hledger, Table.mem_insert hid] at ht
    rw [hcustomers]
    rcases ht with ht | rfl
    · exact h.owned t ht
    · exact hc

/-! ### What an accepted call has done -/

/-- A transaction whose announcement is accepted. -/
theorem accepts_transaction {α β : Type} {p : Txn α} {f : α → Service β} {w w' : World}
    (h : Accepts (transaction p >>= f) w w') :
    ∃ a db', store.eval p w.db = .ok (a, db') ∧ Accepts (f a) { w with db := db' } w' := by
  obtain ⟨b, hb⟩ := h
  rw [Service.call_bind] at hb
  rcases he : store.eval p w.db with e | ⟨a, db'⟩
  · rw [call_transaction_error he] at hb
    cases hb
  · rw [call_transaction_ok he] at hb
    exact ⟨a, db', rfl, b, hb⟩

theorem accepts_bind {α β : Type} {x : Service α} {f : α → Service β} {w w' : World}
    (h : Accepts (x >>= f) w w') : ∃ a w₁, x.call w = (.ok a, w₁) ∧ Accepts (f a) w₁ w' := by
  obtain ⟨b, hb⟩ := h
  rw [Service.call_bind] at hb
  rcases hx : x.call w with ⟨e | a, w₁⟩
  · rw [hx] at hb
    cases hb
  · rw [hx] at hb
    exact ⟨a, w₁, rfl, b, hb⟩

/-- The announcement of an entry has read the balance. -/
theorem emitAfterChange_readable {customerId : Uuid} {event : DebtEvent → DomainEvent}
    {entry : DebtTransaction} {w w' : World}
    (h : Accepts (emitAfterChange customerId event entry) w w') :
    |w.db.balance customerId| ≤ Binary64.maxSafeInteger ∧ w'.db = w.db := by
  obtain ⟨a, ha⟩ := h
  constructor
  · by_contra hread
    have hrejects : ∃ e, ((emitAfterChange customerId event entry).call w).1 = .error e :=
      emitAfterChange_rejects.mpr hread
    obtain ⟨e, he⟩ := hrejects
    rw [ha] at he
    cases he
  · have hdb := emitAfterChange_db w customerId event entry
    rw [ha] at hdb
    exact hdb

/-- What follows a transaction leaves its database alone. -/
theorem accepts_db {α : Type} {x : Service α} {w w' : World} (h : Accepts x w w')
    (hx : (x.call w).2.db = w.db) : w'.db = w.db := by
  obtain ⟨a, ha⟩ := h
  rw [ha] at hx
  exact hx

/-- An entry of the ledger with its announcement. -/
theorem Payable.announced {db : Db} (h : Payable db) {e : DebtTransaction} {customerId : Uuid}
    {event : DebtEvent → DomainEvent} {events : List DomainEvent} {w' : World}
    (hacc : Accepts (emitAfterChange customerId event e >>= fun _ => pure e)
      ⟨Debt.append db e, events⟩ w') (hcustomer : e.customerId = customerId)
    (hid : db.debtTransactions.get? e.id = none) (hc : db.customers.get? customerId ≠ none) :
    Payable w'.db := by
  subst hcustomer
  obtain ⟨_, w₁, hemit, hret⟩ := accepts_bind hacc
  obtain ⟨hread, hdb⟩ := emitAfterChange_readable ⟨_, hemit⟩
  have hlast : w'.db = w₁.db := accepts_db hret rfl
  have happend : w'.db = Debt.append db e := hlast.trans hdb
  rw [happend]
  exact h.append hid hc rfl rfl hread

/-- An end that is accepted: its debt is announced as well. -/
theorem Payable.ended {db db' : Db} (h : Payable db) {session saved : Session} {ctx : ActorContext}
    {newId : Uuid} {due paid : Money} {debt : Option DebtTransaction} {w w' : World}
    (hset : Settles db session saved ctx newId due paid debt db') (hdb : w.db = db')
    (hsaved : saved.customerId = session.customerId)
    (hacc : Accepts (announceDebtEntry saved debt) w w') : Payable w'.db := by
  cases hset with
  | inFull heq =>
    have hlast : w'.db = w.db := accepts_db hacc rfl
    rw [hlast, hdb]
    exact h.congr (by simp [save]) fun c hc => by simpa [save] using hc
  | @booked customerId hlt hc hid hrow =>
    unfold announceDebtEntry at hacc
    rw [hsaved, hc] at hacc
    obtain ⟨hread, hlast⟩ := emitAfterChange_readable hacc
    rw [hlast]
    rw [hdb] at hread ⊢
    have hledger := release_debtTransactions (Debt.append (save db saved)
      (shortfallRow session ctx customerId newId due paid)) session.computerId
    exact h.append hid hrow hledger (by simp [save, Debt.append]) hread

/-! ### Runs of accepted calls -/

/-- **An accepted call keeps every balance readable and every entry owned.** -/
theorem accepted_payable {w w' : World} (h : Accepted w w') (hp : Payable w.db) :
    Payable w'.db := by
  cases h with
  | @createCustomer dto newId h =>
    obtain ⟨a, ha⟩ := h
    rcases Customers.create_call dto newId w with ⟨e, he⟩ | ⟨hid, hok⟩
    · rw [he] at ha
      cases ha
    · rw [hok] at ha
      cases ha
      refine hp.congr rfl fun c hc => ?_
      have hne : c ≠ newId := fun heq => hc (heq ▸ hid)
      dsimp only
      rw [Table.get?_insert_ne hne]
      exact hc
  | @updateCustomer id dto h =>
    obtain ⟨a, ha⟩ := h
    rcases Customers.update_call id dto w with ⟨e, he⟩ | ⟨stored, saved, row, hfound, hid, hok⟩
    · rw [he] at ha
      cases ha
    · rw [hok] at ha
      cases ha
      exact hp.congr rfl fun c hc => get?_set_ne_none hc
  | @removeCustomer id now h =>
    obtain ⟨a, ha⟩ := h
    rcases Customers.remove_call id now w with ⟨e, he⟩ | ⟨stored, hfound, hok⟩
    · rw [he] at ha
      cases ha
    · rw [hok] at ha
      cases ha
      exact hp.congr rfl fun c hc => get?_set_ne_none hc
  | start h =>
    obtain ⟨created, db', he, hrest⟩ := accepts_transaction h
    have hdb : w'.db = db' :=
      accepts_db hrest (call_bind_db _ (emitStarted_db _ created) fun _ _ => rfl)
    have hcustomers := changes_preserve (fun d => d.customers = w.db.customers)
      (fun hc hd => hc.customers.trans hd) (start_changes he) rfl
    rw [hdb]
    exact hp.congr (start_ledger he) fun c hc => by rw [hcustomers]; exact hc
  | extend h =>
    obtain ⟨s, db', he, hrest⟩ := accepts_transaction h
    have hdb : w'.db = db' := accepts_db hrest rfl
    obtain ⟨session, p, plannedEndAt, hs, ha, hplan, hdate, rfl, rfl⟩ := extend_ok.mp he
    rw [hdb]
    exact hp.congr rfl fun c hc => hc
  | endSession h =>
    obtain ⟨⟨saved, debt⟩, db', he, hrest⟩ := accepts_transaction h
    obtain ⟨session, due, paid, hs, ha, hdue, hpaid, rfl, hset⟩ := endSession_ok.mp he
    obtain ⟨_, w₁, hemit, hrest⟩ := accepts_bind hrest
    cases hemit
    obtain ⟨_, w₂, hannounce, hret⟩ := accepts_bind hrest
    have hlast : w'.db = w₂.db := accepts_db hret rfl
    rw [hlast]
    exact hp.ended hset rfl rfl ⟨_, hannounce⟩
  | cancel h =>
    obtain ⟨s, db', he, hrest⟩ := accepts_transaction h
    have hdb : w'.db = db' := accepts_db hrest rfl
    obtain ⟨session, hs, ha, rfl, rfl⟩ := cancel_ok.mp he
    rw [hdb]
    exact hp.congr (by simp [save]) fun c hc => by simpa [save] using hc
  | recordPayment h =>
    obtain ⟨e, db', he, hrest⟩ := accepts_transaction h
    obtain ⟨magnitude, customer, -, -, hfound, -, -, rfl, hid, rfl⟩ := Debt.recordPayment_ok.mp he
    have hrow := (Db.findCustomer_eq_some.mp hfound).1
    exact hp.announced hrest rfl hid (by simp [hrow])
  | correct h =>
    obtain ⟨e, db', he, hrest⟩ := accepts_transaction h
    obtain ⟨value, -, -, rfl, hid, hrow, rfl⟩ := Debt.correct_ok.mp he
    exact hp.announced hrest rfl hid hrow

theorem run_payable {w w' : World} (h : Payable w.db) (hrun : Relation.ReflTransGen Accepted w w') :
    Payable w'.db := by
  induction hrun with
  | refl => exact h
  | tail _ hstep ih => exact accepted_payable hstep ih

/-! ### Payments -/

def customerNotFound : Thrown :=
  .domain (BusinessRuleException "CUSTOMER_NOT_FOUND" "Customer does not exist" [])

variable {w : World} {customerId newId : Uuid} {a : ℤ}

/-- The entry of a payment. -/
def paymentRow (customerId newId : Uuid) (a : ℤ) (sessionId actorId : Option Uuid)
    (reason : Option String) : DebtTransaction where
  id := newId
  customerId := customerId
  type := .debtPayment
  signedAmount := -a
  sessionId := sessionId
  actorId := actorId
  reason := reason

/-- An entry that leaves a readable balance is announced. -/
theorem call_announced {p : Txn DebtTransaction} {row : DebtTransaction} {db' : Db}
    (event : DebtEvent → DomainEvent) (hrun : store.eval p w.db = .ok (row, db'))
    (hread : |db'.balance customerId| ≤ Binary64.maxSafeInteger) :
    (transaction p >>= fun entry => emitAfterChange customerId event entry >>= fun _ =>
      pure entry).call w =
        (.ok row, ⟨db', event (debtEvent customerId row ⟨_, hread⟩) :: w.events⟩) := by
  unfold emitAfterChange
  rw [Service.call_bind, call_transaction_ok hrun]
  dsimp only
  rw [Service.call_bind, Service.call_bind, call_getBalance_ok (w := ⟨db', w.events⟩) hread]
  rfl

/-- **A payment of at most the balance of a customer** is accepted and lowers the balance by its
amount. -/
theorem payment_call (hp : Payable w.db) {customer : Customer}
    (hfound : w.db.findCustomer customerId = some customer) (ha : 1 ≤ a)
    (hle : a ≤ w.db.balance customerId) (sessionId actorId : Option Uuid) (reason : Option String)
    (hid : w.db.debtTransactions.get? newId = none) :
    ∃ w', Accepts (recordPayment ⟨customerId, (a : ℚ), sessionId, actorId, reason⟩ newId) w w' ∧
      w'.db.balance customerId = w.db.balance customerId - a := by
  have hold := hp.readable customerId
  have hsafe : |a| ≤ Binary64.maxSafeInteger := by
    rw [abs_of_nonneg (by omega)] at hold ⊢
    omega
  set row := paymentRow customerId newId a sessionId actorId reason with hrow
  have hrun : store.eval (Debt.recordPayment
      ⟨customerId, (a : ℚ), sessionId, actorId, reason⟩ newId) w.db =
        .ok (row, Debt.append w.db row) :=
    Debt.recordPayment_ok.mpr ⟨⟨a, hsafe⟩, customer, fromMinor_ok.mpr rfl, by show 0 < a; omega,
      hfound, hold, hle, rfl, hid, rfl⟩
  have hbalance : (Debt.append w.db row).balance customerId = w.db.balance customerId - a := by
    have happend : (Debt.append w.db row).balance customerId = w.db.balance customerId + -a :=
      Debt.balance_append_self (e := row) hid
    omega
  have hread : |(Debt.append w.db row).balance customerId| ≤ Binary64.maxSafeInteger := by
    rw [hbalance]
    rw [abs_of_nonneg (by omega)] at hold ⊢
    omega
  exact ⟨_, ⟨row, call_announced .debtUpdated hrun hread⟩, hbalance⟩

/-- **A payment of a customer who is not found** is refused, and nothing changes. -/
theorem payment_refused (hfound : w.db.findCustomer customerId = none) (ha : 1 ≤ a)
    (hsafe : |a| ≤ Binary64.maxSafeInteger) (sessionId actorId : Option Uuid)
    (reason : Option String) :
    (recordPayment ⟨customerId, (a : ℚ), sessionId, actorId, reason⟩ newId).call w =
      (.error customerNotFound, w) := by
  have hamount : Money.fromMinor (a : ℚ) = .ok ⟨a, hsafe⟩ := fromMinor_ok.mpr rfl
  have hpos : (⟨a, hsafe⟩ : Money).isPositive = true := by
    simp only [Money.isPositive, decide_eq_true_eq]
    omega
  have hlock : store.eval (lockCustomer customerId) w.db = .ok (none, w.db) :=
    lockCustomer_ok.mpr ⟨hfound.symm, rfl⟩
  have hrun : store.eval (Debt.recordPayment
      ⟨customerId, (a : ℚ), sessionId, actorId, reason⟩ newId) w.db = .error customerNotFound := by
    unfold Debt.recordPayment
    rw [Sem.eval_bind, (Sem.eval_lift_ok store).mpr ⟨hamount, rfl⟩]
    dsimp only
    rw [if_neg (by simp [hpos]), Sem.eval_bind, hlock]
    rfl
  unfold recordPayment
  rw [Service.call_bind, call_transaction_error hrun]

/-- **A debt can be paid back**, in any part and to the minor unit, as long as its customer was not
removed; the payment of a customer who was removed is refused and leaves the debt. -/
theorem debt_repayable {w₀ : World} (h₀ : Payable w₀.db)
    (hrun : Relation.ReflTransGen Accepted w₀ w) (ha : 1 ≤ a) (hle : a ≤ w.db.balance customerId)
    (hid : w.db.debtTransactions.get? newId = none) (sessionId actorId : Option Uuid)
    (reason : Option String) : ∃ customer, w.db.customers.get? customerId = some customer ∧
      (customer.deletedAt = none → ∃ w', w'.db.balance customerId = w.db.balance customerId - a ∧
        Accepts (recordPayment ⟨customerId, (a : ℚ), sessionId, actorId, reason⟩ newId) w w') ∧
      (customer.deletedAt ≠ none →
        (recordPayment ⟨customerId, (a : ℚ), sessionId, actorId, reason⟩ newId).call w =
          (.error customerNotFound, w)) := by
  have hp := run_payable h₀ hrun
  have hold := hp.readable customerId
  have hsafe : |a| ≤ Binary64.maxSafeInteger := by
    rw [abs_of_nonneg (by omega)] at hold ⊢
    omega
  obtain ⟨customer, hrow⟩ : ∃ customer, w.db.customers.get? customerId = some customer := by
    have hledger : w.db.ledger customerId ≠ [] := fun hnil => by
      have hzero : w.db.balance customerId = 0 := by
        unfold Db.balance
        rw [hnil]
        rfl
      omega
    obtain ⟨e, he⟩ := List.exists_mem_of_ne_nil _ hledger
    have hmem : e ∈ w.db.debtTransactions.rows ∧ e.customerId = customerId := by
      simpa [Db.ledger] using he
    have howned := hp.owned e hmem.1
    rw [hmem.2] at howned
    exact Option.ne_none_iff_exists'.mp howned
  refine ⟨customer, hrow, fun hlive => ?_, fun hremoved => ?_⟩
  · have hfound := Db.findCustomer_eq_some.mpr ⟨hrow, hlive⟩
    obtain ⟨w', hacc, hbalance⟩ := payment_call hp hfound ha hle sessionId actorId reason hid
    exact ⟨w', hbalance, hacc⟩
  · refine payment_refused ?_ ha hsafe sessionId actorId reason
    rw [Option.eq_none_iff_forall_ne_some]
    intro c hc
    obtain ⟨hget, hlive⟩ := Db.findCustomer_eq_some.mp hc
    rw [hrow] at hget
    cases hget
    exact hremoved hlive

/-! ### One customer -/

def bobur : CreateCustomerDto := ⟨"Bobur Aliyev", none, none, by decide, by simp, noText_length⟩

def registered : Db :=
  { Db.empty with customers := Table.empty.insert (Customers.newCustomer bobur 1) }

def openingBalance : DebtTransaction :=
  ⟨5, 1, .debtCorrection, 100, none, some 9, some "opening balance"⟩

/-- The customer has a debt of 100. -/
def indebted : Db := Debt.append registered openingBalance

theorem indebted_run : ∃ events,
    Relation.ReflTransGen Accepted ⟨Db.empty, []⟩ ⟨indebted, events⟩ := by
  have hcreate : Accepted ⟨Db.empty, []⟩ ⟨registered, []⟩ :=
    @Accepted.createCustomer _ _ bobur 1 ⟨_, rfl⟩
  have hrun : store.eval (Debt.correct 1 100 9 "opening balance" 5) registered =
      .ok (openingBalance, indebted) :=
    Debt.correct_ok.mpr ⟨⟨100, by decide⟩, fromMinor_ok.mpr rfl, by decide, rfl, by decide,
      by decide, rfl⟩
  have hread : |indebted.balance 1| ≤ Binary64.maxSafeInteger := by decide
  have hcorrect := call_announced (w := ⟨registered, []⟩) .debtUpdated hrun hread
  exact ⟨_, (Relation.ReflTransGen.single hcreate).tail (.correct ⟨_, hcorrect⟩)⟩

/-- A half of the debt is paid. -/
theorem debt_repayable_half : ∃ w w' : World, w.db = indebted ∧
    Accepts (recordPayment ⟨1, ((50 : ℤ) : ℚ), none, none, none⟩ 6) w w' ∧
      w'.db.balance 1 = w.db.balance 1 - 50 := by
  obtain ⟨events, hrun⟩ := indebted_run
  have hle : 50 ≤ indebted.balance 1 := by decide
  have hid : indebted.debtTransactions.get? 6 = none := by decide
  obtain ⟨customer, hrow, hpaid, -⟩ := debt_repayable (payable_of_noLedger rfl) hrun (by decide) hle
    hid none none none
  have hlive : customer.deletedAt = none := by
    have hget : indebted.customers.get? 1 = some (Customers.newCustomer bobur 1) := by decide
    obtain rfl := Option.some.inj (hget.symm.trans hrow)
    rfl
  obtain ⟨w', hbalance, hacc⟩ := hpaid hlive
  exact ⟨_, w', rfl, hacc, hbalance⟩

/-- The customer is removed. -/
def strandedDb : Db :=
  { indebted with
    customers := indebted.customers.set
      { Customers.newCustomer bobur 1 with deletedAt := some .epoch } }

/-- Once the customer is removed no part of the debt can be paid. -/
theorem removed_debt_stranded : ∃ w : World, Relation.ReflTransGen Accepted ⟨Db.empty, []⟩ w ∧
    w.db.balance 1 = 100 ∧ ∀ newId,
      (recordPayment ⟨1, ((50 : ℤ) : ℚ), none, none, none⟩ newId).call w =
        (.error customerNotFound, w) := by
  obtain ⟨events, hrun⟩ := indebted_run
  have hremove : Accepted ⟨indebted, events⟩ ⟨strandedDb, events⟩ :=
    @Accepted.removeCustomer _ _ ⟨1, 0⟩ .epoch ⟨(), rfl⟩
  have hbalance : strandedDb.balance 1 = 100 := by decide
  have hgone : strandedDb.findCustomer 1 = none := by decide
  exact ⟨_, hrun.tail hremove, hbalance, fun newId =>
    payment_refused hgone (by decide) (by decide) none none none⟩

end GameClub.Services
