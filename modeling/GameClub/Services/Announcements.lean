import GameClub.Lib.Announce
import GameClub.Lib.Await
import GameClub.Services.Retry

/-! # Announced balances

Payments, corrections and session ends side by side. Each commits, reads the balance of its customer
after the commit, and emits an event with what it has read; others may commit, read and emit in
between.

* `program`, `serves_program`: the programs of the calls; one that runs alone is the service call.
* `Phase`, `implements`: the points of the programs, with the numbers of the readings.
* `InOrder`: what is read is in range, and announced before what is read later.
* `announced_balance`: then the last announcement for a customer has the balance of the ledger. -/

namespace GameClub.Services.Announcements

open GameClub.Lib GameClub.Lib.Binary64 GameClub.Lib.Interleave GameClub.Common GameClub.Store
  GameClub.Sessions

/-! ### Calls -/

/-- What a request sends: its transaction, the query of a balance, or an event. -/
inductive Call
  | recordPayment (input : Debt.LedgerEntryInput) (newId : Uuid)
  | correct (customerId : Uuid) (signedAmount : Number) (actorId : Uuid) (reason : String)
      (newId : Uuid)
  | endSession (id : UuidText) (dto : EndSessionDto) (ctx : ActorContext) (endedAt : Instant)
      (newId : Uuid)
  | getBalance (customerId : Uuid)
  | emit (event : DomainEvent)

/-- A balance with the number of its reading; the code does not see the number. -/
structure Reading where
  balance : Except Thrown Money
  number : ℕ

/-- The type of the reply. -/
abbrev Res : Call → Type
  | .recordPayment _ _ => Except Thrown DebtTransaction
  | .correct _ _ _ _ _ => Except Thrown DebtTransaction
  | .endSession _ _ _ _ _ => Except Thrown (Session × Option DebtTransaction)
  | .getBalance _ => Reading
  | .emit _ => Unit

/-- The database and the events, and how many balances have been read. -/
structure Process where
  world : World
  reads : ℕ

/-- A part of a service call, at once. -/
def Process.answer {α : Type} (x : Service α) (w : Process) : Except Thrown α × Process :=
  ((x.call w.world).1, { w with world := (x.call w.world).2 })

/-- A transaction takes effect when it commits; the locks of its rows make that one step. -/
def exec : (c : Call) → Process → Res c × Process
  | .recordPayment input newId, w => w.answer (transaction (Debt.recordPayment input newId))
  | .correct customerId signedAmount actorId reason newId, w =>
    w.answer (transaction (Debt.correct customerId signedAmount actorId reason newId))
  | .endSession id dto ctx endedAt newId, w =>
    w.answer (transaction (Sessions.endSession id dto ctx endedAt newId))
  | .getBalance customerId, w =>
    (⟨((getBalance customerId).call w.world).1, w.reads⟩, { w with reads := w.reads + 1 })
  | .emit event, w => ((), { w with world := ((emit event).call w.world).2 })

/-! ### The programs -/

abbrev Async (α : Type) := Prog Res Thrown α

def send (c : Call) : Async (Res c) := Prog.stmt c

/-- The events of the ledger. -/
inductive DebtChange
  | created
  | updated

def DebtChange.event : DebtChange → DebtEvent → DomainEvent
  | .created => .debtCreated
  | .updated => .debtUpdated

def emitAfterChange (customerId : Uuid) (event : DebtChange) (entry : DebtTransaction) :
    Async Unit := do
  let reading ← send (.getBalance customerId)
  let balance ← reading.balance
  send (.emit (event.event (debtEvent customerId entry balance)))

def recordPayment (input : Debt.LedgerEntryInput) (newId : Uuid) : Async DebtTransaction := do
  let committed ← send (.recordPayment input newId)
  let entry ← committed
  emitAfterChange input.customerId .updated entry
  pure entry

def correct (customerId : Uuid) (signedAmount : Number) (actorId : Uuid) (reason : String)
    (newId : Uuid) : Async DebtTransaction := do
  let committed ← send (.correct customerId signedAmount actorId reason newId)
  let entry ← committed
  emitAfterChange customerId .updated entry
  pure entry

def announceDebtEntry (result : Session) (debtEntry : Option DebtTransaction) : Async Unit :=
  match debtEntry, result.customerId with
  | some debtEntry, some customerId => emitAfterChange customerId .created debtEntry
  | _, _ => pure ()

def endSession (id : UuidText) (dto : EndSessionDto) (ctx : ActorContext) (endedAt : Instant)
    (newId : Uuid) : Async Session := do
  let committed ← send (.endSession id dto ctx endedAt newId)
  let ended ← committed
  send (.emit (.sessionEnded (toEvent ended.1)))
  announceDebtEntry ended.1 ended.2
  pure ended.1

inductive Reply
  | entry (e : DebtTransaction)
  | session (s : Session)

def program : MoneyCall → Async Reply
  | .recordPayment input newId => do
    let e ← recordPayment input newId
    pure (.entry e)
  | .correct customerId signedAmount actorId reason newId => do
    let e ← correct customerId signedAmount actorId reason newId
    pure (.entry e)
  | .endSession id dto ctx endedAt newId => do
    let s ← endSession id dto ctx endedAt newId
    pure (.session s)

/-! ### A program alone -/

/-- A program that runs alone does what a service call does. -/
def Serves {α : Type} (p : Async α) (x : Service α) : Prop := ∀ w,
  (serve exec p w).1 = (x.call w.world).1 ∧ (serve exec p w).2.world = (x.call w.world).2

section

variable {α β : Type}

theorem serves_pure (a : α) : Serves (pure a) (pure a) := fun _ => ⟨rfl, rfl⟩

theorem Serves.bind {p : Async α} {x : Service α} {f : α → Async β} {g : α → Service β}
    (h : Serves p x) (hf : ∀ a, Serves (f a) (g a)) : Serves (p >>= f) (x >>= g) := by
  intro w
  obtain ⟨hr, hw⟩ := h w
  rw [serve_bind, Service.call_bind]
  rcases hp : serve exec p w with ⟨r | a, w'⟩
  · rcases hx : x.call w.world with ⟨r' | a', w''⟩
    · rw [hp, hx] at hr hw
      exact ⟨congrArg _ (Except.error.inj hr), hw⟩
    · rw [hp, hx] at hr
      cases hr
  · rcases hx : x.call w.world with ⟨r' | a', w''⟩
    · rw [hp, hx] at hr
      cases hr
    · rw [hp, hx] at hr hw
      cases hr
      obtain rfl : w'.world = w'' := hw
      exact hf a w'

/-- A call whose reply may be thrown, and the rest of the program. -/
theorem serves_call {c : Call} {outcome : Res c → Except Thrown α} {x : Service α} {f : α → Async β}
    {g : α → Service β} (hr : ∀ w, outcome (exec c w).1 = (x.call w.world).1)
    (hw : ∀ w, (exec c w).2.world = (x.call w.world).2) (hf : ∀ a, Serves (f a) (g a)) :
    Serves (send c >>= fun r => (liftM (outcome r) : Async α) >>= f) (x >>= g) := by
  have hlift : Serves (send c >>= fun r => liftM (outcome r)) x := by
    intro w
    change (serve exec (liftM (outcome (exec c w).1) : Async α) (exec c w).2).1 = _ ∧
      (serve exec (liftM (outcome (exec c w).1) : Async α) (exec c w).2).2.world = _
    rw [← hr w, ← hw w]
    cases outcome (exec c w).1 <;> exact ⟨rfl, rfl⟩
  have h := hlift.bind hf
  rw [← Prog.bind_assoc]
  exact h

theorem serves_emit (event : DomainEvent) : Serves (send (.emit event)) (emit event) :=
  fun _ => ⟨rfl, rfl⟩

theorem serves_emitAfterChange (customerId : Uuid) (event : DebtChange) (entry : DebtTransaction) :
    Serves (emitAfterChange customerId event entry)
      (Services.emitAfterChange customerId event.event entry) :=
  serves_call (c := .getBalance customerId) (fun _ => rfl) (fun _ => rfl) fun _ => serves_emit _

theorem serves_announceDebtEntry (result : Session) (debtEntry : Option DebtTransaction) :
    Serves (announceDebtEntry result debtEntry) (Services.announceDebtEntry result debtEntry) := by
  unfold announceDebtEntry Services.announceDebtEntry
  cases debtEntry with
  | none => exact serves_pure ()
  | some debtEntry =>
    cases result.customerId with
    | none => exact serves_pure ()
    | some customerId => exact serves_emitAfterChange customerId .created debtEntry

theorem serves_recordPayment (input : Debt.LedgerEntryInput) (newId : Uuid) :
    Serves (recordPayment input newId) (Services.recordPayment input newId) :=
  serves_call (c := .recordPayment input newId) (fun _ => rfl) (fun _ => rfl) fun entry =>
    (serves_emitAfterChange _ .updated entry).bind fun _ => serves_pure entry

theorem serves_correct (customerId : Uuid) (signedAmount : Number) (actorId : Uuid)
    (reason : String) (newId : Uuid) : Serves (correct customerId signedAmount actorId reason newId)
      (Services.correct customerId signedAmount actorId reason newId) :=
  serves_call (c := .correct customerId signedAmount actorId reason newId) (fun _ => rfl)
    (fun _ => rfl) fun entry =>
    (serves_emitAfterChange _ .updated entry).bind fun _ => serves_pure entry

theorem serves_endSession (id : UuidText) (dto : EndSessionDto) (ctx : ActorContext)
    (endedAt : Instant) (newId : Uuid) : Serves (endSession id dto ctx endedAt newId)
      (Services.endSession id dto ctx endedAt newId) :=
  serves_call (c := .endSession id dto ctx endedAt newId) (fun _ => rfl) (fun _ => rfl) fun ended =>
    (serves_emit _).bind fun _ =>
      (serves_announceDebtEntry ended.1 ended.2).bind fun _ => serves_pure ended.1

end

/-- The service call of a request. -/
def service : MoneyCall → Service Reply
  | .recordPayment input newId => do
    let e ← Services.recordPayment input newId
    pure (.entry e)
  | .correct customerId signedAmount actorId reason newId => do
    let e ← Services.correct customerId signedAmount actorId reason newId
    pure (.entry e)
  | .endSession id dto ctx endedAt newId => do
    let s ← Services.endSession id dto ctx endedAt newId
    pure (.session s)

/-- **The program of a request, alone, is its service call.** -/
theorem serves_program (q : MoneyCall) : Serves (program q) (service q) := by
  cases q with
  | recordPayment input newId => exact (serves_recordPayment input newId).bind fun _ => serves_pure _
  | correct customerId signedAmount actorId reason newId =>
    exact (serves_correct customerId signedAmount actorId reason newId).bind fun _ => serves_pure _
  | endSession id dto ctx endedAt newId =>
    exact (serves_endSession id dto ctx endedAt newId).bind fun _ => serves_pure _

/-! ### Phases -/

/-- The point a request has come to. -/
inductive Phase
  | finished (r : Except Thrown Reply)
  | committing (q : MoneyCall)
  | ended (result : Session) (debtEntry : Option DebtTransaction)
  | reading (customerId : Uuid) (event : DebtChange) (entry : DebtTransaction) (reply : Reply)
  | emitting (customerId : Uuid) (event : DebtChange) (entry : DebtTransaction) (reply : Reply)
      (balance : Money) (number : ℕ)

/-- After the transaction of a payment or a correction. -/
def booked (customerId : Uuid) : Except Thrown DebtTransaction → Phase
  | .error e => .finished (.error e)
  | .ok entry => .reading customerId .updated entry (.entry entry)

/-- After the transaction of a session end. -/
def settled : Except Thrown (Session × Option DebtTransaction) → Phase
  | .error e => .finished (.error e)
  | .ok (result, debtEntry) => .ended result debtEntry

/-- After the event of a session end. -/
def announcing (result : Session) (debtEntry : Option DebtTransaction) : Phase :=
  match debtEntry, result.customerId with
  | some debtEntry, some customerId => .reading customerId .created debtEntry (.session result)
  | _, _ => .finished (.ok (.session result))

/-- After the query of the balance. -/
def known (customerId : Uuid) (event : DebtChange) (entry : DebtTransaction) (reply : Reply)
    (reading : Reading) : Phase :=
  match reading.balance with
  | .error e => .finished (.error e)
  | .ok balance => .emitting customerId event entry reply balance reading.number

def view : Phase → View Res (Except Thrown Reply) Phase
  | .finished r => .done r
  | .committing (.recordPayment input newId) =>
    .call (.recordPayment input newId) fun r => booked input.customerId r
  | .committing (.correct customerId signedAmount actorId reason newId) =>
    .call (.correct customerId signedAmount actorId reason newId) fun r => booked customerId r
  | .committing (.endSession id dto ctx endedAt newId) =>
    .call (.endSession id dto ctx endedAt newId) fun r => settled r
  | .ended result debtEntry =>
    .call (.emit (.sessionEnded (toEvent result))) fun _ => announcing result debtEntry
  | .reading customerId event entry reply =>
    .call (.getBalance customerId) fun reading => known customerId event entry reply reading
  | .emitting customerId event entry reply balance _ =>
    .call (.emit (event.event (debtEvent customerId entry balance))) fun _ => .finished (.ok reply)

/-- The interleavings of payments, corrections and session ends. -/
def system : System Res Process MoneyCall (Except Thrown Reply) Phase where
  exec := exec
  start := .committing
  view := view
  pass _ w := w

theorem view_done {p : Phase} {r : Except Thrown Reply} (h : view p = .done r) :
    p = .finished r := by
  unfold view at h
  split at h <;> cases h
  rfl

/-- What is left of the program at a phase. -/
def rest : Phase → Async Reply
  | .finished (.ok r) => pure r
  | .finished (.error e) => .throw e
  | .committing q => program q
  | .ended result debtEntry => do
    send (.emit (.sessionEnded (toEvent result)))
    announceDebtEntry result debtEntry
    pure (.session result)
  | .reading customerId event entry reply => do
    emitAfterChange customerId event entry
    pure reply
  | .emitting customerId event entry reply balance _ => do
    send (.emit (event.event (debtEvent customerId entry balance)))
    pure reply

theorem rest_booked (customerId : Uuid) (r : Except Thrown DebtTransaction) :
    (do
      let entry ← (do
        let entry ← r
        emitAfterChange customerId .updated entry
        pure entry : Async DebtTransaction)
      pure (Reply.entry entry) : Async Reply) = rest (booked customerId r) := by
  cases r with
  | error e => rfl
  | ok entry => exact Prog.bind_assoc (emitAfterChange customerId .updated entry) _ _

theorem rest_ended (result : Session) (debtEntry : Option DebtTransaction) :
    (do
      announceDebtEntry result debtEntry
      pure (Reply.session result) : Async Reply) = rest (announcing result debtEntry) := by
  unfold announceDebtEntry announcing
  cases debtEntry with
  | none => rfl
  | some debtEntry => cases result.customerId <;> rfl

theorem rest_known (customerId : Uuid) (event : DebtChange) (entry : DebtTransaction)
    (reply : Reply) (reading : Reading) :
    (do
      (do
        let balance ← reading.balance
        send (.emit (event.event (debtEvent customerId entry balance))) : Async Unit)
      pure reply : Async Reply) = rest (known customerId event entry reply reading) := by
  unfold known
  cases reading.balance <;> rfl

/-- **The phases are the points of the programs.** -/
theorem implements : Implements view rest := by
  intro p
  cases p with
  | finished r => cases r <;> rfl
  | committing q =>
    cases q with
    | recordPayment input newId =>
      exact congrArg (View.call _) (funext fun r => rest_booked input.customerId r)
    | correct customerId signedAmount actorId reason newId =>
      exact congrArg (View.call _) (funext fun r => rest_booked customerId r)
    | endSession id dto ctx endedAt newId =>
      refine congrArg (View.call _) (funext fun r => ?_)
      rcases r with e | ⟨result, debtEntry⟩
      · rfl
      · have h := Prog.bind_assoc (announceDebtEntry result debtEntry)
          (fun _ => pure result) fun s => pure (Reply.session s)
        exact congrArg (Prog.call _) (funext fun _ => h)
  | ended result debtEntry =>
    exact congrArg (View.call _) (funext fun _ => rest_ended result debtEntry)
  | reading customerId event entry reply =>
    exact congrArg (View.call _) (funext fun r => rest_known customerId event entry reply r)
  | emitting customerId event entry reply balance number => rfl

/-! ### The last announcement -/

abbrev BalanceConfig := Config Process Phase

abbrev BalanceEvent := Event Process MoneyCall (Except Thrown Reply) Phase

/-- The payload of an event of the ledger. -/
def debtPayload : DomainEvent → Option DebtEvent
  | .debtCreated payload => some payload
  | .debtUpdated payload => some payload
  | _ => none

/-- The balance of the last announcement for a customer. -/
def announced (customerId : Uuid) (events : List DomainEvent) : Option ℤ :=
  ((events.filterMap debtPayload).find? fun e => e.customerId = customerId).map DebtEvent.balance

/-- What a request holds of the balance of a customer, with the number of the reading. -/
def held (customerId : Uuid) : Phase → Option (ℕ × ℤ)
  | .emitting id _ _ _ balance number =>
    if id = customerId then some (number, balance.value) else none
  | _ => none

/-- A request has booked an entry of a customer and not read the balance yet. -/
def due (customerId : Uuid) : Phase → Prop
  | .ended result debtEntry => debtEntry.isSome ∧ result.customerId = some customerId
  | .reading id _ _ _ => id = customerId
  | _ => False

/-- **A step in order**: a balance that is read is in range, and one that is announced was not read
after one of the same customer that is still to be announced. -/
def InOrder (c : BalanceConfig) : BalanceEvent → Prop
  | .called _ (.reading customerId _ _ _) w =>
    |w.world.db.balance customerId| ≤ maxSafeInteger
  | .called _ (.emitting customerId _ _ _ _ number) _ => ∀ i p, c.threads i = some p →
    ∀ x ∈ held customerId p, number ≤ x.1
  | _ => True

/-! ### What a call does to the balance of a customer -/

/-- The balance of a customer and what was announced of it last; without an announcement, the balance
`initial` from the beginning. -/
def balanceOf (customerId : Uuid) (initial : ℤ) : Announced Process Phase ℤ where
  value w := w.world.db.balance customerId
  last w := (announced customerId w.world.events).getD initial
  next := Process.reads
  due := due customerId
  held := held customerId

theorem announced_debt {customerId : Uuid} {event : DebtChange} {payload : DebtEvent}
    {events : List DomainEvent} : announced customerId (event.event payload :: events) =
      if payload.customerId = customerId then some payload.balance
      else announced customerId events := by
  unfold announced
  by_cases h : payload.customerId = customerId
  · cases event <;> simp [DebtChange.event, debtPayload, h]
  · cases event <;> simp [DebtChange.event, debtPayload, h]

variable {customerId : Uuid} {initial : ℤ} {w : Process}

/-- **A transaction** books an entry of the customer, which is then to be announced, or leaves the
balance as it is. -/
theorem goes_transaction {α : Type} {p : Txn α} {next : Except Thrown α → Phase} {q : MoneyCall}
    (hheld : ∀ r, held customerId (next r) = none)
    (hok : ∀ a db', store.eval p w.world.db = .ok (a, db') → due customerId (next (.ok a)) ∨
      db'.balance customerId = w.world.db.balance customerId) :
    (balanceOf customerId initial).Goes w (w.answer (transaction p)).2 (.committing q)
      (next (w.answer (transaction p)).1) := by
  have hsame : held customerId (next (w.answer (transaction p)).1) =
      held customerId (.committing q) := hheld _
  unfold Process.answer at hsame ⊢
  cases he : store.eval p w.world.db with
  | error e =>
    rw [call_transaction_error he] at hsame ⊢
    exact .other rfl rfl le_rfl (fun hdue => hdue.elim) hsame
  | ok x =>
    obtain ⟨a, db'⟩ := x
    rw [call_transaction_ok he] at hsame ⊢
    rcases hok a db' he with hdue | hv
    · exact .change le_rfl hdue hsame
    · exact .other hv rfl le_rfl (fun hdue => hdue.elim) hsame

theorem held_booked (id : Uuid) (r : Except Thrown DebtTransaction) :
    held customerId (booked id r) = none := by
  cases r <;> rfl

theorem held_settled (r : Except Thrown (Session × Option DebtTransaction)) :
    held customerId (settled r) = none := by
  cases r <;> rfl

/-- An entry is of the customer, or leaves the balance of the customer alone. -/
theorem balance_entry {db : Db} {e : DebtTransaction} (hid : db.debtTransactions.get? e.id = none) :
    e.customerId = customerId ∨ (Debt.append db e).balance customerId = db.balance customerId := by
  by_cases h : e.customerId = customerId
  · exact Or.inl h
  · refine Or.inr ?_
    rw [Debt.balance_append hid, if_neg h, add_zero]

/-- A session end books a debt of the customer, or leaves the balance of the customer alone. -/
theorem balance_settled {db db' : Db} {session saved : Session} {ctx : ActorContext} {newId : Uuid}
    {due paid : Money} {debt : Option DebtTransaction}
    (h : Settles db session saved ctx newId due paid debt db') :
    (debt.isSome ∧ session.customerId = some customerId) ∨
      db'.balance customerId = db.balance customerId := by
  cases h with
  | inFull heq => exact Or.inr (balance_release _ _ _)
  | @booked id hlt hc hid hrow =>
    rw [balance_release]
    have hfree : (save db saved).debtTransactions.get?
        (shortfallRow session ctx id newId due paid).id = none := hid
    have hentry : id = customerId ∨ _ := balance_entry hfree
    rcases hentry with heq | heq
    · obtain rfl := heq
      exact Or.inl ⟨rfl, hc⟩
    · exact Or.inr heq

/-- **A payment or a correction** books an entry of its customer. -/
theorem goes_booked {p : Txn DebtTransaction} {id : Uuid} {q : MoneyCall}
    (hok : ∀ entry db', store.eval p w.world.db = .ok (entry, db') → entry.customerId = id ∧
      w.world.db.debtTransactions.get? entry.id = none ∧ db' = Debt.append w.world.db entry) :
    (balanceOf customerId initial).Goes w (w.answer (transaction p)).2 (.committing q)
      (booked id (w.answer (transaction p)).1) := by
  refine goes_transaction (held_booked id) fun entry db' he => ?_
  obtain ⟨rfl, hfree, rfl⟩ := hok entry db' he
  exact balance_entry hfree

theorem goes_committing {q : MoneyCall} {s : Call} {k : Res s → Phase}
    (hv : view (.committing q) = .call s k) :
    (balanceOf customerId initial).Goes w (exec s w).2 (.committing q) (k (exec s w).1) := by
  cases q with
  | recordPayment input newId =>
    cases hv
    refine goes_booked fun entry db' he => ?_
    obtain ⟨magnitude, customer, -, -, -, -, -, rfl, hid, rfl⟩ := Debt.recordPayment_ok.mp he
    exact ⟨rfl, hid, rfl⟩
  | correct id signedAmount actorId reason newId =>
    cases hv
    refine goes_booked fun entry db' he => ?_
    obtain ⟨value, -, -, rfl, hid, -, rfl⟩ := Debt.correct_ok.mp he
    exact ⟨rfl, hid, rfl⟩
  | endSession id dto ctx endedAt newId =>
    cases hv
    refine goes_transaction held_settled fun ended db' he => ?_
    obtain ⟨saved, debt⟩ := ended
    obtain ⟨session, due, paid, -, -, -, -, hsaved, hset⟩ := endSession_ok.mp he
    have hcustomer : saved.customerId = session.customerId := by rw [hsaved, endedSession]
    refine (balance_settled hset).imp_left fun ⟨hsome, hc⟩ => ⟨hsome, ?_⟩
    exact hcustomer.trans hc

/-- The event of the session leaves the debt to be announced. -/
theorem due_announcing {result : Session} {debtEntry : Option DebtTransaction}
    (h : due customerId (.ended result debtEntry)) :
    due customerId (announcing result debtEntry) := by
  obtain ⟨hsome, hc⟩ := h
  obtain ⟨e, rfl⟩ := Option.isSome_iff_exists.mp hsome
  unfold announcing
  rw [hc]
  exact rfl

theorem held_announcing (result : Session) (debtEntry : Option DebtTransaction) :
    held customerId (announcing result debtEntry) = none := by
  unfold announcing
  split <;> rfl

/-- **A reading** of a balance in range. -/
theorem goes_reading {id : Uuid} {event : DebtChange} {entry : DebtTransaction} {reply : Reply}
    (hsafe : |w.world.db.balance id| ≤ maxSafeInteger) :
    (balanceOf customerId initial).Goes w (exec (.getBalance id) w).2
      (.reading id event entry reply) (known id event entry reply (exec (.getBalance id) w).1) := by
  have hread : known id event entry reply (exec (.getBalance id) w).1 =
      .emitting id event entry reply ⟨_, hsafe⟩ w.reads := by
    have hbalance : (exec (.getBalance id) w).1.balance = .ok ⟨_, hsafe⟩ :=
      congrArg Prod.fst (call_getBalance_ok hsafe)
    unfold known
    rw [hbalance]
    rfl
  rw [hread]
  by_cases hid : id = customerId
  · subst hid
    exact .read rfl (Nat.lt_succ_self _) (if_pos rfl)
  · exact .other rfl rfl (Nat.le_succ _) (fun hdue => absurd hdue hid) (if_neg hid)

/-- **An announcement.** -/
theorem goes_emitting {id : Uuid} {event : DebtChange} {entry : DebtTransaction} {reply : Reply}
    {balance : Money} {number : ℕ} :
    (balanceOf customerId initial).Goes w
      (exec (.emit (event.event (debtEvent id entry balance))) w).2
      (.emitting id event entry reply balance number) (.finished (.ok reply)) := by
  have hevents : announced customerId
      (event.event (debtEvent id entry balance) :: w.world.events) =
        if id = customerId then some balance.value else announced customerId w.world.events :=
    announced_debt
  by_cases hid : id = customerId
  · rw [if_pos hid] at hevents
    exact .announce rfl (congrArg (Option.getD · initial) hevents) le_rfl (fun h => h)
      (if_pos hid) rfl
  · rw [if_neg hid] at hevents
    exact .other rfl (congrArg (Option.getD · initial) hevents) le_rfl (fun h => h)
      (if_neg hid).symm

/-! ### Runs -/

/-- **The balances are announced in order** in the runs whose steps are in order. -/
theorem keeps (customerId : Uuid) (initial : ℤ) :
    (balanceOf customerId initial).Keeps system InOrder where
  start _ := rfl
  done := by
    intro p r hv
    rw [view_done hv]
    exact ⟨fun h => h, rfl⟩
  goes := by
    intro c i p s k hin hv
    cases p with
    | finished r => cases hv
    | committing q => exact goes_committing hv
    | ended result debtEntry =>
      cases hv
      exact .other rfl rfl le_rfl due_announcing (held_announcing result debtEntry)
    | reading id event entry reply =>
      cases hv
      exact goes_reading hin
    | emitting id event entry reply balance number =>
      cases hv
      exact goes_emitting
  oldest := by
    intro c i p hin x hx j y hy
    obtain ⟨q, hj, hq⟩ := hy
    cases p with
    | emitting id event entry reply balance number =>
      have hheld : (if id = customerId then some (number, balance.value) else none) = some x := hx
      split_ifs at hheld with hid
      subst hid
      cases hheld
      exact hin j q hj y hq
    | _ => cases hx
  pass _ _ := ⟨rfl, rfl, le_rfl⟩

/-- **Announced balances converge to the ledger**: in a run whose steps are in order, when no request
is in flight any more, the last announcement for a customer has the balance of the ledger; a customer
without an announcement has the balance from the beginning. -/
theorem announced_balance {db : Db} {tr : List BalanceEvent} {c : BalanceConfig}
    (hrun : system.Run InOrder (.idle ⟨⟨db, []⟩, 0⟩) tr c) (hq : c.Quiet) (customerId : Uuid) :
    (∀ b, announced customerId c.db.world.events = some b → b = c.db.world.db.balance customerId) ∧
    (announced customerId c.db.world.events = none →
      c.db.world.db.balance customerId = db.balance customerId) := by
  have hlast := (keeps customerId (db.balance customerId)).last_eq_value rfl hrun hq
  change (announced customerId c.db.world.events).getD _ = c.db.world.db.balance customerId at hlast
  constructor
  · intro b hb
    rw [hb] at hlast
    exact hlast
  · intro hnone
    rw [hnone] at hlast
    exact hlast.symm

/-! ### Two corrections -/

/-- A correction of a customer without debt. -/
def first : MoneyCall := .correct 1 100 9 "opening balance" 7

/-- Another one. -/
def second : MoneyCall := .correct 1 50 9 "adjustment" 8

/-- **A stale announcement**: the first correction has read its balance, the second one is booked, read
and announced, and then the first balance is announced. -/
theorem stale_announcement : ¬ ∀ (db : Db) (tr : List BalanceEvent) (c : BalanceConfig)
    (customerId : Uuid) (b : ℤ), system.Run (fun _ _ => True) (.idle ⟨⟨db, []⟩, 0⟩) tr c →
    c.Quiet → announced customerId c.db.world.events = some b →
    b = c.db.world.db.balance customerId := by
  intro hclaim
  obtain ⟨tr, c, hrun, hcheck, hthreads⟩ := System.exists_run (S := system)
    (A := fun _ _ => True) (fun _ _ => true) 2 (fun _ _ _ _ => trivial)
    ⟨⟨newCustomer.db, []⟩, 0⟩
    ([.arrive 0 first, .run 0, .run 0] ++ .arrive 1 second :: List.replicate 4 (.run 1) ++
      [.run 0, .run 0])
    (fun x => x.2.allOver 2 && decide (announced 1 x.2.db.world.events = some 100 ∧
      x.2.db.world.db.balance 1 = 150))
    (by decide) (by decide +kernel)
  obtain ⟨hover, hread⟩ := Bool.and_eq_true_iff.mp hcheck
  obtain ⟨hannounced, hbalance⟩ := of_decide_eq_true hread
  have hstale := hclaim newCustomer.db tr c 1 100 hrun (Config.quiet_of_allOver hover hthreads)
    hannounced
  rw [hbalance] at hstale
  exact absurd hstale (by decide)

/-- With two requests, the condition can be checked. -/
def checkedInOrder (c : BalanceConfig) : BalanceEvent → Bool
  | .called _ (.reading customerId _ _ _) w =>
    decide (|w.world.db.balance customerId| ≤ maxSafeInteger)
  | .called _ (.emitting customerId _ _ _ _ number) _ => (List.range 2).all fun i =>
    (c.threads i).all fun p => (held customerId p).all fun x => decide (number ≤ x.1)
  | _ => true

theorem inOrder_of_checked {c : BalanceConfig} {e : BalanceEvent}
    (hthreads : ∀ i, 2 ≤ i → c.threads i = none) (h : checkedInOrder c e = true) :
    InOrder c e := by
  unfold InOrder
  split
  · exact of_decide_eq_true h
  · intro i p hi x hx
    have hlt : i < 2 := by
      by_contra hge
      rw [hthreads i (by omega)] at hi
      cases hi
    have hall := List.all_eq_true.mp h i (List.mem_range.mpr hlt)
    rw [hi, Option.all_some, hx] at hall
    exact of_decide_eq_true hall
  · trivial

/-- Both corrections are booked, and then the two readings are announced in their order. -/
theorem announced_balance_both : ∃ tr c, system.Run InOrder (.idle ⟨⟨newCustomer.db, []⟩, 0⟩) tr c ∧
    c.Quiet ∧ announced 1 c.db.world.events = some 150 ∧ c.db.world.db.balance 1 = 150 := by
  obtain ⟨tr, c, hrun, hcheck, hthreads⟩ := System.exists_run (S := system) checkedInOrder 2
    (fun _ _ => inOrder_of_checked) ⟨⟨newCustomer.db, []⟩, 0⟩
    [.arrive 0 first, .run 0, .arrive 1 second, .run 1, .run 1, .run 0, .run 1, .run 0, .run 1,
      .run 0]
    (fun x => x.2.allOver 2 && decide (announced 1 x.2.db.world.events = some 150))
    (by decide) (by decide +kernel)
  obtain ⟨hover, hread⟩ := Bool.and_eq_true_iff.mp hcheck
  have hannounced := of_decide_eq_true hread
  have hquiet := Config.quiet_of_allOver hover hthreads
  exact ⟨tr, c, hrun, hquiet, hannounced,
    ((announced_balance hrun hquiet 1).1 150 hannounced).symm⟩

end GameClub.Services.Announcements
