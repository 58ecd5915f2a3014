import GameClub.Services.Sessions

/-! # Rejected money operations

`recordPayment`, `correct` and `endSession` read the balance again after they have committed, to
announce it, and throw when it is not a safe integer.

* `cleanOnReject_iff`: a call that is rejected has changed nothing, exactly when the entry it books
  leaves a balance in range. A payment always does: it has read the balance under its lock.
* `correct_rejected_booked`: a correction that is booked and rejected. -/

namespace GameClub.Services

open GameClub.Lib GameClub.Lib.Binary64 GameClub.Common GameClub.Store GameClub.Sessions

/-- If the call throws, the ledger, the sessions and the computers are as before. -/
def CleanOnReject {α : Type} (x : Service α) (w : World) : Prop :=
  x.Rejects w → (x.call w).2.db.debtTransactions = w.db.debtTransactions ∧
    (x.call w).2.db.sessions = w.db.sessions ∧ (x.call w).2.db.computers = w.db.computers

/-- A call that books money. -/
inductive MoneyCall
  | recordPayment (input : Debt.LedgerEntryInput) (newId : Uuid)
  | correct (customerId : Uuid) (signedAmount : Number) (actorId : Uuid) (reason : String)
      (newId : Uuid)
  | endSession (id : UuidText) (dto : EndSessionDto) (ctx : ActorContext) (endedAt : Instant)
      (newId : Uuid)

/-- A call that is rejected changes nothing. -/
def MoneyCall.CleanOnReject (w : World) : MoneyCall → Prop
  | .recordPayment input newId => Services.CleanOnReject (Services.recordPayment input newId) w
  | .correct customerId signedAmount actorId reason newId =>
    Services.CleanOnReject (Services.correct customerId signedAmount actorId reason newId) w
  | .endSession id dto ctx endedAt newId =>
    Services.CleanOnReject (Services.endSession id dto ctx endedAt newId) w

/-- **The balance stays in range**: with the entry that the call is about to book, if it is one that
can be booked. A payment has no such entry out of range. -/
def MoneyCall.BalanceFits (db : Db) : MoneyCall → Prop
  | .recordPayment _ _ => True
  | .correct customerId signedAmount _ _ newId => ∀ value,
    Money.fromMinor signedAmount = .ok value → value.value ≠ 0 →
    db.debtTransactions.get? newId = none → db.customers.get? customerId ≠ none →
    |db.balance customerId + value.value| ≤ maxSafeInteger
  | .endSession id dto _ endedAt newId => ∀ session customerId due paid,
    db.sessions.get? id.value = some session → session.status = .active →
    Pricing.finalize session endedAt = .ok due → amountPaid dto due = .ok paid →
    paid.value < due.value → session.customerId = some customerId →
    db.debtTransactions.get? newId = none → db.customers.get? customerId ≠ none →
    |db.balance customerId + (due.value - paid.value)| ≤ maxSafeInteger

/-! ### A transaction and its announcement -/

section

variable {α β : Type} {p : Txn α} {f : α → Service β} {w : World}

/-- A transaction that throws leaves everything as it is. -/
theorem cleanOnReject_of_error {e : Thrown} (h : store.eval p w.db = .error e) :
    CleanOnReject (transaction p >>= f) w := by
  intro _
  rw [Service.call_bind, call_transaction_error h]
  exact ⟨rfl, rfl, rfl⟩

/-- After a transaction that commits, the rest of the call decides. -/
theorem rejects_iff {a : α} {db' : Db} (h : store.eval p w.db = .ok (a, db')) :
    (transaction p >>= f).Rejects w ↔ (f a).Rejects { w with db := db' } := by
  unfold Service.Rejects
  rw [Service.call_bind, call_transaction_ok h]

end

theorem rejects_announce {α : Type} {customerId : Uuid} {event : DebtEvent → DomainEvent}
    {entry : DebtTransaction} {a : α} {w : World} :
    (emitAfterChange customerId event entry >>= fun _ => pure a : Service α).Rejects w ↔
      ¬ |w.db.balance customerId| ≤ maxSafeInteger := by
  rw [← @emitAfterChange_rejects customerId event entry w]
  unfold Service.Rejects
  rw [Service.call_bind]
  rcases (emitAfterChange customerId event entry).call w with ⟨r | r, w'⟩ <;> simp

/-- The ledger with a new entry is another ledger. -/
theorem insert_ne {t : Table DebtTransaction.id} {e : DebtTransaction} (h : t.get? e.id = none) :
    t.insert e ≠ t := by
  intro heq
  have := Table.get?_insert_self h
  rw [heq, h] at this
  cases this

/-! ### The three calls -/

theorem recordPayment_clean (input : Debt.LedgerEntryInput) (newId : Uuid) (w : World) :
    CleanOnReject (recordPayment input newId) w := by
  cases he : store.eval (Debt.recordPayment input newId) w.db with
  | error e => exact cleanOnReject_of_error he
  | ok x =>
    obtain ⟨entry, db'⟩ := x
    obtain ⟨magnitude, customer, -, hpos, -, hsafe, hle, rfl, hid, rfl⟩ := Debt.recordPayment_ok.mp he
    intro hrej
    rw [recordPayment, rejects_iff he, rejects_announce, Debt.balance_append_self hid] at hrej
    have hmax := (abs_le.mp hsafe).2
    refine absurd (abs_le.mpr ⟨?_, ?_⟩) hrej <;> dsimp only
    · unfold maxSafeInteger
      omega
    · omega

theorem correct_clean_iff {customerId : Uuid} {signedAmount : Number} {actorId : Uuid}
    {reason : String} {newId : Uuid} {w : World} :
    CleanOnReject (correct customerId signedAmount actorId reason newId) w ↔
      (MoneyCall.correct customerId signedAmount actorId reason newId).BalanceFits w.db := by
  constructor
  · intro hclean value hv hne hid hc
    by_contra hout
    have he : store.eval (Debt.correct customerId signedAmount actorId reason newId) w.db =
      .ok (_, _) := Debt.correct_ok.mpr ⟨value, hv, hne, rfl, hid, hc, rfl⟩
    have hrej : (correct customerId signedAmount actorId reason newId).Rejects w := by
      rw [correct, rejects_iff he, rejects_announce, Debt.balance_append_self hid]
      exact hout
    obtain ⟨hled, -⟩ := hclean hrej
    rw [correct_db, Sem.transaction_ok _ he] at hled
    exact insert_ne hid hled
  · intro hfits
    cases he : store.eval (Debt.correct customerId signedAmount actorId reason newId) w.db with
    | error e => exact cleanOnReject_of_error he
    | ok x =>
      obtain ⟨entry, db'⟩ := x
      obtain ⟨value, hv, hne, rfl, hid, hc, rfl⟩ := Debt.correct_ok.mp he
      intro hrej
      rw [correct, rejects_iff he, rejects_announce, Debt.balance_append_self hid] at hrej
      exact absurd (hfits value hv hne hid hc) hrej

/-- An end that commits is rejected when it has booked a debt and the balance is out of range. -/
theorem endSession_rejects {id : UuidText} {dto : EndSessionDto} {ctx : ActorContext}
    {endedAt : Instant} {newId : Uuid} {w : World} {saved : Session}
    {debt : Option DebtTransaction} {db' : Db}
    (he : store.eval (Sessions.endSession id dto ctx endedAt newId) w.db =
      .ok ((saved, debt), db')) :
    (endSession id dto ctx endedAt newId).Rejects w ↔ ∃ entry customerId, debt = some entry ∧
      saved.customerId = some customerId ∧ ¬ |db'.balance customerId| ≤ maxSafeInteger := by
  have hannounce : (endSession id dto ctx endedAt newId).Rejects w ↔
      (announceDebtEntry saved debt >>= fun _ => pure saved : Service Session).Rejects
        ⟨db', .sessionEnded (toEvent saved) :: w.events⟩ := by
    rw [endSession, rejects_iff he]
    rfl
  rw [hannounce]
  unfold announceDebtEntry
  split
  · next entry customerId hcust =>
    rw [announceDebtChange, rejects_announce]
    simp [hcust]
  · next hnone =>
    constructor
    · rintro ⟨e, h⟩
      cases h
    · rintro ⟨entry, customerId, rfl, hc, -⟩
      exact absurd hc (hnone entry customerId rfl)

/-- The balance after an end that books a debt. -/
theorem balance_booked {db : Db} {session saved : Session} {ctx : ActorContext}
    {customerId newId : Uuid} {due paid : Money} (hid : db.debtTransactions.get? newId = none) :
    (release (Debt.append (save db saved) (shortfallRow session ctx customerId newId due paid))
      session.computerId).balance customerId =
        db.balance customerId + (due.value - paid.value) := by
  rw [balance_release]
  have hfree : (save db saved).debtTransactions.get?
      (shortfallRow session ctx customerId newId due paid).id = none := hid
  exact Debt.balance_append_self hfree

theorem endSession_clean_iff {id : UuidText} {dto : EndSessionDto} {ctx : ActorContext}
    {endedAt : Instant} {newId : Uuid} {w : World} :
    CleanOnReject (endSession id dto ctx endedAt newId) w ↔
      (MoneyCall.endSession id dto ctx endedAt newId).BalanceFits w.db := by
  constructor
  · intro hclean session customerId due paid hs ha hdue hpaid hlt hc hid hrow
    by_contra hout
    have he : store.eval (Sessions.endSession id dto ctx endedAt newId) w.db = .ok ((_, _), _) :=
      endSession_ok.mpr ⟨session, due, paid, hs, ha, hdue, hpaid, rfl, .booked hlt hc hid hrow⟩
    have hrej : (endSession id dto ctx endedAt newId).Rejects w :=
      (endSession_rejects he).mpr ⟨_, customerId, rfl, hc, by rw [balance_booked hid]; exact hout⟩
    obtain ⟨hled, -⟩ := hclean hrej
    rw [endSession_db, Sem.transaction_ok _ he, release_debtTransactions] at hled
    exact insert_ne (e := shortfallRow session ctx customerId newId due paid) hid hled
  · intro hfits
    cases he : store.eval (Sessions.endSession id dto ctx endedAt newId) w.db with
    | error e => exact cleanOnReject_of_error he
    | ok x =>
      obtain ⟨⟨saved, debt⟩, db'⟩ := x
      intro hrej
      obtain ⟨entry, customerId, rfl, hcust, hout⟩ := (endSession_rejects he).mp hrej
      obtain ⟨session, due, paid, hs, ha, hdue, hpaid, rfl, hset⟩ := endSession_ok.mp he
      cases hset with
      | booked hlt hc hid hrow =>
        have hc' : session.customerId = some customerId := hcust
        obtain rfl := Option.some.inj (hc.symm.trans hc')
        rw [balance_booked hid] at hout
        exact absurd (hfits session _ due paid hs ha hdue hpaid hlt hc hid hrow) hout

/-- **A rejected call has changed nothing** exactly when the balance stays in range. -/
theorem cleanOnReject_iff (c : MoneyCall) (w : World) : c.CleanOnReject w ↔ c.BalanceFits w.db := by
  cases c with
  | recordPayment input newId => exact ⟨fun _ => trivial, fun _ => recordPayment_clean input newId w⟩
  | correct customerId signedAmount actorId reason newId => exact correct_clean_iff
  | endSession id dto ctx endedAt newId => exact endSession_clean_iff

/-! ### A correction that is booked and rejected -/

/-- A customer without debt. -/
def newCustomer : World :=
  { db := { Db.empty with customers := .single ⟨1, "Aziz", none, none, false, none⟩ }
    events := [] }

/-- **A correction of one minor unit on top of the largest safe debt** is booked, and the call throws:
a client that retries books it again. -/
theorem correct_rejected_booked :
    ¬ (correct 1 maxSafeInteger 9 "opening balance" 7).Rejects newCustomer ∧
    ¬ (MoneyCall.correct 1 1 9 "adjustment" 8).CleanOnReject
      ((correct 1 maxSafeInteger 9 "opening balance" 7).call newCustomer).2 := by
  have he : store.eval (Debt.correct 1 maxSafeInteger 9 "opening balance" 7) newCustomer.db =
      .ok (_, _) := Debt.correct_ok.mpr ⟨⟨maxSafeInteger, by decide⟩, fromMinor_ok.mpr rfl,
    by decide, rfl, rfl, by decide, rfl⟩
  constructor
  · rw [correct, rejects_iff he, rejects_announce, Debt.balance_append_self rfl]
    decide
  · show ¬ CleanOnReject (correct 1 1 9 "adjustment" 8) _
    rw [correct_clean_iff, correct_db, Sem.transaction_ok _ he]
    intro hfits
    have := hfits ⟨1, by decide⟩ (fromMinor_ok.mpr rfl) (by decide) rfl (by decide)
    revert this
    decide

end GameClub.Services
