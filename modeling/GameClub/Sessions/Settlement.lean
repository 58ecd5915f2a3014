import GameClub.Concurrency.Locking
import GameClub.Lib.Schedule

/-! # Money at settlement

What an ended session charged is what was paid plus what was booked as debt.

* `Conserved`: this for one session, with the entry booked on its customer.
* `Settled`: the invariant, for all sessions, with every debt booked for a session of the store.
* `Settled.change`: every change keeps it.
* `settlement_conserves_money`: it holds of every committed database, however the requests
  interleave, and so do the sums over the store. -/

namespace GameClub.Sessions

open GameClub.Lib GameClub.Lib.RowLock GameClub.Common GameClub.Store GameClub.Concurrency

/-! ### Charges of plans -/

theorem plan_nonneg {type : SessionType} {ratePerHour : Number} {startedAt : Instant}
    {params : PlanParams} {p : PricingPlan}
    (h : Pricing.plan type ratePerHour startedAt params = .ok p) : 0 ≤ p.plannedAmount.value := by
  cases type with
  | openSession => cases h; exact le_rfl
  | fixedDuration =>
    simp only [Pricing.plan] at h
    split at h
    · cases h
    · obtain ⟨a, ha, hp⟩ := bind_ok.mp h
      cases hp
      exact (forDuration_spec ha).2.2
  | fixedEndTime =>
    simp only [Pricing.plan] at h
    split at h
    · cases h
    · split_ifs at h
      obtain ⟨a, ha, hp⟩ := bind_ok.mp h
      cases hp
      exact (forDuration_spec ha).2.2

theorem extend_nonneg {session : Session} {params : ExtendParams} {p : PricingPlan}
    (h : Pricing.extend session params = .ok p) : 0 ≤ p.plannedAmount.value := by
  unfold Pricing.extend at h
  split at h
  · split at h
    · cases h
    · dsimp only at h
      split at h
      · cases h
      · obtain ⟨a, ha, hp⟩ := bind_ok.mp h
        cases hp
        exact (forDuration_spec ha).2.2
  · split at h
    · cases h
    · split_ifs at h
      obtain ⟨a, ha, hp⟩ := bind_ok.mp h
      cases hp
      exact (forDuration_spec ha).2.2
  · cases h

/-! ### The invariant -/

/-- All entries of type `DEBT_ADD`. -/
def debts (db : Db) : List DebtTransaction :=
  db.debtTransactions.rows.filter fun e => e.type = .debtAdd

/-- The entries of type `DEBT_ADD` for a session. -/
def debtsOf (db : Db) (id : Uuid) : List DebtTransaction :=
  (debts db).filter fun e => e.sessionId = some id

/-- **Nothing is lost of a session**: ended, its charge is paid or booked, at most once, on its
customer; before, nothing is booked. -/
structure Conserved (db : Db) (s : Session) : Prop where
  paid_nonneg : s.status = .ended → 0 ≤ s.amountPaid
  paid_le_due : s.status = .ended → s.amountPaid ≤ s.amountDue
  balanced : s.status = .ended →
    s.amountPaid + ((debtsOf db s.id).map DebtTransaction.signedAmount).sum = s.amountDue
  once : (debtsOf db s.id).length ≤ 1
  onCustomer : ∀ e ∈ debtsOf db s.id, s.customerId = some e.customerId
  notEnded : s.status ≠ .ended → debtsOf db s.id = []

/-- Nothing is lost of any session, no charge is negative, and every debt is that of a session. -/
structure Settled (db : Db) : Prop where
  conserved : ∀ s ∈ db.sessions.rows, Conserved db s
  due_nonneg : ∀ s ∈ db.sessions.rows, 0 ≤ s.amountDue
  owed : ∀ e ∈ debts db, ∃ s ∈ db.sessions.rows, e.sessionId = some s.id

theorem Conserved.no_customer {db : Db} {s : Session} (h : Conserved db s)
    (hn : s.customerId = none) : debtsOf db s.id = [] := by
  refine List.eq_nil_iff_forall_not_mem.mpr fun e he => ?_
  have := h.onCustomer e he
  rw [hn] at this
  cases this

theorem Conserved.congr {db db' : Db} {s : Session} (h : Conserved db s)
    (hd : debtsOf db' s.id = debtsOf db s.id) : Conserved db' s :=
  ⟨h.paid_nonneg, h.paid_le_due, by rw [hd]; exact h.balanced, by rw [hd]; exact h.once,
    by rw [hd]; exact h.onCustomer, by rw [hd]; exact h.notEnded⟩

/-- A session that has not ended, with nothing booked. -/
theorem conserved_of_not_ended {db : Db} {s : Session} (hs : s.status ≠ .ended)
    (hd : debtsOf db s.id = []) : Conserved db s :=
  ⟨fun h => absurd h hs, fun h => absurd h hs, fun h => absurd h hs, by simp [hd], by simp [hd],
    fun _ => hd⟩

theorem debts_congr {db db' : Db} (h : db'.debtTransactions = db.debtTransactions) :
    debts db' = debts db := by rw [debts, debts, h]

theorem debtsOf_congr {db db' : Db} (h : db'.debtTransactions = db.debtTransactions) (id : Uuid) :
    debtsOf db' id = debtsOf db id := by rw [debtsOf, debtsOf, debts_congr h]

/-- Nothing is booked for a session that is not in the store. -/
theorem Settled.debtsOf_fresh {db : Db} (h : Settled db) {id : Uuid}
    (hid : db.sessions.get? id = none) : debtsOf db id = [] := by
  refine List.eq_nil_iff_forall_not_mem.mpr fun e he => ?_
  obtain ⟨hdebt, hsession⟩ := List.mem_filter.mp he
  obtain ⟨s, hs, href⟩ := h.owed e hdebt
  rw [of_decide_eq_true hsession] at href
  cases href
  rw [Table.get?_of_mem hs] at hid
  cases hid

/-! ### Each change keeps it -/

/-- A change of one session, with the ledger as it is. -/
theorem Settled.save {db db' : Db} (h : Settled db) {old s : Session}
    (hold : db.sessions.get? s.id = some old) (hdue : 0 ≤ s.amountDue)
    (hses : db'.sessions = db.sessions.set s) (hled : db'.debtTransactions = db.debtTransactions)
    (hs : Conserved db' s) : Settled db' := by
  have hmem : ∀ {t}, t ∈ db'.sessions.rows ↔ t = s ∨ (t ∈ db.sessions.rows ∧ t.id ≠ s.id) := by
    intro t
    rw [hses]
    exact Table.mem_set (by rw [hold]; simp)
  refine ⟨fun t ht => ?_, fun t ht => ?_, fun e he => ?_⟩
  · rcases hmem.mp ht with rfl | ⟨ht, -⟩
    · exact hs
    · exact (h.conserved t ht).congr (debtsOf_congr hled t.id)
  · rcases hmem.mp ht with rfl | ⟨ht, -⟩
    · exact hdue
    · exact h.due_nonneg t ht
  · rw [debts_congr hled] at he
    obtain ⟨t, ht, href⟩ := h.owed e he
    by_cases hid : t.id = s.id
    · exact ⟨s, hmem.mpr (Or.inl rfl), by rw [href, hid]⟩
    · exact ⟨t, hmem.mpr (Or.inr ⟨ht, hid⟩), href⟩

theorem Settled.opened {db : Db} (h : Settled db) {s : Session}
    (hid : db.sessions.get? s.id = none) (hs : s.status = .active) (hdue : 0 ≤ s.amountDue) :
    Settled (opened db s) := by
  have hmem : ∀ {t}, t ∈ (Sessions.opened db s).sessions.rows ↔ t ∈ db.sessions.rows ∨ t = s := by
    intro t
    rw [opened_sessions]
    exact Table.mem_insert hid
  have hled : (Sessions.opened db s).debtTransactions = db.debtTransactions := by simp
  refine ⟨fun t ht => ?_, fun t ht => ?_, fun e he => ?_⟩
  · rcases hmem.mp ht with ht | rfl
    · exact (h.conserved t ht).congr (debtsOf_congr hled t.id)
    · refine conserved_of_not_ended (by simp [hs]) ?_
      rw [debtsOf_congr hled, h.debtsOf_fresh hid]
  · rcases hmem.mp ht with ht | rfl
    · exact h.due_nonneg t ht
    · exact hdue
  · rw [debts_congr hled] at he
    obtain ⟨t, ht, href⟩ := h.owed e he
    exact ⟨t, hmem.mpr (Or.inl ht), href⟩

/-- An entry of another type is not a debt. -/
theorem debts_append {db : Db} {e : DebtTransaction} (hid : db.debtTransactions.get? e.id = none) :
    debts (Debt.append db e) = debts db ++ if e.type = .debtAdd then [e] else [] := by
  unfold debts Debt.append
  rw [Table.rows_insert hid, List.filter_append]
  by_cases he : e.type = .debtAdd <;> simp [he]

theorem Settled.append {db : Db} (h : Settled db) {e : DebtTransaction} (ht : e.type ≠ .debtAdd)
    (hid : db.debtTransactions.get? e.id = none) : Settled (Debt.append db e) := by
  have hd : debts (Debt.append db e) = debts db := by rw [debts_append hid, if_neg ht]; simp
  refine ⟨fun s hs => (h.conserved s hs).congr ?_, h.due_nonneg, fun e' he' => ?_⟩
  · rw [debtsOf, debtsOf, hd]
  · rw [hd] at he'
    exact h.owed e' he'

/-- An end that leaves nothing to pay. -/
theorem Settled.endedInFull {db : Db} (h : Settled db) {session : Session} {dto : EndSessionDto}
    {ctx : ActorContext} {endedAt : Instant} {due paid : Money}
    (hs : db.sessions.get? session.id = some session) (ha : session.status = .active)
    (hdue : 0 ≤ due.value) (hpaid : 0 ≤ paid.value) (heq : paid.value = due.value) :
    Settled (Sessions.save db (endedSession session dto ctx endedAt due paid)) := by
  have hnil : debtsOf db session.id = [] :=
    (h.conserved session (Table.mem_of_get? hs).1).notEnded (by simp [ha])
  refine h.save (s := endedSession session dto ctx endedAt due paid) hs hdue rfl rfl ?_
  have hnil' : debtsOf (Sessions.save db (endedSession session dto ctx endedAt due paid))
      (endedSession session dto ctx endedAt due paid).id = [] := hnil
  exact ⟨fun _ => hpaid, fun _ => heq.le, fun _ => by rw [hnil']; simpa [endedSession] using heq,
    by simp [hnil'], by simp [hnil'], fun hne => absurd rfl hne⟩

/-- An end that books the rest. -/
theorem Settled.endedBooked {db : Db} (h : Settled db) {session : Session} {dto : EndSessionDto}
    {ctx : ActorContext} {endedAt : Instant} {newId customerId : Uuid} {due paid : Money}
    (hs : db.sessions.get? session.id = some session) (ha : session.status = .active)
    (hdue : 0 ≤ due.value) (hpaid : 0 ≤ paid.value) (hlt : paid.value < due.value)
    (hc : session.customerId = some customerId)
    (hid : db.debtTransactions.get? newId = none) :
    Settled (Debt.append (Sessions.save db (endedSession session dto ctx endedAt due paid))
      (shortfallRow session ctx customerId newId due paid)) := by
  have hnil : debtsOf db session.id = [] :=
    (h.conserved session (Table.mem_of_get? hs).1).notEnded (by simp [ha])
  have hmem : ∀ {t}, t ∈ (Sessions.save db
      (endedSession session dto ctx endedAt due paid)).sessions.rows ↔
      t = endedSession session dto ctx endedAt due paid ∨
        (t ∈ db.sessions.rows ∧ t.id ≠ session.id) := mem_save hs
  have hdebts : debts (Debt.append
      (Sessions.save db (endedSession session dto ctx endedAt due paid))
      (shortfallRow session ctx customerId newId due paid)) =
      debts db ++ [shortfallRow session ctx customerId newId due paid] := debts_append hid
  refine ⟨fun t ht => ?_, fun t ht => ?_, fun e he => ?_⟩
  · rcases hmem.mp ht with rfl | ⟨ht, hne⟩
    · have hone : debtsOf (Debt.append
          (Sessions.save db (endedSession session dto ctx endedAt due paid))
          (shortfallRow session ctx customerId newId due paid))
          (endedSession session dto ctx endedAt due paid).id =
          [shortfallRow session ctx customerId newId due paid] := by
        rw [debtsOf, hdebts, List.filter_append]
        show debtsOf db session.id ++ _ = _
        rw [hnil]
        simp [shortfallRow, endedSession]
      refine ⟨fun _ => hpaid, fun _ => hlt.le, fun _ => ?_, by simp [hone], ?_,
        fun hne => absurd rfl hne⟩
      · rw [hone]
        simp [shortfallRow, endedSession]
      · rw [hone]
        simpa [shortfallRow, endedSession] using hc
    · refine (h.conserved t ht).congr ?_
      rw [debtsOf, hdebts, List.filter_append]
      simp [debtsOf, shortfallRow, Ne.symm hne]
  · rcases hmem.mp ht with rfl | ⟨ht, -⟩
    · exact hdue
    · exact h.due_nonneg t ht
  · rw [hdebts, List.mem_append, List.mem_singleton] at he
    rcases he with he | rfl
    · obtain ⟨t, ht, href⟩ := h.owed e he
      by_cases hne : t.id = session.id
      · exact ⟨_, hmem.mpr (Or.inl rfl), by rw [href, hne]; rfl⟩
      · exact ⟨t, hmem.mpr (Or.inr ⟨ht, hne⟩), href⟩
    · exact ⟨_, hmem.mpr (Or.inl rfl), rfl⟩

theorem Settled.release {db : Db} (h : Settled db) (id : Uuid) : Settled (release db id) := by
  have hled : (Sessions.release db id).debtTransactions = db.debtTransactions := by simp
  refine ⟨fun s hs => ?_, fun s hs => ?_, fun e he => ?_⟩
  · rw [release_sessions] at hs
    exact (h.conserved s hs).congr (debtsOf_congr hled s.id)
  · rw [release_sessions] at hs
    exact h.due_nonneg s hs
  · rw [debts_congr hled] at he
    rw [release_sessions]
    exact h.owed e he

/-- **Every change keeps the invariant.** -/
theorem Settled.change {db db' : Db} (hc : Change db db') (h : Settled db) : Settled db' := by
  cases hc with
  | opened hstart hid =>
    obtain ⟨p, hp, -, rfl⟩ := hstart.plan
    exact h.opened hid rfl (plan_nonneg hp)
  | extended hs ha hp hdate =>
    have hkey := Table.key_of_get? hs
    have hnil := (h.conserved _ (Table.mem_of_get? hs).1).notEnded (by simp [ha])
    exact h.save (hkey ▸ hs) (extend_nonneg hp) rfl rfl
      (conserved_of_not_ended (by simp [ha]) hnil)
  | ended hs ha hdue hpaid hset =>
    have hkey := Table.key_of_get? hs
    have hdue0 := finalize_nonneg (h.due_nonneg _ (Table.mem_of_get? hs).1) hdue
    have hpaid0 := amountPaid_nonneg hdue0 hpaid
    cases hset with
    | inFull heq => exact (h.endedInFull (hkey ▸ hs) ha hdue0 hpaid0 heq).release _
    | booked hlt hc hid hrow =>
      exact (h.endedBooked (hkey ▸ hs) ha hdue0 hpaid0 hlt hc hid).release _
  | cancelled hs ha =>
    have hkey := Table.key_of_get? hs
    have hnil := (h.conserved _ (Table.mem_of_get? hs).1).notEnded (by simp [ha])
    refine Settled.release ?_ _
    exact h.save (hkey ▸ hs) le_rfl rfl rfl (conserved_of_not_ended (by simp) hnil)
  | paid ht _ _ hid => exact h.append (by simp [ht]) hid
  | corrected ht hid => exact h.append (by simp [ht]) hid

/-! ### The store as a whole -/

/-- The ended sessions. -/
def endedSessions (db : Db) : List Session := db.sessions.rows.filter fun s => s.status = .ended

/-- Sums over the ended sessions of a list, when the others owe nothing. -/
theorem sum_ended (owed : Session → ℤ) (l : List Session)
    (hended : ∀ s ∈ l, s.status = .ended → s.amountPaid + owed s = s.amountDue)
    (hother : ∀ s ∈ l, s.status ≠ .ended → owed s = 0) :
    ((l.filter fun s => s.status = .ended).map Session.amountDue).sum =
      ((l.filter fun s => s.status = .ended).map Session.amountPaid).sum + (l.map owed).sum := by
  induction l with
  | nil => simp
  | cons s l ih =>
    have ih := ih (fun t ht => hended t (List.mem_cons_of_mem _ ht))
      fun t ht => hother t (List.mem_cons_of_mem _ ht)
    by_cases hs : s.status = .ended
    · have := hended s (by simp) hs
      simp only [List.filter_cons, hs, decide_true, if_true, List.map_cons, List.sum_cons]
      omega
    · have := hother s (by simp) hs
      simp only [List.filter_cons, hs, decide_false, List.map_cons, List.sum_cons]
      simp only [Bool.false_eq_true, if_false]
      omega

/-- **What ended sessions charged** is what was paid for them plus all debts. -/
theorem Settled.charged_eq {db : Db} (h : Settled db) :
    ((endedSessions db).map Session.amountDue).sum =
      ((endedSessions db).map Session.amountPaid).sum +
        ((debts db).map DebtTransaction.signedAmount).sum := by
  have hkeys := db.sessions.sum_map_by_key DebtTransaction.sessionId DebtTransaction.signedAmount
    (debts db) h.owed
  rw [← hkeys]
  refine sum_ended (fun s => ((debtsOf db s.id).map DebtTransaction.signedAmount).sum) _ ?_ ?_
  · exact fun s hs hend => (h.conserved s hs).balanced hend
  · intro s hs hne
    rw [(h.conserved s hs).notEnded hne]
    rfl

/-! ### Runs -/

/-- A store without sessions and ledger entries is settled. -/
theorem settled_of_empty {db : Db} (hs : db.sessions.rows = []) (hd : db.debtTransactions.rows = []) :
    Settled db := by
  refine ⟨by simp [hs], by simp [hs], ?_⟩
  simp [debts, hd]

/-- **Money is conserved at settlement** in every committed database, from a store without sessions
and ledger entries, however start, extend, end, cancel, payment and correction requests interleave. -/
theorem settlement_conserves_money {db : Db} (hs : db.sessions.rows = [])
    (hd : db.debtTransactions.rows = []) {tr : Trace} {c : State}
    (hrun : system.Run (Config.idle db) tr c) :
    (∀ s ∈ c.db.sessions.rows,
      (s.status = .ended → 0 ≤ s.amountPaid ∧ s.amountPaid ≤ s.amountDue ∧
        s.amountPaid + ((debtsOf c.db s.id).map DebtTransaction.signedAmount).sum = s.amountDue ∧
        (debtsOf c.db s.id).length ≤ 1 ∧
        (∀ e ∈ debtsOf c.db s.id, s.customerId = some e.customerId) ∧
        (s.customerId = none → debtsOf c.db s.id = [])) ∧
      (s.status ≠ .ended → debtsOf c.db s.id = [])) ∧
    ((endedSessions c.db).map Session.amountDue).sum =
      ((endedSessions c.db).map Session.amountPaid).sum +
        ((debts c.db).map DebtTransaction.signedAmount).sum := by
  have h : Settled c.db := run_invariant Settled Settled.change (settled_of_empty hs hd) hrun
  refine ⟨fun s hmem => ?_, h.charged_eq⟩
  have hcon := h.conserved s hmem
  exact ⟨fun hend => ⟨hcon.paid_nonneg hend, hcon.paid_le_due hend, hcon.balanced hend, hcon.once,
    hcon.onCustomer, hcon.no_customer⟩, hcon.notEnded⟩

/-! ### A shortfall -/

/-- A room with two free computers, and a customer. -/
def openClub : Db :=
  { Db.empty with
    rooms := .single ⟨2, "VIP Zone", none, 15000, true, none⟩
    computers := (Table.single ⟨1, "PC-01", 2, .available, none, true, none⟩).insert
      ⟨8, "PC-02", 2, .available, none, true, none⟩
    customers := .single ⟨4, "Alisher", none, none, false, none⟩ }

/-- The customer starts on one computer and a guest on the other. -/
def customerStart : Request :=
  .start { StartSessionDto.openOn ⟨1, 0⟩ with customerId := some ⟨4, 0⟩ } ⟨9⟩ .epoch 50 fun k => 10 + k

def guestStart : Request := .start (.openOn ⟨8, 0⟩) ⟨9⟩ .epoch 51 fun k => 20 + k

/-- The customer leaves after an hour and pays a part. -/
def partEnd : Request := .endSession ⟨10, 0⟩ .inPart ⟨9⟩ ⟨3600000, hour_valid⟩ 60

/-- The two starts run side by side; a payment comes while the end has booked its shortfall. -/
def shortfallSchedule : List (Choice Request) :=
  [.begin 0 customerStart, .begin 1 guestStart] ++
    (List.replicate 5 [Choice.run 0, .run 1]).flatten ++ [.run 0, .begin 2 partEnd] ++
    List.replicate 3 (.run 2) ++ [.begin 3 (.recordPayment ⟨4, 4000, none, none, none⟩ 61)] ++
    List.replicate 3 (.run 2) ++ List.replicate 4 (.run 3)

/-- What a session charged, what was paid for it, and its debts. -/
def settlement (db : Db) (s : Session) : SessionStatus × ℤ × ℤ × List ℤ :=
  (s.status, s.amountDue, s.amountPaid, (debtsOf db s.id).map DebtTransaction.signedAmount)

/-- A session that ended with a shortfall, beside an open one. -/
theorem settlement_conserves_money_shortfall : ∃ (tr : Trace) (c : State),
    system.Run (Config.idle openClub) tr c ∧
      c.db.sessions.rows.map (settlement c.db) =
        [(.active, 0, 0, []), (.ended, 15000, 5000, [10000])] ∧
      c.db.debtTransactions.rows.map DebtTransaction.signedAmount = [10000, -4000] ∧
      ((endedSessions c.db).map Session.amountDue).sum =
        ((endedSessions c.db).map Session.amountPaid).sum +
          ((debts c.db).map DebtTransaction.signedAmount).sum := by
  obtain ⟨tr, c, hrun, -, hcheck⟩ := system.exists_run 4 (below_idle 4 openClub) shortfallSchedule
    (by decide) (fun x => decide (
      x.2.db.sessions.rows.map (settlement x.2.db) =
        [(.active, 0, 0, []), (.ended, 15000, 5000, [10000])] ∧
      x.2.db.debtTransactions.rows.map DebtTransaction.signedAmount = [10000, -4000]))
    (by decide +kernel)
  obtain ⟨hsessions, hledger⟩ := of_decide_eq_true hcheck
  exact ⟨tr, c, hrun, hsessions, hledger, (settlement_conserves_money rfl rfl hrun).2⟩

end GameClub.Sessions
