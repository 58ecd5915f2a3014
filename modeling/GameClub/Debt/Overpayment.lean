import GameClub.Concurrency.Locking
import GameClub.Lib.Schedule

/-! # The overpayment guard

A payment locks its customer before it sums the ledger, and every insert into the ledger takes a key
share lock on the same row until it commits. So the sum is still the balance when the payment
commits.

* `payment_le_balance`: a payment is at most the balance it is committed on.
* `balance_nonneg`: without negative corrections no balance is negative.
* `ledger_prefix`: the ledger is append-only.
* `overpayment_guard`: these together, for every interleaving. -/

namespace GameClub.Debt

open GameClub.Lib GameClub.Lib.RowLock GameClub.Common GameClub.Store GameClub.Sessions
  GameClub.Concurrency

/-! ### The ledger after a change -/

theorem balance_congr {db db' : Db} (h : db'.debtTransactions = db.debtTransactions) (c : Uuid) :
    db'.balance c = db.balance c := by
  unfold Db.balance Db.ledger
  rw [h]

/-- **A change appends to the ledger** or leaves it alone: a positive debt, a payment of at most the
balance, or a correction. -/
theorem change_ledger {db db' : Db} (hc : Change db db') :
    db'.debtTransactions = db.debtTransactions ∨ ∃ e, db.debtTransactions.get? e.id = none ∧
      db'.debtTransactions = db.debtTransactions.insert e ∧
      ((e.type = .debtAdd ∧ 0 < e.signedAmount) ∨
        (e.type = .debtPayment ∧ e.signedAmount < 0 ∧ -e.signedAmount ≤ db.balance e.customerId) ∨
        e.type = .debtCorrection) := by
  cases hc with
  | opened hstart hid => exact Or.inl (by simp)
  | extended hs ha hp hdate => exact Or.inl rfl
  | ended hs ha hdue hpaid hset =>
    rcases hset.ledger with heq | ⟨customerId, hlt, hid, heq⟩
    · exact Or.inl heq
    · exact Or.inr ⟨_, hid, heq, Or.inl ⟨rfl, sub_pos.mpr hlt⟩⟩
  | cancelled hs ha => exact Or.inl (by simp [save])
  | paid ht hneg hle hid => exact Or.inr ⟨_, hid, rfl, Or.inr (Or.inl ⟨ht, hneg, hle⟩)⟩
  | corrected ht hid => exact Or.inr ⟨_, hid, rfl, Or.inr (Or.inr ht)⟩

/-- The signs of debts and payments. -/
def SignsFit (db : Db) : Prop := ∀ e ∈ db.debtTransactions.rows,
  (e.type = .debtAdd → 0 < e.signedAmount) ∧ (e.type = .debtPayment → e.signedAmount < 0)

theorem SignsFit.change {db db' : Db} (hc : Change db db') (h : SignsFit db) : SignsFit db' := by
  rcases change_ledger hc with heq | ⟨e, hid, heq, hkind⟩
  · unfold SignsFit
    rw [heq]
    exact h
  · intro t ht
    rw [heq, Table.mem_insert hid] at ht
    rcases ht with ht | rfl
    · exact h t ht
    · rcases hkind with ⟨ht, hpos⟩ | ⟨ht, hneg, -⟩ | ht
      · exact ⟨fun _ => hpos, by simp [ht]⟩
      · exact ⟨by simp [ht], fun _ => hneg⟩
      · exact ⟨by simp [ht], by simp [ht]⟩

/-! ### One commit -/

/-- **A payment is at most the committed balance** just before it commits. -/
theorem payment_le_balance {db : Db} {tr : Trace} {c c' : State}
    {l : Label Stmt Thrown Request Reply} (hrun : system.Run (Config.idle db) tr c)
    (hstep : system.Step c l c') {e : DebtTransaction} (he : e ∈ c'.db.debtTransactions.rows)
    (hnew : e ∉ c.db.debtTransactions.rows) (ht : e.type = .debtPayment) :
    -e.signedAmount ≤ c.db.balance e.customerId := by
  rcases step_changes hrun hstep with heq | hc | ⟨-, heq⟩
  · rw [heq] at he
    exact absurd he hnew
  · rcases change_ledger hc with heq | ⟨e', hid, heq, hkind⟩
    · rw [heq] at he
      exact absurd he hnew
    · rw [heq, Table.mem_insert hid] at he
      obtain rfl := he.resolve_left hnew
      rcases hkind with ⟨ht', -⟩ | ⟨-, -, hle⟩ | ht'
      · rw [ht] at ht'; cases ht'
      · exact hle
      · rw [ht] at ht'; cases ht'
  · rw [heq] at he
    exact absurd he hnew

/-- A correction that lowers a balance. -/
def NegativeCorrection : Request → Prop
  | .correct _ signedAmount _ _ _ => signedAmount < 0
  | _ => False

theorem balance_append_nonneg {db : Db} {e : DebtTransaction}
    (hid : db.debtTransactions.get? e.id = none) (h : ∀ c, 0 ≤ db.balance c)
    (he : 0 ≤ db.balance e.customerId + e.signedAmount) (c : Uuid) :
    0 ≤ (append db e).balance c := by
  rw [balance_append hid]
  by_cases hc : e.customerId = c
  · rw [if_pos hc, ← hc]; exact he
  · rw [if_neg hc, add_zero]; exact h c

/-- **A transaction that is not a negative correction leaves no balance negative.** -/
theorem body_balance_nonneg {q : Request} {a : Reply} {db db' : Db}
    (he : laxStore.eval (body q) db = .ok (a, db')) (hq : ¬ NegativeCorrection q)
    (h : ∀ c, 0 ≤ db.balance c) (c : Uuid) : 0 ≤ db'.balance c := by
  have hsame : db'.debtTransactions = db.debtTransactions → 0 ≤ db'.balance c := fun heq => by
    rw [balance_congr heq]; exact h c
  have hserves := body_ok he
  cases q with
  | start dto ctx startedAt randomUUID newIds =>
    obtain ⟨_, hrun, -⟩ := hserves
    exact hsame (start_ledger hrun)
  | extend id dto =>
    obtain ⟨_, hrun, -⟩ := hserves
    obtain ⟨_, _, _, -, -, -, -, -, rfl⟩ := extend_ok.mp hrun
    exact hsame rfl
  | endSession id dto ctx endedAt newId =>
    obtain ⟨_, _, hrun, -⟩ := hserves
    obtain ⟨_, due, paid, -, -, -, -, rfl, hset⟩ := endSession_ok.mp hrun
    rcases hset.ledger with heq | ⟨customerId, hlt, hid, heq⟩
    · exact hsame heq
    · rw [balance_congr (show _ = (append db _).debtTransactions from heq)]
      exact balance_append_nonneg hid h (add_nonneg (h _) (sub_nonneg.mpr hlt.le)) c
  | cancel id ctx now =>
    obtain ⟨_, hrun, -⟩ := hserves
    obtain ⟨_, -, -, -, rfl⟩ := cancel_ok.mp hrun
    exact hsame (by simp [save])
  | recordPayment input newId =>
    obtain ⟨_, hrun, -⟩ := hserves
    obtain ⟨magnitude, customer, -, -, -, -, hle, rfl, hid, rfl⟩ := recordPayment_ok.mp hrun
    exact balance_append_nonneg hid h (by dsimp only; linarith) c
  | correct customerId signedAmount actorId reason newId =>
    obtain ⟨_, hrun, -⟩ := hserves
    obtain ⟨value, hv, -, rfl, hid, -, rfl⟩ := correct_ok.mp hrun
    refine balance_append_nonneg hid h (add_nonneg (h _) ?_) c
    have hnum : 0 ≤ signedAmount.num := Rat.num_nonneg.mpr (not_lt.mp hq)
    show 0 ≤ value.value
    rw [fromMinor_num hv]
    exact hnum

/-! ### Runs -/

/-- No negative correction commits in a trace. -/
def NoNegativeCorrection (tr : Trace) : Prop :=
  ∀ i q a, Label.commit i q a ∈ tr → ¬ NegativeCorrection q

/-- **Without negative corrections no balance is negative.** -/
theorem balance_nonneg {db : Db} {tr : Trace} {c : State} (h : ∀ k, 0 ≤ db.balance k)
    (hrun : system.Run (Config.idle db) tr c) (htr : NoNegativeCorrection tr) (k : Uuid) :
    0 ≤ c.db.balance k := by
  induction hrun generalizing k with
  | nil => exact h k
  | snoc hr hstep ih =>
    have ih := ih fun i q a hm => htr i q a (List.mem_append_left _ hm)
    have hinv := (Discipline.inv_idle (D := discipline) db).run body_guarded hr
    rcases Discipline.step_db hinv hstep with heq | ⟨i, q, a, rfl, he⟩
    · rw [heq]; exact ih k
    · exact body_balance_nonneg he (htr i q a (by simp)) ih k

/-- **No entry of the ledger ever changes**: from any point of a run on, entries are only added at
its end. -/
theorem ledger_prefix {db : Db} {tr tr' : Trace} {c c' : State}
    (hrun : system.Run (Config.idle db) tr c) (hrun' : system.Run c tr' c') :
    c.db.debtTransactions.rows <+: c'.db.debtTransactions.rows := by
  have hinv := (Discipline.inv_idle (D := discipline) db).run body_guarded hrun
  induction hrun' with
  | nil => exact List.prefix_rfl
  | snoc hr hstep ih =>
    refine ih.trans ?_
    rcases Discipline.step_db (hinv.run body_guarded hr) hstep with heq | ⟨i, q, a, -, he⟩
    · rw [heq]
    · rcases body_changes he with hc | ⟨-, heq⟩
      · rcases change_ledger hc with heq | ⟨e, hid, heq, -⟩
        · rw [heq]
        · rw [heq, Table.rows_insert hid]
          exact List.prefix_append _ _
      · rw [heq]

/-- **The overpayment guard holds under concurrency.** However payments, corrections, session ends
and the other requests interleave: a payment is at most the balance it is committed on; as long as no
negative correction commits, no balance is negative; debts are positive and payments negative; and a
committed entry never changes. -/
theorem overpayment_guard {db : Db} (hsigns : SignsFit db) (hbalance : ∀ k, 0 ≤ db.balance k)
    {tr : Trace} {c : State} (hrun : system.Run (Config.idle db) tr c) :
    (∀ l c', system.Step c l c' → ∀ e ∈ c'.db.debtTransactions.rows,
      e ∉ c.db.debtTransactions.rows → e.type = .debtPayment →
        -e.signedAmount ≤ c.db.balance e.customerId) ∧
    (NoNegativeCorrection tr → ∀ k, 0 ≤ c.db.balance k) ∧
    SignsFit c.db ∧
    (∀ tr' c', system.Run c tr' c' →
      c.db.debtTransactions.rows <+: c'.db.debtTransactions.rows) :=
  ⟨fun _ _ hstep _ he hnew ht => payment_le_balance hrun hstep he hnew ht,
    fun htr => balance_nonneg hbalance hrun htr, run_invariant SignsFit SignsFit.change hsigns hrun,
    fun _ _ hrun' => ledger_prefix hrun hrun'⟩

/-! ### A payment between an end and a correction -/

/-- A customer with a debt, who plays. -/
def owing : Db :=
  { Db.empty with
    rooms := .single ⟨2, "VIP Zone", none, 15000, true, none⟩
    computers := .single ⟨1, "PC-01", 2, .inUse, none, true, none⟩
    customers := .single ⟨4, "Alisher", none, none, false, none⟩
    sessions := .single ⟨3, none, 1, 2, some 4, .openSession, .active, 15000, .epoch, none, none, 0, 0,
      some 9, none, none⟩
    debtTransactions := .single ⟨7, 4, .debtAdd, 5000, none, some 9, none⟩ }

theorem owing_balance (k : Uuid) : 0 ≤ owing.balance k := by
  by_cases hk : k = 4
  · subst hk
    decide
  · have hnil : owing.ledger k = [] := by simp [Db.ledger, owing, Ne.symm hk]
    rw [Db.balance, hnil]
    exact le_rfl

theorem owing_signsFit : SignsFit owing := by
  intro e he
  rw [List.mem_singleton.mp he]
  decide

/-- The session ends with a shortfall of 10000 while a payment comes. When the payment has summed the
ledger and inserted its entry, a correction waits for it. -/
def paymentSchedule : List (Choice Request) :=
  .begin 0 (.endSession ⟨3, 0⟩ .inPart ⟨9⟩ ⟨3600000, hour_valid⟩ 60) :: List.replicate 3 (.run 0) ++
    .begin 1 (.recordPayment ⟨4, 6000, none, some 9, none⟩ 61) :: List.replicate 3 (.run 0) ++
    .begin 2 (.correct 4 500 9 "Console fee" 62) :: List.replicate 3 (.run 1)

/-- No request of a label lowers a balance. -/
def lowersNothing : Label Stmt Thrown Request Reply → Bool
  | .commit _ (.correct _ signedAmount _ _ _) _ => decide (0 ≤ signedAmount)
  | _ => true

theorem noNegativeCorrection_of_all {tr : Trace} (h : tr.all lowersNothing = true) :
    NoNegativeCorrection tr := by
  intro i q a hmem hneg
  have hlabel := List.all_eq_true.mp h _ hmem
  cases q with
  | correct customerId signedAmount actorId reason newId =>
    exact absurd (of_decide_eq_true hlabel) (not_le.mpr hneg)
  | _ => exact hneg

/-- The amounts of the ledger, from the first entry to the last. -/
def amounts (db : Db) : List (DebtTransactionType × ℤ) :=
  db.debtTransactions.rows.map fun e => (e.type, e.signedAmount)

/-- The payment commits on the balance with the debt of the session, and the correction after it. -/
theorem overpayment_guard_waits : ∃ (tr : Trace) (c : State) (l : Label Stmt Thrown Request Reply)
    (c₁ : State) (tr' : Trace) (c' : State), system.Run (Config.idle owing) tr c ∧
      system.Waits c 2 1 ∧ system.Step c l c₁ ∧ system.Run c₁ tr' c' ∧ c.db.balance 4 = 15000 ∧
      amounts c'.db =
        [(.debtAdd, 5000), (.debtAdd, 10000), (.debtPayment, -6000), (.debtCorrection, 500)] ∧
      (∀ e ∈ c₁.db.debtTransactions.rows, e ∉ c.db.debtTransactions.rows → e.type = .debtPayment →
        -e.signedAmount ≤ c.db.balance e.customerId) ∧
      (∀ k, 0 ≤ c.db.balance k) ∧ SignsFit c.db ∧
      c.db.debtTransactions.rows <+: c'.db.debtTransactions.rows := by
  obtain ⟨tr, c, hrun, hbelow, hcheck⟩ := system.exists_run 3 (below_idle 3 owing) paymentSchedule
    (by decide) (fun x => x.1.all lowersNothing && system.heldUp x.2 2 1 &&
      decide (x.2.db.balance 4 = 15000) && (system.act 3 x.2 (.run 1)).any fun y =>
        (system.perform 3 [.run 2, .run 2] ([], y.2)).any fun z => decide (amounts z.2.db =
          [(.debtAdd, 5000), (.debtAdd, 10000), (.debtPayment, -6000), (.debtCorrection, 500)]))
    (by decide +kernel)
  obtain ⟨hcheck, hcommit⟩ := Bool.and_eq_true_iff.mp hcheck
  obtain ⟨hcheck, hbalance⟩ := Bool.and_eq_true_iff.mp hcheck
  obtain ⟨hlowers, hwaits⟩ := Bool.and_eq_true_iff.mp hcheck
  obtain ⟨⟨l, c₁⟩, hact, hafter⟩ := (Option.any_eq_true _ _).mp hcommit
  have hstep : system.Step c l c₁ := step_of_act hbelow hact
  obtain ⟨tr', c', hrun', -, hamounts⟩ := system.exists_run 3
    (below_of_act hbelow (by decide) hact) [.run 2, .run 2] (by decide) _ hafter
  obtain ⟨hpayment, hnonneg, hsigns, hprefix⟩ := overpayment_guard owing_signsFit owing_balance hrun
  exact ⟨tr, c, l, c₁, tr', c', hrun, waits_of_heldUp hwaits, hstep, hrun',
    of_decide_eq_true hbalance, of_decide_eq_true hamounts, hpayment l c₁ hstep,
    hnonneg (noNegativeCorrection_of_all hlowers), hsigns,
    hprefix _ _ ((System.Run.snoc .nil hstep).trans hrun')⟩

end GameClub.Debt
