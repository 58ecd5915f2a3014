import GameClub.Api.Server
import GameClub.Concurrency.Serial

/-! # Transactions and calls

A call of the sessions or debt service is a transaction, and its events after the commit. The
requests of the API make such calls at once, though the statements of their transactions interleave.

* `Request.op`: the call of a request. `call_commit`: what it does where its transaction commits.
* `Called`: calls one after another, for transactions that have committed.
* `interleavings_called`: the calls of the transactions that commit, in this order, leave the
  database that the interleaving leaves, and answer what the transactions return. -/

namespace GameClub.Concurrency

open GameClub.Lib GameClub.Lib.RowLock GameClub.Lib.Binary64 GameClub.Common GameClub.Store
open GameClub.Sessions
open GameClub.Services (World Service Op emitAfterChange announceDebtEntry)
open GameClub.Api (Returned callClub)

/-! ### Calls -/

/-- The service call of a request. -/
def Request.op : Request → Op
  | .start dto ctx startedAt randomUUID newIds => .start dto ctx startedAt randomUUID newIds
  | .extend id dto => .extend id dto
  | .endSession id dto ctx endedAt newId => .endSession id dto ctx endedAt newId
  | .cancel id ctx now => .cancel id ctx now
  | .recordPayment input newId => .recordPayment input newId
  | .correct customerId signedAmount actorId reason newId =>
    .correct customerId signedAmount actorId reason newId

/-- What the call returns when the transaction does. -/
def Reply.returned : Reply → Returned
  | .started created => .sessions created
  | .session s => .session s
  | .ended s _ => .session s
  | .entry e => .entry e

/-- The ledger entry that is announced. -/
def Reply.entry? : Reply → Option DebtTransaction
  | .ended _ debtEntry => debtEntry
  | .entry e => some e
  | .started _ | .session _ => none

/-- The balance that is announced can be read. -/
def Announceable (a : Reply) (db : Db) : Prop :=
  ∀ e, a.entry? = some e → |db.balance e.customerId| ≤ maxSafeInteger

/-- **The answer of a call** whose transaction has committed `db`: what the transaction returns, or
an error when the balance cannot be read. -/
structure Answers (a : Reply) (db : Db) (r : Except Thrown Returned) : Prop where
  ok : Announceable a db → r = .ok a.returned
  error : ¬ Announceable a db → ∃ e, r = .error e

theorem answers_ok {a : Reply} (h : a.entry? = none) (db : Db) : Answers a db (.ok a.returned) := by
  have hannounceable : Announceable a db := fun e he => by
    rw [h] at he
    cases he
  exact ⟨fun _ => rfl, fun hnot => absurd hannounceable hnot⟩

/-- A call that announces no balance returns what its transaction does. -/
theorem answers_call {α : Type} {x : Service α} {r : α} {f : α → Returned} {a : Reply} {w w' : World}
    (ha : a.entry? = none) (hr : f r = a.returned) (hcall : x.call w = (.ok r, w')) :
    (x.call w).2.db = w'.db ∧ Answers a w'.db (Api.answered x f w).1 := by
  have hreply : (Api.answered x f w).1 = .ok a.returned := by
    rw [Api.answered, hcall, ← hr]
    rfl
  rw [hreply, hcall]
  exact ⟨rfl, answers_ok ha w'.db⟩

/-- The balance is announced, and the call returns. -/
theorem answers_emitted {α : Type} {a : Reply} {e : DebtTransaction} {customerId : Uuid}
    {event : Services.DebtEvent → Services.DomainEvent} {r : α} {f : α → Returned} {w : World}
    (he : a.entry? = some e) (hcustomer : e.customerId = customerId) (hr : f r = a.returned) :
    Answers a w.db
      (((emitAfterChange customerId event e >>= fun _ => pure r : Service α).call w).1.map f) := by
  have hiff : Announceable a w.db ↔ |w.db.balance customerId| ≤ maxSafeInteger := by
    rw [← hcustomer]
    refine ⟨fun h => h e he, fun h e' he' => ?_⟩
    rw [he] at he'
    cases he'
    exact h
  rw [Service.call_bind]
  refine ⟨fun h => ?_, fun h => ?_⟩
  · unfold emitAfterChange
    rw [Service.call_bind, Services.call_getBalance_ok (hiff.mp h)]
    exact congrArg Except.ok hr
  · obtain ⟨error, herror⟩ := Services.emitAfterChange_rejects.mpr fun hle => h (hiff.mpr hle)
    rcases hcall : (emitAfterChange customerId event e).call w with ⟨_ | _, w'⟩
    · exact ⟨_, rfl⟩
    · rw [hcall] at herror
      cases herror

/-- **The call of a transaction that commits** leaves its database, and answers it. -/
theorem call_commit {q : Request} {a : Reply} {w : World} {db' : Db}
    (h : store.eval (body q) w.db = .ok (a, db')) :
    (w.step q.op).db = db' ∧ Answers a db' (callClub (.op q.op) w).1 := by
  cases q with
  | start dto ctx startedAt randomUUID newIds =>
    obtain ⟨created, db₁, hstart, hret⟩ := (Sem.eval_bind_ok _).mp h
    cases hret
    exact answers_call (a := .started created) (f := .sessions) rfl rfl
      (Services.call_start_ok hstart)
  | extend id dto =>
    obtain ⟨updated, db₁, hextend, hret⟩ := (Sem.eval_bind_ok _).mp h
    cases hret
    exact answers_call (a := .session updated) (f := .session) rfl rfl
      (Services.call_extend_ok hextend)
  | endSession id dto ctx endedAt newId =>
    obtain ⟨⟨saved, debt⟩, db₁, hend, hret⟩ := (Sem.eval_bind_ok _).mp h
    cases hret
    refine ⟨(Services.endSession_db w id dto ctx endedAt newId).trans
      (by rw [Sem.transaction_ok _ hend]), ?_⟩
    rw [Request.op, callClub, Api.answered, Services.endSession, Service.call_bind,
      Services.call_transaction_ok hend]
    dsimp only
    rw [Service.call_bind, Services.call_emit]
    dsimp only
    obtain ⟨session, due, paid, -, -, -, -, rfl, hset⟩ := endSession_ok.mp hend
    cases hset with
    | inFull heq => exact answers_ok (a := .ended _ none) rfl _
    | @booked customerId hlt hc hid hrow =>
      have hannounce : announceDebtEntry (endedSession session dto ctx endedAt due paid)
          (some (shortfallRow session ctx customerId newId due paid)) =
          emitAfterChange customerId .debtCreated
            (shortfallRow session ctx customerId newId due paid) := by
        have hcustomer : (endedSession session dto ctx endedAt due paid).customerId =
            some customerId := hc
        unfold announceDebtEntry
        rw [hcustomer]
        rfl
      rw [hannounce]
      exact answers_emitted (a := .ended _ (some _)) (w := ⟨_, _⟩) rfl rfl rfl
  | cancel id ctx now =>
    obtain ⟨result, db₁, hcancel, hret⟩ := (Sem.eval_bind_ok _).mp h
    cases hret
    exact answers_call (a := .session result) (f := .session) rfl rfl
      (Services.call_cancel_ok hcancel)
  | recordPayment input newId =>
    obtain ⟨entry, db₁, hpay, hret⟩ := (Sem.eval_bind_ok _).mp h
    cases hret
    refine ⟨(Services.recordPayment_db w input newId).trans (by rw [Sem.transaction_ok _ hpay]), ?_⟩
    rw [Request.op, callClub, Api.answered, Services.recordPayment, Service.call_bind,
      Services.call_transaction_ok hpay]
    obtain ⟨magnitude, customer, -, -, -, -, -, rfl, -, -⟩ := Debt.recordPayment_ok.mp hpay
    exact answers_emitted (a := .entry _) (w := ⟨db', w.events⟩) rfl rfl rfl
  | correct customerId signedAmount actorId reason newId =>
    obtain ⟨entry, db₁, hcorrect, hret⟩ := (Sem.eval_bind_ok _).mp h
    cases hret
    refine ⟨(Services.correct_db w customerId signedAmount actorId reason newId).trans
      (by rw [Sem.transaction_ok _ hcorrect]), ?_⟩
    rw [Request.op, callClub, Api.answered, Services.correct, Service.call_bind,
      Services.call_transaction_ok hcorrect]
    obtain ⟨value, -, -, rfl, -, -, -⟩ := Debt.correct_ok.mp hcorrect
    exact answers_emitted (a := .entry _) (w := ⟨db', w.events⟩) rfl rfl rfl

/-! ### Runs -/

/-- **Calls for commits**: for every transaction that has committed the call of its request, on the
world that the calls before it leave. -/
inductive Called (w : World) : List (Request × Reply) → World → Prop
  | nil : Called w [] w
  | call {cs : List (Request × Reply)} {w' : World} {q : Request} {a : Reply} (h : Called w cs w')
      (ha : Answers a (w'.perform (.op q.op)).db (callClub (.op q.op) w').1) :
      Called w (cs ++ [(q, a)]) (w'.perform (.op q.op))

theorem Called.invariant {w w' : World} {cs : List (Request × Reply)} (h : Called w cs w')
    {P : Op → Prop} {I : Db → Prop} (hI : ∀ (w : World) op, P op → I w.db → I (w.step op).db)
    (hP : ∀ x ∈ cs, P x.1.op) (h₀ : I w.db) : I w'.db := by
  induction h with
  | nil => exact h₀
  | @call cs w' q a h ha ih =>
    have hbefore : I w'.db := ih fun x hx => hP x (List.mem_append_left _ hx)
    exact hI w' q.op (hP (q, a) (by simp)) hbefore

/-- Transactions one after another have calls one after another. -/
theorem called_of_serial {w : World} {cs : List (Request × Reply)} {db' : Db}
    (h : system.Serial w.db cs db') : ∃ w', Called w cs w' ∧ w'.db = db' := by
  induction h with
  | nil => exact ⟨w, .nil, rfl⟩
  | snoc h he ih =>
    obtain ⟨w', hcalled, rfl⟩ := ih
    obtain ⟨hdb, hanswers⟩ := call_commit he
    have hperform : (w'.perform (.op _)).db = _ := hdb
    exact ⟨_, hcalled.call (hperform ▸ hanswers), hdb⟩

/-- **The calls account for the interleaving**: however the statements of the transactions
interleave, under row locks, with commits and rollbacks, from a database whose computers agree with
their sessions, the calls of those that commit, made one after another in this order, answer what the
transactions return and leave the same database; so what such calls keep, the interleaving keeps. -/
theorem interleavings_called {w : World} (h : ExclusiveKept w.db) {tr : Trace} {c : State}
    (hrun : system.Run (Config.idle w.db) tr c) :
    (∃ w', Called w (commits tr) w' ∧ w'.db = c.db) ∧
      ∀ (P : Op → Prop) (I : Db → Prop),
        (∀ (w : World) op, P op → I w.db → I (w.step op).db) →
        (∀ x ∈ commits tr, P x.1.op) → I w.db → I c.db := by
  obtain ⟨w', hcalled, hdb⟩ := called_of_serial (serial_of_run h hrun)
  refine ⟨⟨w', hcalled, hdb⟩, fun P I hI hP h₀ => ?_⟩
  rw [← hdb]
  exact hcalled.invariant hI hP h₀

/-- The calls of two starts that wait for each other and of what comes after them. -/
theorem interleavings_called_starts : ∃ (tr : Trace) (c : State) (tr' : Trace) (c' : State)
    (w' : World), system.Run (Config.idle twoComputers) tr c ∧ system.Waits c 0 1 ∧
      system.Waits c 1 0 ∧ system.Run c tr' c' ∧
      (commits (tr ++ tr')).map (fun x => told x.2) =
        [[(10, .active), (12, .active)], [(10, .cancelled)]] ∧
      Called ⟨twoComputers, []⟩ (commits (tr ++ tr')) w' ∧ w'.db = c'.db := by
  obtain ⟨tr, c, tr', c', hrun, hfirst, hsecond, hrun', htold⟩ := starts_resolved
  obtain ⟨⟨w', hcalled, hdb⟩, -⟩ := interleavings_called (w := ⟨twoComputers, []⟩)
    twoComputers_exclusive (hrun.trans hrun')
  exact ⟨tr, c, tr', c', w', hrun, hfirst, hsecond, hrun', htold, hcalled, hdb⟩

end GameClub.Concurrency
