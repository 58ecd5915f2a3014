import GameClub.Concurrency.Deadlock
import GameClub.Lib.Schedule
import GameClub.Lib.Serial
import GameClub.Sessions.Exclusive

/-! # Interleaved requests are serial

The locks leave one thing open that a program run alone depends on: the partial unique index on the
active sessions of a computer. Where the computers agree with their sessions no insert is refused by
it, because a start only inserts on a computer it has found `AVAILABLE` under its lock.

* `eval_of_lax`: with such computers a transaction that succeeds without the index succeeds with it.
* `interleavings_serial`: what interleaved requests can commit, they can commit one after another. -/

namespace GameClub.Concurrency

open GameClub.Lib GameClub.Lib.RowLock GameClub.Common GameClub.Store GameClub.Sessions

/-- The index refuses no insert on a free computer. -/
theorem exec_free {s : Stmt} {db : Db} (h : InsertsFree s db) :
    laxStore.exec s db = store.exec s db := by
  cases s with
  | insertSession row =>
    have hfree : db.activeOn row.computerId = [] := h row rfl
    show execInsertSession false row db = execInsertSession true row db
    unfold execInsertSession
    simp [hfree]
  | _ => rfl

theorem eval_of_lax (q : Request) {db : Db} (h : Coherent (· = .inUse) db) :
    laxStore.eval (body q) db = store.eval (body q) db :=
  Sem.eval_congr laxStore store rfl (fun _ _ => exec_free) (body_inserts_free q h)

/-- A transaction keeps the computers in agreement. -/
theorem body_coherent {q : Request} {a : Reply} {db db' : Db} (h : Coherent (· = .inUse) db)
    (he : laxStore.eval (body q) db = .ok (a, db')) : Coherent (· = .inUse) db' := by
  have hchange : ∀ {db db'}, Change db db' → Coherent (· = .inUse) db → Coherent (· = .inUse) db' :=
    fun hc => Coherent.change rfl (by decide) hc
  rcases body_changes he with hc | ⟨hc, -⟩
  · exact hchange hc h
  · exact changes_preserve _ hchange hc h

/-- An interleaved run is serial in the order of its commits. -/
theorem serial_of_run {db : Db} (h : ExclusiveKept db) {tr : Trace} {c : State}
    (hrun : system.Run (Config.idle db) tr c) : system.Serial db (commits tr) c.db := by
  refine (discipline.run_serial body_guarded (I := Coherent (· = .inUse)) ?_
    (exclusiveKept_iff.mp h) hrun).1
  intro q a db db' hcoh he
  exact ⟨(eval_of_lax q hcoh).symm.trans he, body_coherent hcoh he⟩

/-- **Interleaving adds nothing**: from a database whose computers agree with their sessions, requests
can be interleaved so that `cs` commit in this order, with these replies, and leave `db'` exactly when
they can be run alone one after another with the same replies and the same database in the end. -/
theorem interleavings_serial {db : Db} (h : ExclusiveKept db) (cs : List (Request × Reply))
    (db' : Db) : (∃ tr c, system.Run (Config.idle db) tr c ∧ commits tr = cs ∧ c.db = db') ↔
      system.Serial db cs db' := by
  constructor
  · rintro ⟨tr, c, hrun, rfl, rfl⟩
    exact serial_of_run h hrun
  · intro hserial
    obtain ⟨tr, hrun, hcommits⟩ := hserial.run
    exact ⟨tr, _, hrun, hcommits, rfl⟩

/-! ### Two starts that wait for each other -/

theorem twoComputers_exclusive : ExclusiveKept twoComputers := by
  intro id
  have hnil : twoComputers.activeOn id = [] := rfl
  rw [hnil]
  refine ⟨Nat.zero_le _, fun row hrow => ⟨fun h => (nomatch h), fun _ hstatus => ?_⟩⟩
  have hfree : ∀ c ∈ twoComputers.computers.rows, c.status ≠ .inUse := by decide
  exact absurd hstatus (hfree row (Table.mem_of_get? hrow).1)

/-- Each start has one of the two computers. -/
def deadlockSchedule : List (Choice Request) :=
  [.begin 0 abStart, .begin 1 (otherStart startBA)] ++
    (List.replicate 4 [Choice.run 0, .run 1]).flatten

/-- The second start is aborted and the first commits. Then one of its sessions is cancelled, while an
end of it waits. -/
def brokenSchedule : List (Choice Request) :=
  .abort 1 :: List.replicate 5 (.run 0) ++ [.begin 2 (.cancel ⟨10, 0⟩ ⟨9⟩ .epoch), .run 2, .run 2,
    .begin 3 (.endSession ⟨10, 0⟩ .inFull ⟨9⟩ .epoch 60)] ++ List.replicate 3 (.run 2) ++ [.run 3]

/-- The sessions a reply tells of. -/
def told : Reply → List (Uuid × SessionStatus)
  | .started created => created.map fun s => (s.id, s.status)
  | .session s => [(s.id, s.status)]
  | .ended s _ => [(s.id, s.status)]
  | .entry _ => []

theorem starts_resolved : ∃ (tr : Trace) (c : State) (tr' : Trace) (c' : State),
    system.Run (Config.idle twoComputers) tr c ∧ system.Waits c 0 1 ∧ system.Waits c 1 0 ∧
      system.Run c tr' c' ∧ (commits (tr ++ tr')).map (fun x => told x.2) =
        [[(10, .active), (12, .active)], [(10, .cancelled)]] := by
  obtain ⟨tr, c, hrun, hbelow, hcheck⟩ := system.exists_run 4 (below_idle 4 twoComputers)
    deadlockSchedule (by decide) (fun x => system.heldUp x.2 0 1 && system.heldUp x.2 1 0 &&
      (system.perform 4 brokenSchedule ([], x.2)).any fun y =>
        decide ((commits (x.1 ++ y.1)).map (fun x => told x.2) =
          [[(10, .active), (12, .active)], [(10, .cancelled)]]))
    (by decide +kernel)
  obtain ⟨hcheck, hmore⟩ := Bool.and_eq_true_iff.mp hcheck
  obtain ⟨hfirst, hsecond⟩ := Bool.and_eq_true_iff.mp hcheck
  obtain ⟨tr', c', hrun', -, htold⟩ := system.exists_run 4 hbelow brokenSchedule (by decide) _ hmore
  exact ⟨tr, c, tr', c', hrun, waits_of_heldUp hfirst, waits_of_heldUp hsecond, hrun',
    of_decide_eq_true htold⟩

/-- What is left of the two starts, one request after another. -/
theorem interleavings_serial_starts : ∃ (tr : Trace) (c : State) (tr' : Trace) (c' : State),
    system.Run (Config.idle twoComputers) tr c ∧ system.Waits c 0 1 ∧ system.Waits c 1 0 ∧
      system.Run c tr' c' ∧ (commits (tr ++ tr')).map (fun x => told x.2) =
        [[(10, .active), (12, .active)], [(10, .cancelled)]] ∧
      system.Serial twoComputers (commits (tr ++ tr')) c'.db := by
  obtain ⟨tr, c, tr', c', hrun, hfirst, hsecond, hrun', htold⟩ := starts_resolved
  exact ⟨tr, c, tr', c', hrun, hfirst, hsecond, hrun', htold,
    (interleavings_serial twoComputers_exclusive _ _).mp ⟨_, c', hrun.trans hrun', rfl, rfl⟩⟩

end GameClub.Concurrency
