import GameClub.Concurrency.Locking
import GameClub.Lib.Schedule
import GameClub.Sessions.Occupancy

/-! # Exclusive computers

A start locks a computer before it inserts a session on it, and an end or a cancellation locks the
session before its computer. Inside a transaction computers and sessions disagree; at every commit
they agree again.

* `sessions_exclusive`: at most one session on a computer in every committed database, the status of
  the computers, and no start on its way to a second session.
* `exclusive_fails_removed`: a computer that was removed stays `IN_USE` when its session is closed,
  because `releaseComputer` does not find it. -/

namespace GameClub.Sessions

open GameClub.Lib GameClub.Lib.RowLock GameClub.Common GameClub.Store GameClub.Concurrency

/-! ### What a start inserts -/

/-- A session is inserted on a computer that has none. -/
def InsertsFree (s : Stmt) (db : Db) : Prop :=
  ∀ row, s = .insertSession row → db.activeOn row.computerId = []

/-- A statement other than the insert of a session. -/
def NoInsert (s : Stmt) : Prop := ∀ row, s ≠ .insertSession row

theorem NoInsert.insertsFree {s : Stmt} {db : Db} (h : NoInsert s) : InsertsFree s db :=
  fun row hs => absurd hs (h row)

section Sends

theorem sends_resolveCustomer (customerId : Option UuidText) :
    (resolveCustomer customerId).Sends NoInsert := by
  cases customerId with
  | none => trivial
  | some id =>
    refine Prog.Sends.bind (Prog.sends_stmt (by simp [NoInsert])) fun r => ?_
    split
    · trivial
    · split_ifs <;> trivial

theorem sends_lockActive (id : UuidText) : (lockActive id).Sends NoInsert := by
  refine Prog.Sends.bind (Prog.sends_stmt (by simp [NoInsert])) fun r => ?_
  split
  · trivial
  · split_ifs <;> trivial

theorem sends_releaseComputer (id : Uuid) : (releaseComputer id).Sends NoInsert := by
  refine Prog.Sends.bind (Prog.sends_stmt (by simp [NoInsert])) fun r => ?_
  split
  · trivial
  · split_ifs
    · exact Prog.sends_stmt (by simp [NoInsert])
    · trivial

theorem sends_insertDebt (row : DebtTransaction) : (insertDebt row).Sends NoInsert :=
  Prog.sends_stmt (by simp [NoInsert])

theorem sends_settle {session : Session} {dto : EndSessionDto} {ctx : ActorContext}
    {endedAt : Instant} {newId : Uuid} {due paid : Money} :
    (settle session dto ctx endedAt newId due paid).Sends NoInsert := by
  unfold settle
  split_ifs
  · trivial
  · refine Prog.Sends.bind (Prog.sends_lift _) fun shortfall => ?_
    split_ifs
    · trivial
    · refine Prog.Sends.bind (Prog.sends_stmt (by simp [NoInsert])) fun saved => ?_
      split
      · refine Prog.Sends.bind (Prog.Sends.bind (Prog.sends_lift _) fun magnitude => ?_) fun debt =>
          Prog.Sends.bind (sends_releaseComputer _) fun _ => trivial
        split_ifs
        · trivial
        · exact sends_insertDebt _
      · exact Prog.Sends.bind (sends_releaseComputer _) fun _ => trivial

end Sends

/-- A part that inserts no session, and the rest. -/
theorem inserts_free_bind {α β : Type} {p : Txn α} {f : α → Txn β} {db : Db} (hp : p.Sends NoInsert)
    (h : ∀ a db', laxStore.eval p db = .ok (a, db') →
      laxStore.Meets InsertsFree (f a) (fun _ _ => True) db') :
    laxStore.Meets InsertsFree (p >>= f) (fun _ _ => True) db :=
  Sem.Meets.bind (Sem.Meets.and_eval (Sem.Meets.of_sends hp fun _ _ hs => hs.insertsFree) h)

theorem inserts_free_of_sends {α : Type} {p : Txn α} {db : Db} (hp : p.Sends NoInsert) :
    laxStore.Meets InsertsFree p (fun _ _ => True) db :=
  Sem.Meets.of_sends hp fun _ _ hs => hs.insertsFree

/-- A start inserts its session when the computer is available, and so has none. -/
theorem startOne_inserts_free {dto : StartSessionDto} {ctx : ActorContext} {startedAt : Instant}
    {groupId : Option Uuid} {customer : Option Customer} {computerId : UuidText} {newId : Uuid}
    {db : Db} (h : Coherent (· = .inUse) db) : laxStore.Meets InsertsFree
      (startOne dto ctx startedAt groupId customer computerId newId) (fun _ _ => True) db := by
  refine inserts_free_bind (Prog.sends_stmt (by simp [NoInsert])) fun found _ hfound => ?_
  obtain ⟨rfl, rfl⟩ := lockComputer_ok.mp hfound
  split
  · trivial
  · next computer hcomputer =>
    split_ifs with hbusy
    · trivial
    · refine inserts_free_bind (Prog.sends_stmt (by simp [NoInsert])) fun _ _ hroom => ?_
      obtain ⟨rfl, rfl⟩ := findRoom_ok.mp hroom
      split
      · trivial
      · refine inserts_free_bind (Prog.sends_lift _) fun plan _ hplan => ?_
        obtain ⟨-, rfl⟩ := (Sem.eval_lift_ok _).mp hplan
        refine inserts_free_bind (Prog.sends_lift _) fun plannedEndAt _ hdate => ?_
        obtain ⟨-, rfl⟩ := (Sem.eval_lift_ok _).mp hdate
        refine ⟨fun row hrow => ?_, fun saved ws _ => ?_⟩
        · cases hrow
          obtain ⟨hrow, -⟩ := Db.findComputer_eq_some.mp hcomputer
          have hcomp := Table.get?_of_mem (Table.mem_of_get? hrow).1
          refine activeOn_eq_nil.mpr fun hb => hbusy (Or.inr ?_)
          rw [h.busy hcomp hb]
          decide
        · show laxStore.Meets InsertsFree
            (updateComputerStatus computer.id .inUse >>= fun _ => pure saved) _ _
          exact inserts_free_of_sends
            (Prog.Sends.bind (Prog.sends_stmt (by simp [NoInsert])) fun _ => trivial)

theorem startOne_coherent {dto : StartSessionDto} {ctx : ActorContext} {startedAt : Instant}
    {groupId : Option Uuid} {customer : Option Customer} {computerId : UuidText} {newId : Uuid}
    {s : Session} {db db' : Db} (h : Coherent (· = .inUse) db) (he : laxStore.eval
      (startOne dto ctx startedAt groupId customer computerId newId) db = .ok (s, db')) :
    Coherent (· = .inUse) db' :=
  Coherent.change rfl (by decide) (startOne_change he) h

/-- By induction on the computers of the group. -/
theorem startAll_inserts_free {dto : StartSessionDto} {ctx : ActorContext} {startedAt : Instant}
    {groupId : Option Uuid} {customer : Option Customer} {ids : List (UuidText × Uuid)} {db : Db}
    (h : Coherent (· = .inUse) db) : laxStore.Meets InsertsFree
      (startAll dto ctx startedAt groupId customer ids) (fun _ _ => True) db := by
  induction ids generalizing db with
  | nil => trivial
  | cons x rest ih =>
    refine Sem.Meets.bind (Sem.Meets.and_eval (startOne_inserts_free h) fun saved db' he => ?_)
    exact Sem.Meets.bind ((ih (startOne_coherent h he)).mono fun _ _ _ => trivial)

/-- **No transaction run alone inserts a second session on a computer.** -/
theorem body_inserts_free (q : Request) {db : Db} (h : Coherent (· = .inUse) db) :
    laxStore.Meets InsertsFree (body q) (fun _ _ => True) db := by
  cases q with
  | start dto ctx startedAt randomUUID newIds =>
    refine Sem.Meets.bind ?_
    refine (inserts_free_bind (sends_resolveCustomer _) fun customer db' he => ?_).mono
      fun _ _ _ => trivial
    obtain ⟨rfl, -⟩ := resolveCustomer_ok.mp he
    exact startAll_inserts_free h
  | extend id dto =>
    refine inserts_free_of_sends (Prog.Sends.bind ?_ fun _ => trivial)
    refine Prog.Sends.bind (sends_lockActive id) fun session => ?_
    refine Prog.Sends.bind (Prog.sends_lift _) fun plan => ?_
    refine Prog.Sends.bind (Prog.sends_lift _) fun plannedEndAt => ?_
    exact Prog.sends_stmt (by simp [NoInsert])
  | endSession id dto ctx endedAt newId =>
    refine inserts_free_of_sends (Prog.Sends.bind ?_ fun _ => trivial)
    refine Prog.Sends.bind (sends_lockActive id) fun session => ?_
    refine Prog.Sends.bind (Prog.sends_lift _) fun due => ?_
    exact Prog.Sends.bind (Prog.sends_lift _) fun paid => sends_settle
  | cancel id ctx now =>
    refine inserts_free_of_sends (Prog.Sends.bind ?_ fun _ => trivial)
    refine Prog.Sends.bind (sends_lockActive id) fun session => ?_
    refine Prog.Sends.bind (Prog.sends_stmt (by simp [NoInsert])) fun saved => ?_
    exact Prog.Sends.bind (sends_releaseComputer _) fun _ => trivial
  | recordPayment input newId =>
    refine inserts_free_of_sends (Prog.Sends.bind ?_ fun _ => trivial)
    refine Prog.Sends.bind (Prog.sends_lift _) fun magnitude => ?_
    split_ifs
    · trivial
    · refine Prog.Sends.bind (Prog.sends_stmt (by simp [NoInsert])) fun found => ?_
      split
      · trivial
      · refine Prog.Sends.bind (Prog.Sends.bind (Prog.sends_stmt (by simp [NoInsert]))
          fun sum => Prog.sends_lift _) fun balance => ?_
        split_ifs
        · trivial
        · exact sends_insertDebt _
  | correct customerId signedAmount actorId reason newId =>
    refine inserts_free_of_sends (Prog.Sends.bind ?_ fun _ => trivial)
    refine Prog.Sends.bind (Prog.sends_lift _) fun value => ?_
    split_ifs
    · trivial
    · exact sends_insertDebt _

/-! ### Exclusive computers -/

/-- Every computer has at most one `ACTIVE` session and is `IN_USE` exactly when it has one. -/
def Exclusive (db : Db) : Prop := ∀ id, (db.activeOn id).length ≤ 1 ∧
  ∀ row, db.computers.get? id = some row →
    (row.status = .inUse ↔ (db.activeOn id).length = 1)

/-- The same but for removed computers, which may be `IN_USE` without a session. -/
def ExclusiveKept (db : Db) : Prop := ∀ id, (db.activeOn id).length ≤ 1 ∧
  ∀ row, db.computers.get? id = some row →
    ((db.activeOn id).length = 1 → row.status = .inUse) ∧
    (row.deletedAt = none → row.status = .inUse → (db.activeOn id).length = 1)

theorem exclusiveKept_iff {db : Db} : ExclusiveKept db ↔ Coherent (· = .inUse) db := by
  have hbusy : AtMostOne db → ∀ {id}, Busy db id ↔ (db.activeOn id).length = 1 := by
    intro hone id
    have hle := hone.length_le id
    rw [busy_iff_activeOn, ← List.length_pos_iff_ne_nil]
    omega
  constructor
  · intro h
    have hone : AtMostOne db := atMostOne_of_length fun id => (h id).1
    exact ⟨hone, fun hc hb => ((h _).2 _ hc).1 ((hbusy hone).mp hb),
      fun hc hdel hs => (hbusy hone).mpr (((h _).2 _ hc).2 hdel hs)⟩
  · intro h id
    exact ⟨h.atMostOne.length_le id, fun row hc =>
      ⟨fun hl => h.busy hc ((hbusy h.atMostOne).mpr hl),
        fun hdel hs => (hbusy h.atMostOne).mp (h.inUse hc hdel hs)⟩⟩

/-! ### Removed computers -/

/-- The session of a computer that was removed while in use. -/
def removedSession : Session :=
  ⟨3, none, 1, 2, none, .openSession, .active, 15000, .epoch, none, none, 0, 0, some 9, none,
    none⟩

/-- A session on a computer that was removed while in use. -/
def removedInUse : Db :=
  { Db.empty with
    rooms := .single ⟨2, "VIP Zone", none, 15000, true, none⟩
    computers := .single ⟨1, "PC-01", 2, .inUse, none, true, some .epoch⟩
    sessions := .single removedSession }

theorem removedInUse_exclusive : Exclusive removedInUse := by
  intro id
  by_cases hid : id = 1
  · subst hid
    exact ⟨by decide, fun row hrow => by cases hrow; decide⟩
  · have hnil : removedInUse.activeOn id = [] := by
      simp [Db.activeOn, removedInUse, removedSession, Ne.symm hid]
    have hnone : removedInUse.computers.get? id = none := by
      simp [Table.get?, removedInUse, Ne.symm hid]
    exact ⟨by simp [hnil], fun row hrow => by rw [hnone] at hrow; cases hrow⟩

theorem Exclusive.kept {db : Db} (h : Exclusive db) : ExclusiveKept db := fun id =>
  ⟨(h id).1, fun row hrow => ⟨((h id).2 row hrow).mpr, fun _ => ((h id).2 row hrow).mp⟩⟩

/-- The session is cancelled. -/
theorem removedInUse_cancel : ∃ tr, system.Run (Config.idle removedInUse) tr (Config.idle
    (release (save removedInUse
      { removedSession with
        status := .cancelled
        endedAt := some .epoch
        amountDue := 0
        amountPaid := 0
        endedBy := some 9 }) 1)) := by
  have hcancel : store.eval (cancel ⟨3, 0⟩ ⟨9⟩ .epoch) removedInUse = .ok (_, _) :=
    cancel_ok.mpr ⟨removedSession, rfl, rfl, rfl, rfl⟩
  obtain ⟨tr, hrun⟩ := system.run_alone (q := .cancel ⟨3, 0⟩ ⟨9⟩ .epoch)
    ((Sem.eval_bind_ok _).mpr ⟨_, _, hcancel, rfl⟩)
  exact ⟨_, hrun⟩

/-! ### Runs -/

theorem run_coherent {db : Db} (h : Coherent (· = .inUse) db) {tr : Trace} {c : State}
    (hrun : system.Run (Config.idle db) tr c) : Coherent (· = .inUse) c.db :=
  run_invariant (Coherent (· = .inUse)) (fun hc => Coherent.change rfl (by decide) hc) h hrun

/-- **Session requests keep computers exclusive** under any interleaving: in every committed database
no computer has two sessions, one that has a session is `IN_USE`, and one that is `IN_USE` and not
removed has one; and when a start is about to insert a session, neither the committed database with
its own writes nor any transaction in flight has a session on that computer. -/
theorem sessions_exclusive {db : Db} (h : ExclusiveKept db) {tr : Trace} {c : State}
    (hrun : system.Run (Config.idle db) tr c) :
    ExclusiveKept c.db ∧
    ∀ i t row k, c.txs i = some t → t.rest = .call (.insertSession row) k →
      (system.view c t).activeOn row.computerId = [] ∧
      ∀ j t', j ≠ i → c.txs j = some t' → ∀ row', Write.insertSession row' ∈ t'.log →
        row'.computerId ≠ row.computerId := by
  have hcoh := run_coherent (exclusiveKept_iff.mp h) hrun
  have hinv := (Discipline.inv_idle (D := discipline) db).run body_guarded hrun
  refine ⟨exclusiveKept_iff.mpr hcoh, fun i t row k hi hrest => ⟨?_, ?_⟩⟩
  · have hmeets := (hinv.replay hi).meets (body_inserts_free t.req hcoh)
    rw [hrest] at hmeets
    exact hmeets.1 row rfl
  · intro j t' hne hj row' hlog heq
    -- this start holds the computer, and the other its foreign key lock on it
    have hg := hinv.guarded hi
    rw [hrest] at hg
    have hheld : ⟨.computer row.computerId, .update⟩ ∈ t.held := hg.1
    have hheld' : ⟨.computer row'.computerId, .keyShare⟩ ∈ t'.held :=
      (hinv.replay hj).needs _ hlog (by simp [discipline, needs])
    exact hinv.compatible hne.symm hi hj _ hheld _ hheld' ⟨by rw [heq], rfl⟩

/-- Another computer of the room, which is free. -/
def twoStarts : Db :=
  { removedInUse with
    computers := removedInUse.computers.insert ⟨5, "PC-05", 2, .available, none, true, none⟩ }

theorem twoStarts_exclusive : ExclusiveKept twoStarts := by
  intro id
  by_cases hid : id = 5
  · subst hid
    exact ⟨by decide, fun row hrow => by cases hrow; decide⟩
  · have hother : twoStarts.computers.get? id = removedInUse.computers.get? id := by
      exact Table.get?_insert_ne hid
    have hkept := removedInUse_exclusive.kept id
    exact ⟨hkept.1, fun row hrow => hkept.2 row (hother ▸ hrow)⟩

/-- A start of a session of its own on the free computer. -/
def startFree (newId : Uuid) : Request := .start (.openOn ⟨5, 0⟩) ⟨9⟩ .epoch newId fun _ => newId

/-- One start is about to insert its session, another waits for it, and the session on the removed
computer is being cancelled. -/
def insertSchedule : List (Choice Request) :=
  [.begin 0 (.cancel ⟨3, 0⟩ ⟨9⟩ .epoch), .begin 1 (startFree 10), .begin 2 (startFree 20), .run 0,
    .run 1, .run 0, .run 1]

/-- The cancellation and the first start run to their ends, and the second start finds the computer in
use. -/
def afterInsert : List (Choice Request) :=
  [.run 0, .run 1, .run 0, .run 1, .run 1, .run 2]

def inserts (t : Tx Res Thrown Write RowId Request Reply) : Bool :=
  match t.rest with
  | .call (.insertSession _) _ => true
  | _ => false

theorem rest_of_inserts {t : Tx Res Thrown Write RowId Request Reply} (h : inserts t = true) :
    ∃ (row : Session) (k : Session → Txn Reply), t.rest = .call (.insertSession row) k := by
  unfold inserts at h
  split at h
  · next row k hrest => exact ⟨row, k, hrest⟩
  · cases h

/-- The sessions by their computers. -/
def seats (db : Db) : List (Uuid × SessionStatus) :=
  db.sessions.rows.map fun s => (s.computerId, s.status)

/-- Only the first start gets the computer. -/
theorem sessions_exclusive_starts : ∃ (tr : Trace) (c : State)
    (t : Tx Res Thrown Write RowId Request Reply) (row : Session) (k : Session → Txn Reply)
    (tr' : Trace) (c' : State), system.Run (Config.idle twoStarts) tr c ∧ system.Waits c 2 1 ∧
      c.txs 1 = some t ∧ t.rest = .call (.insertSession row) k ∧
      (system.view c t).activeOn row.computerId = [] ∧ system.Run c tr' c' ∧
      seats c'.db = [(1, .cancelled), (5, .active)] ∧ ExclusiveKept c'.db := by
  obtain ⟨tr, c, hrun, hbelow, hcheck⟩ := system.exists_run 3 (below_idle 3 twoStarts) insertSchedule
    (by decide) (fun x => system.heldUp x.2 2 1 && (x.2.txs 1).any inserts &&
      (system.perform 3 afterInsert ([], x.2)).any fun y =>
        decide (seats y.2.db = [(1, .cancelled), (5, .active)]))
    (by decide +kernel)
  obtain ⟨hcheck, hmore⟩ := Bool.and_eq_true_iff.mp hcheck
  obtain ⟨hwaits, hinserts⟩ := Bool.and_eq_true_iff.mp hcheck
  obtain ⟨t, ht, hrest⟩ := (Option.any_eq_true _ _).mp hinserts
  obtain ⟨row, k, hrest⟩ := rest_of_inserts hrest
  obtain ⟨tr', c', hrun', -, hrows⟩ := system.exists_run 3 hbelow afterInsert (by decide) _ hmore
  exact ⟨tr, c, t, row, k, tr', c', hrun, waits_of_heldUp hwaits, ht, hrest,
    ((sessions_exclusive twoStarts_exclusive hrun).2 1 t row k ht hrest).1, hrun',
    of_decide_eq_true hrows, (sessions_exclusive twoStarts_exclusive (hrun.trans hrun')).1⟩

/-- **Closing the session of a removed computer leaves it `IN_USE`.** -/
theorem exclusive_fails_removed : Exclusive removedInUse ∧ ∃ tr c,
    system.Run (Config.idle removedInUse) tr c ∧ ¬ Exclusive c.db := by
  obtain ⟨tr, hrun⟩ := removedInUse_cancel
  refine ⟨removedInUse_exclusive, tr, _, hrun, fun h => ?_⟩
  have hone := ((h 1).2 _ rfl).mp rfl
  revert hone
  decide

end GameClub.Sessions
