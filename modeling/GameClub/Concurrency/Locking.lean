import GameClub.Sessions.Changes

/-! # Concurrent requests

The requests of the sessions and debt services as transactions under READ COMMITTED, and their
locking discipline.

* `system`: the requests and the locks of their statements.
* `discipline`: what a transaction can rely on while others commit. A row it has locked does not
  change, and neither does the balance of a customer whose row it has locked, because an insert into
  the ledger locks the row of its customer too.
* `body_guarded`: every transaction keeps to it. -/

namespace GameClub.Concurrency

open GameClub.Lib GameClub.Lib.RowLock GameClub.Common GameClub.Store GameClub.Sessions

/-! ### Requests -/

/-- A request, with the time it arrives at and the ids generated for its rows. -/
inductive Request
  | start (dto : StartSessionDto) (ctx : ActorContext) (startedAt : Instant) (randomUUID : Uuid)
      (newIds : ℕ → Uuid)
  | extend (id : UuidText) (dto : ExtendSessionDto)
  | endSession (id : UuidText) (dto : EndSessionDto) (ctx : ActorContext) (endedAt : Instant)
      (newId : Uuid)
  | cancel (id : UuidText) (ctx : ActorContext) (now : Instant)
  | recordPayment (input : Debt.LedgerEntryInput) (newId : Uuid)
  | correct (customerId : Uuid) (signedAmount : Number) (actorId : Uuid) (reason : String)
      (newId : Uuid)

inductive Reply
  | started (created : List Session)
  | session (s : Session)
  | ended (s : Session) (debtEntry : Option DebtTransaction)
  | entry (e : DebtTransaction)

/-- The transaction of a request. -/
def body : Request → Txn Reply
  | .start dto ctx startedAt randomUUID newIds => do
    let created ← start dto ctx startedAt randomUUID newIds
    pure (.started created)
  | .extend id dto => do
    let updated ← extend id dto
    pure (.session updated)
  | .endSession id dto ctx endedAt newId => do
    let result ← endSession id dto ctx endedAt newId
    pure (.ended result.1 result.2)
  | .cancel id ctx now => do
    let result ← cancel id ctx now
    pure (.session result)
  | .recordPayment input newId => do
    let entry ← Debt.recordPayment input newId
    pure (.entry entry)
  | .correct customerId signedAmount actorId reason newId => do
    let entry ← Debt.correct customerId signedAmount actorId reason newId
    pure (.entry entry)

/-- The database with its row locks, serving requests. -/
def system : System Res Thrown Db Write RowId Request Reply where
  toSem := store
  locks := stmtLocks
  body := body

/-! ### What locks protect -/

/-- A computer but for its status. -/
def core (c : Computer) : Computer := { c with status := .available }

/-- **What a holder of the locks `L` cannot tell apart**: the rows it has locked, the ledgers of the
customers it has locked, and whatever no request changes. -/
structure Same (L : List (Lock RowId)) (db db' : Db) : Prop where
  rooms : db.rooms = db'.rooms
  customers : db.customers = db'.customers
  computers : ∀ id, (db.computers.get? id).map core = (db'.computers.get? id).map core
  computer : ∀ {id mode}, ⟨.computer id, mode⟩ ∈ L → mode ≠ .keyShare →
    db.computers.get? id = db'.computers.get? id
  session : ∀ {id mode}, ⟨.session id, mode⟩ ∈ L → mode ≠ .keyShare →
    db.sessions.get? id = db'.sessions.get? id
  debt : ∀ {id mode}, ⟨.debt id, mode⟩ ∈ L → mode ≠ .keyShare →
    db.debtTransactions.get? id = db'.debtTransactions.get? id
  balance : ∀ {c}, ⟨.customer c, .update⟩ ∈ L → db.balance c = db'.balance c

/-- The locks that protect what a write changes. -/
def needs : Write → List (Lock RowId)
  | .insertSession row => [⟨.session row.id, .update⟩, ⟨.computer row.computerId, .keyShare⟩]
  | .updateSession row => [⟨.session row.id, .noKeyUpdate⟩]
  | .computerStatus id _ => [⟨.computer id, .noKeyUpdate⟩]
  | .insertDebt row => [⟨.debt row.id, .update⟩, ⟨.customer row.customerId, .keyShare⟩]

/-- A row is saved under the lock it was found with, and a session inserted under the lock of its
computer. -/
def Expects : Stmt → List (Lock RowId) → Prop
  | .insertSession row, L => ⟨.computer row.computerId, .update⟩ ∈ L
  | .updateSession row, L => ⟨.session row.id, .update⟩ ∈ L
  | .updateComputerStatus id _, L => ⟨.computer id, .update⟩ ∈ L
  | _, _ => True

theorem guards {s : Stmt} {db : Db} {r : Res s} {ws : List Write}
    (h : store.exec s db = .ok (r, ws)) : ∀ w ∈ ws, needs w ⊆ stmtLocks s db := by
  cases s with
  | insertSession row =>
    obtain ⟨-, -, -, -, he⟩ := execInsertSession_ok.mp h
    cases he
    simp [needs, stmtLocks]
  | insertDebt row =>
    obtain ⟨-, -, he⟩ := execInsertDebt_ok.mp h
    cases he
    simp [needs, stmtLocks]
  | updateSession row => cases h; simp [needs, stmtLocks]
  | updateComputerStatus id status => cases h; simp [needs, stmtLocks]
  | _ => cases h; simp

theorem Same.refl (L : List (Lock RowId)) (db : Db) : Same L db db :=
  ⟨rfl, rfl, fun _ => rfl, fun _ _ => rfl, fun _ _ => rfl, fun _ _ => rfl, fun _ => rfl⟩

theorem Same.trans {L : List (Lock RowId)} {db₁ db₂ db₃ : Db} (h : Same L db₁ db₂)
    (h' : Same L db₂ db₃) : Same L db₁ db₃ where
  rooms := h.rooms.trans h'.rooms
  customers := h.customers.trans h'.customers
  computers id := (h.computers id).trans (h'.computers id)
  computer hl hm := (h.computer hl hm).trans (h'.computer hl hm)
  session hl hm := (h.session hl hm).trans (h'.session hl hm)
  debt hl hm := (h.debt hl hm).trans (h'.debt hl hm)
  balance hl := (h.balance hl).trans (h'.balance hl)

theorem Same.mono {L L' : List (Lock RowId)} {db db' : Db} (hL : L ⊆ L') (h : Same L' db db') :
    Same L db db' where
  rooms := h.rooms
  customers := h.customers
  computers := h.computers
  computer hl := h.computer (hL hl)
  session hl := h.session (hL hl)
  debt hl := h.debt (hL hl)
  balance hl := h.balance (hL hl)

theorem map_core_setStatus (db : Db) (id k : Uuid) (status : ComputerStatus) :
    ((db.setStatus id status).computers.get? k).map core = (db.computers.get? k).map core := by
  rw [setStatus_get?]
  split_ifs with hk
  · rw [hk]
    cases db.computers.get? id <;> rfl
  · rfl

/-- A set row and the status of a computer do not count for a balance. -/
theorem balance_setStatus (db : Db) (id c : Uuid) (status : ComputerStatus) :
    (db.setStatus id status).balance c = db.balance c := by
  simp [Db.balance, Db.ledger]

/-- The balances after an entry is added, whether or not its id is free. -/
theorem balance_insertDebt_congr {row : DebtTransaction} {db db' : Db} {c : Uuid}
    (hid : db.debtTransactions.get? row.id = db'.debtTransactions.get? row.id)
    (h : db.balance c = db'.balance c) :
    (applyWrite (.insertDebt row) db).balance c = (applyWrite (.insertDebt row) db').balance c := by
  by_cases hn : db.debtTransactions.get? row.id = none
  · rw [balance_insertDebt hn, balance_insertDebt (hid ▸ hn), h]
  · have hn' := hid ▸ hn
    simp only [applyWrite, Table.insert_of_mem hn, Table.insert_of_mem hn']
    exact h

/-- **A transaction sees its own writes the same.** -/
theorem Same.own {L : List (Lock RowId)} {w : Write} {db db' : Db} (hw : needs w ⊆ L)
    (h : Same L db db') : Same L (applyWrite w db) (applyWrite w db') := by
  cases w with
  | insertSession row =>
    refine ⟨h.rooms, h.customers, h.computers, h.computer, fun {id mode} hl hm => ?_, h.debt,
      h.balance⟩
    simp only [applyWrite, Table.get?_insert, h.session hl hm]
  | updateSession row =>
    refine ⟨h.rooms, h.customers, h.computers, h.computer, fun {id mode} hl hm => ?_, h.debt,
      h.balance⟩
    simp only [applyWrite, Table.get?_set, h.session hl hm]
  | computerStatus id status =>
    have hmem : (⟨.computer id, .noKeyUpdate⟩ : Lock RowId) ∈ L := hw (by simp [needs])
    have hid : db.computers.get? id = db'.computers.get? id := h.computer hmem (by decide)
    refine ⟨?_, ?_, fun k => ?_, fun {k mode} hl hm => ?_, ?_, ?_, ?_⟩
    · simpa [applyWrite] using h.rooms
    · simpa [applyWrite] using h.customers
    · simp only [applyWrite, map_core_setStatus]
      exact h.computers k
    · simp only [applyWrite, setStatus_get?, hid, h.computer hl hm]
    · intro k mode hl hm
      simpa [applyWrite] using h.session hl hm
    · intro k mode hl hm
      simpa [applyWrite] using h.debt hl hm
    · intro c hl
      simpa [applyWrite, balance_setStatus] using h.balance hl
  | insertDebt row =>
    have hid : db.debtTransactions.get? row.id = db'.debtTransactions.get? row.id :=
      h.debt (hw (List.mem_cons_self ..)) (by decide)
    refine ⟨h.rooms, h.customers, h.computers, h.computer, h.session, fun {id mode} hl hm => ?_,
      fun hl => balance_insertDebt_congr hid (h.balance hl)⟩
    simp only [applyWrite, Table.get?_insert, h.debt hl hm]

/-- No lock of `L` other than `FOR KEY SHARE` is on a row that is locked for a write. -/
theorem not_locked {L ls : List (Lock RowId)} (h : Compatible ls L) {row : RowId} {mode mode' : Mode}
    (hl : ⟨row, mode⟩ ∈ L) (hm : mode ≠ .keyShare) (hm' : mode' ≠ .keyShare) :
    ⟨row, mode'⟩ ∉ ls := fun hls =>
  h _ hls _ hl ⟨rfl, by cases mode <;> cases mode' <;> simp_all [Mode.conflicts]⟩

/-- **A transaction does not see the writes of others** to what it has locked. -/
theorem Same.other {L : List (Lock RowId)} {w : Write} {db : Db} (h : Compatible (needs w) L) :
    Same L db (applyWrite w db) := by
  have hfree : ∀ {row mode mode'}, ⟨row, mode⟩ ∈ L → mode ≠ .keyShare → mode' ≠ .keyShare →
      ⟨row, mode'⟩ ∉ needs w := fun hl hm hm' => not_locked h hl hm hm'
  cases w with
  | insertSession row =>
    refine ⟨rfl, rfl, fun _ => rfl, fun _ _ => rfl, fun {id mode} hl hm => ?_, fun _ _ => rfl,
      fun _ => rfl⟩
    have hne : id ≠ row.id := by
      rintro rfl
      exact hfree hl hm (by decide : Mode.update ≠ .keyShare) (by simp [needs])
    simp only [applyWrite, Table.get?_insert, if_neg hne]
  | updateSession row =>
    refine ⟨rfl, rfl, fun _ => rfl, fun _ _ => rfl, fun {id mode} hl hm => ?_, fun _ _ => rfl,
      fun _ => rfl⟩
    have hne : id ≠ row.id := by
      rintro rfl
      exact hfree hl hm (by decide : Mode.noKeyUpdate ≠ .keyShare) (by simp [needs])
    simp only [applyWrite, Table.get?_set, if_neg hne]
  | computerStatus id status =>
    refine ⟨by simp [applyWrite], by simp [applyWrite], fun k => ?_, fun {k mode} hl hm => ?_,
      fun _ _ => by simp [applyWrite], fun _ _ => by simp [applyWrite],
      fun _ => by simp [applyWrite, balance_setStatus]⟩
    · simp only [applyWrite, map_core_setStatus]
    · have hne : k ≠ id := by
        rintro rfl
        exact hfree hl hm (by decide : Mode.noKeyUpdate ≠ .keyShare) (by simp [needs])
      simp only [applyWrite, setStatus_get?, if_neg hne]
  | insertDebt row =>
    refine ⟨rfl, rfl, fun _ => rfl, fun _ _ => rfl, fun _ _ => rfl, fun {id mode} hl hm => ?_,
      fun {c} hl => ?_⟩
    · have hne : id ≠ row.id := by
        rintro rfl
        exact hfree hl hm (by decide : Mode.update ≠ .keyShare) (by simp [needs])
      simp only [applyWrite, Table.get?_insert, if_neg hne]
    · by_cases hn : db.debtTransactions.get? row.id = none
      · have hne : row.customerId ≠ c := by
          rintro rfl
          -- the foreign key of the new entry
          exact h ⟨.customer row.customerId, .keyShare⟩ (by simp [needs]) _ hl ⟨rfl, rfl⟩
        rw [balance_insertDebt hn, if_neg hne, add_zero]
      · simp only [applyWrite, Table.insert_of_mem hn]

/-- **The locking discipline of the services.** The unique index is left out: it only makes an
insert fail. -/
def discipline : Discipline system where
  relaxed := laxStore.exec
  needs := needs
  Expects := Expects
  Same := Same
  relax := exec_lax
  guards := guards
  refl := Same.refl
  trans := Same.trans
  mono := Same.mono
  own := Same.own
  other := Same.other

/-! ### The transactions keep to it -/

section Guarded

variable {β : Type} {L : List (Lock RowId)} {Q : β → List (Lock RowId) → Prop}

/-- What is found is the same for everyone who sees the same. -/
theorem Same.findComputer_none {db db' : Db} (h : Same L db db') {id : Uuid}
    (hn : db.findComputer id = none) : db'.findComputer id = none := by
  have hc := h.computers id
  unfold Db.findComputer at hn ⊢
  cases hg : db.computers.get? id with
  | none =>
    rw [hg, Option.map_none, eq_comm, Option.map_eq_none_iff] at hc
    rw [hc]; rfl
  | some c =>
    rw [hg, Option.map_some, eq_comm, Option.map_eq_some_iff] at hc
    obtain ⟨c', hg', hcore⟩ := hc
    have hdel : (core c').deletedAt = (core c).deletedAt := by rw [hcore]
    have hdel : c'.deletedAt = c.deletedAt := hdel
    simpa [hg, hg', hdel] using hn

theorem guarded_lift {α : Type} {x : Except Thrown α} {f : α → Txn β}
    (h : ∀ a, x = .ok a → discipline.Guarded (f a) L Q) :
    discipline.Guarded (liftM x >>= f) L Q := by
  cases x with
  | error e => trivial
  | ok a => exact h a rfl

theorem guarded_lift_last {α : Type} {x : Except Thrown α} {Q : α → List (Lock RowId) → Prop}
    (h : ∀ a, x = .ok a → Q a L) : discipline.Guarded (liftM x) L Q := by
  cases x with
  | error e => trivial
  | ok a => exact h a rfl

theorem guarded_findCustomer {id : Uuid} {f : Option Customer → Txn β}
    (h : ∀ r, discipline.Guarded (f r) L Q) : discipline.Guarded (findCustomer id >>= f) L Q := by
  refine ⟨trivial, fun db r ws hx => Or.inr ⟨?_, (List.append_nil L).symm ▸ h r⟩⟩
  rintro db₁ db₂ ws' hs hx'
  cases hx'
  show Except.ok (db₂.findCustomer id, _) = _
  rw [Db.findCustomer, ← hs.customers]
  rfl

theorem guarded_findRoom {id : Uuid} {f : Option Room → Txn β}
    (h : ∀ r, discipline.Guarded (f r) L Q) : discipline.Guarded (findRoom id >>= f) L Q := by
  refine ⟨trivial, fun db r ws hx => Or.inr ⟨?_, (List.append_nil L).symm ▸ h r⟩⟩
  rintro db₁ db₂ ws' hs hx'
  cases hx'
  show Except.ok (db₂.findRoom id, _) = _
  rw [Db.findRoom, ← hs.rooms]
  rfl

/-- A computer that is found is locked; one that is not found will not be found. -/
theorem guarded_lockComputer {id : Uuid} {f : Option Computer → Txn β}
    (hnone : discipline.Guarded (f none) L Q)
    (hsome : ∀ c, c.id = id →
      discipline.Guarded (f (some c)) (L ++ [⟨.computer id, .update⟩]) Q) :
    discipline.Guarded (lockComputer id >>= f) L Q := by
  refine ⟨trivial, fun db r ws hx => Or.inr ?_⟩
  cases hx
  cases hc : db.findComputer id with
  | none =>
    rw [show system.locks (Stmt.lockComputer id) db = [] from if_pos hc, List.append_nil]
    refine ⟨?_, hnone⟩
    rintro db₁ db₂ ws' hs hx'
    have hn₁ : db₁.findComputer id = none := (Prod.mk.inj (Except.ok.inj hx')).1
    cases (Prod.mk.inj (Except.ok.inj hx')).2
    show Except.ok (db₂.findComputer id, _) = _
    rw [hs.findComputer_none hn₁]
    rfl
  | some c =>
    rw [show system.locks (Stmt.lockComputer id) db = [⟨.computer id, .update⟩] from
      if_neg (by simp [hc])]
    refine ⟨?_, hsome c (Table.key_of_get? (Db.findComputer_eq_some.mp hc).1)⟩
    rintro db₁ db₂ ws' hs hx'
    rw [← hx']
    show Except.ok (db₂.findComputer id, _) = Except.ok (db₁.findComputer id, _)
    rw [Db.findComputer, Db.findComputer,
      hs.computer (List.mem_append_right _ (List.mem_singleton.mpr rfl)) (by decide)]

/-- A transaction goes on only with a session it has found and locked. -/
theorem guarded_lockSession {id : Uuid} {f : Option Session → Txn β}
    (hnone : (f none).isThrow = true)
    (hsome : ∀ s, s.id = id →
      discipline.Guarded (f (some s)) (L ++ [⟨.session id, .update⟩]) Q) :
    discipline.Guarded (lockSession id >>= f) L Q := by
  refine ⟨trivial, fun db r ws hx => ?_⟩
  cases hx
  cases hs : db.sessions.get? id with
  | none => exact Or.inl hnone
  | some s =>
    rw [show system.locks (Stmt.lockSession id) db = [⟨.session id, .update⟩] from
      if_neg (by simp [hs])]
    refine Or.inr ⟨?_, hsome s (Table.key_of_get? hs)⟩
    rintro db₁ db₂ ws' hsame hx'
    rw [← hx']
    show Except.ok (db₂.sessions.get? id, _) = Except.ok (db₁.sessions.get? id, _)
    rw [hsame.session (List.mem_append_right _ (List.mem_singleton.mpr rfl)) (by decide)]

theorem guarded_lockCustomer {id : Uuid} {f : Option Customer → Txn β}
    (hnone : (f none).isThrow = true)
    (hsome : ∀ c, discipline.Guarded (f (some c)) (L ++ [⟨.customer id, .update⟩]) Q) :
    discipline.Guarded (lockCustomer id >>= f) L Q := by
  refine ⟨trivial, fun db r ws hx => ?_⟩
  cases hx
  cases hc : db.findCustomer id with
  | none => exact Or.inl hnone
  | some c =>
    rw [show system.locks (Stmt.lockCustomer id) db = [⟨.customer id, .update⟩] from
      if_neg (by simp [hc])]
    refine Or.inr ⟨?_, hsome c⟩
    rintro db₁ db₂ ws' hsame hx'
    rw [← hx']
    show Except.ok (db₂.findCustomer id, _) = Except.ok (db₁.findCustomer id, _)
    rw [Db.findCustomer, Db.findCustomer, hsame.customers]

/-- **A ledger is summed under the lock of its customer.** -/
theorem guarded_sumDebt {c : Uuid} {f : String → Txn β} (hc : ⟨.customer c, .update⟩ ∈ L)
    (h : ∀ r, discipline.Guarded (f r) L Q) : discipline.Guarded (sumDebt c >>= f) L Q := by
  refine ⟨trivial, fun db r ws hx => Or.inr ⟨?_, (List.append_nil L).symm ▸ h r⟩⟩
  rintro db₁ db₂ ws' hs hx'
  rw [← hx']
  show Except.ok (String.ofList (decimal (db₂.balance c)), _) =
    Except.ok (String.ofList (decimal (db₁.balance c)), _)
  rw [hs.balance (List.mem_append_left _ hc)]

theorem guarded_insertSession {row : Session} {f : Session → Txn β}
    (he : ⟨.computer row.computerId, .update⟩ ∈ L)
    (h : ∀ L', L ⊆ L' → discipline.Guarded (f row) L' Q) :
    discipline.Guarded (insertSession row >>= f) L Q := by
  refine ⟨he, fun db r ws hx => Or.inr ?_⟩
  obtain ⟨-, -, -, -, hr⟩ := execInsertSession_ok.mp hx
  cases hr
  refine ⟨?_, h _ (List.subset_append_left _ _)⟩
  rintro db₁ db₂ ws' hs hx'
  obtain ⟨hid, -, hcomputer, hcustomer, hr⟩ := execInsertSession_ok.mp hx'
  cases hr
  refine execInsertSession_ok.mpr ⟨?_, by simp, ?_, ?_, rfl⟩
  · rw [← hs.session (List.mem_append_right _ (List.mem_cons_self ..)) (by decide), hid]
  · intro hn
    have hmap := hs.computers row.computerId
    rw [hn, Option.map_none, Option.map_eq_none_iff] at hmap
    exact hcomputer hmap
  · intro c hc
    rw [← hs.customers]
    exact hcustomer c hc

theorem guarded_insertDebt {row : DebtTransaction} {f : DebtTransaction → Txn β}
    (h : ∀ L', L ⊆ L' → discipline.Guarded (f row) L' Q) :
    discipline.Guarded (insertDebt row >>= f) L Q := by
  refine ⟨trivial, fun db r ws hx => Or.inr ?_⟩
  obtain ⟨-, -, hr⟩ := execInsertDebt_ok.mp hx
  cases hr
  refine ⟨?_, h _ (List.subset_append_left _ _)⟩
  rintro db₁ db₂ ws' hs hx'
  obtain ⟨hid, hcustomer, hr⟩ := execInsertDebt_ok.mp hx'
  cases hr
  refine execInsertDebt_ok.mpr ⟨?_, ?_, rfl⟩
  · rw [← hs.debt (List.mem_append_right _ (List.mem_cons_self ..)) (by decide), hid]
  · rw [← hs.customers]
    exact hcustomer

theorem guarded_updateSession {row : Session} {f : Session → Txn β}
    (he : ⟨.session row.id, .update⟩ ∈ L) (h : ∀ L', L ⊆ L' → discipline.Guarded (f row) L' Q) :
    discipline.Guarded (updateSession row >>= f) L Q := by
  refine ⟨he, fun db r ws hx => Or.inr ?_⟩
  cases hx
  exact ⟨fun _ _ _ _ hx' => hx', h _ (List.subset_append_left _ _)⟩

theorem guarded_updateComputerStatus {id : Uuid} {status : ComputerStatus} {f : Unit → Txn β}
    (he : ⟨.computer id, .update⟩ ∈ L) (h : ∀ L', L ⊆ L' → discipline.Guarded (f ()) L' Q) :
    discipline.Guarded (updateComputerStatus id status >>= f) L Q := by
  refine ⟨he, fun db r ws hx => Or.inr ?_⟩
  cases hx
  exact ⟨fun _ _ _ _ hx' => hx', h _ (List.subset_append_left _ _)⟩

/-- The row that is saved last. -/
theorem guarded_insertDebt_last {row : DebtTransaction}
    {Q : DebtTransaction → List (Lock RowId) → Prop} (h : ∀ L', L ⊆ L' → Q row L') :
    discipline.Guarded (insertDebt row) L Q :=
  guarded_insertDebt (f := pure) fun L' hL => h L' hL

theorem guarded_resolveCustomer {customerId : Option UuidText} {f : Option Customer → Txn β}
    (h : ∀ r, discipline.Guarded (f r) L Q) :
    discipline.Guarded (resolveCustomer customerId >>= f) L Q := by
  refine Discipline.Guarded.bind ?_
  cases customerId with
  | none => exact h none
  | some id =>
    refine guarded_findCustomer fun r => ?_
    cases r with
    | none => trivial
    | some c =>
      dsimp only
      split_ifs
      · trivial
      · exact h (some c)

theorem guarded_lockActive {id : UuidText} {f : Session → Txn β}
    (h : ∀ s, discipline.Guarded (f s) (L ++ [⟨.session s.id, .update⟩]) Q) :
    discipline.Guarded (lockActive id >>= f) L Q := by
  refine Discipline.Guarded.bind (guarded_lockSession rfl fun s hs => ?_)
  dsimp only
  split_ifs
  · rw [← hs]; exact h s
  · trivial

theorem guarded_releaseComputer {computerId : Uuid} {f : Unit → Txn β}
    (h : ∀ L', discipline.Guarded (f ()) L' Q) :
    discipline.Guarded (releaseComputer computerId >>= f) L Q := by
  refine Discipline.Guarded.bind (guarded_lockComputer (h L) fun c hc => ?_)
  dsimp only
  split_ifs
  · exact guarded_updateComputerStatus (f := pure)
      (List.mem_append_right _ (by rw [hc]; simp)) fun L' _ => h L'
  · exact h _

theorem guarded_startOne {dto : StartSessionDto} {ctx : ActorContext} {startedAt : Instant}
    {groupId : Option Uuid} {customer : Option Customer} {computerId : UuidText} {newId : Uuid}
    {f : Session → Txn β} (h : ∀ s L', discipline.Guarded (f s) L' Q) :
    discipline.Guarded
      (startOne dto ctx startedAt groupId customer computerId newId >>= f) L Q := by
  refine Discipline.Guarded.bind (guarded_lockComputer trivial fun computer hc => ?_)
  dsimp only
  split_ifs
  · trivial
  · refine guarded_findRoom fun r => ?_
    split
    · trivial
    · refine guarded_lift fun plan _ => guarded_lift fun plannedEndAt _ => ?_
      have hlock : (⟨.computer computer.id, .update⟩ : Lock RowId) ∈
          L ++ [⟨.computer computerId.value, .update⟩] :=
        List.mem_append_right _ (by rw [hc]; simp)
      refine guarded_insertSession hlock fun L' hL => ?_
      exact guarded_updateComputerStatus (hL hlock) fun L'' _ => h _ L''

/-- By induction on the computers of the group. -/
theorem guarded_startAll {dto : StartSessionDto} {ctx : ActorContext} {startedAt : Instant}
    {groupId : Option Uuid} {customer : Option Customer} {ids : List (UuidText × Uuid)}
    {Q : List Session → List (Lock RowId) → Prop} (h : ∀ ss L', Q ss L') :
    discipline.Guarded (startAll dto ctx startedAt groupId customer ids) L Q := by
  induction ids generalizing L Q with
  | nil => exact h [] L
  | cons x rest ih =>
    exact guarded_startOne fun s L' => Discipline.Guarded.bind (ih fun ss L'' => h _ L'')

theorem guarded_settle {session : Session} {dto : EndSessionDto} {ctx : ActorContext}
    {endedAt : Instant} {newId : Uuid} {due paid : Money}
    {Q : Session × Option DebtTransaction → List (Lock RowId) → Prop}
    (hl : ⟨.session session.id, .update⟩ ∈ L) (h : ∀ r L', Q r L') :
    discipline.Guarded (settle session dto ctx endedAt newId due paid) L Q := by
  unfold settle
  split_ifs
  · trivial
  · refine guarded_lift fun shortfall _ => ?_
    split_ifs
    · trivial
    · refine guarded_updateSession hl fun L' _ => ?_
      split
      · refine Discipline.Guarded.bind (guarded_lift fun magnitude _ => ?_)
        split_ifs
        · trivial
        · exact guarded_insertDebt_last fun L'' _ =>
            guarded_releaseComputer fun L''' => h _ L'''
      · exact guarded_releaseComputer fun L'' => h _ L''

end Guarded

/-- **Every transaction keeps to the discipline.** -/
theorem body_guarded (q : Request) : discipline.Guarded (body q) [] fun _ _ => True := by
  cases q with
  | start dto ctx startedAt randomUUID newIds =>
    refine Discipline.Guarded.bind (guarded_resolveCustomer fun customer => ?_)
    exact guarded_startAll fun _ _ => trivial
  | extend id dto =>
    refine Discipline.Guarded.bind (guarded_lockActive fun session => ?_)
    refine guarded_lift fun plan _ => guarded_lift fun plannedEndAt _ => ?_
    exact guarded_updateSession (f := pure) (by simp) fun _ _ => trivial
  | endSession id dto ctx endedAt newId =>
    refine Discipline.Guarded.bind (guarded_lockActive fun session => ?_)
    refine guarded_lift fun due _ => guarded_lift fun paid _ => ?_
    exact guarded_settle (by simp) fun _ _ => trivial
  | cancel id ctx now =>
    refine Discipline.Guarded.bind (guarded_lockActive fun session => ?_)
    refine guarded_updateSession (by simp) fun L' _ => ?_
    exact guarded_releaseComputer fun _ => trivial
  | recordPayment input newId =>
    refine Discipline.Guarded.bind (guarded_lift fun magnitude _ => ?_)
    split_ifs
    · trivial
    · refine guarded_lockCustomer rfl fun customer => ?_
      refine Discipline.Guarded.bind (guarded_sumDebt (by simp) fun sum => ?_)
      refine guarded_lift_last fun balance _ => ?_
      split_ifs
      · trivial
      · exact guarded_insertDebt_last fun _ _ => trivial
  | correct customerId signedAmount actorId reason newId =>
    refine Discipline.Guarded.bind (guarded_lift fun value _ => ?_)
    split_ifs
    · trivial
    · exact guarded_insertDebt_last fun _ _ => trivial

/-! ### What commits -/

/-- The transaction proper of a request, and its reply. -/
def Serves : Request → Db → Reply → Db → Prop
  | .start dto ctx startedAt randomUUID newIds, db, a, db' => ∃ created,
      laxStore.eval (start dto ctx startedAt randomUUID newIds) db = .ok (created, db') ∧
        a = .started created
  | .extend id dto, db, a, db' => ∃ s,
      laxStore.eval (extend id dto) db = .ok (s, db') ∧ a = .session s
  | .endSession id dto ctx endedAt newId, db, a, db' => ∃ s e,
      laxStore.eval (endSession id dto ctx endedAt newId) db = .ok ((s, e), db') ∧ a = .ended s e
  | .cancel id ctx now, db, a, db' => ∃ s,
      laxStore.eval (cancel id ctx now) db = .ok (s, db') ∧ a = .session s
  | .recordPayment input newId, db, a, db' => ∃ e,
      laxStore.eval (Debt.recordPayment input newId) db = .ok (e, db') ∧ a = .entry e
  | .correct customerId signedAmount actorId reason newId, db, a, db' => ∃ e,
      laxStore.eval (Debt.correct customerId signedAmount actorId reason newId) db =
        .ok (e, db') ∧ a = .entry e

theorem body_ok {q : Request} {a : Reply} {db db' : Db}
    (h : laxStore.eval (body q) db = .ok (a, db')) : Serves q db a db' := by
  cases q <;>
  · obtain ⟨r, _, hrun, hret⟩ := (Sem.eval_bind_ok _).mp h
    cases hret
    first
      | exact ⟨_, hrun, rfl⟩
      | exact ⟨_, _, hrun, rfl⟩

/-- A transaction makes one change, or those of a start, which leave the ledger alone. -/
theorem body_changes {q : Request} {a : Reply} {db db' : Db}
    (h : laxStore.eval (body q) db = .ok (a, db')) :
    Change db db' ∨ (Relation.ReflTransGen Change db db' ∧
      db'.debtTransactions = db.debtTransactions) := by
  have hserves := body_ok h
  cases q with
  | start dto ctx startedAt randomUUID newIds =>
    obtain ⟨created, hrun, -⟩ := hserves
    exact Or.inr ⟨start_changes hrun, start_ledger hrun⟩
  | extend id dto =>
    obtain ⟨_, hrun, -⟩ := hserves
    exact Or.inl (extend_change hrun)
  | endSession id dto ctx endedAt newId =>
    obtain ⟨_, _, hrun, -⟩ := hserves
    exact Or.inl (endSession_change hrun)
  | cancel id ctx now =>
    obtain ⟨_, hrun, -⟩ := hserves
    exact Or.inl (cancel_change hrun)
  | recordPayment input newId =>
    obtain ⟨_, hrun, -⟩ := hserves
    exact Or.inl (recordPayment_change hrun)
  | correct customerId signedAmount actorId reason newId =>
    obtain ⟨_, hrun, -⟩ := hserves
    exact Or.inl (correct_change hrun)

/-- The interleavings, labelled. -/
abbrev Trace := List (Label Stmt Thrown Request Reply)

/-- A state of the interleavings. -/
abbrev State := Config Res Thrown Db Write RowId Request Reply

/-- **A commit makes the changes of its transaction** to the database as it was just before. -/
theorem step_changes {db : Db} {tr : Trace} {c c' : State} {l : Label Stmt Thrown Request Reply}
    (hrun : system.Run (Config.idle db) tr c) (hstep : system.Step c l c') :
    c'.db = c.db ∨ Change c.db c'.db ∨ (Relation.ReflTransGen Change c.db c'.db ∧
      c'.db.debtTransactions = c.db.debtTransactions) := by
  have hinv := (Discipline.inv_idle (D := discipline) db).run body_guarded hrun
  rcases Discipline.step_db hinv hstep with he | ⟨i, q, a, -, he⟩
  · exact Or.inl he
  · exact Or.inr (body_changes he)

/-- **An invariant of the changes holds of every committed database.** -/
theorem run_invariant (I : Db → Prop) (hI : ∀ {db db'}, Change db db' → I db → I db') {db : Db}
    {tr : Trace} {c : State} (h : I db) (hrun : system.Run (Config.idle db) tr c) : I c.db := by
  refine discipline.run_preserves body_guarded I (fun q a db db' hdb he => ?_) h hrun
  rcases body_changes he with hc | ⟨hc, -⟩
  · exact hI hc hdb
  · exact changes_preserve I hI hc hdb

end GameClub.Concurrency
