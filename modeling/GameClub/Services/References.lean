import GameClub.Analytics.Summary
import GameClub.Services.Requests

/-! # References

Rows refer to rows of other tables by their keys. The database checks only some of these references,
and only when a row is written: the room of a session and the session of a debt have no foreign key.

* `Resolved`: every reference is to a row that is there, and a debt is on the customer of its session.
* `Resolved.save`, `Resolved.append` and the like: the changes of one table. `Resolved.perform`: every
  call keeps it.
* `outstanding_by_customer`: then the outstanding total is the sum of the balances. -/

namespace GameClub.Services

open GameClub.Lib GameClub.Common GameClub.Store GameClub.Sessions

/-! ### References that resolve -/

structure SessionResolved (db : Db) (s : Session) : Prop where
  computer : db.computers.get? s.computerId ≠ none
  room : db.rooms.get? s.roomId ≠ none
  customer : ∀ k, s.customerId = some k → db.customers.get? k ≠ none

structure EntryResolved (db : Db) (e : DebtTransaction) : Prop where
  customer : db.customers.get? e.customerId ≠ none
  session : ∀ id, e.sessionId = some id →
    ∃ s, db.sessions.get? id = some s ∧ s.customerId = some e.customerId

/-- **Every reference resolves.** -/
structure Resolved (db : Db) : Prop where
  computers : ∀ c ∈ db.computers.rows, db.rooms.get? c.roomId ≠ none
  sessions : ∀ s ∈ db.sessions.rows, SessionResolved db s
  entries : ∀ e ∈ db.debtTransactions.rows, EntryResolved db e

/-- No row that is referred to is gone, and a session keeps its customer. -/
structure Keeps (db db' : Db) : Prop where
  rooms : ∀ k, db.rooms.get? k ≠ none → db'.rooms.get? k ≠ none
  computers : ∀ k, db.computers.get? k ≠ none → db'.computers.get? k ≠ none
  customers : ∀ k, db.customers.get? k ≠ none → db'.customers.get? k ≠ none
  sessions : ∀ k s, db.sessions.get? k = some s →
    ∃ s', db'.sessions.get? k = some s' ∧ s'.customerId = s.customerId

variable {db db' : Db} {s : Session} {e : DebtTransaction}

theorem SessionResolved.keep (h : SessionResolved db s) (hk : Keeps db db') :
    SessionResolved db' s :=
  ⟨hk.computers _ h.computer, hk.rooms _ h.room, fun k hc => hk.customers k (h.customer k hc)⟩

theorem EntryResolved.keep (h : EntryResolved db e) (hk : Keeps db db') : EntryResolved db' e := by
  refine ⟨hk.customers _ h.customer, fun id hid => ?_⟩
  obtain ⟨s, hs, hcustomer⟩ := h.session id hid
  obtain ⟨s', hs', hsame⟩ := hk.sessions id s hs
  exact ⟨s', hs', hsame.trans hcustomer⟩

theorem resolved_empty : Resolved .empty :=
  ⟨fun _ hc => (nomatch hc), fun _ hs => (nomatch hs), fun _ he => (nomatch he)⟩

/-- **A change that keeps the rows there are** keeps the invariant if its new rows resolve. -/
theorem Resolved.change (h : Resolved db) (hk : Keeps db db')
    (hc : ∀ c ∈ db'.computers.rows, c ∈ db.computers.rows ∨ db'.rooms.get? c.roomId ≠ none)
    (hs : ∀ s ∈ db'.sessions.rows, s ∈ db.sessions.rows ∨ SessionResolved db' s)
    (he : ∀ e ∈ db'.debtTransactions.rows, e ∈ db.debtTransactions.rows ∨ EntryResolved db' e) :
    Resolved db' := by
  refine ⟨fun c hmem => ?_, fun s hmem => ?_, fun e hmem => ?_⟩
  · rcases hc c hmem with hold | hnew
    · exact hk.rooms _ (h.computers c hold)
    · exact hnew
  · rcases hs s hmem with hold | hnew
    · exact (h.sessions s hold).keep hk
    · exact hnew
  · rcases he e hmem with hold | hnew
    · exact (h.entries e hold).keep hk
    · exact hnew

/-! ### Changes of one table -/

/-- Rooms may be added and changed. -/
theorem Resolved.setRooms (h : Resolved db) {rooms : Table Room.id}
    (hk : ∀ k, db.rooms.get? k ≠ none → rooms.get? k ≠ none) :
    Resolved { db with rooms := rooms } :=
  h.change ⟨hk, fun _ hr => hr, fun _ hr => hr, fun _ s hs => ⟨s, hs, rfl⟩⟩ (fun _ hc => Or.inl hc)
    (fun _ hs => Or.inl hs) fun _ he => Or.inl he

/-- Customers may be added and changed. -/
theorem Resolved.setCustomers (h : Resolved db) {customers : Table Customer.id}
    (hk : ∀ k, db.customers.get? k ≠ none → customers.get? k ≠ none) :
    Resolved { db with customers := customers } :=
  h.change ⟨fun _ hr => hr, fun _ hr => hr, hk, fun _ s hs => ⟨s, hs, rfl⟩⟩ (fun _ hc => Or.inl hc)
    (fun _ hs => Or.inl hs) fun _ he => Or.inl he

/-- Computers may be added and changed, in rooms that are there. -/
theorem Resolved.setComputers (h : Resolved db) {computers : Table Computer.id}
    (hk : ∀ k, db.computers.get? k ≠ none → computers.get? k ≠ none)
    (hc : ∀ c ∈ computers.rows, c ∈ db.computers.rows ∨ db.rooms.get? c.roomId ≠ none) :
    Resolved { db with computers := computers } :=
  h.change ⟨fun _ hr => hr, hk, fun _ hr => hr, fun _ s hs => ⟨s, hs, rfl⟩⟩ hc
    (fun _ hs => Or.inl hs) fun _ he => Or.inl he

/-- One computer is changed, in a room that is there. -/
theorem Resolved.setComputer (h : Resolved db) {row : Computer}
    (hroom : db.rooms.get? row.roomId ≠ none) :
    Resolved { db with computers := db.computers.set row } := by
  refine h.setComputers (fun k hk => Table.get?_set_ne_none hk) fun c hc => ?_
  rcases Table.mem_of_mem_set hc with rfl | hold
  · exact Or.inr hroom
  · exact Or.inl hold

theorem Resolved.setStatus (h : Resolved db) (id : Uuid) (status : ComputerStatus) :
    Resolved (db.setStatus id status) := by
  unfold Db.setStatus
  split
  · exact h
  · next c hc => exact h.setComputer (h.computers c (Table.mem_of_get? hc).1)

theorem Resolved.release (h : Resolved db) (computerId : Uuid) :
    Resolved (release db computerId) := by
  unfold Sessions.release
  split
  · exact h
  · split_ifs
    · exact h.setStatus _ _
    · exact h

/-- A session is saved, with its references as they were. -/
theorem Resolved.save (h : Resolved db) {id : Uuid} {old : Session}
    (hget : db.sessions.get? id = some old) (hid : s.id = old.id)
    (hcomputer : s.computerId = old.computerId) (hroom : s.roomId = old.roomId)
    (hcustomer : s.customerId = old.customerId) : Resolved (Sessions.save db s) := by
  have hold : db.sessions.get? s.id = some old := by
    rw [hid, Table.key_of_get? hget]
    exact hget
  have hk : Keeps db (Sessions.save db s) := by
    refine ⟨fun _ hr => hr, fun _ hr => hr, fun _ hr => hr, fun k t ht => ?_⟩
    by_cases hkey : k = s.id
    · subst hkey
      cases hold.symm.trans ht
      exact ⟨s, Table.get?_set_self (by simp [hold]), hcustomer⟩
    · exact ⟨t, (Table.get?_set_ne hkey).trans ht, rfl⟩
  have hrefs : SessionResolved (Sessions.save db s) s := by
    obtain ⟨hc, hr, hcust⟩ := (h.sessions old (Table.mem_of_get? hold).1).keep hk
    rw [← hcomputer] at hc
    rw [← hroom] at hr
    rw [← hcustomer] at hcust
    exact ⟨hc, hr, hcust⟩
  refine h.change hk (fun _ hc => Or.inl hc) (fun t ht => ?_) fun _ he => Or.inl he
  rcases Table.mem_of_mem_set ht with rfl | hmem
  · exact Or.inr hrefs
  · exact Or.inl hmem

/-- A session is opened. -/
theorem Resolved.opened (h : Resolved db) (hid : db.sessions.get? s.id = none)
    (hs : SessionResolved db s) : Resolved (opened db s) := by
  unfold Sessions.opened
  have hk : Keeps db { db with sessions := db.sessions.insert s } := by
    refine ⟨fun _ hr => hr, fun _ hr => hr, fun _ hr => hr, fun k t ht => ⟨t, ?_, rfl⟩⟩
    rw [Table.get?_insert, ht]
    split_ifs <;> rfl
  refine (h.change hk (fun _ hc => Or.inl hc) (fun t ht => ?_) fun _ he => Or.inl he).setStatus _ _
  rcases (Table.mem_insert hid).mp ht with hold | rfl
  · exact Or.inl hold
  · exact Or.inr (hs.keep hk)

/-- An entry is booked. -/
theorem Resolved.append (h : Resolved db) (hid : db.debtTransactions.get? e.id = none)
    (he : EntryResolved db e) : Resolved (Debt.append db e) := by
  have hk : Keeps db (Debt.append db e) :=
    ⟨fun _ hr => hr, fun _ hr => hr, fun _ hr => hr, fun _ s hs => ⟨s, hs, rfl⟩⟩
  refine h.change hk (fun _ hc => Or.inl hc) (fun _ hs => Or.inl hs) fun e' he' => ?_
  rcases (Table.mem_insert hid).mp he' with hold | rfl
  · exact Or.inl hold
  · exact Or.inr (he.keep hk)

/-! ### The calls -/

theorem get?_of_findRoom {id : Uuid} {room : Room} (h : db.findRoom id = some room) :
    db.rooms.get? room.id ≠ none := by
  have hmem := (Table.mem_of_get? (Db.findRoom_eq_some.mp h).1).1
  rw [Table.get?_of_mem hmem]
  exact nofun

/-- **A start** takes a computer and a room that are there, and a customer, if any, too. -/
theorem Resolved.startOne (h : Resolved db) {dto : StartSessionDto} {ctx : ActorContext}
    {startedAt : Instant} {groupId : Option Uuid} {customer : Option Customer}
    {computerId : UuidText} {newId : Uuid} (hone : store.eval
      (startOne dto ctx startedAt groupId customer computerId newId) db = .ok (s, db')) :
    Resolved db' := by
  obtain ⟨computer, room, plannedEndAt, amount, hstart, rfl, hid, -, hcustomer, rfl⟩ :=
    startOne_ok.mp hone
  have hcomputer := (Table.mem_of_get? (Db.findComputer_eq_some.mp hstart.findComputer).1).1
  refine h.opened hid ⟨?_, get?_of_findRoom hstart.findRoom, fun k hk => ?_⟩
  · rw [show (newSession dto ctx startedAt groupId customer computer room plannedEndAt amount
      newId).computerId = computer.id from rfl, Table.get?_of_mem hcomputer]
    exact nofun
  · obtain ⟨c, hc, rfl⟩ := Option.map_eq_some_iff.mp hk
    exact hcustomer c hc

/-- A session is ended, and the rest is booked on its customer. -/
theorem Resolved.settles (h : Resolved db) {session saved : Session} {dto : EndSessionDto}
    {ctx : ActorContext} {endedAt : Instant} {newId : Uuid} {due paid : Money}
    {debt : Option DebtTransaction} {id : Uuid} (hsession : db.sessions.get? id = some session)
    (hsaved : saved = endedSession session dto ctx endedAt due paid)
    (hset : Settles db session saved ctx newId due paid debt db') : Resolved db' := by
  subst hsaved
  have hsave : Resolved (Sessions.save db (endedSession session dto ctx endedAt due paid)) :=
    h.save hsession rfl rfl rfl rfl
  cases hset with
  | inFull heq => exact hsave.release _
  | @booked customerId hlt hc hid hrow =>
    have hfound : (Sessions.save db (endedSession session dto ctx endedAt due paid)).sessions.get?
        session.id = some (endedSession session dto ctx endedAt due paid) := by
      refine Table.get?_set_self (r := endedSession session dto ctx endedAt due paid) ?_
      rw [show (endedSession session dto ctx endedAt due paid).id = session.id from rfl,
        Table.key_of_get? hsession, hsession]
      exact nofun
    have hentry : EntryResolved (Sessions.save db (endedSession session dto ctx endedAt due paid))
        (shortfallRow session ctx customerId newId due paid) := by
      refine ⟨hrow, fun id hsame => ?_⟩
      cases hsame
      exact ⟨_, hfound, hc⟩
    have happend := hsave.append (e := shortfallRow session ctx customerId newId due paid) hid hentry
    exact happend.release _

/-- Payments name no session, as the controller makes them. -/
def Plain : Call → Prop
  | .op (.recordPayment input _) => input.sessionId = none
  | _ => True

/-- The row an update of a computer writes is in a room that is there. -/
theorem updatedRow_room (h : Resolved db) {id : UuidText} {dto : UpdateComputerDto}
    {byRelation : Bool} {saved : ComputerEntity} {row : Computer}
    (hrow : Computers.updatedRow id dto byRelation db = .ok (saved, row)) :
    db.rooms.get? row.roomId ≠ none := by
  obtain ⟨computer, hfound, hrest⟩ := bind_ok.mp hrow
  obtain ⟨_, -, hrest⟩ := bind_ok.mp hrest
  obtain ⟨row', hsaved, hret⟩ := bind_ok.mp hrest
  cases hret
  obtain ⟨columns, hcolumns, hcheck⟩ := bind_ok.mp hsaved
  obtain ⟨_, hcheck, hret⟩ := bind_ok.mp hcheck
  cases hret
  unfold Computers.findById at hfound
  split at hfound
  · cases hfound
  · next stored hstored =>
    cases hfound
    have hroom := h.computers _ (Table.mem_of_get? (Db.findComputer_eq_some.mp hstored).1).1
    unfold Computers.checkRow at hcheck
    split_ifs at hcheck with hlabel hforeign
    -- the column is the stored one, or the foreign key was checked
    by_cases hsame : row.roomId = stored.roomId
    · rw [hsame]
      exact hroom
    · exact fun hnone => hforeign ⟨hsame, hnone⟩

theorem Resolved.effect {op : Op} (he : Effect db op db') (h : Resolved db)
    (hplain : Plain (.op op)) (hcreate : ∀ dto newId, op ≠ .createComputer dto newId) :
    Resolved db' := by
  cases he with
  | rejected => exact h
  | started hstart =>
    obtain ⟨groupId, customer, -, hall⟩ := start_ok hstart
    exact startAll_preserves Resolved (fun _ _ _ _ _ hd hone => hd.startOne hone) h hall
  | extended hextend =>
    obtain ⟨session, p, plannedEndAt, hsession, -, -, -, rfl, rfl⟩ := extend_ok.mp hextend
    exact h.save hsession rfl rfl rfl rfl
  | ended hend =>
    obtain ⟨session, due, paid, hsession, -, -, -, hsaved, hset⟩ := endSession_ok.mp hend
    exact h.settles hsession hsaved hset
  | cancelled hcancel =>
    obtain ⟨session, hsession, -, rfl, rfl⟩ := cancel_ok.mp hcancel
    refine Resolved.release ?_ _
    exact h.save hsession rfl rfl rfl rfl
  | paid hpay =>
    obtain ⟨magnitude, customer, -, -, hcustomer, -, -, rfl, hid, rfl⟩ :=
      Debt.recordPayment_ok.mp hpay
    have hget := (Db.findCustomer_eq_some.mp hcustomer).1
    exact h.append hid ⟨by rw [hget]; exact nofun, fun id hsession =>
      absurd (hplain.symm.trans hsession) nofun⟩
  | corrected hcorrect =>
    obtain ⟨value, -, -, rfl, hid, hcustomer, rfl⟩ := Debt.correct_ok.mp hcorrect
    exact h.append hid ⟨hcustomer, fun id hsession => nomatch hsession⟩
  | administered hadmin =>
    cases hadmin with
    | created hid => exact absurd rfl (hcreate _ _)
    | updated hrow => exact h.setComputer (updatedRow_room h hrow)
    | removed hstored =>
      have hroom := h.computers _ (Table.mem_of_get? (Db.findComputer_eq_some.mp hstored).1).1
      exact h.setComputer hroom
    | roomUpdated hroom hrow => exact h.setRooms fun k hk => Table.get?_set_ne_none hk

/-- A computer is created in a room that is there. -/
theorem Resolved.createComputer {w : World} (h : Resolved w.db) (dto : CreateComputerDto)
    (newId : Uuid) : Resolved (w.perform (.op (.createComputer dto newId))).db := by
  have hinsert : Resolved ((Computers.insert (Computers.newComputer dto newId)).call w).2.db := by
    unfold Service.call Computers.insert
    split_ifs with hid hlabel hroom
    · exact h
    · exact h
    · exact h
    · refine h.setComputers (fun k hk => Table.get?_insert_ne_none hk) fun c hc => ?_
      rcases (Table.mem_insert (not_not.mp hid)).mp hc with hold | rfl
      · exact Or.inl hold
      · exact Or.inr hroom
  rw [World.perform, World.step, Computers.create, Service.call_bind, call_read]
  rcases Rooms.findById dto.roomId w.db with e | room
  · exact h
  · dsimp only
    rw [Service.call_bind]
    rcases hcall : (Computers.insert (Computers.newComputer dto newId)).call w with ⟨e | saved, w'⟩
    · rw [hcall] at hinsert
      exact hinsert
    · rw [hcall] at hinsert
      exact hinsert

/-- **Every call keeps the references**, accepted or not. -/
theorem Resolved.perform {w : World} (h : Resolved w.db) {c : Call} (hplain : Plain c) :
    Resolved (w.perform c).db := by
  cases c with
  | op op =>
    by_cases hcreate : ∃ dto newId, op = .createComputer dto newId
    · obtain ⟨dto, newId, rfl⟩ := hcreate
      exact h.createComputer dto newId
    · exact h.effect (step_effect w op) hplain fun dto newId heq => hcreate ⟨dto, newId, heq⟩
  | createRoom dto newId =>
    rw [World.perform]
    rcases Rooms.create_call dto newId w with ⟨e, he⟩ | ⟨-, hok⟩
    · rw [he]
      exact h
    · rw [hok]
      exact h.setRooms fun k hk => Table.get?_insert_ne_none hk
  | removeRoom id now =>
    rw [World.perform]
    rcases Rooms.remove_call id now w with ⟨e, he⟩ | ⟨room, -, hok⟩
    · rw [he]
      exact h
    · rw [hok]
      exact h.setRooms fun k hk => Table.get?_set_ne_none hk
  | createCustomer dto newId =>
    rw [World.perform]
    rcases Customers.create_call dto newId w with ⟨e, he⟩ | ⟨-, hok⟩
    · rw [he]
      exact h
    · rw [hok]
      exact h.setCustomers fun k hk => Table.get?_insert_ne_none hk
  | updateCustomer id dto =>
    rw [World.perform]
    rcases Customers.update_call id dto w with ⟨e, he⟩ | ⟨_, _, _, -, -, hok⟩
    · rw [he]
      exact h
    · rw [hok]
      exact h.setCustomers fun k hk => Table.get?_set_ne_none hk
  | removeCustomer id now =>
    rw [World.perform]
    rcases Customers.remove_call id now w with ⟨e, he⟩ | ⟨_, -, hok⟩
    · rw [he]
      exact h
    · rw [hok]
      exact h.setCustomers fun k hk => Table.get?_set_ne_none hk

/-- **The references of every world reached** by calls whose payments name no session. -/
theorem reached_resolved {w : World} (h : Resolved w.db) {calls : List Call}
    (hplain : ∀ c ∈ calls, Plain c) : Resolved (calls.foldl World.perform w).db := by
  induction calls generalizing w with
  | nil => exact h
  | cons c calls ih =>
    exact ih (h.perform (hplain c (List.mem_cons_self ..))) fun c' hc' =>
      hplain c' (List.mem_cons_of_mem _ hc')

/-- **The outstanding total is the sum of the balances** of all customers, the removed ones too. -/
theorem outstanding_by_customer (h : Resolved db) : Analytics.totalOutstanding db =
    (db.customers.rows.map fun customer => db.balance customer.id).sum := by
  have hrefs : ∀ e ∈ db.debtTransactions.rows,
      ∃ r ∈ db.customers.rows, some e.customerId = some (Customer.id r) := fun e he => by
    obtain ⟨row, hrow⟩ := Option.ne_none_iff_exists'.mp (h.entries e he).customer
    obtain ⟨hmem, hkey⟩ := Table.mem_of_get? hrow
    exact ⟨row, hmem, congrArg some hkey.symm⟩
  have hsum := Table.sum_map_by_key db.customers (fun e => some e.customerId)
    DebtTransaction.signedAmount db.debtTransactions.rows hrefs
  have hbalance : ∀ customer : Customer, db.balance customer.id =
      ((db.debtTransactions.rows.filter fun e => decide (some e.customerId = some customer.id)).map
        DebtTransaction.signedAmount).sum := fun customer => by
    simp [Db.balance, Db.ledger]
  rw [Analytics.totalOutstanding, ← hsum]
  exact congrArg List.sum (List.map_congr_left fun customer _ => (hbalance customer).symm)

end GameClub.Services
