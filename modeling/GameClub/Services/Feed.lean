import GameClub.Debt.Overpayment
import GameClub.Services.Requests

/-! # The feed of events

Clients are sent the events of the services and nothing else. Whoever knows the club at some time and
reads the events since then knows its sessions and its balances, without a query.

* `Told`: what the events between two states of the club tell.
* `perform_told`: a call tells what it has changed, and `Told.trans` goes on from call to call.
* `feed_told`: so does every sequence of calls, whatever they return. -/

namespace GameClub.Services

open GameClub.Lib GameClub.Common GameClub.Store GameClub.Sessions

/-- The session an event is about, as it is then. -/
def DomainEvent.session? : DomainEvent → Option (Uuid × SessionEvent)
  | .sessionStarted payload | .sessionExtended payload | .sessionEnded payload =>
    some (payload.id, payload)
  | _ => none

/-- The customer an event is about, and their balance. -/
def DomainEvent.balance? : DomainEvent → Option (Uuid × ℤ)
  | .debtCreated payload | .debtUpdated payload => some (payload.customerId, payload.balance)
  | _ => none

/-- What the events, the last one first, last say of a session. -/
def lastSession (news : List DomainEvent) (id : Uuid) : Option SessionEvent :=
  (news.filterMap DomainEvent.session?).lookup id

/-- What they last say of a balance. -/
def lastBalance (news : List DomainEvent) (customerId : Uuid) : Option ℤ :=
  (news.filterMap DomainEvent.balance?).lookup customerId

/-- A session with the columns that events have. -/
def shown (db : Db) (id : Uuid) : Option SessionEvent := (db.sessions.get? id).map toEvent

/-- The balance is in the range that is read. -/
def Readable (db : Db) (customerId : Uuid) : Prop :=
  |db.balance customerId| ≤ Binary64.maxSafeInteger

/-- **What the events tell**: a session is as the last event about it says, or as it was; and so is a
balance, while it can be read. -/
structure Told (db db' : Db) (news : List DomainEvent) : Prop where
  sessions : ∀ id, shown db' id = (lastSession news id).or (shown db id)
  balances : ∀ customerId, Readable db' customerId →
    db'.balance customerId = (lastBalance news customerId).getD (db.balance customerId)

variable {db db' db'' : Db} {news news' : List DomainEvent} {customerId k : Uuid} {w : World}

theorem lastSession_append (news news' : List DomainEvent) (id : Uuid) :
    lastSession (news ++ news') id = (lastSession news id).or (lastSession news' id) := by
  unfold lastSession
  rw [List.filterMap_append, List.lookup_append]

theorem lastBalance_append (news news' : List DomainEvent) (customerId : Uuid) :
    lastBalance (news ++ news') customerId =
      (lastBalance news customerId).or (lastBalance news' customerId) := by
  unfold lastBalance
  rw [List.filterMap_append, List.lookup_append]

theorem Told.trans (h : Told db db' news) (h' : Told db' db'' news')
    (hbalances : ∀ k, db'.balance k = (lastBalance news k).getD (db.balance k)) :
    Told db db'' (news' ++ news) := by
  refine ⟨fun id => ?_, fun k hread => ?_⟩
  · rw [h'.sessions id, h.sessions id, lastSession_append, Option.or_assoc]
  · rw [h'.balances k hread, hbalances k, lastBalance_append]
    cases lastBalance news' k <;> rfl

/-! ### One call -/

/-- The events say nothing of sessions or balances. -/
structure Silent (news : List DomainEvent) : Prop where
  sessions : news.filterMap DomainEvent.session? = []
  balances : news.filterMap DomainEvent.balance? = []

/-- Nothing is told where nothing changes. -/
theorem told_silent (hs : db'.sessions = db.sessions)
    (hd : db'.debtTransactions = db.debtTransactions) (hnews : Silent news) : Told db db' news := by
  refine ⟨fun id => ?_, fun k _ => ?_⟩
  · rw [lastSession, hnews.sessions, shown, shown, hs]
    rfl
  · rw [lastBalance, hnews.balances, Debt.balance_congr hd]
    rfl

theorem told_same : Told db db [] := told_silent rfl rfl ⟨rfl, rfl⟩

/-- Another key is not found. -/
theorem lookup_other {β : Type} {a : Uuid} {b : β} (h : k ≠ a) : [(a, b)].lookup k = none := by
  rw [List.lookup_cons, beq_false_of_ne h]
  rfl

/-- A session that is saved is told. -/
theorem shown_saved {old s : Session} (hold : db.sessions.get? s.id = some old)
    (hs : db'.sessions = db.sessions.set s) (id : Uuid) :
    shown db' id =
      (([(s.id, toEvent s)] : List (Uuid × SessionEvent)).lookup id).or (shown db id) := by
  unfold shown
  by_cases hid : id = s.id
  · subst hid
    rw [hs, Table.get?_set_self (by simp [hold]), List.lookup_cons_self]
    rfl
  · rw [hs, Table.get?_set_ne hid, lookup_other hid]
    rfl

/-- A saved session and its event, with the ledger as it was. -/
theorem told_saved (s : Session) {old : Session} {event : DomainEvent}
    (hold : db.sessions.get? s.id = some old) (hs : db'.sessions = db.sessions.set s)
    (hd : db'.debtTransactions = db.debtTransactions)
    (hsession : event.session? = some (s.id, toEvent s)) (hbalance : event.balance? = none) :
    Told db db' [event] := by
  refine ⟨fun id => ?_, fun k _ => ?_⟩
  · have hnews : [event].filterMap DomainEvent.session? = [(s.id, toEvent s)] := by
      rw [List.filterMap_cons_some hsession, List.filterMap_nil]
    rw [lastSession, hnews]
    exact shown_saved hold hs id
  · have hnews : [event].filterMap DomainEvent.balance? = [] := by
      rw [List.filterMap_cons_none hbalance, List.filterMap_nil]
    rw [lastBalance, hnews, Debt.balance_congr hd]
    rfl

/-- The events of an entry: its balance, if it can be read. -/
def entryNews (event : DebtEvent → DomainEvent) (db : Db) (entry : DebtTransaction) :
    List DomainEvent :=
  if h : |db.balance entry.customerId| ≤ Binary64.maxSafeInteger then
    [event (debtEvent entry.customerId entry ⟨_, h⟩)]
  else []

/-- An announcement of an entry, whether it throws or not. -/
theorem emitAfterChange_world (event : DebtEvent → DomainEvent) (entry : DebtTransaction)
    (w : World) :
    ((emitAfterChange entry.customerId event entry).call w).2 =
      ⟨w.db, entryNews event w.db entry ++ w.events⟩ := by
  unfold emitAfterChange entryNews
  rw [Service.call_bind]
  by_cases h : |w.db.balance entry.customerId| ≤ Binary64.maxSafeInteger
  · rw [call_getBalance_ok h, dif_pos h]
    rfl
  · obtain ⟨e, he⟩ := call_getBalance_error h
    rw [he, dif_neg h]
    rfl

/-- The event of an entry tells the balance and no session. -/
structure Announces (event : DebtEvent → DomainEvent) : Prop where
  balance : ∀ payload, (event payload).balance? = some (payload.customerId, payload.balance)
  session : ∀ payload, (event payload).session? = none

theorem announces_debtUpdated : Announces .debtUpdated := ⟨fun _ => rfl, fun _ => rfl⟩

theorem announces_debtCreated : Announces .debtCreated := ⟨fun _ => rfl, fun _ => rfl⟩

/-- **An entry that is booked is told**, if its balance can be read. -/
theorem told_booked {event : DebtEvent → DomainEvent} {entry : DebtTransaction}
    (hevent : Announces event) (hid : db.debtTransactions.get? entry.id = none)
    (hs : db'.sessions = db.sessions) (hd : db'.debtTransactions = db.debtTransactions.insert entry) :
    Told db db' (entryNews event db' entry) := by
  have hsilent : (entryNews event db' entry).filterMap DomainEvent.session? = [] := by
    unfold entryNews
    split_ifs with h
    · rw [List.filterMap_cons_none (hevent.session _), List.filterMap_nil]
    · rfl
  refine ⟨fun id => ?_, fun k hread => ?_⟩
  · rw [lastSession, hsilent, shown, shown, hs]
    rfl
  · have happended : db'.balance k = (Debt.append db entry).balance k := Debt.balance_congr hd k
    have happend : db'.balance k = db.balance k +
        if entry.customerId = k then entry.signedAmount else 0 :=
      happended.trans (Debt.balance_append hid k)
    by_cases hk : entry.customerId = k
    · subst hk
      have hpos : |db'.balance entry.customerId| ≤ Binary64.maxSafeInteger := hread
      have hnews : lastBalance (entryNews event db' entry) entry.customerId =
          some (db'.balance entry.customerId) := by
        rw [lastBalance, entryNews, dif_pos hpos, List.filterMap_cons_some (hevent.balance _)]
        exact List.lookup_cons_self
      rw [hnews]
      rfl
    · have hnews : lastBalance (entryNews event db' entry) k = none := by
        unfold lastBalance entryNews
        split_ifs with h
        · rw [List.filterMap_cons_some (hevent.balance _), List.filterMap_nil]
          exact lookup_other (Ne.symm hk)
        · rfl
      rw [hnews, happend, if_neg hk, add_zero]
      rfl

/-- A session that is opened is told. -/
theorem shown_opened {s : Session} (hnew : db.sessions.get? s.id = none) (id : Uuid) :
    shown (opened db s) id =
      (([(s.id, toEvent s)] : List (Uuid × SessionEvent)).lookup id).or (shown db id) := by
  unfold shown
  rw [opened_sessions]
  by_cases hid : id = s.id
  · subst hid
    rw [Table.get?_insert_self hnew, List.lookup_cons_self]
    rfl
  · rw [Table.get?_insert_ne hid, lookup_other hid]
    rfl

/-- **The sessions of a group are told** one after another. -/
theorem startAll_shown {dto : StartSessionDto} {ctx : ActorContext} {startedAt : Instant}
    {groupId : Option Uuid} {customer : Option Customer} {ids : List (UuidText × Uuid)}
    {results : List Session}
    (h : store.eval (startAll dto ctx startedAt groupId customer ids) db = .ok (results, db'))
    (id : Uuid) : shown db' id =
      (lastSession (results.map fun s => .sessionStarted (toEvent s)).reverse id).or
        (shown db id) := by
  induction ids generalizing db results with
  | nil =>
    cases h
    rfl
  | cons x ids ih =>
    obtain ⟨s, db₁, hone, h⟩ := (Sem.eval_bind_ok store).mp h
    obtain ⟨rest, db₂, hrest, h⟩ := (Sem.eval_bind_ok store).mp h
    cases h
    obtain ⟨computer, room, plannedEndAt, amount, -, rfl, hid, -, -, rfl⟩ := startOne_ok.mp hone
    rw [ih hrest, shown_opened hid, List.map_cons, List.reverse_cons, lastSession_append,
      Option.or_assoc]
    rfl

/-- What is returned after a call. -/
theorem call_bind_pure {α β : Type} (x : Service α) (b : β) (w : World) :
    ((x >>= fun _ => pure b).call w).2 = (x.call w).2 := by
  rw [Service.call_bind]
  rcases x.call w with ⟨e | a, w'⟩ <;> rfl

/-- What a call tells. -/
def Tells (w w' : World) : Prop :=
  ∃ news, w'.events = news ++ w.events ∧ Told w.db w'.db news

theorem tells_same : Tells w w := ⟨[], rfl, told_same⟩

theorem tells_start (dto : StartSessionDto) (ctx : ActorContext) (startedAt : Instant)
    (randomUUID : Uuid) (newIds : ℕ → Uuid) :
    Tells w ((start dto ctx startedAt randomUUID newIds).call w).2 := by
  rcases h : store.eval (Sessions.start dto ctx startedAt randomUUID newIds) w.db with
    e | ⟨results, db'⟩
  · rw [call_start_error h]
    exact tells_same
  · rw [call_start_ok h]
    obtain ⟨groupId, customer, -, hall⟩ := start_ok h
    have hbalances : ((results.map fun s => DomainEvent.sessionStarted (toEvent s)).reverse).filterMap
        DomainEvent.balance? = [] := by
      rw [List.filterMap_eq_nil_iff]
      intro e he
      obtain ⟨s, -, rfl⟩ := List.mem_map.mp (List.mem_reverse.mp he)
      rfl
    refine ⟨_, rfl, startAll_shown hall, fun k _ => ?_⟩
    rw [lastBalance, hbalances, Debt.balance_congr (start_ledger h)]
    rfl

theorem tells_extend (id : UuidText) (dto : ExtendSessionDto) :
    Tells w ((extend id dto).call w).2 := by
  unfold extend
  rw [Service.call_bind]
  rcases h : store.eval (Sessions.extend id dto) w.db with e | ⟨updated, db'⟩
  · rw [call_transaction_error h]
    exact tells_same
  · rw [call_transaction_ok h]
    obtain ⟨session, p, plannedEndAt, hs, -, -, -, rfl, rfl⟩ := extend_ok.mp h
    have hold := Table.get?_of_mem (Table.mem_of_get? hs).1
    exact ⟨[_], rfl, told_saved { session with
      plannedEndAt, amountDue := p.plannedAmount.value } hold rfl rfl rfl rfl⟩

theorem tells_cancel (id : UuidText) (ctx : ActorContext) (now : Instant) :
    Tells w ((cancel id ctx now).call w).2 := by
  rcases h : store.eval (Sessions.cancel id ctx now) w.db with e | ⟨saved, db'⟩
  · unfold cancel
    rw [Service.call_bind, call_transaction_error h]
    exact tells_same
  · rw [call_cancel_ok h]
    obtain ⟨session, hs, -, rfl, rfl⟩ := cancel_ok.mp h
    have hold := Table.get?_of_mem (Table.mem_of_get? hs).1
    exact ⟨[_], rfl, told_saved { session with
      status := .cancelled
      endedAt := some now
      amountDue := 0
      amountPaid := 0
      endedBy := some ctx.actorId } hold (release_sessions _ _)
      (release_debtTransactions _ _) rfl rfl⟩

theorem tells_endSession (id : UuidText) (dto : EndSessionDto) (ctx : ActorContext)
    (endedAt : Instant) (newId : Uuid) :
    Tells w ((endSession id dto ctx endedAt newId).call w).2 := by
  unfold endSession
  rw [Service.call_bind]
  rcases h : store.eval (Sessions.endSession id dto ctx endedAt newId) w.db with
    e | ⟨⟨saved, debt⟩, db'⟩
  · rw [call_transaction_error h]
    exact tells_same
  · rw [call_transaction_ok h]
    dsimp only
    rw [Service.call_bind, call_emit]
    dsimp only
    obtain ⟨session, due, paid, hs, -, -, -, rfl, hset⟩ := endSession_ok.mp h
    have hold := Table.get?_of_mem (Table.mem_of_get? hs).1
    have hended : Told w.db (save w.db (endedSession session dto ctx endedAt due paid))
        [.sessionEnded (toEvent (endedSession session dto ctx endedAt due paid))] :=
      told_saved (endedSession session dto ctx endedAt due paid) hold rfl rfl rfl rfl
    cases hset with
    | inFull heq =>
      exact ⟨[_], rfl, told_saved (endedSession session dto ctx endedAt due paid) hold
        (release_sessions _ _)
        (release_debtTransactions _ _) rfl rfl⟩
    | @booked customerId hlt hc hid hrow =>
      have hcustomer : (endedSession session dto ctx endedAt due paid).customerId = some customerId :=
        hc
      have hannounce : announceDebtEntry (endedSession session dto ctx endedAt due paid)
          (some (shortfallRow session ctx customerId newId due paid)) =
          emitAfterChange (shortfallRow session ctx customerId newId due paid).customerId
            .debtCreated (shortfallRow session ctx customerId newId due paid) := by
        simp only [announceDebtEntry, hcustomer]
        rfl
      have hmid : ∀ k, (save w.db (endedSession session dto ctx endedAt due paid)).balance k =
          (lastBalance [.sessionEnded (toEvent (endedSession session dto ctx endedAt due paid))]
            k).getD (w.db.balance k) := fun k => Debt.balance_congr rfl k
      rw [hannounce, call_bind_pure, emitAfterChange_world]
      refine ⟨_, List.append_cons .., hended.trans ?_ hmid⟩
      exact told_booked announces_debtCreated hid (release_sessions _ _)
        (release_debtTransactions _ _)

/-- An entry that is booked by a transaction of its own. -/
theorem tells_entry {p : Txn DebtTransaction} {event : DebtEvent → DomainEvent}
    (hevent : Announces event)
    (hp : ∀ entry db', store.eval p w.db = .ok (entry, db') → entry.customerId = customerId ∧
      w.db.debtTransactions.get? entry.id = none ∧ db' = Debt.append w.db entry) :
    Tells w ((transaction p >>= fun entry => emitAfterChange customerId event entry >>= fun _ =>
      pure entry).call w).2 := by
  rw [Service.call_bind]
  rcases h : store.eval p w.db with e | ⟨entry, db'⟩
  · rw [call_transaction_error h]
    exact tells_same
  · rw [call_transaction_ok h]
    obtain ⟨rfl, hid, rfl⟩ := hp entry db' h
    dsimp only
    rw [call_bind_pure, emitAfterChange_world]
    exact ⟨_, rfl, told_booked hevent hid rfl rfl⟩

/-- A call that leaves the sessions and the ledger alone. -/
theorem tells_silent (news : List DomainEvent) (hs : db'.sessions = w.db.sessions)
    (hd : db'.debtTransactions = w.db.debtTransactions) (hnews : Silent news) :
    Tells w ⟨db', news ++ w.events⟩ := ⟨news, rfl, told_silent hs hd hnews⟩

theorem step_tells (w : World) (op : Op) : Tells w (w.step op) := by
  cases op with
  | start dto ctx startedAt randomUUID newIds => exact tells_start dto ctx startedAt randomUUID newIds
  | extend id dto => exact tells_extend id dto
  | endSession id dto ctx endedAt newId => exact tells_endSession id dto ctx endedAt newId
  | cancel id ctx now => exact tells_cancel id ctx now
  | recordPayment input newId =>
    refine tells_entry announces_debtUpdated fun entry db' h => ?_
    obtain ⟨_, _, -, -, -, -, -, rfl, hid, rfl⟩ := Debt.recordPayment_ok.mp h
    exact ⟨rfl, hid, rfl⟩
  | correct customerId signedAmount actorId reason newId =>
    refine tells_entry announces_debtUpdated fun entry db' h => ?_
    obtain ⟨_, -, -, rfl, hid, -, rfl⟩ := Debt.correct_ok.mp h
    exact ⟨rfl, hid, rfl⟩
  | createComputer dto newId =>
    rw [World.step]
    rcases Computers.create_call dto newId w with ⟨e, he⟩ | ⟨-, hok⟩
    · rw [he]
      exact tells_same
    · rw [hok]
      exact tells_silent [_] rfl rfl ⟨rfl, rfl⟩
  | updateComputer id dto byRelation =>
    rw [World.step, Computers.update_call]
    rcases Computers.updatedRow id dto byRelation w.db with e | ⟨saved, row⟩
    · exact tells_same
    · exact tells_silent [_] rfl rfl ⟨rfl, rfl⟩
  | removeComputer id now =>
    rw [World.step]
    rcases Computers.remove_call id now w with ⟨e, he⟩ | ⟨stored, -, hok⟩
    · rw [he]
      exact tells_same
    · rw [hok]
      exact tells_silent [] rfl rfl ⟨rfl, rfl⟩
  | updateRoom id dto =>
    rw [World.step]
    rcases Rooms.update_call id dto w with ⟨e, he⟩ | ⟨room, row, -, -, -, hok⟩
    · rw [he]
      exact tells_same
    · rw [hok]
      exact tells_silent [] rfl rfl ⟨rfl, rfl⟩

/-- **Every call tells what it has changed**, whether it throws or not. -/
theorem perform_tells (w : World) (c : Call) : Tells w (w.perform c) := by
  have hsilent : ∀ {α : Type} {x : Service α}, ((∃ e, x.call w = (.error e, w)) ∨
      ∃ a db', x.call w = (.ok a, ⟨db', w.events⟩) ∧ db'.sessions = w.db.sessions ∧
        db'.debtTransactions = w.db.debtTransactions) → Tells w (x.call w).2 := by
    rintro α x (⟨e, he⟩ | ⟨a, db', hok, hs, hd⟩)
    · rw [he]
      exact tells_same
    · rw [hok]
      exact ⟨[], rfl, told_silent hs hd ⟨rfl, rfl⟩⟩
  cases c with
  | op op => exact step_tells w op
  | createRoom dto newId =>
    exact hsilent ((Rooms.create_call dto newId w).imp_right fun ⟨_, hok⟩ =>
      ⟨_, _, hok, rfl, rfl⟩)
  | removeRoom id now =>
    exact hsilent ((Rooms.remove_call id now w).imp_right fun ⟨_, _, hok⟩ => ⟨_, _, hok, rfl, rfl⟩)
  | createCustomer dto newId =>
    exact hsilent ((Customers.create_call dto newId w).imp_right fun ⟨_, hok⟩ =>
      ⟨_, _, hok, rfl, rfl⟩)
  | updateCustomer id dto =>
    exact hsilent ((Customers.update_call id dto w).imp_right fun ⟨_, _, _, _, _, hok⟩ =>
      ⟨_, _, hok, rfl, rfl⟩)
  | removeCustomer id now =>
    exact hsilent ((Customers.remove_call id now w).imp_right fun ⟨_, _, hok⟩ =>
      ⟨_, _, hok, rfl, rfl⟩)

/-! ### Runs of calls -/

/-- The balance can be read after every call. -/
def ReadableThroughout (w : World) (calls : List Call) (customerId : Uuid) : Prop :=
  ∀ before, before <+: calls → before ≠ [] →
    Readable (before.foldl World.perform w).db customerId

/-- **The feed tells everything.** From any state of the club and after any calls, accepted or not, the
events since then are all that is needed: a session is as the last event about it says, or as it was;
and a balance that could be read after every call is the one that was last announced, or what it was. -/
theorem feed_told (w : World) (calls : List Call) :
    ∃ news, (calls.foldl World.perform w).events = news ++ w.events ∧
      (∀ id, shown (calls.foldl World.perform w).db id =
        (lastSession news id).or (shown w.db id)) ∧
      ∀ customerId, ReadableThroughout w calls customerId →
        (calls.foldl World.perform w).db.balance customerId =
          (lastBalance news customerId).getD (w.db.balance customerId) := by
  induction calls using List.reverseRecOn with
  | nil => exact ⟨[], rfl, fun id => rfl, fun k _ => rfl⟩
  | append_singleton calls c ih =>
    obtain ⟨news, hevents, hsessions, hbalances⟩ := ih
    rw [List.foldl_append, List.foldl_cons, List.foldl_nil]
    obtain ⟨more, hmore, htold⟩ := perform_tells (calls.foldl World.perform w) c
    refine ⟨more ++ news, by rw [hmore, hevents, List.append_assoc], fun id => ?_, fun k hk => ?_⟩
    · rw [htold.sessions id, hsessions id, lastSession_append, Option.or_assoc]
    · have hbefore : ReadableThroughout w calls k := fun before hpre hne =>
        hk before (hpre.trans (List.prefix_append ..)) hne
      have hnow : Readable ((calls.foldl World.perform w).perform c).db k := by
        have hall := hk (calls ++ [c]) (List.prefix_refl _) (by simp)
        rwa [List.foldl_append] at hall
      rw [htold.balances k hnow, hbalances k hbefore, lastBalance_append]
      cases lastBalance more k <;> rfl

end GameClub.Services
