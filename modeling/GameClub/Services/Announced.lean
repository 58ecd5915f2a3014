import GameClub.Lib.Outstanding
import GameClub.Services.Announcements

/-! # Every entry is announced once

Payments, corrections and session ends side by side, as in the announced balances. An entry is booked
by a transaction, and the request announces it after the commit, when others may have booked and
announced theirs.

* `ledgerItems`: the entries booked, those announced, and the one a request has yet to announce.
* `announced_once`: when no request is in flight any more, the events of the ledger are the entries of
  the run, one event each. -/

namespace GameClub.Services.Announcements

open GameClub.Lib GameClub.Lib.Binary64 GameClub.Lib.Interleave GameClub.Common GameClub.Store
  GameClub.Sessions

/-! ### Entries and events -/

/-- What an entry of the ledger and its event have in common: `created` is for a new debt. -/
structure Announcement where
  created : Bool
  transactionId : Uuid
  customerId : Uuid
  type : DebtTransactionType
  signedAmount : ℤ
deriving DecidableEq

/-- What is to be announced of an entry. -/
def ofEntry (e : DebtTransaction) : Announcement :=
  ⟨decide (e.type = .debtAdd), e.id, e.customerId, e.type, e.signedAmount⟩

def ofPayload (created : Bool) (p : DebtEvent) : Announcement :=
  ⟨created, p.transactionId, p.customerId, p.type, p.signedAmount⟩

/-- What an event of the ledger announces. -/
def ofEvent : DomainEvent → Option Announcement
  | .debtCreated payload => some (ofPayload true payload)
  | .debtUpdated payload => some (ofPayload false payload)
  | _ => none

def DebtChange.isCreated : DebtChange → Bool
  | .created => true
  | .updated => false

/-- The announcement of an entry for a customer. -/
def announcement (customerId : Uuid) (change : DebtChange) (entry : DebtTransaction) :
    Announcement := ⟨change.isCreated, entry.id, customerId, entry.type, entry.signedAmount⟩

/-- What a request has booked and not announced yet. -/
def carried : Phase → Option Announcement
  | .ended result (some entry) => result.customerId.map fun id => announcement id .created entry
  | .reading customerId change entry _ => some (announcement customerId change entry)
  | .emitting customerId change entry _ _ _ => some (announcement customerId change entry)
  | _ => none

/-- **The items of a run** that starts with the entries `old`: these count as announced. -/
def ledgerItems (old : List DebtTransaction) : Items Process Phase Announcement where
  booked w := w.world.db.debtTransactions.rows.map ofEntry
  announced w := w.world.events.filterMap ofEvent ++ old.map ofEntry
  carried := carried

/-- A balance that is read is in range. -/
def Reads : BalanceEvent → Prop
  | .called _ (.reading customerId _ _ _) w =>
    |w.world.db.balance customerId| ≤ maxSafeInteger
  | _ => True

/-- The condition, checked. -/
def checkedReads : BalanceEvent → Bool
  | .called _ (.reading customerId _ _ _) w =>
    decide (|w.world.db.balance customerId| ≤ maxSafeInteger)
  | _ => true

theorem reads_of_checked {e : BalanceEvent} (h : checkedReads e = true) : Reads e := by
  unfold Reads
  split
  · exact of_decide_eq_true h
  · trivial

theorem ofEvent_event (change : DebtChange) (customerId : Uuid) (entry : DebtTransaction)
    (balance : Money) : ofEvent (change.event (debtEvent customerId entry balance)) =
      some (announcement customerId change entry) := by
  cases change <;> rfl

theorem nodup_ofEntry (t : Table DebtTransaction.id) : (t.rows.map ofEntry).Nodup := by
  refine List.Nodup.of_map Announcement.transactionId ?_
  rw [List.map_map]
  exact t.nodup

/-- An entry with a new id is none of those booked. -/
theorem ofEntry_not_mem {t : Table DebtTransaction.id} {e : DebtTransaction}
    (h : t.get? e.id = none) : ofEntry e ∉ t.rows.map ofEntry := by
  intro hmem
  obtain ⟨r, hr, heq⟩ := List.mem_map.mp hmem
  have hid : r.id = e.id := congrArg Announcement.transactionId heq
  exact Table.get?_eq_none.mp h (hid ▸ List.mem_map_of_mem hr)

/-! ### What a call does -/

variable {old : List DebtTransaction} {D : Prop} {w : Process}

/-- **A transaction** books one entry, which the request is then to announce, or none. -/
theorem moves_transaction {α : Type} {p : Txn α} {next : Except Thrown α → Phase} {q : MoneyCall}
    (herr : ∀ e, carried (next (.error e)) = none)
    (hok : ∀ a db', store.eval p w.world.db = .ok (a, db') →
      (db'.debtTransactions = w.world.db.debtTransactions ∧ carried (next (.ok a)) = none) ∨
      ∃ e, w.world.db.debtTransactions.get? e.id = none ∧
        db'.debtTransactions = w.world.db.debtTransactions.insert e ∧
        carried (next (.ok a)) = some (ofEntry e)) :
    (ledgerItems old).Moves D w (w.answer (transaction p)).2 (.committing q)
      (next (w.answer (transaction p)).1) := by
  unfold Process.answer
  cases he : store.eval p w.world.db with
  | error e =>
    rw [call_transaction_error he]
    exact .other rfl rfl (herr e)
  | ok x =>
    obtain ⟨a, db'⟩ := x
    rw [call_transaction_ok he]
    rcases hok a db' he with ⟨hsame, hnone⟩ | ⟨e, hnew, hinsert, hcarried⟩
    · exact .other (congrArg (fun t => t.rows.map ofEntry) hsame) rfl hnone
    · refine .book (ofEntry_not_mem hnew) ?_ rfl rfl hcarried
      change db'.debtTransactions.rows.map ofEntry = _
      rw [hinsert, Table.rows_insert hnew, List.map_append]
      rfl

/-- A payment or a correction books an entry of its customer. -/
theorem moves_booked {p : Txn DebtTransaction} {id : Uuid} {q : MoneyCall}
    (hok : ∀ entry db', store.eval p w.world.db = .ok (entry, db') → entry.customerId = id ∧
      entry.type ≠ .debtAdd ∧ w.world.db.debtTransactions.get? entry.id = none ∧
      db' = Debt.append w.world.db entry) :
    (ledgerItems old).Moves D w (w.answer (transaction p)).2 (.committing q)
      (booked id (w.answer (transaction p)).1) := by
  refine moves_transaction (fun e => rfl) fun entry db' he => Or.inr ?_
  obtain ⟨rfl, htype, hnew, rfl⟩ := hok entry db' he
  refine ⟨entry, hnew, rfl, ?_⟩
  simp [booked, carried, announcement, ofEntry, DebtChange.isCreated, htype]

/-- A session end books the shortfall on the customer of the session, or nothing. -/
theorem carried_settled {db db' : Db} {session saved : Session} {ctx : ActorContext} {newId : Uuid}
    {due paid : Money} {debt : Option DebtTransaction} (hcustomer : saved.customerId = session.customerId)
    (h : Settles db session saved ctx newId due paid debt db') :
    (db'.debtTransactions = db.debtTransactions ∧ carried (.ended saved debt) = none) ∨
      ∃ e, db.debtTransactions.get? e.id = none ∧
        db'.debtTransactions = db.debtTransactions.insert e ∧
        carried (.ended saved debt) = some (ofEntry e) := by
  cases h with
  | inFull heq => exact Or.inl ⟨release_debtTransactions _ _, rfl⟩
  | @booked id hlt hc hid hrow =>
    refine Or.inr ⟨shortfallRow session ctx id newId due paid, hid, release_debtTransactions _ _, ?_⟩
    simp only [carried, hcustomer, hc]
    rfl

theorem moves_committing {q : MoneyCall} {s : Call} {k : Res s → Phase}
    (hv : view (.committing q) = .call s k) :
    (ledgerItems old).Moves D w (exec s w).2 (.committing q) (k (exec s w).1) := by
  cases q with
  | recordPayment input newId =>
    cases hv
    refine moves_booked fun entry db' he => ?_
    obtain ⟨magnitude, customer, -, -, -, -, -, rfl, hid, rfl⟩ := Debt.recordPayment_ok.mp he
    exact ⟨rfl, by simp, hid, rfl⟩
  | correct id signedAmount actorId reason newId =>
    cases hv
    refine moves_booked fun entry db' he => ?_
    obtain ⟨value, -, -, rfl, hid, -, rfl⟩ := Debt.correct_ok.mp he
    exact ⟨rfl, by simp, hid, rfl⟩
  | endSession id dto ctx endedAt newId =>
    cases hv
    refine moves_transaction (fun e => rfl) fun ended db' he => ?_
    obtain ⟨saved, debt⟩ := ended
    obtain ⟨session, due, paid, -, -, -, -, hsaved, hset⟩ := endSession_ok.mp he
    exact carried_settled (by rw [hsaved, endedSession]) hset

/-- The event of the session leaves the entry to be announced. -/
theorem carried_announcing (result : Session) (debtEntry : Option DebtTransaction) :
    carried (announcing result debtEntry) = carried (.ended result debtEntry) := by
  unfold announcing
  cases debtEntry with
  | none => rfl
  | some entry => cases h : result.customerId <;> simp [carried, h]

/-- A balance in range is read, and the entry is still to be announced. -/
theorem carried_known {id : Uuid} {change : DebtChange} {entry : DebtTransaction} {reply : Reply}
    (hsafe : |w.world.db.balance id| ≤ maxSafeInteger) :
    carried (known id change entry reply (exec (.getBalance id) w).1) =
      some (announcement id change entry) := by
  have hbalance : (exec (.getBalance id) w).1.balance = .ok ⟨_, hsafe⟩ :=
    congrArg Prod.fst (call_getBalance_ok hsafe)
  unfold known
  rw [hbalance]
  rfl

/-- A balance out of range is refused, and the entry is given up. -/
theorem carried_known_error {id : Uuid} {change : DebtChange} {entry : DebtTransaction}
    {reply : Reply} (hsafe : ¬ |w.world.db.balance id| ≤ maxSafeInteger) :
    carried (known id change entry reply (exec (.getBalance id) w).1) = none := by
  obtain ⟨e, he⟩ := call_getBalance_error hsafe
  have hbalance : (exec (.getBalance id) w).1.balance = .error e := congrArg Prod.fst he
  unfold known
  rw [hbalance]
  rfl

/-! ### Runs -/

/-- **The system tracks the entries**; one is given up when a balance that is read is out of range. -/
theorem tracks {A : BalanceConfig → BalanceEvent → Prop} (old : List DebtTransaction)
    (hread : ∀ {c i p w}, A c (.called i p w) → ¬ Reads (.called i p w) → D) :
    (ledgerItems old).Tracks system A D where
  start _ := rfl
  done := by
    intro p r hv
    rw [view_done hv]
    rfl
  moves := by
    intro c i p s k ha hv
    cases p with
    | finished r => cases hv
    | committing q => exact moves_committing hv
    | ended result debtEntry =>
      cases hv
      exact .other rfl rfl (carried_announcing result debtEntry)
    | reading id change entry reply =>
      cases hv
      by_cases hsafe : |c.db.world.db.balance id| ≤ maxSafeInteger
      · exact .other rfl rfl (carried_known hsafe)
      · exact .giveUp (hread ha hsafe) rfl rfl (carried_known_error hsafe)
    | emitting id change entry reply balance number =>
      cases hv
      refine .announce rfl ?_ rfl rfl
      have hevent := ofEvent_event change id entry balance
      change List.filterMap ofEvent (_ :: _) ++ _ = _
      rw [List.filterMap_cons_some hevent]
      rfl
  pass _ _ := ⟨rfl, rfl⟩

/-- What the events announce, the last one first. -/
def announcements (c : BalanceConfig) : List Announcement := c.db.world.events.filterMap ofEvent

/-- **The entries of a run**: they come after the old ones, and when no request is in flight any more
and no balance that was read was out of range, the events are those of these entries. -/
theorem exists_added {db : Db} {tr : List BalanceEvent} {c : BalanceConfig}
    (hrun : system.Run (fun _ _ => True) (.idle ⟨⟨db, []⟩, 0⟩) tr c) (hq : c.Quiet)
    (hreads : ∀ e ∈ tr, Reads e) : ∃ added : List DebtTransaction,
      c.db.world.db.debtTransactions.rows.map ofEntry =
        db.debtTransactions.rows.map ofEntry ++ added.map ofEntry ∧
      (announcements c).Perm (added.map ofEntry) := by
  have htracks : (ledgerItems db.debtTransactions.rows).Tracks system (fun _ e => Reads e) False :=
    tracks _ fun ha hno => hno ha
  have hall := Items.run_of_events hrun hreads
  obtain ⟨added, hadded⟩ := (htracks.inv (nodup_ofEntry _) (.refl _) hall).grows
  have hperm : (announcements c ++ db.debtTransactions.rows.map ofEntry).Perm
      (c.db.world.db.debtTransactions.rows.map ofEntry) :=
    htracks.perm_of_quiet (nodup_ofEntry _) (.refl _) hall hq
  obtain ⟨oldRows, newRows, hrows, -, hnew⟩ := List.map_eq_append_iff.mp hadded.symm
  have hbooked : c.db.world.db.debtTransactions.rows.map ofEntry =
      db.debtTransactions.rows.map ofEntry ++ newRows.map ofEntry := by
    rw [hnew]
    exact hadded.symm
  refine ⟨newRows, hbooked, ?_⟩
  rw [hbooked] at hperm
  exact (List.perm_append_left_iff _).mp (List.perm_append_comm.trans hperm)

/-- **Every entry is announced once**: in every interleaved run the ledger grows by entries, an event
of the ledger is one of these, and no two events are the same one; and when no request is in flight
any more, and no balance that was read was out of range, each of these has its event. -/
theorem announced_once {db : Db} {tr : List BalanceEvent} {c : BalanceConfig}
    (hrun : system.Run (fun _ _ => True) (.idle ⟨⟨db, []⟩, 0⟩) tr c) :
    ∃ added, c.db.world.db.debtTransactions.rows.map ofEntry =
        db.debtTransactions.rows.map ofEntry ++ added ∧
      (announcements c).Nodup ∧ (∀ a ∈ announcements c, a ∈ added) ∧
      (c.Quiet → (∀ e ∈ tr, Reads e) → (announcements c).Perm added) := by
  have hinv := (tracks (D := True) db.debtTransactions.rows fun _ _ => trivial).inv
    (nodup_ofEntry _) (.refl _) hrun
  obtain ⟨added, hadded⟩ := hinv.grows
  have hbooked : c.db.world.db.debtTransactions.rows.map ofEntry =
      db.debtTransactions.rows.map ofEntry ++ added := hadded.symm
  have hnodup : (announcements c ++ db.debtTransactions.rows.map ofEntry).Nodup := hinv.nodup
  obtain ⟨hevents, -, hdisjoint⟩ := List.nodup_append.mp hnodup
  refine ⟨added, hbooked, hevents, fun a ha => ?_, fun hq hreads => ?_⟩
  · have hmem : a ∈ c.db.world.db.debtTransactions.rows.map ofEntry :=
      hinv.booked a (List.mem_append_left _ ha)
    rw [hbooked] at hmem
    rcases List.mem_append.mp hmem with hold | hnew
    · exact absurd rfl (hdisjoint a ha a hold)
    · exact hnew
  · have hperm : (announcements c ++ db.debtTransactions.rows.map ofEntry).Perm
        (c.db.world.db.debtTransactions.rows.map ofEntry) :=
      (tracks (A := fun _ e => Reads e) db.debtTransactions.rows
        fun ha hno => hno ha).perm_of_quiet (nodup_ofEntry _) (.refl _)
        (Items.run_of_events hrun hreads) hq
    rw [hbooked] at hperm
    exact (List.perm_append_left_iff _).mp (List.perm_append_comm.trans hperm)

/-- Two corrections side by side: both are announced, once each. -/
theorem announced_once_both : ∃ tr c, system.Run (fun _ _ => True)
    (.idle ⟨⟨newCustomer.db, []⟩, 0⟩) tr c ∧ c.Quiet ∧
    (announcements c).Perm [⟨false, 7, 1, .debtCorrection, 100⟩, ⟨false, 8, 1, .debtCorrection, 50⟩] := by
  obtain ⟨tr, c, hrun, hcheck, hthreads⟩ := System.exists_run (S := system)
    (A := fun _ _ => True) (fun _ _ => true) 2 (fun _ _ _ _ => trivial)
    ⟨⟨newCustomer.db, []⟩, 0⟩
    ([.arrive 0 first, .run 0, .run 0] ++ .arrive 1 second :: List.replicate 4 (.run 1) ++
      [.run 0, .run 0])
    (fun x => x.2.allOver 2 && x.1.all checkedReads && decide (
      x.2.db.world.db.debtTransactions.rows.map ofEntry =
        [⟨false, 7, 1, .debtCorrection, 100⟩, ⟨false, 8, 1, .debtCorrection, 50⟩]))
    (by decide) (by decide +kernel)
  obtain ⟨hfirst, hrows⟩ := Bool.and_eq_true_iff.mp hcheck
  obtain ⟨hover, hreads⟩ := Bool.and_eq_true_iff.mp hfirst
  have hquiet := Config.quiet_of_allOver hover hthreads
  obtain ⟨added, hadded, -, -, hperm⟩ := announced_once hrun
  have hrows := of_decide_eq_true hrows
  rw [hadded] at hrows
  obtain rfl : added = _ := hrows
  exact ⟨tr, c, hrun, hquiet, hperm hquiet fun e he =>
    reads_of_checked (List.all_eq_true.mp hreads e he)⟩

end GameClub.Services.Announcements
