import GameClub.Common.Decimal
import GameClub.Services.Announced

/-! # Notifications

The inbox of the staff: a notification for each `debt.created` event, which is marked as read by its
id, or with all others.

* `message_fits`: the text of a notification fits its column, so that it is not refused for it.
* `inbox_eq_noted`: the inbox after any sequence of events and readings.
* `debts_noticed`: however session ends, payments and corrections interleave, each debt has one
  notification. -/

namespace GameClub.Services

open GameClub.Lib GameClub.Lib.Binary64 GameClub.Lib.Interleave GameClub.Common GameClub.Store
  GameClub.Sessions

inductive NotificationLevel
  | info
  | warning
  | critical
deriving DecidableEq

/-- A row of `notifications`. -/
structure Notification where
  id : Uuid
  type : String
  level : NotificationLevel
  title : String
  message : String
  entityType : Option String
  entityId : Option String
  isRead : Bool
deriving DecidableEq

/-- What `create` is given. -/
structure NotificationInput where
  type : String
  level : NotificationLevel
  title : String
  message : String
  entityType : Option String
  entityId : Option String

namespace NotificationsService

/-- The row of a new notification. -/
def newRow (input : NotificationInput) (newId : Uuid) : Notification where
  id := newId
  type := input.type
  level := input.level
  title := input.title
  message := input.message
  entityType := input.entityType
  entityId := input.entityId
  isRead := false

/-- The texts fit their columns. -/
def fits (input : NotificationInput) : Bool :=
  decide (input.type.length ≤ 64) && decide (input.title.length ≤ 160) &&
    decide (input.message.length ≤ 512) && input.entityType.all fun t => decide (t.length ≤ 64)

/-- `create`: nothing when the database refuses the row. -/
def create (input : NotificationInput) (newId : Uuid) (inbox : Table Notification.id) :
    Option (Table Notification.id) :=
  if fits input ∧ inbox.get? newId = none then some (inbox.insert (newRow input newId)) else none

/-- `${n}` -/
def amountText (n : ℤ) : String := String.ofList (numberText n)

def debtMessage (customerId : Uuid) (signedAmount balance : ℤ) : String :=
  "Customer " ++ Uuid.text customerId ++ " incurred " ++ amountText signedAmount ++
    ". Balance is now " ++ amountText balance ++ "."

def debtInput (payload : DebtEvent) : NotificationInput where
  type := "DEBT_CREATED"
  level := .warning
  title := "New debt recorded"
  message := debtMessage payload.customerId payload.signedAmount payload.balance
  entityType := some "Customer"
  entityId := some (Uuid.text payload.customerId)

/-- `onDebtCreated`: a failure is logged and contained. -/
def onDebtCreated (payload : DebtEvent) (newId : Uuid) (inbox : Table Notification.id) :
    Table Notification.id := (create (debtInput payload) newId inbox).getD inbox

/-- `update(criteria, { isRead: true })` -/
def markWhere (criteria : Notification → Bool) (inbox : Table Notification.id) :
    Table Notification.id :=
  inbox.mapRows (fun n => if criteria n then { n with isRead := true } else n) fun n => by
    split_ifs <;> rfl

def markRead (id : UuidText) : Table Notification.id → Table Notification.id :=
  markWhere fun n => n.id = id.value

def markAllRead : Table Notification.id → Table Notification.id := markWhere fun n => !n.isRead

end NotificationsService

open NotificationsService

/-! ### Deliveries -/

/-- What comes to the inbox: an event, with the id of its notification, or a reading. -/
inductive Delivery
  | event (e : DomainEvent) (newId : Uuid)
  | markRead (id : UuidText)
  | markAllRead

def deliver (inbox : Table Notification.id) : Delivery → Table Notification.id
  | .event (.debtCreated payload) newId => onDebtCreated payload newId inbox
  | .event _ _ => inbox
  | .markRead id => markRead id inbox
  | .markAllRead => markAllRead inbox

/-- The inbox after the deliveries `ds`. -/
def inbox (ds : List Delivery) : Table Notification.id := ds.foldl deliver .empty

/-- The delivery reads the notification `id`. -/
def Delivery.reads (id : Uuid) : Delivery → Bool
  | .markRead read => id = read.value
  | .markAllRead => true
  | .event _ _ => false

/-- The payload and the id of the notification a delivery makes. -/
def Delivery.noted : Delivery → Option (DebtEvent × Uuid)
  | .event (.debtCreated payload) newId => some (payload, newId)
  | _ => none

/-- A notification of a debt, read or not. -/
def notification (x : DebtEvent × Uuid) (isRead : Bool) : Notification :=
  { newRow (debtInput x.1) x.2 with isRead }

/-- **What the inbox has to be**: a notification for each new debt, in the order of the events, read
when a later delivery reads it. -/
def noted : List Delivery → List Notification
  | [] => []
  | d :: later =>
    (d.noted.map fun x => notification x (later.any (Delivery.reads x.2))).toList ++ noted later

/-- Every new debt has an id of its own, and amounts that are safe integers. -/
structure Delivered (ds : List Delivery) : Prop where
  ids : ((ds.filterMap Delivery.noted).map Prod.snd).Nodup
  safe : ∀ x ∈ ds.filterMap Delivery.noted, |x.1.signedAmount| ≤ maxSafeInteger ∧
    |x.1.balance| ≤ maxSafeInteger

/-! ### The texts -/

theorem length_amountText {n : ℤ} (h : |n| ≤ maxSafeInteger) : (amountText n).length ≤ 17 := by
  have hdigits : (Nat.toDigits 10 n.natAbs).length ≤ 16 := by
    refine Nat.toDigits_length 10 n.natAbs 16 (by norm_num) ?_
    have hlt : |n| < 10 ^ 16 := h.trans_lt (by decide)
    rw [Int.abs_eq_natAbs] at hlt
    exact_mod_cast hlt
  unfold amountText
  rw [numberText_safe h, String.length_ofList]
  unfold decimal
  split_ifs
  · rw [List.length_cons]
    omega
  · omega

theorem length_hexDigits (len n : ℕ) : (hexDigits len n).length = len := by
  simp [hexDigits]

theorem length_text (u : Uuid) : (Uuid.text u).length = 36 := by
  unfold Uuid.text
  rw [String.length_ofList]
  simp [length_hexDigits]

/-- **A notification of a debt fits its columns.** -/
theorem message_fits {payload : DebtEvent} (hamount : |payload.signedAmount| ≤ maxSafeInteger)
    (hbalance : |payload.balance| ≤ maxSafeInteger) : fits (debtInput payload) = true := by
  have h1 := length_amountText hamount
  have h2 := length_amountText hbalance
  have hlength : (debtInput payload).message.length ≤ 512 := by
    have htext := length_text payload.customerId
    have hpieces : "Customer ".length = 9 ∧ " incurred ".length = 10 ∧
        ". Balance is now ".length = 17 ∧ ".".length = 1 := by decide
    simp only [debtInput, debtMessage, String.length_append]
    omega
  have hothers : (decide ("DEBT_CREATED".length ≤ 64) && decide ("New debt recorded".length ≤ 160)) =
      true ∧ ((some "Customer").all fun t => decide (t.length ≤ 64)) = true := by decide
  have htext := decide_eq_true hlength
  exact Bool.and_eq_true_iff.mpr ⟨Bool.and_eq_true_iff.mpr ⟨hothers.1, htext⟩, hothers.2⟩

/-! ### The inbox -/

/-- A notification after a delivery. -/
def Delivery.readBy (d : Delivery) (n : Notification) : Notification :=
  if d.reads n.id then { n with isRead := true } else n

theorem readBy_notification (d : Delivery) (x : DebtEvent × Uuid) (isRead : Bool) :
    d.readBy (notification x isRead) = notification x (isRead || d.reads x.2) := by
  unfold Delivery.readBy
  have hid : (notification x isRead).id = x.2 := rfl
  rw [hid]
  cases d.reads x.2 with
  | false => simp
  | true => simp [notification, newRow]

/-- **One more delivery**: it reads notifications, and may make one. -/
theorem noted_concat (ds : List Delivery) (d : Delivery) : noted (ds ++ [d]) =
    (noted ds).map d.readBy ++ (d.noted.map fun x => notification x false).toList := by
  induction ds with
  | nil => simp [noted]
  | cons d' ds ih =>
    rw [List.cons_append, noted, noted, ih, List.map_append, List.append_assoc]
    congr 1
    rcases d'.noted with _ | x
    · rfl
    · simp [readBy_notification]

theorem mem_noted {ds : List Delivery} {n : Notification} (h : n ∈ noted ds) :
    ∃ x ∈ ds.filterMap Delivery.noted, ∃ isRead, n = notification x isRead := by
  induction ds with
  | nil => cases h
  | cons d ds ih =>
    rw [List.filterMap_cons]
    rcases List.mem_append.mp h with hnew | hold
    · obtain ⟨x, hx, rfl⟩ := Option.map_eq_some_iff.mp (Option.mem_toList.mp hnew)
      rw [hx]
      exact ⟨x, List.mem_cons_self .., _, rfl⟩
    · obtain ⟨x, hx, isRead, rfl⟩ := ih hold
      refine ⟨x, ?_, isRead, rfl⟩
      cases d.noted with
      | none => exact hx
      | some y => exact List.mem_cons_of_mem _ hx

/-- A reading leaves the rows it has not the criteria of. -/
theorem rows_markWhere {criteria : Notification → Bool} {d : Delivery}
    {inbox : Table Notification.id} (h : ∀ n ∈ inbox.rows,
      (if criteria n then { n with isRead := true } else n) = d.readBy n) :
    (markWhere criteria inbox).rows = inbox.rows.map d.readBy := List.map_congr_left h

/-- What reads nothing leaves everything. -/
theorem map_readBy_event (e : DomainEvent) (newId : Uuid) (rows : List Notification) :
    rows.map (Delivery.event e newId).readBy = rows := by
  have hsame : ∀ n ∈ rows, (Delivery.event e newId).readBy n = n := fun n _ => rfl
  rw [List.map_congr_left hsame, List.map_id']

/-- **The inbox is what it has to be**, after any deliveries. -/
theorem inbox_eq_noted {ds : List Delivery} (h : Delivered ds) : (inbox ds).rows = noted ds := by
  induction ds using List.reverseRecOn with
  | nil => rfl
  | append_singleton ds d ih =>
    have hsplit : (ds ++ [d]).filterMap Delivery.noted =
        ds.filterMap Delivery.noted ++ d.noted.toList := by
      rw [List.filterMap_append]
      cases hd : d.noted <;> simp [hd]
    have hrows : (inbox ds).rows = noted ds := by
      refine ih ⟨?_, fun x hx => h.safe x ?_⟩
      · have hids := h.ids
        rw [hsplit, List.map_append] at hids
        exact (List.nodup_append.mp hids).1
      · rw [hsplit]
        exact List.mem_append_left _ hx
    have hlast : inbox (ds ++ [d]) = deliver (inbox ds) d := by simp [inbox, List.foldl_append]
    rw [hlast, noted_concat, ← hrows]
    cases d with
    | event e newId =>
      rw [map_readBy_event]
      cases e with
      | debtCreated payload =>
        have hmem : (payload, newId) ∈
            (ds ++ [Delivery.event (.debtCreated payload) newId]).filterMap Delivery.noted := by
          rw [hsplit]
          exact List.mem_append_right _ (List.mem_singleton_self _)
        obtain ⟨hamount, hbalance⟩ := h.safe _ hmem
        -- the id is not that of an earlier notification
        have hnew : (inbox ds).get? newId = none := by
          refine Table.get?_eq_none.mpr fun hold => ?_
          obtain ⟨n, hn, hid⟩ := List.mem_map.mp hold
          rw [hrows] at hn
          obtain ⟨x, hx, isRead, rfl⟩ := mem_noted hn
          have hids := h.ids
          rw [hsplit, List.map_append, List.nodup_append] at hids
          exact hids.2.2 x.2 (List.mem_map_of_mem hx) newId (by simp [Delivery.noted]) hid
        have hcreate : create (debtInput payload) newId (inbox ds) =
            some ((inbox ds).insert (newRow (debtInput payload) newId)) :=
          if_pos ⟨message_fits hamount hbalance, hnew⟩
        rw [deliver, onDebtCreated, hcreate, Option.getD_some, Table.rows_insert hnew]
        rfl
      | _ => simp [deliver, Delivery.noted]
    | markRead id =>
      simp only [deliver, Delivery.noted, Option.map_none, Option.toList_none, List.append_nil]
      exact rows_markWhere fun n _ => rfl
    | markAllRead =>
      simp only [deliver, Delivery.noted, Option.map_none, Option.toList_none, List.append_nil]
      refine rows_markWhere fun n _ => ?_
      have hread : Delivery.markAllRead.readBy n = { n with isRead := true } := rfl
      rw [hread]
      cases hn : n.isRead with
      | false => simp
      | true => simp [← hn]

/-! ### Debts and their notifications -/

/-- The event of a delivery. -/
def Delivery.event? : Delivery → Option DomainEvent
  | .event e _ => some e
  | _ => none

/-- The payload of a new debt. -/
def createdPayload : DomainEvent → Option DebtEvent
  | .debtCreated payload => some payload
  | _ => none

/-- **The notification reports the entry.** -/
structure Reports (n : Notification) (e : DebtTransaction) : Prop where
  customer : n.entityId = some (Uuid.text e.customerId)
  text : ∃ balance, n.message = debtMessage e.customerId e.signedAmount balance

theorem reports_notification {x : DebtEvent × Uuid} {isRead : Bool} {e : DebtTransaction}
    (h : Announcements.ofPayload true x.1 = Announcements.ofEntry e) :
    Reports (notification x isRead) e := by
  have hcustomer : x.1.customerId = e.customerId :=
    congrArg Announcements.Announcement.customerId h
  have hamount : x.1.signedAmount = e.signedAmount :=
    congrArg Announcements.Announcement.signedAmount h
  refine ⟨?_, x.1.balance, ?_⟩
  · exact congrArg (fun id => some (Uuid.text id)) hcustomer
  · rw [← hcustomer, ← hamount]
    rfl

theorem payloads_eq (ds : List Delivery) : (ds.filterMap Delivery.noted).map Prod.fst =
    (ds.filterMap Delivery.event?).filterMap createdPayload := by
  rw [List.map_filterMap, List.filterMap_filterMap]
  refine List.filterMap_congr fun d _ => ?_
  cases d with
  | event e newId => cases e <;> rfl
  | markRead id => rfl
  | markAllRead => rfl

/-- Each notification is that of its payload. -/
theorem forall₂_noted (ds : List Delivery) :
    List.Forall₂ (fun n x => ∃ isRead, n = notification x isRead) (noted ds)
      (ds.filterMap Delivery.noted) := by
  induction ds with
  | nil => exact .nil
  | cons d ds ih =>
    rw [noted, List.filterMap_cons]
    cases d.noted with
    | none => exact ih
    | some x => exact .cons ⟨_, rfl⟩ ih

/-- The new debts among the announcements. -/
theorem created_announcements (events : List DomainEvent) :
    (events.filterMap createdPayload).map (Announcements.ofPayload true) =
      (events.filterMap Announcements.ofEvent).filter Announcements.Announcement.created := by
  induction events with
  | nil => rfl
  | cons e events ih =>
    cases e with
    | debtCreated payload => exact congrArg (_ :: ·) ih
    | _ => exact ih

theorem created_entries (rows : List DebtTransaction) :
    (rows.map Announcements.ofEntry).filter Announcements.Announcement.created =
      (rows.filter fun e => e.type = .debtAdd).map Announcements.ofEntry := by
  rw [List.filter_map]
  rfl

theorem forall₂_trans {α β γ : Type} {R : α → β → Prop} {S : β → γ → Prop} {T : α → γ → Prop}
    {l₁ : List α} {l₂ : List β} {l₃ : List γ} (h₁ : List.Forall₂ R l₁ l₂)
    (h₂ : List.Forall₂ S l₂ l₃) (h : ∀ a b c, R a b → S b c → T a c) : List.Forall₂ T l₁ l₃ := by
  induction h₁ generalizing l₃ with
  | nil =>
    cases h₂
    exact .nil
  | cons hab _ ih =>
    cases h₂ with
    | cons hbc hrest => exact .cons (h _ _ _ hab hbc) (ih hrest)

section Runs

open Announcements

variable {c c' : BalanceConfig} {e : BalanceEvent} {tr : List BalanceEvent} {p : Phase}

/-- What a request has yet to announce as a new debt is a safe integer. -/
def SafeDebt (p : Phase) : Prop :=
  ∀ a, carried p = some a → a.created = true → |a.signedAmount| ≤ maxSafeInteger

/-- **The amounts of the new debts are safe integers**, those announced and those to come. -/
structure SafeDebts (c : BalanceConfig) : Prop where
  events : ∀ payload, .debtCreated payload ∈ c.db.world.events →
    |payload.signedAmount| ≤ maxSafeInteger ∧ |payload.balance| ≤ maxSafeInteger
  threads : ∀ i p, c.threads i = some p → SafeDebt p

theorem safeDebt_none (h : carried p = none) : SafeDebt p := by
  intro a ha
  rw [h] at ha
  cases ha

theorem safeDebt_booked (id : Uuid) (r : Except Thrown DebtTransaction) : SafeDebt (booked id r) := by
  intro a ha hcreated
  cases r with
  | error err => cases ha
  | ok entry =>
    cases ha
    cases hcreated

/-- **A shortfall is a safe integer.** -/
theorem safeDebt_settled {id : UuidText} {dto : EndSessionDto} {ctx : ActorContext}
    {endedAt : Instant} {newId : Uuid} {w : Process} :
    SafeDebt (settled (exec (.endSession id dto ctx endedAt newId) w).1) := by
  change SafeDebt (settled ((transaction (Sessions.endSession id dto ctx endedAt newId)).call
    w.world).1)
  cases he : store.eval (Sessions.endSession id dto ctx endedAt newId) w.world.db with
  | error err =>
    rw [call_transaction_error he]
    exact safeDebt_none rfl
  | ok x =>
    obtain ⟨⟨saved, debt⟩, db'⟩ := x
    rw [call_transaction_ok he]
    obtain ⟨session, due, paid, -, -, -, hpaid, hsaved, hset⟩ := endSession_ok.mp he
    cases hset with
    | inFull heq => exact safeDebt_none rfl
    | booked hlt hc hid hrow =>
      intro a ha _
      obtain ⟨_, -, rfl⟩ := Option.map_eq_some_iff.mp ha
      exact shortfall_safe hpaid hlt.le

/-- A request at its next phase, with no event of a new debt. -/
theorem SafeDebts.put {w : Process} {i : ℕ} {o : Option Phase} (h : SafeDebts c)
    (hevents : ∀ payload, .debtCreated payload ∈ w.world.events →
      |payload.signedAmount| ≤ maxSafeInteger ∧ |payload.balance| ≤ maxSafeInteger)
    (ho : ∀ p, o = some p → SafeDebt p) : SafeDebts (c.put w i o) := by
  refine ⟨hevents, fun j p hj => ?_⟩
  rcases Config.of_put hj with ⟨-, heq⟩ | ⟨-, hold⟩
  · exact ho p heq
  · exact h.threads j p hold

theorem SafeDebts.step (h : SafeDebts c) (hs : system.Step c e c') : SafeDebts c' := by
  cases hs with
  | arrive q hi =>
    refine h.put h.events fun p hp => ?_
    cases hp
    exact safeDebt_none rfl
  | @call i p s k hi hv =>
    have hp := h.threads i p hi
    cases p with
    | finished r => cases hv
    | committing q =>
      cases q with
      | recordPayment input newId =>
        cases hv
        refine h.put h.events fun p hp => ?_
        cases hp
        exact safeDebt_booked _ _
      | correct id signedAmount actorId reason newId =>
        cases hv
        refine h.put h.events fun p hp => ?_
        cases hp
        exact safeDebt_booked _ _
      | endSession id dto ctx endedAt newId =>
        cases hv
        refine h.put h.events fun p hp => ?_
        cases hp
        exact safeDebt_settled
    | ended result debtEntry =>
      cases hv
      refine h.put (fun payload hmem => ?_) fun p hp => ?_
      · rcases List.mem_cons.mp hmem with heq | hmem
        · cases heq
        · exact h.events payload hmem
      · cases hp
        intro a ha
        rw [carried_announcing] at ha
        exact hp a ha
    | reading id change entry reply =>
      cases hv
      refine h.put h.events fun p hp => ?_
      cases hp
      intro a ha
      by_cases hsafe : |c.db.world.db.balance id| ≤ maxSafeInteger
      · exact hp a ((carried_known hsafe).symm.trans ha)
      · cases (carried_known_error hsafe).symm.trans ha
    | emitting id change entry reply balance number =>
      cases hv
      refine h.put (fun payload hmem => ?_) fun p hp => ?_
      · rcases List.mem_cons.mp hmem with heq | hmem
        · cases change with
          | created =>
            cases heq
            exact ⟨hp _ rfl rfl, balance.safe⟩
          | updated => cases heq
        · exact h.events payload hmem
      · cases hp
        exact safeDebt_none rfl
  | leave hi hv =>
    exact h.put h.events fun p hp => nomatch hp
  | pass n => exact h

/-- **Each debt has one notification**: when session ends, payments and corrections have run side by
side, no balance they read was out of range, and their events have come to the inbox in their order,
with readings in between, the notifications are those of the debts booked in the run, one each; and a
notification is read exactly when it was read after it was made. -/
theorem debts_noticed {db : Db} (hrun : system.Run (fun _ _ => True) (.idle ⟨⟨db, []⟩, 0⟩) tr c)
    (hq : c.Quiet) (hreads : ∀ e ∈ tr, Reads e) {ds : List Delivery}
    (hevents : ds.filterMap Delivery.event? = c.db.world.events.reverse)
    (hids : ((ds.filterMap Delivery.noted).map Prod.snd).Nodup) :
    (inbox ds).rows = noted ds ∧ ∃ added reported : List DebtTransaction,
      c.db.world.db.debtTransactions.rows.map ofEntry =
        db.debtTransactions.rows.map ofEntry ++ added.map ofEntry ∧
      reported.Perm (added.filter fun e => e.type = .debtAdd) ∧
      List.Forall₂ Reports (inbox ds).rows reported := by
  have hsafe : SafeDebts c := hrun.invariant (I := fun _ c => SafeDebts c)
    ⟨fun payload hmem => (nomatch hmem), fun i p hi => (nomatch hi)⟩ fun h hs _ => h.step hs
  have hpayloads : (ds.filterMap Delivery.noted).map Prod.fst =
      c.db.world.events.reverse.filterMap createdPayload := by
    rw [payloads_eq, hevents]
  have hinbox : (inbox ds).rows = noted ds := by
    refine inbox_eq_noted ⟨hids, fun x hx => hsafe.events x.1 ?_⟩
    have hmem : x.1 ∈ c.db.world.events.reverse.filterMap createdPayload :=
      hpayloads ▸ List.mem_map_of_mem hx
    obtain ⟨e, he, hpayload⟩ := List.mem_filterMap.mp hmem
    cases e with
    | debtCreated payload =>
      cases hpayload
      exact List.mem_reverse.mp he
    | _ => cases hpayload
  obtain ⟨added, hadded, hperm⟩ := exists_added hrun hq hreads
  -- the payloads of the new debts are the new debts of the run
  have hcreated : ((ds.filterMap Delivery.noted).map fun x => ofPayload true x.1).Perm
      ((added.filter fun e => e.type = .debtAdd).map ofEntry) := by
    have hmap : ((ds.filterMap Delivery.noted).map fun x => ofPayload true x.1) =
        ((c.db.world.events.filterMap createdPayload).map (ofPayload true)).reverse := by
      rw [← List.map_reverse, ← List.filterMap_reverse, ← hpayloads, List.map_map]
      rfl
    rw [hmap, created_announcements, ← created_entries]
    exact (List.reverse_perm _).trans (hperm.filter _)
  have hentries : List.Forall₂ (fun a e => a = ofEntry e)
      ((added.filter fun e => e.type = .debtAdd).map ofEntry)
      (added.filter fun e => e.type = .debtAdd) :=
    List.forall₂_map_left_iff.mpr (List.forall₂_same.mpr fun _ _ => rfl)
  obtain ⟨reported, hall, hreported⟩ := List.perm_comp_forall₂ hcreated hentries
  refine ⟨hinbox, added, reported, hadded, hreported, hinbox ▸ ?_⟩
  have hpaired := List.forall₂_map_left_iff.mp hall
  refine forall₂_trans (forall₂_noted ds) hpaired ?_
  rintro n x e ⟨isRead, rfl⟩ heq
  exact reports_notification heq

/-- A session of an hour at 15000, under way. -/
def sessionUnderWay : Db :=
  { Db.empty with
    rooms := .single ⟨2, "VIP Zone", none, 15000, true, none⟩
    computers := .single ⟨1, "PC-01", 2, .inUse, none, true, none⟩
    customers := .single ⟨4, "Alisher", none, none, false, none⟩
    sessions := .single ⟨3, none, 1, 2, some 4, .openSession, .active, 15000, .epoch, none, none, 0, 0,
      some 9, none, none⟩ }

/-- It ends after the hour, with 10000 paid. -/
def endInPart : MoneyCall :=
  .endSession ⟨3, 0⟩ ⟨some 10000, none, by simp, noText_length⟩ ⟨9⟩ ⟨3600000, hour_valid⟩ 60

/-- The events come to the inbox, and everything is read. -/
def deliveredAndRead (c : BalanceConfig) : List Delivery :=
  c.db.world.events.reverse.map (.event · 70) ++ [.markAllRead]

theorem event?_deliveredAndRead (c : BalanceConfig) :
    (deliveredAndRead c).filterMap Delivery.event? = c.db.world.events.reverse := by
  have hsome : Delivery.event? ∘ (Delivery.event · 70) = some := rfl
  unfold deliveredAndRead
  rw [List.filterMap_append, List.filterMap_map, hsome, List.filterMap_some]
  exact List.append_nil _

/-- The end of a session with a shortfall: its notification, read. -/
theorem debts_noticed_end : ∃ tr c,
    system.Run (fun _ _ => True) (.idle ⟨⟨sessionUnderWay, []⟩, 0⟩) tr c ∧
    c.Quiet ∧ (inbox (deliveredAndRead c)).rows.map Notification.isRead = [true] ∧
    ∃ reported, List.Forall₂ Reports (inbox (deliveredAndRead c)).rows reported := by
  obtain ⟨tr, c, hrun, hcheck, hthreads⟩ := System.exists_run (S := system)
    (A := fun _ _ => True) (fun _ _ => true) 1 (fun _ _ _ _ => trivial)
    ⟨⟨sessionUnderWay, []⟩, 0⟩ (.arrive 0 endInPart :: List.replicate 5 (.run 0))
    (fun x => x.2.allOver 1 && x.1.all checkedReads && decide (
      (noted (deliveredAndRead x.2)).map Notification.isRead = [true] ∧
      (((deliveredAndRead x.2).filterMap Delivery.noted).map Prod.snd).Nodup))
    (by decide) (by decide +kernel)
  obtain ⟨hfirst, hnoted⟩ := Bool.and_eq_true_iff.mp hcheck
  obtain ⟨hover, hreads⟩ := Bool.and_eq_true_iff.mp hfirst
  obtain ⟨hread, hids⟩ := of_decide_eq_true hnoted
  have hquiet := Config.quiet_of_allOver hover hthreads
  obtain ⟨hrows, -, reported, -, -, hall⟩ := debts_noticed hrun hquiet
    (fun e he => reads_of_checked (List.all_eq_true.mp hreads e he)) (event?_deliveredAndRead c) hids
  exact ⟨tr, c, hrun, hquiet, hrows ▸ hread, reported, hall⟩

end Runs

end GameClub.Services
