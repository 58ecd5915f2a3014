import GameClub.Sessions.Occupancy

/-! # Starting a group

The loop of `start` checks and writes computer by computer, so each computer is checked on a database
the ones before it have changed. What it checks can be said of the database the request finds: every
computer may be started there, and no two ids name the same one.

* `MayStart`: what one id of a request needs.
* `mayStart_opened`: a session that was started just before changes that for its own computer only.
* `startAll_ok`: when the loop succeeds, and what it leaves.
* `rows_openedAll`, `computers_openedAll`: the rows it leaves. -/

namespace GameClub.Sessions

open GameClub.Lib GameClub.Common GameClub.Store

/-- **What one id of a request needs**: a free computer that is active and available, in an active
room, and a plan with a date the row can hold. -/
structure MayStart (db : Db) (dto : StartSessionDto) (startedAt : Instant) (id : UuidText)
    (computer : Computer) (room : Room) (p : PricingPlan) : Prop where
  findComputer : db.findComputer id.value = some computer
  computerActive : computer.isActive = true
  available : computer.status = .available
  free : ¬ Busy db computer.id
  findRoom : db.findRoom computer.roomId = some room
  roomActive : room.isActive = true
  plan : Pricing.plan dto.type room.pricePerHour startedAt
    ⟨dto.durationMinutes, dto.plannedEndAt⟩ = .ok p
  dated : p.plannedEndAt ≠ some none

/-- The row of a started session. -/
def startedRow (dto : StartSessionDto) (ctx : ActorContext) (startedAt : Instant)
    (groupId : Option Uuid) (customer : Option Customer) (computer : Computer) (room : Room)
    (p : PricingPlan) (newId : Uuid) : Session :=
  newSession dto ctx startedAt groupId customer computer room p.plannedEndAt.join p.plannedAmount
    newId

/-- The session of one id, with the id generated for it. -/
def StartedOn (db : Db) (dto : StartSessionDto) (ctx : ActorContext) (startedAt : Instant)
    (groupId : Option Uuid) (customer : Option Customer) (x : UuidText × Uuid) (s : Session) :
    Prop :=
  ∃ computer room p, MayStart db dto startedAt x.1 computer room p ∧
    s = startedRow dto ctx startedAt groupId customer computer room p x.2

/-- The database after the sessions of a group are inserted and their computers taken. -/
def openedAll (db : Db) (results : List Session) : Db := results.foldl opened db

/-! ### One computer -/

section

variable {db db' : Db} {dto : StartSessionDto} {ctx : ActorContext} {startedAt : Instant}
  {groupId : Option Uuid} {customer : Option Customer} {x : UuidText × Uuid} {s : Session}

theorem map_some_join {d : Option JsDate} (h : d ≠ some none) : d = d.join.map some := by
  rcases d with _ | _ | d
  · rfl
  · exact absurd rfl h
  · rfl

/-- The computer of a started session is the one its id names. -/
theorem StartedOn.computerId (h : StartedOn db dto ctx startedAt groupId customer x s) :
    s.computerId = x.1.value := by
  obtain ⟨computer, room, p, hmay, rfl⟩ := h
  have hget := (Db.findComputer_eq_some.mp hmay.findComputer).1
  exact (Table.key_of_get? hget : computer.id = x.1.value)

theorem StartedOn.id (h : StartedOn db dto ctx startedAt groupId customer x s) : s.id = x.2 := by
  obtain ⟨computer, room, p, hmay, rfl⟩ := h
  rfl

/-- **One computer is started** exactly when it may be, with an id that is not taken. -/
theorem startOne_mayStart (hid : db.sessions.get? x.2 = none)
    (hcust : ∀ c, customer = some c → db.customers.get? c.id ≠ none) :
    store.eval (startOne dto ctx startedAt groupId customer x.1 x.2) db = .ok (s, db') ↔
      StartedOn db dto ctx startedAt groupId customer x s ∧ db' = opened db s := by
  rw [startOne_ok]
  constructor
  · rintro ⟨computer, room, plannedEndAt, amount, hstart, rfl, -, hindex, -, rfl⟩
    obtain ⟨p, hp, hdate, rfl⟩ := hstart.plan
    have hfree : ¬ Busy db computer.id := fun hb => hindex ⟨rfl, busy_iff_activeOn.mp hb⟩
    have hdated : p.plannedEndAt ≠ some none := by
      rw [hdate]
      cases plannedEndAt <;> simp
    have hjoin : plannedEndAt = p.plannedEndAt.join := by
      rw [hdate]
      cases plannedEndAt <;> rfl
    refine ⟨⟨computer, room, p, ⟨hstart.findComputer, hstart.computerActive, hstart.available,
      hfree, hstart.findRoom, hstart.roomActive, hp, hdated⟩, ?_⟩, rfl⟩
    rw [startedRow, ← hjoin]
  · rintro ⟨⟨computer, room, p, hmay, rfl⟩, rfl⟩
    refine ⟨computer, room, p.plannedEndAt.join, p.plannedAmount, ⟨hmay.findComputer,
      hmay.computerActive, hmay.available, hmay.findRoom, hmay.roomActive,
      ⟨p, hmay.plan, map_some_join hmay.dated, rfl⟩⟩, rfl, hid, ?_, hcust, rfl⟩
    rintro ⟨-, hne⟩
    exact hmay.free (busy_iff_activeOn.mpr hne)

/-! ### The computers after it -/

theorem findRoom_opened (db : Db) (s : Session) (id : Uuid) :
    (opened db s).findRoom id = db.findRoom id := by
  simp [Db.findRoom, opened]

theorem findComputer_opened {c : Computer} {id : Uuid} (hne : id ≠ s.computerId) :
    (opened db s).findComputer id = some c ↔ db.findComputer id = some c := by
  rw [Db.findComputer_eq_some, Db.findComputer_eq_some, opened, setStatus_get?, if_neg hne]

theorem busy_opened {id : Uuid} (hid : db.sessions.get? s.id = none) (hne : id ≠ s.computerId) :
    Busy (opened db s) id ↔ Busy db id := by
  unfold Busy
  rw [opened_sessions]
  constructor
  · rintro ⟨t, ht, htc, hta⟩
    rcases (Table.mem_insert hid).mp ht with ht | rfl
    · exact ⟨t, ht, htc, hta⟩
    · exact absurd htc.symm hne
  · rintro ⟨t, ht, htc, hta⟩
    exact ⟨t, (Table.mem_insert hid).mpr (Or.inl ht), htc, hta⟩

/-- **The next computer** may be started exactly when it could before, and is another one: that of
the session before it is `IN_USE` now. -/
theorem mayStart_opened {id : UuidText} {computer : Computer} {room : Room} {p : PricingPlan}
    (hid : db.sessions.get? s.id = none) :
    MayStart (opened db s) dto startedAt id computer room p ↔
      id.value ≠ s.computerId ∧ MayStart db dto startedAt id computer room p := by
  have hkey : ∀ {d : Db}, d.findComputer id.value = some computer → computer.id = id.value :=
    fun h => Table.key_of_get? (Db.findComputer_eq_some.mp h).1
  constructor
  · intro h
    have hne : id.value ≠ s.computerId := by
      intro heq
      have hget := (Db.findComputer_eq_some.mp h.findComputer).1
      rw [opened, setStatus_get?, if_pos heq] at hget
      obtain ⟨c, -, rfl⟩ := Option.map_eq_some_iff.mp hget
      have := h.available
      cases this
    have hfree : ¬ Busy db computer.id := fun hb =>
      h.free ((busy_opened hid (by rw [hkey h.findComputer]; exact hne)).mpr hb)
    exact ⟨hne, (findComputer_opened hne).mp h.findComputer, h.computerActive, h.available, hfree,
      findRoom_opened db s _ ▸ h.findRoom, h.roomActive, h.plan, h.dated⟩
  · rintro ⟨hne, h⟩
    have hfree : ¬ Busy (opened db s) computer.id := fun hb =>
      h.free ((busy_opened hid (by rw [hkey h.findComputer]; exact hne)).mp hb)
    exact ⟨(findComputer_opened hne).mpr h.findComputer, h.computerActive, h.available, hfree,
      (findRoom_opened db s _).trans h.findRoom, h.roomActive, h.plan, h.dated⟩

theorem startedOn_opened {t : Session} (hid : db.sessions.get? s.id = none) :
    StartedOn (opened db s) dto ctx startedAt groupId customer x t ↔
      x.1.value ≠ s.computerId ∧ StartedOn db dto ctx startedAt groupId customer x t := by
  unfold StartedOn
  simp only [mayStart_opened hid]
  constructor
  · rintro ⟨computer, room, p, ⟨hne, hmay⟩, rfl⟩
    exact ⟨hne, computer, room, p, hmay, rfl⟩
  · rintro ⟨hne, computer, room, p, hmay, rfl⟩
    exact ⟨computer, room, p, ⟨hne, hmay⟩, rfl⟩

end

/-! ### The loop -/

section

variable {db db' : Db} {dto : StartSessionDto} {ctx : ActorContext} {startedAt : Instant}
  {groupId : Option Uuid} {customer : Option Customer} {ids : List (UuidText × Uuid)}
  {results : List Session}

theorem opened_customers (db : Db) (s : Session) : (opened db s).customers = db.customers := by
  simp [opened]

/-- **The loop succeeds** exactly when its ids name different computers, each of which may be started
on the database it began with; by induction on the ids. -/
theorem startAll_ok (hid : ∀ x ∈ ids, db.sessions.get? x.2 = none)
    (hnew : (ids.map Prod.snd).Nodup)
    (hcust : ∀ c, customer = some c → db.customers.get? c.id ≠ none) :
    store.eval (startAll dto ctx startedAt groupId customer ids) db = .ok (results, db') ↔
      (ids.map fun x => x.1.value).Nodup ∧
        List.Forall₂ (StartedOn db dto ctx startedAt groupId customer) ids results ∧
        db' = openedAll db results := by
  induction ids generalizing db results with
  | nil =>
    simp only [startAll, List.map_nil, List.nodup_nil, true_and, List.forall₂_nil_left_iff]
    constructor
    · intro h
      cases h
      exact ⟨rfl, rfl⟩
    · rintro ⟨rfl, rfl⟩
      rfl
  | cons x rest ih =>
    obtain ⟨hx, hrest⟩ := List.forall_mem_cons.mp hid
    obtain ⟨hfresh, hnew'⟩ := List.nodup_cons.mp hnew
    -- what the first session leaves for the others
    have hafter : ∀ {s : Session}, StartedOn db dto ctx startedAt groupId customer x s →
        (∀ y ∈ rest, (opened db s).sessions.get? y.2 = none) ∧
        ∀ c, customer = some c → (opened db s).customers.get? c.id ≠ none := by
      intro s hs
      refine ⟨fun y hy => ?_, fun c hc => by rw [opened_customers]; exact hcust c hc⟩
      have hne : y.2 ≠ s.id := by
        rw [hs.id]
        rintro heq
        exact hfresh (heq ▸ List.mem_map_of_mem hy)
      rw [opened_sessions, Table.get?_insert_ne hne]
      exact hrest y hy
    have hfree : ∀ {s : Session}, StartedOn db dto ctx startedAt groupId customer x s →
        db.sessions.get? s.id = none := fun hs => by rw [hs.id]; exact hx
    -- the others can be started after the first exactly when they could before and differ from it
    have hothers : ∀ {s : Session} {l : List Session},
        StartedOn db dto ctx startedAt groupId customer x s →
        (List.Forall₂ (StartedOn (opened db s) dto ctx startedAt groupId customer) rest l ↔
          x.1.value ∉ (rest.map fun y => y.1.value) ∧
            List.Forall₂ (StartedOn db dto ctx startedAt groupId customer) rest l) := by
      intro s l hs
      have hiff : StartedOn (opened db s) dto ctx startedAt groupId customer = fun y t =>
          y.1.value ≠ x.1.value ∧ StartedOn db dto ctx startedAt groupId customer y t := by
        funext y t
        rw [startedOn_opened (hfree hs), hs.computerId]
      rw [hiff, List.forall₂_and_left]
      simp [eq_comm]
    simp only [startAll, Sem.eval_bind_ok]
    constructor
    · rintro ⟨s, db₁, hone, results', db₂, hall, hret⟩
      obtain ⟨hs, rfl⟩ := (startOne_mayStart hx hcust).mp hone
      cases hret
      obtain ⟨hnodup, hforall, rfl⟩ := (ih (hafter hs).1 hnew' (hafter hs).2).mp hall
      obtain ⟨hdiff, hforall'⟩ := (hothers hs).mp hforall
      exact ⟨List.nodup_cons.mpr ⟨hdiff, hnodup⟩, .cons hs hforall', rfl⟩
    · rintro ⟨hnodup, hforall, rfl⟩
      obtain ⟨hdiff, hnodup'⟩ := List.nodup_cons.mp hnodup
      cases hforall with
      | @cons _ s _ results' hs hforall' =>
        refine ⟨s, opened db s, (startOne_mayStart hx hcust).mpr ⟨hs, rfl⟩, results',
          openedAll (opened db s) results', ?_, rfl⟩
        exact (ih (hafter hs).1 hnew' (hafter hs).2).mpr
          ⟨hnodup', (hothers hs).mpr ⟨hdiff, hforall'⟩, rfl⟩

/-! ### What the loop leaves -/

/-- The sessions of the group follow those there were, in the order of the request. -/
theorem rows_openedAll (hid : ∀ s ∈ results, db.sessions.get? s.id = none)
    (hnew : (results.map Session.id).Nodup) :
    (openedAll db results).sessions.rows = db.sessions.rows ++ results := by
  induction results generalizing db with
  | nil => simp [openedAll]
  | cons s rest ih =>
    obtain ⟨hs, hrest⟩ := List.forall_mem_cons.mp hid
    obtain ⟨hfresh, hnew'⟩ := List.nodup_cons.mp hnew
    have hafter : ∀ t ∈ rest, (opened db s).sessions.get? t.id = none := by
      intro t ht
      have hne : t.id ≠ s.id := fun heq => hfresh (heq ▸ List.mem_map_of_mem ht)
      rw [opened_sessions, Table.get?_insert_ne hne]
      exact hrest t ht
    have hrows : (openedAll db (s :: rest)).sessions.rows =
        (openedAll (opened db s) rest).sessions.rows := rfl
    rw [hrows, ih hafter hnew', opened_sessions, Table.rows_insert hs, List.append_assoc]
    rfl

/-- Exactly the computers of the group are `IN_USE`. -/
theorem computers_openedAll (db : Db) (results : List Session) :
    (openedAll db results).computers.rows = db.computers.rows.map fun c =>
      if c.id ∈ results.map Session.computerId then { c with status := .inUse } else c := by
  induction results generalizing db with
  | nil => simp [openedAll]
  | cons s rest ih =>
    have hrows : (openedAll db (s :: rest)).computers.rows =
        (openedAll (opened db s) rest).computers.rows := rfl
    have hone : (opened db s).computers.rows = db.computers.rows.map fun c =>
        if c.id = s.computerId then { c with status := .inUse } else c :=
      setStatus_computers _ _ _
    rw [hrows, ih, hone, List.map_map]
    refine List.map_congr_left fun c _ => ?_
    by_cases hc : c.id = s.computerId
    · by_cases hmem : s.computerId ∈ rest.map Session.computerId <;> simp [hc, hmem]
    · by_cases hmem : c.id ∈ rest.map Session.computerId
      · rw [List.map_cons, if_pos (List.mem_cons_of_mem _ hmem)]
        simp only [Function.comp_apply, if_neg hc, if_pos hmem]
      · have hnot : c.id ∉ (s :: rest).map Session.computerId := by
          rw [List.map_cons, List.mem_cons]
          exact fun h => h.elim hc hmem
        rw [if_neg hnot]
        simp only [Function.comp_apply, if_neg hc, if_neg hmem]

/-- Nothing else changes. -/
theorem openedAll_others (db : Db) (results : List Session) :
    (openedAll db results).rooms = db.rooms ∧ (openedAll db results).customers = db.customers ∧
      (openedAll db results).debtTransactions = db.debtTransactions := by
  induction results generalizing db with
  | nil => exact ⟨rfl, rfl, rfl⟩
  | cons s rest ih =>
    obtain ⟨h1, h2, h3⟩ := ih (opened db s)
    exact ⟨h1.trans (by simp [opened]), h2.trans (opened_customers db s),
      h3.trans (opened_debtTransactions db s)⟩

end

end GameClub.Sessions
