import GameClub.Services.Operations
import GameClub.Sessions.Billing

/-! # Rates over whole runs

A session keeps the price its room had when it started, whatever happens to rooms and computers
later.

* `Started`: the call of a run that started a session.
* `effect_sessions`: a call starts a session, or the session was there before with the same rate.
* `billing_invariant`: after every run every session is billed at the rate it started with. -/

namespace GameClub.Services

open GameClub.Lib GameClub.Common GameClub.Store GameClub.Sessions

/-- The parts of a session that never change. -/
structure SameStart (t s : Session) : Prop where
  id : t.id = s.id
  startedAt : t.startedAt = s.startedAt
  roomId : t.roomId = s.roomId
  ratePerHour : t.ratePerHour = s.ratePerHour

/-- The call starts `s` on `db` at the price of its room. -/
structure Starts (db : Db) (op : Op) (s : Session) : Prop where
  call : ∃ dto ctx randomUUID newIds, op = .start dto ctx s.startedAt randomUUID newIds
  fresh : db.sessions.get? s.id = none
  priced : ∃ room, db.findRoom s.roomId = some room ∧ s.ratePerHour = room.pricePerHour

/-- **A call of the run starts the session.** -/
def Started (w : World) (ops : List Op) (s : Session) : Prop :=
  ∃ before op later, ops = before ++ op :: later ∧ Starts (w.after before).db op s ∧
    ((w.after (before ++ [op])).db.sessions.get? s.id) ≠ none

/-! ### One call -/

/-- A start of one session leaves the rooms alone. -/
theorem opened_rooms (db : Db) (s : Session) : (opened db s).rooms = db.rooms := by
  simp [opened]

/-- The sessions after a start: those there were, and new ones at the price of their rooms. -/
theorem start_sessions {dto : StartSessionDto} {ctx : ActorContext} {startedAt : Instant}
    {randomUUID : Uuid} {newIds : ℕ → Uuid} {results : List Session} {db db' : Db}
    (h : store.eval (Sessions.start dto ctx startedAt randomUUID newIds) db = .ok (results, db')) :
    ∀ s ∈ db'.sessions.rows, s ∈ db.sessions.rows ∨
      Starts db (.start dto ctx startedAt randomUUID newIds) s := by
  obtain ⟨groupId, customer, -, hall⟩ := start_ok h
  -- the loop keeps the rooms and the rows there were
  refine (startAll_preserves (fun d => d.rooms = db.rooms ∧
    (∀ id, d.sessions.get? id = none → db.sessions.get? id = none) ∧
    ∀ s ∈ d.sessions.rows, s ∈ db.sessions.rows ∨
      Starts db (.start dto ctx startedAt randomUUID newIds) s) ?_
    ⟨rfl, fun _ hid => hid, fun s hs => Or.inl hs⟩ hall).2.2
  intro computerId newId s d d' ⟨hrooms, hold, hrows⟩ hone
  obtain ⟨computer, room, plannedEndAt, amount, hstart, rfl, hid, -, -, rfl⟩ := startOne_ok.mp hone
  have hroom : db.findRoom room.id = some room := by
    have hfound := hstart.findRoom
    rw [Db.findRoom, hrooms] at hfound
    obtain ⟨hget, hdel⟩ := Db.findRoom_eq_some.mp
      (show db.findRoom computer.roomId = some room from hfound)
    exact Db.findRoom_eq_some.mpr ⟨Table.get?_of_mem (Table.mem_of_get? hget).1, hdel⟩
  refine ⟨(opened_rooms _ _).trans hrooms, fun id hn => ?_, fun s hs => ?_⟩
  · rw [opened_sessions] at hn
    exact hold id (Table.get?_eq_none_of_insert hn)
  · rw [opened_sessions] at hs
    rcases (Table.mem_insert hid).mp hs with hs | rfl
    · exact hrows s hs
    · exact Or.inr ⟨⟨dto, ctx, randomUUID, newIds, rfl⟩, hold newId hid, room, hroom, rfl⟩

/-- The sessions after one is saved. -/
theorem saved_sessions {db : Db} {id : Uuid} {old s t : Session}
    (ht : t ∈ (db.sessions.set s).rows) (hold : db.sessions.get? id = some old)
    (hsame : SameStart old s) : ∃ t' ∈ db.sessions.rows, SameStart t' t := by
  rcases Table.mem_of_mem_set ht with rfl | ht
  · exact ⟨old, (Table.mem_of_get? hold).1, hsame⟩
  · exact ⟨t, ht, rfl, rfl, rfl, rfl⟩

/-- **A call starts a session, or the session was there before.** -/
theorem effect_sessions {db db' : Db} {op : Op} (h : Effect db op db') :
    ∀ s ∈ db'.sessions.rows, (∃ t ∈ db.sessions.rows, SameStart t s) ∨ Starts db op s := by
  have hkept : ∀ {s : Session}, s ∈ db.sessions.rows →
      (∃ t ∈ db.sessions.rows, SameStart t s) ∨ Starts db op s :=
    fun {s} hs => Or.inl ⟨s, hs, rfl, rfl, rfl, rfl⟩
  intro s hs
  cases h with
  | rejected => exact hkept hs
  | started h => exact (start_sessions h s hs).imp_left fun hs => ⟨s, hs, rfl, rfl, rfl, rfl⟩
  | extended h =>
    obtain ⟨session, p, plannedEndAt, hsession, -, -, -, rfl, hdb⟩ := extend_ok.mp h
    rw [hdb] at hs
    exact Or.inl (saved_sessions hs hsession ⟨rfl, rfl, rfl, rfl⟩)
  | ended h =>
    obtain ⟨session, due, paid, hsession, -, -, -, rfl, hset⟩ := endSession_ok.mp h
    rw [hset.sessions] at hs
    exact Or.inl (saved_sessions hs hsession ⟨rfl, rfl, rfl, rfl⟩)
  | cancelled h =>
    obtain ⟨session, hsession, -, rfl, hdb⟩ := cancel_ok.mp h
    rw [hdb, release_sessions] at hs
    exact Or.inl (saved_sessions hs hsession ⟨rfl, rfl, rfl, rfl⟩)
  | paid h =>
    obtain ⟨magnitude, customer, -, -, -, -, -, -, -, hdb⟩ := Debt.recordPayment_ok.mp h
    rw [hdb] at hs
    exact hkept hs
  | corrected h =>
    obtain ⟨value, -, -, -, -, -, hdb⟩ := Debt.correct_ok.mp h
    rw [hdb] at hs
    exact hkept hs
  | administered h =>
    rw [h.sessions] at hs
    exact hkept hs

/-! ### Runs -/

theorem Starts.same {db : Db} {op : Op} {t s : Session} (h : Starts db op t) (hts : SameStart t s) :
    Starts db op s :=
  ⟨hts.startedAt ▸ h.call, hts.id ▸ h.fresh, hts.roomId ▸ hts.ratePerHour ▸ h.priced⟩

/-- Every session there is was started by a call of the run; by induction on the last call. -/
theorem started_of_mem {w : World} (h : w.db.sessions.rows = []) (ops : List Op) :
    ∀ s ∈ (w.after ops).db.sessions.rows, Started w ops s := by
  induction ops using List.reverseRecOn with
  | nil =>
    intro s hs
    rw [World.after_nil, h] at hs
    cases hs
  | append_singleton ops op ih =>
    intro s hs
    have hin : (w.after (ops ++ [op])).db.sessions.get? s.id ≠ none := by
      rw [Table.get?_of_mem hs]
      simp
    rw [World.after_concat] at hs
    rcases effect_sessions (step_effect _ op) s hs with ⟨t, ht, hsame⟩ | hstarts
    · obtain ⟨before, op', later, heq, hstarts, hpresent⟩ := ih t ht
      refine ⟨before, op', later ++ [op], by rw [heq]; simp, hstarts.same hsame, ?_⟩
      rw [← hsame.id]
      exact hpresent
    · exact ⟨ops, op, [], rfl, hstarts, hin⟩

theorem allBilled_effect {db db' : Db} {op : Op} (h : Effect db op db') (hb : AllBilled db) :
    AllBilled db' := by
  rcases h.changes with hchanges | hadmin
  · exact changes_preserve AllBilled billed_change hchanges hb
  · unfold AllBilled
    rw [hadmin.sessions]
    exact hb

theorem allBilled_after {w : World} (h : AllBilled w.db) (ops : List Op) :
    AllBilled (w.after ops).db :=
  after_invariant (P := fun _ _ => True) (fun w op hw _ => allBilled_effect (step_effect w op) hw) h
    fun _ _ _ _ => trivial

/-- **The billing formula holds after every run** from a world without sessions, and every session
was started by one call of the run, at the price its room had then. -/
theorem billing_invariant {w : World} (h : w.db.sessions.rows = []) (ops : List Op) :
    ∀ s ∈ (w.after ops).db.sessions.rows, Billed s ∧ Started w ops s := by
  have hempty : AllBilled w.db := by
    intro s hs
    rw [h] at hs
    cases hs
  exact fun s hs => ⟨allBilled_after hempty ops s hs, started_of_mem h ops s hs⟩

/-! ### A price that changes while a session runs -/

/-- A room with one computer. -/
def newRoom : World :=
  { db := { Db.empty with
      rooms := .single ⟨2, "VIP Zone", none, 15000, true, none⟩
      computers := .single ⟨1, "PC-01", 2, .available, none, true, none⟩ }
    events := [] }

/-- A second computer in it. -/
def largerRoom : World :=
  { newRoom with db := { newRoom.db with
      computers := newRoom.db.computers.insert ⟨8, "PC-08", 2, .available, none, true, none⟩ } }

/-- The body that starts an open session on the first computer. -/
def openOnFirst : StartSessionDto := .openOn ⟨1, 0⟩

theorem oneHour_range (m : ℤ) (h : some 60 = some m) : 1 ≤ m ∧ m ≤ 24 * 60 := by
  cases h
  decide

/-- The body that starts a session of an hour on the second computer. -/
def hourOnSecond : StartSessionDto :=
  { StartSessionDto.openOn ⟨8, 0⟩ with
    type := .fixedDuration, durationMinutes := some 60, durationRange := oneHour_range }

/-- The body that sets the price of the room. -/
def dearer : UpdateRoomDto :=
  { UpdateRoomDto.empty with pricePerHour := some (some 20000), priceMin := by simp }

/-- Two sessions are started, and the price of their room raised. Then the one is ended after an hour,
and the other extended by half an hour. -/
def raisedPrice : List Op :=
  [.start openOnFirst ⟨9⟩ .epoch 4 fun _ => 3, .start hourOnSecond ⟨9⟩ .epoch 5 fun _ => 10,
    .updateRoom ⟨2, 0⟩ dearer, .endSession ⟨3, 0⟩ .inFull ⟨9⟩ ⟨3600000, hour_valid⟩ 60,
    .extend ⟨10, 0⟩ .byHalf]

theorem billing_invariant_raised :
    (largerRoom.after raisedPrice).db.sessions.rows.map
      (fun s => (s.status, s.ratePerHour, s.amountDue)) =
        [(.ended, 15000, 15000), (.active, 15000, 22500)] ∧
    (largerRoom.after raisedPrice).db.rooms.rows.map Room.pricePerHour = [20000] ∧
    ∀ s ∈ (largerRoom.after raisedPrice).db.sessions.rows, Billed s ∧ Started largerRoom raisedPrice s :=
  ⟨by decide +kernel, by decide +kernel, billing_invariant rfl raisedPrice⟩

end GameClub.Services
