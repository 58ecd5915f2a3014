import GameClub.Services.Requests
import GameClub.Sessions.Occupancy

/-! # A computer that is moved to another room

`update` loads the computer with its room, assigns the body and saves. While the room is loaded, the
mapper takes `room_id` from it, and the `roomId` of the body is not written.

* `InRoom.performed`: a computer stays in its room through calls that do not update it.
* `Snapshots`: the next session on a computer has the price of a room, and `snapshots_of_inRoom`.
* `update_takesEffect_iff`: an update takes effect exactly when it names no other room, or the room
  the computer is in was removed.
* `moved_stays`: a computer that is moved to another room. -/

namespace GameClub.Services

open GameClub.Lib GameClub.Common GameClub.Store GameClub.Sessions

/-! ### What an update is to do -/

/-- **The mapper**: with its room loaded, the join column of a computer is taken from the room. -/
def RelationWins (db : Db) (id : UuidText) (byRelation : Bool) : Prop :=
  ∀ stored room, db.findComputer id.value = some stored → db.findRoom stored.roomId = some room →
    byRelation = true

/-- The room of the body, when it is present, exists. -/
def RoomExists (db : Db) (dto : UpdateComputerDto) : Prop :=
  ∀ patch, dto.roomId = some patch →
    ∃ roomId room, patch = some roomId ∧ db.findRoom roomId.value = some room

/-- **The old row with exactly the fields of the body replaced.** -/
structure Patched (dto : UpdateComputerDto) (old row : Computer) : Prop where
  id : row.id = old.id
  deletedAt : row.deletedAt = old.deletedAt
  label : dto.label.getD (some old.label) = some row.label
  roomId : (dto.roomId.map fun r => r.map UuidText.value).getD (some old.roomId) = some row.roomId
  status : dto.status.getD (some old.status) = some row.status
  specs : dto.specs.getD old.specs = row.specs
  isActive : dto.isActive.getD (some old.isActive) = some row.isActive

/-- The call updates the computer. -/
def Updates (id : Uuid) : Call → Prop
  | .op (.updateComputer id' _ _) => id'.value = id
  | _ => False

/-- The world after more calls. -/
def World.later (w : World) (calls : List Call) : World := calls.foldl World.perform w

/-- **The next start on the computer takes the id and the price of the room**, whatever is called
before it, updates of the computer apart. -/
def Snapshots (w : World) (id roomId : Uuid) : Prop :=
  ∀ (calls : List Call) (dto : StartSessionDto) (ctx : ActorContext) (startedAt : Instant)
    (randomUUID : Uuid) (newIds : ℕ → Uuid), (∀ c ∈ calls, ¬ Updates id c) →
    ∀ s ∈ ((w.later calls).perform
        (.op (.start dto ctx startedAt randomUUID newIds))).db.sessions.rows,
      s ∉ (w.later calls).db.sessions.rows → s.computerId = id → s.roomId = roomId ∧
        ∃ room, (w.later calls).db.findRoom roomId = some room ∧ s.ratePerHour = room.pricePerHour

/-- **An update of `w` has taken effect in `w'`.** -/
structure TakesEffect (w w' : World) (id : UuidText) (dto : UpdateComputerDto) : Prop where
  found : ∃ old row, w.db.findComputer id.value = some old ∧ Patched dto old row ∧
    Computers.findById id w'.db = .ok (Computers.ofRow row (w'.db.findRoom row.roomId))
  snapshots : ∀ roomId, dto.roomId = some (some roomId) → Snapshots w' id.value roomId.value

/-! ### Computers keep their rooms -/

/-- The computer is in the room. -/
def InRoom (id roomId : Uuid) (db : Db) : Prop :=
  ∃ c, db.computers.get? id = some c ∧ c.roomId = roomId

variable {id roomId : Uuid} {db db' : Db}

theorem InRoom.congr (h : InRoom id roomId db) (hc : db'.computers = db.computers) :
    InRoom id roomId db' := by
  unfold InRoom
  rw [hc]
  exact h

theorem InRoom.setStatus (h : InRoom id roomId db) (computerId : Uuid) (status : ComputerStatus) :
    InRoom id roomId (db.setStatus computerId status) := by
  obtain ⟨c, hc, hroom⟩ := h
  unfold InRoom
  rw [setStatus_get?]
  split_ifs with hid
  · subst hid
    exact ⟨{ c with status }, by rw [hc]; rfl, hroom⟩
  · exact ⟨c, hc, hroom⟩

theorem InRoom.release (h : InRoom id roomId db) (computerId : Uuid) :
    InRoom id roomId (release db computerId) := by
  obtain ⟨c, hc, hroom⟩ := h
  unfold InRoom
  rw [release_get?, hc, Option.map_some]
  refine ⟨_, rfl, ?_⟩
  split_ifs
  · exact hroom
  · exact hroom

/-- A row is saved that is another computer's, or in the room. -/
theorem InRoom.set (h : InRoom id roomId db) {row : Computer}
    (hrow : row.id = id → row.roomId = roomId) :
    InRoom id roomId { db with computers := db.computers.set row } := by
  obtain ⟨c, hc, hroom⟩ := h
  unfold InRoom
  rw [Table.get?_set]
  split_ifs with hid
  · exact ⟨row, by rw [hc]; rfl, hrow hid.symm⟩
  · exact ⟨c, hc, hroom⟩

theorem InRoom.insert (h : InRoom id roomId db) (row : Computer) :
    InRoom id roomId { db with computers := db.computers.insert row } := by
  obtain ⟨c, hc, hroom⟩ := h
  unfold InRoom
  rw [Table.get?_insert]
  refine ⟨c, ?_, hroom⟩
  split_ifs
  · rw [hc]
    rfl
  · exact hc

/-- **The transactions move no computer.** -/
theorem InRoom.change (hc : Change db db') (h : InRoom id roomId db) : InRoom id roomId db' := by
  cases hc with
  | opened hstart hid =>
    refine InRoom.setStatus ?_ _ _
    exact h.congr rfl
  | extended hs ha hp hdate => exact h.congr rfl
  | ended hs ha hdue hpaid hset =>
    cases hset with
    | inFull heq =>
      refine InRoom.release ?_ _
      exact h.congr rfl
    | booked hlt hcustomer hid hrow =>
      refine InRoom.release ?_ _
      exact h.congr rfl
  | cancelled hs ha =>
    refine InRoom.release ?_ _
    exact h.congr rfl
  | paid ht hneg hle hid => exact h.congr rfl
  | corrected ht hid => exact h.congr rfl

/-- A call that does not update the computer leaves it in its room. -/
theorem InRoom.performed {c : Call} (hp : Performs db c db') (h : InRoom id roomId db)
    (hc : ¬ Updates id c) : InRoom id roomId db' := by
  cases hp with
  | op heffect =>
    rcases heffect.changes with hchanges | hadmin
    · exact changes_preserve (InRoom id roomId) InRoom.change hchanges h
    · cases hadmin with
      | created hid => exact h.insert _
      | @updated id' dto byRelation saved row hrow =>
        refine h.set fun hid => absurd ?_ hc
        obtain ⟨stored, hstored, hsame, -⟩ := Computers.updatedRow_ok hrow
        obtain ⟨hget, -⟩ := Db.findComputer_eq_some.mp hstored
        exact (Table.key_of_get? hget).symm.trans (hsame.symm.trans hid)
      | @removed id' now stored hstored =>
        obtain ⟨hget, -⟩ := Db.findComputer_eq_some.mp hstored
        refine h.set fun hid => ?_
        obtain ⟨c, hc, hroom⟩ := h
        have hkey : stored.id = id'.value := Table.key_of_get? hget
        have hsame : stored.id = id := hid
        rw [← hkey, hsame, hc] at hget
        exact Option.some.inj hget ▸ hroom
      | roomUpdated hfound hrow => exact h.congr rfl
  | rejected => exact h
  | roomCreated hid => exact h.congr rfl
  | roomRemoved hfound => exact h.congr rfl
  | customers => exact h.congr rfl

/-- Through any calls that do not update it; by induction on the calls. -/
theorem InRoom.later {w : World} (h : InRoom id roomId w.db) {calls : List Call}
    (hcalls : ∀ c ∈ calls, ¬ Updates id c) : InRoom id roomId (w.later calls).db := by
  induction calls generalizing w with
  | nil => exact h
  | cons c calls ih =>
    have hfirst : InRoom id roomId (w.perform c).db :=
      InRoom.performed (perform_performs w c) h (hcalls c (List.mem_cons_self ..))
    exact ih hfirst fun c' hc' => hcalls c' (List.mem_cons_of_mem _ hc')

/-! ### The next start -/

/-- A start of one session on a computer in the room takes its price. -/
theorem startable_room {dto : StartSessionDto} {startedAt : Instant} {computerId : UuidText}
    {computer : Computer} {room : Room} {plannedEndAt : Option Instant} {amount : Money}
    (h : Startable db dto startedAt computerId computer room plannedEndAt amount)
    (hroom : InRoom id roomId db) (hid : computer.id = id) :
    room.id = roomId ∧ db.findRoom roomId = some room := by
  obtain ⟨hget, -⟩ := Db.findComputer_eq_some.mp h.findComputer
  obtain ⟨c, hc, hin⟩ := hroom
  have hkey : computer.id = computerId.value := Table.key_of_get? hget
  rw [← hkey, hid, hc] at hget
  obtain rfl := Option.some.inj hget
  have hfound := h.findRoom
  rw [hin] at hfound
  exact ⟨Table.key_of_get? (Db.findRoom_eq_some.mp hfound).1, hfound⟩

/-- **A start**: the sessions there were, and on the computer one at the price of the room. -/
theorem start_snapshots {dto : StartSessionDto} {ctx : ActorContext} {startedAt : Instant}
    {randomUUID : Uuid} {newIds : ℕ → Uuid} {results : List Session}
    (h : store.eval (Sessions.start dto ctx startedAt randomUUID newIds) db = .ok (results, db'))
    (hroom : InRoom id roomId db) : ∀ s ∈ db'.sessions.rows, s ∉ db.sessions.rows →
      s.computerId = id → s.roomId = roomId ∧
        ∃ room, db.findRoom roomId = some room ∧ s.ratePerHour = room.pricePerHour := by
  obtain ⟨groupId, customer, -, hall⟩ := start_ok h
  -- the loop keeps the rooms, and the computer in its room
  refine (startAll_preserves (fun d => d.rooms = db.rooms ∧ InRoom id roomId d ∧
    ∀ s ∈ d.sessions.rows, s ∉ db.sessions.rows → s.computerId = id → s.roomId = roomId ∧
      ∃ room, db.findRoom roomId = some room ∧ s.ratePerHour = room.pricePerHour) ?_
    ⟨rfl, hroom, fun s hs hnew => absurd hs hnew⟩ hall).2.2
  intro computerId newId s d d' ⟨hrooms, hin, hrows⟩ hone
  have hin' : InRoom id roomId d' := hin.change (startOne_change hone)
  obtain ⟨computer, room, plannedEndAt, amount, hstart, rfl, hid, -, -, rfl⟩ := startOne_ok.mp hone
  refine ⟨(opened_rooms _ _).trans hrooms, hin', fun s hs hnew hcomputer => ?_⟩
  rw [opened_sessions] at hs
  rcases (Table.mem_insert hid).mp hs with hs | rfl
  · exact hrows s hs hnew hcomputer
  · obtain ⟨hroomId, hfound⟩ := startable_room hstart hin hcomputer
    rw [Db.findRoom, hrooms] at hfound
    exact ⟨hroomId, room, hfound, rfl⟩

/-- **A computer in a room takes its id and price at the next start.** -/
theorem snapshots_of_inRoom {w : World} (h : InRoom id roomId w.db) : Snapshots w id roomId := by
  intro calls dto ctx startedAt randomUUID newIds hcalls s hs hnew hcomputer
  have heffect : Effect (w.later calls).db (.start dto ctx startedAt randomUUID newIds)
      ((w.later calls).perform (.op (.start dto ctx startedAt randomUUID newIds))).db :=
    step_effect _ _
  generalize ((w.later calls).perform (.op (.start dto ctx startedAt randomUUID newIds))).db = db'
    at hs heffect
  cases heffect with
  | rejected => exact absurd hs hnew
  | started hrun => exact start_snapshots hrun (h.later hcalls) s hs hnew hcomputer
  | administered hadmin => cases hadmin

/-! ### The update -/

/-- The row of a successful update is what is found then. -/
theorem update_found {id : UuidText} {dto : UpdateComputerDto} {byRelation : Bool} {w : World}
    {saved : ComputerEntity} (hok : ((Computers.update id dto byRelation).call w).1 = .ok saved) :
    ∃ row, Computers.updatedRow id dto byRelation w.db = .ok (saved, row) ∧
      ((Computers.update id dto byRelation).call w).2.db =
        { w.db with computers := w.db.computers.set row } ∧
      Computers.findById id ((Computers.update id dto byRelation).call w).2.db =
        .ok (Computers.ofRow row (w.db.findRoom row.roomId)) ∧
      (w.db.computers.set row).get? id.value = some row := by
  rw [Computers.update_call] at hok ⊢
  rcases hrow : Computers.updatedRow id dto byRelation w.db with e | ⟨saved', row⟩
  · rw [hrow] at hok
    cases hok
  · rw [hrow] at hok
    obtain rfl : saved' = saved := Except.ok.inj hok
    obtain ⟨stored, hstored, hid, hdeleted, -⟩ := Computers.updatedRow_ok hrow
    obtain ⟨hget, hkept⟩ := Db.findComputer_eq_some.mp hstored
    have hkey : row.id = id.value := hid.trans (Table.key_of_get? hget)
    have hset : (w.db.computers.set row).get? id.value = some row := by
      rw [← hkey]
      exact Table.get?_set_self (by rw [hkey, hget]; simp)
    have hfound : Db.findComputer { w.db with computers := w.db.computers.set row } id.value =
        some row := Db.findComputer_eq_some.mpr ⟨hset, hdeleted.trans hkept⟩
    refine ⟨row, rfl, rfl, ?_, hset⟩
    simp only [Computers.findById, hfound]
    rfl

/-- **An update takes effect exactly when it names no other room than the computer is in, or that
room was removed.** -/
theorem update_takesEffect_iff {w : World} {id : UuidText} {dto : UpdateComputerDto}
    {byRelation : Bool} {saved : ComputerEntity} (hmapper : RelationWins w.db id byRelation)
    (hexists : RoomExists w.db dto)
    (hok : ((Computers.update id dto byRelation).call w).1 = .ok saved) :
    TakesEffect w ((Computers.update id dto byRelation).call w).2 id dto ↔
      ∀ roomId old, dto.roomId = some (some roomId) → w.db.findComputer id.value = some old →
        roomId.value = old.roomId ∨ w.db.findRoom old.roomId = none := by
  obtain ⟨row, hrow, hdb, hfind, hset⟩ := update_found hok
  obtain ⟨old, hold, hid, hdeleted, hlabel, hstatus, hspecs, hactive, hroomId⟩ :=
    Computers.updatedRow_columns hrow
  constructor
  · rintro ⟨⟨old', row', hold', hpatched, hfound⟩, -⟩ roomId old'' hdto hold''
    obtain rfl : old' = old := Option.some.inj (hold'.symm.trans hold)
    obtain rfl : old'' = old' := Option.some.inj (hold''.symm.trans hold)
    by_contra hno
    obtain ⟨hne, hloaded⟩ := not_or.mp hno
    obtain ⟨room, hroom⟩ := Option.ne_none_iff_exists'.mp hloaded
    -- the relation is loaded, and the row stays in its room
    rw [hmapper old'' room hold'' hroom, if_pos rfl, hroom, Option.map_some] at hroomId
    have hstay : room.id = old''.roomId := Table.key_of_get? (Db.findRoom_eq_some.mp hroom).1
    have hsame : row' = row := by
      have hentity := Except.ok.inj (hfound.symm.trans hfind)
      exact congrArg ComputerEntity.stored hentity
    have hnew := hpatched.roomId
    rw [hdto, hsame, ← hroomId, hstay] at hnew
    have hvalue : some roomId.value = some old''.roomId := hnew
    exact hne (Option.some.inj hvalue)
  · intro hcond
    have hpatchedRoom : (dto.roomId.map fun r => r.map UuidText.value).getD (some old.roomId) =
        some row.roomId := by
      cases hrelation : byRelation with
      | false =>
        rw [hrelation] at hroomId
        exact hroomId
      | true =>
        rw [hrelation, if_pos rfl] at hroomId
        obtain ⟨room, hroom, hkey⟩ := Option.map_eq_some_iff.mp hroomId
        have hstay : room.id = old.roomId := Table.key_of_get? (Db.findRoom_eq_some.mp hroom).1
        cases hdto : dto.roomId with
        | none => exact congrArg some (hstay.symm.trans hkey)
        | some patch =>
          obtain ⟨roomId, -, rfl, -⟩ := hexists patch hdto
          rcases hcond roomId old hdto hold with hsame | hremoved
          · exact congrArg some (hsame.trans (hstay.symm.trans hkey))
          · rw [hroom] at hremoved
            cases hremoved
    refine ⟨⟨old, row, hold, ⟨hid, hdeleted, hlabel, hpatchedRoom, hstatus, hspecs, hactive⟩, ?_⟩,
      fun roomId hdto => snapshots_of_inRoom ⟨row, ?_, ?_⟩⟩
    · rw [hfind, hdb]
      rfl
    · rw [hdb]
      exact hset
    · rw [hdto] at hpatchedRoom
      exact (Option.some.inj hpatchedRoom).symm

/-! ### A computer that is moved to a dearer room -/

/-- Two rooms, and a computer in the first. -/
def twoRooms : World :=
  { db := { Db.empty with
      rooms := newRoom.db.rooms.insert ⟨3, "Tournament", none, 20000, true, none⟩
      computers := newRoom.db.computers }
    events := [] }

/-- The body that moves a computer to the second room. -/
def toTournament : UpdateComputerDto := ⟨none, some (some ⟨3, 0⟩), none, none, none, noLabel_length⟩

/-- The computer before the body is saved, with its first room. -/
def movedEntity : ComputerEntity :=
  Computers.assign (Computers.ofRow ⟨1, "PC-01", 2, .available, none, true, none⟩
    (some ⟨2, "VIP Zone", none, 15000, true, none⟩)) toTournament

theorem relationWins_twoRooms : RelationWins twoRooms.db ⟨1, 0⟩ true := fun _ _ _ _ => rfl

theorem roomExists_twoRooms : RoomExists twoRooms.db toTournament := by
  intro patch hpatch
  exact ⟨⟨3, 0⟩, ⟨3, "Tournament", none, 20000, true, none⟩, (Option.some.inj hpatch).symm, rfl⟩

theorem update_takesEffect_iff_twoRooms :
    TakesEffect twoRooms ((Computers.update ⟨1, 0⟩ toTournament true).call twoRooms).2 ⟨1, 0⟩
        toTournament ↔
      ∀ roomId old, toTournament.roomId = some (some roomId) →
        twoRooms.db.findComputer 1 = some old →
          roomId.value = old.roomId ∨ twoRooms.db.findRoom old.roomId = none :=
  update_takesEffect_iff relationWins_twoRooms roomExists_twoRooms rfl

/-- The update succeeds and answers the second room; the computer stays in the first, and its next
session has the price of that one. -/
theorem moved_stays :
    (¬ ∀ (w : World) (id : UuidText) (dto : UpdateComputerDto) (byRelation : Bool)
      (saved : ComputerEntity), RelationWins w.db id byRelation → RoomExists w.db dto →
      ((Computers.update id dto byRelation).call w).1 = .ok saved →
        TakesEffect w ((Computers.update id dto byRelation).call w).2 id dto) ∧
    movedEntity.roomId = some 3 ∧
    (((twoRooms.step (.updateComputer ⟨1, 0⟩ toTournament true)).step
      (.start openOnFirst ⟨9⟩ .epoch 4 fun _ => 5)).db.sessions.rows.map fun s =>
        (s.roomId, s.ratePerHour)) = [(2, 15000)] := by
  refine ⟨fun h => ?_, rfl, by decide⟩
  obtain ⟨⟨old, row, hold, hpatched, hfound⟩, -⟩ :=
    h twoRooms ⟨1, 0⟩ toTournament true movedEntity relationWins_twoRooms roomExists_twoRooms rfl
  have hrow : row.roomId = 2 := by
    have hentity := Except.ok.inj hfound
    exact (congrArg (fun e : ComputerEntity => e.stored.roomId) hentity).symm
  have hnew : (3 : Uuid) = row.roomId := Option.some.inj hpatched.roomId
  rw [hrow] at hnew
  exact absurd hnew (by decide)

end GameClub.Services
