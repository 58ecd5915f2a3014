import GameClub.Common.Patch
import GameClub.Services.World

/-! # The rooms and computers services

Rooms and computers are patched: a body has a field, has `null` for it, or does not have it. Each
call reads, then saves one row.

* `Rooms.create_call`, `Rooms.update_call`, `Rooms.remove_call`, `Computers.create_call`,
  `Computers.update_call`, `Computers.remove_call`: a call saves one row and emits its event, or
  throws and leaves everything as it is. -/

namespace GameClub.Services

open GameClub.Lib GameClub.Common GameClub.Store GameClub.Sessions

/-! ### Rooms -/

/-- A valid body of a room update. -/
structure UpdateRoomDto where
  name : Patch String
  description : Patch String
  pricePerHour : Patch ℤ
  isActive : Patch Bool
  nameLength : ∀ s, name = some (some s) → s.length ≤ 80
  descriptionLength : ∀ s, description = some (some s) → s.length ≤ 255
  priceMin : ∀ p, pricePerHour = some (some p) → 0 ≤ p

/-- A valid body of a new room. -/
structure CreateRoomDto where
  name : String
  description : Option String
  pricePerHour : ℤ
  nameLength : name.length ≤ 80
  descriptionLength : ∀ s, description = some s → s.length ≤ 255
  priceMin : 0 ≤ pricePerHour

/-- The body without fields. -/
def UpdateRoomDto.empty : UpdateRoomDto := ⟨none, none, none, none, by simp, by simp, by simp⟩

/-- `moneyColumnTransformer.to`, read by Postgres as a `bigint`. JavaScript prints a number from
`10 ^ 21` on with an exponent. -/
def moneyColumn (value : ℤ) : Except Thrown Unit :=
  if 10 ^ 21 ≤ |value| then .error (.database .invalidTextRepresentation)
  else if value < -2 ^ 63 ∨ 2 ^ 63 ≤ value then .error (.database .numericValueOutOfRange)
  else .ok ()

namespace Rooms

def findById (id : UuidText) (db : Db) : Except Thrown Room :=
  match db.findRoom id.value with
  | none => .error (.domain (ResourceNotFoundException "Room" id.text))
  | some room => .ok room

/-- `Object.assign(room, dto)`, and the columns of the row. -/
def assign (room : Room) (dto : UpdateRoomDto) : Except Thrown Room := do
  (dto.pricePerHour.join).elim (.ok ()) moneyColumn
  let name ← notNullColumn "name" dto.name room.name
  let pricePerHour ← notNullColumn "price_per_hour" dto.pricePerHour room.pricePerHour
  let isActive ← notNullColumn "is_active" dto.isActive room.isActive
  pure { room with
    name, description := dto.description.getD room.description, pricePerHour, isActive }

/-- Another room has this name: the index is not partial, so a soft-deleted one counts. -/
def nameTaken (db : Db) (row : Room) : Bool :=
  db.rooms.rows.any fun r => r.id ≠ row.id && r.name = row.name

def save (row : Room) : Service Room := fun w =>
  if nameTaken w.db row then (.error (.database (.uniqueViolation "uq_rooms_name")), w)
  else (.ok row, { w with db := { w.db with rooms := w.db.rooms.set row } })

def update (id : UuidText) (dto : UpdateRoomDto) : Service Room := do
  let room ← read (findById id)
  let row ← read fun _ => assign room dto
  save row

/-- The row of a new room. -/
def newRow (dto : CreateRoomDto) (newId : Uuid) : Room where
  id := newId
  name := dto.name
  description := dto.description
  pricePerHour := dto.pricePerHour
  isActive := true
  deletedAt := none

/-- `rooms.exists({ where: { name } })` -/
def nameExists (db : Db) (name : String) : Bool :=
  db.rooms.rows.any fun r => r.deletedAt.isNone && r.name = name

/-- `rooms.save` of a new room. -/
def insert (row : Room) : Service Room := fun w =>
  match moneyColumn row.pricePerHour with
  | .error e => (.error e, w)
  | .ok _ =>
    if w.db.rooms.get? row.id ≠ none then
      (.error (.database (.uniqueViolation "PK_0368a2d7c215f2d0458a54933f2")), w)
    else if nameTaken w.db row then
      (.error (.database (.uniqueViolation "uq_rooms_name")), w)
    else (.ok row, { w with db := { w.db with rooms := w.db.rooms.insert row } })

def create (dto : CreateRoomDto) (newId : Uuid) : Service Room := do
  let taken ← read fun db => .ok (nameExists db dto.name)
  if taken then
    (Except.error (.domain (ConflictException "ROOM_NAME_TAKEN"
      "A room with this name already exists" [])) : Except Thrown Room)
  else insert (newRow dto newId)

/-- `rooms.softRemove`. -/
def softRemove (room : Room) (now : Instant) : Service Unit := fun w =>
  (.ok (), { w with db := { w.db with
    rooms := w.db.rooms.set { room with deletedAt := some now } } })

def remove (id : UuidText) (now : Instant) : Service Unit := do
  let room ← read (findById id)
  softRemove room now

/-- **A create inserts one room**, or throws. -/
theorem create_call (dto : CreateRoomDto) (newId : Uuid) (w : World) :
    (∃ e, (create dto newId).call w = (.error e, w)) ∨
    w.db.rooms.get? newId = none ∧ (create dto newId).call w = (.ok (newRow dto newId),
      { w with db := { w.db with rooms := w.db.rooms.insert (newRow dto newId) } }) := by
  unfold create
  rw [Service.call_bind, call_read]
  dsimp only
  split_ifs with htaken
  · exact Or.inl ⟨_, rfl⟩
  · unfold Service.call insert
    rcases moneyColumn (newRow dto newId).pricePerHour with e | _
    · exact Or.inl ⟨e, rfl⟩
    · dsimp only
      split_ifs with hid hname
      · exact Or.inl ⟨_, rfl⟩
      · exact Or.inl ⟨_, rfl⟩
      · exact Or.inr ⟨not_not.mp hid, rfl⟩

/-- **A removal marks one room**, or throws. -/
theorem remove_call (id : UuidText) (now : Instant) (w : World) :
    (∃ e, (remove id now).call w = (.error e, w)) ∨
    ∃ room, w.db.findRoom id.value = some room ∧ (remove id now).call w =
      (.ok (), { w with db := { w.db with
        rooms := w.db.rooms.set { room with deletedAt := some now } } }) := by
  unfold remove
  rw [Service.call_bind, call_read]
  rcases hroom : w.db.findRoom id.value with _ | room
  · simp only [findById, hroom]
    exact Or.inl ⟨_, rfl⟩
  · simp only [findById, hroom]
    exact Or.inr ⟨room, rfl, rfl⟩

/-- **A room update saves one room**, or throws. -/
theorem update_call (id : UuidText) (dto : UpdateRoomDto) (w : World) :
    (∃ e, (update id dto).call w = (.error e, w)) ∨
    ∃ room row, w.db.findRoom id.value = some room ∧ assign room dto = .ok row ∧
      nameTaken w.db row = false ∧ (update id dto).call w =
        (.ok row, { w with db := { w.db with rooms := w.db.rooms.set row } }) := by
  unfold update
  rw [Service.call_bind, call_read]
  cases hroom : w.db.findRoom id.value with
  | none =>
    simp only [findById, hroom]
    exact Or.inl ⟨_, rfl⟩
  | some room =>
    simp only [findById, hroom]
    rw [Service.call_bind, call_read]
    rcases hassign : assign room dto with e | row
    · exact Or.inl ⟨e, by simp only⟩
    · cases htaken : nameTaken w.db row with
      | true => exact Or.inl ⟨_, by simp only [Service.call, save, htaken, if_true]; rfl⟩
      | false =>
        refine Or.inr ⟨room, row, rfl, hassign, htaken, ?_⟩
        simp only [Service.call, save, htaken]
        rfl

end Rooms

/-! ### Computers -/

/-- A valid body of a new computer. -/
structure CreateComputerDto where
  label : String
  roomId : UuidText
  specs : Option String
  labelLength : label.length ≤ 40

/-- A valid body of a computer update. -/
structure UpdateComputerDto where
  label : Patch String
  roomId : Patch UuidText
  specs : Patch String
  status : Patch ComputerStatus
  isActive : Patch Bool
  labelLength : ∀ s, label = some (some s) → s.length ≤ 40

/-- A label that is not there is not too long. -/
theorem noLabel_length : ∀ s : String, (none : Patch String) = some (some s) → s.length ≤ 40 := nofun

/-- A computer in memory, and the row it was loaded from. A body declares `status` and `isActive`
itself, so assigning one without them makes them undefined. -/
structure ComputerEntity where
  stored : Computer
  label : Option String
  roomId : Option Uuid
  room : Option Room
  status : Patch ComputerStatus
  specs : Option String
  isActive : Patch Bool

namespace Computers

/-- The entity of a row. -/
def ofRow (row : Computer) (room : Option Room) : ComputerEntity where
  stored := row
  label := some row.label
  roomId := some row.roomId
  room := room
  status := some (some row.status)
  specs := row.specs
  isActive := some (some row.isActive)

def toEvent (computer : ComputerEntity) : ComputerEvent where
  id := computer.stored.id
  label := computer.label
  roomId := computer.roomId
  status := computer.status.join

/-- A computer with its room, which is null when the room was removed. -/
def findById (id : UuidText) (db : Db) : Except Thrown ComputerEntity :=
  match db.findComputer id.value with
  | none => .error (.domain (ResourceNotFoundException "Computer" id.text))
  | some row => .ok (ofRow row (db.findRoom row.roomId))

/-- `Object.assign(computer, dto)`. -/
def assign (computer : ComputerEntity) (dto : UpdateComputerDto) : ComputerEntity :=
  { computer with
    label := dto.label.getD computer.label
    roomId := (dto.roomId.map fun r => r.map UuidText.value).getD computer.roomId
    status := dto.status
    specs := dto.specs.getD computer.specs
    isActive := dto.isActive }

/-- The columns `save` writes. The join column `room_id` is taken from the loaded relation or from
its own property, as the mapper decides. -/
def columns (computer : ComputerEntity) (byRelation : Bool) : Except Thrown Computer := do
  let label ← notNull "label" computer.label
  let roomId ← notNull "room_id" (if byRelation then computer.room.map Room.id else computer.roomId)
  let status ← notNullColumn "status" computer.status computer.stored.status
  let isActive ← notNullColumn "is_active" computer.isActive computer.stored.isActive
  pure { computer.stored with label, roomId, status, specs := computer.specs, isActive }

/-- Another computer of the room has this label. -/
def labelTaken (db : Db) (row : Computer) : Bool :=
  db.computers.rows.any fun c => c.id ≠ row.id && (c.roomId = row.roomId && c.label = row.label)

/-- What Postgres refuses a changed row for. -/
def checkRow (db : Db) (stored row : Computer) : Except Thrown Unit :=
  if labelTaken db row then .error (.database (.uniqueViolation "uq_computer_room_label"))
  else if row.roomId ≠ stored.roomId ∧ db.rooms.get? row.roomId = none then
    .error (.database (.foreignKeyViolation "FK_37ad06250b46cc0f5c5b2676ee4"))
  else .ok ()

/-- The row `save` writes, if it writes one. -/
def savedRow (db : Db) (computer : ComputerEntity) (byRelation : Bool) :
    Except Thrown Computer := do
  let row ← columns computer byRelation
  checkRow db computer.stored row
  pure row

/-- What `save` returns: a room that was loaded as null takes the join column with it. -/
def returned (computer : ComputerEntity) : ComputerEntity :=
  { computer with roomId := computer.room.bind fun _ => computer.roomId }

/-- `computers.save` of a loaded computer. -/
def save (computer : ComputerEntity) (byRelation : Bool) : Service ComputerEntity := fun w =>
  match savedRow w.db computer byRelation with
  | .error e => (.error e, w)
  | .ok row =>
    (.ok (returned computer), { w with db := { w.db with computers := w.db.computers.set row } })

/-- The row of a new computer. -/
def newComputer (dto : CreateComputerDto) (newId : Uuid) : Computer where
  id := newId
  label := dto.label
  roomId := dto.roomId.value
  status := .available
  specs := dto.specs
  isActive := true
  deletedAt := none

/-- `computers.save` of a new computer. -/
def insert (row : Computer) : Service ComputerEntity := fun w =>
  if w.db.computers.get? row.id ≠ none then
    (.error (.database (.uniqueViolation "PK_d755c706431be017ddf9fd5025a")), w)
  else if labelTaken w.db row then
    (.error (.database (.uniqueViolation "uq_computer_room_label")), w)
  else if w.db.rooms.get? row.roomId = none then
    (.error (.database (.foreignKeyViolation "FK_37ad06250b46cc0f5c5b2676ee4")), w)
  else
    (.ok (ofRow row none), { w with db := { w.db with computers := w.db.computers.insert row } })

def create (dto : CreateComputerDto) (newId : Uuid) : Service ComputerEntity := do
  let _ ← read (Rooms.findById dto.roomId) -- validates existence
  let computer ← insert (newComputer dto newId)
  emit (.computerCreated (toEvent computer))
  pure computer

/-- The room of the body must exist when its text is not that of the current room. -/
def checkRoom (computer : ComputerEntity) (dto : UpdateComputerDto) (db : Db) :
    Except Thrown Unit :=
  match dto.roomId.join with
  | none => .ok ()
  | some roomId =>
    if some roomId.text = computer.roomId.map Uuid.text then .ok ()
    else do
      let _ ← Rooms.findById roomId db
      pure ()

def update (id : UuidText) (dto : UpdateComputerDto) (byRelation : Bool) :
    Service ComputerEntity := do
  let computer ← read (findById id)
  read (checkRoom computer dto)
  let saved ← save (assign computer dto) byRelation
  emit (.computerUpdated (toEvent saved))
  pure saved

/-- `computers.softRemove`. -/
def softRemove (computer : ComputerEntity) (now : Instant) : Service Unit := fun w =>
  (.ok (), { w with db := { w.db with
    computers := w.db.computers.set { computer.stored with deletedAt := some now } } })

def remove (id : UuidText) (now : Instant) : Service Unit := do
  let computer ← read (findById id)
  softRemove computer now

/-! ### What a call does -/

/-- The row an update writes on `db`, if it writes one. -/
def updatedRow (id : UuidText) (dto : UpdateComputerDto) (byRelation : Bool) (db : Db) :
    Except Thrown (ComputerEntity × Computer) := do
  let computer ← findById id db
  checkRoom computer dto db
  let row ← savedRow db (assign computer dto) byRelation
  pure (returned (assign computer dto), row)

/-- **An update writes one row and announces it**, or throws. -/
theorem update_call (id : UuidText) (dto : UpdateComputerDto) (byRelation : Bool) (w : World) :
    (update id dto byRelation).call w =
      match updatedRow id dto byRelation w.db with
      | .error e => (.error e, w)
      | .ok (saved, row) => (.ok saved, ⟨{ w.db with computers := w.db.computers.set row },
          .computerUpdated (toEvent saved) :: w.events⟩) := by
  unfold update updatedRow
  rw [Service.call_bind, call_read]
  rcases findById id w.db with e | computer
  · rfl
  · dsimp only
    rw [Service.call_bind, call_read]
    rcases hcheck : checkRoom computer dto w.db with e | _
    · simp [hcheck, bind, Except.bind]
    · dsimp only
      rw [Service.call_bind]
      rcases hrow : savedRow w.db (assign computer dto) byRelation with e | row
      · simp [Service.call, save, hrow, hcheck, bind, Except.bind]
      · simp [Service.call, save, hrow, hcheck, bind, Except.bind, Service.bind, emit, pure,
          Except.pure]

/-- The row an update writes: each column is the field of the body, or the stored one. Its room is
the loaded one, or that of the body, as the mapper decides. -/
theorem updatedRow_columns {id : UuidText} {dto : UpdateComputerDto} {byRelation : Bool} {db : Db}
    {saved : ComputerEntity} {row : Computer}
    (h : updatedRow id dto byRelation db = .ok (saved, row)) :
    ∃ stored, db.findComputer id.value = some stored ∧ row.id = stored.id ∧
      row.deletedAt = stored.deletedAt ∧ dto.label.getD (some stored.label) = some row.label ∧
      dto.status.getD (some stored.status) = some row.status ∧
      dto.specs.getD stored.specs = row.specs ∧
      dto.isActive.getD (some stored.isActive) = some row.isActive ∧
      (if byRelation then (db.findRoom stored.roomId).map Room.id
        else (dto.roomId.map fun r => r.map UuidText.value).getD (some stored.roomId)) =
          some row.roomId := by
  obtain ⟨computer, hfound, hrest⟩ := bind_ok.mp h
  obtain ⟨_, -, hrest⟩ := bind_ok.mp hrest
  obtain ⟨row', hrow, hret⟩ := bind_ok.mp hrest
  cases hret
  unfold findById at hfound
  split at hfound
  · cases hfound
  · next stored hstored =>
    cases hfound
    obtain ⟨columns', hcolumns, hcheck⟩ := bind_ok.mp hrow
    obtain ⟨_, -, hret⟩ := bind_ok.mp hcheck
    cases hret
    obtain ⟨label, hlabel, hcolumns⟩ := bind_ok.mp hcolumns
    obtain ⟨roomId, hroomId, hcolumns⟩ := bind_ok.mp hcolumns
    obtain ⟨status, hstatus, hcolumns⟩ := bind_ok.mp hcolumns
    obtain ⟨isActive, hisActive, hcolumns⟩ := bind_ok.mp hcolumns
    cases hcolumns
    exact ⟨stored, hstored, rfl, rfl, notNull_ok.mp hlabel, notNullColumn_ok.mp hstatus, rfl,
      notNullColumn_ok.mp hisActive, notNull_ok.mp hroomId⟩

/-- What an update has found when it writes a row, and what it keeps of the stored one. -/
theorem updatedRow_ok {id : UuidText} {dto : UpdateComputerDto} {byRelation : Bool} {db : Db}
    {saved : ComputerEntity} {row : Computer}
    (h : updatedRow id dto byRelation db = .ok (saved, row)) :
    ∃ stored, db.findComputer id.value = some stored ∧ row.id = stored.id ∧
      row.deletedAt = stored.deletedAt ∧
      dto.status.getD (some stored.status) = some row.status ∧
      dto.isActive.getD (some stored.isActive) = some row.isActive := by
  obtain ⟨stored, hstored, hid, hdeleted, -, hstatus, -, hactive, -⟩ := updatedRow_columns h
  exact ⟨stored, hstored, hid, hdeleted, hstatus, hactive⟩

/-- **A create inserts one computer and announces it**, or throws. -/
theorem create_call (dto : CreateComputerDto) (newId : Uuid) (w : World) :
    (∃ e, (create dto newId).call w = (.error e, w)) ∨
    w.db.computers.get? newId = none ∧ (create dto newId).call w =
      (.ok (ofRow (newComputer dto newId) none),
        ⟨{ w.db with computers := w.db.computers.insert (newComputer dto newId) },
          .computerCreated (toEvent (ofRow (newComputer dto newId) none)) :: w.events⟩) := by
  unfold create
  rw [Service.call_bind, call_read]
  rcases Rooms.findById dto.roomId w.db with e | room
  · exact Or.inl ⟨e, rfl⟩
  · dsimp only
    rw [Service.call_bind]
    have hinsert : (∃ e, (insert (newComputer dto newId)).call w = (.error e, w)) ∨
        w.db.computers.get? newId = none ∧ (insert (newComputer dto newId)).call w =
          (.ok (ofRow (newComputer dto newId) none), { w with db :=
            { w.db with computers := w.db.computers.insert (newComputer dto newId) } }) := by
      unfold Service.call insert
      split_ifs with hid hlabel hroom
      · exact Or.inl ⟨_, rfl⟩
      · exact Or.inl ⟨_, rfl⟩
      · exact Or.inl ⟨_, rfl⟩
      · exact Or.inr ⟨not_not.mp hid, rfl⟩
    rcases hinsert with ⟨e, he⟩ | ⟨hid, hok⟩
    · exact Or.inl ⟨e, by rw [he]⟩
    · exact Or.inr ⟨hid, by rw [hok]; rfl⟩

/-- **A removal marks one computer**, or throws. -/
theorem remove_call (id : UuidText) (now : Instant) (w : World) :
    (∃ e, (remove id now).call w = (.error e, w)) ∨
    ∃ stored, w.db.findComputer id.value = some stored ∧ (remove id now).call w =
      (.ok (), { w with db := { w.db with
        computers := w.db.computers.set { stored with deletedAt := some now } } }) := by
  unfold remove
  rw [Service.call_bind, call_read]
  cases hstored : w.db.findComputer id.value with
  | none =>
    simp only [findById, hstored]
    exact Or.inl ⟨_, rfl⟩
  | some stored =>
    simp only [findById, hstored]
    exact Or.inr ⟨stored, rfl, rfl⟩

end Computers

end GameClub.Services
