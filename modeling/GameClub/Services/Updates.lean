import GameClub.Lib.LoadSave
import GameClub.Services.Customers

/-! # Concurrent updates of one row

An update reads its row without a lock, assigns the body to it, and saves the whole entity later. At
its save the mapper writes every column whose property is not the stored one; a property the body
declares itself and does not have is undefined and is not written.

* `Rooms.patch`, `Computers.patch`, `Customers.patch`: the updates as a load, a check and a save.
* `Rooms.patches`, `Computers.patches`, `Customers.patches`: which columns a save writes back.
* `updates_kept_iff`: when a change that another operation commits is kept. -/

namespace GameClub.Services

open GameClub.Lib GameClub.Lib.LoadSave GameClub.Common GameClub.Store GameClub.Sessions

/-! ### The updates as load and save -/

namespace Rooms

/-- `rooms.save(Object.assign(room, dto))` when the row is `current`. -/
def columnsOver (room current : Room) (dto : UpdateRoomDto) : Except Thrown Room := do
  (dto.pricePerHour.join).elim (.ok ()) moneyColumn
  let name ← notNullColumn "name" dto.name room.name
  let pricePerHour ← notNullColumn "price_per_hour" dto.pricePerHour room.pricePerHour
  let isActive ← notNullColumn "is_active" dto.isActive current.isActive
  pure { room with
    name, description := dto.description.getD room.description, pricePerHour, isActive }

/-- `update`, which can be interrupted. -/
def patch (id : UuidText) (dto : UpdateRoomDto) : Operation Thrown Db where
  Entity := Room
  load := findById id
  check _ _ := .ok ()
  save room db := do
    let row ← columnsOver room ((db.rooms.get? room.id).getD room) dto
    if nameTaken db row then .error (.database (.uniqueViolation "uq_rooms_name"))
    else .ok { db with rooms := db.rooms.set row }

end Rooms

namespace Computers

/-- The columns `save` leaves in the row that is `current` then. -/
def columnsOver (computer : ComputerEntity) (current : Computer) (byRelation : Bool) :
    Except Thrown Computer := do
  let label ← notNull "label" computer.label
  let roomId ← notNull "room_id" (if byRelation then computer.room.map Room.id else computer.roomId)
  let status ← notNullColumn "status" computer.status current.status
  let isActive ← notNullColumn "is_active" computer.isActive current.isActive
  pure { computer.stored with label, roomId, status, specs := computer.specs, isActive }

def patch (id : UuidText) (dto : UpdateComputerDto) (byRelation : Bool) : Operation Thrown Db where
  Entity := ComputerEntity
  load := findById id
  check computer db := checkRoom computer dto db
  save computer db := do
    let current := (db.computers.get? computer.stored.id).getD computer.stored
    let row ← columnsOver (assign computer dto) current byRelation
    checkRow db current row
    .ok { db with computers := db.computers.set row }

end Computers

namespace Customers

def patch (id : UuidText) (dto : UpdateCustomerDto) : Operation Thrown Db where
  Entity := CustomerEntity
  load := findById id
  check customer db :=
    checkPhone (dto.phone.join.filter fun phone => some phone ≠ customer.phone) db
  save customer db := do
    let row ← savedRow db (assign customer dto)
    .ok { db with customers := db.customers.set row }

end Customers

/-! ### Without interruption -/

/-- The database after a call, or what it throws. -/
def Service.leaves {α : Type} (x : Service α) (w : World) : Except Thrown Db :=
  match x.call w with
  | (.ok _, w') => .ok w'.db
  | (.error e, _) => .error e

/-- A row that is found is the row of its id. -/
theorem Rooms.get?_found {db : Db} {id : Uuid} {row : Room} (h : db.findRoom id = some row) :
    row.id = id ∧ db.rooms.get? row.id = some row := by
  have hget := (Db.findRoom_eq_some.mp h).1
  have hid : row.id = id := Table.key_of_get? hget
  exact ⟨hid, by rw [hid]; exact hget⟩

theorem Computers.get?_found {db : Db} {id : Uuid} {row : Computer}
    (h : db.findComputer id = some row) :
    row.id = id ∧ db.computers.get? row.id = some row := by
  have hget := (Db.findComputer_eq_some.mp h).1
  have hid : row.id = id := Table.key_of_get? hget
  exact ⟨hid, by rw [hid]; exact hget⟩

/-- **An update of a room that nothing interrupts** is the call of the service. -/
theorem Rooms.patch_alone (id : UuidText) (dto : UpdateRoomDto) (w : World) :
    (patch id dto).alone w.db = (update id dto).leaves w := by
  unfold Service.leaves update Operation.alone patch
  rw [Service.call_bind, call_read]
  cases hfound : w.db.findRoom id.value with
  | none => simp only [findById, hfound]; rfl
  | some room =>
    have hcurrent := (get?_found hfound).2
    simp only [findById, hfound]
    rw [Service.call_bind, call_read]
    have hsame : columnsOver room ((w.db.rooms.get? room.id).getD room) dto = assign room dto := by
      rw [hcurrent]
      rfl
    change (columnsOver room ((w.db.rooms.get? room.id).getD room) dto >>= _) = _
    rw [hsame]
    rcases assign room dto with e | row
    · rfl
    · simp only [Service.call, save, bind, Except.bind]
      cases nameTaken w.db row <;> rfl

theorem Computers.patch_alone (id : UuidText) (dto : UpdateComputerDto) (byRelation : Bool)
    (w : World) : (patch id dto byRelation).alone w.db = (update id dto byRelation).leaves w := by
  unfold Service.leaves Operation.alone patch
  rw [update_call]
  unfold updatedRow
  dsimp only
  cases hfound : w.db.findComputer id.value with
  | none => simp only [findById, hfound, bind, Except.bind]
  | some row =>
    have hcurrent := (get?_found hfound).2
    simp only [findById, hfound, bind, Except.bind]
    rcases checkRoom (ofRow row (w.db.findRoom row.roomId)) dto w.db with e | _
    · rfl
    · have hstored : (ofRow row (w.db.findRoom row.roomId)).stored = row := rfl
      have hsame : columnsOver (assign (ofRow row (w.db.findRoom row.roomId)) dto) row byRelation =
          columns (assign (ofRow row (w.db.findRoom row.roomId)) dto) byRelation := rfl
      simp only [savedRow, bind, Except.bind]
      rw [hstored, hcurrent, Option.getD_some, hsame]
      rcases columns (assign (ofRow row (w.db.findRoom row.roomId)) dto) byRelation with e | row'
      · rfl
      · dsimp only
        have hchecked : (assign (ofRow row (w.db.findRoom row.roomId)) dto).stored = row := rfl
        rw [hchecked]
        rcases checkRow w.db row row' with e | _ <;> rfl

theorem Customers.patch_alone (id : UuidText) (dto : UpdateCustomerDto) (w : World) :
    (patch id dto).alone w.db = (update id dto).leaves w := by
  unfold Service.leaves update Operation.alone patch
  rw [Service.call_bind, call_read]
  cases hfound : w.db.findCustomer id.value with
  | none => simp only [findById, hfound, bind, Except.bind]
  | some row =>
    simp only [findById, hfound]
    rw [Service.call_bind, call_read]
    simp only [bind, Except.bind]
    rcases checkPhone (dto.phone.join.filter fun phone => some phone ≠ (ofRow row).phone) w.db
      with e | _
    · rfl
    · simp only [Service.call, save]
      rcases savedRow w.db (assign (ofRow row) dto) with e | row' <;> rfl

/-! ### What a save writes back -/

inductive RoomColumn
  | name
  | description
  | pricePerHour
  | isActive
  | deletedAt
deriving DecidableEq

namespace RoomColumn

abbrev Value : RoomColumn → Type
  | name => String
  | description => Option String
  | pricePerHour => ℤ
  | isActive => Bool
  | deletedAt => Option Instant

def value : (c : RoomColumn) → Room → c.Value
  | name, r => r.name
  | description, r => r.description
  | pricePerHour, r => r.pricePerHour
  | isActive, r => r.isActive
  | deletedAt, r => r.deletedAt

/-- The body has the field. -/
def Named (dto : UpdateRoomDto) : RoomColumn → Prop
  | name => dto.name ≠ none
  | description => dto.description ≠ none
  | pricePerHour => dto.pricePerHour ≠ none
  | isActive => dto.isActive ≠ none
  | deletedAt => False

/-- The body declares the field itself. -/
def OwnField (c : RoomColumn) : Prop := c = isActive

end RoomColumn

inductive ComputerColumn
  | label
  | roomId
  | status
  | specs
  | isActive
  | deletedAt
deriving DecidableEq

namespace ComputerColumn

abbrev Value : ComputerColumn → Type
  | label => String
  | roomId => Uuid
  | status => ComputerStatus
  | specs => Option String
  | isActive => Bool
  | deletedAt => Option Instant

def value : (c : ComputerColumn) → Computer → c.Value
  | label, r => r.label
  | roomId, r => r.roomId
  | status, r => r.status
  | specs, r => r.specs
  | isActive, r => r.isActive
  | deletedAt, r => r.deletedAt

def Named (dto : UpdateComputerDto) : ComputerColumn → Prop
  | label => dto.label ≠ none
  | roomId => dto.roomId ≠ none
  | status => dto.status ≠ none
  | specs => dto.specs ≠ none
  | isActive => dto.isActive ≠ none
  | deletedAt => False

def OwnField (c : ComputerColumn) : Prop := c = status ∨ c = isActive

end ComputerColumn

inductive CustomerColumn
  | fullName
  | phone
  | note
  | isBlocked
  | deletedAt
deriving DecidableEq

namespace CustomerColumn

abbrev Value : CustomerColumn → Type
  | fullName => String
  | phone => Option String
  | note => Option String
  | isBlocked => Bool
  | deletedAt => Option Instant

def value : (c : CustomerColumn) → Customer → c.Value
  | fullName, r => r.fullName
  | phone, r => r.phone
  | note, r => r.note
  | isBlocked, r => r.isBlocked
  | deletedAt, r => r.deletedAt

def Named (dto : UpdateCustomerDto) : CustomerColumn → Prop
  | fullName => dto.fullName ≠ none
  | phone => dto.phone ≠ none
  | note => dto.note ≠ none
  | isBlocked => dto.isBlocked ≠ none
  | deletedAt => False

def OwnField (c : CustomerColumn) : Prop := c = isBlocked

end CustomerColumn

/-- The row of a patch after its save. -/
theorem get?_after_set {α : Type} {key : α → Uuid} {t : Table key} {row r₁ : α} {id : Uuid}
    (hid : key row = id) (h : t.get? id = some r₁) : (t.set row).get? id = some row := by
  subst hid
  exact Table.get?_set_self (by rw [h]; simp)

/-- A property whose field the body does not have. -/
theorem property_kept {α : Type} {field : Patch α} {old new : α}
    (h : field.getD (some old) = some new) (hc : ¬ field ≠ none) : new = old := by
  rw [not_not.mp hc, Option.getD_none] at h
  exact (Option.some.inj h).symm

/-- **A room update** writes back what it has loaded and the body does not name, `isActive` apart. -/
theorem Rooms.patches (id : UuidText) (dto : UpdateRoomDto) :
    Patches (patch id dto) (fun db => db.rooms.get? id.value) RoomColumn.value
      (RoomColumn.Named dto) RoomColumn.OwnField := by
  constructor
  intro room s s₁ s₂ r₁ hload hsave hrow
  change s₁.rooms.get? id.value = some r₁ at hrow
  unfold patch at hload hsave
  dsimp only [findById] at hload
  cases hfound : s.findRoom id.value with
  | none => rw [hfound] at hload; cases hload
  | some r =>
    rw [hfound] at hload
    obtain rfl : r = room := Except.ok.inj hload
    obtain ⟨hget, -⟩ := Db.findRoom_eq_some.mp hfound
    have hid : r.id = id.value := Table.key_of_get? hget
    obtain ⟨row, hcolumns, hset⟩ := bind_ok.mp hsave
    have hcurrent : (s₁.rooms.get? r.id).getD r = r₁ := by rw [hid, hrow, Option.getD_some]
    rw [hcurrent] at hcolumns
    split_ifs at hset
    cases hset
    obtain ⟨_, -, hcolumns⟩ := bind_ok.mp hcolumns
    obtain ⟨name, hname, hcolumns⟩ := bind_ok.mp hcolumns
    obtain ⟨price, hprice, hcolumns⟩ := bind_ok.mp hcolumns
    obtain ⟨active, hactive, hcolumns⟩ := bind_ok.mp hcolumns
    cases hcolumns
    refine ⟨r, _, hget, get?_after_set hid hrow, fun c hc => ?_⟩
    cases c with
    | name => exact ⟨nofun, fun _ => property_kept (notNullColumn_ok.mp hname) hc⟩
    | description =>
      refine ⟨nofun, fun _ => ?_⟩
      change dto.description.getD r.description = r.description
      rw [not_not.mp hc, Option.getD_none]
    | pricePerHour => exact ⟨nofun, fun _ => property_kept (notNullColumn_ok.mp hprice) hc⟩
    | isActive =>
      exact ⟨fun _ => property_kept (notNullColumn_ok.mp hactive) hc, fun hno => absurd rfl hno⟩
    | deletedAt => exact ⟨nofun, fun _ => rfl⟩

/-- **A computer update**: `status` and `isActive` apart. -/
theorem Computers.patches (id : UuidText) (dto : UpdateComputerDto) (byRelation : Bool) :
    Patches (patch id dto byRelation) (fun db => db.computers.get? id.value) ComputerColumn.value
      (ComputerColumn.Named dto) ComputerColumn.OwnField := by
  constructor
  intro computer s s₁ s₂ r₁ hload hsave hrow
  change s₁.computers.get? id.value = some r₁ at hrow
  unfold patch at hload hsave
  dsimp only [findById] at hload
  cases hfound : s.findComputer id.value with
  | none => rw [hfound] at hload; cases hload
  | some r =>
    rw [hfound] at hload
    cases hload
    obtain ⟨hget, -⟩ := Db.findComputer_eq_some.mp hfound
    have hid : r.id = id.value := Table.key_of_get? hget
    obtain ⟨row, hcolumns, hset⟩ := bind_ok.mp hsave
    obtain ⟨_, -, hset⟩ := bind_ok.mp hset
    cases hset
    have hcurrent : (s₁.computers.get? (ofRow r (s.findRoom r.roomId)).stored.id).getD
        (ofRow r (s.findRoom r.roomId)).stored = r₁ := by
      change (s₁.computers.get? r.id).getD r = r₁
      rw [hid, hrow, Option.getD_some]
    rw [hcurrent] at hcolumns
    obtain ⟨label, hlabel, hcolumns⟩ := bind_ok.mp hcolumns
    obtain ⟨roomId, hroomId, hcolumns⟩ := bind_ok.mp hcolumns
    obtain ⟨status, hstatus, hcolumns⟩ := bind_ok.mp hcolumns
    obtain ⟨active, hactive, hcolumns⟩ := bind_ok.mp hcolumns
    cases hcolumns
    refine ⟨r, _, hget, get?_after_set hid hrow, fun c hc => ?_⟩
    cases c with
    | label => exact ⟨nofun, fun _ => property_kept (notNull_ok.mp hlabel) hc⟩
    | roomId =>
      refine ⟨nofun, fun _ => ?_⟩
      change roomId = r.roomId
      have hroom := notNull_ok.mp hroomId
      cases byRelation with
      | false =>
        change (dto.roomId.map fun r => r.map UuidText.value).getD (some r.roomId) = some roomId
          at hroom
        rw [not_not.mp hc] at hroom
        exact (Option.some.inj hroom).symm
      | true =>
        change (s.findRoom r.roomId).map Room.id = some roomId at hroom
        obtain ⟨room, hroomFound, hroomKey⟩ := Option.map_eq_some_iff.mp hroom
        exact hroomKey ▸ (Rooms.get?_found hroomFound).1
    | status =>
      exact ⟨fun _ => property_kept (notNullColumn_ok.mp hstatus) hc,
        fun hno => absurd (Or.inl rfl) hno⟩
    | specs =>
      refine ⟨?_, fun _ => ?_⟩
      · rintro (h | h) <;> cases h
      · change dto.specs.getD r.specs = r.specs
        rw [not_not.mp hc, Option.getD_none]
    | isActive =>
      exact ⟨fun _ => property_kept (notNullColumn_ok.mp hactive) hc,
        fun hno => absurd (Or.inr rfl) hno⟩
    | deletedAt => exact ⟨(by rintro (h | h) <;> cases h), fun _ => rfl⟩

/-- **A customer update**: `isBlocked` apart. -/
theorem Customers.patches (id : UuidText) (dto : UpdateCustomerDto) :
    Patches (patch id dto) (fun db => db.customers.get? id.value) CustomerColumn.value
      (CustomerColumn.Named dto) CustomerColumn.OwnField := by
  constructor
  intro customer s s₁ s₂ r₁ hload hsave hrow
  change s₁.customers.get? id.value = some r₁ at hrow
  unfold patch at hload hsave
  dsimp only [findById] at hload
  cases hfound : s.findCustomer id.value with
  | none => rw [hfound] at hload; cases hload
  | some r =>
    rw [hfound] at hload
    cases hload
    obtain ⟨hget, -⟩ := Db.findCustomer_eq_some.mp hfound
    have hid : r.id = id.value := Table.key_of_get? hget
    obtain ⟨row, hsaved, hset⟩ := bind_ok.mp hsave
    cases hset
    obtain ⟨row', hcolumns, hindex⟩ := bind_ok.mp hsaved
    split_ifs at hindex
    cases hindex
    have hcurrent : (s₁.customers.get? (assign (ofRow r) dto).stored.id).getD
        (assign (ofRow r) dto).stored = r₁ := by
      change (s₁.customers.get? r.id).getD r = r₁
      rw [hid, hrow, Option.getD_some]
    rw [hcurrent] at hcolumns
    obtain ⟨fullName, hfullName, hcolumns⟩ := bind_ok.mp hcolumns
    obtain ⟨blocked, hblocked, hcolumns⟩ := bind_ok.mp hcolumns
    cases hcolumns
    refine ⟨r, _, hget, get?_after_set hid hrow, fun c hc => ?_⟩
    cases c with
    | fullName => exact ⟨nofun, fun _ => property_kept (notNull_ok.mp hfullName) hc⟩
    | phone =>
      refine ⟨nofun, fun _ => ?_⟩
      change dto.phone.getD r.phone = r.phone
      rw [not_not.mp hc, Option.getD_none]
    | note =>
      refine ⟨nofun, fun _ => ?_⟩
      change dto.note.getD r.note = r.note
      rw [not_not.mp hc, Option.getD_none]
    | isBlocked =>
      exact ⟨fun _ => property_kept (notNullColumn_ok.mp hblocked) hc, fun hno => absurd rfl hno⟩
    | deletedAt => exact ⟨nofun, fun _ => rfl⟩

/-! ### Two operations on one row -/

/-- A transaction of the sessions service; it holds the locks of its rows until it commits. -/
def ofTransaction {β : Type} (p : Txn β) : Operation Thrown Db where
  Entity := Unit
  load _ := .ok ()
  check _ _ := .ok ()
  save _ db := (store.eval p db).map Prod.snd

section

variable (O : Operation Thrown Db) (s : Db) (before later : List Party)

/-- **When a partial update keeps a change of another operation.** Both are accepted, and the other
one changes a column the body does not name. The change is still there at the end exactly when the
body declares the column itself, or the other operation did not return between the load and the save
of the update. -/
theorem updates_kept_iff :
    (∀ (id : UuidText) (dto : UpdateRoomDto) (c : RoomColumn),
      Both (Rooms.patch id dto) O s before later → ¬ c.Named dto →
      Changes (Rooms.patch id dto) O s before (·.rooms.get? id.value) RoomColumn.value c →
      (Kept (Rooms.patch id dto) O s before later (·.rooms.get? id.value) RoomColumn.value c ↔
        c.OwnField ∨ ¬ Overtaken (Rooms.patch id dto) O s before)) ∧
    (∀ (id : UuidText) (dto : UpdateComputerDto) (byRelation : Bool) (c : ComputerColumn),
      Both (Computers.patch id dto byRelation) O s before later → ¬ c.Named dto →
      Changes (Computers.patch id dto byRelation) O s before (·.computers.get? id.value)
        ComputerColumn.value c →
      (Kept (Computers.patch id dto byRelation) O s before later (·.computers.get? id.value)
        ComputerColumn.value c ↔
        c.OwnField ∨ ¬ Overtaken (Computers.patch id dto byRelation) O s before)) ∧
    (∀ (id : UuidText) (dto : UpdateCustomerDto) (c : CustomerColumn),
      Both (Customers.patch id dto) O s before later → ¬ c.Named dto →
      Changes (Customers.patch id dto) O s before (·.customers.get? id.value)
        CustomerColumn.value c →
      (Kept (Customers.patch id dto) O s before later (·.customers.get? id.value)
        CustomerColumn.value c ↔
        c.OwnField ∨ ¬ Overtaken (Customers.patch id dto) O s before)) := by
  refine ⟨fun id dto c h hc hchange => ?_, fun id dto byRelation c h hc hchange => ?_,
    fun id dto c h hc hchange => ?_⟩
  · exact (Rooms.patches id dto).kept_iff h hc hchange
  · exact (Computers.patches id dto byRelation).kept_iff h hc hchange
  · exact (Customers.patches id dto).kept_iff h hc hchange

/-- **A status that a session sets is kept** by an update that does not name it. -/
theorem session_status_kept {β : Type} (p : Txn β) (id : UuidText) (dto : UpdateComputerDto)
    (byRelation : Bool) (hdto : dto.status = none)
    (h : Both (Computers.patch id dto byRelation) (ofTransaction p) s before later)
    (hchange : Changes (Computers.patch id dto byRelation) (ofTransaction p) s before
      (·.computers.get? id.value) ComputerColumn.value .status) :
    Kept (Computers.patch id dto byRelation) (ofTransaction p) s before later
      (·.computers.get? id.value) ComputerColumn.value .status := by
  have hc : ¬ ComputerColumn.Named dto .status := fun hne => hne hdto
  exact ((Computers.patches id dto byRelation).kept_iff h hc hchange).mpr (Or.inl (Or.inl rfl))

end

/-! ### A lost price -/

def vip : Room := ⟨1, "VIP", none, 1000, true, none⟩

def clubWith (room : Room) : Db := { Db.empty with rooms := Table.empty.insert room }

def describe : UpdateRoomDto :=
  { UpdateRoomDto.empty with
    description := some (some "Eight seats"), descriptionLength := by simp; decide }

def reprice : UpdateRoomDto :=
  { UpdateRoomDto.empty with pricePerHour := some (some 1500), priceMin := by simp }

/-- The description is loaded, the new price is set, and the description is saved. -/
def overtaking : List Party := [.first, .first, .second, .second]

theorem overtaking_both :
    Both (Rooms.patch ⟨1, 0⟩ describe) (Rooms.patch ⟨1, 0⟩ reprice) (clubWith vip) overtaking
      [.first] where
  waiting := nofun
  second := rfl
  first := rfl

/-- **The new price is lost**: it is saved, and the description is saved over it. -/
theorem price_lost :
    Both (Rooms.patch ⟨1, 0⟩ describe) (Rooms.patch ⟨1, 0⟩ reprice) (clubWith vip) overtaking
      [.first] ∧ ¬ RoomColumn.Named describe .pricePerHour ∧
    (storeAfter (Rooms.patch ⟨1, 0⟩ describe) (Rooms.patch ⟨1, 0⟩ reprice) (clubWith vip)
      overtaking).rooms.get? 1 = some { vip with pricePerHour := 1500 } ∧
    (storeFinal (Rooms.patch ⟨1, 0⟩ describe) (Rooms.patch ⟨1, 0⟩ reprice) (clubWith vip)
      overtaking [.first]).rooms.get? 1 = some { vip with description := some "Eight seats" } :=
  ⟨overtaking_both, fun h => h rfl, rfl, rfl⟩

/-- The new price is set first, and then the description. -/
def inTurn : List Party := [.second, .second]

/-- The new price is kept. -/
theorem updates_kept_in_turn :
    Kept (Rooms.patch ⟨1, 0⟩ describe) (Rooms.patch ⟨1, 0⟩ reprice) (clubWith vip) inTurn
      [.first, .first, .first] (·.rooms.get? 1) RoomColumn.value .pricePerHour := by
  have hboth : Both (Rooms.patch ⟨1, 0⟩ describe) (Rooms.patch ⟨1, 0⟩ reprice) (clubWith vip) inTurn
      [.first, .first, .first] := ⟨nofun, rfl, rfl⟩
  have hchange : Changes (Rooms.patch ⟨1, 0⟩ describe) (Rooms.patch ⟨1, 0⟩ reprice) (clubWith vip)
      inTurn (·.rooms.get? 1) RoomColumn.value .pricePerHour :=
    ⟨vip, { vip with pricePerHour := 1500 }, rfl, rfl, by decide⟩
  have hnot : ¬ Overtaken (Rooms.patch ⟨1, 0⟩ describe) (Rooms.patch ⟨1, 0⟩ reprice) (clubWith vip)
      inTurn := fun ⟨e, he⟩ => by rcases he with he | he <;> cases he
  exact ((updates_kept_iff (Rooms.patch ⟨1, 0⟩ reprice) (clubWith vip) inTurn
    [.first, .first, .first]).1 ⟨1, 0⟩ describe .pricePerHour hboth (fun h => h rfl) hchange).mpr
      (Or.inr hnot)

end GameClub.Services
