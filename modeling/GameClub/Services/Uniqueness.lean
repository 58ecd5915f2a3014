import GameClub.Auth.Endpoints
import GameClub.Lib.UniqueKey
import GameClub.Services.Customers

/-! # Checks before an insert, and unique indexes

A service looks for the key of a new row among the rows that are not removed. The unique index of the
table has the removed ones too: `uq_users_email` and `uq_rooms_name` are on all rows, and
`uq_customers_phone` is partial in the phone only.

* `Desk.indexed_after`: the three indexes hold after every run of creations, updates and removals.
* `prechecks_agree_iff`: the check of a creation agrees with the index exactly when no removed row has
  its key.
* `removed_name_refused`: a room that is created again after it was removed. -/

namespace GameClub.Services

open GameClub.Lib GameClub.Common GameClub.Store GameClub.Sessions

/-! ### Calls -/

/-- The club and the accounts of its staff. -/
structure Desk where
  world : World
  accounts : Auth.AuthDb

/-- A create request, with what the database and Argon2 generate for it. -/
inductive Creation
  | user (dto : Auth.CreateUserDto) (newId : Uuid) (salt : String)
  | room (dto : CreateRoomDto) (newId : Uuid)
  | customer (dto : CreateCustomerDto) (newId : Uuid)

/-- A call of one of the three services that writes a row. -/
inductive RowCall
  | create (c : Creation)
  | updateUser (id : UuidText) (dto : Auth.UpdateUserDto) (times : ℕ → ℤ)
  | removeUser (id : UuidText) (times : ℕ → ℤ)
  | updateRoom (id : UuidText) (dto : UpdateRoomDto)
  | removeRoom (id : UuidText) (now : Instant)
  | updateCustomer (id : UuidText) (dto : UpdateCustomerDto)
  | removeCustomer (id : UuidText) (now : Instant)

namespace Desk

/-- What a create request returns or throws, and what it leaves. -/
def create (env : Auth.Env) (d : Desk) : Creation → Except Thrown Unit × Desk
  | .user dto newId salt =>
    let y := Auth.UsersService.create env dto newId salt d.accounts
    (y.1.map fun _ => (), { d with accounts := y.2 })
  | .room dto newId =>
    let y := (Rooms.create dto newId).call d.world
    (y.1.map fun _ => (), { d with world := y.2 })
  | .customer dto newId =>
    let y := (Customers.create dto newId).call d.world
    (y.1.map fun _ => (), { d with world := y.2 })

/-- An endpoint of the accounts that lists none of them. -/
def serve (env : Auth.Env) (d : Desk) (e : Auth.Endpoint) (times : ℕ → ℤ) : Desk :=
  { d with accounts := (e.handle env (fun listed => listed) times d.accounts).2 }

/-- What a call leaves. -/
def step (env : Auth.Env) (d : Desk) : RowCall → Desk
  | .create c => (d.create env c).2
  | .updateUser id dto times => d.serve env (.request (.updateUser id dto)) times
  | .removeUser id times => d.serve env (.remove id) times
  | .updateRoom id dto => { d with world := ((Rooms.update id dto).call d.world).2 }
  | .removeRoom id now => { d with world := ((Rooms.remove id now).call d.world).2 }
  | .updateCustomer id dto => { d with world := ((Customers.update id dto).call d.world).2 }
  | .removeCustomer id now => { d with world := ((Customers.remove id now).call d.world).2 }

/-- What the calls leave, one after another. -/
def after (env : Auth.Env) (d : Desk) (calls : List RowCall) : Desk := calls.foldl (step env) d

end Desk

/-! ### Keys -/

def emailKey (u : Auth.User) : Option String := some u.email

def nameKey (r : Room) : Option String := some r.name

def liveUser (u : Auth.User) : Bool := u.deletedAt.isNone

def liveRoom (r : Room) : Bool := r.deletedAt.isNone

def liveCustomer (c : Customer) : Bool := c.deletedAt.isNone

/-- The unique indexes of the club. -/
structure Keyed (db : Db) : Prop where
  names : db.rooms.Indexed nameKey
  phones : db.customers.Indexed Customer.phone

/-- **The three unique indexes.** -/
structure Desk.Indexed (d : Desk) : Prop where
  emails : d.accounts.users.Indexed emailKey
  keyed : Keyed d.world.db

namespace Creation

/-- The check of the service finds no row with the key. -/
def Passes (env : Auth.Env) (d : Desk) : Creation → Prop
  | .user dto _ _ => d.accounts.findUserByEmail (Auth.normalizeEmail env dto.email) = none
  | .room dto _ => Rooms.nameExists d.world.db dto.name = false
  | .customer dto _ => Customers.checkPhone dto.phone d.world.db = .ok ()

/-- The key of the new row is in the index. -/
def Violates (env : Auth.Env) (d : Desk) : Creation → Prop
  | .user dto _ _ => d.accounts.users.Held emailKey (Auth.normalizeEmail env dto.email)
  | .room dto _ => d.world.db.rooms.Held nameKey dto.name
  | .customer dto _ =>
    ∃ phone, dto.phone = some phone ∧ d.world.db.customers.Held Customer.phone phone

/-- A row that was removed has the key. -/
def Freed (env : Auth.Env) (d : Desk) : Creation → Prop
  | .user dto _ _ =>
    d.accounts.users.HeldRemoved emailKey liveUser (Auth.normalizeEmail env dto.email)
  | .room dto _ => d.world.db.rooms.HeldRemoved nameKey liveRoom dto.name
  | .customer dto _ => ∃ phone, dto.phone = some phone ∧
      d.world.db.customers.HeldRemoved Customer.phone liveCustomer phone

/-- The error of the check. -/
def takenException : Creation → DomainException
  | .user _ _ _ => ConflictException "EMAIL_TAKEN" "A user with this email already exists" []
  | .room _ _ => ConflictException "ROOM_NAME_TAKEN" "A room with this name already exists" []
  | .customer _ _ => Customers.phoneTakenException

def index : Creation → String
  | .user _ _ _ => "uq_users_email"
  | .room _ _ => "uq_rooms_name"
  | .customer _ _ => "uq_customers_phone"

/-- **The check agrees with the index**: it passes exactly when the insert does not violate the index,
a key in the index is reported by the error of the check, and never as a violation. -/
structure Agrees (env : Auth.Env) (d : Desk) (c : Creation) : Prop where
  checked : c.Passes env d ↔ ¬ c.Violates env d
  reported : c.Violates env d → (d.create env c).1 = .error (.domain c.takenException)
  never_raw : (d.create env c).1 ≠ .error (.database (.uniqueViolation c.index))

end Creation

/-! ### One check -/

/-- A check of the live rows of a table with an index, and what the creation comes to. -/
theorem agrees_iff {env : Auth.Env} {d : Desk} {c : Creation} {α : Type} {key : α → Uuid}
    {t : Table key} {unique : α → Option String} {live : α → Bool} {k : String}
    (h : t.Indexed unique) (hpasses : c.Passes env d ↔ ¬ t.HeldLive unique live k)
    (hviolates : c.Violates env d ↔ t.Held unique k)
    (hfreed : c.Freed env d ↔ t.HeldRemoved unique live k)
    (hlive : ¬ c.Passes env d → (d.create env c).1 = .error (.domain c.takenException))
    (hfree : c.Passes env d → ¬ t.Held unique k →
      (d.create env c).1 ≠ .error (.database (.uniqueViolation c.index))) :
    c.Agrees env d ↔ ¬ c.Freed env d := by
  have hagree : (¬ t.HeldLive unique live k ↔ ¬ t.Held unique k) ↔
      ¬ t.HeldRemoved unique live k := h.search_agrees_iff
  rw [← hpasses, ← hviolates, ← hfreed] at hagree
  refine ⟨fun hc => hagree.mp hc.checked, fun hnot => ?_⟩
  have hchecked := hagree.mpr hnot
  refine ⟨hchecked, fun hheld => hlive fun hp => hchecked.mp hp hheld, ?_⟩
  by_cases hp : c.Passes env d
  · exact hfree hp fun hheld => hchecked.mp hp (hviolates.mpr hheld)
  · rw [hlive hp]
    simp

/-- The search of an account by its email. -/
theorem findUserByEmail_none {db : Auth.AuthDb} {email : String} :
    db.findUserByEmail email = none ↔ ¬ db.users.HeldLive emailKey liveUser email := by
  simp [Auth.AuthDb.findUserByEmail, List.find?_eq_none, Table.HeldLive, emailKey, liveUser]

theorem nameExists_false {db : Db} {name : String} :
    Rooms.nameExists db name = false ↔ ¬ db.rooms.HeldLive nameKey liveRoom name := by
  simp only [Rooms.nameExists, Table.HeldLive, nameKey, liveRoom, List.any_eq_false,
    Bool.and_eq_true, decide_eq_true_eq, Option.some.injEq, not_exists, not_and]
  exact ⟨fun h r hr hname hlive => h r hr hlive hname, fun h r hr hlive hname => h r hr hname hlive⟩

theorem phoneExists_false {db : Db} {phone : String} :
    Customers.phoneExists db phone = false ↔
      ¬ db.customers.HeldLive Customer.phone liveCustomer phone := by
  simp only [Customers.phoneExists, Table.HeldLive, liveCustomer, List.any_eq_false,
    Bool.and_eq_true, decide_eq_true_eq, not_exists, not_and]
  exact ⟨fun h r hr hphone hlive => h r hr hlive hphone,
    fun h r hr hlive hphone => h r hr hphone hlive⟩

/-! ### What a creation comes to -/

/-- A created account: the check has failed, or the index, or neither. -/
theorem createUser_result (env : Auth.Env) (d : Desk) (dto : Auth.CreateUserDto) (newId : Uuid)
    (salt : String) :
    (¬ (Creation.user dto newId salt).Passes env d → (d.create env (.user dto newId salt)).1 =
      .error (.domain (Creation.user dto newId salt).takenException)) ∧
    ((Creation.user dto newId salt).Passes env d →
      ¬ d.accounts.users.Held emailKey (Auth.normalizeEmail env dto.email) →
      (d.create env (.user dto newId salt)).1 ≠
        .error (.database (.uniqueViolation "uq_users_email"))) := by
  have hemail : (Auth.UsersService.newUser env dto newId salt).email =
      Auth.normalizeEmail env dto.email := rfl
  constructor
  · intro hp
    have hsome : (d.accounts.findUserByEmail (Auth.normalizeEmail env dto.email)).isSome = true :=
      Option.isSome_iff_ne_none.mpr hp
    simp only [Desk.create, Auth.UsersService.create, hemail, hsome, if_true]
    rfl
  · intro hp hfree
    have hnone : d.accounts.findUserByEmail (Auth.normalizeEmail env dto.email) = none := hp
    have hany : (d.accounts.users.rows.any fun u =>
        u.email = Auth.normalizeEmail env dto.email) = false := by
      rw [List.any_eq_false]
      intro u hu he
      exact hfree ⟨u, hu, congrArg some (of_decide_eq_true he)⟩
    simp only [Desk.create, Auth.UsersService.create, hemail, hnone, hany, Option.isSome_none,
      Bool.false_eq_true, if_false]
    split_ifs <;> simp [Except.map]

/-- A room whose name is not found is inserted. -/
theorem createRoom_call {dto : CreateRoomDto} {newId : Uuid} {w : World}
    (h : Rooms.nameExists w.db dto.name = false) :
    (Rooms.create dto newId).call w = (Rooms.insert (Rooms.newRow dto newId)).call w := by
  unfold Rooms.create
  rw [Service.call_bind, call_read, h]
  rfl

/-- A created room. -/
theorem createRoom_result (env : Auth.Env) (d : Desk) (dto : CreateRoomDto) (newId : Uuid) :
    (¬ (Creation.room dto newId).Passes env d → (d.create env (.room dto newId)).1 =
      .error (.domain (Creation.room dto newId).takenException)) ∧
    ((Creation.room dto newId).Passes env d → ¬ d.world.db.rooms.Held nameKey dto.name →
      (d.create env (.room dto newId)).1 ≠
        .error (.database (.uniqueViolation "uq_rooms_name"))) := by
  constructor
  · intro hp
    have htaken : Rooms.nameExists d.world.db dto.name = true := by
      simpa [Creation.Passes] using hp
    simp only [Desk.create, Rooms.create, Service.call_bind, call_read, htaken, if_true]
    rfl
  · intro hp hfree
    have hpass : Rooms.nameExists d.world.db dto.name = false := hp
    have hname : Rooms.nameTaken d.world.db (Rooms.newRow dto newId) = false := by
      simp only [Rooms.nameTaken, List.any_eq_false, Bool.and_eq_true, decide_eq_true_eq, not_and]
      exact fun r hr _ he => hfree ⟨r, hr, congrArg some he⟩
    simp only [Desk.create, createRoom_call hpass]
    simp only [Service.call, Rooms.insert, hname, Bool.false_eq_true, if_false]
    unfold moneyColumn
    split_ifs <;> simp [Except.map]

/-- A customer whose phone is not found is inserted. -/
theorem createCustomer_call {dto : CreateCustomerDto} {newId : Uuid} {w : World}
    (h : Customers.checkPhone dto.phone w.db = .ok ()) : (Customers.create dto newId).call w =
      (Customers.insert (Customers.newCustomer dto newId)).call w := by
  unfold Customers.create
  rw [Service.call_bind, call_read, h]

/-- A phone that no row has is not indexed. -/
theorem phoneIndexed_false {db : Db} {row : Customer}
    (h : ∀ phone, row.phone = some phone → ¬ db.customers.Held Customer.phone phone) :
    Customers.phoneIndexed db row = false := by
  unfold Customers.phoneIndexed
  cases hphone : row.phone with
  | none => rfl
  | some phone =>
    simp only [Option.isSome_some, Bool.true_and, List.any_eq_false, Bool.and_eq_true,
      decide_eq_true_eq, not_and]
    exact fun c hc _ he => h phone hphone ⟨c, hc, he⟩

/-- A created customer. -/
theorem createCustomer_result (env : Auth.Env) (d : Desk) (dto : CreateCustomerDto) (newId : Uuid) :
    (¬ (Creation.customer dto newId).Passes env d → (d.create env (.customer dto newId)).1 =
      .error (.domain (Creation.customer dto newId).takenException)) ∧
    ((Creation.customer dto newId).Passes env d →
      (∀ phone, dto.phone = some phone → ¬ d.world.db.customers.Held Customer.phone phone) →
      (d.create env (.customer dto newId)).1 ≠
        .error (.database (.uniqueViolation "uq_customers_phone"))) := by
  constructor
  · intro hp
    have hcheck : Customers.checkPhone dto.phone d.world.db =
        .error (.domain Customers.phoneTakenException) := by
      simp only [Creation.Passes] at hp
      unfold Customers.checkPhone at hp ⊢
      split at hp
      · exact absurd rfl hp
      · split_ifs at hp ⊢
        · rfl
        · exact absurd rfl hp
    simp only [Desk.create, Customers.create, Service.call_bind, call_read, hcheck]
    rfl
  · intro hp hfree
    have hpass : Customers.checkPhone dto.phone d.world.db = .ok () := hp
    have hindex : Customers.phoneIndexed d.world.db (Customers.newCustomer dto newId) = false :=
      phoneIndexed_false hfree
    simp only [Desk.create, createCustomer_call hpass]
    simp only [Service.call, Customers.insert, hindex, Bool.false_eq_true, if_false]
    split_ifs <;> simp [Except.map]

/-- A body with a phone is checked. -/
theorem checkPhone_ok {phone : String} (h : isPhone phone = true) {db : Db} :
    Customers.checkPhone (some phone) db = .ok () ↔
      ¬ db.customers.HeldLive Customer.phone liveCustomer phone := by
  have hne : phone ≠ "" := by
    rintro rfl
    exact absurd h (by decide)
  rw [← phoneExists_false]
  cases hexists : Customers.phoneExists db phone <;> simp [Customers.checkPhone, hexists, hne]

/-- **One creation**: its check agrees with the index exactly when no removed row has the key. -/
theorem creation_agrees_iff (env : Auth.Env) {d : Desk} (h : d.Indexed) (c : Creation) :
    c.Agrees env d ↔ ¬ c.Freed env d := by
  cases c with
  | user dto newId salt =>
    obtain ⟨hlive, hfree⟩ := createUser_result env d dto newId salt
    exact agrees_iff h.emails findUserByEmail_none Iff.rfl Iff.rfl hlive hfree
  | room dto newId =>
    obtain ⟨hlive, hfree⟩ := createRoom_result env d dto newId
    exact agrees_iff h.keyed.names nameExists_false Iff.rfl Iff.rfl hlive hfree
  | customer dto newId =>
    obtain ⟨hlive, hfree⟩ := createCustomer_result env d dto newId
    cases hphone : dto.phone with
    | some phone =>
      have hone : ∀ {P : String → Prop}, (∃ p, dto.phone = some p ∧ P p) ↔ P phone := by
        intro P
        simp [hphone]
      refine agrees_iff (c := .customer dto newId) h.keyed.phones ?_ hone hone hlive fun hp hheld =>
        hfree hp fun p hp' => ?_
      · rw [Creation.Passes, hphone]
        exact checkPhone_ok (dto.phoneMatches phone hphone)
      · obtain rfl := Option.some.inj (hphone.symm.trans hp')
        exact hheld
    | none =>
      -- without a phone there is no key
      have hno : ∀ {P : String → Prop}, ¬ ∃ p, dto.phone = some p ∧ P p := by
        rintro P ⟨p, hp, -⟩
        rw [hphone] at hp
        cases hp
      have hpass : (Creation.customer dto newId).Passes env d := by
        rw [Creation.Passes, hphone]
        rfl
      refine ⟨fun _ => hno, fun _ => ⟨⟨fun _ => hno, fun _ => hpass⟩, fun hv => absurd hv hno, ?_⟩⟩
      refine hfree hpass fun p hp => ?_
      rw [hphone] at hp
      cases hp

/-! ### The indexes after one call -/

/-- The index on names takes a row whose name is free. -/
theorem free_of_nameTaken {db : Db} {row : Room} (h : Rooms.nameTaken db row = false) :
    db.rooms.Free nameKey row := by
  simp only [Rooms.nameTaken, List.any_eq_false, Bool.and_eq_true, decide_eq_true_eq, not_and] at h
  exact fun s hs hne k hk hsk => h s hs hne (Option.some.inj (hsk.trans hk.symm))

/-- The index on phones takes a row whose phone is free. -/
theorem free_of_phoneIndexed {db : Db} {row : Customer} (h : Customers.phoneIndexed db row = false) :
    db.customers.Free Customer.phone row := by
  intro s hs hne k hk hsk
  simp only [Customers.phoneIndexed, hk, Option.isSome_some, Bool.true_and, List.any_eq_false,
    Bool.and_eq_true, decide_eq_true_eq, not_and] at h
  exact h s hs hne hsk

theorem keyed_createRoom {w : World} (h : Keyed w.db) (dto : CreateRoomDto) (newId : Uuid) :
    Keyed ((Rooms.create dto newId).call w).2.db := by
  cases hexists : Rooms.nameExists w.db dto.name with
  | true =>
    simp only [Rooms.create, Service.call_bind, call_read, hexists, if_true]
    exact h
  | false =>
    rw [createRoom_call hexists]
    unfold Service.call Rooms.insert
    cases moneyColumn (Rooms.newRow dto newId).pricePerHour with
    | error e => exact h
    | ok _ =>
      dsimp only
      split_ifs with hid hname
      · exact h
      · exact h
      · have hfree := free_of_nameTaken (Bool.eq_false_iff.mpr hname)
        exact { h with names := h.names.insert (not_not.mp hid) hfree }

theorem keyed_updateRoom {w : World} (h : Keyed w.db) (id : UuidText) (dto : UpdateRoomDto) :
    Keyed ((Rooms.update id dto).call w).2.db := by
  rcases Rooms.update_call id dto w with ⟨e, he⟩ | ⟨room, row, -, -, htaken, hok⟩
  · rw [he]
    exact h
  · rw [hok]
    exact { h with names := h.names.set (free_of_nameTaken htaken) }

theorem keyed_removeRoom {w : World} (h : Keyed w.db) (id : UuidText) (now : Instant) :
    Keyed ((Rooms.remove id now).call w).2.db := by
  rcases Rooms.remove_call id now w with ⟨e, he⟩ | ⟨room, hroom, hok⟩
  · rw [he]
    exact h
  · rw [hok]
    obtain ⟨hget, -⟩ := Db.findRoom_eq_some.mp hroom
    have hkey : room.id = id.value := Table.key_of_get? hget
    have hstored : w.db.rooms.get? room.id = some room := by
      rw [hkey]
      exact hget
    exact { h with names := h.names.set_same hstored rfl }

theorem keyed_createCustomer {w : World} (h : Keyed w.db) (dto : CreateCustomerDto)
    (newId : Uuid) : Keyed ((Customers.create dto newId).call w).2.db := by
  cases hcheck : Customers.checkPhone dto.phone w.db with
  | error e =>
    unfold Customers.create
    rw [Service.call_bind, call_read, hcheck]
    exact h
  | ok _ =>
    rw [createCustomer_call hcheck]
    unfold Service.call Customers.insert
    split_ifs with hid hindex
    · exact h
    · exact h
    · have hfree := free_of_phoneIndexed (Bool.eq_false_iff.mpr hindex)
      exact { h with phones := h.phones.insert (not_not.mp hid) hfree }

theorem keyed_updateCustomer {w : World} (h : Keyed w.db) (id : UuidText)
    (dto : UpdateCustomerDto) : Keyed ((Customers.update id dto).call w).2.db := by
  unfold Customers.update
  rw [Service.call_bind, call_read]
  cases Customers.findById id w.db with
  | error e => exact h
  | ok customer =>
    dsimp only
    rw [Service.call_bind, call_read]
    cases Customers.checkPhone (dto.phone.join.filter fun phone => some phone ≠ customer.phone)
        w.db with
    | error e => exact h
    | ok _ =>
      dsimp only
      unfold Service.call Customers.save
      cases hrow : Customers.savedRow w.db (Customers.assign customer dto) with
      | error e => exact h
      | ok row =>
        obtain ⟨row', -, hcheck⟩ := bind_ok.mp hrow
        split_ifs at hcheck with hindex
        cases hcheck
        exact { h with phones := h.phones.set (free_of_phoneIndexed (Bool.eq_false_iff.mpr hindex)) }

theorem keyed_removeCustomer {w : World} (h : Keyed w.db) (id : UuidText) (now : Instant) :
    Keyed ((Customers.remove id now).call w).2.db := by
  rcases Customers.remove_call id now w with ⟨e, he⟩ | ⟨stored, hstored, hok⟩
  · rw [he]
    exact h
  · rw [hok]
    exact { h with phones := h.phones.set_same (Customers.get?_found hstored).2 rfl }

/-- The accounts after a creation. -/
theorem emails_createUser {env : Auth.Env} {db : Auth.AuthDb} (h : db.users.Indexed emailKey)
    (dto : Auth.CreateUserDto) (newId : Uuid) (salt : String) :
    (Auth.UsersService.create env dto newId salt db).2.users.Indexed emailKey := by
  unfold Auth.UsersService.create
  dsimp only
  split_ifs with hfound hany hid
  · exact h
  · exact h
  · exact h
  · refine h.insert (Option.not_isSome_iff_eq_none.mp hid) fun s hs _ k hk hsk => hany ?_
    have hsame : s.email = (Auth.UsersService.newUser env dto newId salt).email :=
      Option.some.inj (hsk.trans hk.symm)
    exact List.any_eq_true.mpr ⟨s, hs, decide_eq_true hsame⟩

/-- The row of a saved account has the id and the email of the entity. -/
theorem savedUser_email {db : Auth.AuthDb} {entity : Auth.UserEntity} {row : Auth.User}
    (h : db.savedUser entity = .ok row) : row.id = entity.id ∧ row.email = entity.email := by
  obtain ⟨fullName, -, h⟩ := bind_ok.mp h
  obtain ⟨role, -, h⟩ := bind_ok.mp h
  obtain ⟨isActive, -, h⟩ := bind_ok.mp h
  obtain ⟨passwordHash, -, h⟩ := bind_ok.mp h
  cases h
  exact ⟨rfl, rfl⟩

/-- A find of an account, and what the request does with it. -/
theorem run_findUser {env : Auth.Env} {times : ℕ → ℤ} {id : UuidText} {db : Auth.AuthDb} :
    Auth.Timed.run env times (Auth.findById id) (0, db) =
      (match db.findUser id.value with
        | none => .error (.domain (ResourceNotFoundException "User" id.text))
        | some u => .ok u.profile, 1, { db with clock := times 0 }) := by
  have hfound : Auth.exec env (.findUser id.value) { db with clock := times 0 } =
      (.ok ((db.findUser id.value).map Auth.User.profile), { db with clock := times 0 }) := rfl
  unfold Auth.findById
  rw [Auth.Timed.run_ask_bind _ hfound]
  cases db.findUser id.value <;> rfl

/-- The accounts after a save that keeps an email. -/
theorem emails_save {env : Auth.Env} {times : ℕ → ℤ} {entity : Auth.UserEntity}
    {x : ℕ × Auth.AuthDb} {user : Auth.User} (h : x.2.users.Indexed emailKey)
    (hstored : x.2.users.get? entity.id = some user) (hemail : entity.email = user.email) :
    (Auth.Timed.run env times (Auth.ask (.saveUser entity)) x).2.2.users.Indexed emailKey := by
  rw [Auth.Timed.run_ask]
  simp only [Auth.Timed.answer, Auth.exec, Auth.AuthDb.execSaveUser]
  cases hrow : Auth.AuthDb.savedUser { x.2 with clock := times x.1 } entity with
  | error e => exact h
  | ok row =>
    obtain ⟨hid, hsame⟩ := savedUser_email hrow
    rw [← hid] at hstored
    have hput : x.2.users.put row = x.2.users.set row := by
      rw [Table.put, if_neg (by rw [hstored]; simp)]
    have hset : (x.2.users.set row).Indexed emailKey :=
      h.set_same hstored (congrArg some (hsame.trans hemail))
    rw [← hput] at hset
    exact hset

/-- The accounts after an update, which writes the email that was read. -/
theorem emails_updateUser {env : Auth.Env} {d : Desk}
    (h : d.accounts.users.Indexed emailKey) (id : UuidText) (dto : Auth.UpdateUserDto)
    (times : ℕ → ℤ) :
    (d.serve env (.request (.updateUser id dto)) times).accounts.users.Indexed emailKey := by
  simp only [Desk.serve, Auth.Endpoint.handle, Auth.runFor, Auth.handler, Auth.update,
    Auth.Timed.run_bind, run_findUser]
  cases hfound : d.accounts.findUser id.value with
  | none => exact h
  | some user =>
    obtain ⟨hget, -⟩ := Auth.AuthDb.findUser_eq_some.mp hfound
    have hstored : d.accounts.users.get? user.id = some user := by
      rw [Table.key_of_get? hget]
      exact hget
    have hsave : (Auth.Timed.run env times (Auth.ask (.saveUser (user.profile.assign dto)))
        (1, { d.accounts with clock := times 0 })).2.2.users.Indexed emailKey :=
      emails_save h hstored rfl
    dsimp only
    generalize Auth.Timed.run env times (Auth.ask (.saveUser (user.profile.assign dto)))
      (1, { d.accounts with clock := times 0 }) = y at hsave ⊢
    rcases y with ⟨_ | _, _, _⟩
    · exact hsave
    · exact hsave

/-- The accounts after a removal. -/
theorem emails_removeUser {env : Auth.Env} {d : Desk} (h : d.accounts.users.Indexed emailKey)
    (id : UuidText) (times : ℕ → ℤ) :
    (d.serve env (.remove id) times).accounts.users.Indexed emailKey := by
  simp only [Desk.serve, Auth.Endpoint.handle, run_findUser]
  cases d.accounts.findUser id.value with
  | none => exact h
  | some user =>
    dsimp only [Auth.AuthDb.softRemove]
    refine h.mapRows fun r => ?_
    split_ifs <;> rfl

/-! ### Runs -/

/-- **One call keeps the three indexes.** -/
theorem Desk.Indexed.step {env : Auth.Env} {d : Desk} (h : d.Indexed) (call : RowCall) :
    (d.step env call).Indexed := by
  cases call with
  | create c =>
    cases c with
    | user dto newId salt => exact { h with emails := emails_createUser h.emails dto newId salt }
    | room dto newId => exact { h with keyed := keyed_createRoom h.keyed dto newId }
    | customer dto newId => exact { h with keyed := keyed_createCustomer h.keyed dto newId }
  | updateUser id dto times => exact { h with emails := emails_updateUser h.emails id dto times }
  | removeUser id times => exact { h with emails := emails_removeUser h.emails id times }
  | updateRoom id dto => exact { h with keyed := keyed_updateRoom h.keyed id dto }
  | removeRoom id now => exact { h with keyed := keyed_removeRoom h.keyed id now }
  | updateCustomer id dto => exact { h with keyed := keyed_updateCustomer h.keyed id dto }
  | removeCustomer id now => exact { h with keyed := keyed_removeCustomer h.keyed id now }

/-- The indexes hold after every run; by induction on the calls. -/
theorem Desk.indexed_after {env : Auth.Env} (calls : List RowCall) {d : Desk} (h : d.Indexed) :
    (d.after env calls).Indexed := by
  induction calls generalizing d with
  | nil => exact h
  | cons call calls ih => exact ih (h.step call)

/-- A database without rows. -/
def Desk.empty : Desk := ⟨⟨.empty, []⟩, ⟨.empty, .empty, [], 0⟩⟩

theorem Desk.indexed_empty : Desk.empty.Indexed :=
  ⟨Table.indexed_empty, Table.indexed_empty, Table.indexed_empty⟩

/-- **After every run of calls, and for every create request, the check of the service agrees with
the unique index exactly when no removed row has the key.** -/
theorem prechecks_agree_iff (env : Auth.Env) {d : Desk} (h : d.Indexed) (calls : List RowCall)
    (c : Creation) : c.Agrees env (d.after env calls) ↔ ¬ c.Freed env (d.after env calls) :=
  creation_agrees_iff env (Desk.indexed_after calls h) c

/-! ### A room that is created again -/

/-- A body of `POST /rooms`. -/
def bootcamp : CreateRoomDto := ⟨"Bootcamp", none, 15000, by decide, noText_length, by decide⟩

/-- The room is created and removed. -/
def openedAndClosed : List RowCall := [.create (.room bootcamp 1), .removeRoom ⟨1, 0⟩ .epoch]

theorem prechecks_agree_iff_bootcamp :
    (Creation.room bootcamp 2).Agrees Auth.plainEnv (Desk.empty.after Auth.plainEnv openedAndClosed) ↔
      ¬ (Creation.room bootcamp 2).Freed Auth.plainEnv
        (Desk.empty.after Auth.plainEnv openedAndClosed) :=
  prechecks_agree_iff Auth.plainEnv Desk.indexed_empty openedAndClosed (.room bootcamp 2)

/-- The name of a removed room is refused by the index, and not by the check. -/
theorem removed_name_refused :
    (¬ ∀ (env : Auth.Env) (calls : List RowCall) (c : Creation),
      c.Agrees env (Desk.empty.after env calls)) ∧
    ((Desk.empty.after Auth.plainEnv openedAndClosed).create Auth.plainEnv (.room bootcamp 2)).1 =
      .error (.database (.uniqueViolation "uq_rooms_name")) := by
  have hraw : ((Desk.empty.after Auth.plainEnv openedAndClosed).create Auth.plainEnv
      (.room bootcamp 2)).1 = .error (.database (.uniqueViolation "uq_rooms_name")) := rfl
  exact ⟨fun h => (h Auth.plainEnv openedAndClosed (.room bootcamp 2)).never_raw hraw, hraw⟩

end GameClub.Services
