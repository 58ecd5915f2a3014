import GameClub.Services.Administration

/-! # The customers service

A customer is created with a phone that no other customer has, patched, and removed by a soft delete.
The ledger is not consulted.

* `Customers.create_call`, `Customers.update_call`, `Customers.remove_call`: a call saves one row, or
  throws and leaves everything as it is. -/

namespace GameClub.Services

open GameClub.Lib GameClub.Common GameClub.Store GameClub.Sessions

/-- `^\+?\d{7,15}$` -/
def isPhone (phone : String) : Bool :=
  let digits := match phone.toList with
    | '+' :: ds => ds
    | ds => ds
  digits.all Char.isDigit && decide (7 ≤ digits.length) && decide (digits.length ≤ 15)

/-- A valid body of a new customer. -/
structure CreateCustomerDto where
  fullName : String
  phone : Option String
  note : Option String
  fullNameLength : 2 ≤ fullName.length ∧ fullName.length ≤ 120
  phoneMatches : ∀ s, phone = some s → isPhone s = true
  noteLength : ∀ s, note = some s → s.length ≤ 255

/-- A valid body of a customer update. -/
structure UpdateCustomerDto where
  fullName : Patch String
  phone : Patch String
  note : Patch String
  isBlocked : Patch Bool
  fullNameLength : ∀ s, fullName = some (some s) → 2 ≤ s.length ∧ s.length ≤ 120
  phoneMatches : ∀ s, phone = some (some s) → isPhone s = true
  noteLength : ∀ s, note = some (some s) → s.length ≤ 255

/-- A customer in memory, and the row it was loaded from. A body declares `isBlocked` itself, so
assigning one without it makes it undefined. -/
structure CustomerEntity where
  stored : Customer
  fullName : Option String
  phone : Option String
  note : Option String
  isBlocked : Patch Bool

namespace Customers

/-- The entity of a row. -/
def ofRow (row : Customer) : CustomerEntity where
  stored := row
  fullName := some row.fullName
  phone := row.phone
  note := row.note
  isBlocked := some (some row.isBlocked)

/-- `customers.exists({ where: { phone } })` -/
def phoneExists (db : Db) (phone : String) : Bool :=
  db.customers.rows.any fun c => c.deletedAt.isNone && c.phone = some phone

def phoneTakenException : DomainException :=
  ConflictException "PHONE_TAKEN" "A customer with this phone already exists" []

/-- The check of a body with the phone `phone`. -/
def checkPhone (phone : Option String) (db : Db) : Except Thrown Unit :=
  match phone with
  | none => .ok ()
  | some phone =>
    if phone ≠ "" && phoneExists db phone then .error (.domain phoneTakenException) else .ok ()

/-- Another row has the phone of `row`. The index is partial in the phone only, so a soft-deleted row
counts. -/
def phoneIndexed (db : Db) (row : Customer) : Bool :=
  row.phone.isSome && db.customers.rows.any fun c => c.id ≠ row.id && c.phone = row.phone

/-- The row of a new customer. -/
def newCustomer (dto : CreateCustomerDto) (newId : Uuid) : Customer where
  id := newId
  fullName := dto.fullName
  phone := dto.phone
  note := dto.note
  isBlocked := false
  deletedAt := none

/-- `customers.save` of a new customer. -/
def insert (row : Customer) : Service CustomerEntity := fun w =>
  if w.db.customers.get? row.id ≠ none then
    (.error (.database (.uniqueViolation "PK_133ec679a801fab5e070f73d3ea")), w)
  else if phoneIndexed w.db row then
    (.error (.database (.uniqueViolation "uq_customers_phone")), w)
  else (.ok (ofRow row), { w with db := { w.db with customers := w.db.customers.insert row } })

def create (dto : CreateCustomerDto) (newId : Uuid) : Service CustomerEntity := do
  read (checkPhone dto.phone)
  insert (newCustomer dto newId)

def findById (id : UuidText) (db : Db) : Except Thrown CustomerEntity :=
  match db.findCustomer id.value with
  | none => .error (.domain (ResourceNotFoundException "Customer" id.text))
  | some row => .ok (ofRow row)

/-- `Object.assign(customer, dto)`. -/
def assign (customer : CustomerEntity) (dto : UpdateCustomerDto) : CustomerEntity :=
  { customer with
    fullName := dto.fullName.getD customer.fullName
    phone := dto.phone.getD customer.phone
    note := dto.note.getD customer.note
    isBlocked := dto.isBlocked }

/-- The columns `save` leaves in the row that is `current` then. -/
def columns (customer : CustomerEntity) (current : Customer) : Except Thrown Customer := do
  let fullName ← notNull "full_name" customer.fullName
  let isBlocked ← notNullColumn "is_blocked" customer.isBlocked current.isBlocked
  pure { customer.stored with fullName, phone := customer.phone, note := customer.note, isBlocked }

/-- The row `save` writes, if it writes one. -/
def savedRow (db : Db) (customer : CustomerEntity) : Except Thrown Customer := do
  let row ← columns customer ((db.customers.get? customer.stored.id).getD customer.stored)
  if phoneIndexed db row then .error (.database (.uniqueViolation "uq_customers_phone"))
  else .ok row

/-- `customers.save` of a loaded customer. -/
def save (customer : CustomerEntity) : Service CustomerEntity := fun w =>
  match savedRow w.db customer with
  | .error e => (.error e, w)
  | .ok row => (.ok customer, { w with db := { w.db with customers := w.db.customers.set row } })

def update (id : UuidText) (dto : UpdateCustomerDto) : Service CustomerEntity := do
  let customer ← read (findById id)
  read (checkPhone (dto.phone.join.filter fun phone => some phone ≠ customer.phone))
  save (assign customer dto)

/-- `customers.softRemove`. -/
def softRemove (customer : CustomerEntity) (now : Instant) : Service Unit := fun w =>
  let current := (w.db.customers.get? customer.stored.id).getD customer.stored
  (.ok (), { w with db := { w.db with
    customers := w.db.customers.set { current with deletedAt := some now } } })

def remove (id : UuidText) (now : Instant) : Service Unit := do
  let customer ← read (findById id)
  softRemove customer now

/-! ### What a call does -/

/-- A customer that is found is the row of its id. -/
theorem get?_found {db : Db} {id : Uuid} {row : Customer} (h : db.findCustomer id = some row) :
    row.id = id ∧ db.customers.get? row.id = some row := by
  have hget := (Db.findCustomer_eq_some.mp h).1
  have hid : row.id = id := Table.key_of_get? hget
  exact ⟨hid, by rw [hid]; exact hget⟩

theorem savedRow_ok {db : Db} {customer : CustomerEntity} {row : Customer}
    (h : savedRow db customer = .ok row) :
    row.id = customer.stored.id := by
  obtain ⟨row', hcolumns, hcheck⟩ := bind_ok.mp h
  split_ifs at hcheck
  cases hcheck
  obtain ⟨fullName, -, hcolumns⟩ := bind_ok.mp hcolumns
  obtain ⟨isBlocked, -, hcolumns⟩ := bind_ok.mp hcolumns
  cases hcolumns
  rfl

/-- **A create inserts one customer**, or throws. -/
theorem create_call (dto : CreateCustomerDto) (newId : Uuid) (w : World) :
    (∃ e, (create dto newId).call w = (.error e, w)) ∨
    w.db.customers.get? newId = none ∧ (create dto newId).call w =
      (.ok (ofRow (newCustomer dto newId)), { w with db :=
        { w.db with customers := w.db.customers.insert (newCustomer dto newId) } }) := by
  unfold create
  rw [Service.call_bind, call_read]
  rcases hphone : checkPhone dto.phone w.db with e | _
  · exact Or.inl ⟨e, rfl⟩
  · dsimp only
    unfold Service.call insert
    split_ifs with hid hindex
    · exact Or.inl ⟨_, rfl⟩
    · exact Or.inl ⟨_, rfl⟩
    · exact Or.inr ⟨not_not.mp hid, rfl⟩

/-- **An update saves one customer**, or throws. -/
theorem update_call (id : UuidText) (dto : UpdateCustomerDto) (w : World) :
    (∃ e, (update id dto).call w = (.error e, w)) ∨
    ∃ stored saved row, w.db.findCustomer id.value = some stored ∧ row.id = stored.id ∧
      (update id dto).call w =
        (.ok saved, { w with db := { w.db with customers := w.db.customers.set row } }) := by
  unfold update
  rw [Service.call_bind, call_read]
  cases hstored : w.db.findCustomer id.value with
  | none =>
    simp only [findById, hstored]
    exact Or.inl ⟨_, rfl⟩
  | some stored =>
    simp only [findById, hstored]
    rw [Service.call_bind, call_read]
    rcases checkPhone (dto.phone.join.filter fun phone => some phone ≠ (ofRow stored).phone) w.db
      with e | _
    · exact Or.inl ⟨e, rfl⟩
    · dsimp only
      rcases hrow : savedRow w.db (assign (ofRow stored) dto) with e | row
      · exact Or.inl ⟨e, by simp only [Service.call, save, hrow]⟩
      · refine Or.inr ⟨stored, assign (ofRow stored) dto, row, rfl, savedRow_ok hrow, ?_⟩
        simp only [Service.call, save, hrow]

/-- **A removal marks one customer**, or throws. -/
theorem remove_call (id : UuidText) (now : Instant) (w : World) :
    (∃ e, (remove id now).call w = (.error e, w)) ∨
    ∃ stored, w.db.findCustomer id.value = some stored ∧ (remove id now).call w =
      (.ok (), { w with db := { w.db with
        customers := w.db.customers.set { stored with deletedAt := some now } } }) := by
  unfold remove
  rw [Service.call_bind, call_read]
  cases hstored : w.db.findCustomer id.value with
  | none =>
    simp only [findById, hstored]
    exact Or.inl ⟨_, rfl⟩
  | some stored =>
    have hcurrent := (get?_found hstored).2
    simp only [findById, hstored]
    refine Or.inr ⟨stored, rfl, ?_⟩
    simp only [Service.call, softRemove, ofRow, hcurrent, Option.getD_some]

end Customers

end GameClub.Services
