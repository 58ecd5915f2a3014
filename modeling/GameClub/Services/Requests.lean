import GameClub.Services.Customers
import GameClub.Services.Rates

/-! # Runs of requests

The calls of all the services that write sessions, the ledger, computers, rooms or customers, one
after another from the empty club: what a client can bring the database to.

* `perform_performs`: what a call leaves in the database.
* `reached_invariant`: what every call keeps holds of every database reached.
* `reached_priced`: prices and rates are not negative, and every session is billed. -/

namespace GameClub.Services

open GameClub.Lib GameClub.Common GameClub.Store GameClub.Sessions

/-- A call of a service with its arguments. -/
inductive Call
  | op (op : Op)
  | createRoom (dto : CreateRoomDto) (newId : Uuid)
  | removeRoom (id : UuidText) (now : Instant)
  | createCustomer (dto : CreateCustomerDto) (newId : Uuid)
  | updateCustomer (id : UuidText) (dto : UpdateCustomerDto)
  | removeCustomer (id : UuidText) (now : Instant)

/-- The club before the first request. -/
def World.initial : World := ⟨.empty, []⟩

/-- The world after a call. -/
def World.perform (w : World) : Call → World
  | .op op => w.step op
  | .createRoom dto newId => ((Rooms.create dto newId).call w).2
  | .removeRoom id now => ((Rooms.remove id now).call w).2
  | .createCustomer dto newId => ((Customers.create dto newId).call w).2
  | .updateCustomer id dto => ((Customers.update id dto).call w).2
  | .removeCustomer id now => ((Customers.remove id now).call w).2

/-- The world the calls bring the empty club to. -/
def World.reached (calls : List Call) : World := calls.foldl World.perform .initial

/-- **What a call leaves in the database**: the effect of an operation, or one row of the rooms or
the customers. -/
inductive Performs (db : Db) : Call → Db → Prop
  | op {op : Op} {db' : Db} (h : Effect db op db') : Performs db (.op op) db'
  | rejected {c : Call} : Performs db c db
  | roomCreated {dto : CreateRoomDto} {newId : Uuid} (hid : db.rooms.get? newId = none) :
      Performs db (.createRoom dto newId)
        { db with rooms := db.rooms.insert (Rooms.newRow dto newId) }
  | roomRemoved {id : UuidText} {now : Instant} {room : Room}
      (h : db.findRoom id.value = some room) : Performs db (.removeRoom id now)
        { db with rooms := db.rooms.set { room with deletedAt := some now } }
  | customers {c : Call} {customers : Table Customer.id} : Performs db c { db with customers }

theorem perform_performs (w : World) (c : Call) : Performs w.db c (w.perform c).db := by
  cases c with
  | op op => exact .op (step_effect w op)
  | createRoom dto newId =>
    rw [World.perform]
    rcases Rooms.create_call dto newId w with ⟨e, he⟩ | ⟨hid, hok⟩
    · rw [he]
      exact .rejected
    · rw [hok]
      exact .roomCreated hid
  | removeRoom id now =>
    rw [World.perform]
    rcases Rooms.remove_call id now w with ⟨e, he⟩ | ⟨room, hroom, hok⟩
    · rw [he]
      exact .rejected
    · rw [hok]
      exact .roomRemoved hroom
  | createCustomer dto newId =>
    rw [World.perform]
    rcases Customers.create_call dto newId w with ⟨e, he⟩ | ⟨-, hok⟩
    · rw [he]
      exact .rejected
    · rw [hok]
      exact .customers
  | updateCustomer id dto =>
    rw [World.perform]
    rcases Customers.update_call id dto w with ⟨e, he⟩ | ⟨_, _, _, -, -, hok⟩
    · rw [he]
      exact .rejected
    · rw [hok]
      exact .customers
  | removeCustomer id now =>
    rw [World.perform]
    rcases Customers.remove_call id now w with ⟨e, he⟩ | ⟨_, -, hok⟩
    · rw [he]
      exact .rejected
    · rw [hok]
      exact .customers

/-- Every call of a run of requests meets `P` on the database it is made on. -/
def EveryRequest (P : Db → Call → Prop) (calls : List Call) : Prop :=
  ∀ before c later, calls = before ++ c :: later → P (World.reached before).db c

/-- **What every call keeps holds of every database reached** by calls that meet `P`. -/
theorem reached_invariant {I : Db → Prop} {P : Db → Call → Prop}
    (hstep : ∀ {db db' c}, Performs db c db' → I db → P db c → I db') (h : I Db.empty)
    {calls : List Call} (hcalls : EveryRequest P calls) : I (World.reached calls).db :=
  foldl_invariant (f := World.perform) (I := fun w : World => I w.db)
    (P := fun w c => P w.db c) (fun w c hw hP => hstep (perform_performs w c) hw hP) h hcalls

/-! ### Prices and rates -/

/-- **What a session costs**: no price and no rate is negative, and every session is billed. -/
structure Priced (db : Db) : Prop where
  rooms : ∀ r ∈ db.rooms.rows, 0 ≤ r.pricePerHour
  rates : ∀ s ∈ db.sessions.rows, 0 ≤ s.ratePerHour
  billed : AllBilled db

theorem priced_empty : Priced .empty := by
  refine ⟨fun r hr => ?_, fun s hs => ?_, fun s hs => ?_⟩
  · cases hr
  · cases hs
  · cases hs

/-- A patch with a price that is not negative leaves one. -/
theorem assign_price {room row : Room} {dto : UpdateRoomDto} (h : Rooms.assign room dto = .ok row)
    (hroom : 0 ≤ room.pricePerHour) : 0 ≤ row.pricePerHour := by
  obtain ⟨_, -, h⟩ := bind_ok.mp h
  obtain ⟨name, -, h⟩ := bind_ok.mp h
  obtain ⟨price, hprice, h⟩ := bind_ok.mp h
  obtain ⟨isActive, -, h⟩ := bind_ok.mp h
  cases h
  have hvalue := notNullColumn_ok.mp hprice
  rcases hp : dto.pricePerHour with _ | p
  · rw [hp] at hvalue
    cases hvalue
    exact hroom
  · rw [hp] at hvalue
    exact dto.priceMin price (by rw [hp]; exact congrArg some hvalue)

/-- A room is saved at a price that is not negative. -/
theorem Priced.room {db : Db} (h : Priced db) {row : Room} (hrow : 0 ≤ row.pricePerHour) :
    Priced { db with rooms := db.rooms.set row } := by
  refine ⟨fun r hr => ?_, h.rates, h.billed⟩
  rcases Table.mem_of_mem_set hr with rfl | hr
  · exact hrow
  · exact h.rooms r hr

theorem Priced.effect {db db' : Db} {op : Op} (he : Effect db op db') (h : Priced db) :
    Priced db' := by
  have hrates : ∀ s ∈ db'.sessions.rows, 0 ≤ s.ratePerHour := by
    intro s hs
    rcases effect_sessions he s hs with ⟨t, ht, hsame⟩ | hstarts
    · rw [← hsame.ratePerHour]
      exact h.rates t ht
    · obtain ⟨room, hroom, hrate⟩ := hstarts.priced
      rw [hrate]
      exact h.rooms room (Table.mem_of_get? (Db.findRoom_eq_some.mp hroom).1).1
  refine ⟨fun r hr => ?_, hrates, allBilled_effect he h.billed⟩
  rcases he.changes with hchanges | hadmin
  · have hsame : db'.rooms = db.rooms :=
      changes_preserve (fun d => d.rooms = db.rooms) (fun hc hd => hc.rooms.trans hd) hchanges rfl
    rw [hsame] at hr
    exact h.rooms r hr
  · cases hadmin with
    | created hid => exact h.rooms r hr
    | updated hrow => exact h.rooms r hr
    | removed hstored => exact h.rooms r hr
    | roomUpdated hroom hrow =>
      have hold := h.rooms _ (Table.mem_of_get? (Db.findRoom_eq_some.mp hroom).1).1
      exact (h.room (assign_price hrow hold)).rooms r hr

theorem Priced.performs {db db' : Db} {c : Call} (hc : Performs db c db') (h : Priced db) :
    Priced db' := by
  cases hc with
  | op he => exact h.effect he
  | rejected => exact h
  | @roomCreated dto newId hid =>
    refine ⟨fun r hr => ?_, h.rates, h.billed⟩
    rcases (Table.mem_insert hid).mp hr with hr | rfl
    · exact h.rooms r hr
    · exact dto.priceMin
  | roomRemoved hroom =>
    have hold := h.rooms _ (Table.mem_of_get? (Db.findRoom_eq_some.mp hroom).1).1
    exact h.room hold
  | customers => exact ⟨h.rooms, h.rates, h.billed⟩

/-- **Prices are not negative in every database reached.** -/
theorem reached_priced (calls : List Call) : Priced (World.reached calls).db :=
  reached_invariant (P := fun _ _ => True) (fun hc h _ => h.performs hc) priced_empty
    fun _ _ _ _ => trivial

end GameClub.Services
