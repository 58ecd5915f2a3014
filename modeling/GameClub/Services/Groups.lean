import GameClub.Services.Rates
import GameClub.Sessions.Groups

/-! # Starting a group, as a request

`start` runs its loop in one transaction and announces the sessions it has started afterwards. The
ids of the new rows are generated: they are taken to be new, and different from each other.

* `MayStartAll`: what the request needs, said of the database it finds.
* `GroupStarted`: what it does.
* `start_iff`: it succeeds exactly when it has what it needs, and does nothing when it fails. -/

namespace GameClub.Services

open GameClub.Lib GameClub.Common GameClub.Store GameClub.Sessions

/-- The customer a request names is there and not blocked. -/
def CustomerAllowed (db : Db) (customerId : Option UuidText) : Prop :=
  ∀ id, customerId = some id → ∃ c, db.findCustomer id.value = some c ∧ c.isBlocked = false

/-- **What a request to start needs.** -/
structure MayStartAll (db : Db) (dto : StartSessionDto) (startedAt : Instant) : Prop where
  customer : CustomerAllowed db dto.customerId
  different : (dto.computerIds.map UuidText.value).Nodup
  each : ∀ id ∈ dto.computerIds, ∃ computer room p, MayStart db dto startedAt id computer room p

/-- The group of a request: one for several computers, none for a single one. -/
def groupOf (dto : StartSessionDto) (randomUUID : Uuid) : Option Uuid :=
  if dto.computerIds.length > 1 then some randomUUID else none

/-- The ids of a request with those generated for their sessions. -/
def newRows (dto : StartSessionDto) (newIds : ℕ → Uuid) : List (UuidText × Uuid) :=
  dto.computerIds.mapIdx fun i id => (id, newIds i)

/-- **What a request to start does** to the world `w`: a session for each computer, in order, their
computers `IN_USE`, an event for each, and nothing else. -/
structure GroupStarted (w w' : World) (dto : StartSessionDto) (ctx : ActorContext)
    (startedAt : Instant) (randomUUID : Uuid) (newIds : ℕ → Uuid) (results : List Session) :
    Prop where
  rows : w'.db.sessions.rows = w.db.sessions.rows ++ results
  each : ∃ customer, customer.map Customer.id = dto.customerId.map UuidText.value ∧
    List.Forall₂ (StartedOn w.db dto ctx startedAt (groupOf dto randomUUID) customer)
      (newRows dto newIds) results
  shared : ∀ s ∈ results, s.status = .active ∧ s.startedAt = startedAt ∧
    s.groupId = groupOf dto randomUUID
  order : results.map Session.computerId = dto.computerIds.map UuidText.value
  taken : w'.db.computers.rows = w.db.computers.rows.map fun c =>
    if c.id ∈ dto.computerIds.map UuidText.value then { c with status := .inUse } else c
  others : w'.db.rooms = w.db.rooms ∧ w'.db.customers = w.db.customers ∧
    w'.db.debtTransactions = w.db.debtTransactions
  announced : w'.events =
    (results.map fun s => .sessionStarted (toEvent s)).reverse ++ w.events

/-! ### The ids -/

section

variable {dto : StartSessionDto} {newIds : ℕ → Uuid}

theorem newRows_values : (newRows dto newIds).map (fun x => x.1.value) =
    dto.computerIds.map UuidText.value := by
  refine List.ext_getElem (by simp [newRows]) fun i h1 h2 => ?_
  simp [newRows]

theorem newRows_nodup (hnew : ∀ i j, i < dto.computerIds.length → j < dto.computerIds.length →
    newIds i = newIds j → i = j) : ((newRows dto newIds).map Prod.snd).Nodup := by
  have hids : (newRows dto newIds).map Prod.snd =
      (List.range dto.computerIds.length).map newIds := by
    refine List.ext_getElem (by simp [newRows]) fun i h1 h2 => ?_
    simp [newRows]
  rw [hids]
  refine List.nodup_range.map_on fun i hi j hj heq => ?_
  exact hnew i j (List.mem_range.mp hi) (List.mem_range.mp hj) heq

theorem newRows_fresh {db : Db}
    (hfresh : ∀ i, i < dto.computerIds.length → db.sessions.get? (newIds i) = none) :
    ∀ x ∈ newRows dto newIds, db.sessions.get? x.2 = none := by
  intro x hx
  obtain ⟨i, hi, rfl⟩ := List.mem_mapIdx.mp hx
  exact hfresh i hi

/-- An id of the request is one of its rows. -/
theorem mem_newRows {x : UuidText × Uuid} (hx : x ∈ newRows dto newIds) :
    x.1 ∈ dto.computerIds := by
  obtain ⟨i, hi, rfl⟩ := List.mem_mapIdx.mp hx
  exact List.getElem_mem hi

end

/-- Related elements for each of a list. -/
theorem exists_forall₂ {α β : Type} {R : α → β → Prop} {l : List α} (h : ∀ x ∈ l, ∃ y, R x y) :
    ∃ m, List.Forall₂ R l m := by
  induction l with
  | nil => exact ⟨[], .nil⟩
  | cons x xs ih =>
    obtain ⟨y, hy⟩ := h x (List.mem_cons_self ..)
    obtain ⟨m, hm⟩ := ih fun z hz => h z (List.mem_cons_of_mem _ hz)
    exact ⟨y :: m, .cons hy hm⟩

/-! ### The transaction -/

section

variable {dto : StartSessionDto} {ctx : ActorContext} {startedAt : Instant} {randomUUID : Uuid}
  {newIds : ℕ → Uuid} {db db' : Db} {results : List Session}

theorem resolveCustomer_allowed (h : CustomerAllowed db dto.customerId) :
    ∃ customer, store.eval (resolveCustomer dto.customerId) db = .ok (customer, db) := by
  rcases hc : dto.customerId with _ | id
  · exact ⟨none, resolveCustomer_ok.mpr ⟨rfl, Or.inl ⟨rfl, rfl⟩⟩⟩
  · obtain ⟨c, hfound, hblocked⟩ := h id hc
    exact ⟨some c, resolveCustomer_ok.mpr ⟨rfl, Or.inr ⟨id, c, rfl, rfl, hfound, hblocked⟩⟩⟩

/-- The customer that was resolved, as the request names it. -/
theorem resolved {customerId : Option UuidText} {customer : Option Customer}
    (h : store.eval (resolveCustomer customerId) db = .ok (customer, db')) :
    CustomerAllowed db customerId ∧
      customer.map Customer.id = customerId.map UuidText.value ∧
      ∀ c, customer = some c → db.customers.get? c.id ≠ none := by
  obtain ⟨-, ⟨rfl, rfl⟩ | ⟨id, c, rfl, rfl, hfound, hblocked⟩⟩ := resolveCustomer_ok.mp h
  · exact ⟨fun _ h => (nomatch h), rfl, fun _ h => (nomatch h)⟩
  · have hget := (Db.findCustomer_eq_some.mp hfound).1
    have hid : c.id = id.value := Table.key_of_get? hget
    refine ⟨fun id' h => ?_, congrArg some hid, fun c' h => ?_⟩
    · cases h
      exact ⟨c, hfound, hblocked⟩
    · cases h
      rw [hid, hget]
      simp

/-- **The transaction of a start** succeeds exactly when its customer resolves, its ids name
different computers, and each of these may be started. -/
theorem start_eval_ok
    (hfresh : ∀ i, i < dto.computerIds.length → db.sessions.get? (newIds i) = none)
    (hnew : ∀ i j, i < dto.computerIds.length → j < dto.computerIds.length →
      newIds i = newIds j → i = j) :
    store.eval (Sessions.start dto ctx startedAt randomUUID newIds) db = .ok (results, db') ↔
      ∃ customer, store.eval (resolveCustomer dto.customerId) db = .ok (customer, db) ∧
        (dto.computerIds.map UuidText.value).Nodup ∧
        List.Forall₂ (StartedOn db dto ctx startedAt (groupOf dto randomUUID) customer)
          (newRows dto newIds) results ∧ db' = openedAll db results := by
  have hloop : ∀ {customer : Option Customer},
      store.eval (resolveCustomer dto.customerId) db = .ok (customer, db) →
      (store.eval (startAll dto ctx startedAt (groupOf dto randomUUID) customer
        (newRows dto newIds)) db = .ok (results, db') ↔
          (dto.computerIds.map UuidText.value).Nodup ∧
          List.Forall₂ (StartedOn db dto ctx startedAt (groupOf dto randomUUID) customer)
            (newRows dto newIds) results ∧ db' = openedAll db results) := by
    intro customer hres
    rw [startAll_ok (newRows_fresh hfresh) (newRows_nodup hnew) (resolved hres).2.2, newRows_values]
  unfold Sessions.start
  dsimp only
  rw [Sem.eval_bind_ok]
  constructor
  · rintro ⟨customer, db₁, hres, hall⟩
    obtain ⟨rfl, -⟩ := resolveCustomer_ok.mp hres
    exact ⟨customer, hres, (hloop hres).mp hall⟩
  · rintro ⟨customer, hres, hrest⟩
    exact ⟨customer, db, hres, (hloop hres).mpr hrest⟩

/-- What each session of the group has. -/
theorem forall₂_startedOn {customer : Option Customer} {groupId : Option Uuid}
    {ids : List (UuidText × Uuid)}
    (h : List.Forall₂ (StartedOn db dto ctx startedAt groupId customer) ids results) :
    (∀ s ∈ results, s.status = .active ∧ s.startedAt = startedAt ∧ s.groupId = groupId) ∧
      results.map Session.computerId = ids.map (fun x => x.1.value) ∧
      results.map Session.id = ids.map Prod.snd := by
  induction h with
  | nil => simp
  | cons hx _ ih =>
    obtain ⟨hshared, horder, hid⟩ := ih
    refine ⟨List.forall_mem_cons.mpr ⟨?_, hshared⟩, ?_, ?_⟩
    · obtain ⟨computer, room, p, -, rfl⟩ := hx
      exact ⟨rfl, rfl, rfl⟩
    · rw [List.map_cons, List.map_cons, horder, hx.computerId]
    · rw [List.map_cons, List.map_cons, hid, hx.id]

/-- Each id of a started group may be started. -/
theorem mayStart_of_forall₂ {customer : Option Customer} {groupId : Option Uuid}
    {ids : List (UuidText × Uuid)} {x : UuidText × Uuid}
    (h : List.Forall₂ (StartedOn db dto ctx startedAt groupId customer) ids results)
    (hx : x ∈ ids) : ∃ computer room p, MayStart db dto startedAt x.1 computer room p := by
  induction h with
  | nil => cases hx
  | cons hy _ ih =>
    rcases List.mem_cons.mp hx with rfl | hx
    · obtain ⟨computer, room, p, hmay, -⟩ := hy
      exact ⟨computer, room, p, hmay⟩
    · exact ih hx

end

/-- **The transaction succeeds exactly when the group may start.** -/
theorem start_eval_iff {db : Db} {dto : StartSessionDto} {ctx : ActorContext} {startedAt : Instant}
    {randomUUID : Uuid} {newIds : ℕ → Uuid}
    (hfresh : ∀ i, i < dto.computerIds.length → db.sessions.get? (newIds i) = none)
    (hnew : ∀ i j, i < dto.computerIds.length → j < dto.computerIds.length →
      newIds i = newIds j → i = j) :
    (∃ results db', store.eval (Sessions.start dto ctx startedAt randomUUID newIds) db =
      .ok (results, db')) ↔ MayStartAll db dto startedAt := by
  constructor
  · rintro ⟨results, db', heval⟩
    obtain ⟨customer, hres, hdiff, hall, -⟩ := (start_eval_ok hfresh hnew).mp heval
    refine ⟨(resolved hres).1, hdiff, fun id hid => ?_⟩
    obtain ⟨i, hi, rfl⟩ := List.mem_iff_getElem.mp hid
    have hx : (dto.computerIds[i], newIds i) ∈ newRows dto newIds :=
      List.mem_mapIdx.mpr ⟨i, hi, rfl⟩
    exact mayStart_of_forall₂ hall hx
  · intro hmay
    obtain ⟨customer, hres⟩ := resolveCustomer_allowed hmay.customer
    have heach : ∀ x ∈ newRows dto newIds, ∃ s,
        StartedOn db dto ctx startedAt (groupOf dto randomUUID) customer x s := by
      intro x hx
      obtain ⟨computer, room, p, h⟩ := hmay.each x.1 (mem_newRows hx)
      exact ⟨_, computer, room, p, h, rfl⟩
    obtain ⟨results, hall⟩ := exists_forall₂ heach
    exact ⟨results, _, (start_eval_ok hfresh hnew).mpr ⟨customer, hres, hmay.different, hall, rfl⟩⟩

/-- **A group that is started** is started on every computer, and announced. -/
theorem groupStarted_of_ok {w : World} {dto : StartSessionDto} {ctx : ActorContext}
    {startedAt : Instant} {randomUUID : Uuid} {newIds : ℕ → Uuid} {results : List Session} {db' : Db}
    (hfresh : ∀ i, i < dto.computerIds.length → w.db.sessions.get? (newIds i) = none)
    (hnew : ∀ i j, i < dto.computerIds.length → j < dto.computerIds.length →
      newIds i = newIds j → i = j)
    (heval : store.eval (Sessions.start dto ctx startedAt randomUUID newIds) w.db =
      .ok (results, db')) :
    GroupStarted w ⟨db', (results.map fun s => .sessionStarted (toEvent s)).reverse ++ w.events⟩
      dto ctx startedAt randomUUID newIds results := by
  obtain ⟨customer, hres, -, hall, rfl⟩ := (start_eval_ok hfresh hnew).mp heval
  obtain ⟨hshared, horder, hids⟩ := forall₂_startedOn hall
  rw [newRows_values] at horder
  have hfree : ∀ s ∈ results, w.db.sessions.get? s.id = none := by
    intro s hs
    have hmem : s.id ∈ (newRows dto newIds).map Prod.snd := hids ▸ List.mem_map_of_mem hs
    obtain ⟨x, hx, heq⟩ := List.mem_map.mp hmem
    rw [← heq]
    exact newRows_fresh hfresh x hx
  have hnodup : (results.map Session.id).Nodup := hids ▸ newRows_nodup hnew
  refine ⟨rows_openedAll hfree hnodup, ⟨customer, (resolved hres).2.1, hall⟩, hshared, horder,
    ?_, openedAll_others w.db results, rfl⟩
  rw [← horder]
  exact computers_openedAll w.db results

/-- **A group starts exactly when it may**: the customer, when given, is there and not blocked, the
ids name different computers, and each of these may be started at the price of its room. It is
started completely, or nothing is changed and nothing announced. -/
theorem start_iff (w : World) (dto : StartSessionDto) (ctx : ActorContext) (startedAt : Instant)
    (randomUUID : Uuid) (newIds : ℕ → Uuid)
    (hfresh : ∀ i, i < dto.computerIds.length → w.db.sessions.get? (newIds i) = none)
    (hnew : ∀ i j, i < dto.computerIds.length → j < dto.computerIds.length →
      newIds i = newIds j → i = j) :
    ((∃ results w', (start dto ctx startedAt randomUUID newIds).call w = (.ok results, w')) ↔
      MayStartAll w.db dto startedAt) ∧
    (∀ results w', (start dto ctx startedAt randomUUID newIds).call w = (.ok results, w') →
      GroupStarted w w' dto ctx startedAt randomUUID newIds results) ∧
    ∀ e w', (start dto ctx startedAt randomUUID newIds).call w = (.error e, w') → w' = w := by
  rw [← start_eval_iff hfresh hnew]
  rcases heval : store.eval (Sessions.start dto ctx startedAt randomUUID newIds) w.db
    with e | ⟨results, db'⟩
  · have hcall := call_start_error heval
    refine ⟨⟨?_, ?_⟩, ?_, ?_⟩
    · rintro ⟨results, w', h⟩
      rw [hcall] at h
      cases h
    · rintro ⟨results, db', h⟩
      cases h
    · intro results w' h
      rw [hcall] at h
      cases h
    · intro e' w' h
      rw [hcall] at h
      cases h
      rfl
  · have hcall := call_start_ok heval
    refine ⟨⟨fun _ => ⟨_, _, rfl⟩, fun _ => ⟨_, _, hcall⟩⟩, ?_, ?_⟩
    · intro results' w' h
      rw [hcall] at h
      cases h
      exact groupStarted_of_ok hfresh hnew heval
    · intro e w' h
      rw [hcall] at h
      cases h

/-! ### Two computers -/

/-- The room with a second computer. -/
def twoPcs : World :=
  { newRoom with db := { newRoom.db with
      computers := newRoom.db.computers.insert ⟨5, "PC-02", 2, .available, none, true, none⟩ } }

/-- The body that starts open sessions on both. -/
def openOnBoth : StartSessionDto :=
  { openOnFirst with
    computerIds := [⟨1, 0⟩, ⟨5, 1⟩]
    arrayMinSize := by simp
    arrayUnique := by decide +kernel }

theorem start_iff_twoPcs : ∃ results w',
    (start openOnBoth ⟨9⟩ .epoch 4 id).call twoPcs = (.ok results, w') ∧
      GroupStarted twoPcs w' openOnBoth ⟨9⟩ .epoch 4 id results := by
  have h := start_iff twoPcs openOnBoth ⟨9⟩ .epoch 4 id (fun _ _ => rfl) fun _ _ _ _ heq => heq
  have hfree : ∀ k, ¬ Busy twoPcs.db k := by
    rintro k ⟨s, hs, -⟩
    cases hs
  have hmay : ∀ i ∈ openOnBoth.computerIds, ∃ computer room p,
      MayStart twoPcs.db openOnBoth .epoch i computer room p := by
    intro i hi
    rcases List.mem_cons.mp hi with rfl | hi
    · exact ⟨_, _, _, rfl, rfl, rfl, hfree _, rfl, rfl, rfl, by decide⟩
    · obtain rfl := List.mem_singleton.mp hi
      exact ⟨_, _, _, rfl, rfl, rfl, hfree _, rfl, rfl, rfl, by decide⟩
  obtain ⟨results, w', hok⟩ := h.1.mpr ⟨fun _ hid => (nomatch hid), by decide, hmay⟩
  exact ⟨results, w', hok, h.2.1 results w' hok⟩

end GameClub.Services
