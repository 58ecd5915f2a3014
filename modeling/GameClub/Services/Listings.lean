import GameClub.Common.Pagination
import GameClub.Store.Entities

/-! # The paginated listings

Sessions are listed latest first, computers by label, customers by name and the entries of a ledger
latest first. None of these columns is a key: the sessions of a group start at one instant, and two
customers may have one name.

* `listings_yield_once_iff`: a walk over the pages has every row once exactly when no page ends
  inside a group of rows with one sort key.
* `listings_repeat_a_row`: two customers with one name, a page each. -/

namespace GameClub.Services

open GameClub.Lib GameClub.Lib.Pages GameClub.Common GameClub.Store

/-- What the listings take from Postgres: the order of its texts, and `ILIKE`. The creation time of
an entry is a column no other query reads. -/
structure Sql where
  collation : KeyOrder String
  ilike : String → String → Bool
  createdAt : DebtTransaction → Instant

/-- `DESC` on a timestamp. -/
def latestFirst : KeyOrder Instant where
  le a b := decide (b.ms ≤ a.ms)
  total a b := by simpa using Int.le_total b.ms a.ms
  trans a b c := by simpa using fun hab hbc => Int.le_trans hbc hab

theorem nodup_filter {κ α : Type} {key : α → κ} (t : Table key) (p : α → Bool) :
    (t.rows.filter p).Nodup :=
  t.nodup.of_map.filter p

/-! ### Sessions -/

structure SessionFilters where
  status : Option SessionStatus
  customerId : Option Uuid

namespace SessionsService

def matching (db : Db) (filters : SessionFilters) : List Session :=
  db.sessions.rows.filter fun s =>
    filters.status.all (s.status = ·) && filters.customerId.all (s.customerId = some ·)

/-- `order: { startedAt: 'DESC' }` -/
abbrev order : Session → Session → Prop := OrderBy latestFirst Session.startedAt

/-- `findAll`, given the answer of its query. -/
def findAll (db : Db) (query : PaginationQueryDto) (filters : SessionFilters)
    (answer : Answer order (matching db filters)) : PaginatedResult Session :=
  findPage query answer

end SessionsService

/-! ### Computers -/

structure ComputerFilters where
  roomId : Option Uuid
  status : Option ComputerStatus

namespace ComputersService

def matching (db : Db) (filters : ComputerFilters) : List Computer :=
  db.computers.rows.filter fun c =>
    c.deletedAt.isNone && filters.roomId.all (c.roomId = ·) && filters.status.all (c.status = ·)

/-- `order: { label: 'ASC' }` -/
abbrev order (sql : Sql) : Computer → Computer → Prop := OrderBy sql.collation Computer.label

def findAll (sql : Sql) (db : Db) (query : PaginationQueryDto) (filters : ComputerFilters)
    (answer : Answer (order sql) (matching db filters)) : PaginatedResult Computer :=
  findPage query answer

end ComputersService

/-! ### Customers -/

namespace CustomersService

/-- `input.replace(/[\\%_]/g, (m) => '\' + m)` -/
def escapeLike (input : String) : String :=
  String.ofList (input.toList.flatMap fun c =>
    if "\\%_".toList.contains c then "\\".toList ++ [c] else [c])

/-- The pattern of a search; an empty text is no search. -/
def pattern (search : Option String) : Option String :=
  let term := (search.filter (· ≠ "")).map escapeLike
  (term.filter (· ≠ "")).map fun t => "%" ++ t ++ "%"

def matching (sql : Sql) (db : Db) (search : Option String) : List Customer :=
  db.customers.rows.filter fun c =>
    c.deletedAt.isNone && (pattern search).all fun p =>
      sql.ilike c.fullName p || c.phone.any (sql.ilike · p)

/-- `order: { fullName: 'ASC' }` -/
abbrev order (sql : Sql) : Customer → Customer → Prop := OrderBy sql.collation Customer.fullName

def findAll (sql : Sql) (db : Db) (query : PaginationQueryDto) (search : Option String)
    (answer : Answer (order sql) (matching sql db search)) : PaginatedResult Customer :=
  findPage query answer

end CustomersService

/-! ### The ledger -/

namespace DebtService

/-- `order: { createdAt: 'DESC' }` -/
abbrev order (sql : Sql) : DebtTransaction → DebtTransaction → Prop :=
  OrderBy latestFirst sql.createdAt

def getLedger (sql : Sql) (db : Db) (customerId : Uuid) (query : PaginationQueryDto)
    (answer : Answer (order sql) (db.ledger customerId)) : PaginatedResult DebtTransaction :=
  findPage query answer

end DebtService

/-! ### Walks -/

/-- Each listing, under every filter, has every matching row once over its pages. -/
def EveryListing (sql : Sql) (db : Db) (limit : PageSize) : Prop :=
  (∀ filters, YieldsOnce (fun query => SessionsService.findAll db query filters) limit) ∧
  (∀ filters, YieldsOnce (fun query => ComputersService.findAll sql db query filters) limit) ∧
  (∀ search, YieldsOnce (fun query => CustomersService.findAll sql db query search) limit) ∧
  (∀ customerId, YieldsOnce (DebtService.getLedger sql db customerId) limit)

/-- **No loss and no repetition, exactly when ties stay on one page.** -/
theorem listings_yield_once_iff (sql : Sql) (db : Db) (limit : PageSize) :
    (∀ filters, YieldsOnce (fun query => SessionsService.findAll db query filters) limit ↔
      ∀ s ∈ SessionsService.matching db filters,
        OnOnePage SessionsService.order (SessionsService.matching db filters) limit.1 s) ∧
    (∀ filters, YieldsOnce (fun query => ComputersService.findAll sql db query filters) limit ↔
      ∀ c ∈ ComputersService.matching db filters,
        OnOnePage (ComputersService.order sql) (ComputersService.matching db filters) limit.1 c) ∧
    (∀ search, YieldsOnce (fun query => CustomersService.findAll sql db query search) limit ↔
      ∀ c ∈ CustomersService.matching sql db search,
        OnOnePage (CustomersService.order sql) (CustomersService.matching sql db search)
          limit.1 c) ∧
    (∀ customerId, YieldsOnce (DebtService.getLedger sql db customerId) limit ↔
      ∀ t ∈ db.ledger customerId,
        OnOnePage (DebtService.order sql) (db.ledger customerId) limit.1 t) := by
  refine ⟨fun filters => ?_, fun filters => ?_, fun search => ?_, fun customerId => ?_⟩
  · exact yieldsOnce_iff (nodup_filter _ _) limit
  · exact yieldsOnce_iff (nodup_filter _ _) limit
  · exact yieldsOnce_iff (nodup_filter _ _) limit
  · exact yieldsOnce_iff (nodup_filter _ _) limit

/-! ### Namesakes -/

/-- Texts by code point. -/
def codePointOrder : KeyOrder String where
  le a b := decide (a ≤ b)
  total a b := by simpa using String.le_total a b
  trans a b c := by simpa using fun hab hbc => String.le_trans hab hbc

def codePointSql : Sql where
  collation := codePointOrder
  ilike _ _ := false
  createdAt _ := .epoch

def namesake (id : Uuid) : Customer where
  id := id
  fullName := "Aziz Karimov"
  phone := none
  note := none
  isBlocked := false
  deletedAt := none

def twoNamesakes : Db :=
  { Db.empty with customers := (Table.single (namesake 1)).insert (namesake 2) }

theorem matching_twoNamesakes :
    CustomersService.matching codePointSql twoNamesakes none = [namesake 1, namesake 2] := by
  decide +kernel

theorem order_namesake (id id' : Uuid) :
    CustomersService.order codePointSql (namesake id) (namesake id') := by
  simp [OrderBy, codePointSql, codePointOrder, namesake]

/-- The first query returns the two in one order, every later one in the other. -/
def eitherOrder (k : ℕ) : Answer (CustomersService.order codePointSql)
    (CustomersService.matching codePointSql twoNamesakes none) where
  list := if k = 0 then [namesake 1, namesake 2] else [namesake 2, namesake 1]
  perm := by
    rw [matching_twoNamesakes]
    split_ifs
    · exact .rfl
    · exact .swap _ _ _
  pairwise := by
    split_ifs <;> simp [order_namesake]

/-- One customer is on both pages, the other on none. -/
theorem listings_repeat_a_row :
    walked (fun query => CustomersService.findAll codePointSql twoNamesakes query none)
        ⟨1, by omega⟩ 2 eitherOrder = [namesake 1, namesake 1] ∧
      ¬∀ (sql : Sql) (db : Db) (limit : PageSize), EveryListing sql db limit := by
  have hwalk : walked (fun query => CustomersService.findAll codePointSql twoNamesakes query none)
      ⟨1, by omega⟩ 2 eitherOrder = [namesake 1, namesake 1] := rfl
  refine ⟨hwalk, fun h => ?_⟩
  obtain ⟨-, -, hcustomers, -⟩ := h codePointSql twoNamesakes ⟨1, by omega⟩
  have hpages : (CustomersService.findAll codePointSql twoNamesakes (pageQuery ⟨1, by omega⟩ 0)
      none (eitherOrder 0)).pageMeta.totalPages = 2 := by
    simp [CustomersService.findAll, findPage, paginate, totalPages, pageQuery,
      matching_twoNamesakes]
  have honce := (hcustomers none eitherOrder 0).1
  rw [hpages, hwalk, matching_twoNamesakes] at honce
  exact absurd honce (by decide)

end GameClub.Services
