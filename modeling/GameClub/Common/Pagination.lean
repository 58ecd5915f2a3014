import GameClub.Lib.Binary64
import GameClub.Lib.Pages

/-! # Pagination

A listing answers one page of the rows it matches, with the number of rows and of pages. The rows
come from one query with an `ORDER BY`, an offset and a limit.

* `totalPages_le_iff`: `totalPages` is the least number of pages that can hold all rows.
* `ceil_rnd_div`: the division of doubles gives the same number.
* `yieldsOnce_iff`: when a walk over the pages has every row once. -/

namespace GameClub.Common

open GameClub.Lib GameClub.Lib.Binary64 GameClub.Lib.Pages

/-- A valid query of a listing. -/
structure PaginationQueryDto where
  page : ℕ
  limit : ℕ
  pageMin : 1 ≤ page
  limitMin : 1 ≤ limit
  limitMax : limit ≤ 100

def PaginationQueryDto.skip (query : PaginationQueryDto) : ℕ := (query.page - 1) * query.limit

structure PaginatedResultMeta where
  page : ℕ
  limit : ℕ
  total : ℕ
  totalPages : ℕ

structure PaginatedResult (α : Type) where
  items : List α
  pageMeta : PaginatedResultMeta

/-- `Math.ceil(total / limit) || 0`; a valid limit is not zero, so the quotient is a number. -/
def totalPages (total limit : ℕ) : ℕ := ⌈(total : ℚ) / limit⌉₊

def paginate {α : Type} (items : List α) (total : ℕ) (query : PaginationQueryDto) :
    PaginatedResult α where
  items
  pageMeta := {
    page := query.page
    limit := query.limit
    total
    totalPages := totalPages total query.limit }

theorem totalPages_le_iff {total limit count : ℕ} (hlimit : 1 ≤ limit) :
    totalPages total limit ≤ count ↔ total ≤ count * limit := by
  have hpos : (0 : ℚ) < limit := by exact_mod_cast hlimit
  rw [totalPages, Nat.ceil_le, div_le_iff₀ hpos]
  exact_mod_cast Iff.rfl

/-- The spacing of the doubles at `x`, against `x`. -/
theorem ulp_le_mul {x : ℚ} (hx : 0 < x) : ulp x ≤ x / 2 ^ 52 := by
  have hlog : (2 : ℚ) ^ Int.log 2 |x| ≤ x := by
    have h := Int.zpow_log_le_self (b := 2) one_lt_two (abs_pos.mpr hx.ne')
    rw [abs_of_pos hx] at h ⊢
    exact_mod_cast h
  rw [ulp, zpow_sub₀ two_ne_zero]
  exact div_le_div_of_nonneg_right hlog (by positivity)

/-- **The doubles agree**: rounding the quotient does not carry it past an integer. -/
theorem ceil_rnd_div {total limit : ℕ} (hlimit : 1 ≤ limit) (htotal : total < 2 ^ 53) :
    ⌈rnd ((total : ℚ) / limit)⌉ = totalPages total limit := by
  have hpos : (1 : ℚ) ≤ limit := by exact_mod_cast hlimit
  have hsmall : (total : ℚ) < 2 ^ 53 := by exact_mod_cast htotal
  set q : ℚ := (total : ℚ) / limit with hq
  have hq0 : 0 ≤ q := div_nonneg (by positivity) (by linarith)
  have hmul : q * limit = total := by rw [hq]; field_simp
  have hcast : ((totalPages total limit : ℕ) : ℤ) = ⌈q⌉ := Int.natCast_ceil_eq_ceil hq0
  rw [hcast, Int.ceil_eq_iff]
  constructor
  · -- `q` is a multiple of `1 / limit`, so it is that far above the integer below its ceiling
    have hgap : (⌈q⌉ - 1 : ℚ) * limit + 1 ≤ total := by
      have hlt : (⌈q⌉ - 1 : ℚ) * limit < total := by
        rw [← hmul]
        exact mul_lt_mul_of_pos_right (by linarith [Int.ceil_lt_add_one q]) (by linarith)
      have hint : (⌈q⌉ - 1) * (limit : ℤ) < total := by exact_mod_cast hlt
      exact_mod_cast hint
    rcases hq0.eq_or_lt with h0 | hpos'
    · rw [← h0]
      simp [rnd_zero]
    · have herr := abs_le.mp (abs_rnd_sub_le q)
      have hulp := ulp_le_mul hpos'
      nlinarith
  · have hle : ⌈q⌉ ≤ (total : ℤ) := by
      refine Int.ceil_le.mpr ?_
      calc q ≤ q * limit := le_mul_of_one_le_right hq0 hpos
        _ = (total : ℤ) := by rw [hmul, Int.cast_natCast]
    have hceil0 : 0 ≤ ⌈q⌉ := Int.ceil_nonneg hq0
    have hrnd : rnd (⌈q⌉ : ℚ) = ⌈q⌉ := rnd_intCast (by rw [abs_of_nonneg hceil0]; omega)
    rw [← hrnd]
    exact rnd_mono (Int.le_ceil q)

/-! ### Walks -/

/-- The order of a column's values. -/
structure KeyOrder (β : Type) where
  le : β → β → Bool
  total : ∀ a b, le a b ∨ le b a
  trans : ∀ a b c, le a b → le b c → le a c

variable {α β : Type}

/-- `ORDER BY key`: `x` may come before `y`. -/
def OrderBy (order : KeyOrder β) (key : α → β) (x y : α) : Prop := order.le (key x) (key y) = true

instance (order : KeyOrder β) (key : α → β) : DecidableRel (OrderBy order key) :=
  fun _ _ => inferInstanceAs (Decidable (_ = true))

instance (order : KeyOrder β) (key : α → β) : Std.Total (OrderBy order key) :=
  ⟨fun x y => order.total (key x) (key y)⟩

instance (order : KeyOrder β) (key : α → β) : IsTrans α (OrderBy order key) :=
  ⟨fun x y z => order.trans (key x) (key y) (key z)⟩

/-- A page size a query may have. -/
abbrev PageSize := { limit : ℕ // 1 ≤ limit ∧ limit ≤ 100 }

/-- The query of page `k + 1`. -/
def pageQuery (limit : PageSize) (k : ℕ) : PaginationQueryDto where
  page := k + 1
  limit := limit.1
  pageMin := by omega
  limitMin := limit.2.1
  limitMax := limit.2.2

theorem skip_pageQuery (limit : PageSize) (k : ℕ) : (pageQuery limit k).skip = k * limit.1 := by
  simp [PaginationQueryDto.skip, pageQuery]

variable {r : α → α → Prop} {rows : List α}

/-- `findAndCount` with an `order`, `skip` and `take`, handed to `paginate`. -/
def findPage (query : PaginationQueryDto) (answer : Answer r rows) : PaginatedResult α :=
  paginate (window query.skip query.limit answer.list) rows.length query

/-- The items of the pages `1` to `count`, each read by a query of its own. -/
def walked (find : PaginationQueryDto → Answer r rows → PaginatedResult α) (limit : PageSize)
    (count : ℕ) (answers : ℕ → Answer r rows) : List α :=
  (List.range count).flatMap fun k => (find (pageQuery limit k) (answers k)).items

/-- Whatever order the queries return the ties in, the pages `1` to `totalPages`, as any page gives
that number, have every row once, and fewer pages do not. -/
def YieldsOnce (find : PaginationQueryDto → Answer r rows → PaginatedResult α)
    (limit : PageSize) : Prop :=
  ∀ (answers : ℕ → Answer r rows) (k : ℕ),
    let count := (find (pageQuery limit k) (answers k)).pageMeta.totalPages
    (walked find limit count answers).Perm rows ∧
      ∀ fewer, (walked find limit fewer answers).Perm rows → count ≤ fewer

theorem walked_findPage (limit : PageSize) (count : ℕ) (answers : ℕ → Answer r rows) :
    walked findPage limit count answers = walk limit.1 count answers := by
  simp only [walk, ← skip_pageQuery]
  rfl

/-- **A walk has every row once exactly when no page ends inside a group of ties.** -/
theorem yieldsOnce_iff [DecidableEq α] [DecidableRel r] [Std.Total r] [IsTrans α r]
    (hnodup : rows.Nodup) (limit : PageSize) :
    YieldsOnce (findPage : PaginationQueryDto → Answer r rows → PaginatedResult α) limit ↔
      ∀ x ∈ rows, OnOnePage r rows limit.1 x := by
  have hcount : rows.length ≤ totalPages rows.length limit.1 * limit.1 :=
    (totalPages_le_iff limit.2.1).mp le_rfl
  rw [← walk_perm_iff limit.2.1 hnodup hcount]
  constructor
  · intro h answers
    have hwalk := (h answers 0).1
    rwa [walked_findPage] at hwalk
  · intro h answers k
    refine ⟨?_, fun fewer hfewer => ?_⟩
    · rw [walked_findPage]
      exact h answers
    · rw [walked_findPage] at hfewer
      exact (totalPages_le_iff limit.2.1).mpr (length_le_of_walk hfewer)

end GameClub.Common
