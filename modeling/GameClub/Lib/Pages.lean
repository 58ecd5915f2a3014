import Mathlib.Data.List.Nodup
import Mathlib.Data.List.Sort
import Mathlib.Tactic

/-! # Walking a listing page by page

Rows are ordered by a key that several rows may share: `r x y` says that `x` may come before `y`.
An answer has every row once in an order `r` permits, each query has an answer of its own, and a
walk takes one page of each.

* `le_getElem`, `getElem_lt`: the places a row can have in an answer.
* `walk_perm_iff`: every walk has every row once exactly when no page ends inside a group of rows
  that tie.
* `length_le_of_walk`: fewer pages do not have every row. -/

namespace GameClub.Lib.Pages

variable {α : Type} {r : α → α → Prop} {rows : List α}

/-- An answer to a query with an `ORDER BY`. -/
structure Answer (r : α → α → Prop) (rows : List α) where
  list : List α
  perm : list.Perm rows
  pairwise : list.Pairwise r

/-- `OFFSET skip LIMIT take`. -/
def window (skip take : ℕ) (l : List α) : List α := (l.drop skip).take take

/-- The first `count` pages, each of the answer to its own query. -/
def walk (limit count : ℕ) (answers : ℕ → Answer r rows) : List α :=
  (List.range count).flatMap fun k => window (k * limit) limit (answers k).list

theorem mem_window {skip take : ℕ} {l : List α} {x : α} :
    x ∈ window skip take l ↔ ∃ i, ∃ h : i < l.length, skip ≤ i ∧ i < skip + take ∧ l[i] = x := by
  simp only [window, List.mem_take_iff_getElem, List.length_drop, List.getElem_drop]
  constructor
  · rintro ⟨i, hi, rfl⟩
    exact ⟨skip + i, by omega, by omega, by omega, rfl⟩
  · rintro ⟨i, hi, hlo, hhi, rfl⟩
    refine ⟨i - skip, by omega, ?_⟩
    congr 1
    omega

theorem window_sublist (skip take : ℕ) (l : List α) : (window skip take l).Sublist l :=
  (List.take_sublist _ _).trans (List.drop_sublist _ _)

theorem length_window_le (skip take : ℕ) (l : List α) : (window skip take l).length ≤ take :=
  List.length_take_le _ _

/-- The row at place `i` is on page `i / limit`. -/
theorem mem_window_of_getElem {limit i : ℕ} (hlimit : 0 < limit) {l : List α} (hi : i < l.length) :
    l[i] ∈ window (i / limit * limit) limit l := by
  have hlo := Nat.div_mul_le_self i limit
  have hhi := Nat.lt_div_mul_add (a := i) hlimit
  exact mem_window.mpr ⟨i, hi, hlo, hhi, rfl⟩

/-! ### The places of a row -/

variable (r rows) [DecidableRel r]

/-- The number of rows that come before `x` in every answer. -/
def first (x : α) : ℕ := rows.countP fun y => ¬r x y

/-- The number of rows that come after `x` in no answer that has `x` as late as it can be,
`x` itself among them. -/
def last (x : α) : ℕ := rows.countP fun y => r y x

/-- All places `x` can have are on one page: no page ends inside the group of rows that tie
with `x`. -/
def OnOnePage (limit : ℕ) (x : α) : Prop := first r rows x / limit = (last r rows x - 1) / limit

instance (limit : ℕ) (x : α) : Decidable (OnOnePage r rows limit x) :=
  inferInstanceAs (Decidable (_ = _))

variable {r rows}

theorem le_getElem [Std.Total r] (a : Answer r rows) {i : ℕ} (hi : i < a.list.length) :
    first r rows a.list[i] ≤ i := by
  have hafter : (a.list.drop i).countP (fun y => ¬r a.list[i] y) = 0 := by
    simp only [List.countP_eq_zero, decide_eq_true_eq, not_not]
    intro y hy
    obtain ⟨j, hj, rfl⟩ := List.getElem_of_mem hy
    rw [List.getElem_drop]
    rcases Nat.eq_zero_or_pos j with rfl | hpos
    · exact (Std.Total.total _ _).elim id id
    · exact List.pairwise_iff_getElem.mp a.pairwise i (i + j) hi _ (by omega)
  have hbefore : (a.list.take i).countP (fun y => ¬r a.list[i] y) ≤ i :=
    List.countP_le_length.trans (List.length_take_le _ _)
  have hsplit : (a.list.take i ++ a.list.drop i).countP (fun y => ¬r a.list[i] y) = _ :=
    List.countP_append
  rw [List.take_append_drop, a.perm.countP_eq] at hsplit
  unfold first
  omega

theorem getElem_lt [Std.Total r] (a : Answer r rows) {i : ℕ} (hi : i < a.list.length) :
    i < last r rows a.list[i] := by
  have hbefore : (a.list.take (i + 1)).countP (fun y => r y a.list[i]) = i + 1 := by
    have hall : ∀ y ∈ a.list.take (i + 1), r y a.list[i] := by
      intro y hy
      obtain ⟨j, hj, rfl⟩ := List.mem_take_iff_getElem.mp hy
      rcases Nat.lt_or_ge j i with h | h
      · exact List.pairwise_iff_getElem.mp a.pairwise j i _ hi h
      · obtain rfl : j = i := by omega
        exact (Std.Total.total _ _).elim id id
    rw [List.countP_eq_length.mpr (by simpa using hall), List.length_take]
    omega
  have hsplit : (a.list.take (i + 1) ++ a.list.drop (i + 1)).countP (fun y => r y a.list[i]) = _ :=
    List.countP_append
  rw [List.take_append_drop, a.perm.countP_eq] at hsplit
  unfold last
  omega

/-- A row all of whose places are on one page is on that page of every answer, and on no other. -/
theorem mem_window_iff [Std.Total r] {limit : ℕ} (hlimit : 0 < limit) (a : Answer r rows)
    {x : α} (hx : OnOnePage r rows limit x) (hmem : x ∈ rows) {k : ℕ} :
    x ∈ window (k * limit) limit a.list ↔ k = first r rows x / limit := by
  have hpage : ∀ {i} (hi : i < a.list.length), a.list[i] = x →
      i / limit = first r rows x / limit := by
    rintro i hi rfl
    have hlo := Nat.div_le_div_right (c := limit) (le_getElem a hi)
    have hhi : i / limit ≤ (last r rows a.list[i] - 1) / limit :=
      Nat.div_le_div_right (by have := getElem_lt a hi; omega)
    rw [← hx] at hhi
    omega
  constructor
  · intro h
    obtain ⟨i, hi, hlo, hhi, he⟩ := mem_window.mp h
    rw [← hpage hi he]
    exact (Nat.div_eq_of_lt_le hlo (by rw [Nat.add_mul]; omega)).symm
  · rintro rfl
    obtain ⟨i, hi, rfl⟩ := List.getElem_of_mem (a.perm.mem_iff.mpr hmem)
    rw [← hpage hi rfl]
    exact mem_window_of_getElem hlimit hi

/-- **No page ends inside a group of ties: the walk has every row once.** -/
theorem walk_perm [Std.Total r] {limit count : ℕ} (hlimit : 0 < limit) (hnodup : rows.Nodup)
    (hcount : rows.length ≤ count * limit) (hone : ∀ x ∈ rows, OnOnePage r rows limit x)
    (answers : ℕ → Answer r rows) : (walk limit count answers).Perm rows := by
  have hsub : ∀ k, ∀ x ∈ window (k * limit) limit (answers k).list, x ∈ rows := fun k x hx =>
    (answers k).perm.mem_iff.mp ((window_sublist _ _ _).subset hx)
  have hwalk : (walk limit count answers).Nodup := by
    refine List.nodup_flatMap.mpr ⟨fun k _ => ?_, ?_⟩
    · exact (window_sublist _ _ _).nodup ((answers k).perm.nodup_iff.mpr hnodup)
    · refine List.pairwise_lt_range.imp fun {k k'} hlt => ?_
      intro x hk hk'
      have hx := hsub k x hk
      rw [mem_window_iff hlimit _ (hone x hx) hx] at hk hk'
      omega
  refine (List.perm_ext_iff_of_nodup hwalk hnodup).mpr fun x => ?_
  simp only [walk, List.mem_flatMap, List.mem_range]
  constructor
  · rintro ⟨k, -, hx⟩
    exact hsub k x hx
  · intro hx
    refine ⟨first r rows x / limit, ?_, (mem_window_iff hlimit _ (hone x hx) hx).mpr rfl⟩
    obtain ⟨i, hi, rfl⟩ := List.getElem_of_mem ((answers 0).perm.mem_iff.mpr hx)
    have hlen := (answers 0).perm.length_eq
    have hfirst := le_getElem (answers 0) hi
    exact Nat.div_lt_of_lt_mul (by rw [Nat.mul_comm]; omega)

/-! ### Two answers that disagree on a group of ties -/

variable [DecidableEq α] [Std.Total r] [IsTrans α r]

/-- Any rows that may come before `x` can be put before it, with all that have to. -/
theorem exists_place {x : α} (hx : x ∈ rows) (p : α → Bool) (hbefore : ∀ y, p y → r y x)
    (hafter : ∀ y, ¬p y → r x y) :
    ∃ a : Answer r rows, a.list[(rows.erase x).countP p]? = some x := by
  set before := ((rows.erase x).filter p).insertionSort r
  set after := ((rows.erase x).filter fun y => !p y).insertionSort r
  have hb : ∀ y ∈ before, r y x := fun y hy =>
    hbefore y (List.mem_filter.mp ((List.mem_insertionSort r).mp hy)).2
  have ha : ∀ y ∈ after, r x y := fun y hy =>
    hafter y (by simpa using (List.mem_filter.mp ((List.mem_insertionSort r).mp hy)).2)
  have hperm : (before ++ x :: after).Perm rows := by
    have hsort : (before ++ after).Perm (rows.erase x) :=
      ((List.perm_insertionSort r _).append (List.perm_insertionSort r _)).trans
        (List.filter_append_perm p _)
    exact List.perm_middle.trans ((hsort.cons x).trans (List.perm_cons_erase hx).symm)
  have hpairwise : (before ++ x :: after).Pairwise r := by
    refine List.pairwise_append.mpr ⟨List.pairwise_insertionSort r _, ?_, ?_⟩
    · exact List.pairwise_cons.mpr ⟨ha, List.pairwise_insertionSort r _⟩
    · intro y hy z hz
      rcases List.mem_cons.mp hz with rfl | hz
      · exact hb y hy
      · exact IsTrans.trans _ _ _ (hb y hy) (ha z hz)
  have hlen : before.length = (rows.erase x).countP p := by
    rw [List.length_insertionSort, List.countP_eq_length_filter]
  refine ⟨⟨_, hperm, hpairwise⟩, ?_⟩
  simp [← hlen]

/-- Some answer has `x` before all rows that tie with it. -/
theorem exists_first {x : α} (hx : x ∈ rows) :
    ∃ a : Answer r rows, a.list[first r rows x]? = some x := by
  have hrefl : r x x := (Std.Total.total x x).elim id id
  obtain ⟨a, ha⟩ := exists_place (r := r) hx (fun y => ¬r x y)
    (fun y hy => (Std.Total.total y x).resolve_right (by simpa using hy))
    (fun y hy => by simpa using hy)
  refine ⟨a, ?_⟩
  rwa [first, (List.perm_cons_erase hx).countP_eq, List.countP_cons_of_neg (by simpa using hrefl)]

/-- Some answer has `x` after all rows that tie with it. -/
theorem exists_last {x : α} (hx : x ∈ rows) :
    ∃ a : Answer r rows, a.list[last r rows x - 1]? = some x := by
  have hrefl : r x x := (Std.Total.total x x).elim id id
  obtain ⟨a, ha⟩ := exists_place (r := r) hx (fun y => r y x) (fun y hy => by simpa using hy)
    (fun y hy => (Std.Total.total x y).resolve_right (by simpa using hy))
  refine ⟨a, ?_⟩
  rwa [last, (List.perm_cons_erase hx).countP_eq, List.countP_cons_of_pos (by simpa using hrefl),
    Nat.add_sub_cancel]

/-- A page ends inside a group of ties: its last row is the first row of the next page, where that
query's answer has the group in another order. -/
theorem onOnePage_of_walk {limit count : ℕ} (hlimit : 0 < limit) (hnodup : rows.Nodup)
    (hcount : rows.length ≤ count * limit)
    (hwalk : ∀ answers : ℕ → Answer r rows, (walk limit count answers).Perm rows) {x : α}
    (hx : x ∈ rows) : OnOnePage r rows limit x := by
  obtain ⟨early, hearly⟩ := exists_first (r := r) hx
  obtain ⟨late, hlate⟩ := exists_last (r := r) hx
  obtain ⟨hi, he⟩ := List.getElem?_eq_some_iff.mp hearly
  obtain ⟨hj, hl⟩ := List.getElem?_eq_some_iff.mp hlate
  by_contra hne
  have hle : first r rows x ≤ last r rows x - 1 := by
    have hlo := le_getElem late hj
    rwa [hl] at hlo
  have hlt : first r rows x / limit < (last r rows x - 1) / limit :=
    lt_of_le_of_ne (Nat.div_le_div_right hle) hne
  have hlen := late.perm.length_eq
  have hend : (last r rows x - 1) / limit < count :=
    Nat.div_lt_of_lt_mul (by rw [Nat.mul_comm]; omega)
  set answers : ℕ → Answer r rows := fun k => if k = first r rows x / limit then early else late
  have honce := (List.nodup_flatMap.mp ((hwalk answers).nodup_iff.mpr hnodup)).2
  have hdisjoint := List.pairwise_iff_getElem.mp honce (first r rows x / limit)
    ((last r rows x - 1) / limit) (by simp; omega) (by simpa using hend) hlt
  simp only [List.getElem_range, Function.onFun, answers, if_pos, if_neg hlt.ne'] at hdisjoint
  refine hdisjoint (a := x) ?_ ?_
  · simpa only [he] using mem_window_of_getElem hlimit hi
  · simpa only [hl] using mem_window_of_getElem hlimit hj

/-- **Every walk has every row once exactly when no page ends inside a group of rows that tie.** -/
theorem walk_perm_iff {limit count : ℕ} (hlimit : 0 < limit) (hnodup : rows.Nodup)
    (hcount : rows.length ≤ count * limit) :
    (∀ answers : ℕ → Answer r rows, (walk limit count answers).Perm rows) ↔
      ∀ x ∈ rows, OnOnePage r rows limit x :=
  ⟨fun h _ hx => onOnePage_of_walk hlimit hnodup hcount h hx,
    fun h answers => walk_perm hlimit hnodup hcount h answers⟩

omit [DecidableRel r] [DecidableEq α] [Std.Total r] [IsTrans α r] in
/-- Fewer pages do not have every row. -/
theorem length_le_of_walk {limit count : ℕ} {answers : ℕ → Answer r rows}
    (h : (walk limit count answers).Perm rows) : rows.length ≤ count * limit := by
  rw [← h.length_eq, walk, List.length_flatMap]
  have hpage : ∀ k ∈ List.range count,
      (window (k * limit) limit (answers k).list).length ≤ limit :=
    fun k _ => length_window_le _ _ _
  calc _ ≤ ((List.range count).map fun _ => limit).sum := List.sum_le_sum hpage
    _ = count * limit := by simp

end GameClub.Lib.Pages
