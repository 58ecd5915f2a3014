import Mathlib.Data.List.Nodup
import Mathlib.Tactic

/-! # Keyed tables

A table is a list of rows no two of which have the same key. A row is appended by `insert`, which
leaves a table that already has the key as it is, and replaced in place by `set`, which leaves a
table without the key as it is.

* `mem_rows_iff`: a row is in the table exactly when it is the row found at its key.
* `get?_insert`, `get?_set`: what is found after each of the two.
* `sum_map_by_key`: a sum over rows that refer to the rows of a table. -/

namespace GameClub.Lib

/-- Rows with pairwise different keys. -/
structure Table {κ α : Type} (key : α → κ) where
  rows : List α
  nodup : (rows.map key).Nodup
deriving DecidableEq

namespace Table

variable {κ α : Type} {key : α → κ}

@[ext] theorem ext {t t' : Table key} (h : t.rows = t'.rows) : t = t' := by
  cases t; cases t'; cases h; rfl

/-- The table without rows. -/
def empty : Table key := ⟨[], List.nodup_nil⟩

/-- The table of one row. -/
def single (r : α) : Table key := ⟨[r], List.nodup_singleton _⟩

@[simp] theorem rows_single (r : α) : (single r : Table key).rows = [r] := rfl

/-- Two rows with one key are one row. -/
theorem eq_of_key_eq {t : Table key} {r s : α} (hr : r ∈ t.rows) (hs : s ∈ t.rows)
    (h : key r = key s) : r = s :=
  List.inj_on_of_nodup_map t.nodup hr hs h

variable [DecidableEq κ]

/-- The row with key `k`. -/
def get? (t : Table key) (k : κ) : Option α := t.rows.find? fun r => key r = k

/-- `INSERT`: appends `r`, unless its key is taken. -/
def insert (t : Table key) (r : α) : Table key :=
  if h : key r ∈ t.rows.map key then t
  else ⟨t.rows ++ [r], by
    rw [List.map_append, List.map_singleton]
    exact List.nodup_append_comm.mp (List.nodup_cons.mpr ⟨h, t.nodup⟩)⟩

/-- `UPDATE … WHERE key = …`: replaces the row with the key of `r`, if there is one. -/
def set (t : Table key) (r : α) : Table key :=
  ⟨t.rows.map fun x => if key x = key r then r else x, by
    rw [List.map_map, show (key ∘ fun x => if key x = key r then r else x) = key from ?_]
    · exact t.nodup
    · funext x
      by_cases h : key x = key r <;> simp [h]⟩

/-! ### Finding rows -/

theorem mem_of_get? {t : Table key} {k : κ} {r : α} (h : t.get? k = some r) :
    r ∈ t.rows ∧ key r = k :=
  ⟨List.mem_of_find?_eq_some h, by simpa using List.find?_some h⟩

theorem key_of_get? {t : Table key} {k : κ} {r : α} (h : t.get? k = some r) : key r = k :=
  (mem_of_get? h).2

theorem get?_of_mem {t : Table key} {r : α} (h : r ∈ t.rows) : t.get? (key r) = some r := by
  cases hg : t.get? (key r) with
  | none =>
    have := List.find?_eq_none.mp hg r h
    simp at this
  | some s =>
    obtain ⟨hs, hk⟩ := mem_of_get? hg
    rw [eq_of_key_eq hs h hk]

/-- **A row is in the table exactly when it is found at its key.** -/
theorem mem_rows_iff {t : Table key} {r : α} : r ∈ t.rows ↔ t.get? (key r) = some r :=
  ⟨get?_of_mem, fun h => (mem_of_get? h).1⟩

theorem get?_eq_none {t : Table key} {k : κ} : t.get? k = none ↔ k ∉ t.rows.map key := by
  simp [get?, List.find?_eq_none]

/-! ### After an insert -/

theorem rows_insert {t : Table key} {r : α} (h : t.get? (key r) = none) :
    (t.insert r).rows = t.rows ++ [r] := by
  rw [insert, dif_neg (get?_eq_none.mp h)]

theorem insert_of_mem {t : Table key} {r : α} (h : t.get? (key r) ≠ none) : t.insert r = t := by
  rw [insert, dif_pos (not_not.mp fun hn => h (get?_eq_none.mpr hn))]

/-- **Lookup after an insert**: the new row at a fresh key, everything else as before. -/
theorem get?_insert (t : Table key) (r : α) (k : κ) :
    (t.insert r).get? k = if k = key r then (t.get? k).or (some r) else t.get? k := by
  by_cases h : t.get? (key r) = none
  · unfold get? at h ⊢
    rw [rows_insert h, List.find?_append]
    by_cases hk : k = key r
    · subst hk; simp [h]
    · rw [if_neg hk, List.find?_singleton, if_neg (by simpa using fun he => hk he.symm)]
      simp
  · rw [insert_of_mem h]
    split_ifs with hk
    · subst hk
      obtain ⟨s, hs⟩ := Option.ne_none_iff_exists'.mp h
      rw [hs]; rfl
    · rfl

theorem get?_insert_self {t : Table key} {r : α} (h : t.get? (key r) = none) :
    (t.insert r).get? (key r) = some r := by
  rw [get?_insert, if_pos rfl, h]; rfl

theorem get?_insert_ne {t : Table key} {r : α} {k : κ} (h : k ≠ key r) :
    (t.insert r).get? k = t.get? k := by
  rw [get?_insert, if_neg h]

/-- A key that is free after an insert was free before. -/
theorem get?_eq_none_of_insert {t : Table key} {r : α} {k : κ} (h : (t.insert r).get? k = none) :
    t.get? k = none := by
  rw [get?_insert] at h
  split_ifs at h with hk
  · exact (Option.or_eq_none_iff.mp h).1
  · exact h

theorem get?_insert_ne_none {t : Table key} {r : α} {k : κ} (h : t.get? k ≠ none) :
    (t.insert r).get? k ≠ none :=
  fun hnone => h (get?_eq_none_of_insert hnone)

theorem mem_insert {t : Table key} {r s : α} (h : t.get? (key r) = none) :
    s ∈ (t.insert r).rows ↔ s ∈ t.rows ∨ s = r := by
  rw [rows_insert h]; simp

/-! ### After a replacement -/

theorem rows_set (t : Table key) (r : α) :
    (t.set r).rows = t.rows.map fun x => if key x = key r then r else x := rfl

/-- **Lookup after a replacement**: the new row where one was, everything else as before. -/
theorem get?_set (t : Table key) (r : α) (k : κ) :
    (t.set r).get? k = if k = key r then (t.get? k).map fun _ => r else t.get? k := by
  unfold get?
  rw [rows_set, List.find?_map]
  have hp : ((fun x => decide (key x = k)) ∘ fun x => if key x = key r then r else x) =
      fun x => decide (key x = k) := by
    funext x
    by_cases h : key x = key r <;> simp [h]
  rw [hp]
  cases hf : t.rows.find? fun x => decide (key x = k) with
  | none => simp
  | some x =>
    have hx : key x = k := by simpa using List.find?_some hf
    by_cases hk : k = key r
    · simp [hk, hx]
    · simp [hk, hx]

theorem get?_set_self {t : Table key} {r : α} (h : t.get? (key r) ≠ none) :
    (t.set r).get? (key r) = some r := by
  obtain ⟨s, hs⟩ := Option.ne_none_iff_exists'.mp h
  rw [get?_set, if_pos rfl, hs]; rfl

theorem get?_set_ne {t : Table key} {r : α} {k : κ} (h : k ≠ key r) :
    (t.set r).get? k = t.get? k := by
  rw [get?_set, if_neg h]

theorem get?_set_ne_none {t : Table key} {r : α} {k : κ} (h : t.get? k ≠ none) :
    (t.set r).get? k ≠ none := by
  rw [get?_set]
  split_ifs
  · simpa using h
  · exact h

/-- A row of the changed table is the new row or one there was. -/
theorem mem_of_mem_set {t : Table key} {r s : α} (h : s ∈ (t.set r).rows) : s = r ∨ s ∈ t.rows := by
  rw [rows_set] at h
  obtain ⟨x, hx, rfl⟩ := List.mem_map.mp h
  split_ifs
  · exact Or.inl rfl
  · exact Or.inr hx

/-- A row of the changed table is the new row or an old one with another key. -/
theorem mem_set {t : Table key} {r s : α} (h : t.get? (key r) ≠ none) :
    s ∈ (t.set r).rows ↔ s = r ∨ (s ∈ t.rows ∧ key s ≠ key r) := by
  rw [mem_rows_iff]
  by_cases hk : key s = key r
  · rw [hk, get?_set_self h]
    simp [eq_comm]
  · rw [get?_set_ne hk, ← mem_rows_iff]
    constructor
    · exact fun hs => Or.inr ⟨hs, hk⟩
    · rintro (rfl | ⟨hs, -⟩)
      · exact absurd rfl hk
      · exact hs

/-! ### Insert or set -/

/-- The row at its key, whether or not there was one. -/
def put (t : Table key) (r : α) : Table key :=
  if t.get? (key r) = none then t.insert r else t.set r

theorem get?_put (t : Table key) (r : α) (k : κ) :
    (t.put r).get? k = if k = key r then some r else t.get? k := by
  unfold put
  split_ifs with hnone hk hk
  · subst hk
    exact get?_insert_self hnone
  · exact get?_insert_ne hk
  · subst hk
    exact get?_set_self hnone
  · exact get?_set_ne hk

/-- What a search finds when the row it found is replaced by one it accepts. -/
theorem find?_put {t : Table key} {p : α → Bool} {s r : α} (h : t.rows.find? p = some s)
    (hkey : key r = key s) (hr : p r = true) : (t.put r).rows.find? p = some r := by
  have hmem := List.mem_of_find?_eq_some h
  have hne : t.get? (key r) ≠ none := by
    rw [hkey, get?_of_mem hmem]
    simp
  have hsame : ∀ x ∈ t.rows, (p ∘ fun x => if key x = key r then r else x) x = p x := by
    intro x hx
    simp only [Function.comp_apply]
    split_ifs with hk
    · rw [eq_of_key_eq hx hmem (hk.trans hkey), hr, List.find?_some h]
    · rfl
  rw [put, if_neg hne, rows_set, List.find?_map, ← List.head?_filter, List.filter_congr hsame,
    List.head?_filter, h, Option.map_some, if_pos hkey.symm]

/-- A stored row put back. -/
theorem put_self {t : Table key} {r : α} (h : t.get? (key r) = some r) : t.put r = t := by
  unfold put
  rw [if_neg (by rw [h]; simp)]
  apply Table.ext
  rw [rows_set]
  conv_rhs => rw [← List.map_id t.rows]
  refine List.map_congr_left fun x hx => ?_
  by_cases hk : key x = key r
  · rw [if_pos hk]
    exact eq_of_key_eq (mem_of_get? h).1 hx hk.symm
  · rw [if_neg hk]
    rfl

/-- What two rows at a key have in common is kept when one is set over the other. -/
theorem map_set {β : Type} {f : α → β} {t : Table key} {r s : α} (hs : s ∈ t.rows)
    (hkey : key r = key s) (hf : f r = f s) : (t.set r).rows.map f = t.rows.map f := by
  rw [rows_set, List.map_map]
  refine List.map_congr_left fun x hx => ?_
  simp only [Function.comp_apply]
  split_ifs with hk
  · rw [hf, eq_of_key_eq hx hs (hk.trans hkey)]
  · rfl

theorem map_put {β : Type} {f : α → β} {t : Table key} {r s : α} (hs : s ∈ t.rows)
    (hkey : key r = key s) (hf : f r = f s) : (t.put r).rows.map f = t.rows.map f := by
  have hne : t.get? (key r) ≠ none := by
    rw [hkey, get?_of_mem hs]
    simp
  rw [put, if_neg hne]
  exact map_set hs hkey hf

/-! ### Every row changed -/

/-- Every row changed by `f`, which keeps the keys. -/
def mapRows (t : Table key) (f : α → α) (hf : ∀ r, key (f r) = key r) : Table key :=
  ⟨t.rows.map f, by
    have hkeys : (t.rows.map f).map key = t.rows.map key := by
      rw [List.map_map]
      exact List.map_congr_left fun r _ => hf r
    rw [hkeys]
    exact t.nodup⟩

omit [DecidableEq κ] in
theorem mem_mapRows {t : Table key} {f : α → α} {hf : ∀ r, key (f r) = key r} {s : α} :
    s ∈ (t.mapRows f hf).rows ↔ ∃ r ∈ t.rows, f r = s := List.mem_map

theorem get?_mapRows (t : Table key) (f : α → α) (hf : ∀ r, key (f r) = key r) (k : κ) :
    (t.mapRows f hf).get? k = (t.get? k).map f := by
  cases hg : t.get? k with
  | none =>
    refine get?_eq_none.mpr fun hmem => get?_eq_none.mp hg ?_
    obtain ⟨s, hs, rfl⟩ := List.mem_map.mp hmem
    obtain ⟨r, hr, rfl⟩ := mem_mapRows.mp hs
    rw [hf r]
    exact List.mem_map_of_mem hr
  | some r =>
    obtain ⟨hr, rfl⟩ := mem_of_get? hg
    have hmem : f r ∈ (t.mapRows f hf).rows := mem_mapRows.mpr ⟨r, hr, rfl⟩
    have hget := get?_of_mem hmem
    rw [hf r] at hget
    rw [hget]
    rfl

/-! ### Rows that refer to rows -/

/-- Each key of the table counts once. -/
theorem sum_map_ite_key (t : Table key) {k : κ} (h : t.get? k ≠ none) (a : ℤ) :
    (t.rows.map fun r => if k = key r then a else 0).sum = a := by
  obtain ⟨rows, hnd⟩ := t
  have hmem : k ∈ rows.map key := not_not.mp fun hn => h (get?_eq_none.mpr hn)
  clear h
  induction rows with
  | nil => cases hmem
  | cons r rows ih =>
    obtain ⟨hr, hnd'⟩ := List.nodup_cons.mp hnd
    simp only [List.map_cons, List.sum_cons]
    by_cases hk : k = key r
    · have hzero : (rows.map fun r' => if k = key r' then a else 0) = rows.map fun _ => 0 :=
        List.map_congr_left fun r' hr' => if_neg fun hk' =>
          hr (by rw [← hk, hk']; exact List.mem_map_of_mem hr')
      rw [if_pos hk, hzero]
      simp
    · rw [if_neg hk, zero_add]
      exact ih hnd' ((List.mem_cons.mp hmem).resolve_left hk)

/-- **A sum over rows that refer to the rows of a table** is the sum over the table of the sums over
the rows that refer to each. -/
theorem sum_map_by_key {β : Type} (t : Table key) (ref : β → Option κ) (f : β → ℤ) (l : List β)
    (h : ∀ e ∈ l, ∃ r ∈ t.rows, ref e = some (key r)) :
    (t.rows.map fun r => ((l.filter fun e => decide (ref e = some (key r))).map f).sum).sum =
      (l.map f).sum := by
  induction l with
  | nil => simp
  | cons e l ih =>
    obtain ⟨r₀, hr₀, href⟩ := h e (by simp)
    have hsplit : ∀ r, (((e :: l).filter fun e => decide (ref e = some (key r))).map f).sum =
        (if key r₀ = key r then f e else 0) +
          ((l.filter fun e => decide (ref e = some (key r))).map f).sum := by
      intro r
      by_cases hk : key r₀ = key r <;> simp [href, hk]
    simp only [hsplit, List.sum_map_add, List.map_cons, List.sum_cons]
    rw [ih fun e' he' => h e' (List.mem_cons_of_mem _ he'),
      sum_map_ite_key t (by rw [get?_of_mem hr₀]; simp) (f e)]

end Table

end GameClub.Lib
