import GameClub.Lib.Table

/-! # Unique keys and removed rows

The rows of a table may carry a second key, which a unique index keeps different, and a removed row
stays in the table. A search that skips removed rows and the index see different rows.

* `Indexed`: no two rows have the same second key; kept by `insert`, `set` and `mapRows`.
* `search_agrees_iff`: the search and the index agree on a key exactly when no removed row has it. -/

namespace GameClub.Lib.Table

variable {κ α ν : Type} {key : α → κ}

/-- A row has the second key `k`. -/
def Held (t : Table key) (unique : α → Option ν) (k : ν) : Prop :=
  ∃ r ∈ t.rows, unique r = some k

/-- A row has it that a search finds. -/
def HeldLive (t : Table key) (unique : α → Option ν) (live : α → Bool) (k : ν) : Prop :=
  ∃ r ∈ t.rows, unique r = some k ∧ live r = true

/-- A removed row has it. -/
def HeldRemoved (t : Table key) (unique : α → Option ν) (live : α → Bool) (k : ν) : Prop :=
  ∃ r ∈ t.rows, unique r = some k ∧ live r = false

/-- **A unique index**: rows with the same second key are one row. -/
def Indexed (t : Table key) (unique : α → Option ν) : Prop :=
  ∀ r ∈ t.rows, ∀ s ∈ t.rows, ∀ k, unique r = some k → unique s = some k → key r = key s

/-- No other row has the second key of `r`. -/
def Free (t : Table key) (unique : α → Option ν) (r : α) : Prop :=
  ∀ s ∈ t.rows, key s ≠ key r → ∀ k, unique r = some k → unique s ≠ some k

variable {t : Table key} {unique : α → Option ν} {live : α → Bool} {k : ν}

theorem HeldLive.held (h : t.HeldLive unique live k) : t.Held unique k := by
  obtain ⟨r, hr, hk, -⟩ := h
  exact ⟨r, hr, hk⟩

theorem HeldRemoved.held (h : t.HeldRemoved unique live k) : t.Held unique k := by
  obtain ⟨r, hr, hk, -⟩ := h
  exact ⟨r, hr, hk⟩

/-- A row with the key is live or removed. -/
theorem Held.live_or_removed (live : α → Bool) (h : t.Held unique k) :
    t.HeldLive unique live k ∨ t.HeldRemoved unique live k := by
  obtain ⟨r, hr, hk⟩ := h
  cases hlive : live r with
  | true => exact Or.inl ⟨r, hr, hk, hlive⟩
  | false => exact Or.inr ⟨r, hr, hk, hlive⟩

/-- No key has both a live row and a removed one. -/
theorem Indexed.not_live_and_removed (h : t.Indexed unique) (hlive : t.HeldLive unique live k) :
    ¬ t.HeldRemoved unique live k := by
  rintro ⟨s, hs, hsk, hremoved⟩
  obtain ⟨r, hr, hrk, hr'⟩ := hlive
  obtain rfl := eq_of_key_eq hr hs (h r hr s hs k hrk hsk)
  rw [hr'] at hremoved
  cases hremoved

/-- **A search of the live rows and the index agree exactly when no removed row has the key.** -/
theorem Indexed.search_agrees_iff (h : t.Indexed unique) :
    (¬ t.HeldLive unique live k ↔ ¬ t.Held unique k) ↔ ¬ t.HeldRemoved unique live k := by
  constructor
  · intro hagree hremoved
    have hlive : t.HeldLive unique live k := by
      by_contra hno
      exact hagree.mp hno hremoved.held
    exact h.not_live_and_removed hlive hremoved
  · intro hremoved
    refine not_congr ⟨HeldLive.held, fun hheld => ?_⟩
    exact (hheld.live_or_removed live).resolve_right hremoved

theorem indexed_empty : (empty : Table key).Indexed unique := fun _ hr => nomatch hr

variable [DecidableEq κ]

/-- A row whose second key is free is added. -/
theorem Indexed.insert (h : t.Indexed unique) {r : α} (hfresh : t.get? (key r) = none)
    (hfree : t.Free unique r) : (t.insert r).Indexed unique := by
  have hother : ∀ s ∈ t.rows, ∀ k, unique r = some k → unique s ≠ some k := by
    refine fun s hs => hfree s hs fun hkey => ?_
    rw [← hkey, get?_of_mem hs] at hfresh
    cases hfresh
  intro a ha b hb k hak hbk
  rcases (mem_insert hfresh).mp ha with hold | rfl
  · rcases (mem_insert hfresh).mp hb with hold' | rfl
    · exact h a hold b hold' k hak hbk
    · exact absurd hak (hother a hold k hbk)
  · rcases (mem_insert hfresh).mp hb with hold | rfl
    · exact absurd hbk (hother b hold k hak)
    · rfl

/-- A row is replaced by one whose second key is free. -/
theorem Indexed.set (h : t.Indexed unique) {r : α} (hfree : t.Free unique r) :
    (t.set r).Indexed unique := by
  have hmem : ∀ a ∈ (t.set r).rows, a = r ∨ (a ∈ t.rows ∧ key a ≠ key r) := by
    intro a ha
    rw [rows_set] at ha
    obtain ⟨x, hx, rfl⟩ := List.mem_map.mp ha
    split_ifs with hkey
    · exact Or.inl rfl
    · exact Or.inr ⟨hx, hkey⟩
  intro a ha b hb k hak hbk
  rcases hmem a ha with rfl | ⟨hold, hne⟩
  · rcases hmem b hb with rfl | ⟨hold, hne⟩
    · rfl
    · exact absurd hbk (hfree b hold hne k hak)
  · rcases hmem b hb with rfl | ⟨hold', -⟩
    · exact absurd hak (hfree a hold hne k hbk)
    · exact h a hold b hold' k hak hbk

/-- A stored row is replaced by one with its second key. -/
theorem Indexed.set_same (h : t.Indexed unique) {r s : α} (hs : t.get? (key r) = some s)
    (hsame : unique r = unique s) : (t.set r).Indexed unique := by
  refine h.set fun x hx hne k hrk hxk => hne ?_
  obtain ⟨hmem, hkey⟩ := mem_of_get? hs
  rw [← hkey]
  exact h x hx s hmem k hxk (hsame ▸ hrk)

omit [DecidableEq κ] in
/-- Every row is replaced by one with its second key. -/
theorem Indexed.mapRows (h : t.Indexed unique) {f : α → α} {hf : ∀ r, key (f r) = key r}
    (hsame : ∀ r, unique (f r) = unique r) : (t.mapRows f hf).Indexed unique := by
  intro a ha b hb k hak hbk
  obtain ⟨x, hx, rfl⟩ := mem_mapRows.mp ha
  obtain ⟨y, hy, rfl⟩ := mem_mapRows.mp hb
  rw [hf x, hf y]
  exact h x hx y hy k ((hsame x).symm.trans hak) ((hsame y).symm.trans hbk)

end GameClub.Lib.Table
