import GameClub.Lib.Interleave

/-! # Announced values

Requests change a value of the shared state, read it again, and announce what they have read. Other
requests may change, read and announce in between.

* `Announced`, `Goes`: the value, what was announced of it last, and what a call does to them.
* `Keeps.last_eq_value`: when every reading is announced before the readings after it, and no request
  is in flight any more, the last announcement is the value. -/

namespace GameClub.Lib.Interleave

variable {Stmt : Type} {Res : Stmt → Type} {σ Req ρ P β : Type}

/-- A value, its last announcement, and the number of the next reading. A request at a phase is `due`
when it has changed the value and not read it yet; what it has read and not announced yet it holds,
with the number of the reading. -/
structure Announced (σ P β : Type) where
  value : σ → β
  last : σ → β
  next : σ → ℕ
  due : P → Prop
  held : P → Option (ℕ × β)

namespace Announced

/-- **What a call does**: to the value, to its announcement, and to the request that makes it. -/
inductive Goes (K : Announced σ P β) (w w' : σ) (p p' : P) : Prop
  | other (hv : K.value w' = K.value w) (hl : K.last w' = K.last w) (hn : K.next w ≤ K.next w')
      (hdue : K.due p → K.due p') (hheld : K.held p' = K.held p)
  | change (hn : K.next w ≤ K.next w') (hdue : K.due p') (hheld : K.held p' = K.held p)
  | read (hv : K.value w' = K.value w) (hn : K.next w < K.next w')
      (hheld : K.held p' = some (K.next w, K.value w))
  | announce {n : ℕ} {b : β} (hv : K.value w' = K.value w) (hl : K.last w' = b)
      (hn : K.next w ≤ K.next w') (hdue : ¬ K.due p) (hheld : K.held p = some (n, b))
      (hheld' : K.held p' = none)

/-- The request `i` has something to announce. -/
def DueAt (K : Announced σ P β) (c : Config σ P) (i : ℕ) : Prop :=
  ∃ p, c.threads i = some p ∧ K.due p

/-- The request `i` holds the reading `x`. -/
def HeldBy (K : Announced σ P β) (c : Config σ P) (i : ℕ) (x : ℕ × β) : Prop :=
  ∃ p, c.threads i = some p ∧ K.held p = some x

/-- No reading in flight is older than the one that is held at `p`. -/
def Oldest (K : Announced σ P β) (c : Config σ P) (p : P) : Prop :=
  ∀ x, K.held p = some x → ∀ j y, K.HeldBy c j y → x.1 ≤ y.1

/-- **The system announces the value**, in the runs whose steps meet `A`, and there in the order of
the readings. -/
structure Keeps (S : System Res σ Req ρ P) (A : Config σ P → Event σ Req ρ P → Prop)
    (K : Announced σ P β) : Prop where
  start : ∀ q, K.held (S.start q) = none
  done : ∀ {p r}, S.view p = .done r → ¬ K.due p ∧ K.held p = none
  goes : ∀ {c i p s k}, A c (.called i p c.db) → S.view p = .call s k →
    K.Goes c.db (S.exec s c.db).2 p (k (S.exec s c.db).1)
  oldest : ∀ {c i p}, A c (.called i p c.db) → K.Oldest c p
  pass : ∀ n w, K.value (S.pass n w) = K.value w ∧ K.last (S.pass n w) = K.last w ∧
    K.next w ≤ K.next (S.pass n w)

/-- **The value will be announced**: a request has yet to read it, or holds it as the newest reading,
or it is what was announced last. -/
def Converges (K : Announced σ P β) (c : Config σ P) : Prop :=
  (∃ i, K.DueAt c i) ∨
    (∃ i n, K.HeldBy c i (n, K.value c.db) ∧ ∀ j y, K.HeldBy c j y → y.1 ≤ n) ∨
    (∀ j y, ¬ K.HeldBy c j y) ∧ K.last c.db = K.value c.db

structure Inv (K : Announced σ P β) (c : Config σ P) : Prop where
  /-- the numbers of the readings are given out one after another -/
  given : ∀ i x, K.HeldBy c i x → x.1 < K.next c.db
  distinct : ∀ i j x y, K.HeldBy c i x → K.HeldBy c j y → x.1 = y.1 → i = j
  converges : K.Converges c

variable {K : Announced σ P β} {c c' : Config σ P} {i j : ℕ} {p p' : P} {w : σ} {x : ℕ × β}

theorem heldBy_put_self {o : Option P} :
    K.HeldBy (c.put w i o) i x ↔ ∃ p, o = some p ∧ K.held p = some x := by
  unfold HeldBy
  rw [Config.put_self]

theorem heldBy_put_ne {o : Option P} (h : j ≠ i) :
    K.HeldBy (c.put w i o) j x ↔ K.HeldBy c j x := by
  unfold HeldBy
  rw [Config.put_ne _ _ _ h]

/-- A request that keeps its reading. -/
theorem heldBy_put_same {o : Option P}
    (h : ∀ x, (∃ p, o = some p ∧ K.held p = some x) ↔ K.HeldBy c i x) :
    K.HeldBy (c.put w i o) j x ↔ K.HeldBy c j x := by
  by_cases hj : j = i
  · subst hj
    rw [heldBy_put_self]
    exact h x
  · exact heldBy_put_ne hj

theorem dueAt_put_ne {o : Option P} (h : j ≠ i) : K.DueAt (c.put w i o) j ↔ K.DueAt c j := by
  unfold DueAt
  rw [Config.put_ne _ _ _ h]

theorem dueAt_put_self (h : K.due p) : K.DueAt (c.put w i (some p)) i := ⟨p, Config.put_self .., h⟩

theorem Inv.init (h : K.last w = K.value w) : K.Inv (.idle w) := by
  have hnone : ∀ j x, ¬ K.HeldBy (.idle w) j x := by
    rintro j x ⟨p, hp, -⟩
    cases hp
  exact ⟨fun j x hx => absurd hx (hnone j x), fun i j x y hx _ _ => absurd hx (hnone i x),
    Or.inr (Or.inr ⟨hnone, h⟩)⟩

/-! ### Steps -/

/-- The readings in flight are as they were. -/
theorem Inv.keep (h : K.Inv c) (hn : K.next c.db ≤ K.next c'.db)
    (hheld : ∀ j x, K.HeldBy c' j x ↔ K.HeldBy c j x) (hconv : K.Converges c') : K.Inv c' where
  given j x hx := (h.given j x ((hheld j x).mp hx)).trans_le hn
  distinct j k x y hx hy := h.distinct j k x y ((hheld j x).mp hx) ((hheld k y).mp hy)
  converges := hconv

/-- Nothing is changed, read or announced. -/
theorem Inv.other (h : K.Inv c) (hv : K.value c'.db = K.value c.db)
    (hl : K.last c'.db = K.last c.db) (hn : K.next c.db ≤ K.next c'.db)
    (hdue : ∀ j, K.DueAt c j → K.DueAt c' j)
    (hheld : ∀ j x, K.HeldBy c' j x ↔ K.HeldBy c j x) : K.Inv c' := by
  refine h.keep hn hheld ?_
  unfold Converges
  rw [hv, hl]
  rcases h.converges with ⟨j, hj⟩ | ⟨j, n, hj, hmax⟩ | ⟨hnone, hlast⟩
  · exact Or.inl ⟨j, hdue j hj⟩
  · exact Or.inr (Or.inl ⟨j, n, (hheld j _).mpr hj, fun k y hy => hmax k y ((hheld k y).mp hy)⟩)
  · exact Or.inr (Or.inr ⟨fun k y hy => hnone k y ((hheld k y).mp hy), hlast⟩)

/-- **A reading** is newer than those in flight. -/
theorem Inv.read (h : K.Inv c) (hv : K.value w = K.value c.db) (hn : K.next c.db < K.next w)
    (hheld : K.held p' = some (K.next c.db, K.value c.db)) : K.Inv (c.put w i (some p')) := by
  have hself : ∀ x, K.HeldBy (c.put w i (some p')) i x ↔ x = (K.next c.db, K.value c.db) := by
    intro x
    rw [heldBy_put_self]
    constructor
    · rintro ⟨q, hq, hx⟩
      cases hq
      exact Option.some.inj (hx.symm.trans hheld)
    · rintro rfl
      exact ⟨p', rfl, hheld⟩
  have hother : ∀ j x, K.HeldBy (c.put w i (some p')) j x → j ≠ i → x.1 < K.next c.db :=
    fun j x hx hj => h.given j x ((heldBy_put_ne hj).mp hx)
  refine ⟨fun j x hx => ?_, fun j k x y hx hy heq => ?_, Or.inr (Or.inl ⟨i, K.next c.db, ?_, ?_⟩)⟩
  · change x.1 < K.next w
    by_cases hj : j = i
    · subst hj
      rw [(hself x).mp hx]
      exact hn
    · exact (hother j x hx hj).trans hn
  · by_cases hj : j = i
    · by_cases hk : k = i
      · exact hj.trans hk.symm
      · subst hj
        have hlt := hother k y hy hk
        rw [← heq, (hself x).mp hx] at hlt
        exact absurd hlt (lt_irrefl _)
    · by_cases hk : k = i
      · subst hk
        have hlt := hother j x hx hj
        rw [heq, (hself y).mp hy] at hlt
        exact absurd hlt (lt_irrefl _)
      · exact h.distinct j k x y ((heldBy_put_ne hj).mp hx) ((heldBy_put_ne hk).mp hy) heq
  · refine (hself _).mpr ?_
    change (_, K.value w) = _
    rw [hv]
  · intro j y hy
    by_cases hj : j = i
    · subst hj
      rw [(hself y).mp hy]
    · exact (hother j y hy hj).le

/-- **The oldest reading is announced**; when it is the newest too, it was the only one. -/
theorem Inv.announce (h : K.Inv c) {x : ℕ × β} (hi : K.HeldBy c i x)
    (hold : ∀ j y, K.HeldBy c j y → x.1 ≤ y.1) (hv : K.value w = K.value c.db)
    (hl : K.last w = x.2) (hn : K.next c.db ≤ K.next w) (hdue : ¬ K.DueAt c i)
    (hheld : K.held p' = none) : K.Inv (c.put w i (some p')) := by
  have hback : ∀ j y, K.HeldBy (c.put w i (some p')) j y → j ≠ i ∧ K.HeldBy c j y := by
    intro j y hy
    by_cases hj : j = i
    · subst hj
      obtain ⟨q, hq, hy⟩ := heldBy_put_self.mp hy
      cases hq
      rw [hheld] at hy
      cases hy
    · exact ⟨hj, (heldBy_put_ne hj).mp hy⟩
  refine ⟨fun j y hy => (h.given j y (hback j y hy).2).trans_le hn,
    fun j k y z hy hz => h.distinct j k y z (hback j y hy).2 (hback k z hz).2, ?_⟩
  change (∃ j, _) ∨ (∃ j n, K.HeldBy _ j (n, K.value w) ∧ _) ∨ _ ∧ K.last w = K.value w
  rw [hv, hl]
  rcases h.converges with ⟨j, hj⟩ | ⟨j, n, hj, hmax⟩ | ⟨hnone, -⟩
  · have hne : j ≠ i := by
      rintro rfl
      exact hdue hj
    exact Or.inl ⟨j, (dueAt_put_ne hne).mpr hj⟩
  · by_cases hne : j = i
    · subst hne
      obtain ⟨q, hq, hx⟩ := hi
      obtain ⟨q', hq', hx'⟩ := hj
      rw [hq] at hq'
      cases hq'
      rw [hx] at hx'
      cases hx'
      refine Or.inr (Or.inr ⟨fun k y hy => ?_, rfl⟩)
      obtain ⟨hk, hy⟩ := hback k y hy
      have heq : y.1 = n := le_antisymm (hmax k y hy) (hold k y hy)
      exact hk (h.distinct k j y _ hy ⟨q, hq, hx⟩ heq)
    · exact Or.inr (Or.inl ⟨j, n, (heldBy_put_ne hne).mpr hj,
        fun k y hy => hmax k y (hback k y hy).2⟩)
  · exact absurd hi (hnone i x)

/-- **A call keeps the invariant.** -/
theorem Inv.call (h : K.Inv c) (hi : c.threads i = some p) (hg : K.Goes c.db w p p')
    (hold : K.Oldest c p) : K.Inv (c.put w i (some p')) := by
  have hsame : K.held p' = K.held p →
      ∀ j x, K.HeldBy (c.put w i (some p')) j x ↔ K.HeldBy c j x := by
    intro heq j x
    refine heldBy_put_same fun y => ?_
    simp [HeldBy, hi, heq]
  cases hg with
  | other hv hl hn hdue hheld =>
    refine h.other hv hl hn (fun j hj => ?_) (hsame hheld)
    by_cases hne : j = i
    · subst hne
      obtain ⟨q, hq, hj⟩ := hj
      rw [hi] at hq
      cases hq
      exact dueAt_put_self (hdue hj)
    · exact (dueAt_put_ne hne).mpr hj
  | change hn hdue hheld => exact h.keep hn (hsame hheld) (Or.inl ⟨i, dueAt_put_self hdue⟩)
  | read hv hn hheld => exact h.read hv hn hheld
  | @announce n b hv hl hn hdue hheld hheld' =>
    refine h.announce ⟨p, hi, hheld⟩ (hold (n, b) hheld) hv hl hn ?_ hheld'
    rintro ⟨q, hq, hq'⟩
    rw [hi] at hq
    cases hq
    exact hdue hq'

variable {S : System Res σ Req ρ P} {A : Config σ P → Event σ Req ρ P → Prop}

/-- **A step keeps the invariant.** -/
theorem Inv.step (h : K.Inv c) (hK : K.Keeps S A) {e : Event σ Req ρ P} (hs : S.Step c e c')
    (ha : A c e) : K.Inv c' := by
  cases hs with
  | @arrive i q hi =>
    refine h.other rfl rfl le_rfl (fun j hj => ?_) fun j x => heldBy_put_same fun y => ?_
    · have hne : j ≠ i := by
        rintro rfl
        obtain ⟨p, hp, -⟩ := hj
        rw [hi] at hp
        cases hp
      exact (dueAt_put_ne hne).mpr hj
    · simp [HeldBy, hi, hK.start q]
  | @call i p s k hi hv => exact h.call hi (hK.goes ha hv) (hK.oldest ha)
  | @leave i p r hi hv =>
    obtain ⟨hdue, hheld⟩ := hK.done hv
    refine h.other rfl rfl le_rfl (fun j hj => ?_) fun j x => heldBy_put_same fun y => ?_
    · have hne : j ≠ i := by
        rintro rfl
        obtain ⟨q, hq, hj⟩ := hj
        rw [hi] at hq
        cases hq
        exact hdue hj
      exact (dueAt_put_ne hne).mpr hj
    · simp [HeldBy, hi, hheld]
  | pass n =>
    obtain ⟨hv, hl, hn⟩ := hK.pass n c.db
    exact h.other hv hl hn (fun j hj => hj) fun j x => Iff.rfl

/-- **The announcements converge**: once no request is in flight, the last one is the value. -/
theorem Keeps.last_eq_value (hK : K.Keeps S A) (hw : K.last w = K.value w)
    {tr : List (Event σ Req ρ P)} (hrun : S.Run A (.idle w) tr c) (hq : c.Quiet) :
    K.last c.db = K.value c.db := by
  have hinv := hrun.invariant (I := fun _ c => K.Inv c) (.init hw) fun h hs ha => h.step hK hs ha
  rcases hinv.converges with ⟨j, p, hj, -⟩ | ⟨j, n, ⟨p, hj, -⟩, -⟩ | ⟨-, hlast⟩
  · rw [hq j] at hj
    cases hj
  · rw [hq j] at hj
    cases hj
  · exact hlast

end Announced

end GameClub.Lib.Interleave
