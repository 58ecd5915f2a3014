import GameClub.Lib.Interleave

/-! # Items announced once

Requests book items in the shared state and announce them later. Between the two the request carries
its item, and other requests book and announce theirs.

* `Items`, `Moves`: the items, and what a call does to them. A call may give an item up, where that is
  allowed.
* `Tracks.announced`: nothing is announced twice, or without having been booked.
* `Tracks.perm_of_quiet`: where nothing is given up and no request is in flight any more, every item
  that is booked is announced once. -/

namespace GameClub.Lib.Interleave

variable {Stmt : Type} {Res : Stmt → Type} {σ Req ρ P κ : Type}

/-- The items booked, the items announced, and the one a request has booked and not yet announced. -/
structure Items (σ P κ : Type) where
  booked : σ → List κ
  announced : σ → List κ
  carried : P → Option κ

namespace Items

/-- **What a call does to the items**; it may give one up under `D`. -/
inductive Moves (K : Items σ P κ) (D : Prop) (w w' : σ) (p p' : P) : Prop
  | other (hb : K.booked w' = K.booked w) (ha : K.announced w' = K.announced w)
      (hc : K.carried p' = K.carried p)
  | book {k : κ} (hk : k ∉ K.booked w) (hb : K.booked w' = K.booked w ++ [k])
      (ha : K.announced w' = K.announced w) (hc : K.carried p = none)
      (hc' : K.carried p' = some k)
  | announce {k : κ} (hb : K.booked w' = K.booked w) (ha : K.announced w' = k :: K.announced w)
      (hc : K.carried p = some k) (hc' : K.carried p' = none)
  | giveUp (hd : D) (hb : K.booked w' = K.booked w) (ha : K.announced w' = K.announced w)
      (hc' : K.carried p' = none)

/-- The request `i` carries `k`. -/
def CarriedBy (K : Items σ P κ) (c : Config σ P) (i : ℕ) (k : κ) : Prop :=
  ∃ p, c.threads i = some p ∧ K.carried p = some k

/-- **The system tracks its items**, in the runs whose steps meet `A`. -/
structure Tracks (S : System Res σ Req ρ P) (A : Config σ P → Event σ Req ρ P → Prop)
    (D : Prop) (K : Items σ P κ) : Prop where
  start : ∀ q, K.carried (S.start q) = none
  done : ∀ {p r}, S.view p = .done r → K.carried p = none
  moves : ∀ {c i p s k}, A c (.called i p c.db) → S.view p = .call s k →
    K.Moves D c.db (S.exec s c.db).2 p (k (S.exec s c.db).1)
  pass : ∀ n w, K.booked (S.pass n w) = K.booked w ∧ K.announced (S.pass n w) = K.announced w

structure Inv (K : Items σ P κ) (D : Prop) (initial : List κ) (c : Config σ P) : Prop where
  grows : initial <+: K.booked c.db
  nodup : (K.announced c.db).Nodup
  booked : ∀ k ∈ K.announced c.db, k ∈ K.booked c.db
  outstanding : ∀ i k, K.CarriedBy c i k → k ∈ K.booked c.db ∧ k ∉ K.announced c.db
  single : ∀ i j k, K.CarriedBy c i k → K.CarriedBy c j k → i = j
  covered : ¬ D → ∀ k ∈ K.booked c.db, k ∈ K.announced c.db ∨ ∃ i, K.CarriedBy c i k
  booked_nodup : (K.booked c.db).Nodup

variable {K : Items σ P κ} {D : Prop} {initial : List κ} {c : Config σ P} {w : σ} {i j : ℕ} {k : κ}
  {o : Option P}

theorem carriedBy_put_self :
    K.CarriedBy (c.put w i o) i k ↔ ∃ p, o = some p ∧ K.carried p = some k := by
  unfold CarriedBy
  rw [Config.put_self]

theorem carriedBy_put_ne (h : j ≠ i) : K.CarriedBy (c.put w i o) j k ↔ K.CarriedBy c j k := by
  unfold CarriedBy
  rw [Config.put_ne _ _ _ h]

/-- A request that carries what it did. -/
theorem carriedBy_put_same
    (h : ∀ k, (∃ p, o = some p ∧ K.carried p = some k) ↔ K.CarriedBy c i k) :
    K.CarriedBy (c.put w i o) j k ↔ K.CarriedBy c j k := by
  by_cases hj : j = i
  · subst hj
    rw [carriedBy_put_self]
    exact h k
  · exact carriedBy_put_ne hj

/-- Nothing is in flight, and everything that is booked is announced. -/
theorem Inv.init (hnodup : (K.booked w).Nodup) (h : (K.announced w).Perm (K.booked w)) :
    K.Inv D (K.booked w) (.idle w) := by
  have hnone : ∀ i k, ¬ K.CarriedBy (.idle w) i k := by
    rintro i k ⟨p, hp, -⟩
    cases hp
  exact ⟨List.prefix_refl _, h.nodup_iff.mpr hnodup, fun k hk => h.mem_iff.mp hk,
    fun i k hk => absurd hk (hnone i k), fun i j k hk _ => absurd hk (hnone i k),
    fun _ k hk => Or.inl (h.mem_iff.mpr hk), hnodup⟩

/-- The lists and what is carried are as they were. -/
theorem Inv.keep {c' : Config σ P} (h : K.Inv D initial c) (hb : K.booked c'.db = K.booked c.db)
    (ha : K.announced c'.db = K.announced c.db)
    (hc : ∀ i k, K.CarriedBy c' i k ↔ K.CarriedBy c i k) : K.Inv D initial c' := by
  refine ⟨hb ▸ h.grows, ha ▸ h.nodup, ?_, ?_, ?_, ?_, hb ▸ h.booked_nodup⟩
  · rw [ha, hb]
    exact h.booked
  · rw [ha, hb]
    exact fun i k hk => h.outstanding i k ((hc i k).mp hk)
  · exact fun i j k hi hj => h.single i j k ((hc i k).mp hi) ((hc j k).mp hj)
  · rw [ha, hb]
    exact fun hd k hk => (h.covered hd k hk).imp_right fun ⟨i, hi⟩ => ⟨i, (hc i k).mpr hi⟩

/-- **An item is booked**: the request carries it from then on. -/
theorem Inv.book {p' : P} (h : K.Inv D initial c) (hk : k ∉ K.booked c.db)
    (hb : K.booked w = K.booked c.db ++ [k]) (ha : K.announced w = K.announced c.db)
    (hnone : ∀ k', ¬ K.CarriedBy c i k') (hc' : K.carried p' = some k) :
    K.Inv D initial (c.put w i (some p')) := by
  have hself : ∀ k', K.CarriedBy (c.put w i (some p')) i k' ↔ k' = k := by
    intro k'
    rw [carriedBy_put_self]
    constructor
    · rintro ⟨q, hq, hk'⟩
      cases hq
      exact Option.some.inj (hk'.symm.trans hc')
    · rintro rfl
      exact ⟨p', rfl, hc'⟩
  -- an item of another request was booked before
  have hother : ∀ j k', j ≠ i → K.CarriedBy (c.put w i (some p')) j k' →
      k' ∈ K.booked c.db ∧ k' ∉ K.announced c.db :=
    fun j k' hj hk' => h.outstanding j k' ((carriedBy_put_ne hj).mp hk')
  refine ⟨?_, ?_, ?_, ?_, ?_, ?_, ?_⟩
  · rw [show K.booked (c.put w i (some p')).db = K.booked c.db ++ [k] from hb]
    exact h.grows.trans (List.prefix_append ..)
  · exact (congrArg List.Nodup ha).mpr h.nodup
  · intro k' hk'
    rw [show K.booked (c.put w i (some p')).db = K.booked c.db ++ [k] from hb]
    rw [show K.announced (c.put w i (some p')).db = K.announced c.db from ha] at hk'
    exact List.mem_append_left _ (h.booked k' hk')
  · intro j k' hcarried
    rw [show K.booked (c.put w i (some p')).db = K.booked c.db ++ [k] from hb,
      show K.announced (c.put w i (some p')).db = K.announced c.db from ha]
    by_cases hj : j = i
    · subst hj
      rw [(hself k').mp hcarried]
      exact ⟨by simp, fun hmem => hk (h.booked k hmem)⟩
    · obtain ⟨hbooked, hopen⟩ := hother j k' hj hcarried
      exact ⟨List.mem_append_left _ hbooked, hopen⟩
  · intro j j' k' hj hj'
    by_cases hi : j = i
    · by_cases hi' : j' = i
      · exact hi.trans hi'.symm
      · subst hi
        rw [(hself k').mp hj] at hj'
        exact absurd (hother j' k hi' hj').1 hk
    · by_cases hi' : j' = i
      · subst hi'
        rw [(hself k').mp hj'] at hj
        exact absurd (hother j k hi hj).1 hk
      · exact h.single j j' k' ((carriedBy_put_ne hi).mp hj) ((carriedBy_put_ne hi').mp hj')
  · intro hd k' hk'
    rw [show K.booked (c.put w i (some p')).db = K.booked c.db ++ [k] from hb] at hk'
    rw [show K.announced (c.put w i (some p')).db = K.announced c.db from ha]
    rcases List.mem_append.mp hk' with hold | hnew
    · refine (h.covered hd k' hold).imp_right fun ⟨j, hj⟩ => ⟨j, ?_⟩
      have hne : j ≠ i := by
        rintro rfl
        exact hnone k' hj
      exact (carriedBy_put_ne hne).mpr hj
    · exact Or.inr ⟨i, (hself k').mpr (List.mem_singleton.mp hnew)⟩
  · refine (congrArg List.Nodup hb).mpr ?_
    rw [List.nodup_append]
    refine ⟨h.booked_nodup, List.nodup_singleton k, fun a ha' b hb' => ?_⟩
    rw [List.mem_singleton.mp hb']
    rintro rfl
    exact hk ha'

/-- **An item is announced** by the one request that carries it. -/
theorem Inv.announce {p' : P} (h : K.Inv D initial c) (hb : K.booked w = K.booked c.db)
    (ha : K.announced w = k :: K.announced c.db) (hi : K.CarriedBy c i k)
    (hc' : K.carried p' = none) : K.Inv D initial (c.put w i (some p')) := by
  have hback : ∀ j k', K.CarriedBy (c.put w i (some p')) j k' → j ≠ i ∧ K.CarriedBy c j k' := by
    intro j k' hj
    by_cases hne : j = i
    · subst hne
      obtain ⟨q, hq, hk'⟩ := carriedBy_put_self.mp hj
      cases hq
      rw [hc'] at hk'
      cases hk'
    · exact ⟨hne, (carriedBy_put_ne hne).mp hj⟩
  obtain ⟨hbooked, hopen⟩ := h.outstanding i k hi
  have hann : K.announced (c.put w i (some p')).db = k :: K.announced c.db := ha
  have hbook : K.booked (c.put w i (some p')).db = K.booked c.db := hb
  refine ⟨hbook ▸ h.grows, ?_, ?_, ?_, ?_, ?_, hbook ▸ h.booked_nodup⟩
  · rw [hann]
    exact List.nodup_cons.mpr ⟨hopen, h.nodup⟩
  · intro k' hk'
    rw [hann] at hk'
    rw [hbook]
    rcases List.mem_cons.mp hk' with rfl | hk'
    · exact hbooked
    · exact h.booked k' hk'
  · intro j k' hj
    obtain ⟨hne, hcarried⟩ := hback j k' hj
    obtain ⟨hbooked', hopen'⟩ := h.outstanding j k' hcarried
    rw [hann, hbook]
    refine ⟨hbooked', fun hmem => ?_⟩
    rcases List.mem_cons.mp hmem with rfl | hmem
    · exact hne (h.single j i k' hcarried hi)
    · exact hopen' hmem
  · exact fun j j' k' hj hj' => h.single j j' k' (hback j k' hj).2 (hback j' k' hj').2
  · intro hd k' hk'
    rw [hbook] at hk'
    rw [hann]
    rcases h.covered hd k' hk' with hold | ⟨j, hj⟩
    · exact Or.inl (List.mem_cons_of_mem _ hold)
    · by_cases hne : j = i
      · subst hne
        obtain ⟨p, hp, hpk⟩ := hj
        obtain ⟨q, hq, hqk⟩ := hi
        rw [hp] at hq
        cases hq
        rw [hpk] at hqk
        cases hqk
        exact Or.inl (List.mem_cons_self ..)
      · exact Or.inr ⟨j, (carriedBy_put_ne hne).mpr hj⟩

/-- **An item is given up**: it stays booked. -/
theorem Inv.giveUp {p' : P} (h : K.Inv D initial c) (hd : D) (hb : K.booked w = K.booked c.db)
    (ha : K.announced w = K.announced c.db) (hc' : K.carried p' = none) :
    K.Inv D initial (c.put w i (some p')) := by
  have hback : ∀ j k', K.CarriedBy (c.put w i (some p')) j k' → K.CarriedBy c j k' := by
    intro j k' hj
    by_cases hne : j = i
    · subst hne
      obtain ⟨q, hq, hk'⟩ := carriedBy_put_self.mp hj
      cases hq
      rw [hc'] at hk'
      cases hk'
    · exact (carriedBy_put_ne hne).mp hj
  have hann : K.announced (c.put w i (some p')).db = K.announced c.db := ha
  have hbook : K.booked (c.put w i (some p')).db = K.booked c.db := hb
  refine ⟨hbook ▸ h.grows, hann ▸ h.nodup, ?_, ?_, ?_, fun hnot => absurd hd hnot,
    hbook ▸ h.booked_nodup⟩
  · rw [hann, hbook]
    exact h.booked
  · rw [hann, hbook]
    exact fun j k' hj => h.outstanding j k' (hback j k' hj)
  · exact fun j j' k' hj hj' => h.single j j' k' (hback j k' hj) (hback j' k' hj')

section Runs

variable {S : System Res σ Req ρ P} {A : Config σ P → Event σ Req ρ P → Prop}
  {c' : Config σ P} {e : Event σ Req ρ P} {tr : List (Event σ Req ρ P)}

theorem Inv.step (hK : K.Tracks S A D) (h : K.Inv D initial c) (hs : S.Step c e c') (ha : A c e) :
    K.Inv D initial c' := by
  cases hs with
  | @arrive i q hi =>
    refine h.keep rfl rfl fun j k => carriedBy_put_same fun k' => ?_
    constructor
    · rintro ⟨p, hp, hk'⟩
      cases hp
      rw [hK.start q] at hk'
      cases hk'
    · rintro ⟨p, hp, -⟩
      rw [hi] at hp
      cases hp
  | @call i p s k hi hv =>
    cases hK.moves ha hv with
    | other hb hann hc =>
      refine h.keep hb hann fun j k' => carriedBy_put_same fun k'' => ?_
      constructor
      · rintro ⟨q, hq, hk'⟩
        cases hq
        exact ⟨p, hi, hc.symm.trans hk'⟩
      · rintro ⟨q, hq, hk'⟩
        rw [hi] at hq
        cases hq
        exact ⟨_, rfl, hc.trans hk'⟩
    | book hk hb hann hc hc' =>
      refine h.book hk hb hann (fun k' hk' => ?_) hc'
      obtain ⟨q, hq, hcarried⟩ := hk'
      rw [hi] at hq
      cases hq
      rw [hc] at hcarried
      cases hcarried
    | announce hb hann hc hc' => exact h.announce hb hann ⟨p, hi, hc⟩ hc'
    | giveUp hd hb hann hc' => exact h.giveUp hd hb hann hc'
  | @leave i p r hi hv =>
    refine h.keep rfl rfl fun j k => carriedBy_put_same fun k' => ?_
    constructor
    · rintro ⟨q, hq, -⟩
      cases hq
    · rintro ⟨q, hq, hk'⟩
      rw [hi] at hq
      cases hq
      rw [hK.done hv] at hk'
      cases hk'
  | pass n =>
    obtain ⟨hb, hann⟩ := hK.pass n c.db
    exact h.keep hb hann fun j k => Iff.rfl

/-- **The invariant holds after every run.** -/
theorem Tracks.inv (hK : K.Tracks S A D) (hnodup : (K.booked w).Nodup)
    (h : (K.announced w).Perm (K.booked w)) (hrun : S.Run A (.idle w) tr c) :
    K.Inv D (K.booked w) c :=
  hrun.invariant (I := fun _ c => K.Inv D (K.booked w) c) (Inv.init hnodup h)
    fun hc hs ha => hc.step hK hs ha

/-- **Every item is announced once** when no request is in flight any more and none was given up. -/
theorem Tracks.perm_of_quiet (hK : K.Tracks S A False) (hnodup : (K.booked w).Nodup)
    (h : (K.announced w).Perm (K.booked w)) (hrun : S.Run A (.idle w) tr c) (hq : c.Quiet) :
    (K.announced c.db).Perm (K.booked c.db) := by
  have hinv := hK.inv hnodup h hrun
  refine (List.perm_ext_iff_of_nodup hinv.nodup hinv.booked_nodup).mpr fun k => ⟨hinv.booked k, ?_⟩
  intro hk
  rcases hinv.covered not_false k hk with hann | ⟨i, p, hi, -⟩
  · exact hann
  · rw [hq i] at hi
    cases hi

/-- A run whose events meet a condition of their own. -/
theorem run_of_events {B : Event σ Req ρ P → Prop} {c₀ : Config σ P} (hrun : S.Run A c₀ tr c)
    (h : ∀ e ∈ tr, B e) : S.Run (fun _ e => B e) c₀ tr c := by
  induction hrun with
  | nil => exact .nil
  | step _ hs _ ih =>
    exact .step (ih fun e he => h e (List.mem_cons_of_mem _ he)) hs (h _ (List.mem_cons_self ..))

end Runs

end Items

end GameClub.Lib.Interleave
