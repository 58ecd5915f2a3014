import GameClub.Auth.Tokens

/-! # Rotations of one token

`rotate` loads a token, finds it unrevoked, stores the next one and then saves the old one as revoked.
Nothing between the load and the save keeps another request from loading the token too.

* `rotation_single_use`: while no two requests have a token in between at once, a token is replaced
  at most once and a family is left with at most one unrevoked token.
* `rotation_single_use_fails`: two requests that present one token at the same time. -/

namespace GameClub.Auth

open GameClub.Lib GameClub.Lib.Interleave GameClub.Common

/-! ### Counting -/

/-- The call saves the token as replaced. -/
def rotated (id : Uuid) : AuthEvent → Bool
  | .called _ (.savingReplaced record _) _ => record.id = id
  | _ => false

/-- **How often a token has been rotated.** -/
def rotations (id : Uuid) (tr : List AuthEvent) : ℕ := tr.countP (rotated id)

theorem rotations_cons (id : Uuid) (e : AuthEvent) (tr : List AuthEvent) :
    rotations id (e :: tr) = rotations id tr + if rotated id e then 1 else 0 :=
  List.countP_cons

theorem rotated_iff {id : Uuid} {i : ℕ} {p : Phase} {db : AuthDb} :
    rotated id (.called i p db) = true ↔ p.Replaces id := by
  unfold Phase.Replaces
  cases p with
  | savingReplaced record next => simp [rotated, Phase.replaces]
  | _ => simp [rotated, Phase.replaces]

/-! ### Rotations that stay apart -/

/-- **A rotation loads an unrevoked token only while no other one has it**, and a login starts a
family that is new. -/
def Apart (c : AuthConfig) : AuthEvent → Prop
  | .called _ (.loading _ _ id _) db => ∀ record, db.findToken id = .ok (some record) →
      record.revoked = false → ¬ c.InFlight (·.Has record.id)
  | .called _ (.inserting ⟨_, .login familyId, _, _⟩ _ _) db =>
      ∀ t ∈ db.refreshTokens.rows, t.familyId ≠ familyId
  | _ => True

/-- A stored token that a family may be left with unrevoked: it is not being replaced, and it is
unrevoked, or about to be followed by a token that is. -/
def Live (c : AuthConfig) (familyId id : Uuid) : Prop :=
  ∃ row, c.db.refreshTokens.get? id = some row ∧ row.familyId = familyId ∧
    ¬ c.InFlight (·.Replaces id) ∧ (row.revoked = false ∨ c.InFlight (·.Rotates id))

/-- **What rotations that stay apart keep**: a token is in one request at most, has been rotated at
most once and then revoked, and a family has one live token at most. -/
structure SingleUse (tr : List AuthEvent) (c : AuthConfig) : Prop where
  known : AllKnown c
  alone : ∀ {i j p q id}, c.threads i = some p → c.threads j = some q → p.Has id → q.Has id → i = j
  once : ∀ id, rotations id tr = 0 ∨ rotations id tr = 1 ∧ ¬ c.InFlight (·.Has id) ∧
    ∃ row, c.db.refreshTokens.get? id = some row ∧ row.revoked = true
  live : ∀ {familyId x y}, Live c familyId x → Live c familyId y → x = y

/-- A token that is live after a step was so before, if the step has not brought it about. -/
theorem Live.of_step {c c' : AuthConfig} {familyId id : Uuid} (h : Live c' familyId id)
    (hrow : ∀ row', c'.db.refreshTokens.get? id = some row' →
      ∃ row, c.db.refreshTokens.get? id = some row ∧ row.familyId = row'.familyId ∧
        (row'.revoked = false → row.revoked = false))
    (hreplaces : c.InFlight (·.Replaces id) → c'.InFlight (·.Replaces id))
    (hrotates : ∀ row, c.db.refreshTokens.get? id = some row → c'.InFlight (·.Rotates id) →
      row.revoked = false ∨ c.InFlight (·.Rotates id)) : Live c familyId id := by
  obtain ⟨row', hget', hfamily, hnot, hor⟩ := h
  obtain ⟨row, hget, hsame, hrevoked⟩ := hrow row' hget'
  refine ⟨row, hget, hsame.trans hfamily, fun hr => hnot (hreplaces hr), ?_⟩
  rcases hor with hfalse | hr
  · exact Or.inl (hrevoked hfalse)
  · exact hrotates row hget hr

/-! ### One step of a run -/

section Step

variable {env : Env} {tr : List AuthEvent} {c : AuthConfig} {i : ℕ} {p p' : Phase} {db' : AuthDb}

theorem apart_load {q : RefreshCall} {claims : AccessTokenClaims} {text secret : String}
    {record : RefreshToken} (ha : Apart c (.called i (.loading q claims text secret) c.db))
    (hfind : c.db.findToken text = .ok (some record)) (hrevoked : record.revoked = false) :
    ¬ c.InFlight (·.Has record.id) := ha record hfind hrevoked

theorem SingleUse.alone_call (h : SingleUse tr c) (hi : c.threads i = some p)
    (hs : TokenStep env p p' c.db db') (ha : Apart c (.called i p c.db)) {j k : ℕ} {q r : Phase}
    {id : Uuid} (hj : (c.put db' i (some p')).threads j = some q)
    (hk : (c.put db' i (some p')).threads k = some r) (hq : q.Has id) (hr : r.Has id) : j = k := by
  -- the token of the request that moved: it had it before, or no request had
  have hmoved : p'.Has id → p.Has id ∨ ¬ c.InFlight (·.Has id) := by
    intro hhas
    rcases hs.has_of hhas with ⟨hold, -⟩ | ⟨record, _, _, _, _, hid, hrevoked, -, hp, hfind⟩
    · exact Or.inl hold
    · subst hp hid
      exact Or.inr (apart_load ha hfind hrevoked)
  rcases Config.of_put hj with ⟨hji, heq⟩ | ⟨hji, hj'⟩ <;>
    rcases Config.of_put hk with ⟨hki, heq'⟩ | ⟨hki, hk'⟩
  · rw [hji, hki]
  · cases heq
    rcases hmoved hq with hold | hnone
    · exact absurd (h.alone hk' hi hr hold) hki
    · exact absurd ⟨k, r, hk', hr⟩ hnone
  · cases heq'
    rcases hmoved hr with hold | hnone
    · exact absurd (h.alone hj' hi hq hold) hji
    · exact absurd ⟨j, q, hj', hq⟩ hnone
  · exact h.alone hj' hk' hq hr

/-- No request has a token once it has been saved as replaced. -/
theorem SingleUse.not_has (h : SingleUse tr c) (hi : c.threads i = some p) {id : Uuid}
    (hp : p.Has id) (hfree : p'.Free) : ¬ (c.put db' i (some p')).InFlight (·.Has id) := by
  intro hin
  rcases Config.inFlight_put.mp hin with hp' | ⟨j, q, hne, hj, hq⟩
  · exact hfree.not_has id hp'
  · exact hne (h.alone hj hi hq hp)

theorem SingleUse.once_call (h : SingleUse tr c) (hi : c.threads i = some p)
    (hs : TokenStep env p p' c.db db') (id : Uuid) :
    rotations id (.called i p c.db :: tr) = 0 ∨ rotations id (.called i p c.db :: tr) = 1 ∧
      ¬ (c.put db' i (some p')).InFlight (·.Has id) ∧
      ∃ row, db'.refreshTokens.get? id = some row ∧ row.revoked = true := by
  rw [rotations_cons]
  by_cases hreplaces : p.Replaces id
  · have hzero : rotations id tr = 0 := by
      rcases h.once id with hzero | ⟨-, hnot, -⟩
      · exact hzero
      · exact absurd ⟨i, p, hi, Or.inr hreplaces⟩ hnot
    obtain ⟨hfree, hrow⟩ := hs.of_replaces hreplaces
    rw [if_pos (rotated_iff.mpr hreplaces), hzero]
    exact Or.inr ⟨rfl, h.not_has hi (Or.inr hreplaces) hfree, hrow⟩
  · rw [if_neg fun hr => hreplaces (rotated_iff.mp hr)]
    rcases h.once id with hzero | ⟨hone, hnot, row, hget, hrevoked⟩
    · exact Or.inl hzero
    · obtain ⟨row', hget', -, -, hmono⟩ := hs.keeps (h.known i p hi) hget
      refine Or.inr ⟨hone, fun hin => ?_, row', hget', hmono hrevoked⟩
      rcases Config.inFlight_put.mp hin with hp' | ⟨j, q, -, hj, hq⟩
      · rcases hs.has_of hp' with ⟨hold, -⟩ | ⟨record, _, _, _, _, -, hfalse, hrecord, -, -⟩
        · exact hnot ⟨i, p, hi, hold⟩
        · -- a revoked token is not found unrevoked
          rw [hget] at hrecord
          cases hrecord
          rw [hrevoked] at hfalse
          cases hfalse
      · exact hnot ⟨j, q, hj, hq⟩

/-- A token that was stored before a call and is live after it was live before it. -/
theorem SingleUse.live_of (h : SingleUse tr c) (hi : c.threads i = some p)
    (hs : TokenStep env p p' c.db db') {familyId id : Uuid}
    (hlive : Live (c.put db' i (some p')) familyId id)
    (hold : c.db.refreshTokens.get? id ≠ none) : Live c familyId id := by
  by_cases hreplaces : p.Replaces id
  · -- it has just been revoked, and no rotation has it
    exfalso
    obtain ⟨hfree, row, hget, hrevoked⟩ := hs.of_replaces hreplaces
    obtain ⟨row', hget', -, -, hfalse | ⟨j, q, hj, hq⟩⟩ := hlive
    · rw [show row' = row from Option.some.inj (hget'.symm.trans hget), hrevoked] at hfalse
      cases hfalse
    · exact h.not_has hi (Or.inr hreplaces) hfree ⟨j, q, hj, Or.inl hq⟩
  · refine hlive.of_step (fun row' hget' => ?_) (fun hin => ?_) fun row hget hin => ?_
    · rcases hs.row_of (h.known i p hi) hget' with hrow | ⟨_, _, _, -, -, hnone, -⟩
      · exact hrow
      · exact absurd hnone hold
    · exact Config.inFlight_of_put hi hin fun hp => absurd hp hreplaces
    · rcases Config.inFlight_put.mp hin with hp' | ⟨j, q, -, hj, hq⟩
      · rcases hs.has_of (Or.inl hp') with ⟨-, hrot⟩ | ⟨record, _, _, _, _, -, hfalse, hrecord, -, -⟩
        · exact Or.inr ⟨i, p, hi, hrot hp'⟩
        · rw [hget] at hrecord
          cases hrecord
          exact Or.inl hfalse
      · exact Or.inr ⟨j, q, hj, hq⟩

/-- **The token a call inserts is the only live one of its family.** -/
theorem SingleUse.live_inserted (h : SingleUse tr c) {o : Issuance} {accessToken : String} {now : ℤ}
    (hi : c.threads i = some (.inserting o accessToken now))
    (hs : TokenStep env (.inserting o accessToken now) (.issued env o accessToken now) c.db db')
    (ha : Apart c (.called i (.inserting o accessToken now) c.db)) {y : Uuid}
    (hlive : Live (c.put db' i (some (.issued env o accessToken now))) o.origin.familyId y)
    (hold : c.db.refreshTokens.get? y ≠ none) : False := by
  have hbefore := h.live_of hi hs hlive hold
  obtain ⟨claims, origin, ctx, g⟩ := o
  cases origin with
  | login familyId =>
    obtain ⟨row, hget, hfamily, -⟩ := hbefore
    exact ha row (Table.mem_of_get? hget).1 hfamily
  | rotation record =>
    -- the token being rotated was the live one, and is now being replaced
    have hrot : Phase.Rotates record.id
        (.inserting ⟨claims, .rotation record, ctx, g⟩ accessToken now) := ⟨record, rfl, rfl⟩
    have hrecord : Live c record.familyId record.id := by
      obtain ⟨row, hget, hfamily, -⟩ := h.known i _ hi record rfl
      refine ⟨row, hget, hfamily, ?_, Or.inr ⟨i, _, hi, hrot⟩⟩
      rintro ⟨j, q, hj, hq⟩
      have hji : j = i := h.alone hj hi (Or.inr hq) (Or.inl hrot)
      subst hji
      rw [hi] at hj
      cases hj
      obtain ⟨_, hr, -⟩ := hq
      cases hr
    have hy : y = record.id := h.live hbefore hrecord
    obtain ⟨row, -, -, hnot, -⟩ := hlive
    exact hnot (Config.inFlight_put.mpr (Or.inl ⟨record, rfl, hy.symm⟩))

theorem SingleUse.live_call (h : SingleUse tr c) (hi : c.threads i = some p)
    (hs : TokenStep env p p' c.db db') (ha : Apart c (.called i p c.db)) {familyId x y : Uuid}
    (hx : Live (c.put db' i (some p')) familyId x) (hy : Live (c.put db' i (some p')) familyId y) :
    x = y := by
  -- a live token is one that was live, or the one that has just been inserted
  have hcases : ∀ {z}, Live (c.put db' i (some p')) familyId z → Live c familyId z ∨
      ∃ o accessToken now, p = .inserting o accessToken now ∧
        p' = .issued env o accessToken now ∧ z = o.g.tokenId ∧ familyId = o.origin.familyId ∧
        c.db.refreshTokens.get? z = none := by
    intro z hz
    by_cases hold : c.db.refreshTokens.get? z = none
    · obtain ⟨row', hget', hfamily, -⟩ := hz
      rcases hs.row_of (h.known i p hi) hget' with
        ⟨row, hget, -⟩ | ⟨o, accessToken, now, hp, hp', -, hid, hrow⟩
      · rw [hold] at hget
        cases hget
      · exact Or.inr ⟨o, accessToken, now, hp, hp', hid, by rw [← hfamily, hrow]; rfl, hold⟩
    · exact Or.inl (h.live_of hi hs hz hold)
  have hstored : ∀ {z}, Live c familyId z → c.db.refreshTokens.get? z ≠ none := by
    rintro z ⟨row, hget, -⟩ hnone
    rw [hget] at hnone
    cases hnone
  rcases hcases hx with hx' | ⟨o, a, now, hp, hp', hxid, hfam, -⟩ <;>
    rcases hcases hy with hy' | ⟨o₂, a₂, now₂, hp₂, hp₂', hyid, hfam₂, -⟩
  · exact h.live hx' hy'
  · subst hp₂ hp₂' hfam₂
    exact (h.live_inserted hi hs ha hx (hstored hx')).elim
  · subst hp hp' hfam
    exact (h.live_inserted hi hs ha hy (hstored hy')).elim
  · subst hp
    cases hp₂
    rw [hxid, hyid]

/-- **Every step keeps tokens single-use.** -/
theorem SingleUse.step (h : SingleUse tr c) {e : AuthEvent} {c' : AuthConfig}
    (hs : (system env).Step c e c') (ha : Apart c e) : SingleUse (e :: tr) c' := by
  have hevent := token_event hs
  have hknown := h.known.step hevent
  cases hevent with
  | @other e c' he htable hthreads hback =>
    have hin : ∀ {A : Phase → Prop}, (∀ q, q.Free → ¬ A q) → (c'.InFlight A ↔ c.InFlight A) := by
      refine fun hA => ⟨fun ⟨j, q, hj, hq⟩ => ?_, fun ⟨j, q, hj, hq⟩ => ?_⟩
      · exact ⟨j, q, (hthreads j q hj).resolve_right fun hfree => hA q hfree hq, hq⟩
      · exact ⟨j, q, (hback j q hj).resolve_right fun hfree => hA q hfree hq, hq⟩
    have hhas : ∀ id (q : Phase), q.Free → ¬ q.Has id := fun id q hfree => hfree.not_has id
    refine ⟨hknown, fun hj hk hq hr => ?_, fun id => ?_, fun hx hy => ?_⟩
    · exact h.alone ((hthreads _ _ hj).resolve_right fun hfree => hhas _ _ hfree hq)
        ((hthreads _ _ hk).resolve_right fun hfree => hhas _ _ hfree hr) hq hr
    · have hno : rotated id e = false := by
        cases e with
        | called i p db => exact absurd rfl (he i p db)
        | _ => rfl
      rw [rotations_cons, hno, htable, hin (hhas id)]
      exact h.once id
    · have hlive : ∀ {familyId z}, Live c' familyId z → Live c familyId z := by
        intro familyId z hz
        refine hz.of_step (fun row' hget => ⟨row', htable ▸ hget, rfl, id⟩)
          (hin fun q hfree hq => hhas z q hfree (Or.inr hq)).mpr fun row _ hrot =>
            Or.inr ((hin fun q hfree hq => hhas z q hfree (Or.inl hq)).mp hrot)
      exact h.live (hlive hx) (hlive hy)
  | @call i p p' db' hi hcall =>
    exact ⟨hknown, fun hj hk hq hr => h.alone_call hi hcall ha hj hk hq hr,
      fun id => h.once_call hi hcall id, fun hx hy => h.live_call hi hcall ha hx hy⟩

end Step

/-! ### Every run -/

/-- A family has one unrevoked token at most. -/
def OneUnrevoked (db : AuthDb) : Prop := ∀ s ∈ db.refreshTokens.rows, ∀ t ∈ db.refreshTokens.rows,
  s.familyId = t.familyId → s.revoked = false → t.revoked = false → s = t

theorem SingleUse.idle {db : AuthDb} (h : OneUnrevoked db) : SingleUse [] (.idle db) where
  known i p hi := by cases hi
  alone hi := by cases hi
  once id := Or.inl rfl
  live := by
    rintro familyId x y ⟨s, hs, hsf, -, hsr⟩ ⟨t, ht, htf, -, htr⟩
    have hfalse : ∀ {r : RefreshToken} {z}, r.revoked = false ∨
        (Config.idle db : AuthConfig).InFlight (·.Rotates z) → r.revoked = false := by
      rintro r z (hr | ⟨i, p, hi, -⟩)
      · exact hr
      · cases hi
    have heq := h s (Table.mem_of_get? hs).1 t (Table.mem_of_get? ht).1 (hsf.trans htf.symm)
      (hfalse hsr) (hfalse htr)
    rw [← Table.key_of_get? hs, ← Table.key_of_get? ht, heq]

/-- **Rotations that stay apart use a token once**, and when no request is in flight any more every
family has one unrevoked token at most. -/
theorem rotation_single_use {env : Env} {db : AuthDb} {tr : List AuthEvent} {c : AuthConfig}
    (h₀ : OneUnrevoked db) (h : (system env).Run Apart (.idle db) tr c) :
    (∀ id, rotations id tr ≤ 1) ∧ (c.Quiet → OneUnrevoked c.db) := by
  have hinv : SingleUse tr c := h.invariant (SingleUse.idle h₀) fun hI hs ha => hI.step hs ha
  refine ⟨fun id => ?_, fun hquiet s hs t ht hfamily hsr htr => ?_⟩
  · rcases hinv.once id with hzero | ⟨hone, -⟩ <;> omega
  · have hnone : ∀ {A : Phase → Prop}, ¬ c.InFlight A := by
      rintro A ⟨i, p, hi, -⟩
      rw [hquiet i] at hi
      cases hi
    have hlive : ∀ r ∈ c.db.refreshTokens.rows, r.revoked = false → Live c r.familyId r.id :=
      fun r hr hfalse => ⟨r, Table.get?_of_mem hr, rfl, hnone, Or.inl hfalse⟩
    have hkey : s.id = t.id := hinv.live (hlive s hs hsr) (hfamily ▸ hlive t ht htr)
    exact Table.eq_of_key_eq hs ht hkey

instance (db : AuthDb) : Decidable (OneUnrevoked db) :=
  inferInstanceAs (Decidable (∀ s ∈ db.refreshTokens.rows, ∀ t ∈ db.refreshTokens.rows,
    s.familyId = t.familyId → s.revoked = false → t.revoked = false → s = t))

/-- With one request at a time, no token is in another one. -/
def loadsAlone (c : AuthConfig) : AuthEvent → Bool
  | .called _ (.loading _ _ _ _) _ => (c.threads 0).all fun p => p.token.isNone
  | .called _ (.inserting ⟨_, .login _, _, _⟩ _ _) _ => false
  | _ => true

theorem apart_of_loadsAlone {c : AuthConfig} {e : AuthEvent}
    (hn : ∀ i, 1 ≤ i → c.threads i = none) (h : loadsAlone c e = true) : Apart c e := by
  unfold Apart
  split
  · rintro record - - ⟨i, p, hi, hp⟩
    have hi0 : i = 0 := by
      by_contra hne
      rw [hn i (by omega)] at hi
      cases hi
    subst hi0
    have hnone : p.token = none := by simpa [loadsAlone, hi] using h
    rcases hp with ⟨_, hr, -⟩ | ⟨_, hr, -⟩
    · rw [Phase.token_of_rotates hr] at hnone
      cases hnone
    · rw [Phase.token_of_replaces hr] at hnone
      cases hnone
  · cases h
  · trivial

/-- Two refreshes, one after the other, the second with the token of the first. -/
theorem rotation_single_use_twice : ∃ tr c, (system plainEnv).Run Apart (.idle oneLogin) tr c ∧
    rotations 2 tr = 1 ∧ rotations 4 tr = 1 ∧ (∀ id, rotations id tr ≤ 1) ∧ OneUnrevoked c.db := by
  obtain ⟨tr, c, hrun, hcheck, hn⟩ := System.exists_run (S := system plainEnv) loadsAlone 1
    (fun _ _ => apart_of_loadsAlone) oneLogin
    (.arrive 0 (refreshFirst 4) :: List.replicate 10 (.run 0) ++
      .arrive 0 (.refresh ⟨refreshTokenText 4 "next", noContext, ⟨0, 5, "last", "salt", ""⟩⟩) ::
        List.replicate 10 (.run 0))
    (fun x => x.2.allOver 1 && rotations 2 x.1 == 1 && rotations 4 x.1 == 1)
    (by decide) (by decide +kernel)
  simp only [Bool.and_eq_true, beq_iff_eq] at hcheck
  obtain ⟨⟨hover, h2⟩, h4⟩ := hcheck
  obtain ⟨honce, hone⟩ := rotation_single_use (by decide) hrun
  exact ⟨tr, c, hrun, h2, h4, honce, hone (Config.quiet_of_allOver hover hn)⟩

/-- The requests are refreshes. -/
def isRefresh : AuthEvent → Bool
  | .arrived _ (.refresh _) => true
  | .arrived _ _ => false
  | _ => true

/-- **Two requests present one token at the same time**: both load it before either has saved it, so
it is rotated twice, and its family is left with two unrevoked tokens. -/
theorem rotation_single_use_fails : OneUnrevoked oneLogin ∧
    ∃ tr c, (system plainEnv).Run (fun _ e => isRefresh e = true) (.idle oneLogin) tr c ∧
      c.Quiet ∧ rotations 2 tr = 2 ∧ ¬ OneUnrevoked c.db := by
  refine ⟨by decide, ?_⟩
  obtain ⟨tr, c, hrun, hcheck, hn⟩ := System.exists_run (S := system plainEnv)
    (fun _ e => isRefresh e) 2 (fun _ _ _ h => h) oneLogin
    ([.arrive 0 (refreshFirst 4), .arrive 1 (refreshFirst 5)] ++
      (List.replicate 10 [.run 0, .run 1]).flatten)
    (fun x => x.2.allOver 2 && rotations 2 x.1 == 2 && !decide (OneUnrevoked x.2.db))
    (by decide) (by decide +kernel)
  simp only [Bool.and_eq_true, beq_iff_eq, Bool.not_eq_true', decide_eq_false_iff_not] at hcheck
  obtain ⟨⟨hover, htwice⟩, hmany⟩ := hcheck
  exact ⟨tr, c, hrun, Config.quiet_of_allOver hover hn, htwice, hmany⟩

end GameClub.Auth
