import GameClub.Auth.Rotation

/-! # Revoking many tokens

`revokeFamily` and `revokeAllForUser` revoke the tokens that are stored when they run. A rotation that
has found one of them unrevoked before may store its successor after.

* `revocation_final`: where no rotation is in between, no token that was stored then is followed by
  another, and all of them stay revoked.
* `revocation_final_fails`: a rotation that is in between. -/

namespace GameClub.Auth

open GameClub.Lib GameClub.Lib.Interleave GameClub.Common

/-- The call stores the token `y` as the one that follows `x`. -/
def issues (x y : Uuid) : AuthEvent → Bool
  | .called _ (.inserting ⟨_, .rotation record, _, g⟩ _ _) _ => record.id = x && g.tokenId = y
  | _ => false

/-- **A token and those issued by rotating it**, and by rotating these, in what has happened. -/
def Descends (tr : List AuthEvent) : Uuid → Uuid → Prop :=
  Relation.ReflTransGen fun x y => ∃ e ∈ tr, issues x y e = true

/-- **Many tokens are revoked only while no rotation is between finding one of them unrevoked and
storing the next.** -/
def Clear (c : AuthConfig) : AuthEvent → Prop
  | .called _ p _ => ∀ criteria, p.revokes = some criteria →
      ¬ c.InFlight fun q => ∃ record, q.rotates = some record ∧ criteria record = true
  | _ => True

/-- A request that stores the successor of a token is rotating it. -/
theorem rotates_of_issues {x y : Uuid} {i : ℕ} {p : Phase} {db : AuthDb}
    (h : issues x y (.called i p db) = true) : p.Rotates x := by
  unfold issues at h
  split at h
  · next heq =>
    cases heq
    simp only [Bool.and_eq_true, decide_eq_true_eq] at h
    exact ⟨_, rfl, h.1⟩
  · cases h

/-- Whether a token is revoked is decided by its family or by its account. -/
theorem revokes_congr {p : Phase} {criteria : RefreshToken → Bool} {s t : RefreshToken}
    (hp : p.revokes = some criteria) (hfamily : s.familyId = t.familyId)
    (huser : s.userId = t.userId) : criteria s = criteria t := by
  cases p with
  | revokingFamily record =>
    cases hp
    simp only [hfamily]
  | revokingAll q user =>
    cases hp
    simp only [huser]
  | _ => cases hp

/-- **A token is gone for good**: it is revoked, and no rotation has found it unrevoked. -/
structure Gone (id : Uuid) (c : AuthConfig) : Prop where
  known : AllKnown c
  revoked : ∃ row, c.db.refreshTokens.get? id = some row ∧ row.revoked = true
  idle : ¬ c.InFlight (·.Rotates id)

section

variable {env : Env} {c c' : AuthConfig} {e : AuthEvent} {id : Uuid}

/-- Every step leaves it so. -/
theorem Gone.step (h : Gone id c) (hs : (system env).Step c e c') : Gone id c' := by
  have hevent := token_event hs
  have hknown := h.known.step hevent
  obtain ⟨row, hget, hrevoked⟩ := h.revoked
  cases hevent with
  | other _ htable hthreads =>
    refine ⟨hknown, ⟨row, htable ▸ hget, hrevoked⟩, fun ⟨j, q, hj, hq⟩ => ?_⟩
    rcases hthreads j q hj with hold | hfree
    · exact h.idle ⟨j, q, hold, hq⟩
    · exact hfree.not_has id (Or.inl hq)
  | @call i p p' db' hi hcall =>
    obtain ⟨row', hget', -, -, hmono⟩ := hcall.keeps (h.known i p hi) hget
    refine ⟨hknown, ⟨row', hget', hmono hrevoked⟩, fun hin => ?_⟩
    rcases Config.inFlight_put.mp hin with hp' | ⟨j, q, -, hj, hq⟩
    · rcases hcall.has_of (Or.inl hp') with ⟨-, hrot⟩ | ⟨record, _, _, _, _, -, hfalse, hrecord, -⟩
      · exact h.idle ⟨i, p, hi, hrot hp'⟩
      · -- it is not found unrevoked
        rw [hget] at hrecord
        cases hrecord
        rw [hrevoked] at hfalse
        cases hfalse
    · exact h.idle ⟨j, q, hj, hq⟩

/-- No step stores a successor of it. -/
theorem Gone.not_issues (h : Gone id c) (hs : (system env).Step c e c') (y : Uuid) :
    issues id y e ≠ true := by
  intro hissues
  cases hs with
  | call hi hv => exact h.idle ⟨_, _, hi, rotates_of_issues hissues⟩
  | _ => cases hissues

/-- **A revocation with no rotation in between** leaves its tokens gone for good. -/
theorem gone_of_revoked (hknown : AllKnown c) (hs : (system env).Step c e c') (ha : Clear c e)
    {i : ℕ} {p : Phase} {db : AuthDb} (he : e = .called i p db)
    {criteria : RefreshToken → Bool} (hp : p.revokes = some criteria) {t : RefreshToken}
    (ht : t ∈ db.refreshTokens.rows) (hc : criteria t = true) : Gone t.id c' := by
  have hevent := token_event hs
  subst he
  have hknown' := hknown.step hevent
  cases hevent with
  | other hno => exact absurd rfl (hno i p db)
  | @call _ _ p' db' hi hcall =>
    obtain ⟨hfree, htable⟩ := hcall.of_revokes hp
    refine ⟨hknown', ⟨t.updated criteria, ?_, ?_⟩, fun hin => ?_⟩
    · show db'.refreshTokens.get? t.id = _
      rw [htable, Table.get?_mapRows, Table.get?_of_mem ht]
      rfl
    · unfold RefreshToken.updated
      rw [if_pos hc]
    · rcases Config.inFlight_put.mp hin with hrot | ⟨j, q, -, hj, record, hrot, hid⟩
      · exact hfree.not_has t.id (Or.inl hrot)
      · -- the rotation would have a token of the family, or of the account
        obtain ⟨row, hget, hfamily, huser⟩ := hknown j q hj record (Phase.token_of_rotates hrot)
        rw [hid, Table.get?_of_mem ht] at hget
        cases hget
        refine ha criteria hp ⟨j, q, hj, record, hrot, ?_⟩
        rw [← revokes_congr hp hfamily huser]
        exact hc

end

/-- **Revocation is final, where no rotation is in between**: a token that was stored when
`revokeFamily` or `revokeAllForUser` ran on it, and whatever descends from it, is revoked, and no
request rotates it any more. -/
theorem revocation_final {env : Env} {db db' : AuthDb} {earlier later : List AuthEvent}
    {c : AuthConfig} {i : ℕ} {p : Phase} {criteria : RefreshToken → Bool} {t : RefreshToken}
    {x : Uuid} (h : (system env).Run Clear (.idle db) (later ++ .called i p db' :: earlier) c)
    (hp : p.revokes = some criteria) (ht : t ∈ db'.refreshTokens.rows) (hc : criteria t = true)
    (hx : Descends later t.id x) :
    (∃ row, c.db.refreshTokens.get? x = some row ∧ row.revoked = true) ∧
      ∀ e ∈ later, ∀ y, issues x y e ≠ true := by
  obtain ⟨c₁, c₂, hearlier, hs, ha, hlater⟩ := h.split
  have hknown : AllKnown c₁ := hearlier.invariant (I := fun _ c => AllKnown c)
    (fun i p hi => by cases hi) fun hI hs _ => hI.step (token_event hs)
  have hgone := gone_of_revoked hknown hs ha rfl hp ht hc
  obtain ⟨hfinal, hnone⟩ := hlater.invariant
    (I := fun tr c => Gone t.id c ∧ ∀ e ∈ tr, ∀ y, issues t.id y e ≠ true) ⟨hgone, by simp⟩
    fun {tr c e c'} hI hs _ => ⟨hI.1.step hs, fun e' he' y => by
      rcases List.mem_cons.mp he' with rfl | hmem
      · exact hI.1.not_issues hs y
      · exact hI.2 e' hmem y⟩
  have heq : x = t.id := by
    rcases Relation.ReflTransGen.cases_head hx with heq | ⟨y, ⟨e, he, hissues⟩, -⟩
    · exact heq.symm
    · exact absurd hissues (hnone e he y)
  rw [heq]
  exact ⟨hfinal.revoked, hnone⟩

/-! ### With and without a rotation in between -/

/-- With one request at a time, none is rotating a token when many are revoked. -/
def revokesAlone (c : AuthConfig) : AuthEvent → Bool
  | .called _ p _ => p.revokes.isNone || (c.threads 0).all fun q => q.rotates.isNone
  | _ => true

theorem clear_of_revokesAlone {c : AuthConfig} {e : AuthEvent}
    (hn : ∀ i, 1 ≤ i → c.threads i = none) (h : revokesAlone c e = true) : Clear c e := by
  unfold Clear
  split
  · rintro criteria hp ⟨i, q, hi, record, hrot, -⟩
    have hi0 : i = 0 := by
      by_contra hne
      rw [hn i (by omega)] at hi
      cases hi
    subst hi0
    simp [revokesAlone, hp, hi, hrot] at h
  · trivial

/-- The request revokes a family. -/
def ofFamily : Phase → Bool
  | .revokingFamily _ => true
  | _ => false

/-- The request revokes what an account has. -/
def ofAccount : Phase → Bool
  | .revokingAll _ _ => true
  | _ => false

/-- The event before the last `n` revokes many tokens, the stored token `id` among them. -/
def revokesAt (kind : Phase → Bool) (n : ℕ) (id : Uuid) (tr : List AuthEvent) : Bool :=
  match tr.drop n with
  | .called _ p db :: _ => kind p && p.revokes.any fun criteria =>
      db.refreshTokens.rows.any fun t => t.id == id && criteria t
  | _ => false

theorem of_revokesAt {kind : Phase → Bool} {n : ℕ} {id : Uuid} {tr : List AuthEvent}
    (h : revokesAt kind n id tr = true) :
    ∃ i p db earlier criteria t, tr.drop n = .called i p db :: earlier ∧ kind p = true ∧
      p.revokes = some criteria ∧ t ∈ db.refreshTokens.rows ∧ t.id = id ∧ criteria t = true := by
  unfold revokesAt at h
  split at h
  · next i p db earlier htr =>
    rw [Bool.and_eq_true] at h
    obtain ⟨criteria, hp, hany⟩ := (Option.any_eq_true _ _).mp h.2
    obtain ⟨t, ht, hboth⟩ := List.any_eq_true.mp hany
    simp only [Bool.and_eq_true, beq_iff_eq] at hboth
    exact ⟨i, p, db, earlier, criteria, t, htr, h.1, hp, ht, hboth⟩
  · cases h

/-- A refresh with the token that the first refresh has issued. -/
def refreshNext (newId : Uuid) : Request :=
  .refresh ⟨refreshTokenText 4 "next", noContext, ⟨0, newId, "last", "salt", ""⟩⟩

/-- The first token is used again after a refresh; the family is revoked, and the token that the
refresh has issued is of no use any more. -/
theorem revocation_final_reused : ∃ later i p db' earlier c criteria, (system plainEnv).Run Clear
    (.idle oneLogin) (later ++ .called i p db' :: earlier) c ∧ p.revokes = some criteria ∧
    ∃ t ∈ db'.refreshTokens.rows, t.id = 4 ∧ criteria t = true ∧
      (∃ row, c.db.refreshTokens.get? 4 = some row ∧ row.revoked = true) ∧
      ∀ e ∈ later, ∀ y, issues 4 y e ≠ true := by
  obtain ⟨tr, c, hrun, hcheck, -⟩ := System.exists_run (S := system plainEnv) revokesAlone 1
    (fun _ _ => clear_of_revokesAlone) oneLogin
    (.arrive 0 (refreshFirst 4) :: List.replicate 10 (.run 0) ++
      .arrive 0 (refreshFirst 6) :: List.replicate 6 (.run 0) ++
      .arrive 0 (refreshNext 5) :: List.replicate 6 (.run 0))
    (fun x => revokesAt ofFamily 8 4 x.1) (by decide) (by decide +kernel)
  obtain ⟨i, p, db', earlier, criteria, t, htr, -, hp, ht, hid, hc⟩ := of_revokesAt hcheck
  rw [← List.take_append_drop 8 tr, htr] at hrun
  have hfinal := revocation_final hrun hp ht hc .refl
  rw [hid] at hfinal
  exact ⟨_, i, p, db', earlier, c, criteria, hrun, hp, t, ht, hid, hc, hfinal⟩

/-- The requests are refreshes and password changes. -/
def isRefreshOrChange : AuthEvent → Bool
  | .arrived _ (.refresh _) => true
  | .arrived _ (.changePassword _) => true
  | .arrived _ _ => false
  | _ => true

/-- A run in which the token 4 is revoked with others, and is followed by an unrevoked token 5. -/
def Outlived (kind : Phase → Bool) : Prop := ∃ later i p db' earlier c criteria,
    (system plainEnv).Run (fun _ e => isRefreshOrChange e = true) (.idle oneLogin)
    (later ++ .called i p db' :: earlier) c ∧ c.Quiet ∧ kind p = true ∧
    p.revokes = some criteria ∧ (∃ t ∈ db'.refreshTokens.rows, t.id = 4 ∧ criteria t = true) ∧
    Descends later 4 5 ∧ ∃ row, c.db.refreshTokens.get? 5 = some row ∧ row.revoked = false

/-- The second refresh finds the token 4 unrevoked; the request `q` revokes it in `steps` steps; the
second refresh stores the token 5. -/
def overtake (q : Request) (steps : ℕ) : List (System.Action Request) :=
  .arrive 0 (refreshFirst 4) :: List.replicate 10 (.run 0) ++
    .arrive 1 (refreshNext 5) :: List.replicate 7 (.run 1) ++
    .arrive 2 q :: List.replicate steps (.run 2) ++ List.replicate 3 (.run 1)

theorem outlived (q : Request) (steps n : ℕ) (kind : Phase → Bool)
    (hacts : ∀ a ∈ overtake q steps, ∀ i ∈ System.Action.request a, i < 3)
    (h : ((system plainEnv).perform (fun _ e => isRefreshOrChange e) (overtake q steps)
      ([], .idle oneLogin)).any (fun x => x.2.allOver 3 && revokesAt kind n 4 x.1 &&
        (x.1.take n).any (issues 4 5) && (x.2.db.refreshTokens.get? 5).any (!·.revoked)) = true) :
    Outlived kind := by
  obtain ⟨tr, c, hrun, hcheck, hn⟩ := System.exists_run _ 3 (fun _ _ _ he => he) _ _ _ hacts h
  simp only [Bool.and_eq_true] at hcheck
  obtain ⟨⟨⟨hover, hrevokes⟩, hissues⟩, hrow⟩ := hcheck
  obtain ⟨i, p, db', earlier, criteria, t, htr, hkind, hp, ht, hid, hc⟩ := of_revokesAt hrevokes
  obtain ⟨row, hget, hfalse⟩ := (Option.any_eq_true _ _).mp hrow
  obtain ⟨e, he, hstep⟩ := List.any_eq_true.mp hissues
  rw [← List.take_append_drop n tr, htr] at hrun
  exact ⟨_, i, p, db', earlier, c, criteria, hrun, Config.quiet_of_allOver hover hn, hkind, hp,
    ⟨t, ht, hid, hc⟩, .single ⟨e, he, hstep⟩, row, hget, by simpa using hfalse⟩

/-- A change of the cashier's password. -/
def newPassword : Request :=
  .changePassword ⟨1, newPasswordDto, noContext, "salt"⟩

/-- **A token is revoked while it is being rotated**: neither the reuse of an older token of its
family nor a change of the password keeps its successor from being stored, unrevoked. -/
theorem revocation_final_fails : Outlived ofFamily ∧ Outlived ofAccount :=
  ⟨outlived (refreshFirst 6) 6 4 ofFamily (by decide) (by decide +kernel),
    outlived newPassword 7 5 ofAccount (by decide) (by decide +kernel)⟩

end GameClub.Auth
