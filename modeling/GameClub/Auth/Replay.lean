import GameClub.Auth.Chain

/-! # Replays of a revoked token

A token that is presented again after it was revoked was stolen, and its family is revoked. `refresh`
first reads the claims of the account, though, and gives up when the account is not an active one.

* `Dead`: no token of a family is unrevoked. `sequence_dead`: a dead family stays dead.
* `replay_revokes_iff`: a replay leaves its family dead for good exactly when the account is active,
  or when the family was dead before.
* `replay_ignored`: a replay while the account is disabled. -/

namespace GameClub.Auth

open GameClub.Lib GameClub.Common

/-- **No token of the family is unrevoked.** -/
def Dead (t : Table RefreshToken.id) (familyId : Uuid) : Prop :=
  ∀ x ∈ t.rows, x.familyId = familyId → x.revoked = true

instance (t : Table RefreshToken.id) (familyId : Uuid) : Decidable (Dead t familyId) :=
  inferInstanceAs (Decidable (∀ x ∈ t.rows, x.familyId = familyId → x.revoked = true))

/-! ### Dead families -/

section Dead

variable {env : Env} {t t' : Table RefreshToken.id} {db db' : AuthDb} {familyId k : Uuid}
  {x : RefreshToken}

/-- Only an unrevoked token is replaced, and a login starts a family of its own. -/
theorem effect_dead (h : Effect t t') (hx : t.get? k = some x) (hfamily : x.familyId = familyId)
    (hdead : Dead t familyId) : Dead t' familyId := by
  cases h with
  | same => exact hdead
  | @issued row hlive hlast hnew hfresh =>
    intro y hy hyf
    rcases (Table.mem_insert hnew).mp hy with hold | rfl
    · exact hdead y hold hyf
    · exact absurd (hfamily.trans hyf.symm) (hfresh x (Table.mem_of_get? hx).1)
  | @rotated record row hget hrecord hlive hlast hnew hrow =>
    intro y hy hyf
    rcases Table.mem_of_mem_set hy with rfl | hmem
    · rfl
    · rcases (Table.mem_insert hnew).mp hmem with hold | rfl
      · exact hdead y hold hyf
      · have hrevoked := hdead record (Table.mem_of_get? hget).1 (hrow.symm.trans hyf)
        rw [hrecord] at hrevoked
        cases hrevoked
  | revoked criteria =>
    intro y hy hyf
    obtain ⟨z, hz, rfl⟩ := Table.mem_mapRows.mp hy
    obtain ⟨hzf, -, hrevoked⟩ := updated_fields criteria z
    exact hrevoked (hdead z hz (hzf.symm.trans hyf))

/-- **A dead family stays dead.** -/
theorem sequence_dead (h : Sequence env db db') (hx : db.refreshTokens.get? k = some x)
    (hdead : Dead db.refreshTokens x.familyId) : Dead db'.refreshTokens x.familyId := by
  induction h with
  | refl => exact hdead
  | tail hseq hop hfresh ih =>
    obtain ⟨y, hy, hfamily, -⟩ := sequence_keeps hseq hx
    exact effect_dead (performs_effect hop hfresh) hy hfamily ih

theorem dead_revoke (db : AuthDb) (familyId : Uuid) :
    Dead (db.revoke fun t => t.familyId = familyId).refreshTokens familyId := by
  intro y hy hyf
  obtain ⟨z, hz, rfl⟩ := List.mem_map.mp hy
  have hzf := (updated_fields (fun t => decide (t.familyId = familyId)) z).1.symm.trans hyf
  simp [RefreshToken.updated, hzf]

end Dead

/-! ### Replays -/

section Replay

variable {env : Env} {presented : String} {db db' : AuthDb} {record : RefreshToken}

/-- The account is there and active. -/
def AccountActive (db : AuthDb) (userId : Uuid) : Prop :=
  (db.findUser userId).any User.isActive = true

/-- The token whose secret is verified is the one whose account the claims are of. -/
theorem findToken_of_loaded (h : db.loaded env presented = some record) :
    db.findToken ((splitDot presented).headD "") = .ok (some record) := by
  unfold AuthDb.loaded parts at h
  split at h
  · cases h
  · next id secret hparts =>
    have hhead : (splitDot presented).headD "" = id := by
      split at hparts
      · next id' secret' rest hsplit =>
        split_ifs at hparts
        cases hparts
        rw [hsplit]
        rfl
      · cases hparts
    rw [hhead]
    split at h
    · next found hfound =>
      split_ifs at h
      cases h
      exact hfound
    · cases h

theorem claimed_of_loaded (h : db.loaded env presented = some record) :
    (∃ claims, db.claimed presented = some claims) ↔ AccountActive db record.userId := by
  rw [AuthDb.claimed_record (findToken_of_loaded h)]
  unfold AccountActive
  cases db.findUser record.userId with
  | none => simp
  | some user => cases hactive : user.isActive <;> simp [hactive]

theorem loaded_empty : db.loaded env "" = none := by
  have hparts : parts "" = none := by decide +kernel
  rw [AuthDb.loaded, hparts]

/-- What a replay does: it revokes the family when the account is active, and nothing when it is
not. -/
theorem runs_replay {ctx : RequestContext} {g : Generated} {o : Except Thrown IssuedTokens}
    (hload : db.loaded env presented = some record) (hrevoked : record.revoked = true)
    (h : Runs (answers env) (refresh env presented ctx g) db o db') : (∃ e, o = .error e) ∧
      (AccountActive db record.userId ∧ db'.refreshTokens =
          (db.revoke fun t => t.familyId = record.familyId).refreshTokens ∨
        ¬ AccountActive db record.userId ∧ Same db db') := by
  rcases runs_refresh h with ⟨herr, hsame, hnone⟩ | ⟨claims, o', hclaimed, hrot, hok⟩
  · refine ⟨herr, Or.inr ⟨fun hactive => ?_, hsame⟩⟩
    obtain ⟨claims, hclaimed⟩ := (claimed_of_loaded hload).mpr hactive
    rcases hnone with rfl | hnone
    · rw [loaded_empty] at hload
      cases hload
    · rw [hclaimed] at hnone
      cases hnone
  · have hactive := (claimed_of_loaded hload).mp ⟨claims, hclaimed⟩
    cases hrot with
    | refused hunrevoked hsame =>
      rw [hunrevoked record hload] at hrevoked
      cases hrevoked
    | reused hload' _ htokens husers =>
      rw [hload] at hload'
      cases hload'
      refine ⟨?_, Or.inl ⟨hactive, htokens⟩⟩
      cases o with
      | error e => exact ⟨e, rfl⟩
      | ok t =>
        have hfalse := (hok t).mp rfl
        cases hfalse
    | rotated hload' hlive _ _ _ =>
      rw [hload] at hload'
      cases hload'
      rw [hrevoked] at hlive
      cases hlive

theorem answers_total (env : Env) (s : Stmt) (db : AuthDb) : ∃ r db', answers env s db r db' :=
  ⟨_, _, answers_exec env s db⟩

/-- **A replay leaves its family dead for good** exactly when the account is there and active, or the
family was dead before. -/
theorem replay_revokes_iff (ctx : RequestContext) (g : Generated)
    (hload : db.loaded env presented = some record) (hrevoked : record.revoked = true) :
    (∀ o db', Runs (answers env) (refresh env presented ctx g) db o db' → (∃ e, o = .error e) ∧
      ∀ db'', Sequence env db' db'' → Dead db''.refreshTokens record.familyId) ↔
    AccountActive db record.userId ∨ Dead db.refreshTokens record.familyId := by
  have hstored := AuthDb.loaded_stored hload
  constructor
  · intro h
    obtain ⟨o, db', hrun⟩ := exists_runs (answers_total env) (refresh env presented ctx g) db
    obtain ⟨-, hlater⟩ := h o db' hrun
    have hdead := hlater db' .refl
    obtain ⟨-, ⟨hactive, -⟩ | ⟨-, hsame⟩⟩ := runs_replay hload hrevoked hrun
    · exact Or.inl hactive
    · rw [hsame.tokens] at hdead
      exact Or.inr hdead
  · intro hcond o db' hrun
    obtain ⟨herr, heffect⟩ := runs_replay hload hrevoked hrun
    have hdead : Dead db'.refreshTokens record.familyId ∧
        ∃ x, db'.refreshTokens.get? record.id = some x ∧ x.familyId = record.familyId := by
      rcases heffect with ⟨-, htokens⟩ | ⟨hinactive, hsame⟩
      · rw [htokens]
        have hget := Table.get?_mapRows db.refreshTokens
          (RefreshToken.updated fun t => t.familyId = record.familyId) (RefreshToken.updated_id _)
          record.id
        rw [hstored] at hget
        exact ⟨dead_revoke db record.familyId, _, hget, (updated_fields _ record).1⟩
      · rw [hsame.tokens]
        exact ⟨hcond.resolve_left hinactive, record, hstored, rfl⟩
    obtain ⟨hdead, x, hx, hfamily⟩ := hdead
    refine ⟨herr, fun db'' hseq => ?_⟩
    rw [← hfamily] at hdead ⊢
    exact sequence_dead hseq hx hdead

end Replay

/-! ### A disabled account -/

/-- The store after a login and a refresh: the token 2 has been replaced by the token 4. -/
def refreshedOnce : AuthDb :=
  served plainEnv (refreshFirst 4) (served plainEnv (.login firstLogin) noTokens)

theorem refreshedOnce_reached : Sequence plainEnv noTokens refreshedOnce := by
  have hlogin : Sequence plainEnv noTokens (served plainEnv (.login firstLogin) noTokens) :=
    Sequence.refl.served ⟨by decide, fun t ht => by cases ht⟩
  exact hlogin.served (q := refreshFirst 4) (show (4 : ℕ) < 2 ^ 128 by decide)

/-- The token 2 as it is stored then. -/
def usedToken : RefreshToken := { firstToken with revoked := true, replacedBy := some 4 }

/-- The account is given another `isActive`. -/
def setActive (isActive : Bool) : Request :=
  .updateUser ⟨1, 0⟩ (activationDto isActive)

theorem usedToken_loaded (isActive : Bool) :
    (served plainEnv (setActive isActive) refreshedOnce).loaded plainEnv
      (refreshTokenText 2 "secret") = some usedToken := by
  cases isActive <;> decide +kernel

/-- A replay while the account is active. -/
theorem replay_revokes_active : ∃ db o db', Sequence plainEnv noTokens db ∧
    Runs (answers plainEnv)
      (refresh plainEnv (refreshTokenText 2 "secret") noContext ⟨0, 5, "", "", ""⟩) db o db' ∧
    (∃ e, o = .error e) ∧ ∀ db'', Sequence plainEnv db' db'' → Dead db''.refreshTokens 3 := by
  have hactive := refreshedOnce_reached.served (q := setActive true) trivial
  have hcond : AccountActive (served plainEnv (setActive true) refreshedOnce) usedToken.userId :=
    (by decide +kernel : (_ : Bool) = true)
  have hrevokes := (replay_revokes_iff noContext ⟨0, 5, "", "", ""⟩ (usedToken_loaded true) rfl).mpr
    (Or.inl hcond)
  have hrun := runs_serve (answers_exec plainEnv)
    (refresh plainEnv (refreshTokenText 2 "secret") noContext ⟨0, 5, "", "", ""⟩)
    (served plainEnv (setActive true) refreshedOnce)
  exact ⟨_, _, _, hactive, hrun, hrevokes _ _ hrun⟩

/-- **A replay while the account is disabled is only refused**: the token 4 stays unrevoked, and once
the account is active again it is rotated. -/
theorem replay_ignored : ∃ db o db' db'', Sequence plainEnv noTokens db ∧
    db.loaded plainEnv (refreshTokenText 2 "secret") = some usedToken ∧
    usedToken.revoked = true ∧
    Runs (answers plainEnv)
      (refresh plainEnv (refreshTokenText 2 "secret") noContext ⟨0, 5, "", "", ""⟩) db o db' ∧
    ¬ Dead db'.refreshTokens usedToken.familyId ∧ Sequence plainEnv db' db'' ∧
    (db''.refreshTokens.get? 6).isSome = true ∧ ¬ Dead db''.refreshTokens usedToken.familyId := by
  have hdisabled := refreshedOnce_reached.served (q := setActive false) trivial
  refine ⟨_, _, _, _, hdisabled, usedToken_loaded false, rfl,
    runs_serve (answers_exec plainEnv) _ _, by decide +kernel,
    (Sequence.refl.served (q := setActive true) trivial).served
      (q := .refresh ⟨refreshTokenText 4 "next", noContext, ⟨0, 6, "last", "salt", ""⟩⟩)
      (show (6 : ℕ) < 2 ^ 128 by decide), by decide +kernel, by decide +kernel⟩

end GameClub.Auth
