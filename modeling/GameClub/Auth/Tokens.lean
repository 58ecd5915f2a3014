import GameClub.Auth.Phases

/-! # What a call does to the tokens

* `TokenStep`: the ways a call changes the tokens, and the token its request is working on.
* `token_step`: every call is one of them.
* `Known`: what requests work on are stored tokens, of the family and the account they were loaded
  with. -/

namespace GameClub.Auth

open GameClub.Lib GameClub.Lib.Interleave GameClub.Common

/-! ### The token of a request -/

def Origin.record : Origin → Option RefreshToken
  | .login _ => none
  | .rotation record => some record

namespace Phase

/-- The token a request has loaded. -/
def token : Phase → Option RefreshToken
  | .verifyingSecret _ _ _ record => some record
  | .revokingFamily record => some record
  | .checkingExpiry _ _ record => some record
  | .signing i => i.origin.record
  | .dating i _ => i.origin.record
  | .inserting i _ _ => i.origin.record
  | .savingReplaced record _ => some record
  | .verifyingOut _ record => some record
  | .savingOut record => some record
  | _ => none

/-- The token a rotation has found unrevoked, until it has stored the next one. -/
def rotates : Phase → Option RefreshToken
  | .verifyingSecret _ _ _ record => if record.revoked then none else some record
  | .checkingExpiry _ _ record => some record
  | .signing i => i.origin.record
  | .dating i _ => i.origin.record
  | .inserting i _ _ => i.origin.record
  | _ => none

/-- The token a rotation has stored the next one of, until it has saved it. -/
def replaces : Phase → Option RefreshToken
  | .savingReplaced record _ => some record
  | _ => none

/-- The tokens a request is about to revoke at once. -/
def revokes : Phase → Option (RefreshToken → Bool)
  | .revokingFamily record => some fun t => t.familyId = record.familyId
  | .revokingAll q _ => some fun t => t.userId = q.userId
  | _ => none

/-- The request works on no token. -/
structure Free (p : Phase) : Prop where
  token : p.token = none
  rotates : p.rotates = none
  replaces : p.replaces = none

theorem finished_free (r : Except Thrown Outcome) : (finished r).Free := ⟨rfl, rfl, rfl⟩

theorem loaded_free (q : LoginCall) (user : User) : (loaded q user).Free := by
  unfold loaded
  split_ifs
  · split <;> exact ⟨rfl, rfl, rfl⟩
  · exact finished_free _

theorem wrong_free (q : LoginCall) (user : User) : (wrong q user).Free := by
  unfold wrong
  split_ifs <;> exact ⟨rfl, rfl, rfl⟩

theorem claimed_free (q : RefreshCall) (claims : AccessTokenClaims) : (claimed q claims).Free := by
  unfold claimed
  split <;> exact ⟨rfl, rfl, rfl⟩

end Phase

theorem Origin.refused_free (o : Origin) (e : Thrown) : (o.refused e).Free := by
  cases o <;> exact Phase.finished_free _

/-- A request starts without a token. -/
theorem start_free (q : Request) : (start q).Free := by
  cases q with
  | refresh q =>
    simp only [start]
    split_ifs <;> exact ⟨rfl, rfl, rfl⟩
  | logout presented =>
    simp only [start]
    repeat' split
    all_goals exact ⟨rfl, rfl, rfl⟩
  | _ => exact ⟨rfl, rfl, rfl⟩

/-! ### One call -/

/-- **The ways a call changes the tokens**: it goes on with the token it has or drops it, loads one,
inserts the next one, saves one as replaced or as revoked, or revokes many. -/
inductive TokenStep (env : Env) (p p' : Phase) (db db' : AuthDb) : Prop
  | goOn (htable : db'.refreshTokens = db.refreshTokens)
      (htoken : p'.token = none ∨ p'.token = p.token)
      (hrotates : p'.rotates = none ∨ p'.rotates = p.rotates) (hreplaces : p.replaces = none)
      (hreplaces' : p'.replaces = none) (hrevokes : p.revokes = none)
  | load {record : RefreshToken} (htable : db'.refreshTokens = db.refreshTokens)
      (hget : db.refreshTokens.get? record.id = some record) (hfree : p.Free)
      (hrevokes : p.revokes = none) (htoken : p'.token = some record)
      (hreplaces : p'.replaces = none)
      (hrotates : p'.rotates = none ∨ p'.rotates = some record ∧ record.revoked = false ∧
        ∃ q claims id secret, p = .loading q claims id secret ∧
          db.findToken id = .ok (some record))
  | insert {i : Issuance} {accessToken : String} {now : ℤ} (hp : p = .inserting i accessToken now)
      (hget : db.refreshTokens.get? i.g.tokenId = none)
      (htable : db'.refreshTokens = db.refreshTokens.insert (i.record env now))
      (hp' : p' = .issued env i accessToken now)
  | replace {record : RefreshToken} {next : IssuedTokens} (hp : p = .savingReplaced record next)
      (htable : db'.refreshTokens = db.refreshTokens.put (record.replaced next)) (hfree : p'.Free)
  | revokeOne {record : RefreshToken} (hp : p = .savingOut record)
      (htable : db'.refreshTokens = db.refreshTokens.put { record with revoked := true })
      (hfree : p'.Free)
  | revokeMany {criteria : RefreshToken → Bool} (hp : p.revokes = some criteria)
      (htable : db'.refreshTokens = db.refreshTokens.mapRows (RefreshToken.updated criteria)
        (RefreshToken.updated_id criteria)) (hfree : p'.Free)

theorem TokenStep.free {env : Env} {p p' : Phase} {db db' : AuthDb}
    (htable : db'.refreshTokens = db.refreshTokens) (hreplaces : p.replaces = none)
    (hrevokes : p.revokes = none) (h : p'.Free) : TokenStep env p p' db db' :=
  .goOn htable (Or.inl h.token) (Or.inl h.rotates) hreplaces h.replaces hrevokes

theorem execSaveUser_tokens (db : AuthDb) (entity : UserEntity) :
    (db.execSaveUser entity).2.refreshTokens = db.refreshTokens := by
  unfold AuthDb.execSaveUser
  split <;> rfl

/-- **Every call is one of these.** -/
theorem token_step {env : Env} {p : Phase} {s : Stmt} {k : Res s → Phase} {db : AuthDb}
    (hv : view env p = .call s k) :
    TokenStep env p (k (exec env s db).1) db (exec env s db).2 := by
  cases p with
  | finished r => cases hv
  | peeking q =>
    cases hv
    refine .free rfl rfl rfl ?_
    dsimp only [exec]
    repeat' split
    all_goals exact ⟨rfl, rfl, rfl⟩
  | findingUser q userId =>
    cases hv
    refine .free rfl rfl rfl ?_
    dsimp only [exec]
    repeat' split
    · exact ⟨rfl, rfl, rfl⟩
    · exact Phase.claimed_free _ _
    · exact ⟨rfl, rfl, rfl⟩
  | loading q claims id secret =>
    cases hv
    dsimp only [exec]
    split
    · next found hfound =>
      split
      · exact .free rfl rfl rfl (Phase.finished_free _)
      · next record =>
        refine .load rfl (AuthDb.findToken_ok hfound) ⟨rfl, rfl, rfl⟩ rfl rfl rfl ?_
        by_cases hrevoked : record.revoked = true
        · exact Or.inl (if_pos hrevoked)
        · exact Or.inr ⟨if_neg hrevoked, Bool.not_eq_true _ ▸ hrevoked, q, claims, id, secret, rfl,
            hfound⟩
    · exact .free rfl rfl rfl (Phase.finished_free _)
  | verifyingSecret q claims secret record =>
    cases hv
    dsimp only [exec]
    split_ifs
    · unfold Phase.verified
      split_ifs with hrevoked
      · exact .goOn rfl (Or.inr rfl) (Or.inl rfl) rfl rfl rfl
      · exact .goOn rfl (Or.inr rfl) (Or.inr (if_neg hrevoked).symm) rfl rfl rfl
    · exact .free rfl rfl rfl (Phase.finished_free _)
  | revokingFamily record =>
    cases hv
    exact .revokeMany rfl rfl (Phase.finished_free _)
  | checkingExpiry q claims record =>
    cases hv
    dsimp only [exec]
    split_ifs
    · exact .free rfl rfl rfl (Phase.finished_free _)
    · exact .goOn rfl (Or.inr rfl) (Or.inr rfl) rfl rfl rfl
  | signing i =>
    cases hv
    exact .goOn rfl (Or.inr rfl) (Or.inr rfl) rfl rfl rfl
  | dating i accessToken =>
    cases hv
    exact .goOn rfl (Or.inr rfl) (Or.inr rfl) rfl rfl rfl
  | inserting i accessToken now =>
    cases hv
    dsimp only [exec, AuthDb.execInsertToken]
    split_ifs with hget
    · exact .insert rfl hget rfl rfl
    · exact .free rfl rfl rfl (Origin.refused_free _ _)
  | savingReplaced record next =>
    cases hv
    exact .replace rfl rfl (Phase.finished_free _)
  | findingEmail q =>
    cases hv
    refine .free rfl rfl rfl ?_
    dsimp only [exec]
    split
    · exact Phase.finished_free _
    · exact Phase.loaded_free _ _
  | verifyingPassword q user =>
    cases hv
    refine .free rfl rfl rfl ?_
    dsimp only [exec]
    split_ifs
    · exact ⟨rfl, rfl, rfl⟩
    · exact Phase.wrong_free _ _
  | savingOut record =>
    cases hv
    exact .revokeOne rfl rfl (Phase.finished_free _)
  | loadingOut id secret =>
    cases hv
    dsimp only [exec]
    split
    · next found hfound =>
      split
      · exact .free rfl rfl rfl (Phase.finished_free _)
      · exact .load rfl (AuthDb.findToken_ok hfound) ⟨rfl, rfl, rfl⟩ rfl rfl rfl (Or.inl rfl)
    · exact .free rfl rfl rfl (Phase.finished_free _)
  | verifyingOut secret record =>
    cases hv
    dsimp only [exec]
    split_ifs
    · exact .free rfl rfl rfl (Phase.finished_free _)
    · exact .goOn rfl (Or.inr rfl) (Or.inl rfl) rfl rfl rfl
    · exact .free rfl rfl rfl (Phase.finished_free _)
  | revokingAll q user =>
    cases hv
    exact .revokeMany rfl rfl ⟨rfl, rfl, rfl⟩
  | savingFailure q user | savingLogin q user | savingPassword q user profile
  | savingUpdate profile dto =>
    cases hv
    refine .free (execSaveUser_tokens _ _) rfl rfl ?_
    dsimp only [exec]
    split <;> exact ⟨rfl, rfl, rfl⟩
  | _ =>
    cases hv
    refine .free rfl rfl rfl ?_
    dsimp only [exec]
    repeat' split
    all_goals exact ⟨rfl, rfl, rfl⟩

/-- **What a step does to the tokens**: nothing, unless it is a call. -/
inductive TokenEvent (env : Env) (c : AuthConfig) :
    AuthEvent → AuthConfig → Prop
  | other {e : AuthEvent} {c' : AuthConfig}
      (he : ∀ i p db, e ≠ .called i p db) (htable : c'.db.refreshTokens = c.db.refreshTokens)
      (hthreads : ∀ j p, c'.threads j = some p → c.threads j = some p ∨ p.Free)
      (hfree : ∀ j p, c.threads j = some p → c'.threads j = some p ∨ p.Free) :
      TokenEvent env c e c'
  | call {i : ℕ} {p p' : Phase} {db' : AuthDb} (hi : c.threads i = some p)
      (h : TokenStep env p p' c.db db') :
      TokenEvent env c (.called i p c.db) (c.put db' i (some p'))

/-- The handlers while `others` happen: time passes, and other modules change the accounts. -/
def systemAmong (env : Env) (others : ℕ → AuthDb → AuthDb) :
    System Res AuthDb Request (Except Thrown Outcome) Phase :=
  { system env with pass := others }

theorem token_event_among {env : Env} {others : ℕ → AuthDb → AuthDb} {c c' : AuthConfig}
    {e : AuthEvent} (hothers : ∀ n db, (others n db).refreshTokens = db.refreshTokens)
    (h : (systemAmong env others).Step c e c') : TokenEvent env c e c' := by
  have hother : (∀ i p db, e ≠ .called i p db) → c'.db.refreshTokens = c.db.refreshTokens →
      TokenEvent env c e c' := by
    intro he htable
    obtain ⟨hstarted, hover⟩ := h.of_ne_called he
    refine .other he htable (fun j p hj => (hstarted j p hj).imp_right ?_) fun j p hj =>
      (hover j p hj).imp_right ?_
    · rintro ⟨q, rfl⟩
      exact start_free q
    · rintro ⟨r, hv⟩
      rw [view_done hv]
      exact Phase.finished_free r
  cases h with
  | call hi hv => exact .call hi (token_step hv)
  | arrive q hi => exact hother (by simp) rfl
  | leave hi hv => exact hother (by simp) rfl
  | pass n => exact hother (by simp) (hothers n c.db)

theorem token_event {env : Env} {c c' : AuthConfig} {e : AuthEvent}
    (h : (system env).Step c e c') : TokenEvent env c e c' := by
  have hothers : ∀ n db, (passTime n db).refreshTokens = db.refreshTokens := fun _ _ => rfl
  exact token_event_among hothers h

/-! ### Known tokens -/

/-- The token of a request is stored, in the family and for the account it was loaded with. -/
def Known (db : AuthDb) (p : Phase) : Prop := ∀ record, p.token = some record →
  ∃ row, db.refreshTokens.get? record.id = some row ∧ row.familyId = record.familyId ∧
    row.userId = record.userId

theorem Phase.token_of_rotates {p : Phase} {record : RefreshToken} (h : p.rotates = some record) :
    p.token = some record := by
  cases p with
  | verifyingSecret q claims secret r =>
    simp only [rotates] at h
    split_ifs at h
    exact h
  | _ => first | exact h | cases h

theorem Phase.token_of_replaces {p : Phase} {record : RefreshToken}
    (h : p.replaces = some record) : p.token = some record := by
  cases p with
  | savingReplaced r next => exact h
  | _ => cases h

/-- **A stored token stays**, in its family and with its account, and once revoked stays revoked. -/
theorem TokenStep.keeps {env : Env} {p p' : Phase} {db db' : AuthDb} (h : TokenStep env p p' db db')
    (hp : Known db p) {k : Uuid} {row : RefreshToken} (hget : db.refreshTokens.get? k = some row) :
    ∃ row', db'.refreshTokens.get? k = some row' ∧ row'.familyId = row.familyId ∧
      row'.userId = row.userId ∧ (row.revoked = true → row'.revoked = true) := by
  have hput : ∀ record saved : RefreshToken, p.token = some record → saved.id = record.id →
      saved.familyId = record.familyId → saved.userId = record.userId → saved.revoked = true →
      ∃ row', (db.refreshTokens.put saved).get? k = some row' ∧ row'.familyId = row.familyId ∧
        row'.userId = row.userId ∧ (row.revoked = true → row'.revoked = true) := by
    intro record saved htoken hid hfamily huser hrevoked
    rw [Table.get?_put]
    split_ifs with hk
    · obtain ⟨stored, hstored, hf, hu⟩ := hp record htoken
      rw [← hid, ← hk, hget] at hstored
      cases hstored
      exact ⟨saved, rfl, hfamily.trans hf.symm, huser.trans hu.symm, fun _ => hrevoked⟩
    · exact ⟨row, hget, rfl, rfl, id⟩
  cases h with
  | goOn htable => exact ⟨row, htable ▸ hget, rfl, rfl, id⟩
  | load htable => exact ⟨row, htable ▸ hget, rfl, rfl, id⟩
  | @insert i accessToken now hp₁ hfree htable hp' =>
    refine ⟨row, ?_, rfl, rfl, id⟩
    have hne : k ≠ (i.record env now).id := by
      rintro rfl
      rw [show (i.record env now).id = i.g.tokenId from rfl, hfree] at hget
      cases hget
    rw [htable, Table.get?_insert_ne hne]
    exact hget
  | @replace record next hp₁ htable =>
    subst hp₁
    rw [htable]
    exact hput record _ rfl rfl rfl rfl rfl
  | @revokeOne record hp₁ htable =>
    subst hp₁
    rw [htable]
    exact hput record _ rfl rfl rfl rfl rfl
  | @revokeMany criteria hp₁ htable =>
    rw [htable, Table.get?_mapRows, hget]
    refine ⟨_, rfl, ?_⟩
    unfold RefreshToken.updated
    split_ifs <;> simp

/-- The token of a request after its call is one it had, or one that is stored. -/
theorem TokenStep.known {env : Env} {p p' : Phase} {db db' : AuthDb} (h : TokenStep env p p' db db')
    (hp : Known db p) : Known db' p' := by
  have hkeep : p'.token = p.token → Known db' p' := by
    intro heq record htoken
    obtain ⟨row, hget, hfamily, huser⟩ := hp record (heq ▸ htoken)
    obtain ⟨row', hget', hfamily', huser', -⟩ := h.keeps hp hget
    exact ⟨row', hget', hfamily'.trans hfamily, huser'.trans huser⟩
  have hnone : p'.token = none → Known db' p' := by
    intro heq record htoken
    rw [heq] at htoken
    cases htoken
  cases h with
  | goOn _ htoken => exact htoken.elim hnone hkeep
  | @load record htable hget _ _ htoken =>
    intro record' htoken'
    rw [htoken] at htoken'
    cases htoken'
    exact ⟨record, htable ▸ hget, rfl, rfl⟩
  | @insert i accessToken now hp₁ _ _ hp' =>
    subst hp₁ hp'
    refine hkeep ?_
    show (Phase.issued env i accessToken now).token = i.origin.record
    unfold Phase.issued
    cases i.origin <;> rfl
  | replace _ _ hfree => exact hnone hfree.token
  | revokeOne _ _ hfree => exact hnone hfree.token
  | revokeMany _ _ hfree => exact hnone hfree.token

/-- Every request knows its token. -/
def AllKnown (c : AuthConfig) : Prop := ∀ i p, c.threads i = some p → Known c.db p

theorem Phase.Free.known {p : Phase} (h : p.Free) (db : AuthDb) : Known db p := by
  intro record htoken
  rw [h.token] at htoken
  cases htoken

theorem AllKnown.step {env : Env} {c c' : AuthConfig}
    {e : AuthEvent} (h : AllKnown c)
    (he : TokenEvent env c e c') : AllKnown c' := by
  cases he with
  | other _ htable hthreads =>
    intro i p hi
    rcases hthreads i p hi with hold | hfree
    · intro record htoken
      rw [htable]
      exact h i p hold record htoken
    · exact hfree.known _
  | @call i p p' db' hi hstep =>
    intro j q hj
    rcases Config.of_put hj with ⟨-, heq⟩ | ⟨-, hj'⟩
    · cases heq
      exact hstep.known (h i p hi)
    · intro record htoken
      obtain ⟨row, hget, hfamily, huser⟩ := h j q hj' record htoken
      obtain ⟨row', hget', hfamily', huser', -⟩ := hstep.keeps (h i p hi) hget
      exact ⟨row', hget', hfamily'.trans hfamily, huser'.trans huser⟩

/-! ### Rotations in flight -/

namespace Phase

/-- A rotation has found the token unrevoked and not yet stored the next one. -/
def Rotates (id : Uuid) (p : Phase) : Prop := ∃ record, p.rotates = some record ∧ record.id = id

/-- A rotation has stored the next token and not yet saved this one. -/
def Replaces (id : Uuid) (p : Phase) : Prop := ∃ record, p.replaces = some record ∧ record.id = id

/-- **A rotation of the token is between its load and its save.** -/
def Has (id : Uuid) (p : Phase) : Prop := p.Rotates id ∨ p.Replaces id

theorem Free.not_has {p : Phase} (h : p.Free) (id : Uuid) : ¬ p.Has id := by
  rintro (⟨record, hrotates, -⟩ | ⟨record, hreplaces, -⟩)
  · rw [h.rotates] at hrotates
    cases hrotates
  · rw [h.replaces] at hreplaces
    cases hreplaces

end Phase

/-! ### The token of a request after a call -/

section Call

variable {env : Env} {p p' : Phase} {db db' : AuthDb} {id : Uuid}

/-- A request has a token after a call if it had it before, or has just found it unrevoked. -/
theorem TokenStep.has_of (h : TokenStep env p p' db db') (hhas : p'.Has id) :
    p.Has id ∧ (p'.Rotates id → p.Rotates id) ∨
      ∃ record q claims text secret, record.id = id ∧ record.revoked = false ∧
        db.refreshTokens.get? id = some record ∧ p = .loading q claims text secret ∧
        db.findToken text = .ok (some record) := by
  cases h with
  | goOn htable htoken hrotates hreplaces hreplaces' hrevokes =>
    refine Or.inl ?_
    rcases hhas with ⟨record, hr, hid⟩ | ⟨record, hr, hid⟩
    · rcases hrotates with hnone | hsame
      · rw [hnone] at hr
        cases hr
      · rw [hsame] at hr
        exact ⟨Or.inl ⟨record, hr, hid⟩, fun _ => ⟨record, hr, hid⟩⟩
    · rw [hreplaces'] at hr
      cases hr
  | @load record htable hget hfree hrevokes htoken hreplaces hrotates =>
    rcases hhas with ⟨record', hr, hid⟩ | ⟨record', hr, hid⟩
    · rcases hrotates with hnone | ⟨hsome, hfalse, q, claims, text, secret, hp, hfind⟩
      · rw [hnone] at hr
        cases hr
      · rw [hsome] at hr
        cases hr
        exact Or.inr ⟨record, q, claims, text, secret, hid, hfalse, hid ▸ hget, hp, hfind⟩
    · rw [hreplaces] at hr
      cases hr
  | @insert i accessToken now hp hget htable hp' =>
    subst hp hp'
    unfold Phase.issued at hhas ⊢
    cases horigin : i.origin with
    | login familyId =>
      rw [horigin] at hhas
      exact absurd hhas ((Phase.finished_free _).not_has id)
    | rotation record =>
      rw [horigin] at hhas
      refine Or.inl ⟨?_, fun ⟨record', hr, _⟩ => by cases hr⟩
      rcases hhas with ⟨record', hr, hid⟩ | ⟨record', hr, hid⟩
      · cases hr
      · cases hr
        exact Or.inl ⟨record, congrArg Origin.record horigin, hid⟩
  | replace _ _ hfree => exact absurd hhas (hfree.not_has id)
  | revokeOne _ _ hfree => exact absurd hhas (hfree.not_has id)
  | revokeMany _ _ hfree => exact absurd hhas (hfree.not_has id)

/-- A rotation that saves its token is done with it, and the token is revoked. -/
theorem TokenStep.of_replaces (h : TokenStep env p p' db db') (hp : p.Replaces id) :
    p'.Free ∧ ∃ row, db'.refreshTokens.get? id = some row ∧ row.revoked = true := by
  obtain ⟨record, hr, hid⟩ := hp
  cases h with
  | goOn _ _ _ hreplaces =>
    rw [hreplaces] at hr
    cases hr
  | load _ _ hfree =>
    rw [hfree.replaces] at hr
    cases hr
  | insert hp₁ =>
    subst hp₁
    cases hr
  | @replace record' next hp₁ htable hfree =>
    subst hp₁
    cases hr
    refine ⟨hfree, record.replaced next, ?_, rfl⟩
    rw [htable, Table.get?_put]
    exact if_pos hid.symm
  | revokeOne hp₁ =>
    subst hp₁
    cases hr
  | revokeMany hp₁ =>
    cases p with
    | savingReplaced _ _ => cases hp₁
    | _ => cases hr

/-- A call that revokes many tokens does so. -/
theorem TokenStep.of_revokes (h : TokenStep env p p' db db') {criteria : RefreshToken → Bool}
    (hp : p.revokes = some criteria) : p'.Free ∧ db'.refreshTokens =
      db.refreshTokens.mapRows (RefreshToken.updated criteria) (RefreshToken.updated_id criteria) := by
  cases h with
  | goOn _ _ _ _ _ hrevokes =>
    rw [hrevokes] at hp
    cases hp
  | load _ _ _ hrevokes =>
    rw [hrevokes] at hp
    cases hp
  | insert hp₁ =>
    subst hp₁
    cases hp
  | replace hp₁ =>
    subst hp₁
    cases hp
  | revokeOne hp₁ =>
    subst hp₁
    cases hp
  | revokeMany hp₁ htable hfree =>
    rw [hp] at hp₁
    cases hp₁
    exact ⟨hfree, htable⟩

/-- A stored token was stored before the call, or the call has inserted it. -/
theorem TokenStep.row_of (h : TokenStep env p p' db db') (hp : Known db p) {row' : RefreshToken}
    (hget : db'.refreshTokens.get? id = some row') :
    (∃ row, db.refreshTokens.get? id = some row ∧ row.familyId = row'.familyId ∧
      (row'.revoked = false → row.revoked = false)) ∨
    ∃ i accessToken now, p = .inserting i accessToken now ∧ p' = .issued env i accessToken now ∧
      db.refreshTokens.get? id = none ∧ id = i.g.tokenId ∧ row' = i.record env now := by
  cases hold : db.refreshTokens.get? id with
  | some row =>
    obtain ⟨row'', hget'', hfamily, -, hrevoked⟩ := h.keeps hp hold
    rw [hget] at hget''
    cases hget''
    refine Or.inl ⟨row, rfl, hfamily.symm, fun hfalse => ?_⟩
    cases hrow : row.revoked with
    | false => rfl
    | true =>
      rw [hrevoked hrow] at hfalse
      cases hfalse
  | none =>
    have hput : ∀ record saved : RefreshToken, p.token = some record → saved.id = record.id →
        (db.refreshTokens.put saved).get? id ≠ some row' := by
      intro record saved htoken hid hput
      obtain ⟨stored, hstored, -⟩ := hp record htoken
      rw [Table.get?_put] at hput
      split_ifs at hput with hk
      · rw [hk, hid, hstored] at hold
        cases hold
      · rw [hold] at hput
        cases hput
    cases h with
    | goOn htable =>
      rw [htable, hold] at hget
      cases hget
    | load htable =>
      rw [htable, hold] at hget
      cases hget
    | @insert i accessToken now hp₁ hfree htable hp' =>
      rw [htable, Table.get?_insert] at hget
      split_ifs at hget with hk
      · rw [hold] at hget
        exact Or.inr ⟨i, accessToken, now, hp₁, hp', rfl, hk, (Option.some.inj hget).symm⟩
      · rw [hold] at hget
        cases hget
    | @replace record next hp₁ htable =>
      subst hp₁
      rw [htable] at hget
      exact absurd hget (hput record _ rfl rfl)
    | @revokeOne record hp₁ htable =>
      subst hp₁
      rw [htable] at hget
      exact absurd hget (hput record _ rfl rfl)
    | revokeMany hp₁ htable =>
      rw [htable, Table.get?_mapRows, hold] at hget
      cases hget

end Call

end GameClub.Auth
