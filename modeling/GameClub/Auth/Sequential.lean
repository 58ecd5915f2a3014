import GameClub.Auth.Phases
import GameClub.Lib.Await

/-! # Requests one after another

A request is served from its first call to its last before the next one is. Time passes between the
calls.

* `Performs`: one operation, and `Sequence`: operations one after another.
* `loaded`, `claimed`: the token and the claims that a presented string stands for.
* `Effect`: what an operation makes of the tokens: it issues one for a new family, replaces an
  unrevoked one by its successor, or revokes some. `performs_effect`: every operation has one. -/

namespace GameClub.Auth

open GameClub.Lib GameClub.Common

/-! ### Operations -/

/-- A call is made some time after the one before it. -/
def answers (env : Env) : Answers Res AuthDb := fun s db r db' =>
  ∃ n, exec env s (passTime n db) = (r, db')

/-- A request, or `remove` of the users service. -/
inductive Operation
  | request (q : Request)
  | remove (id : UuidText)

/-- `softRemove` of an account: the row gets its `deleted_at`. -/
def AuthDb.softRemove (db : AuthDb) (id : Uuid) : AuthDb :=
  { db with
    users := db.users.mapRows (fun u => if u.id = id then { u with deletedAt := some db.clock } else u)
      fun u => by split_ifs <;> rfl }

/-- **One operation**, its result and the store it leaves. -/
inductive Performs (env : Env) : Operation → AuthDb → Except Thrown Outcome → AuthDb → Prop
  | request {q : Request} {db db' : AuthDb} {o : Except Thrown Outcome}
      (h : Runs (answers env) (handler env q) db o db') : Performs env (.request q) db o db'
  | notFound {id : UuidText} {db db' : AuthDb} {e : Thrown}
      (h : Runs (answers env) (findById id) db (.error e) db') :
      Performs env (.remove id) db (.error e) db'
  | removed {id : UuidText} {db db' : AuthDb} {user : Profile} (n : ℕ)
      (h : Runs (answers env) (findById id) db (.ok user) db') :
      Performs env (.remove id) db (.ok .done) ((passTime n db').softRemove user.id)

/-- The uuids an operation generates are uuids, and a login starts a family that is new. -/
def Fresh (db : AuthDb) : Operation → Prop
  | .request (.login q) =>
    q.g.tokenId < 2 ^ 128 ∧ ∀ t ∈ db.refreshTokens.rows, t.familyId ≠ q.g.familyId
  | .request (.refresh q) => q.g.tokenId < 2 ^ 128
  | _ => True

/-- **Operations one after another.** -/
inductive Sequence (env : Env) (db : AuthDb) : AuthDb → Prop
  | refl : Sequence env db db
  | tail {db₁ db₂ : AuthDb} {op : Operation} {o : Except Thrown Outcome} (h : Sequence env db db₁)
      (hop : Performs env op db₁ o db₂) (hfresh : Fresh db₁ op) : Sequence env db db₂

/-! ### Calls -/

/-- The two tables are the same. -/
structure Same (db db' : AuthDb) : Prop where
  tokens : db'.refreshTokens = db.refreshTokens
  users : db'.users = db.users

theorem Same.trans {db₁ db₂ db₃ : AuthDb} (h : Same db₁ db₂) (h' : Same db₂ db₃) : Same db₁ db₃ :=
  ⟨h'.tokens.trans h.tokens, h'.users.trans h.users⟩

/-- The call leaves the tokens alone. -/
def LeavesTokens : Stmt → Prop
  | .insertToken _ | .saveToken _ | .revokeFamily _ | .revokeAllForUser _ => False
  | _ => True

section Calls

variable {env : Env} {db db' : AuthDb}

theorem runs_ask {s : Stmt} {o : Res s} :
    Runs (answers env) (ask s) db o db' ↔ ∃ n, exec env s (passTime n db) = (o, db') := by
  constructor
  · rintro ⟨r, z, ⟨n, hx⟩, hr⟩
    obtain ⟨rfl, rfl⟩ := runs_lift.mp hr
    exact ⟨n, hx⟩
  · rintro ⟨n, hx⟩
    exact ⟨o, db', ⟨n, hx⟩, runs_lift.mpr ⟨rfl, rfl⟩⟩

/-- A call that reads. -/
theorem runs_read {s : Stmt} {o : Res s} (f : AuthDb → Res s) (hf : ∀ db, exec env s db = (f db, db))
    (h : Runs (answers env) (ask s) db o db') : ∃ n, o = f (passTime n db) ∧ Same db db' := by
  obtain ⟨n, hx⟩ := runs_ask.mp h
  rw [hf] at hx
  cases hx
  exact ⟨n, rfl, rfl, rfl⟩

theorem runs_findToken {id : String} {o : Res (.findToken id)}
    (h : Runs (answers env) (ask (.findToken id)) db o db') : o = db.findToken id ∧ Same db db' := by
  obtain ⟨n, ho, hsame⟩ := runs_read (s := .findToken id) (fun db => db.findToken id)
    (fun _ => rfl) h
  exact ⟨ho, hsame⟩

theorem runs_verify {hash plain : String} {o : Res (.verify hash plain)}
    (h : Runs (answers env) (ask (.verify hash plain)) db o db') :
    o = .ok (env.verify hash plain) ∧ Same db db' := by
  obtain ⟨n, ho, hsame⟩ := runs_read (s := .verify hash plain)
    (fun _ => .ok (env.verify hash plain)) (fun _ => rfl) h
  exact ⟨ho, hsame⟩

/-- A call that always resolves, and what follows. -/
theorem runs_read_bind {β : Type} {s : Stmt} {f : Reply s → Async β} {o : Except Thrown β}
    (v : AuthDb → Reply s) (hv : ∀ db, exec env s db = (.ok (v db), db))
    (h : Runs (answers env) (ask s >>= f) db o db') :
    ∃ n, Runs (answers env) (f (v (passTime n db))) (passTime n db) o db' := by
  rcases runs_bind.mp h with ⟨e, -, he⟩ | ⟨a, z, ha, hf⟩
  · obtain ⟨n, hx⟩ := runs_ask.mp he
    rw [hv] at hx
    cases hx
  · obtain ⟨n, hx⟩ := runs_ask.mp ha
    rw [hv] at hx
    cases hx
    exact ⟨n, hf⟩

theorem runs_insertToken {record : RefreshToken} {o : Res (.insertToken record)}
    (h : Runs (answers env) (ask (.insertToken record)) db o db') :
    ((∃ e, o = .error e) ∧ Same db db') ∨ (o = .ok () ∧ db.refreshTokens.get? record.id = none ∧
      db'.users = db.users ∧ db'.refreshTokens = db.refreshTokens.insert record) := by
  obtain ⟨n, hx⟩ := runs_ask.mp h
  simp only [exec, AuthDb.execInsertToken] at hx
  split_ifs at hx with hnew
  · cases hx
    exact Or.inr ⟨rfl, hnew, rfl, rfl⟩
  · cases hx
    exact Or.inl ⟨⟨_, rfl⟩, rfl, rfl⟩

/-- A call that writes always resolves, and what follows. -/
theorem runs_write_bind {β : Type} {s : Stmt} {f : Reply s → Async β} {o : Except Thrown β}
    {a : Reply s} (w : AuthDb → AuthDb) (hw : ∀ db, exec env s db = (.ok a, w db))
    (h : Runs (answers env) (ask s >>= f) db o db') :
    ∃ n, Runs (answers env) (f a) (w (passTime n db)) o db' := by
  rcases runs_bind.mp h with ⟨e, -, he⟩ | ⟨b, z, hb, hf⟩
  · obtain ⟨n, hx⟩ := runs_ask.mp he
    rw [hw] at hx
    cases hx
  · obtain ⟨n, hx⟩ := runs_ask.mp hb
    rw [hw] at hx
    cases hx
    exact ⟨n, hf⟩

theorem leaves_tokens {s : Stmt} (hs : LeavesTokens s) {r : Res s} (h : answers env s db r db') :
    db'.refreshTokens = db.refreshTokens := by
  obtain ⟨n, hx⟩ := h
  cases s with
  | insertToken record => exact hs.elim
  | saveToken record => exact hs.elim
  | revokeFamily familyId => exact hs.elim
  | revokeAllForUser userId => exact hs.elim
  | saveUser entity =>
    have hdb : db' = ((passTime n db).execSaveUser entity).2 := (congrArg Prod.snd hx).symm
    rw [hdb]
    unfold AuthDb.execSaveUser
    split <;> rfl
  | _ =>
    cases hx
    rfl

/-- A program of such calls leaves the tokens alone. -/
theorem same_tokens {α : Type} {p : Async α} {o : Except Thrown α}
    (h : Runs (answers env) p db o db') (hp : p.Sends LeavesTokens) :
    db'.refreshTokens = db.refreshTokens :=
  h.keeps hp (K := fun db db' => db'.refreshTokens = db.refreshTokens) (fun _ => rfl)
    (fun h h' => h'.trans h) fun hs hA => leaves_tokens hs hA

end Calls

/-- A call at once. -/
theorem answers_exec (env : Env) (s : Stmt) (db : AuthDb) :
    answers env s db (exec env s db).1 (exec env s db).2 := by
  have hzero : passTime 0 db = db := by simp [passTime]
  exact ⟨0, by rw [hzero]⟩

/-- The store after a request whose calls are made at once. -/
def served (env : Env) (q : Request) (db : AuthDb) : AuthDb :=
  (serve (exec env) (handler env q) db).2

theorem Sequence.served {env : Env} {db db' : AuthDb} {q : Request} (h : Sequence env db db')
    (hfresh : Fresh db' (.request q)) : Sequence env db (served env q db') :=
  .tail h (.request (runs_serve (answers_exec env) _ _)) hfresh

/-! ### Presented strings -/

namespace AuthDb

/-- **The token that is presented**: the stored one of the id in the string, if the secret is its
own. -/
def loaded (env : Env) (db : AuthDb) (presented : String) : Option RefreshToken :=
  match parts presented with
  | none => none
  | some (id, secret) =>
    match db.findToken id with
    | .ok (some record) => if env.verify record.tokenHash secret then some record else none
    | _ => none

/-- **The claims for a presented string**: those of the account of the token it names, if it is an
active one. -/
def claimed (db : AuthDb) (presented : String) : Option AccessTokenClaims :=
  match db.findToken ((splitDot presented).headD "") with
  | .ok (some record) =>
    match db.findUser record.userId with
    | some user => if user.isActive then some (toClaims user.profile) else none
    | none => none
  | _ => none

variable {db : AuthDb} {presented : String}

theorem claimed_record {record : RefreshToken}
    (h : db.findToken ((splitDot presented).headD "") = .ok (some record)) :
    db.claimed presented = (db.findUser record.userId).bind fun user =>
      if user.isActive then some (toClaims user.profile) else none := by
  unfold claimed
  rw [h]
  dsimp only
  cases db.findUser record.userId <;> rfl

theorem claimed_none
    (h : ∀ record, db.findToken ((splitDot presented).headD "") ≠ .ok (some record)) :
    db.claimed presented = none := by
  unfold claimed
  split
  · next record hrecord => exact absurd hrecord (h record)
  · rfl

end AuthDb

/-- The id in the text of a token is read back. -/
theorem replaced_by {record : RefreshToken} {id : Uuid} {secret accessToken : String}
    {expiresAt : ℤ} (hid : id < 2 ^ 128) :
    record.replaced ⟨accessToken, refreshTokenText id secret, expiresAt⟩ =
      { record with revoked := true, replacedBy := some id } := by
  have hhead : (splitDot (refreshTokenText id secret)).headD "" = Uuid.text id := by
    have hsplit : (refreshTokenText id secret).toList =
        (Uuid.text id).toList ++ '.' :: secret.toList := by
      simp [refreshTokenText]
    unfold splitDot
    rw [hsplit, List.splitOn_append_cons_self_of_not_mem (dot_not_mem_text id)]
    simp
  unfold RefreshToken.replaced
  simp only [hhead, Uuid.parse_text hid]

/-! ### The handlers -/

section Handlers

variable {env : Env} {db db' : AuthDb}

/-- **What `parseAndLoad` returns is the token that is presented.** -/
theorem runs_parseAndLoad {presented : String} {o : Except Thrown (Option RefreshToken)}
    (h : Runs (answers env) (parseAndLoad presented) db o db') :
    Same db db' ∧ ((∃ e, o = .error e) ∧ db.loaded env presented = none ∨
      o = .ok (db.loaded env presented)) := by
  unfold parseAndLoad at h
  unfold AuthDb.loaded
  cases hparts : parts presented with
  | none =>
    simp only [hparts] at h
    obtain ⟨rfl, rfl⟩ := h
    exact ⟨⟨rfl, rfl⟩, Or.inr rfl⟩
  | some x =>
    obtain ⟨id, secret⟩ := x
    simp only [hparts] at h
    dsimp only
    rcases runs_bind.mp h with ⟨e, rfl, he⟩ | ⟨found, z, hfound, hrest⟩
    · obtain ⟨ho, hsame⟩ := runs_findToken he
      exact ⟨hsame, Or.inl ⟨⟨e, rfl⟩, by simp [← ho]⟩⟩
    · obtain ⟨ho, hsame⟩ := runs_findToken hfound
      rw [← ho]
      cases found with
      | none =>
        obtain ⟨rfl, rfl⟩ := hrest
        exact ⟨hsame, Or.inr rfl⟩
      | some record =>
        rcases runs_bind.mp hrest with ⟨e, rfl, he⟩ | ⟨valid, z', hvalid, hret⟩
        · obtain ⟨hv, -⟩ := runs_verify he
          cases hv
        · obtain ⟨hv, hsame'⟩ := runs_verify hvalid
          obtain ⟨rfl, rfl⟩ := hret
          cases hv
          exact ⟨hsame.trans hsame', Or.inr rfl⟩

theorem runs_findById {id : UuidText} {o : Except Thrown Profile}
    (h : Runs (answers env) (findById id) db o db') : Same db db' ∧
      ((∃ e, o = .error e) ∧ db.findUser id.value = none ∨
        ∃ user, o = .ok user.profile ∧ db.findUser id.value = some user) := by
  obtain ⟨n, hrest⟩ := runs_read_bind (s := .findUser id.value)
    (fun db => (db.findUser id.value).map User.profile) (fun _ => rfl) h
  have hfound : (passTime n db).findUser id.value = db.findUser id.value := rfl
  simp only [hfound] at hrest
  cases hu : db.findUser id.value with
  | none =>
    rw [hu] at hrest
    obtain ⟨rfl, rfl⟩ := hrest
    exact ⟨⟨rfl, rfl⟩, Or.inl ⟨⟨_, rfl⟩, rfl⟩⟩
  | some user =>
    rw [hu] at hrest
    obtain ⟨rfl, rfl⟩ := hrest
    exact ⟨⟨rfl, rfl⟩, Or.inr ⟨user, rfl, rfl⟩⟩

/-- What `peekUserId` returns is the account of the token that the string names. -/
theorem runs_peekUserId {presented : String} {o : Except Thrown (Option Uuid)}
    (h : Runs (answers env) (peekUserId presented) db o db') : Same db db' ∧
      (db.claimed presented = none ∧ ((∃ e, o = .error e) ∨ o = .ok none) ∨
        ∃ record, o = .ok (some record.userId) ∧
          db.findToken ((splitDot presented).headD "") = .ok (some record)) := by
  unfold peekUserId at h
  dsimp only at h
  split_ifs at h with hempty
  · obtain ⟨rfl, rfl⟩ := h
    refine ⟨⟨rfl, rfl⟩, Or.inl ⟨?_, Or.inr rfl⟩⟩
    rw [AuthDb.claimed, hempty]
    rfl
  · rcases runs_bind.mp h with ⟨e, rfl, he⟩ | ⟨found, z, hfound, hret⟩
    · obtain ⟨ho, hsame⟩ := runs_findToken he
      exact ⟨hsame, Or.inl ⟨AuthDb.claimed_none (by simp only [← ho]; simp), Or.inl ⟨e, rfl⟩⟩⟩
    · obtain ⟨ho, hsame⟩ := runs_findToken hfound
      obtain ⟨rfl, rfl⟩ := hret
      cases found with
      | none => exact ⟨hsame, Or.inl ⟨AuthDb.claimed_none (by simp only [← ho]; simp), Or.inr rfl⟩⟩
      | some record => exact ⟨hsame, Or.inr ⟨record, rfl, ho.symm⟩⟩

/-- **What `claimsFromRefresh` returns are the claims for what is presented.** -/
theorem runs_claimsFromRefresh {presented : String} {o : Except Thrown AccessTokenClaims}
    (h : Runs (answers env) (claimsFromRefresh presented) db o db') : Same db db' ∧
      ((∃ e, o = .error e) ∧ db.claimed presented = none ∨
        ∃ claims, o = .ok claims ∧ db.claimed presented = some claims) := by
  rcases runs_bind.mp h with ⟨e, rfl, he⟩ | ⟨userId, z, hpeek, hrest⟩
  · obtain ⟨hsame, ⟨hnone, -⟩ | ⟨record, ho, -⟩⟩ := runs_peekUserId he
    · exact ⟨hsame, Or.inl ⟨⟨e, rfl⟩, hnone⟩⟩
    · cases ho
  · obtain ⟨hsame, ⟨hnone, ⟨e, ho⟩ | ho⟩ | ⟨record, ho, hrecord⟩⟩ := runs_peekUserId hpeek
    · cases ho
    · cases ho
      obtain ⟨rfl, rfl⟩ := hrest
      exact ⟨hsame, Or.inl ⟨⟨_, rfl⟩, hnone⟩⟩
    · cases ho
      have husers : z.findUser record.userId = db.findUser record.userId := by
        rw [AuthDb.findUser, AuthDb.findUser, hsame.users]
      rcases runs_bind.mp hrest with ⟨e, rfl, he⟩ | ⟨profile, z', hfind, hcheck⟩
      · obtain ⟨hsame', ⟨-, hnone⟩ | ⟨user, ho, -⟩⟩ := runs_findById he
        · have hnone' := husers.symm.trans hnone
          exact ⟨hsame.trans hsame',
            Or.inl ⟨⟨e, rfl⟩, by rw [AuthDb.claimed_record hrecord, hnone']; rfl⟩⟩
        · cases ho
      · obtain ⟨hsame', ⟨⟨e, ho⟩, -⟩ | ⟨user, ho, huser⟩⟩ := runs_findById hfind
        · cases ho
        · cases ho
          have huser' := husers.symm.trans huser
          have hactive : user.profile.isActive = user.isActive := rfl
          rw [hactive] at hcheck
          split_ifs at hcheck with hact
          · obtain ⟨rfl, rfl⟩ := hcheck
            exact ⟨hsame.trans hsame',
              Or.inr ⟨_, rfl, by simp [AuthDb.claimed_record hrecord, huser', hact]⟩⟩
          · obtain ⟨rfl, rfl⟩ := hcheck
            exact ⟨hsame.trans hsame',
              Or.inl ⟨⟨_, rfl⟩, by simp [AuthDb.claimed_record hrecord, huser', hact]⟩⟩

/-- **What `issue` stores**, or nothing. -/
theorem runs_issue {claims : AccessTokenClaims} {familyId : Uuid} {ctx : RequestContext}
    {g : Generated} {o : Except Thrown IssuedTokens}
    (h : Runs (answers env) (issue env claims familyId ctx g) db o db') :
    ((∃ e, o = .error e) ∧ Same db db') ∨ ∃ accessToken now,
      o = .ok ⟨accessToken, refreshTokenText g.tokenId g.secret, now + env.refreshTtlMs⟩ ∧
        db.refreshTokens.get? g.tokenId = none ∧ db'.users = db.users ∧
        db'.refreshTokens = db.refreshTokens.insert (newToken env claims familyId ctx g now) := by
  obtain ⟨n, hdate⟩ := runs_read_bind (s := .sign claims)
    (fun db => env.signAsync claims db.clock) (fun _ => rfl) h
  obtain ⟨n', hinsert⟩ := runs_read_bind (s := .now) (fun db => db.clock) (fun _ => rfl) hdate
  rcases runs_bind.mp hinsert with ⟨e, rfl, he⟩ | ⟨_, z, hstored, hret⟩
  · rcases runs_insertToken he with ⟨-, hsame⟩ | ⟨ho, -⟩
    · exact Or.inl ⟨⟨e, rfl⟩, hsame.tokens, hsame.users⟩
    · cases ho
  · obtain ⟨rfl, rfl⟩ := hret
    rcases runs_insertToken hstored with ⟨⟨e, he⟩, -⟩ | ⟨-, hnew, husers, htokens⟩
    · cases he
    · exact Or.inr ⟨_, _, rfl, hnew, husers, htokens⟩

/-- **What a rotation has done**: nothing, or it has revoked the family of a token that was revoked
before, or it has replaced one by its successor. -/
inductive Rotation (env : Env) (presented : String) (claims : AccessTokenClaims)
    (ctx : RequestContext) (g : Generated) (db : AuthDb) :
    Except Thrown IssuedTokens → AuthDb → Prop
  | refused {e : Thrown} {db' : AuthDb}
      (hload : ∀ record, db.loaded env presented = some record → record.revoked = false)
      (hsame : Same db db') : Rotation env presented claims ctx g db (.error e) db'
  | reused {record : RefreshToken} {db' : AuthDb}
      (hload : db.loaded env presented = some record) (hrevoked : record.revoked = true)
      (htokens : db'.refreshTokens =
        (db.revoke fun t => t.familyId = record.familyId).refreshTokens)
      (husers : db'.users = db.users) :
      Rotation env presented claims ctx g db (.error (.error "REFRESH_TOKEN_REUSED")) db'
  | rotated {record : RefreshToken} {accessToken : String} {now : ℤ} {db' : AuthDb}
      (hload : db.loaded env presented = some record) (hlive : record.revoked = false)
      (hnew : db.refreshTokens.get? g.tokenId = none)
      (htokens : db'.refreshTokens =
        (db.refreshTokens.insert (newToken env claims record.familyId ctx g now)).put
          (record.replaced
            ⟨accessToken, refreshTokenText g.tokenId g.secret, now + env.refreshTtlMs⟩))
      (husers : db'.users = db.users) : Rotation env presented claims ctx g db
        (.ok ⟨accessToken, refreshTokenText g.tokenId g.secret, now + env.refreshTtlMs⟩) db'

theorem Rotation.of_same {presented : String} {claims : AccessTokenClaims} {ctx : RequestContext}
    {g : Generated} {db₁ : AuthDb} {o : Except Thrown IssuedTokens}
    (h : Rotation env presented claims ctx g db₁ o db') (hs : Same db db₁) :
    Rotation env presented claims ctx g db o db' := by
  have hload : db₁.loaded env presented = db.loaded env presented := by
    unfold AuthDb.loaded AuthDb.findToken
    rw [hs.tokens]
  have htable := hs.tokens
  cases h with
  | refused h hsame => exact .refused (hload ▸ h) (hs.trans hsame)
  | reused h hrevoked htokens husers =>
    refine .reused (hload ▸ h) hrevoked ?_ (husers.trans hs.users)
    simpa [AuthDb.revoke, htable] using htokens
  | rotated h hlive hnew htokens husers =>
    rw [htable] at hnew htokens
    exact .rotated (hload ▸ h) hlive hnew htokens (husers.trans hs.users)

theorem runs_rotate {presented : String} {claims : AccessTokenClaims} {ctx : RequestContext}
    {g : Generated} {o : Except Thrown IssuedTokens}
    (h : Runs (answers env) (rotate env presented claims ctx g) db o db') :
    Rotation env presented claims ctx g db o db' := by
  rcases runs_bind.mp h with ⟨e, rfl, he⟩ | ⟨found, z, hload, hrest⟩
  · obtain ⟨hsame, ⟨-, hnone⟩ | ho⟩ := runs_parseAndLoad he
    · exact .refused (by simp [hnone]) hsame
    · cases ho
  · obtain ⟨hsame, ⟨⟨e, ho⟩, -⟩ | ho⟩ := runs_parseAndLoad hload
    · cases ho
    · cases ho
      cases hrecord : db.loaded env presented with
      | none =>
        rw [hrecord] at hrest
        obtain ⟨rfl, rfl⟩ := hrest
        exact .refused (by simp [hrecord]) hsame
      | some record =>
        rw [hrecord] at hrest
        simp only [rotateLoaded] at hrest
        split_ifs at hrest with hrevoked
        · obtain ⟨n, hthrow⟩ := runs_write_bind (s := .revokeFamily record.familyId)
            (fun db => db.revoke fun t => t.familyId = record.familyId) (fun _ => rfl) hrest
          obtain ⟨rfl, rfl⟩ := hthrow
          refine .reused hrecord hrevoked ?_ hsame.users
          simp [AuthDb.revoke, passTime, hsame.tokens]
        · have hlive : record.revoked = false := by simpa using hrevoked
          have hrefused : ∀ r, db.loaded env presented = some r → r.revoked = false := by
            intro r hr
            rw [hrecord] at hr
            cases hr
            exact hlive
          obtain ⟨n, hcheck⟩ := runs_read_bind (s := .now) (fun db => db.clock) (fun _ => rfl) hrest
          split_ifs at hcheck
          · obtain ⟨rfl, rfl⟩ := hcheck
            exact .refused hrefused ⟨hsame.tokens, hsame.users⟩
          · rcases runs_bind.mp hcheck with ⟨e, rfl, he⟩ | ⟨next, z', hissue, hsave⟩
            · rcases runs_issue he with ⟨-, hsame'⟩ | ⟨_, _, ho, -⟩
              · exact .refused hrefused
                  ⟨hsame'.tokens.trans hsame.tokens, hsame'.users.trans hsame.users⟩
              · cases ho
            · rcases runs_issue hissue with ⟨⟨e, ho⟩, -⟩ | ⟨accessToken, now, ho, hnew, husers, htokens⟩
              · cases ho
              · cases ho
                obtain ⟨k, hret⟩ := runs_write_bind (s := .saveToken _)
                  (fun db => db.saveToken _) (fun _ => rfl) hsave
                obtain ⟨rfl, rfl⟩ := hret
                have htable : (passTime n z).refreshTokens = db.refreshTokens := hsame.tokens
                rw [htable] at hnew htokens
                refine .rotated hrecord hlive hnew ?_ (husers.trans hsame.users)
                simp [AuthDb.saveToken, passTime, htokens]

/-- **What a refresh has done**: a rotation with the claims for what is presented, or nothing. -/
theorem runs_refresh {presented : String} {ctx : RequestContext} {g : Generated}
    {o : Except Thrown IssuedTokens}
    (h : Runs (answers env) (refresh env presented ctx g) db o db') :
    ((∃ e, o = .error e) ∧ Same db db' ∧ (presented = "" ∨ db.claimed presented = none)) ∨
      ∃ claims o', db.claimed presented = some claims ∧
        Rotation env presented claims ctx g db o' db' ∧
        (∀ t, o = .ok t ↔ o' = .ok t) := by
  unfold refresh at h
  split_ifs at h with hempty
  · obtain ⟨rfl, rfl⟩ := h
    exact Or.inl ⟨⟨_, rfl⟩, ⟨rfl, rfl⟩, Or.inl hempty⟩
  · have hbody : ∀ {o' : Except Thrown IssuedTokens},
        Runs (answers env) (claimsFromRefresh presented >>= fun claims =>
          rotate env presented claims ctx g) db o' db' →
        ((∃ e, o' = .error e) ∧ Same db db' ∧ db.claimed presented = none) ∨
          ∃ claims, db.claimed presented = some claims ∧
            Rotation env presented claims ctx g db o' db' := by
      intro o' hrun
      rcases runs_bind.mp hrun with ⟨e, rfl, he⟩ | ⟨claims, z, hclaims, hrotate⟩
      · obtain ⟨hsame, ⟨-, hnone⟩ | ⟨claims, ho, -⟩⟩ := runs_claimsFromRefresh he
        · exact Or.inl ⟨⟨e, rfl⟩, hsame, hnone⟩
        · cases ho
      · obtain ⟨hsame, ⟨⟨e, ho⟩, -⟩ | ⟨claims', ho, hclaimed⟩⟩ := runs_claimsFromRefresh hclaims
        · cases ho
        · cases ho
          exact Or.inr ⟨claims, hclaimed, (runs_rotate hrotate).of_same hsame⟩
    rcases runs_tryCatch.mp h with ⟨t, rfl, ht⟩ | ⟨e, z, he, hthrow⟩
    · rcases hbody ht with ⟨⟨e, ho⟩, -⟩ | ⟨claims, hclaimed, hrot⟩
      · cases ho
      · exact Or.inr ⟨claims, _, hclaimed, hrot, fun _ => Iff.rfl⟩
    · obtain ⟨rfl, rfl⟩ := hthrow
      rcases hbody he with ⟨-, hsame, hnone⟩ | ⟨claims, hclaimed, hrot⟩
      · exact Or.inl ⟨⟨_, rfl⟩, hsame, Or.inr hnone⟩
      · exact Or.inr ⟨claims, _, hclaimed, hrot, by simp⟩

theorem AuthDb.loaded_stored {presented : String} {record : RefreshToken}
    (h : db.loaded env presented = some record) :
    db.refreshTokens.get? record.id = some record := by
  unfold loaded at h
  split at h
  · cases h
  · split at h
    · next found hfound =>
      split_ifs at h
      cases h
      exact AuthDb.findToken_ok hfound
    · cases h

end Handlers

/-! ### Effects -/

/-- **What an operation makes of the tokens.** -/
inductive Effect (t : Table RefreshToken.id) : Table RefreshToken.id → Prop
  | same : Effect t t
  | issued {row : RefreshToken} (hlive : row.revoked = false) (hlast : row.replacedBy = none)
      (hnew : t.get? row.id = none) (hfamily : ∀ x ∈ t.rows, x.familyId ≠ row.familyId) :
      Effect t (t.insert row)
  | rotated {record row : RefreshToken} (hget : t.get? record.id = some record)
      (hrecord : record.revoked = false) (hlive : row.revoked = false)
      (hlast : row.replacedBy = none) (hnew : t.get? row.id = none)
      (hfamily : row.familyId = record.familyId) :
      Effect t ((t.insert row).set { record with revoked := true, replacedBy := some row.id })
  | revoked (criteria : RefreshToken → Bool) :
      Effect t (t.mapRows (RefreshToken.updated criteria) (RefreshToken.updated_id criteria))

/-- The program leaves the tokens alone, or has the effect `E` on them. -/
def Leads {α : Type} (env : Env) (E : Table RefreshToken.id → Table RefreshToken.id → Prop)
    (p : Async α) : Prop := ∀ db o db', Runs (answers env) p db o db' →
  db'.refreshTokens = db.refreshTokens ∨ E db.refreshTokens db'.refreshTokens

section Effects

variable {env : Env} {E : Table RefreshToken.id → Table RefreshToken.id → Prop} {α β : Type}

theorem leads_of_sends {p : Async α} (h : p.Sends LeavesTokens) : Leads env E p :=
  fun _ _ _ hrun => Or.inl (same_tokens hrun h)

theorem Leads.bind {p : Async α} {f : α → Async β} (hp : p.Sends LeavesTokens)
    (hf : ∀ a, Leads env E (f a)) : Leads env E (p >>= f) := by
  intro db o db' hrun
  rcases runs_bind.mp hrun with ⟨e, -, he⟩ | ⟨a, z, ha, hrest⟩
  · exact Or.inl (same_tokens he hp)
  · have hsame := same_tokens ha hp
    have hlead := hf a _ _ _ hrest
    rw [hsame] at hlead
    exact hlead

/-- What a login may store. -/
def Issues (env : Env) (ctx : RequestContext) (g : Generated) (t t' : Table RefreshToken.id) :
    Prop := t.get? g.tokenId = none ∧
  ∃ claims now, t' = t.insert (newToken env claims g.familyId ctx g now)

theorem leads_issue (claims : AccessTokenClaims) (ctx : RequestContext) (g : Generated) :
    Leads env (Issues env ctx g) (issue env claims g.familyId ctx g) := by
  intro db o db' hrun
  rcases runs_issue hrun with ⟨-, hsame⟩ | ⟨_, now, -, hnew, -, htokens⟩
  · exact Or.inl hsame.tokens
  · exact Or.inr ⟨hnew, claims, now, htokens⟩

theorem leads_authenticate (dto : LoginDto) (ctx : RequestContext) (g : Generated) (user : User) :
    Leads env (Issues env ctx g) (authenticate env dto ctx g user) := by
  refine Leads.bind (sends_ask trivial) fun ok => ?_
  split_ifs
  · refine Leads.bind (sends_ask trivial) fun now => ?_
    refine Leads.bind (sends_ask trivial) fun _ => ?_
    exact Leads.bind (sends_ask trivial) fun _ => leads_issue _ ctx g
  · exact leads_of_sends (Prog.Sends.bind
      (sends_registerFailure trivial (fun _ => trivial) user) fun _ =>
      Prog.Sends.bind (sends_ask trivial) fun _ => trivial)

/-- **A login stores one token of its family**, or none. -/
theorem leads_login (dto : LoginDto) (ctx : RequestContext) (g : Generated) :
    Leads env (Issues env ctx g) (login env dto ctx g) := by
  refine Leads.bind (sends_ask trivial) fun found => ?_
  cases found with
  | none => exact leads_of_sends trivial
  | some user =>
    dsimp only [loginFound]
    split_ifs
    · split
      · exact leads_authenticate dto ctx g user
      · refine Leads.bind (sends_ask trivial) fun now => ?_
        split_ifs
        · exact leads_of_sends trivial
        · exact leads_authenticate dto ctx g user
    · exact leads_of_sends trivial

/-- **A change of password revokes the tokens of its account**, or none. -/
theorem leads_changePassword (userId : Uuid) (dto : ChangePasswordDto) (ctx : RequestContext)
    (salt : String) : Leads env (fun t t' => t' = t.mapRows
      (RefreshToken.updated fun x => x.userId = userId) (RefreshToken.updated_id _))
      (changePassword env userId dto ctx salt) := by
  refine Leads.bind (sends_ask trivial) fun found => ?_
  cases found with
  | none => exact leads_of_sends trivial
  | some user =>
    refine Leads.bind (sends_ask trivial) fun ok => ?_
    unfold changeVerified
    split_ifs
    · refine Leads.bind
        (sends_setPassword (fun _ => trivial) (fun _ => trivial) _ _ _) fun _ db o db' hrun => ?_
      obtain ⟨n, haudit⟩ := runs_write_bind (s := .revokeAllForUser userId)
        (fun db => db.revoke fun t => t.userId = userId) (fun _ => rfl) hrun
      have hsame := same_tokens haudit (sends_ask trivial)
      exact Or.inr hsame
    · exact leads_of_sends trivial

/-- **A logout revokes the token it is presented**, or none. -/
theorem leads_logout (presented : Option String) : Leads env (fun t t' => ∃ record,
    t.get? record.id = some record ∧ t' = t.put { record with revoked := true })
    (logout presented) := by
  have hnone : Leads env (fun t t' => ∃ record, t.get? record.id = some record ∧
      t' = t.put { record with revoked := true }) (pure () : Async Unit) := leads_of_sends trivial
  unfold logout
  split
  · exact hnone
  · next token =>
    split_ifs
    · exact hnone
    · intro db o db' hrun
      rcases runs_bind.mp hrun with ⟨e, rfl, he⟩ | ⟨found, z, hload, hrest⟩
      · exact Or.inl (runs_parseAndLoad he).1.tokens
      · obtain ⟨hsame, ⟨⟨e, ho⟩, -⟩ | ho⟩ := runs_parseAndLoad hload
        · cases ho
        · cases ho
          cases hrecord : db.loaded env token with
          | none =>
            rw [hrecord] at hrest
            obtain ⟨-, rfl⟩ := hrest
            exact Or.inl hsame.tokens
          | some record =>
            rw [hrecord] at hrest
            dsimp only [revokeLoaded] at hrest
            split_ifs at hrest
            · obtain ⟨-, rfl⟩ := hrest
              exact Or.inl hsame.tokens
            · obtain ⟨n, hx⟩ := runs_ask.mp hrest
              cases hx
              refine Or.inr ⟨record, AuthDb.loaded_stored hrecord, ?_⟩
              simp [AuthDb.saveToken, passTime, hsame.tokens]

/-- Revoking one stored token. -/
theorem put_revoked {t : Table RefreshToken.id} {record : RefreshToken}
    (h : t.get? record.id = some record) : t.put { record with revoked := true } =
      t.mapRows (RefreshToken.updated fun x => x.id = record.id) (RefreshToken.updated_id _) := by
  have hne : t.get? record.id ≠ none := by
    rw [h]
    simp
  rw [Table.put, if_neg hne]
  refine Table.ext (List.map_congr_left fun x hx => ?_)
  by_cases hid : x.id = record.id
  · have heq := Table.eq_of_key_eq hx (Table.mem_of_get? h).1 hid
    subst heq
    simp [RefreshToken.updated]
  · simp [RefreshToken.updated, hid]

/-- Replacing a token by its successor. -/
theorem put_replaced {t : Table RefreshToken.id} {record r : RefreshToken}
    (h : t.get? record.id = some record) : (t.insert r).put
      { record with revoked := true, replacedBy := some r.id } =
        (t.insert r).set { record with revoked := true, replacedBy := some r.id } := by
  refine if_neg fun hnone => ?_
  have hold := Table.get?_eq_none_of_insert hnone
  have hid : t.get? record.id = none := hold
  rw [h] at hid
  cases hid

theorem Rotation.effect {presented : String} {claims : AccessTokenClaims} {ctx : RequestContext}
    {g : Generated} {db db' : AuthDb} {o : Except Thrown IssuedTokens} (hg : g.tokenId < 2 ^ 128)
    (h : Rotation env presented claims ctx g db o db') :
    Effect db.refreshTokens db'.refreshTokens := by
  cases h with
  | refused hload hsame =>
    rw [hsame.tokens]
    exact .same
  | reused hload hrevoked htokens husers =>
    rw [htokens]
    exact .revoked _
  | @rotated record accessToken now _ hload hlive hnew htokens husers =>
    have hget := AuthDb.loaded_stored hload
    have hput := put_replaced (r := newToken env claims record.familyId ctx g now) hget
    rw [htokens, replaced_by hg]
    exact hput ▸ .rotated hget hlive rfl rfl hnew rfl

/-- **Every operation has one of these effects.** -/
theorem performs_effect {op : Operation} {db db' : AuthDb} {o : Except Thrown Outcome}
    (h : Performs env op db o db') (hfresh : Fresh db op) :
    Effect db.refreshTokens db'.refreshTokens := by
  have hsame : db'.refreshTokens = db.refreshTokens → Effect db.refreshTokens db'.refreshTokens := by
    intro heq
    rw [heq]
    exact .same
  cases h with
  | @request q _ _ _ hrun =>
    cases q with
    | login q =>
      obtain ⟨o', hlogin, -⟩ := runs_map.mp hrun
      rcases leads_login q.dto q.ctx q.g _ _ _ hlogin with heq | ⟨hnew, claims, now, hinsert⟩
      · exact hsame heq
      · rw [hinsert]
        exact .issued rfl rfl hnew hfresh.2
    | refresh q =>
      obtain ⟨o', hrefresh, -⟩ := runs_map.mp hrun
      rcases runs_refresh hrefresh with ⟨-, heq, -⟩ | ⟨claims, _, -, hrot, -⟩
      · exact hsame heq.tokens
      · exact hrot.effect hfresh
    | logout presented =>
      obtain ⟨o', hlogout, -⟩ := runs_map.mp hrun
      rcases leads_logout presented _ _ _ hlogout with heq | ⟨record, hget, hput⟩
      · exact hsame heq
      · rw [hput, put_revoked hget]
        exact .revoked _
    | changePassword q =>
      obtain ⟨o', hchange, -⟩ := runs_map.mp hrun
      rcases leads_changePassword q.userId q.dto q.ctx q.salt _ _ _ hchange with heq | hmany
      · exact hsame heq
      · rw [hmany]
        exact .revoked _
    | updateUser id dto =>
      obtain ⟨o', hupdate, -⟩ := runs_map.mp hrun
      exact hsame (same_tokens hupdate
        (sends_update (fun _ => trivial) (fun _ => trivial) id dto))
  | notFound hrun => exact hsame (runs_findById hrun).1.tokens
  | removed n hrun => exact hsame (runs_findById hrun).1.tokens

end Effects

end GameClub.Auth
