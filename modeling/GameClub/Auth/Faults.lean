import GameClub.Auth.Sequential
import GameClub.Lib.Faults

/-! # Failures of the database

One statement of an operation fails. The operation runs on the pool, without a transaction, so what
it has written before stays.

* `rotate_stops`, `changePassword_stops`: the tables where an operation stops.
* `fault_atomic_iff`: for which statement the tables are as before. -/

namespace GameClub.Auth

open GameClub.Lib GameClub.Common

/-- How a call is answered when the database fails: the clock, the signature and Argon2 do not need
it, and `record` of the audit service swallows the failure. -/
def fails : (s : Stmt) → Res s → Prop
  | .now, _ | .sign _, _ | .verify _ _, _ => False
  | .audit _, r => r = .ok ()
  | .findToken _, r | .insertToken _, r | .saveToken _, r | .revokeFamily _, r
  | .revokeAllForUser _, r | .findUserByEmail _, r | .findUserWithSecret _, r | .findUser _, r
  | .saveUser _, r => ∃ e, r = .error e

/-- The answers of a database that fails once. -/
abbrev faulty (env : Env) : Answers Res (AuthDb × Option Stmt) := Faulty (answers env) fails

/-- The failure of the statement is swallowed. -/
def Swallowed : Stmt → Prop
  | .audit _ => True
  | _ => False

theorem fails_error {s : Stmt} {r : Res s} (h : fails s r) (hs : ¬ Swallowed s) :
    ∃ e, r = .error e := by
  cases s with
  | audit entry => exact absurd trivial hs
  | now => exact h.elim
  | sign claims => exact h.elim
  | verify hash plain => exact h.elim
  | _ => exact h

/-! ### Programs that catch nothing -/

/-- The first call that rejects ends the program. -/
def Straight {α : Type} : Async α → Prop
  | .pure _ | .throw _ => True
  | .call _ k => (∀ e, k (.error e) = .throw e) ∧ ∀ a, Straight (k (.ok a))

theorem straight_ask {s : Stmt} : Straight (ask s) := ⟨fun _ => rfl, fun _ => trivial⟩

theorem Straight.bind {α β : Type} {p : Async α} {f : α → Async β} (hp : Straight p)
    (hf : ∀ a, Straight (f a)) : Straight (p >>= f) := by
  induction p with
  | pure a => exact hf a
  | throw e => exact trivial
  | call s k ih =>
    refine ⟨fun e => ?_, fun a => ih _ (hp.2 a)⟩
    change (k (.error e) >>= f) = _
    rw [hp.1 e]
    rfl

theorem Straight.reaches {α : Type} {A : Answers Res AuthDb} {p : Async α} {db db' : AuthDb}
    {s : Stmt} {k : Res s → Async α} (hp : Straight p) (h : Reaches A p db (.call s k) db')
    (e : Thrown) : k (.error e) = .throw e := by
  generalize hq : Prog.call s k = q at h
  induction h with
  | here =>
    subst hq
    exact hp.1 e
  | @call _ _ r _ _ _ _ hA hrest ih =>
    cases r with
    | ok a => exact ih (hp.2 a) hq
    | error e' =>
      rw [hp.1 e'] at hrest
      rw [reaches_throw hrest] at hq
      cases hq

/-- **The operation stops at the statement that fails.** -/
theorem Straight.faulted {α : Type} {env : Env} {p : Async α} {db db' : AuthDb} {s : Stmt}
    {o : Except Thrown α} (hp : Straight p) (h : Runs (faulty env) p (db, none) o (db', some s))
    (hs : ¬ Swallowed s) : ∃ k, Reaches (answers env) p db (.call s k) db' := by
  obtain ⟨k, db₁, r, hreach, hfails, hrun⟩ := h.faulted
  obtain ⟨e, rfl⟩ := fails_error hfails hs
  rw [hp.reaches hreach e] at hrun
  obtain ⟨-, rfl⟩ := hrun
  exact ⟨k, hreach⟩

/-- The points of a program that awaits a call. -/
theorem reaches_ask_bind {β : Type} {A : Answers Res AuthDb} {s₀ s : Stmt}
    {f : Reply s₀ → Async β} {k : Res s → Async β} {db db' : AuthDb}
    (h : Reaches A (ask s₀ >>= f) db (.call s k) db') :
    ((.call s k : Async β) = ask s₀ >>= f ∧ db' = db) ∨
      ∃ a db₁, A s₀ db (.ok a) db₁ ∧ Reaches A (f a) db₁ (.call s k) db' := by
  have hbind : (ask s₀ >>= f : Async β) =
      .call s₀ fun r => (liftM r : Async (Reply s₀)) >>= f := rfl
  rw [hbind] at h ⊢
  generalize hq : Prog.call s k = q at h
  cases h with
  | here => exact Or.inl ⟨rfl, rfl⟩
  | @call _ _ r _ _ _ _ hA hrest =>
    subst hq
    cases r with
    | ok a => exact Or.inr ⟨a, _, hA, hrest⟩
    | error e => cases reaches_throw hrest

/-- The statement reads. -/
def Reads : Stmt → Prop
  | .now | .sign _ | .verify _ _ | .findToken _ | .findUserByEmail _ | .findUserWithSecret _
  | .findUser _ => True
  | _ => False

/-- The statement saves a token, the one that is replaced. -/
def SavesToken : Stmt → Prop
  | .saveToken _ => True
  | _ => False

/-- The statement revokes the tokens of an account. -/
def RevokesAll : Stmt → Prop
  | .revokeAllForUser _ => True
  | _ => False

/-- The statement is not one of those a write comes before. -/
def Early (s : Stmt) : Prop := ¬ SavesToken s ∧ ¬ RevokesAll s ∧ ¬ Swallowed s

theorem Reads.early {s : Stmt} (h : Reads s) : Early s := by
  cases s <;> first | exact h.elim | exact ⟨id, id, id⟩

section

variable {env : Env} {db db' : AuthDb} {s : Stmt}

theorem answers_reads (hs : Reads s) {r : Res s} (h : answers env s db r db') : Same db db' := by
  obtain ⟨n, hx⟩ := h
  cases s with
  | now => cases hx; exact ⟨rfl, rfl⟩
  | sign claims => cases hx; exact ⟨rfl, rfl⟩
  | verify hash plain => cases hx; exact ⟨rfl, rfl⟩
  | findToken id => cases hx; exact ⟨rfl, rfl⟩
  | findUserByEmail email => cases hx; exact ⟨rfl, rfl⟩
  | findUserWithSecret id => cases hx; exact ⟨rfl, rfl⟩
  | findUser id => cases hx; exact ⟨rfl, rfl⟩
  | _ => exact hs.elim

/-- A part that reads: where it stops the tables are as before, and so is what it stops at. -/
theorem reaches_reads {α : Type} {p : Async α} (hp : p.Sends Reads) {k : Res s → Async α}
    (h : Reaches (answers env) p db (.call s k) db') : Same db db' ∧ Reads s := by
  generalize hq : Prog.call s k = q at h
  induction h with
  | here =>
    subst hq
    exact ⟨⟨rfl, rfl⟩, hp.1⟩
  | call hA hrest ih =>
    obtain ⟨hsame, hreads⟩ := ih (hp.2 _) hq
    exact ⟨(answers_reads hp.1 hA).trans hsame, hreads⟩

end

/-! ### Rotation -/

theorem straight_parseAndLoad (presented : String) : Straight (parseAndLoad presented) := by
  unfold parseAndLoad
  split
  · exact trivial
  · refine straight_ask.bind fun found => ?_
    cases found with
    | none => exact trivial
    | some record => exact straight_ask.bind fun _ => trivial

section

variable {env : Env} {presented : String} {claims : AccessTokenClaims} {ctx : RequestContext}
  {g : Generated}

theorem straight_rotate : Straight (rotate env presented claims ctx g) := by
  refine (straight_parseAndLoad presented).bind fun loaded => ?_
  cases loaded with
  | none => exact trivial
  | some record =>
    unfold rotateLoaded
    dsimp only
    split_ifs
    · exact straight_ask.bind fun _ => trivial
    · refine straight_ask.bind fun now => ?_
      split_ifs
      · exact trivial
      · refine Straight.bind ?_ fun next => straight_ask.bind fun _ => trivial
        exact straight_ask.bind fun _ => straight_ask.bind fun _ =>
          straight_ask.bind fun _ => trivial

/-- The statement a program starts with. -/
theorem ask_head {β : Type} {s s₀ : Stmt} {f : Reply s₀ → Async β} {k : Res s → Async β}
    (h : (.call s k : Async β) = ask s₀ >>= f) : s = s₀ := by
  have hbind : (ask s₀ >>= f : Async β) =
      .call s₀ fun r => (liftM r : Async (Reply s₀)) >>= f := rfl
  rw [hbind] at h
  cases h
  rfl

/-- An issue stops before it writes. -/
theorem issue_stops {db db' : AuthDb} {s : Stmt} {familyId : Uuid} {k : Res s → Async IssuedTokens}
    (h : Reaches (answers env) (issue env claims familyId ctx g) db (.call s k) db') :
    Early s ∧ Same db db' := by
  rcases reaches_ask_bind h with ⟨hs, rfl⟩ | ⟨_, db₁, hA, h⟩
  · obtain rfl := ask_head hs
    exact ⟨⟨id, id, id⟩, rfl, rfl⟩
  · have hsame := answers_reads (s := .sign claims) trivial hA
    rcases reaches_ask_bind h with ⟨hs, rfl⟩ | ⟨now, db₂, hA, h⟩
    · obtain rfl := ask_head hs
      exact ⟨⟨id, id, id⟩, hsame⟩
    · have hsame' := hsame.trans (answers_reads (s := .now) trivial hA)
      rcases reaches_ask_bind h with ⟨hs, rfl⟩ | ⟨_, db₃, -, h⟩
      · obtain rfl := ask_head hs
        exact ⟨⟨id, id, id⟩, hsame'⟩
      · cases reaches_pure h

/-- **Where a rotation stops**: nothing is written, or the successor is inserted and the token it
replaces is live as before. -/
theorem rotate_stops {db db' : AuthDb} {s : Stmt} {k : Res s → Async IssuedTokens}
    (h : Reaches (answers env) (rotate env presented claims ctx g) db (.call s k) db') :
    (Early s ∧ Same db db') ∨ (SavesToken s ∧ ∃ record next : RefreshToken,
      db.loaded env presented = some record ∧ record.revoked = false ∧
        next.familyId = record.familyId ∧ next.revoked = false ∧
        db.refreshTokens.get? next.id = none ∧ db'.users = db.users ∧
        db'.refreshTokens = db.refreshTokens.insert next) := by
  rcases reaches_bind h with ⟨k', -, hreach⟩ | ⟨found, db₁, hload, hrest⟩
  · obtain ⟨hsame, hreads⟩ := reaches_reads
      (sends_parseAndLoad (fun _ => trivial) (fun _ _ => trivial) presented) hreach
    exact Or.inl ⟨hreads.early, hsame⟩
  · obtain ⟨hsame, ⟨⟨e, ho⟩, -⟩ | ho⟩ := runs_parseAndLoad hload
    · cases ho
    · cases ho
      cases hrecord : db.loaded env presented with
      | none =>
        rw [hrecord] at hrest
        cases reaches_throw hrest
      | some record =>
        rw [hrecord] at hrest
        simp only [rotateLoaded] at hrest
        split_ifs at hrest with hrevoked
        · rcases reaches_ask_bind hrest with ⟨hs, rfl⟩ | ⟨_, db₂, -, hthrow⟩
          · obtain rfl := ask_head hs
            exact Or.inl ⟨⟨id, id, id⟩, hsame⟩
          · cases reaches_throw hthrow
        · have hlive : record.revoked = false := by simpa using hrevoked
          rcases reaches_ask_bind hrest with ⟨hs, rfl⟩ | ⟨now, db₂, hA, hrest⟩
          · obtain rfl := ask_head hs
            exact Or.inl ⟨⟨id, id, id⟩, hsame⟩
          · have hsame' := hsame.trans (answers_reads (s := .now) trivial hA)
            split_ifs at hrest
            · cases reaches_throw hrest
            · rcases reaches_bind hrest with ⟨k', -, hreach⟩ | ⟨next, db₃, hissue, hrest⟩
              · obtain ⟨hnot, hsame''⟩ := issue_stops hreach
                exact Or.inl ⟨hnot, hsame'.trans hsame''⟩
              · rcases runs_issue hissue with ⟨⟨e, ho⟩, -⟩ | ⟨_, issuedAt, -, hnew, husers, htokens⟩
                · cases ho
                · rcases reaches_ask_bind hrest with ⟨hs, rfl⟩ | ⟨_, db₄, -, hret⟩
                  · obtain rfl := ask_head hs
                    rw [hsame'.tokens] at hnew htokens
                    exact Or.inr ⟨trivial, record, newToken env claims record.familyId ctx g issuedAt,
                      rfl, hlive, rfl, rfl, hnew, husers.trans hsame'.users, htokens⟩
                  · cases reaches_pure hret

end

/-! ### Password changes -/

/-- The row of an account once its password is set. -/
def User.withHash (user : User) (passwordHash : String) : User := { user with passwordHash }

section

variable {env : Env} {userId : Uuid} {dto : ChangePasswordDto} {ctx : RequestContext}
  {salt : String}

theorem straight_findById (id : UuidText) : Straight (findById id) := by
  refine straight_ask.bind fun found => ?_
  cases found <;> exact trivial

theorem straight_changePassword : Straight (changePassword env userId dto ctx salt) := by
  refine straight_ask.bind fun found => ?_
  cases found with
  | none => exact trivial
  | some user =>
    refine straight_ask.bind fun ok => ?_
    unfold changeVerified
    split_ifs
    · refine Straight.bind ?_ fun _ => straight_ask.bind fun _ => straight_ask
      exact (straight_findById _).bind fun user => straight_ask
    · exact trivial

/-- What `save` leaves of an account whose password is set. -/
theorem savedUser_withHash (db : AuthDb) (user : User) (hash : String) :
    db.savedUser (user.profile.withPassword hash) = .ok (user.withHash hash) := rfl

/-- The account after its password is set. -/
theorem runs_setPassword {db db' : AuthDb} {newPassword : String} {o : Except Thrown Unit}
    (h : Runs (answers env) (setPassword env userId newPassword salt) db o db') :
    (∃ e, o = .error e ∧ Same db db') ∨ ∃ user, db.findUser userId = some user ∧
      db'.refreshTokens = db.refreshTokens ∧
      db'.users = db.users.put (user.withHash (env.hashPassword newPassword salt)) := by
  rcases runs_bind.mp h with ⟨e, rfl, he⟩ | ⟨user, db₁, hfound, hsave⟩
  · exact Or.inl ⟨e, rfl, (runs_findById he).1⟩
  · obtain ⟨hsame, ⟨⟨e, ho⟩, -⟩ | ⟨user, ho, huser⟩⟩ := runs_findById hfound
    · cases ho
    · cases ho
      obtain ⟨n, hx⟩ := runs_ask.mp hsave
      simp only [exec, AuthDb.execSaveUser, savedUser_withHash] at hx
      cases hx
      refine Or.inr ⟨user, huser, hsame.tokens, ?_⟩
      simp [passTime, hsame.users]

/-- **Where a password change stops**: nothing is written, or the password is set and no token is
revoked, or only the audit entry is left. -/
theorem changePassword_stops {db db' : AuthDb} {s : Stmt} {k : Res s → Async Unit}
    (h : Reaches (answers env) (changePassword env userId dto ctx salt) db (.call s k) db') :
    (Early s ∧ Same db db') ∨
    (RevokesAll s ∧ ∃ user, db.findUser userId = some user ∧
      db'.refreshTokens = db.refreshTokens ∧
      db'.users = db.users.put (user.withHash (env.hashPassword dto.newPassword salt))) ∨
    (Swallowed s ∧ ∀ r, fails s r → k r = pure ()) := by
  rcases reaches_ask_bind h with ⟨hs, rfl⟩ | ⟨found, db₁, hA, h⟩
  · obtain rfl := ask_head hs
    exact Or.inl ⟨⟨id, id, id⟩, rfl, rfl⟩
  · have hsame := answers_reads (s := .findUserWithSecret userId) trivial hA
    cases found with
    | none => cases reaches_throw h
    | some user =>
      rcases reaches_ask_bind h with ⟨hs, rfl⟩ | ⟨ok, db₂, hA', h⟩
      · obtain rfl := ask_head hs
        exact Or.inl ⟨⟨id, id, id⟩, hsame⟩
      · have hsame' := hsame.trans
          (answers_reads (s := .verify user.passwordHash dto.currentPassword) trivial hA')
        unfold changeVerified at h
        split_ifs at h
        · rcases reaches_bind h with ⟨k', -, hset⟩ | ⟨_, db₃, hset, h⟩
          · rcases reaches_bind hset with ⟨k'', -, hfind⟩ | ⟨profile, db₃, hfind, hsave⟩
            · rcases reaches_ask_bind hfind with ⟨hs, rfl⟩ | ⟨found, db₃, -, hret⟩
              · obtain rfl := ask_head hs
                exact Or.inl ⟨⟨id, id, id⟩, hsame'⟩
              · cases found with
                | none => cases reaches_throw hret
                | some profile => cases reaches_pure hret
            · have hsame'' := hsame'.trans (runs_findById hfind).1
              cases hsave with
              | here => exact Or.inl ⟨⟨id, id, id⟩, hsame''⟩
              | @call _ _ r _ _ _ _ hA hrest =>
                cases r with
                | ok a => cases reaches_pure hrest
                | error e => cases reaches_throw hrest
          · rcases runs_setPassword hset with ⟨e, ho, -⟩ | ⟨user', huser, htokens, husers⟩
            · cases ho
            · have huser' : db.findUser userId = some user' := by
                rw [← huser]
                unfold AuthDb.findUser
                rw [hsame'.users]
              rw [hsame'.tokens] at htokens
              rw [hsame'.users] at husers
              rcases reaches_ask_bind h with ⟨hs, rfl⟩ | ⟨_, db₄, -, h⟩
              · obtain rfl := ask_head hs
                exact Or.inr (Or.inl ⟨trivial, user', huser', htokens, husers⟩)
              · cases h with
                | here =>
                  refine Or.inr (Or.inr ⟨trivial, fun r hr => ?_⟩)
                  obtain rfl : r = .ok () := hr
                  rfl
                | @call _ _ r _ _ _ _ hA hrest =>
                  cases r with
                  | ok a => cases reaches_pure hrest
                  | error e => cases reaches_throw hrest
        · cases reaches_throw h

end

/-! ### Which failures leave the tables alone -/

/-- A rotation that a failure has ended has not swallowed it. -/
theorem rotate_not_swallowed {env : Env} {presented : String} {claims : AccessTokenClaims}
    {ctx : RequestContext} {g : Generated} {db db' : AuthDb} {s : Stmt}
    {o : Except Thrown IssuedTokens} (h : Runs (faulty env) (rotate env presented claims ctx g)
      (db, none) o (db', some s)) : ¬ Swallowed s := by
  obtain ⟨k, z, r, hreach, -, -⟩ := h.faulted
  rcases rotate_stops hreach with ⟨⟨-, -, hnot⟩, -⟩ | ⟨hsave, -⟩
  · exact hnot
  · intro hs
    cases s with
    | audit entry => exact hsave
    | _ => exact hs

/-- A password change whose audit entry is not stored returns. -/
theorem changePassword_not_swallowed {env : Env} {userId : Uuid} {dto : ChangePasswordDto}
    {ctx : RequestContext} {salt : String} {db db' : AuthDb} {s : Stmt} {e : Thrown}
    (h : Runs (faulty env) (changePassword env userId dto ctx salt) (db, none) (.error e)
      (db', some s)) : ¬ Swallowed s := by
  obtain ⟨k, z, r, hreach, hfails, hrun⟩ := h.faulted
  rcases changePassword_stops hreach with ⟨⟨-, -, hnot⟩, -⟩ | ⟨hrevoke, -⟩ | ⟨-, hlast⟩
  · exact hnot
  · intro hs
    cases s with
    | audit entry => exact hrevoke
    | _ => exact hs
  · rw [hlast r hfails] at hrun
    obtain ⟨ho, -⟩ := hrun
    cases ho

/-- A new row is a change. -/
theorem insert_ne {t : Table RefreshToken.id} {next : RefreshToken} (h : t.get? next.id = none) :
    t.insert next ≠ t := fun heq => by
  have hget := Table.get?_insert_self h
  rw [heq, h] at hget
  cases hget

/-- **The tables after an operation that a failure has ended** are as before it, for a rotation
unless the save of the replaced token has failed, for a password change unless the revocation of the
tokens has failed and the new hash is another one. -/
theorem fault_atomic_iff (env : Env) (db db' : AuthDb) (s : Stmt) (e : Thrown) :
    (∀ presented claims ctx g,
      Runs (faulty env) (rotate env presented claims ctx g) (db, none) (.error e) (db', some s) →
      (Same db db' ↔ ¬ SavesToken s)) ∧
    (∀ userId dto ctx salt,
      Runs (faulty env) (changePassword env userId dto ctx salt) (db, none) (.error e)
        (db', some s) →
      (Same db db' ↔ ¬ RevokesAll s ∨ ∃ user, db.findUser userId = some user ∧
        env.hashPassword dto.newPassword salt = user.passwordHash)) := by
  constructor
  · intro presented claims ctx g h
    obtain ⟨k, hreach⟩ := straight_rotate.faulted h (rotate_not_swallowed h)
    rcases rotate_stops hreach with ⟨⟨hnot, -⟩, hsame⟩ |
      ⟨hsave, record, next, -, -, -, -, hnew, -, htokens⟩
    · exact ⟨fun _ => hnot, fun _ => hsame⟩
    · have hchanged : ¬ Same db db' := fun hsame =>
        insert_ne hnew (htokens.symm.trans hsame.tokens)
      exact ⟨fun hsame => absurd hsame hchanged, fun hnot => absurd hsave hnot⟩
  · intro userId dto ctx salt h
    obtain ⟨k, hreach⟩ := straight_changePassword.faulted h (changePassword_not_swallowed h)
    rcases changePassword_stops hreach with ⟨⟨-, hnot, -⟩, hsame⟩ |
      ⟨hrevoke, user, huser, htokens, husers⟩ | ⟨hswallowed, -⟩
    · exact ⟨fun _ => Or.inl hnot, fun _ => hsame⟩
    · have hget := (AuthDb.findUser_eq_some.mp huser).1
      have hid : user.id = userId := Table.key_of_get? hget
      constructor
      · intro hsame
        refine Or.inr ⟨user, huser, ?_⟩
        have hkey : userId = (user.withHash (env.hashPassword dto.newPassword salt)).id := hid.symm
        have hput := Table.get?_put db.users
          (user.withHash (env.hashPassword dto.newPassword salt)) userId
        rw [← husers, hsame.users, hget, if_pos hkey] at hput
        exact congrArg User.passwordHash (Option.some.inj hput).symm
      · rintro (hnot | ⟨user', huser', hhash⟩)
        · exact absurd hrevoke hnot
        · obtain rfl : user = user' := Option.some.inj (huser.symm.trans huser')
          have hsame : user.withHash (env.hashPassword dto.newPassword salt) = user := by
            unfold User.withHash
            rw [hhash]
          rw [hsame, Table.put_self (by rw [hid]; exact hget)] at husers
          exact ⟨htokens, husers⟩
    · exact absurd hswallowed (changePassword_not_swallowed h)

/-! ### Two failures -/

/-- What a rejected statement throws. -/
def connectionLost : Thrown := .error "Connection terminated unexpectedly"

/-- The answers of a database on which the statements `bad` fail, as long as none has. -/
def failingAt (env : Env) (bad : Stmt → Bool) (s : Stmt) (x : AuthDb × Option Stmt) :
    Res s × AuthDb × Option Stmt :=
  if x.2.isNone && bad s then (.error connectionLost, x.1, some s)
  else ((exec env s x.1).1, (exec env s x.1).2, x.2)

theorem runs_failingAt {α : Type} (env : Env) {bad : Stmt → Bool}
    (hbad : ∀ s, bad s = true → fails s (.error connectionLost)) (p : Async α)
    (x : AuthDb × Option Stmt) :
    Runs (faulty env) p x (serve (failingAt env bad) p x).1 (serve (failingAt env bad) p x).2 := by
  refine runs_serve (fun s x => ?_) p x
  unfold failingAt
  split_ifs with hfail
  · obtain ⟨hnone, hs⟩ : x.2 = none ∧ bad s = true := by simpa using hfail
    exact Or.inr ⟨hnone, rfl, hbad s hs⟩
  · exact Or.inl ⟨rfl, answers_exec env s x.1⟩

/-- A run that rejects and leaves a store with `good`, in which a statement with `bad` has
failed. -/
theorem exists_failing {α : Type} (env : Env) {bad : Stmt → Bool}
    (hbad : ∀ s, bad s = true → fails s (.error connectionLost)) (p : Async α) (db : AuthDb)
    (good : AuthDb → Bool) (hcheck : (match serve (failingAt env bad) p (db, none) with
      | (.error _, db', some s) => bad s && good db'
      | _ => false) = true) :
    ∃ e db' s, Runs (faulty env) p (db, none) (.error e) (db', some s) ∧ bad s = true ∧
      good db' = true := by
  have hrun := runs_failingAt env hbad p (db, none)
  rcases hserve : serve (failingAt env bad) p (db, none) with ⟨o, db', hit⟩
  rw [hserve] at hrun hcheck
  cases o with
  | ok a => cases hcheck
  | error e =>
    cases hit with
    | none => cases hcheck
    | some s =>
      have hboth : bad s = true ∧ good db' = true := by simpa using hcheck
      exact ⟨e, db', s, hrun, hboth⟩

def isSaveToken : Stmt → Bool
  | .saveToken _ => true
  | _ => false

def isRevokeAll : Stmt → Bool
  | .revokeAllForUser _ => true
  | _ => false

theorem fails_saveToken (s : Stmt) (h : isSaveToken s = true) :
    fails s (.error connectionLost) := by
  cases s with
  | saveToken record => exact ⟨_, rfl⟩
  | _ => cases h

theorem fails_revokeAll (s : Stmt) (h : isRevokeAll s = true) :
    fails s (.error connectionLost) := by
  cases s with
  | revokeAllForUser userId => exact ⟨_, rfl⟩
  | _ => cases h

/-- The rotation of the first token. -/
def rotateFirst : Async IssuedTokens :=
  rotate plainEnv (refreshTokenText 2 "secret") ⟨1, "cashier@club.uz", .cashier⟩ noContext
    ⟨0, 4, "next", "salt", ""⟩

/-- A password change of the cashier. -/
def changeFirst : Async Unit :=
  changePassword plainEnv 1 newPasswordDto noContext ""

/-- The tokens of a family that are not revoked. -/
def liveTokens (db : AuthDb) (familyId : Uuid) : List Uuid :=
  (db.refreshTokens.rows.filter fun t => t.familyId = familyId && !t.revoked).map RefreshToken.id

/-- **What a failure leaves**: a rotation that rejects leaves two live tokens in the family, and a
password change that rejects leaves the new password in force with the old token live. -/
theorem failures_leave_writes :
    (∃ e db' s, Runs (faulty plainEnv) rotateFirst (oneLogin, none) (.error e) (db', some s) ∧
      liveTokens db' 3 = [2, 4]) ∧
    (∃ e db' s, Runs (faulty plainEnv) changeFirst (oneLogin, none) (.error e) (db', some s) ∧
      (db'.users.get? 1).map User.passwordHash = some (plainEnv.hashPassword "N3w-Passw0rd" "") ∧
      liveTokens db' 3 = [2]) := by
  constructor
  · obtain ⟨e, db', s, hrun, -, hgood⟩ :=
      exists_failing plainEnv fails_saveToken rotateFirst oneLogin
      (fun db' => liveTokens db' 3 = [2, 4]) (by decide +kernel)
    exact ⟨e, db', s, hrun, of_decide_eq_true hgood⟩
  · obtain ⟨e, db', s, hrun, -, hgood⟩ :=
      exists_failing plainEnv fails_revokeAll changeFirst oneLogin
      (fun db' => (db'.users.get? 1).map User.passwordHash =
        some (plainEnv.hashPassword "N3w-Passw0rd" "") ∧ liveTokens db' 3 = [2])
      (by decide +kernel)
    obtain ⟨hhash, hlive⟩ := of_decide_eq_true hgood
    exact ⟨e, db', s, hrun, hhash, hlive⟩

def isInsertToken : Stmt → Bool
  | .insertToken _ => true
  | _ => false

theorem fails_insertToken (s : Stmt) (h : isInsertToken s = true) :
    fails s (.error connectionLost) := by
  cases s with
  | insertToken row => exact ⟨_, rfl⟩
  | _ => cases h

/-- A rotation that cannot insert the successor changes nothing; a password change that cannot revoke
the tokens does. -/
theorem fault_atomic_insert :
    (∃ e db' s, Runs (faulty plainEnv) rotateFirst (oneLogin, none) (.error e) (db', some s) ∧
      isInsertToken s = true ∧ Same oneLogin db') ∧
    ∃ e db' s, Runs (faulty plainEnv) changeFirst (oneLogin, none) (.error e) (db', some s) ∧
      isRevokeAll s = true ∧ ¬ Same oneLogin db' := by
  constructor
  · obtain ⟨e, db', s, hrun, hs, -⟩ := exists_failing plainEnv fails_insertToken rotateFirst oneLogin
      (fun _ => true) (by decide +kernel)
    have hnot : ¬ SavesToken s := by
      cases s with
      | insertToken row => exact not_false
      | _ => cases hs
    exact ⟨e, db', s, hrun, hs, ((fault_atomic_iff plainEnv oneLogin db' s e).1 _ _ _ _ hrun).mpr hnot⟩
  · obtain ⟨e, db', s, hrun, hs, -⟩ := exists_failing plainEnv fails_revokeAll changeFirst oneLogin
      (fun _ => true) (by decide +kernel)
    have hrevokes : RevokesAll s := by
      cases s with
      | revokeAllForUser userId => trivial
      | _ => cases hs
    have hchanged : (oneLogin.findUser 1).all (fun user =>
        decide (plainEnv.hashPassword newPasswordDto.newPassword "" ≠ user.passwordHash)) = true := by
      decide +kernel
    refine ⟨e, db', s, hrun, hs, fun hsame => ?_⟩
    rcases ((fault_atomic_iff plainEnv oneLogin db' s e).2 _ _ _ _ hrun).mp hsame with
      hnot | ⟨user, huser, hhash⟩
    · exact hnot hrevokes
    · rw [huser] at hchanged
      exact of_decide_eq_true hchanged hhash

end GameClub.Auth
