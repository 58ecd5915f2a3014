import GameClub.Auth.Logins

/-! # Logins and changes of an account

`login` loads an account with its hash, verifies the password and saves the whole account, also when
the password was wrong. What was stored in between is written over.

* `login_undoes_nothing`: where no login holds the account while its password is changed, and no
  request holds it active while it is deactivated, the stored hash is one of the last new password
  and a deactivated account stays so.
* `login_undoes_both`: a login in between. -/

namespace GameClub.Auth

open GameClub.Lib GameClub.Lib.Interleave GameClub.Common

/-! ### What has happened to an account -/

/-- **A hash of a password**: one computed from it when it was set, or computed again from a password
that such a hash verified. -/
inductive HashOf (env : Env) (plain : String) : String → Prop
  | set (salt : String) : HashOf env plain (env.hashPassword plain salt)
  | rehashed {hash password : String} (salt : String) (h : HashOf env plain hash)
      (hverify : env.verify hash password = true) : HashOf env plain (env.hashPassword password salt)

/-- The password that a call stores for the account `u`. -/
def passwordChange (u : Uuid) : AuthEvent → Option String
  | .called _ (.savingPassword q _ profile) _ =>
    if profile.id = u then some q.dto.newPassword else none
  | _ => none

/-- What a call of `update` makes of `isActive`, if it sets it and is accepted. -/
def activation (u : Uuid) : AuthEvent → Option Bool
  | .called _ (.savingUpdate profile dto) db =>
    match db.savedUser (profile.assign dto) with
    | .ok row => if profile.id = u ∧ dto.isActive ≠ none then some row.isActive else none
    | .error _ => none
  | _ => none

/-- **The last password the account was given.** -/
def lastPassword (u : Uuid) (tr : List AuthEvent) : Option String := tr.findSome? (passwordChange u)

/-- **What the last update of `isActive` set it to.** -/
def lastActivation (u : Uuid) (tr : List AuthEvent) : Option Bool := tr.findSome? (activation u)

/-! ### Copies in flight -/

namespace Phase

/-- A login holds the account. -/
def HoldsLogin (u : Uuid) (p : Phase) : Prop := ∃ user, p.login = some user ∧ user.id = u

/-- The request holds the account as an active one. -/
def HoldsActive (u : Uuid) (p : Phase) : Prop :=
  (∃ user, p.login = some user ∧ user.id = u ∧ user.isActive = true) ∨
    ∃ profile, p.changing = some profile ∧ profile.id = u ∧ profile.isActive = true

theorem NoCopy.not_holdsActive {p : Phase} (h : p.NoCopy) (u : Uuid) : ¬ p.HoldsActive u := by
  rintro (⟨user, hlogin, -⟩ | ⟨profile, hchanging, -⟩)
  · rw [h.login] at hlogin
    cases hlogin
  · rw [h.changing] at hchanging
    cases hchanging

end Phase

/-- **The password of the account is changed only while no login holds it**, and it is deactivated
only while no request holds it active. -/
def Undisturbed (u : Uuid) (c : AuthConfig) : AuthEvent → Prop
  | .called _ (.savingPassword _ _ profile) _ => profile.id = u → ¬ c.InFlight (·.HoldsLogin u)
  | .called _ (.savingUpdate profile dto) _ => profile.id = u → dto.isActive = some (some false) →
      ¬ c.InFlight (·.HoldsActive u)
  | _ => True

/-! ### The invariant -/

section

variable (env : Env) (u : Uuid)

/-- The stored hash and those in flight are of this password. -/
structure HasPassword (plain : String) (c : AuthConfig) : Prop where
  stored : ∃ row, c.db.users.get? u = some row ∧ HashOf env plain row.passwordHash
  held : ∀ i p user, c.threads i = some p → p.login = some user → user.id = u →
    HashOf env plain user.passwordHash

/-- The account is stored as an inactive one, and no request holds it active. -/
structure Inactive (c : AuthConfig) : Prop where
  stored : ∃ row, c.db.users.get? u = some row ∧ row.isActive = false
  held : ¬ c.InFlight (·.HoldsActive u)

/-- **What holds of the account** after what has happened. -/
structure Kept (tr : List AuthEvent) (c : AuthConfig) : Prop where
  verified : ∀ i q user, c.threads i = some (.datingLogin q user) →
    env.verify user.passwordHash q.dto.password = true
  password : ∀ plain, lastPassword u tr = some plain → HasPassword env u plain c
  inactive : lastActivation u tr = some false → Inactive u c

end

section Call

variable {env : Env} {u : Uuid} {c : AuthConfig} {i : ℕ} {p p' : Phase}

/-- The account a login holds after a call was held before, or has just been loaded; its hash is the
one it had, or a new one of the password that was verified. -/
theorem AccountStep.login_of {db : AuthDb} (h : AccountStep env db p p') {user' : User}
    (hlogin : p'.login = some user') : db.users.get? user'.id = some user' ∨
      ∃ user, p.login = some user ∧ user'.id = user.id ∧ user'.isActive = user.isActive ∧
        (user'.passwordHash = user.passwordHash ∨ ∃ q, p = .datingLogin q user ∧
          user'.passwordHash = env.hashPassword q.dto.password q.g.passwordSalt) := by
  cases h with
  | load hp hget hp' =>
    subst hp'
    rw [Phase.login_loaded hlogin]
    exact Or.inl hget
  | @unlocked q user lockedUntil hp hclock hp' =>
    subst hp hp'
    cases hlogin
    exact Or.inr ⟨_, rfl, rfl, rfl, Or.inl rfl⟩
  | @right q user hp hverify hp' =>
    subst hp hp'
    cases hlogin
    exact Or.inr ⟨_, rfl, rfl, rfl, Or.inl rfl⟩
  | @wrong q user hp hverify hp' =>
    subst hp hp'
    rw [Phase.login_wrong] at hlogin
    cases hlogin
    exact Or.inr ⟨user, rfl, rfl, rfl, Or.inl rfl⟩
  | @lock q user hp hp' =>
    subst hp hp'
    cases hlogin
    exact Or.inr ⟨user, rfl, rfl, rfl, Or.inl rfl⟩
  | @enter q user hp hp' =>
    subst hp hp'
    cases hlogin
    refine Or.inr ⟨user, rfl, rfl, rfl, ?_⟩
    by_cases hrehash : env.needsRehash user.passwordHash = true
    · exact Or.inr ⟨q, rfl, if_pos hrehash⟩
    · exact Or.inl (if_neg hrehash)
  | find hp hget hp' =>
    subst hp'
    cases hlogin
  | drop hp' =>
    rw [hp'.login] at hlogin
    cases hlogin

/-- What `setPassword` holds after a call has just been loaded. -/
theorem AccountStep.changing_of {db : AuthDb} (h : AccountStep env db p p') {profile : Profile}
    (hchanging : p'.changing = some profile) :
    ∃ row, db.users.get? profile.id = some row ∧ row.profile = profile := by
  cases h with
  | @find q user row hp hget hp' =>
    subst hp'
    cases hchanging
    exact ⟨row, hget, rfl⟩
  | load hp hget hp' =>
    subst hp'
    unfold Phase.loaded at hchanging
    split_ifs at hchanging
    · split at hchanging <;> cases hchanging
    · cases hchanging
  | wrong hp hverify hp' =>
    subst hp'
    unfold Phase.wrong at hchanging
    split_ifs at hchanging <;> cases hchanging
  | drop hp' =>
    rw [hp'.changing] at hchanging
    cases hchanging
  | _ =>
    subst_vars
    cases hchanging

theorem AccountStep.verified {db : AuthDb} (h : AccountStep env db p p') {q : LoginCall} {user : User}
    (hp' : p' = .datingLogin q user) : env.verify user.passwordHash q.dto.password = true := by
  subst hp'
  cases h with
  | right hp hverify heq =>
    cases heq
    exact hverify
  | load hp hget heq =>
    unfold Phase.loaded at heq
    split_ifs at heq
    · split at heq <;> cases heq
    · cases heq
  | wrong hp hverify heq =>
    unfold Phase.wrong at heq
    split_ifs at heq
  | drop hnone => cases hnone.login
  | unlocked hp hclock heq => cases heq
  | lock hp heq => cases heq
  | enter hp heq => cases heq
  | find hp hget heq => cases heq

/-! ### Events -/

theorem passwordChange_eq_some {db : AuthDb} {plain : String}
    (h : passwordChange u (.called i p db) = some plain) : ∃ q user profile,
      p = .savingPassword q user profile ∧ profile.id = u ∧ q.dto.newPassword = plain := by
  cases p with
  | savingPassword q user profile =>
    simp only [passwordChange] at h
    split_ifs at h with hid
    exact ⟨q, user, profile, rfl, hid, Option.some.inj h⟩
  | _ => cases h

theorem activation_eq_some {db : AuthDb} {b : Bool} (h : activation u (.called i p db) = some b) :
    ∃ profile dto row, p = .savingUpdate profile dto ∧ db.savedUser (profile.assign dto) = .ok row ∧
      profile.id = u ∧ dto.isActive ≠ none ∧ row.isActive = b := by
  cases p with
  | savingUpdate profile dto =>
    simp only [activation] at h
    split at h
    · next row hrow =>
      split_ifs at h with hboth
      exact ⟨profile, dto, row, rfl, hrow, hboth.1, hboth.2, Option.some.inj h⟩
    · cases h
  | _ => cases h

theorem lastPassword_cons {e : AuthEvent} {tr : List AuthEvent} {plain : String}
    (h : lastPassword u (e :: tr) = some plain) : passwordChange u e = some plain ∨
      passwordChange u e = none ∧ lastPassword u tr = some plain := by
  unfold lastPassword at h
  rw [List.findSome?_cons] at h
  cases he : passwordChange u e with
  | some new =>
    rw [he] at h
    exact Or.inl h
  | none =>
    rw [he] at h
    exact Or.inr ⟨rfl, h⟩

theorem lastActivation_cons {e : AuthEvent} {tr : List AuthEvent} {b : Bool}
    (h : lastActivation u (e :: tr) = some b) : activation u e = some b ∨
      activation u e = none ∧ lastActivation u tr = some b := by
  unfold lastActivation at h
  rw [List.findSome?_cons] at h
  cases he : activation u e with
  | some new =>
    rw [he] at h
    exact Or.inl h
  | none =>
    rw [he] at h
    exact Or.inr ⟨rfl, h⟩

end Call

/-! ### One step of a run -/

section Step

variable {env : Env} {u : Uuid} {tr : List AuthEvent} {c : AuthConfig} {i : ℕ} {p p' : Phase}
  {db' : AuthDb}

/-- **The stored row stays, or is the one that a login, `setPassword` or `update` has saved.** -/
theorem RowStep.stored (h : RowStep env c.db db' p) {row : User}
    (hget : c.db.users.get? u = some row) :
    db'.users.get? u = some row ∨ ∃ row', db'.users.get? u = some row' ∧
      ((∃ user, p.login = some user ∧ user.id = u ∧ row'.isActive = user.isActive ∧
          row'.passwordHash = user.passwordHash) ∨
        (∃ q user profile, p = .savingPassword q user profile ∧ profile.id = u ∧
          row'.isActive = profile.isActive ∧
          row'.passwordHash = env.hashPassword q.dto.newPassword q.salt) ∨
        ∃ profile dto, p = .savingUpdate profile dto ∧ profile.id = u ∧
          c.db.savedUser (profile.assign dto) = .ok row' ∧ row'.passwordHash = row.passwordHash ∧
          dto.isActive.getD (some row.isActive) = some row'.isActive) := by
  rcases h with ⟨hsame, -⟩ | ⟨entity, row', hsaves, hrow, hput⟩
  · exact Or.inl ((hsame u).trans hget)
  · by_cases hid : u = row'.id
    · have hget' : db'.users.get? u = some row' := (hput u).trans (if_pos hid)
      refine Or.inr ⟨row', hget', ?_⟩
      cases p with
      | savingFailure q user | savingLogin q user =>
        cases hsaves
        obtain ⟨hkey, hactive, hhash, -⟩ := savedUser_login hrow
        exact Or.inl ⟨user, rfl, (hid.trans hkey).symm, hactive, hhash⟩
      | savingPassword q user profile =>
        cases hsaves
        obtain ⟨hkey, hactive, hhash⟩ := savedUser_withPassword hrow
        exact Or.inr (Or.inl ⟨q, user, profile, rfl, (hid.trans hkey).symm, hactive, hhash⟩)
      | savingUpdate profile dto =>
        cases hsaves
        have hkey : row'.id = profile.id := (AuthDb.savedUser_ok hrow).1
        have hu : profile.id = u := (hid.trans hkey).symm
        obtain ⟨-, hhash, hactive⟩ := savedUser_assign hrow (hu ▸ hget)
        exact Or.inr (Or.inr ⟨profile, dto, rfl, hu, hrow, hhash, hactive⟩)
      | _ => cases hsaves
    · exact Or.inl (((hput u).trans (if_neg hid)).trans hget)

theorem HasPassword.call (h : Kept env u tr c) (hi : c.threads i = some p)
    (hs : AccountStep env c.db p p') (hrow : RowStep env c.db db' p)
    (ha : Undisturbed u c (.called i p c.db)) {plain : String}
    (hlast : lastPassword u (.called i p c.db :: tr) = some plain) :
    HasPassword env u plain (c.put db' i (some p')) := by
  rcases lastPassword_cons hlast with hchange | ⟨hnone, hlast⟩
  · obtain ⟨q, user, profile, hp, hid, hplain⟩ := passwordChange_eq_some hchange
    subst hp hplain
    have hfree : p'.NoCopy := hs.of_saves (by simp [Phase.saves])
    refine ⟨?_, fun j r user' hj hlogin huser => ?_⟩
    · show ∃ row, db'.users.get? u = some row ∧ _
      rcases hrow with ⟨-, hno⟩ | ⟨entity, row, hsaves, hrow, hput⟩
      · obtain ⟨row, hok⟩ := savedUser_password c.db profile
          (env.hashPassword q.dto.newPassword q.salt)
        exact absurd hok (hno _ row rfl)
      · cases hsaves
        obtain ⟨hkey, -, hhash⟩ := savedUser_withPassword hrow
        refine ⟨row, (hput u).trans (if_pos (hkey.trans hid).symm), ?_⟩
        rw [hhash]
        exact .set _
    · rcases Config.of_put hj with ⟨-, heq⟩ | ⟨-, hj'⟩
      · cases heq
        rw [hfree.login] at hlogin
        cases hlogin
      · exact absurd ⟨j, r, hj', user', hlogin, huser⟩ (ha hid)
  · obtain ⟨⟨row, hget, hhash⟩, hheld⟩ := h.password plain hlast
    refine ⟨?_, fun j q user' hj hlogin hid => ?_⟩
    · show ∃ row, db'.users.get? u = some row ∧ _
      rcases hrow.stored hget with hsame | ⟨row', hget', hcases⟩
      · exact ⟨row, hsame, hhash⟩
      · refine ⟨row', hget', ?_⟩
        rcases hcases with ⟨user, hlogin, hid, -, heq⟩ | ⟨q, user, profile, hp, hid, -⟩ |
          ⟨_, _, -, -, -, heq, -⟩
        · rw [heq]
          exact hheld i p user hi hlogin hid
        · subst hp
          simp [passwordChange, hid] at hnone
        · rw [heq]
          exact hhash
    · rcases Config.of_put hj with ⟨-, heq⟩ | ⟨-, hj'⟩
      · cases heq
        rcases hs.login_of hlogin with hstored | ⟨user, hold, hsame, -, hhash'⟩
        · rw [hid, hget] at hstored
          cases hstored
          exact hhash
        · have huser : HashOf env plain user.passwordHash := hheld i p user hi hold (hsame ▸ hid)
          rcases hhash' with heq | ⟨q, hp, heq⟩
          · rw [heq]
            exact huser
          · -- the password that was verified is hashed again
            rw [heq]
            exact .rehashed _ huser (h.verified i q user (hp ▸ hi))
      · exact hheld j q user' hj' hlogin hid

theorem Inactive.call (h : Kept env u tr c) (hi : c.threads i = some p)
    (hs : AccountStep env c.db p p') (hrow : RowStep env c.db db' p)
    (ha : Undisturbed u c (.called i p c.db))
    (hlast : lastActivation u (.called i p c.db :: tr) = some false) :
    Inactive u (c.put db' i (some p')) := by
  rcases lastActivation_cons hlast with hset | ⟨hnone, hlast⟩
  · obtain ⟨profile, dto, row, hp, hok, hid, hsome, hfalse⟩ := activation_eq_some hset
    subst hp
    have hfree : p'.NoCopy := hs.of_saves (by simp [Phase.saves])
    obtain ⟨hkey, -, -, hactive, -⟩ := AuthDb.savedUser_ok hok
    have hdto : dto.isActive = some (some false) := by
      obtain ⟨value, hvalue⟩ := Option.ne_none_iff_exists'.mp hsome
      rw [show (profile.assign dto).isActive = dto.isActive from rfl, hvalue, hfalse] at hactive
      rw [hvalue]
      exact congrArg some hactive
    refine ⟨?_, fun hin => ?_⟩
    · show ∃ row, db'.users.get? u = some row ∧ _
      rcases hrow with ⟨-, hno⟩ | ⟨entity, row', hsaves, hrow, hput⟩
      · exact absurd hok (hno _ row rfl)
      · cases hsaves
        rw [hok] at hrow
        cases hrow
        exact ⟨row, (hput u).trans (if_pos (hkey.trans hid).symm), hfalse⟩
    · rcases Config.inFlight_put.mp hin with hp' | ⟨j, q, -, hj, hq⟩
      · exact hfree.not_holdsActive u hp'
      · exact ha hid hdto ⟨j, q, hj, hq⟩
  · obtain ⟨⟨row, hget, hfalse⟩, hheld⟩ := h.inactive hlast
    refine ⟨?_, fun hin => ?_⟩
    · show ∃ row, db'.users.get? u = some row ∧ _
      rcases hrow.stored hget with hsame | ⟨row', hget', hcases⟩
      · exact ⟨row, hsame, hfalse⟩
      · refine ⟨row', hget', ?_⟩
        rcases hcases with ⟨user, hlogin, hid, hactive, -⟩ | ⟨q, user, profile, hp, hid, hactive, -⟩ |
          ⟨profile, dto, hp, hid, hok, -, hactive⟩
        · rw [hactive, ← Bool.not_eq_true]
          exact fun htrue => hheld ⟨i, p, hi, Or.inl ⟨user, hlogin, hid, htrue⟩⟩
        · rw [hactive, ← Bool.not_eq_true]
          exact fun htrue => hheld ⟨i, p, hi, Or.inr ⟨profile, hp ▸ rfl, hid, htrue⟩⟩
        · -- an update that is accepted and is none of `isActive` keeps it
          subst hp
          have hdto : dto.isActive = none := by
            by_contra hsome
            simp [activation, hok, hid, hsome] at hnone
          rw [hdto, hfalse] at hactive
          exact (Option.some.inj hactive).symm
    · rcases Config.inFlight_put.mp hin with hp' | ⟨j, q, -, hj, hq⟩
      · rcases hp' with ⟨user', hlogin, hid, htrue⟩ | ⟨profile, hchanging, hid, htrue⟩
        · rcases hs.login_of hlogin with hstored | ⟨user, hold, hsame, hactive, -⟩
          · rw [hid, hget] at hstored
            cases hstored
            rw [hfalse] at htrue
            cases htrue
          · exact hheld ⟨i, p, hi, Or.inl ⟨user, hold, hsame ▸ hid, hactive ▸ htrue⟩⟩
        · obtain ⟨row', hstored, hprofile⟩ := hs.changing_of hchanging
          rw [hid, hget] at hstored
          cases hstored
          subst hprofile
          rw [show row.profile.isActive = row.isActive from rfl, hfalse] at htrue
          cases htrue
      · exact hheld ⟨j, q, hj, hq⟩

/-- **Every step keeps what holds of the account.** -/
theorem Kept.step (h : Kept env u tr c) {e : AuthEvent} {c' : AuthConfig}
    (hs : (system env).Step c e c') (ha : Undisturbed u c e) : Kept env u (e :: tr) c' := by
  cases account_event hs with
  | other he husers hclock hthreads hback =>
    have hold : ∀ {j p}, c'.threads j = some p → ¬ p.NoCopy → c.threads j = some p :=
      fun hj hno => (hthreads _ _ hj).resolve_right hno
    have hpassword : passwordChange u e = none := by
      cases e with
      | called i p db => exact absurd rfl (he i p db)
      | _ => rfl
    have hactivation : activation u e = none := by
      cases e with
      | called i p db => exact absurd rfl (he i p db)
      | _ => rfl
    refine ⟨fun j q user hj => ?_, fun plain hlast => ?_, fun hlast => ?_⟩
    · exact h.verified j q user (hold hj fun hno => by cases hno.login)
    · have hlast' : lastPassword u tr = some plain := by
        simpa [lastPassword, hpassword] using hlast
      obtain ⟨⟨row, hget, hhash⟩, hheld⟩ := h.password plain hlast'
      refine ⟨⟨row, husers ▸ hget, hhash⟩, fun j p user hj hlogin hid => ?_⟩
      refine hheld j p user (hold hj fun hno => ?_) hlogin hid
      rw [hno.login] at hlogin
      cases hlogin
    · have hlast' : lastActivation u tr = some false := by
        simpa [lastActivation, hactivation] using hlast
      obtain ⟨⟨row, hget, hfalse⟩, hheld⟩ := h.inactive hlast'
      refine ⟨⟨row, husers ▸ hget, hfalse⟩, fun ⟨j, p, hj, hp⟩ => ?_⟩
      exact hheld ⟨j, p, hold hj fun hno => hno.not_holdsActive u hp, hp⟩
  | @call i p p' db' hi hstep hclock hrow =>
    refine ⟨fun j q user hj => ?_, fun plain hlast => HasPassword.call h hi hstep hrow ha hlast,
      Inactive.call h hi hstep hrow ha⟩
    rcases Config.of_put hj with ⟨-, heq⟩ | ⟨-, hj'⟩
    · cases heq
      exact hstep.verified rfl
    · exact h.verified j q user hj'

end Step

/-! ### Every run -/

theorem Kept.idle (env : Env) (u : Uuid) (db : AuthDb) : Kept env u [] (.idle db) where
  verified i q user hi := by cases hi
  password plain hlast := by cases hlast
  inactive hlast := by cases hlast

/-- **A login undoes neither a new password nor a deactivation**, where none holds the account in
between: after every run the stored hash is one of the last password the account was given, and an
account whose last update of `isActive` was to `false` is inactive. -/
theorem login_undoes_nothing {env : Env} {db : AuthDb} {u : Uuid} {tr : List AuthEvent}
    {c : AuthConfig} (h : (system env).Run (Undisturbed u) (.idle db) tr c) :
    (∀ plain, lastPassword u tr = some plain →
      ∃ row, c.db.users.get? u = some row ∧ HashOf env plain row.passwordHash) ∧
    (lastActivation u tr = some false →
      ∃ row, c.db.users.get? u = some row ∧ row.isActive = false) := by
  have hkept : Kept env u tr c := h.invariant (Kept.idle env u db) fun hI hs ha => hI.step hs ha
  exact ⟨fun plain hlast => (hkept.password plain hlast).stored,
    fun hlast => (hkept.inactive hlast).stored⟩

/-! ### With and without a login in between -/

/-- With one request at a time, none holds the account when it is changed. -/
def changesAlone (c : AuthConfig) : AuthEvent → Bool
  | .called _ (.savingPassword _ _ _) _ => (c.threads 0).all fun p => p.login.isNone
  | .called _ (.savingUpdate _ _) _ =>
    (c.threads 0).all fun p => p.login.isNone && p.changing.isNone
  | _ => true

theorem undisturbed_of_changesAlone {u : Uuid} {c : AuthConfig} {e : AuthEvent}
    (hn : ∀ i, 1 ≤ i → c.threads i = none) (h : changesAlone c e = true) : Undisturbed u c e := by
  have hfirst : ∀ {i p}, c.threads i = some p → c.threads 0 = some p := by
    intro i p hi
    rcases Nat.eq_zero_or_pos i with rfl | hpos
    · exact hi
    · rw [hn i hpos] at hi
      cases hi
  unfold Undisturbed
  split
  · rintro - ⟨i, p, hi, user, hlogin, -⟩
    simp [changesAlone, hfirst hi, hlogin] at h
  · rintro - - ⟨i, p, hi, hp⟩
    simp only [changesAlone, hfirst hi, Option.all_some, Bool.and_eq_true,
      Option.isNone_iff_eq_none] at h
    exact Phase.NoCopy.not_holdsActive ⟨h.1, h.2⟩ u hp
  · trivial

/-- A login of the cashier. -/
def cashierLogin : LoginCall :=
  ⟨cashierDto, noContext, ⟨7, 8, "secret", "", ""⟩⟩

/-- A change of the cashier's password. -/
def cashierChange : ChangeCall :=
  ⟨1, newPasswordDto, noContext, ""⟩

/-- The cashier's account is disabled. -/
def cashierDisabled : Request := .updateUser ⟨1, 0⟩ (activationDto false)

/-- A login, a change of the password, a login with the old one, and a deactivation. -/
theorem login_undoes_nothing_cashier : ∃ tr c,
    (system plainEnv).Run (Undisturbed 1) (.idle oneLogin) tr c ∧
    (∃ row, c.db.users.get? 1 = some row ∧ HashOf plainEnv "N3w-Passw0rd" row.passwordHash) ∧
    ∃ row, c.db.users.get? 1 = some row ∧ row.isActive = false := by
  obtain ⟨tr, c, hrun, hcheck, -⟩ := System.exists_run (S := system plainEnv) changesAlone 1
    (fun _ _ => undisturbed_of_changesAlone) oneLogin
    (.arrive 0 (.login cashierLogin) :: List.replicate 9 (.run 0) ++
      .arrive 0 (.changePassword cashierChange) :: List.replicate 7 (.run 0) ++
      .arrive 0 (.login cashierLogin) :: List.replicate 5 (.run 0) ++
      .arrive 0 cashierDisabled :: List.replicate 3 (.run 0))
    (fun x => x.2.allOver 1 && lastPassword 1 x.1 == some "N3w-Passw0rd" &&
      lastActivation 1 x.1 == some false) (by decide) (by decide +kernel)
  simp only [Bool.and_eq_true, beq_iff_eq] at hcheck
  obtain ⟨⟨-, hpassword⟩, hactivation⟩ := hcheck
  obtain ⟨hhash, hinactive⟩ := login_undoes_nothing hrun
  exact ⟨tr, c, hrun, hhash _ hpassword, hinactive hactivation⟩

/-- The requests are logins, password changes and updates. -/
def isAccountRequest : AuthEvent → Bool
  | .arrived _ (.login _) => true
  | .arrived _ (.changePassword _) => true
  | .arrived _ (.updateUser _ _) => true
  | .arrived _ _ => false
  | _ => true

theorem hashOf_plainEnv {plain hash : String} (h : HashOf plainEnv plain hash) :
    hash = "argon2:" ++ plain := by
  induction h with
  | set salt => rfl
  | @rehashed hash password salt h hverify ih =>
    have heq : hash = "argon2:" ++ password := of_decide_eq_true hverify
    show "argon2:" ++ password = _
    rw [← heq, ih]

/-- **A login that has loaded the account** before its password is changed puts the old hash back,
and one that has loaded it before it is disabled enables it. -/
theorem login_undoes_both :
    (∃ tr c, (system plainEnv).Run (fun _ e => isAccountRequest e = true) (.idle oneLogin) tr c ∧
      c.Quiet ∧ lastPassword 1 tr = some "N3w-Passw0rd" ∧ ∃ row, c.db.users.get? 1 = some row ∧
        ¬ HashOf plainEnv "N3w-Passw0rd" row.passwordHash) ∧
    ∃ tr c, (system plainEnv).Run (fun _ e => isAccountRequest e = true) (.idle oneLogin) tr c ∧
      c.Quiet ∧ lastActivation 1 tr = some false ∧ ∃ row, c.db.users.get? 1 = some row ∧
        row.isActive = true := by
  constructor
  · obtain ⟨tr, c, hrun, hcheck, hn⟩ := System.exists_run (S := system plainEnv)
      (fun _ e => isAccountRequest e) 2 (fun _ _ _ he => he) oneLogin
      ([.arrive 0 (.login cashierLogin), .run 0, .run 0,
        .arrive 1 (.changePassword cashierChange)] ++ List.replicate 7 (.run 1) ++
        List.replicate 7 (.run 0))
      (fun x => x.2.allOver 2 && lastPassword 1 x.1 == some "N3w-Passw0rd" &&
        (x.2.db.users.get? 1).any (·.passwordHash == "argon2:Str0ng-Passw0rd"))
      (by decide) (by decide +kernel)
    simp only [Bool.and_eq_true, beq_iff_eq] at hcheck
    obtain ⟨⟨hover, hlast⟩, hrow⟩ := hcheck
    obtain ⟨row, hget, hold⟩ := (Option.any_eq_true _ _).mp hrow
    refine ⟨tr, c, hrun, Config.quiet_of_allOver hover hn, hlast, row, hget, fun hhash => ?_⟩
    have hnew := hashOf_plainEnv hhash
    rw [beq_iff_eq.mp hold] at hnew
    exact absurd hnew (by decide)
  · obtain ⟨tr, c, hrun, hcheck, hn⟩ := System.exists_run (S := system plainEnv)
      (fun _ e => isAccountRequest e) 2 (fun _ _ _ he => he) oneLogin
      ([.arrive 0 (.login cashierLogin), .run 0, .arrive 1 cashierDisabled] ++
        List.replicate 3 (.run 1) ++ List.replicate 8 (.run 0))
      (fun x => x.2.allOver 2 && lastActivation 1 x.1 == some false &&
        (x.2.db.users.get? 1).any (·.isActive)) (by decide) (by decide +kernel)
    simp only [Bool.and_eq_true, beq_iff_eq] at hcheck
    obtain ⟨⟨hover, hlast⟩, hrow⟩ := hcheck
    obtain ⟨row, hget, hactive⟩ := (Option.any_eq_true _ _).mp hrow
    exact ⟨tr, c, hrun, Config.quiet_of_allOver hover hn, hlast, row, hget, hactive⟩

end GameClub.Auth
