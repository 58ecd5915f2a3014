import GameClub.Auth.Accounts
import GameClub.Lib.Spaced

/-! # Wrong passwords

`registerFailure` counts failed attempts in the account that the login has loaded, and locks it at the
fifth one for a quarter of an hour. The count that is stored may have changed since the load.

* `attempts_bounded`: where a password is verified only while the count the login has loaded is the
  stored one, with no other failure still to be saved, five wrong passwords at most are verified
  within any quarter of an hour.
* `attempts_unbounded`: six logins that load the account at the same time. -/

namespace GameClub.Auth

open GameClub.Lib GameClub.Lib.Interleave GameClub.Common

/-! ### Attempts -/

/-- When a call verifies a password against the stored hash of the account `u`. -/
def attempt (u : Uuid) : AuthEvent → Option ℤ
  | .called _ (.verifyingPassword _ user) db => if user.id = u then some db.clock else none
  | _ => none

/-- **The times of the attempts**, the last one first. -/
def attemptTimes (u : Uuid) (tr : List AuthEvent) : List ℤ := tr.filterMap (attempt u)

/-- **No attempt on the account succeeds**, and only logins save it. -/
def AllFail (env : Env) (u : Uuid) : AuthEvent → Prop
  | .called _ (.verifyingPassword q user) _ => user.id = u →
      env.verify user.passwordHash q.dto.password = false
  | .called _ (.savingPassword _ _ profile) _ => profile.id ≠ u
  | .called _ (.savingUpdate profile _) _ => profile.id ≠ u
  | _ => True

namespace Phase

/-- The account whose failure a login has counted and not yet saved. -/
def failure : Phase → Option User
  | .datingLock _ user => some user
  | .savingFailure _ user => some user
  | _ => none

/-- The account a login is about to save as signed in. -/
def entering : Phase → Option User
  | .datingLogin _ user => some user
  | .savingLogin _ user => some user
  | _ => none

/-- A failure on the account has not been saved yet. -/
def Pending (u : Uuid) (p : Phase) : Prop := ∃ user, p.failure = some user ∧ user.id = u

end Phase

/-- **A password is verified only while the login's copy of the account has the stored count and
lock**, with no other failure on the account still to be saved. -/
def UpToDate (u : Uuid) (c : AuthConfig) : AuthEvent → Prop
  | .called _ (.verifyingPassword _ user) db => user.id = u → ¬ c.InFlight (·.Pending u) ∧
      ∃ row, db.users.get? u = some row ∧ row.failedLoginAttempts = user.failedLoginAttempts ∧
        row.lockedUntil = user.lockedUntil
  | _ => True

/-! ### The invariant -/

/-- The attempt before those counted was at least a lock's duration before the lock's end. -/
def Guarded (times : List ℤ) (failedLoginAttempts : ℕ) (lockedUntil : Option ℤ) : Prop :=
  ∀ y, times[min failedLoginAttempts 4]? = some y →
    ∃ until_, lockedUntil = some until_ ∧ y + LOCK_DURATION_MS ≤ until_

/-- What the copy of the account in a phase owes to the attempts and the clock. -/
def Phase.Fits (u : Uuid) (times : List ℤ) (now : ℤ) : Phase → Prop
  | .checkingLock _ user lockedUntil => user.lockedUntil = some lockedUntil
  | .verifyingPassword _ user => ∀ lockedUntil, user.lockedUntil = some lockedUntil →
    lockedUntil ≤ now
  | .savingFailure _ user => user.id = u →
    Guarded times user.failedLoginAttempts user.lockedUntil
  | .datingLogin _ user => user.id ≠ u
  | .savingLogin _ user => user.id ≠ u
  | _ => True

theorem Phase.Fits.entering {u : Uuid} {times : List ℤ} {now : ℤ} {p : Phase} {user : User}
    (h : p.Fits u times now) (hp : p.entering = some user) : user.id ≠ u := by
  cases p with
  | datingLogin q user' =>
    cases hp
    exact h
  | savingLogin q user' =>
    cases hp
    exact h
  | _ => cases hp

/-- **What holds of the attempts on an account.** -/
structure Watched (u : Uuid) (tr : List AuthEvent) (c : AuthConfig) : Prop where
  spaced : Spaced LOCK_DURATION_MS 4 (attemptTimes u tr)
  past : ∀ y ∈ attemptTimes u tr, y ≤ c.db.clock
  locked : ∀ i q user lockedUntil, c.threads i = some (.checkingLock q user lockedUntil) →
    user.lockedUntil = some lockedUntil
  unlocked : ∀ i q user lockedUntil, c.threads i = some (.verifyingPassword q user) →
    user.lockedUntil = some lockedUntil → lockedUntil ≤ c.db.clock
  outside : ∀ i p user, c.threads i = some p → p.entering = some user → user.id ≠ u
  alone : ∀ {i j p q}, c.threads i = some p → c.threads j = some q → p.Pending u → q.Pending u →
    i = j
  counted : ∀ i q user, c.threads i = some (.savingFailure q user) → user.id = u →
    Guarded (attemptTimes u tr) user.failedLoginAttempts user.lockedUntil
  stored : ¬ c.InFlight (·.Pending u) → ∀ row, c.db.users.get? u = some row →
    Guarded (attemptTimes u tr) row.failedLoginAttempts row.lockedUntil

/-! ### One step of a run -/

section Step

variable {env : Env} {u : Uuid} {tr : List AuthEvent} {c : AuthConfig} {i : ℕ} {p p' : Phase}
  {db' : AuthDb}

theorem attemptTimes_cons_none {e : AuthEvent} (h : attempt u e = none) :
    attemptTimes u (e :: tr) = attemptTimes u tr := List.filterMap_cons_none h

/-- **A call that is no attempt**, when the phase after it and the row meet what is asked of them. -/
theorem Watched.frame (h : Watched u tr c) (hi : c.threads i = some p)
    (hclock : db'.clock = c.db.clock) (hattempt : attempt u (.called i p c.db) = none)
    (hfits : p'.Fits u (attemptTimes u tr) c.db.clock) (hpending : p'.Pending u → p.Pending u)
    (hstored : ¬ (c.put db' i (some p')).InFlight (·.Pending u) → ∀ row,
      db'.users.get? u = some row →
        Guarded (attemptTimes u tr) row.failedLoginAttempts row.lockedUntil) :
    Watched u (.called i p c.db :: tr) (c.put db' i (some p')) := by
  refine ⟨?_, ?_, ?_, ?_, ?_, ?_, ?_, ?_⟩
  · rw [attemptTimes_cons_none hattempt]
    exact h.spaced
  · rw [attemptTimes_cons_none hattempt]
    intro y hy
    exact (h.past y hy).trans hclock.ge
  · intro j q user lockedUntil hj
    rcases Config.of_put hj with ⟨-, heq⟩ | ⟨-, hj'⟩
    · cases heq
      exact hfits
    · exact h.locked j q user lockedUntil hj'
  · intro j q user lockedUntil hj hlock
    rcases Config.of_put hj with ⟨-, heq⟩ | ⟨-, hj'⟩
    · cases heq
      exact (hfits lockedUntil hlock).trans hclock.ge
    · exact (h.unlocked j q user lockedUntil hj' hlock).trans hclock.ge
  · intro j q user hj hentering
    rcases Config.of_put hj with ⟨-, heq⟩ | ⟨-, hj'⟩
    · cases heq
      exact hfits.entering hentering
    · exact h.outside j q user hj' hentering
  · intro j k q r hj hk hq hr
    rcases Config.of_put hj with ⟨hji, heq⟩ | ⟨hji, hj'⟩ <;>
      rcases Config.of_put hk with ⟨hki, heq'⟩ | ⟨hki, hk'⟩
    · rw [hji, hki]
    · cases heq
      exact absurd (h.alone hk' hi hr (hpending hq)) hki
    · cases heq'
      exact absurd (h.alone hj' hi hq (hpending hr)) hji
    · exact h.alone hj' hk' hq hr
  · intro j q user hj hid
    rw [attemptTimes_cons_none hattempt]
    rcases Config.of_put hj with ⟨-, heq⟩ | ⟨-, hj'⟩
    · cases heq
      exact hfits hid
    · exact h.counted j q user hj' hid
  · rw [attemptTimes_cons_none hattempt]
    exact hstored

/-- Nothing changes in the row, and no failure was pending in the request that moved. -/
theorem Watched.stored_same (h : Watched u tr c) (hi : c.threads i = some p)
    (hnot : ¬ p.Pending u) (hsame : db'.users.get? u = c.db.users.get? u)
    (hquiet : ¬ (c.put db' i (some p')).InFlight (·.Pending u)) {row : User}
    (hget : db'.users.get? u = some row) :
    Guarded (attemptTimes u tr) row.failedLoginAttempts row.lockedUntil :=
  h.stored (fun hin => hquiet (Config.inFlight_of_put hi hin fun hp => absurd hp hnot)) row
    (hsame ▸ hget)

/-- The times of the attempts with one more. -/
theorem Guarded.push {times : List ℤ} {t : ℤ} {n : ℕ} {lockedUntil : Option ℤ}
    (h : Guarded times n lockedUntil) (hn : n < 4) : Guarded (t :: times) (n + 1) lockedUntil := by
  intro y hy
  have hmin : min (n + 1) 4 = min n 4 + 1 := by omega
  rw [hmin, List.getElem?_cons_succ] at hy
  exact h y hy

theorem guarded_lock {times : List ℤ} {now : ℤ} (h : ∀ y ∈ times, y ≤ now) :
    Guarded times 0 (some (now + LOCK_DURATION_MS)) := by
  intro y hy
  have hle := h y (List.mem_of_getElem? hy)
  exact ⟨_, rfl, by omega⟩

/-- **An attempt comes late enough after the one five before it.** -/
theorem Watched.gap (h : Watched u tr c) {n : ℕ} {lockedUntil : Option ℤ}
    (hguarded : Guarded (attemptTimes u tr) n lockedUntil)
    (hlock : ∀ until_, lockedUntil = some until_ → until_ ≤ c.db.clock) :
    ∀ y, (attemptTimes u tr)[4]? = some y → y + LOCK_DURATION_MS ≤ c.db.clock := by
  intro y hy
  obtain ⟨hlen, -⟩ := List.getElem?_eq_some_iff.mp hy
  have hn : min n 4 < (attemptTimes u tr).length := by omega
  have hx := List.getElem?_eq_getElem hn
  obtain ⟨until_, huntil, hle⟩ := hguarded _ hx
  have hmem : y ∈ (attemptTimes u tr).drop (min n 4) := by
    refine List.mem_iff_getElem?.mpr ⟨4 - min n 4, ?_⟩
    rw [List.getElem?_drop, show min n 4 + (4 - min n 4) = 4 by omega]
    exact hy
  have hyx := h.spaced.le_of_mem_drop hx hmem
  have hnow := hlock until_ huntil
  omega

theorem Phase.loaded_cases (q : LoginCall) (user : User) :
    loaded q user = .failed genericError ∨
      user.lockedUntil = none ∧ loaded q user = .verifyingPassword q user ∨
      ∃ lockedUntil, user.lockedUntil = some lockedUntil ∧
        loaded q user = .checkingLock q user lockedUntil := by
  unfold loaded
  split_ifs
  · cases hlock : user.lockedUntil with
    | none => exact Or.inr (Or.inl ⟨rfl, rfl⟩)
    | some lockedUntil => exact Or.inr (Or.inr ⟨lockedUntil, rfl, rfl⟩)
  · exact Or.inl rfl

theorem Phase.wrong_cases (q : LoginCall) (user : User) :
    wrong q user = .datingLock q user.failed ∨
      user.failedLoginAttempts < 4 ∧ wrong q user = .savingFailure q user.failed := by
  unfold wrong
  split_ifs with hmax
  · exact Or.inl rfl
  · refine Or.inr ⟨?_, rfl⟩
    have hlt : user.failedLoginAttempts + 1 < 5 := not_le.mp hmax
    omega

theorem Phase.fits_loaded {times : List ℤ} {now : ℤ} (q : LoginCall) (user : User) :
    (loaded q user).Fits u times now := by
  rcases Phase.loaded_cases q user with hcase | ⟨hnone, hcase⟩ | ⟨lockedUntil, hsome, hcase⟩ <;>
    rw [hcase]
  · trivial
  · intro lockedUntil hsome
    rw [hnone] at hsome
    cases hsome
  · exact hsome

/-- A login that saves its failure counts one more. -/
theorem Phase.fits_wrong {times : List ℤ} {now : ℤ} {q : LoginCall} {user : User}
    (h : user.failedLoginAttempts < 4 → user.id = u →
      Guarded times (user.failedLoginAttempts + 1) user.lockedUntil) :
    (wrong q user).Fits u times now := by
  rcases Phase.wrong_cases q user with hcase | ⟨hlt, hcase⟩ <;> rw [hcase]
  · trivial
  · exact h hlt

theorem Phase.fits_of_login {times : List ℤ} {now : ℤ} (h : p.login = none) :
    p.Fits u times now := by
  cases p <;> trivial

/-- **A wrong password of the account.** -/
theorem Watched.attempt (h : Watched u tr c) {q : LoginCall} {user : User}
    (hi : c.threads i = some (.verifyingPassword q user)) (hid : user.id = u)
    (hclock : db'.clock = c.db.clock) (hquiet : ¬ c.InFlight (·.Pending u))
    {row : User} (hget : c.db.users.get? u = some row)
    (hcount : row.failedLoginAttempts = user.failedLoginAttempts)
    (hlock : row.lockedUntil = user.lockedUntil) :
    Watched u (.called i (.verifyingPassword q user) c.db :: tr)
      (c.put db' i (some (.wrong q user))) := by
  have htimes : attemptTimes u (.called i (.verifyingPassword q user) c.db :: tr) =
      c.db.clock :: attemptTimes u tr := List.filterMap_cons_some (if_pos hid)
  have hguarded : Guarded (attemptTimes u tr) user.failedLoginAttempts user.lockedUntil := by
    rw [← hcount, ← hlock]
    exact h.stored hquiet row hget
  have hpending : (Phase.wrong q user).Pending u := by
    rcases Phase.wrong_cases q user with heq | ⟨-, heq⟩ <;> rw [heq] <;> exact ⟨_, rfl, hid⟩
  have hother : ∀ {j r}, (c.put db' i (some (.wrong q user))).threads j = some r → r.Pending u →
      j = i := by
    intro j r hj hr
    rcases Config.of_put hj with ⟨hji, -⟩ | ⟨-, hj'⟩
    · exact hji
    · exact absurd ⟨j, r, hj', hr⟩ hquiet
  have hfits : (Phase.wrong q user).Fits u (c.db.clock :: attemptTimes u tr) c.db.clock :=
    Phase.fits_wrong fun hlt _ => hguarded.push hlt
  generalize Phase.wrong q user = p' at hpending hother hfits
  refine ⟨?_, ?_, ?_, ?_, ?_, ?_, ?_, ?_⟩
  · rw [htimes]
    exact ⟨h.past, h.gap hguarded fun until_ => h.unlocked i q user until_ hi, h.spaced⟩
  · rw [htimes]
    intro y hy
    rcases List.mem_cons.mp hy with heq | hmem
    · exact (heq.trans hclock.symm).le
    · exact (h.past y hmem).trans hclock.ge
  · intro j q' user' lockedUntil hj
    rcases Config.of_put hj with ⟨-, heq⟩ | ⟨-, hj'⟩
    · cases heq
      exact hfits
    · exact h.locked j q' user' lockedUntil hj'
  · intro j q' user' lockedUntil hj hl
    rcases Config.of_put hj with ⟨-, heq⟩ | ⟨-, hj'⟩
    · cases heq
      exact (hfits lockedUntil hl).trans hclock.ge
    · exact (h.unlocked j q' user' lockedUntil hj' hl).trans hclock.ge
  · intro j r user' hj hentering
    rcases Config.of_put hj with ⟨-, heq⟩ | ⟨-, hj'⟩
    · cases heq
      exact hfits.entering hentering
    · exact h.outside j r user' hj' hentering
  · intro j k r r' hj hk hr hr'
    rw [hother hj hr, hother hk hr']
  · intro j q' user' hj hid'
    rw [htimes]
    rcases Config.of_put hj with ⟨-, heq⟩ | ⟨-, hj'⟩
    · cases heq
      exact hfits hid'
    · exact absurd ⟨j, _, hj', user', rfl, hid'⟩ hquiet
  · intro hnot
    exact absurd (Config.inFlight_put.mpr (Or.inl hpending)) hnot

/-- A login saves its failure, and nothing else saves the account. -/
theorem Watched.stored_saved (h : Watched u tr c) (hi : c.threads i = some p)
    (hrow : RowStep env c.db db' p) (hfail : AllFail env u (.called i p c.db))
    (hp : p.login = none ∨ p.saves env ≠ none ∨ ∃ q user lockedUntil,
      p = .checkingLock q user lockedUntil)
    (hquiet : ¬ (c.put db' i (some p')).InFlight (·.Pending u)) {row : User}
    (hget : db'.users.get? u = some row) :
    Guarded (attemptTimes u tr) row.failedLoginAttempts row.lockedUntil := by
  by_cases hpending : p.Pending u
  · obtain ⟨user, hfailure, hid⟩ := hpending
    cases p with
    | savingFailure q user' =>
      cases hfailure
      have hguarded := h.counted i q user hi hid
      rcases hrow with ⟨-, hno⟩ | ⟨entity, row', hsaves, hrow, hput⟩
      · exact absurd rfl (hno _ _ rfl)
      · cases hsaves
        obtain ⟨hkey, -, -, hcount, hlock⟩ := savedUser_login hrow
        rw [hput u, if_pos (hkey.trans hid).symm] at hget
        cases hget
        rw [hcount, hlock]
        exact hguarded
    | datingLock q user' =>
      rcases hp with hlogin | hsaves | ⟨_, _, _, heq⟩
      · cases hlogin
      · exact absurd rfl hsaves
      · cases heq
    | _ => cases hfailure
  · have hsame : db'.users.get? u = c.db.users.get? u := by
      rcases hrow with ⟨hsame, -⟩ | ⟨entity, row', hsaves, hrow, hput⟩
      · exact hsame u
      · rw [hput u, if_neg]
        rintro hid
        cases p with
        | savingFailure q user =>
          cases hsaves
          exact hpending ⟨user, rfl, ((savedUser_login hrow).1.symm.trans hid.symm)⟩
        | savingLogin q user =>
          cases hsaves
          exact h.outside i _ user hi rfl ((savedUser_login hrow).1.symm.trans hid.symm)
        | savingPassword q user profile =>
          cases hsaves
          exact hfail ((savedUser_withPassword hrow).1.symm.trans hid.symm)
        | savingUpdate profile dto =>
          cases hsaves
          exact hfail ((AuthDb.savedUser_ok hrow).1.symm.trans hid.symm)
        | _ => cases hsaves
    exact h.stored_same hi hpending hsame hquiet hget

theorem Watched.call (h : Watched u tr c) (hi : c.threads i = some p)
    (hs : AccountStep env c.db p p') (hclock : db'.clock = c.db.clock)
    (hrow : RowStep env c.db db' p) (hfail : AllFail env u (.called i p c.db))
    (hup : UpToDate u c (.called i p c.db)) :
    Watched u (.called i p c.db :: tr) (c.put db' i (some p')) := by
  have hnot : p.failure = none → ¬ p.Pending u := by
    rintro hnone ⟨user, hsome, -⟩
    rw [hnone] at hsome
    cases hsome
  have hnot' : p'.failure = none → p'.Pending u → p.Pending u := by
    rintro hnone ⟨user, hsome, -⟩
    rw [hnone] at hsome
    cases hsome
  cases hs with
  | @load q user hp hget hp' =>
    subst hp hp'
    have hfailure : (Phase.loaded q user).failure = none := by
      rcases Phase.loaded_cases q user with hcase | ⟨-, hcase⟩ | ⟨lockedUntil, -, hcase⟩ <;>
        rw [hcase] <;> rfl
    exact h.frame hi hclock rfl (Phase.fits_loaded q user) (hnot' hfailure)
      fun hquiet row hget => h.stored_same hi (hnot rfl) (hrow.same rfl u) hquiet hget
  | @unlocked q user lockedUntil hp hle hp' =>
    subst hp hp'
    have hfits : (Phase.verifyingPassword q user).Fits u (attemptTimes u tr) c.db.clock := by
      intro until_ huntil
      rw [h.locked i q user lockedUntil hi] at huntil
      cases huntil
      exact hle
    exact h.frame hi hclock rfl hfits (hnot' rfl)
      fun hquiet row hget => h.stored_same hi (hnot rfl) (hrow.same rfl u) hquiet hget
  | @right q user hp hverify hp' =>
    subst hp hp'
    have hid : user.id ≠ u := by
      intro hid
      have hfalse := hfail hid
      rw [hverify] at hfalse
      cases hfalse
    exact h.frame hi hclock (if_neg hid) hid (hnot' rfl)
      fun hquiet row hget => h.stored_same hi (hnot rfl) (hrow.same rfl u) hquiet hget
  | @wrong q user hp hverify hp' =>
    subst hp hp'
    by_cases hid : user.id = u
    · obtain ⟨hquiet, row, hget, hcount, hlock⟩ := hup hid
      exact h.attempt hi hid hclock hquiet hget hcount hlock
    · have hpending : ¬ (Phase.wrong q user).Pending u := by
        rintro ⟨user', hfailure, hid'⟩
        rcases Phase.wrong_cases q user with hcase | ⟨-, hcase⟩ <;> rw [hcase] at hfailure <;>
          cases hfailure <;> exact hid hid'
      exact h.frame hi hclock (if_neg hid) (Phase.fits_wrong fun _ hid' => absurd hid' hid)
        (fun hp => absurd hp hpending)
        fun hquiet row hget => h.stored_same hi (hnot rfl) (hrow.same rfl u) hquiet hget
  | @lock q user hp hp' =>
    subst hp hp'
    refine h.frame hi hclock rfl (fun _ => guarded_lock h.past) (fun ⟨user', hfailure, hid⟩ => ?_)
      fun hquiet row hrow' => ?_
    · cases hfailure
      exact ⟨user, rfl, hid⟩
    · by_cases hid : user.id = u
      · exact absurd (Config.inFlight_put.mpr (Or.inl ⟨_, rfl, hid⟩)) hquiet
      · refine h.stored_same hi ?_ (hrow.same rfl u) hquiet hrow'
        rintro ⟨user', hfailure, hid'⟩
        cases hfailure
        exact hid hid'
  | @enter q user hp hp' =>
    subst hp hp'
    have hid : user.id ≠ u := h.outside i _ user hi rfl
    exact h.frame hi hclock rfl hid (hnot' rfl)
      fun hquiet row hget => h.stored_same hi (hnot rfl) (hrow.same rfl u) hquiet hget
  | @find q user row hp hget hp' =>
    subst hp hp'
    exact h.frame hi hclock rfl trivial (hnot' rfl)
      fun hquiet row hget => h.stored_same hi (hnot rfl) (hrow.same rfl u) hquiet hget
  | drop hp' hp =>
    -- a request that drops its copy is in none of the phases of the invariant any more
    have hlogin := hp'.login
    refine h.frame hi hclock ?_ (Phase.fits_of_login hlogin) (fun ⟨user', hfailure, _⟩ => ?_)
      fun hquiet row hget => h.stored_saved hi hrow hfail hp hquiet hget
    · cases p with
      | verifyingPassword q user =>
        rcases hp with hnone | hsaves | ⟨_, _, _, heq⟩
        · cases hnone
        · exact absurd rfl hsaves
        · cases heq
      | _ => rfl
    · cases p' with
      | datingLock q user => cases hlogin
      | savingFailure q user => cases hlogin
      | _ => cases hfailure

/-- **Every step keeps what holds of the attempts.** -/
theorem Watched.step (h : Watched u tr c) {e : AuthEvent} {c' : AuthConfig}
    (hs : (system env).Step c e c') (hfail : AllFail env u e) (hup : UpToDate u c e) :
    Watched u (e :: tr) c' := by
  cases account_event hs with
  | other he husers hclock hthreads hback =>
    have htimes : attemptTimes u (e :: tr) = attemptTimes u tr := by
      refine attemptTimes_cons_none ?_
      cases e with
      | called i p db => exact absurd rfl (he i p db)
      | _ => rfl
    have hold : ∀ {j p}, c'.threads j = some p → p.login ≠ none → c.threads j = some p :=
      fun hj hlogin => (hthreads _ _ hj).resolve_right fun hno => hlogin hno.login
    have hlogin : ∀ {q : Phase}, q.Pending u → q.login ≠ none := by
      rintro q ⟨user, hfailure, -⟩ hnone
      cases q with
      | datingLock _ _ => cases hnone
      | savingFailure _ _ => cases hnone
      | _ => cases hfailure
    refine ⟨htimes ▸ h.spaced, ?_, ?_, ?_, ?_, ?_, ?_, ?_⟩
    · rw [htimes]
      exact fun y hy => (h.past y hy).trans hclock
    · exact fun j q user l hj => h.locked j q user l (hold hj (by simp [Phase.login]))
    · exact fun j q user l hj hl =>
        (h.unlocked j q user l (hold hj (by simp [Phase.login])) hl).trans hclock
    · intro j p user hj hentering
      refine h.outside j p user (hold hj fun hnone => ?_) hentering
      cases p with
      | datingLogin _ _ => cases hnone
      | savingLogin _ _ => cases hnone
      | _ => cases hentering
    · exact fun hj hk hp hq => h.alone (hold hj (hlogin hp)) (hold hk (hlogin hq)) hp hq
    · rw [htimes]
      exact fun j q user hj hid => h.counted j q user (hold hj (by simp [Phase.login])) hid
    · rw [htimes]
      intro hquiet row hget
      refine h.stored (fun ⟨j, p, hj, hp⟩ => hquiet ⟨j, p, ?_, hp⟩) row (husers ▸ hget)
      exact (hback j p hj).resolve_right fun hno => hlogin hp hno.login
  | call hi hstep hclock hrow => exact h.call hi hstep hclock hrow hfail hup

end Step

/-! ### Every run -/

theorem Watched.idle (u : Uuid) (db : AuthDb) : Watched u [] (.idle db) where
  spaced := trivial
  past y hy := by cases hy
  locked i q user lockedUntil hi := by cases hi
  unlocked i q user lockedUntil hi := by cases hi
  outside i p user hi := by cases hi
  alone hi := by cases hi
  counted i q user hi := by cases hi
  stored _ row _ y hy := by cases hy

/-- **Within any quarter of an hour five wrong passwords at most are verified**, where each is counted
from the stored count. -/
theorem attempts_bounded {env : Env} {db : AuthDb} {u : Uuid} {tr : List AuthEvent} {c : AuthConfig}
    (h : (system env).Run (fun c e => AllFail env u e ∧ UpToDate u c e) (.idle db) tr c) (t : ℤ) :
    ((attemptTimes u tr).filter fun y => t ≤ y ∧ y < t + LOCK_DURATION_MS).length ≤
      MAX_FAILED_ATTEMPTS := by
  have hwatched : Watched u tr c := h.invariant (Watched.idle u db)
    fun hI hs ha => hI.step hs ha.1 ha.2
  exact hwatched.spaced.window_le t

/-! ### Logins one by one, and at once -/

/-- The requests are logins, and no password is the right one. -/
def onlyWrongLogins : AuthEvent → Bool
  | .arrived _ (.login _) => true
  | .arrived _ _ => false
  | .called _ (.verifyingPassword q user) _ => !plainEnv.verify user.passwordHash q.dto.password
  | .called _ (.savingPassword _ _ _) _ => false
  | .called _ (.savingUpdate _ _) _ => false
  | _ => true

theorem allFail_of_onlyWrongLogins {u : Uuid} {e : AuthEvent} (h : onlyWrongLogins e = true) :
    AllFail plainEnv u e := by
  unfold AllFail
  split
  · exact fun _ => Bool.not_eq_true' _ ▸ h
  · cases h
  · cases h
  · trivial

/-- With one request at a time, the count that was loaded is the stored one. -/
def verifiesAlone (c : AuthConfig) : AuthEvent → Bool
  | .called _ (.verifyingPassword _ user) db => (c.threads 0).all (·.failure.isNone) &&
      (db.users.get? user.id).any fun row =>
        row.failedLoginAttempts == user.failedLoginAttempts && row.lockedUntil == user.lockedUntil
  | _ => true

theorem upToDate_of_verifiesAlone {u : Uuid} {c : AuthConfig} {e : AuthEvent}
    (hn : ∀ i, 1 ≤ i → c.threads i = none) (h : verifiesAlone c e = true) : UpToDate u c e := by
  unfold UpToDate
  split
  · rintro rfl
    simp only [verifiesAlone, Bool.and_eq_true] at h
    obtain ⟨row, hget, hboth⟩ := (Option.any_eq_true _ _).mp h.2
    simp only [Bool.and_eq_true, beq_iff_eq] at hboth
    refine ⟨?_, row, hget, hboth⟩
    rintro ⟨i, p, hi, user, hfailure, -⟩
    rcases Nat.eq_zero_or_pos i with rfl | hpos
    · simp [hi, hfailure] at h
    · rw [hn i hpos] at hi
      cases hi
  · trivial

/-- A login of the cashier with a wrong password. -/
def wrongLogin : Request :=
  .login ⟨{ cashierDto with
    password := "Wr0ng-Passw0rd", password_ge := by decide, password_le := by decide }, noContext,
    ⟨7, 8, "secret", "", ""⟩⟩

/-- Five wrong passwords, a login while the account is locked, and one after the lock. -/
theorem attempts_bounded_locked : ∃ tr c,
    (system plainEnv).Run (fun c e => AllFail plainEnv 1 e ∧ UpToDate 1 c e) (.idle oneLogin) tr c ∧
    attemptTimes 1 tr = [900000, 0, 0, 0, 0, 0] ∧ ∀ t : ℤ, ((attemptTimes 1 tr).filter fun y =>
      t ≤ y ∧ y < t + LOCK_DURATION_MS).length ≤ MAX_FAILED_ATTEMPTS := by
  obtain ⟨tr, c, hrun, hcheck, -⟩ := System.exists_run (S := system plainEnv)
    (A := fun c e => AllFail plainEnv 1 e ∧ UpToDate 1 c e)
    (fun c e => onlyWrongLogins e && verifiesAlone c e) 1
    (fun _ _ hn h => ⟨allFail_of_onlyWrongLogins (Bool.and_eq_true_iff.mp h).1,
      upToDate_of_verifiesAlone hn (Bool.and_eq_true_iff.mp h).2⟩) oneLogin
    ((List.replicate 4 (.arrive 0 wrongLogin :: List.replicate 5 (.run 0))).flatten ++
      .arrive 0 wrongLogin :: List.replicate 6 (.run 0) ++
      .arrive 0 wrongLogin :: List.replicate 3 (.run 0) ++ .pass 900000 ::
      .arrive 0 wrongLogin :: List.replicate 6 (.run 0))
    (fun x => attemptTimes 1 x.1 == [900000, 0, 0, 0, 0, 0]) (by decide) (by decide +kernel)
  exact ⟨tr, c, hrun, beq_iff_eq.mp hcheck, attempts_bounded hrun⟩

/-- **Six logins load the account at the same time**, and each verifies its password: every one of
them counts from zero. -/
theorem attempts_unbounded : ∃ tr c,
    (system plainEnv).Run (fun _ e => onlyWrongLogins e = true) (.idle oneLogin) tr c ∧ c.Quiet ∧
    ((attemptTimes 1 tr).filter fun y => 0 ≤ y ∧ y < 0 + LOCK_DURATION_MS).length = 6 := by
  obtain ⟨tr, c, hrun, hcheck, hn⟩ := System.exists_run (S := system plainEnv)
    (fun _ e => onlyWrongLogins e) 6 (fun _ _ _ h => h) oneLogin
    ((List.range 6).map (.arrive · wrongLogin) ++
      (List.replicate 5 ((List.range 6).map .run)).flatten)
    (fun x => x.2.allOver 6 && ((attemptTimes 1 x.1).filter fun y =>
      0 ≤ y ∧ y < 0 + LOCK_DURATION_MS).length == 6) (by decide) (by decide +kernel)
  simp only [Bool.and_eq_true, beq_iff_eq] at hcheck
  exact ⟨tr, c, hrun, Config.quiet_of_allOver hcheck.1 hn, hcheck.2⟩

end GameClub.Auth
