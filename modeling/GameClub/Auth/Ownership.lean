import GameClub.Auth.Tokens

/-! # Whose tokens are issued

A refresh reads the string it is presented twice: `peekUserId` takes the account of the token it
names, for the claims, and `parseAndLoad` loads the token and verifies its secret. In between other
requests make their calls, and accounts are created, changed and removed.

* `Backed`: what has happened in a refresh that is at some phase: which calls it has made, and what
  they returned.
* `refresh_owner`: a family belongs to one account, and a refresh that succeeds was given the claims
  of the account of the very token whose secret it has verified. -/

namespace GameClub.Auth

open GameClub.Lib GameClub.Lib.Interleave GameClub.Common

/-! ### The calls of a request -/

/-- The request that arrives at the slot `i`. -/
def arrival (i : ℕ) : AuthEvent → Option Request
  | .arrived j q => if j = i then some q else none
  | _ => none

/-- The last request that arrived at the slot `i`. -/
def requestAt (i : ℕ) (tr : List AuthEvent) : Option Request := tr.findSome? (arrival i)

/-- What has happened since then. -/
def since (i : ℕ) (tr : List AuthEvent) : List AuthEvent :=
  tr.takeWhile fun e => (arrival i e).isNone

theorem requestAt_cons {i : ℕ} {e : AuthEvent} (h : arrival i e = none) (tr : List AuthEvent) :
    requestAt i (e :: tr) = requestAt i tr := by
  simp [requestAt, h]

theorem since_cons {i : ℕ} {e : AuthEvent} (h : arrival i e = none) (tr : List AuthEvent) :
    since i (e :: tr) = e :: since i tr := by
  simp [since, h]

theorem requestAt_arrived (i : ℕ) (q : Request) (tr : List AuthEvent) :
    requestAt i (.arrived i q :: tr) = some q := by
  simp [requestAt, arrival]

/-! ### What a refresh goes on -/

/-- The stored token that the text names belongs to the account. -/
def Owns (db : AuthDb) (text : String) (userId : Uuid) : Prop :=
  ∃ k row, Uuid.parse text.toList = some k ∧ db.refreshTokens.get? k = some row ∧
    row.userId = userId

/-- Stored tokens stay with their accounts. -/
def KeepsOwners (db db' : AuthDb) : Prop := ∀ k row, db.refreshTokens.get? k = some row →
  ∃ row', db'.refreshTokens.get? k = some row' ∧ row'.userId = row.userId

theorem Owns.mono {db db' : AuthDb} {text : String} {userId : Uuid} (h : Owns db text userId)
    (hk : KeepsOwners db db') : Owns db' text userId := by
  obtain ⟨k, row, hparse, hget, huser⟩ := h
  obtain ⟨row', hget', huser'⟩ := hk k row hget
  exact ⟨k, row', hparse, hget', huser'.trans huser⟩

theorem owns_of_findToken {db : AuthDb} {text : String} {record : RefreshToken}
    (h : db.findToken text = .ok (some record)) : Owns db text record.userId := by
  unfold AuthDb.findToken at h
  split at h
  · cases h
  · next k hparse => exact ⟨k, record, hparse, Except.ok.inj h, rfl⟩

theorem Owns.userId_eq {db : AuthDb} {text : String} {userId : Uuid} {record : RefreshToken}
    (h : Owns db text userId) (hfind : db.findToken text = .ok (some record)) :
    record.userId = userId := by
  obtain ⟨k, row, hparse, hget, huser⟩ := h
  unfold AuthDb.findToken at hfind
  rw [hparse] at hfind
  have hrow := hget.symm.trans (Except.ok.inj hfind)
  cases hrow
  exact huser

section

variable (db : AuthDb) (es : List AuthEvent) (i : ℕ) (q : RefreshCall)

/-- The id that `peekUserId` reads. -/
def peekedId : String := (splitDot q.presented).headD ""

/-- `peekUserId` has returned the account. -/
structure Peeked (userId : Uuid) : Prop where
  peeked : ∃ db₀ found, .called i (.peeking q) db₀ ∈ es ∧
    db₀.findToken (peekedId q) = .ok (some found) ∧ found.userId = userId
  owns : Owns db (peekedId q) userId

/-- The account was found then, and active. -/
structure Claimed (user : User) : Prop extends Peeked db es i q user.id where
  found : ∃ db₁, .called i (.findingUser q user.id) db₁ ∈ es ∧ db₁.findUser user.id = some user
  active : user.isActive = true

/-- `parseAndLoad` has loaded the token, of the same id. -/
structure LoadedFor (user : User) (secret : String) (record : RefreshToken) : Prop
    extends Claimed db es i q user where
  parsed : parts q.presented = some (peekedId q, secret)
  loaded : ∃ db₂, .called i (.loading q (toClaims user.profile) (peekedId q) secret) db₂ ∈ es ∧
    db₂.findToken (peekedId q) = .ok (some record)
  owner : record.userId = user.id

/-- The secret is the one of the token. -/
structure VerifiedFor (env : Env) (user : User) (secret : String) (record : RefreshToken) : Prop
    extends LoadedFor db es i q user secret record where
  verified : ∃ db₃, .called i (.verifyingSecret q (toClaims user.profile) secret record) db₃ ∈ es
  genuine : env.verify record.tokenHash secret = true

/-- **A token pair is issued for an account**: its claims are those `found`, of the account of the
token whose secret was `verified`, and the new token is stored for the same account. -/
structure IssuedFor (env : Env) (user : User) (secret : String) (record : RefreshToken) (time now : ℤ)
    (t : IssuedTokens) : Prop extends VerifiedFor db es i q env user secret record where
  tokens : t = ⟨env.signAsync (toClaims user.profile) time,
    refreshTokenText q.g.tokenId q.g.secret, now + env.refreshTtlMs⟩
  inserted : ∃ db₄, .called i (.inserting ⟨toClaims user.profile, .rotation record, q.ctx, q.g⟩
    t.accessToken now) db₄ ∈ es ∧ db₄.refreshTokens.get? q.g.tokenId = none
  stored : ∃ row, db.refreshTokens.get? q.g.tokenId = some row ∧ row.userId = record.userId

/-- **What a refresh goes on** at each phase. -/
def RefreshPhase (env : Env) : Phase → Prop
  | .finished (.ok (.tokens t)) => ∃ user secret record time now,
      IssuedFor db es i q env user secret record time now t
  | .finished _ => True
  | .peeking q' => q' = q
  | .findingUser q' userId => q' = q ∧ Peeked db es i q userId
  | .loading q' claims id secret => q' = q ∧ parts q.presented = some (id, secret) ∧
      ∃ user, claims = toClaims user.profile ∧ Claimed db es i q user
  | .verifyingSecret q' claims secret record => q' = q ∧ ∃ user, claims = toClaims user.profile ∧
      LoadedFor db es i q user secret record
  | .revokingFamily _ => True
  | .checkingExpiry q' claims record => q' = q ∧ ∃ user secret, claims = toClaims user.profile ∧
      VerifiedFor db es i q env user secret record
  | .signing o => ∃ user secret record, o = ⟨toClaims user.profile, .rotation record, q.ctx, q.g⟩ ∧
      VerifiedFor db es i q env user secret record
  | .dating o accessToken => ∃ user secret record time,
      o = ⟨toClaims user.profile, .rotation record, q.ctx, q.g⟩ ∧
      accessToken = env.signAsync o.claims time ∧ VerifiedFor db es i q env user secret record
  | .inserting o accessToken _ => ∃ user secret record time,
      o = ⟨toClaims user.profile, .rotation record, q.ctx, q.g⟩ ∧
      accessToken = env.signAsync o.claims time ∧ VerifiedFor db es i q env user secret record
  | .savingReplaced record t => ∃ user secret time now,
      IssuedFor db es i q env user secret record time now t
  | _ => False

end

/-! ### What has happened stays so -/

section Mono

variable {env : Env} {db db' : AuthDb} {es es' : List AuthEvent} {i : ℕ} {q : RefreshCall}
  {user : User} {secret : String} {record : RefreshToken}

theorem Peeked.mono {userId : Uuid} (h : Peeked db es i q userId) (hk : KeepsOwners db db')
    (hes : es ⊆ es') : Peeked db' es' i q userId := by
  obtain ⟨db₀, found, hcall, hfind⟩ := h.peeked
  exact ⟨⟨db₀, found, hes hcall, hfind⟩, h.owns.mono hk⟩

theorem Claimed.mono (h : Claimed db es i q user) (hk : KeepsOwners db db') (hes : es ⊆ es') :
    Claimed db' es' i q user := by
  obtain ⟨db₁, hcall, hfind⟩ := h.found
  exact ⟨h.toPeeked.mono hk hes, ⟨db₁, hes hcall, hfind⟩, h.active⟩

theorem LoadedFor.mono (h : LoadedFor db es i q user secret record) (hk : KeepsOwners db db')
    (hes : es ⊆ es') : LoadedFor db' es' i q user secret record := by
  obtain ⟨db₂, hcall, hfind⟩ := h.loaded
  exact ⟨h.toClaimed.mono hk hes, h.parsed, ⟨db₂, hes hcall, hfind⟩, h.owner⟩

theorem VerifiedFor.mono (h : VerifiedFor db es i q env user secret record)
    (hk : KeepsOwners db db') (hes : es ⊆ es') : VerifiedFor db' es' i q env user secret record := by
  obtain ⟨db₃, hcall⟩ := h.verified
  exact ⟨h.toLoadedFor.mono hk hes, ⟨db₃, hes hcall⟩, h.genuine⟩

theorem IssuedFor.mono {time now : ℤ} {t : IssuedTokens}
    (h : IssuedFor db es i q env user secret record time now t) (hk : KeepsOwners db db')
    (hes : es ⊆ es') : IssuedFor db' es' i q env user secret record time now t := by
  obtain ⟨db₄, hcall, hnew⟩ := h.inserted
  obtain ⟨row, hrow, huser⟩ := h.stored
  obtain ⟨row', hrow', huser'⟩ := hk _ row hrow
  exact ⟨h.toVerifiedFor.mono hk hes, h.tokens, ⟨db₄, hes hcall, hnew⟩, row', hrow',
    huser'.trans huser⟩

theorem RefreshPhase.mono {p : Phase} (h : RefreshPhase db es i q env p) (hk : KeepsOwners db db')
    (hes : es ⊆ es') : RefreshPhase db' es' i q env p := by
  cases p with
  | finished r =>
    rcases r with e | ⟨t | _ | saved⟩
    · trivial
    · obtain ⟨user, secret, record, time, now, h⟩ := h
      exact ⟨user, secret, record, time, now, h.mono hk hes⟩
    · trivial
    · trivial
  | peeking q' => exact h
  | findingUser q' userId => exact ⟨h.1, h.2.mono hk hes⟩
  | loading q' claims id secret =>
    obtain ⟨hq, hparts, user, hclaims, h⟩ := h
    exact ⟨hq, hparts, user, hclaims, h.mono hk hes⟩
  | verifyingSecret q' claims secret record =>
    obtain ⟨hq, user, hclaims, h⟩ := h
    exact ⟨hq, user, hclaims, h.mono hk hes⟩
  | revokingFamily record => trivial
  | checkingExpiry q' claims record =>
    obtain ⟨hq, user, secret, hclaims, h⟩ := h
    exact ⟨hq, user, secret, hclaims, h.mono hk hes⟩
  | signing o =>
    obtain ⟨user, secret, record, ho, h⟩ := h
    exact ⟨user, secret, record, ho, h.mono hk hes⟩
  | dating o accessToken =>
    obtain ⟨user, secret, record, time, ho, hsigned, h⟩ := h
    exact ⟨user, secret, record, time, ho, hsigned, h.mono hk hes⟩
  | inserting o accessToken now =>
    obtain ⟨user, secret, record, time, ho, hsigned, h⟩ := h
    exact ⟨user, secret, record, time, ho, hsigned, h.mono hk hes⟩
  | savingReplaced record t =>
    obtain ⟨user, secret, time, now, h⟩ := h
    exact ⟨user, secret, time, now, h.mono hk hes⟩
  | _ => exact h

end Mono

/-! ### One call of a refresh -/

section Call

variable {env : Env} {db : AuthDb} {es : List AuthEvent} {i : ℕ} {q : RefreshCall}

theorem parts_peekedId {id secret : String} (h : parts q.presented = some (id, secret)) :
    id = peekedId q := by
  unfold parts at h
  split at h
  · next id' secret' rest hsplit =>
    split_ifs at h
    cases h
    rw [peekedId, hsplit]
    rfl
  · cases h

/-- **A call of a refresh goes on from what it has returned**: one case for each phase. -/
theorem refreshPhase_call {p : Phase} {s : Stmt} {k : Res s → Phase} (hv : view env p = .call s k)
    (hev : .called i p db ∈ es) (hk : KeepsOwners db (exec env s db).2)
    (h : RefreshPhase db es i q env p) :
    RefreshPhase (exec env s db).2 es i q env (k (exec env s db).1) := by
  have hsub : es ⊆ es := fun _ he => he
  cases p with
  | finished r => cases hv
  | peeking q' =>
    cases hv
    obtain rfl : q' = q := h
    dsimp only [exec]
    split
    · next found hfound =>
      split
      · trivial
      · next record => exact ⟨rfl, ⟨db, record, hev, hfound, rfl⟩, owns_of_findToken hfound⟩
    · trivial
  | findingUser q' userId =>
    cases hv
    obtain ⟨rfl, hpeeked⟩ := h
    dsimp only [exec]
    split
    · trivial
    · next profile hprofile =>
      split_ifs with hactive
      · obtain ⟨user, huser, rfl⟩ := Option.map_eq_some_iff.mp hprofile
        have hid : user.id = userId := Table.key_of_get? (AuthDb.findUser_eq_some.mp huser).1
        subst hid
        have hclaimed : Claimed db es i q' user := ⟨hpeeked, ⟨db, hev, huser⟩, hactive⟩
        unfold Phase.claimed
        split
        · trivial
        · next id secret hparts => exact ⟨rfl, hparts, user, rfl, hclaimed⟩
      · trivial
  | loading q' claims id secret =>
    cases hv
    obtain ⟨rfl, hparts, user, rfl, hclaimed⟩ := h
    obtain rfl := parts_peekedId hparts
    dsimp only [exec]
    split
    · next found hfound =>
      split
      · trivial
      · next record =>
        exact ⟨rfl, user, rfl, hclaimed, hparts, ⟨db, hev, hfound⟩, hclaimed.owns.userId_eq hfound⟩
    · trivial
  | verifyingSecret q' claims secret record =>
    cases hv
    obtain ⟨rfl, user, rfl, hloaded⟩ := h
    dsimp only [exec]
    split_ifs with hvalid
    · unfold Phase.verified
      split_ifs
      · trivial
      · exact ⟨rfl, user, secret, rfl, hloaded, ⟨db, hev⟩, hvalid⟩
    · trivial
  | revokingFamily record =>
    cases hv
    trivial
  | checkingExpiry q' claims record =>
    cases hv
    obtain ⟨rfl, user, secret, rfl, hverified⟩ := h
    dsimp only [exec]
    split_ifs
    · trivial
    · exact ⟨user, secret, record, rfl, hverified⟩
  | signing o =>
    cases hv
    obtain ⟨user, secret, record, rfl, hverified⟩ := h
    exact ⟨user, secret, record, db.clock, rfl, rfl, hverified⟩
  | dating o accessToken =>
    cases hv
    obtain ⟨user, secret, record, time, rfl, hsigned, hverified⟩ := h
    exact ⟨user, secret, record, time, rfl, hsigned, hverified⟩
  | inserting o accessToken now =>
    cases hv
    obtain ⟨user, secret, record, time, rfl, rfl, hverified⟩ := h
    dsimp only [exec, AuthDb.execInsertToken] at hk ⊢
    split_ifs at hk ⊢ with hnew
    · refine ⟨user, secret, time, now, hverified.mono hk hsub, rfl, ⟨db, hev, hnew⟩, _,
        Table.get?_insert_self hnew, hverified.owner.symm⟩
    · trivial
  | savingReplaced record t =>
    cases hv
    obtain ⟨user, secret, time, now, hissued⟩ := h
    exact ⟨user, secret, record, time, now, hissued.mono hk hsub⟩
  | _ => exact h.elim

end Call

/-! ### Requests that refresh nothing -/

/-- The phases of a refresh. -/
def Phase.ofRefresh : Phase → Bool
  | .peeking _ | .findingUser _ _ | .loading _ _ _ _ | .verifyingSecret _ _ _ _
  | .revokingFamily _ | .checkingExpiry _ _ _ | .savingReplaced _ _ => true
  | .signing o | .dating o _ | .inserting o _ _ => o.origin.record.isSome
  | _ => false

theorem ofRefresh_start {q₀ : Request} (h : ∀ q, q₀ ≠ .refresh q) : (start q₀).ofRefresh = false := by
  cases q₀ with
  | refresh q => exact absurd rfl (h q)
  | logout presented =>
    simp only [start]
    repeat' split
    all_goals rfl
  | _ => rfl

theorem ofRefresh_call {env : Env} {p : Phase} {s : Stmt} {k : Res s → Phase}
    (hv : view env p = .call s k) (h : p.ofRefresh = false) (r : Res s) :
    (k r).ofRefresh = false := by
  cases p with
  | finished r => cases hv
  | peeking q => cases h
  | findingUser q userId => cases h
  | loading q claims id secret => cases h
  | verifyingSecret q claims secret record => cases h
  | revokingFamily record => cases h
  | checkingExpiry q claims record => cases h
  | savingReplaced record t => cases h
  | inserting o accessToken now =>
    cases hv
    obtain ⟨claims, origin, ctx, g⟩ := o
    cases origin with
    | login familyId => cases r <;> rfl
    | rotation record => cases h
  | signing o | dating o _ =>
    cases hv
    obtain ⟨claims, origin, ctx, g⟩ := o
    cases origin with
    | login familyId => cases r <;> rfl
    | rotation record => cases h
  | findingEmail q =>
    cases hv
    rcases r with e | _ | user
    · rfl
    · rfl
    · show (Phase.loaded q user).ofRefresh = false
      unfold Phase.loaded
      split_ifs
      · split <;> rfl
      · rfl
  | verifyingPassword q user =>
    cases hv
    rcases r with e | _ | _
    · rfl
    · show (Phase.wrong q user).ofRefresh = false
      unfold Phase.wrong
      split_ifs <;> rfl
    · rfl
  | _ =>
    cases hv
    rcases r with e | a
    · rfl
    · dsimp only
      repeat' split
      all_goals rfl

/-! ### Runs -/

/-- **A family belongs to one account.** -/
def Owned (db : AuthDb) : Prop := ∀ s ∈ db.refreshTokens.rows, ∀ t ∈ db.refreshTokens.rows,
  s.familyId = t.familyId → s.userId = t.userId

/-- A login starts a family that is new. -/
def NewFamily (_ : AuthConfig) : AuthEvent → Prop
  | .called _ (.inserting ⟨_, .login familyId, _, _⟩ _ _) db =>
    ∀ t ∈ db.refreshTokens.rows, t.familyId ≠ familyId
  | _ => True

/-- What the request at the slot `i` goes on. -/
def Backed (env : Env) (db : AuthDb) (tr : List AuthEvent) (i : ℕ) (p : Phase) : Prop :=
  ∃ q₀, requestAt i tr = some q₀ ∧ ((∀ q, q₀ ≠ .refresh q) → p.ofRefresh = false) ∧
    ∀ q, q₀ = .refresh q → RefreshPhase db (since i tr) i q env p

/-- What every step keeps. -/
structure OwnedRun (env : Env) (tr : List AuthEvent) (c : AuthConfig) : Prop where
  known : AllKnown c
  backed : ∀ i p, c.threads i = some p → Backed env c.db tr i p
  owned : Owned c.db

section Step

variable {env : Env} {others : ℕ → AuthDb → AuthDb} {tr : List AuthEvent} {c c' : AuthConfig}
  {e : AuthEvent} {db db' : AuthDb} {i : ℕ} {p p' : Phase}

theorem Backed.mono (h : Backed env db tr i p) (hk : KeepsOwners db db') (he : arrival i e = none) :
    Backed env db' (e :: tr) i p := by
  obtain ⟨q₀, hq₀, hother, hrefresh⟩ := h
  refine ⟨q₀, (requestAt_cons he tr).trans hq₀, hother, fun q hq => ?_⟩
  rw [since_cons he]
  exact (hrefresh q hq).mono hk (List.subset_cons_self ..)

theorem Backed.call {s : Stmt} {k : Res s → Phase} (h : Backed env db tr i p)
    (hv : view env p = .call s k) (hk : KeepsOwners db (exec env s db).2) :
    Backed env (exec env s db).2 (.called i p db :: tr) i (k (exec env s db).1) := by
  have hnone : arrival i (.called i p db) = none := rfl
  obtain ⟨q₀, hq₀, hother, hrefresh⟩ := h
  refine ⟨q₀, (requestAt_cons hnone tr).trans hq₀, fun hq => ofRefresh_call hv (hother hq) _,
    fun q hq => ?_⟩
  have hsame : KeepsOwners db db := fun _ row hrow => ⟨row, hrow, rfl⟩
  have hbefore := (hrefresh q hq).mono hsame (List.subset_cons_self (.called i p db) _)
  rw [since_cons hnone]
  exact refreshPhase_call hv (List.mem_cons_self ..) hk hbefore

theorem backed_start (q₀ : Request) : Backed env db (.arrived i q₀ :: tr) i (start q₀) := by
  refine ⟨q₀, requestAt_arrived i q₀ tr, fun hq => ofRefresh_start hq, ?_⟩
  rintro q rfl
  simp only [start]
  split_ifs
  · trivial
  · trivial
  · rfl

theorem TokenStep.keepsOwners (h : TokenStep env p p' db db') (hp : Known db p) :
    KeepsOwners db db' := by
  intro k row hget
  obtain ⟨row', hget', -, huser, -⟩ := h.keeps hp hget
  exact ⟨row', hget', huser⟩

/-- **A token is inserted for the account of its family.** -/
theorem OwnedRun.inserts (h : OwnedRun env tr c) {o : Issuance} {accessToken : String} {now : ℤ}
    (hi : c.threads i = some (.inserting o accessToken now))
    (ha : NewFamily c (.called i (.inserting o accessToken now) c.db)) :
    ∀ t ∈ c.db.refreshTokens.rows, t.familyId = o.origin.familyId → t.userId = o.claims.sub := by
  intro t ht hfamily
  obtain ⟨claims, origin, ctx, g⟩ := o
  cases origin with
  | login familyId => exact absurd hfamily (ha t ht)
  | rotation record =>
    obtain ⟨q₀, -, hother, hrefresh⟩ := h.backed i _ hi
    have hq : ∃ q, q₀ = .refresh q := by
      by_contra hne
      have hfalse := hother fun q hq => hne ⟨q, hq⟩
      cases hfalse
    obtain ⟨q, hq⟩ := hq
    obtain ⟨user, secret, record', time, ho, -, hverified⟩ := hrefresh q hq
    cases ho
    obtain ⟨row, hrow, hrowf, hrowu⟩ := h.known i _ hi record rfl
    have hsame := h.owned t ht row (Table.mem_of_get? hrow).1 (hfamily.trans hrowf.symm)
    exact (hsame.trans hrowu).trans hverified.owner

theorem OwnedRun.owned_call (h : OwnedRun env tr c) (hi : c.threads i = some p)
    (hs : TokenStep env p p' c.db db') (ha : NewFamily c (.called i p c.db)) : Owned db' := by
  have hp := h.known i p hi
  -- a row was there, or is the one that has just been inserted
  have hcases : ∀ t ∈ db'.refreshTokens.rows,
      (∃ t₀ ∈ c.db.refreshTokens.rows, t₀.familyId = t.familyId ∧ t₀.userId = t.userId) ∨
      ∃ o accessToken now, p = .inserting o accessToken now ∧ t = o.record env now := by
    intro t ht
    have hget := Table.get?_of_mem ht
    rcases hs.row_of hp hget with ⟨t₀, hget₀, -⟩ | ⟨o, accessToken, now, hp₁, -, -, -, hrow⟩
    · obtain ⟨t', hget', hfamily, huser, -⟩ := hs.keeps hp hget₀
      have heq := hget.symm.trans hget'
      cases heq
      exact Or.inl ⟨t₀, (Table.mem_of_get? hget₀).1, hfamily.symm, huser.symm⟩
    · exact Or.inr ⟨o, accessToken, now, hp₁, hrow⟩
  intro s hs' t ht hfamily
  rcases hcases s hs' with ⟨s₀, hs₀, hsf, hsu⟩ | ⟨o, a, now, hp₁, rfl⟩ <;>
    rcases hcases t ht with ⟨t₀, ht₀, htf, htu⟩ | ⟨o₂, a₂, now₂, hp₂, rfl⟩
  · have heq := h.owned s₀ hs₀ t₀ ht₀ (hsf.trans (hfamily.trans htf.symm))
    exact hsu.symm.trans (heq.trans htu)
  · subst hp₂
    have heq := h.inserts hi ha s₀ hs₀ (hsf.trans hfamily)
    exact hsu.symm.trans heq
  · subst hp₁
    have heq := h.inserts hi ha t₀ ht₀ (htf.trans hfamily.symm)
    exact heq.symm.trans htu
  · rw [hp₁] at hp₂
    cases hp₂
    rfl

theorem OwnedRun.step (hothers : ∀ n db, (others n db).refreshTokens = db.refreshTokens)
    (h : OwnedRun env tr c) (hs : (systemAmong env others).Step c e c') (ha : NewFamily c e) :
    OwnedRun env (e :: tr) c' := by
  have hknown := h.known.step (token_event_among hothers hs)
  have hrefl : ∀ db, KeepsOwners db db := fun db k row hrow => ⟨row, hrow, rfl⟩
  cases hs with
  | @arrive i q hi =>
    refine ⟨hknown, fun j p hj => ?_, h.owned⟩
    rcases Config.of_put hj with ⟨rfl, heq⟩ | ⟨hne, hj'⟩
    · cases heq
      exact backed_start q
    · exact (h.backed j p hj').mono (hrefl _) (if_neg fun heq => hne heq.symm)
  | @call i p s k hi hv =>
    have hstep : TokenStep env p (k (exec env s c.db).1) c.db (exec env s c.db).2 := token_step hv
    have hk := hstep.keepsOwners (h.known i p hi)
    refine ⟨hknown, fun j p' hj => ?_, h.owned_call hi hstep ha⟩
    rcases Config.of_put hj with ⟨rfl, heq⟩ | ⟨hne, hj'⟩
    · cases heq
      exact (h.backed _ p hi).call hv hk
    · exact (h.backed j p' hj').mono hk rfl
  | @leave i p r hi hv =>
    refine ⟨hknown, fun j p' hj => ?_, h.owned⟩
    rcases Config.of_put hj with ⟨-, heq⟩ | ⟨-, hj'⟩
    · cases heq
    · exact (h.backed j p' hj').mono (hrefl _) rfl
  | pass n =>
    have htable := hothers n c.db
    refine ⟨hknown, fun j p hj => (h.backed j p hj).mono (fun k row hrow => ?_) rfl, ?_⟩
    · exact ⟨row, (congrArg (fun t => Table.get? t k) htable).trans hrow, rfl⟩
    · intro s hs t ht
      have hs' : s ∈ c.db.refreshTokens.rows := htable ▸ hs
      have ht' : t ∈ c.db.refreshTokens.rows := htable ▸ ht
      exact h.owned s hs' t ht'

end Step

/-- **A family belongs to one account, and tokens are issued for the account of the token that was
verified**, whatever happens to the accounts in between: a refresh that returns a token pair has read
one id from the string both times; its claims are those of the account of the token whose secret it
has verified, which was there and active when it was found; and the new token is stored for that
account. -/
theorem refresh_owner {env : Env} {others : ℕ → AuthDb → AuthDb} {db : AuthDb} {tr : List AuthEvent}
    {c : AuthConfig} (hothers : ∀ n db, (others n db).refreshTokens = db.refreshTokens)
    (h₀ : Owned db) (h : (systemAmong env others).Run NewFamily (.idle db) tr c) :
    Owned c.db ∧ ∀ i q t, c.threads i = some (.finished (.ok (.tokens t))) →
      requestAt i tr = some (.refresh q) → ∃ user secret record time now,
        IssuedFor c.db (since i tr) i q env user secret record time now t := by
  have hinv : OwnedRun env tr c := h.invariant
    ⟨fun i p hi => (by cases hi), fun i p hi => (by cases hi), h₀⟩
    fun hI hs ha => hI.step hothers hs ha
  refine ⟨hinv.owned, fun i q t hi hq => ?_⟩
  obtain ⟨q₀, hq₀, -, hrefresh⟩ := hinv.backed i _ hi
  rw [hq] at hq₀
  cases hq₀
  exact hrefresh q rfl

/-- The call stores no token of a login. -/
def onlyRotations (_ : AuthConfig) : AuthEvent → Bool
  | .called _ (.inserting ⟨_, .login _, _, _⟩ _ _) _ => false
  | _ => true

/-- The refresh at the slot 0 has returned a token pair. -/
def refreshed (x : List AuthEvent × AuthConfig) : Bool :=
  match requestAt 0 x.1, x.2.threads 0 with
  | some (.refresh _), some (.finished (.ok (.tokens _))) => true
  | _, _ => false

/-- A refresh with the first token, while time passes. -/
theorem refresh_owner_first : ∃ tr c q t,
    (systemAmong plainEnv passTime).Run NewFamily (.idle oneLogin) tr c ∧ Owned c.db ∧
      ∃ user secret record time now,
        IssuedFor c.db (since 0 tr) 0 q plainEnv user secret record time now t := by
  have hnew : ∀ c e, onlyRotations c e = true → NewFamily c e := by
    intro c e he
    unfold NewFamily
    split
    · cases he
    · trivial
  obtain ⟨tr, c, hrun, hcheck, -⟩ := System.exists_run (S := systemAmong plainEnv passTime)
    onlyRotations 1 (fun c e _ he => hnew c e he) oneLogin
    ([.arrive 0 (refreshFirst 4), .pass 5] ++ List.replicate 9 (.run 0)) refreshed (by decide)
    (by decide +kernel)
  unfold refreshed at hcheck
  split at hcheck
  · next q t hq ht =>
    have hothers : ∀ n db, (passTime n db).refreshTokens = db.refreshTokens := fun _ _ => rfl
    have howner := refresh_owner hothers (by unfold Owned; decide) hrun
    exact ⟨tr, c, q, t, hrun, howner.1, howner.2 0 q t ht hq⟩
  · cases hcheck

end GameClub.Auth
