import GameClub.Auth.Services
import GameClub.Lib.Past

/-! # What is signed and what is saved

The handlers side by side. A token is signed for claims that were read from an account, and an account
is saved with columns that were read from it; both may be out of date by then, but they were once so.

* `vouchedLaw`: claims are those of an account that was active at an earlier call, an account is
  saved as it was at an earlier call, but for its password, its lock and its last login, or by an
  update of the users service, and an entry of the audit names an account as it was.
* `heeds_login`, `heeds_refresh`, `heeds_logout`, `heeds_changePassword`, `heeds_update`: the handlers
  heed it, whatever the others do. -/

namespace GameClub.Auth

open GameClub.Lib GameClub.Lib.Interleave GameClub.Common

/-- The calls on the accounts and the tokens. -/
abbrev AuthPast := Past Stmt AuthDb

/-- The account was stored, and not removed, when a call was made. -/
def Seen (h : AuthPast) (user : User) : Prop := ∃ m ∈ h, m.2.findUser user.id = some user

/-- **The claims are those of an account that was active** when a call was made. -/
def Vouched (h : AuthPast) (claims : AccessTokenClaims) : Prop :=
  ∃ user, Seen h user ∧ user.isActive = true ∧ toClaims user.profile = claims

/-- The entity has the columns of the account, but for its hash, its lock and its last login. -/
structure KeepsAccount (entity : UserEntity) (user : User) : Prop where
  id : entity.id = user.id
  email : entity.email = user.email
  fullName : entity.fullName = some (some user.fullName)
  role : entity.role = some (some user.role)
  isActive : entity.isActive = some (some user.isActive)
  deletedAt : entity.deletedAt = user.deletedAt

/-- **The entity is an account as it was** when a call was made. -/
def Restores (h : AuthPast) (entity : UserEntity) : Prop :=
  ∃ user, Seen h user ∧ KeepsAccount entity user

/-- **The entry is about an account as it was** when a call was made. -/
def Attested (h : AuthPast) (entry : Audit.AuditEntryInput) : Prop :=
  ∃ user action ctx, Seen h user ∧ entry = auditEntry user.id user.email action ctx

/-- **What a call needs**; under `D` an account is updated. -/
def vouchedLaw (env : Env) (D : Prop) : Law Res AuthDb where
  exec := exec env
  needs h s :=
    match s with
    | .sign claims => Vouched h claims
    | .saveUser entity => D ∨ Restores h entity
    | .audit entry => Attested h entry
    | _ => True

/-- A call that needs nothing. -/
def Exempt : Stmt → Prop
  | .sign _ | .saveUser _ | .audit _ => False
  | _ => True

variable {env : Env} {D : Prop} {h h' : AuthPast}

theorem Seen.later {user : User} (hu : Seen h user) (hlater : h <:+ h') : Seen h' user := by
  obtain ⟨m, hm, hfound⟩ := hu
  exact ⟨m, hlater.subset hm, hfound⟩

theorem Vouched.later {claims : AccessTokenClaims} (hc : Vouched h claims) (hlater : h <:+ h') :
    Vouched h' claims := by
  obtain ⟨user, hu, hrest⟩ := hc
  exact ⟨user, hu.later hlater, hrest⟩

/-- An account with another hash, lock or last login. -/
theorem sameAccount_entity (user : User) (lastLoginAt : Option ℤ) (failedLoginAttempts : ℕ)
    (lockedUntil : Option ℤ) (passwordHash : String) :
    KeepsAccount { user with lastLoginAt, failedLoginAttempts, lockedUntil, passwordHash }.entity
      user := ⟨rfl, rfl, rfl, rfl, rfl, rfl⟩

theorem exempt_needs (h : AuthPast) (s : Stmt) (hs : Exempt s) :
    (vouchedLaw env D).needs h s := by
  cases s with
  | sign claims => exact hs.elim
  | saveUser entity => exact hs.elim
  | audit entry => exact hs.elim
  | _ => trivial

/-! ### Calls -/

section Calls

variable {α : Type} {s : Stmt} {Q : Reply s → AuthPast → Prop}

theorem heeds_exempt (hs : Exempt s) (hQ : ∀ a h', h <:+ h' → Q a h') :
    (vouchedLaw env D).Heeds (ask s) Q h :=
  Law.heeds_of_sends (sends_ask hs) exempt_needs hQ

/-- A call that needs nothing, and what follows. -/
theorem heeds_exempt_bind (hs : Exempt s) {f : Reply s → Async α} {P : α → AuthPast → Prop}
    (hf : ∀ a h', h <:+ h' → (vouchedLaw env D).Heeds (f a) P h') :
    (vouchedLaw env D).Heeds (ask s >>= f) P h :=
  Law.heeds_bind (heeds_exempt hs hf)

/-- A call with its need, and what follows. -/
theorem heeds_need_bind (hs : ∀ h', h <:+ h' → (vouchedLaw env D).needs h' s)
    {f : Reply s → Async α} {P : α → AuthPast → Prop}
    (hf : ∀ a h', h <:+ h' → (vouchedLaw env D).Heeds (f a) P h') :
    (vouchedLaw env D).Heeds (ask s >>= f) P h :=
  Law.heeds_bind (Law.heeds_ask fun h' _ hlater => ⟨hs h' hlater, fun a _ =>
    hf a _ (hlater.trans (List.suffix_cons ..))⟩)

end Calls

section Programs

variable {α : Type} {P : α → AuthPast → Prop}

/-- An account found by its email was seen. -/
theorem heeds_findUserByEmail_bind {email : String} {f : Option User → Async α}
    (hf : ∀ found h', h <:+ h' → (∀ user, found = some user → Seen h' user) →
      (vouchedLaw env D).Heeds (f found) P h') :
    (vouchedLaw env D).Heeds (ask (.findUserByEmail email) >>= f) P h := by
  refine Law.heeds_bind (Law.heeds_ask fun h' db hlater => ⟨trivial, fun found hfound => ?_⟩)
  refine hf found _ (hlater.trans (List.suffix_cons ..)) fun user huser => ?_
  have hemail : db.findUserByEmail email = some user := (Except.ok.inj hfound).trans huser
  have hlive := List.find?_some hemail
  simp only [Bool.and_eq_true, Option.isNone_iff_eq_none] at hlive
  exact ⟨_, List.mem_cons_self .., AuthDb.findUser_eq_some.mpr
    ⟨AuthDb.findUserByEmail_get? hemail, hlive.2⟩⟩

/-- An account found by its id was seen. -/
theorem heeds_findUserWithSecret_bind {id : Uuid} {f : Option User → Async α}
    (hf : ∀ found h', h <:+ h' → (∀ user, found = some user → Seen h' user ∧ user.id = id) →
      (vouchedLaw env D).Heeds (f found) P h') :
    (vouchedLaw env D).Heeds (ask (.findUserWithSecret id) >>= f) P h := by
  refine Law.heeds_bind (Law.heeds_ask fun h' db hlater => ⟨trivial, fun found hfound => ?_⟩)
  refine hf found _ (hlater.trans (List.suffix_cons ..)) fun user huser => ?_
  have hsome : db.findUser id = some user := (Except.ok.inj hfound).trans huser
  have hid : user.id = id := Table.key_of_get? (AuthDb.findUser_eq_some.mp hsome).1
  exact ⟨⟨_, List.mem_cons_self .., by rw [hid]; exact hsome⟩, hid⟩

/-- A profile that is found is that of an account that was seen. -/
theorem heeds_findById_bind {id : UuidText} {f : Profile → Async α}
    (hf : ∀ user h', h <:+ h' → Seen h' user → (vouchedLaw env D).Heeds (f user.profile) P h') :
    (vouchedLaw env D).Heeds (findById id >>= f) P h := by
  refine Law.heeds_bind (Law.heeds_bind (Law.heeds_ask fun h' db hlater =>
    ⟨trivial, fun found hfound => ?_⟩))
  cases found with
  | none => trivial
  | some profile =>
    have hprofile : (db.findUser id.value).map User.profile = some profile := Except.ok.inj hfound
    obtain ⟨user, huser, rfl⟩ := Option.map_eq_some_iff.mp hprofile
    have hid : user.id = id.value := Table.key_of_get? (AuthDb.findUser_eq_some.mp huser).1
    exact hf user _ (hlater.trans (List.suffix_cons ..))
      ⟨_, List.mem_cons_self .., by rw [hid]; exact huser⟩

/-- An account is saved as it was, and what follows. -/
theorem heeds_saveUser_bind {entity : UserEntity} {user : User} (hu : Seen h user)
    (hsame : KeepsAccount entity user) {f : Unit → Async α}
    (hf : ∀ h', h <:+ h' → (vouchedLaw env D).Heeds (f ()) P h') :
    (vouchedLaw env D).Heeds (ask (.saveUser entity) >>= f) P h :=
  heeds_need_bind (s := .saveUser entity)
    (fun _ hlater => Or.inr ⟨user, hu.later hlater, hsame⟩) fun _ => hf

/-- An entry about an account that was seen, and what follows. -/
theorem heeds_audit_bind {user : User} (hu : Seen h user) (action : String) (ctx : RequestContext)
    {f : Unit → Async α} (hf : ∀ h', h <:+ h' → (vouchedLaw env D).Heeds (f ()) P h') :
    (vouchedLaw env D).Heeds (ask (.audit (auditEntry user.id user.email action ctx)) >>= f) P h :=
  heeds_need_bind (s := .audit (auditEntry user.id user.email action ctx))
    (fun _ hlater => ⟨user, action, ctx, hu.later hlater, rfl⟩) fun _ => hf

end Programs

/-! ### Tokens -/

theorem exempt_parseAndLoad (presented : String) : (parseAndLoad presented).Sends Exempt :=
  sends_parseAndLoad (fun _ => trivial) (fun _ _ => trivial) presented

theorem heeds_issue {claims : AccessTokenClaims} (hc : Vouched h claims) (familyId : Uuid)
    (ctx : RequestContext) (g : Generated) :
    (vouchedLaw env D).Heeds (issue env claims familyId ctx g) (fun _ _ => True) h :=
  heeds_need_bind (s := .sign claims) (fun _ hlater => hc.later hlater) fun _ _ _ =>
    heeds_exempt_bind (by trivial) fun _ _ _ => heeds_exempt_bind (by trivial) fun _ _ _ => trivial

theorem heeds_rotate {claims : AccessTokenClaims} (hc : Vouched h claims) (presented : String)
    (ctx : RequestContext) (g : Generated) :
    (vouchedLaw env D).Heeds (rotate env presented claims ctx g) (fun _ _ => True) h := by
  refine Law.heeds_bind (Law.heeds_of_sends (exempt_parseAndLoad presented) exempt_needs
    fun loaded h' hlater => ?_)
  cases loaded with
  | none => trivial
  | some record =>
    unfold rotateLoaded
    dsimp only
    split_ifs with hrevoked
    · exact heeds_exempt_bind (by trivial) fun _ _ _ => trivial
    · refine heeds_exempt_bind (by trivial) fun (now : ℤ) h'' hlater' => ?_
      split_ifs
      · trivial
      · refine Law.heeds_bind ((heeds_issue (hc.later (hlater.trans hlater')) _ ctx g).mono
          fun next h₃ _ _ => ?_)
        exact heeds_exempt_bind (by trivial) fun _ _ _ => trivial

/-- The claims of a refresh token are those of an account that is active. -/
theorem heeds_claimsFromRefresh (presented : String) :
    (vouchedLaw env D).Heeds (claimsFromRefresh presented) (fun claims h' => Vouched h' claims) h := by
  have hpeek : (peekUserId presented).Sends Exempt :=
    sends_peekUserId (fun _ => trivial) presented
  refine Law.heeds_bind (Law.heeds_of_sends hpeek exempt_needs fun userId h' hlater => ?_)
  cases userId with
  | none => trivial
  | some userId =>
    refine heeds_findById_bind fun user h'' _ huser => ?_
    split_ifs with hactive
    · exact ⟨user, huser, hactive, rfl⟩
    · trivial

/-! ### The handlers -/

section Handlers

variable {user : User} (dto : LoginDto) (ctx : RequestContext) (g : Generated)

theorem heeds_registerFailure_bind {α : Type} {P : α → AuthPast → Prop} (hu : Seen h user)
    {f : Unit → Async α} (hf : ∀ h', h <:+ h' → (vouchedLaw env D).Heeds (f ()) P h') :
    (vouchedLaw env D).Heeds (registerFailure user >>= f) P h := by
  unfold registerFailure
  split_ifs
  · unfold lockOut
    rw [Prog.bind_assoc]
    exact heeds_exempt_bind (by trivial) fun now h' hlater =>
      heeds_saveUser_bind (hu.later hlater) (sameAccount_entity user _ _ _ _) fun h'' hlater' =>
        hf h'' (hlater.trans hlater')
  · exact heeds_saveUser_bind hu (sameAccount_entity user _ _ _ _) hf

theorem heeds_signIn (hu : Seen h user) (hactive : user.isActive = true) :
    (vouchedLaw env D).Heeds (signIn env dto ctx g user) (fun _ _ => True) h := by
  refine heeds_exempt_bind (by trivial) fun now h' hlater => ?_
  refine heeds_saveUser_bind (hu.later hlater) (sameAccount_entity user _ _ _ _) fun h'' hlater' => ?_
  have hu' : Seen h'' user := hu.later (hlater.trans hlater')
  refine heeds_audit_bind hu' "LOGIN_SUCCESS" ctx fun h₃ hlater₃ => ?_
  exact heeds_issue ⟨user, hu'.later hlater₃, hactive, rfl⟩ _ ctx g

theorem heeds_authenticate (hu : Seen h user) (hactive : user.isActive = true) :
    (vouchedLaw env D).Heeds (authenticate env dto ctx g user) (fun _ _ => True) h := by
  refine heeds_exempt_bind (by trivial) fun (ok : Bool) h' hlater => ?_
  cases ok with
  | true => exact heeds_signIn dto ctx g (hu.later hlater) hactive
  | false =>
    refine heeds_registerFailure_bind (hu.later hlater) fun h'' hlater' => ?_
    exact heeds_audit_bind (hu.later (hlater.trans hlater')) "LOGIN_FAILED" ctx fun _ _ => trivial

/-- **A login** signs for an account it has found active. -/
theorem heeds_login : (vouchedLaw env D).Heeds (login env dto ctx g) (fun _ _ => True) h := by
  refine heeds_findUserByEmail_bind fun found h' _ hseen => ?_
  cases found with
  | none => trivial
  | some user =>
    have hu := hseen user rfl
    unfold loginFound
    dsimp only
    split_ifs with hactive
    · cases user.lockedUntil with
      | none => exact heeds_authenticate dto ctx g hu hactive
      | some lockedUntil =>
        refine heeds_exempt_bind (by trivial) fun (now : ℤ) h'' hlater => ?_
        split_ifs
        · trivial
        · exact heeds_authenticate dto ctx g (hu.later hlater) hactive
    · trivial

/-- **A refresh** signs for an account it has found active. -/
theorem heeds_refresh (presented : String) :
    (vouchedLaw env D).Heeds (refresh env presented ctx g) (fun _ _ => True) h := by
  unfold refresh
  split_ifs
  · trivial
  · refine Law.heeds_tryCatch (Law.heeds_bind ?_) fun _ _ => trivial
    exact (heeds_claimsFromRefresh presented).mono fun claims h' _ hclaims =>
      heeds_rotate hclaims presented ctx g

theorem heeds_logout (presented : Option String) :
    (vouchedLaw env D).Heeds (logout presented) (fun _ _ => True) h := by
  refine Law.heeds_of_sends ?_ exempt_needs fun _ _ _ => trivial
  unfold logout
  cases presented with
  | none => trivial
  | some token =>
    dsimp only
    split_ifs
    · trivial
    · refine Prog.Sends.bind (exempt_parseAndLoad token) fun loaded => ?_
      cases loaded with
      | none => trivial
      | some record =>
        unfold revokeLoaded
        dsimp only
        split_ifs
        · trivial
        · exact sends_ask trivial

/-- **A change of a password** saves the account as it has found it. -/
theorem heeds_changePassword (userId : Uuid) (dto : ChangePasswordDto) (salt : String) :
    (vouchedLaw env D).Heeds (changePassword env userId dto ctx salt) (fun _ _ => True) h := by
  refine heeds_findUserWithSecret_bind fun found h' _ hfound => ?_
  cases found with
  | none => trivial
  | some user =>
    obtain ⟨hu, rfl⟩ := hfound user rfl
    refine heeds_exempt_bind (by trivial) fun (ok : Bool) h'' hlater => ?_
    cases ok with
    | false => trivial
    | true =>
      refine Law.heeds_bind (heeds_findById_bind fun profile h₃ hlater₃ hseen => ?_)
      refine Law.heeds_ask fun h₄ db hlater₄ => ⟨Or.inr ⟨profile, hseen.later hlater₄,
        ⟨rfl, rfl, rfl, rfl, rfl, rfl⟩⟩, fun _ _ => ?_⟩
      refine heeds_exempt_bind (by trivial) fun _ h₅ hlater₅ => ?_
      have hlast : h' <:+ h₅ := hlater.trans (hlater₃.trans (hlater₄.trans
        ((List.suffix_cons ..).trans hlater₅)))
      exact Law.heeds_ask fun h₆ _ hlater₆ => ⟨⟨user, "PASSWORD_CHANGED", ctx,
        hu.later (hlast.trans hlater₆), rfl⟩, fun _ _ => trivial⟩

/-- **An update** of the users service is allowed under `D`. -/
theorem heeds_update (id : UuidText) (dto : UpdateUserDto) (hd : D) :
    (vouchedLaw env D).Heeds (update id dto) (fun _ _ => True) h :=
  heeds_findById_bind fun user _ _ _ =>
    heeds_need_bind (s := .saveUser (user.profile.assign dto)) (fun _ _ => Or.inl hd)
      fun _ _ _ => trivial

theorem heeds_findById (id : UuidText) :
    (vouchedLaw env D).Heeds (findById id) (fun _ _ => True) h := by
  exact Law.heeds_of_sends (A := Exempt) (sends_findById (fun _ => trivial) id) exempt_needs
    fun _ _ _ => trivial

end Handlers

end GameClub.Auth
