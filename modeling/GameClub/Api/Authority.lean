import GameClub.Api.Server
import GameClub.Auth.Vouched

/-! # On whose authority

The guards run before a handler, and the handler's calls come later, among the calls of others. A call
that changes the club, the settings or the staff is made for the principal of its request, whose role
the route asks for; the principal comes from the token of the request, the token was signed for claims,
and the claims were read from an account.

* `Needs`, `heeds_handle`: what a request knows when it makes a call.
* `Principal`: the claims of the request's own token, back to the account they were read from.
* `authority_traced`: in every run in which no token is forged, every such call is traced so. -/

namespace GameClub.Api

open GameClub.Lib GameClub.Lib.Interleave GameClub.Common GameClub.Store
open GameClub.Auth (AuthDb AuthPast AccessTokenClaims ErrorResponse Role UserEntity)

/-! ### Calls and their handlers -/

/-- The handler a call on the club belongs to. -/
def handlerOf : Services.Call → Handler
  | .op (.start _ _ _ _ _) => .startSession
  | .op (.extend _ _) => .extendSession
  | .op (.endSession _ _ _ _ _) => .endSession
  | .op (.cancel _ _ _) => .cancelSession
  | .op (.recordPayment _ _) => .recordPayment
  | .op (.correct _ _ _ _ _) => .correct
  | .op (.createComputer _ _) => .createComputer
  | .op (.updateComputer _ _ _) => .updateComputer
  | .op (.removeComputer _ _) => .removeComputer
  | .op (.updateRoom _ _) => .updateRoom
  | .createRoom _ _ => .createRoom
  | .removeRoom _ _ => .removeRoom
  | .createCustomer _ _ => .createCustomer
  | .updateCustomer _ _ => .updateCustomer
  | .removeCustomer _ _ => .removeCustomer

/-- The actor a call on the club writes down. -/
def actorOf : Services.Call → Option Uuid
  | .op (.start _ ctx _ _ _) | .op (.endSession _ _ ctx _ _) | .op (.cancel _ ctx _) =>
    some ctx.actorId
  | .op (.recordPayment input _) => input.actorId
  | .op (.correct _ _ actorId _ _) => some actorId
  | _ => none

/-- The handler of a call that changes the club, the settings or the staff. -/
def Stmt.handler : Stmt → Option Handler
  | .club c => some (handlerOf c)
  | .saveSetting _ => some .setSetting
  | .insertUser _ => some .createUser
  | .softRemoveUser _ => some .removeUser
  | _ => none

/-- The actor a call writes down. -/
def Stmt.actor : Stmt → Option Uuid
  | .club c => actorOf c
  | .saveSetting row => row.updatedBy
  | _ => none

/-- The calls on the accounts. -/
def accountMoment : Stmt × Server → Option (Auth.Stmt × AuthDb)
  | (.account s, w) => some (s, w.accounts)
  | _ => none

def accountsPast (h : ApiPast) : AuthPast := h.filterMap accountMoment

/-! ### What a call needs -/

/-- The token of the request was verified, with these claims. -/
def Authentic (env : Env) (req : Request) (h : ApiPast) (claims : AccessTokenClaims) : Prop :=
  ∃ token w verified, Realtime.JwtAuthGuard.extractToken req.http = some token ∧
    (.verifyAsync token, w) :: verified <:+ h ∧
      env.verifyAsync token w.accounts.clock = some claims

/-- The principal of the request has passed the guards of the handler. -/
structure Permitted (env : Env) (req : Request) (h : ApiPast) (handler : Handler)
    (claims : AccessTokenClaims) : Prop where
  routed : req.handler = handler
  authentic : Authentic env req h claims
  allows : handler.Allows claims.role

/-- The entry is that of an audited handler and its principal. -/
structure Records (entry : Audit.AuditEntryInput) (handler : Handler) (claims : AccessTokenClaims) :
    Prop where
  action : ∃ audited, handler.audited = some audited ∧ entry.action = audited.metadata.action ∧
    entry.entity = audited.metadata.entity
  actorId : entry.actorId = some (Uuid.text claims.sub)
  actorEmail : entry.actorEmail = some claims.email

/-- **What a call of a request needs of the past.** -/
def Needs (env : Env) (req : Request) (h : ApiPast) (s : Stmt) : Prop :=
  (∀ handler, s.handler = some handler → ∃ claims, Permitted env req h handler claims ∧
    ∀ actor, s.actor = some actor → actor = claims.sub) ∧
  match s with
  | .account (.sign claims) => Auth.Vouched (accountsPast h) claims
  | .account (.saveUser entity) =>
    (∃ claims, Permitted env req h .updateUser claims) ∨ Auth.Restores (accountsPast h) entity
  | .account (.audit entry) => Auth.Attested (accountsPast h) entry
  | .record entry =>
    ∃ handler claims, Permitted env req h handler claims ∧ Records entry handler claims
  | _ => True

def authorityLaw (env : Env) (req : Request) : Law Res Server where
  exec := exec env
  needs := Needs env req

variable {env : Env} {req : Request} {h h' : ApiPast} {handler : Handler} {claims : AccessTokenClaims}

theorem accountsPast_suffix (hlater : h <:+ h') : accountsPast h <:+ accountsPast h' := by
  obtain ⟨before, rfl⟩ := hlater
  exact ⟨accountsPast before, (List.filterMap_append ..).symm⟩

theorem Permitted.later (hp : Permitted env req h handler claims) (hlater : h <:+ h') :
    Permitted env req h' handler claims := by
  obtain ⟨hrouted, ⟨token, w, verified, htoken, hm, hv⟩, hallows⟩ := hp
  exact ⟨hrouted, ⟨token, w, verified, htoken, hm.trans hlater, hv⟩, hallows⟩

/-! ### The guards -/

/-- **What the guards know of the principal** of a handler. -/
structure Admitted (env : Env) (req : Request) (h : ApiPast) (handler : Handler)
    (user : Option AccessTokenClaims) : Prop where
  permitted : ∀ claims, user = some claims → Permitted env req h handler claims
  present : handler.required ≠ [] → ∃ claims, user = some claims

theorem Admitted.later {user : Option AccessTokenClaims} (ha : Admitted env req h handler user)
    (hlater : h <:+ h') : Admitted env req h' handler user :=
  ⟨fun claims hu => (ha.permitted claims hu).later hlater, ha.present⟩

/-- A handler with required roles has a principal who has passed. -/
theorem Admitted.exists_permitted {user : Option AccessTokenClaims}
    (ha : Admitted env req h handler user) (hrequired : handler.required ≠ []) :
    ∃ claims, Permitted env req h handler claims := by
  obtain ⟨claims, hu⟩ := ha.present hrequired
  exact ⟨claims, ha.permitted claims hu⟩

theorem heeds_canActivate : (authorityLaw env req).Heeds (JwtAuthGuard.canActivate req)
    (fun user h' => ∀ claims, user = some claims → Authentic env req h' claims) h := by
  unfold JwtAuthGuard.canActivate
  split_ifs
  · exact fun claims hu => nomatch hu
  · split
    · trivial
    · next token htoken =>
      intro h' w _
      refine ⟨⟨fun _ hhandler => (nomatch hhandler), trivial⟩, ?_⟩
      have hreply : ((authorityLaw env req).exec (.verifyAsync token) w).1 =
          env.verifyAsync token w.accounts.clock := rfl
      rw [hreply]
      cases hv : env.verifyAsync token w.accounts.clock with
      | none => trivial
      | some payload =>
        intro claims hu
        cases hu
        exact ⟨token, w, h', (Option.filter_eq_some_iff.mp htoken).1, List.suffix_refl _, hv⟩

theorem admitted_of_roles {user : Option AccessTokenClaims}
    (hv : ∀ claims, user = some claims → Authentic env req h claims)
    (hr : RolesGuard.canActivate req.handler user = .ok ()) :
    Admitted env req h req.handler user := by
  rcases RolesGuard.canActivate_ok.mp hr with hnone | ⟨claims, rfl, hallows⟩
  · exact ⟨fun claims hu => ⟨rfl, hv claims hu, Or.inl hnone⟩, fun hne => absurd hnone hne⟩
  · refine ⟨fun claims' hu => ?_, fun _ => ⟨claims, rfl⟩⟩
    cases hu
    exact ⟨rfl, hv claims rfl, hallows⟩

/-! ### The handlers -/

section Handlers

variable {α : Type}

/-- **A program on the accounts** heeds the law when it heeds the one of the accounts. -/
theorem heeds_onAccounts {D : Prop} {p : Auth.Async α} {Q : α → AuthPast → Prop}
    (hD : D → ∃ claims, Permitted env req h .updateUser claims)
    (hp : (Auth.vouchedLaw env.toEnv D).Heeds p Q (accountsPast h)) :
    (authorityLaw env req).Heeds (onAccounts p) (fun a h' => Q a (accountsPast h')) h := by
  induction p generalizing h with
  | pure a => exact hp
  | throw e => trivial
  | call s k ih =>
    intro h' w hlater
    obtain ⟨hneeds, hrest⟩ := hp (accountsPast h') w.accounts (accountsPast_suffix hlater)
    have hD' : D → ∃ claims, Permitted env req h' .updateUser claims := fun hd =>
      (hD hd).imp fun claims hpermitted => hpermitted.later hlater
    refine ⟨⟨fun _ hhandler => (nomatch hhandler), ?_⟩, ih _ (fun hd => ?_) hrest⟩
    · cases s with
      | sign claims => exact hneeds
      | audit entry => exact hneeds
      | saveUser entity => exact hneeds.imp_left hD'
      | _ => trivial
    · exact (hD' hd).imp fun claims hpermitted => hpermitted.later (List.suffix_cons ..)

/-- A program that heeds the law of the accounts, and what follows. -/
theorem heeds_onAccounts_bind {β : Type} {p : Auth.Async α} {f : α → Async β}
    {Q : β → ApiPast → Prop}
    (hp : (Auth.vouchedLaw env.toEnv False).Heeds p (fun _ _ => True) (accountsPast h))
    (hf : ∀ a h', h <:+ h' → (authorityLaw env req).Heeds (f a) Q h') :
    (authorityLaw env req).Heeds (onAccounts p >>= f) Q h :=
  Law.heeds_bind ((heeds_onAccounts (fun hd => hd.elim) hp).mono fun a h' hlater _ => hf a h' hlater)

/-- **A call on the club** for a principal who has passed the guards of its handler. -/
theorem heeds_onClub {c : Services.Call} (hp : Permitted env req h (handlerOf c) claims)
    (hactor : ∀ actor, actorOf c = some actor → actor = claims.sub) :
    (authorityLaw env req).Heeds (onClub c) (fun _ _ => True) h :=
  Law.heeds_ask fun h' w hlater => by
    refine ⟨⟨fun handler hhandler => ?_, trivial⟩, fun _ _ => trivial⟩
    cases hhandler
    exact ⟨claims, hp.later hlater, hactor⟩

/-- A call on the club requires a role. -/
theorem required_handlerOf (c : Services.Call) : (handlerOf c).required ≠ [] := by
  cases c with
  | op op => cases op <;> exact fun h => nomatch h
  | _ => exact fun h => nomatch h

/-- One that writes no actor. -/
theorem heeds_onClub_admitted {c : Services.Call} {user : Option AccessTokenClaims}
    (ha : Admitted env req h (handlerOf c) user) (hactor : actorOf c = none) :
    (authorityLaw env req).Heeds (onClub c) (fun _ _ => True) h := by
  obtain ⟨claims, hp⟩ := ha.exists_permitted (required_handlerOf c)
  refine heeds_onClub hp fun actor hsome => ?_
  rw [hactor] at hsome
  cases hsome

/-- What follows with the principal of the request. -/
theorem heeds_principal_bind {user : Option AccessTokenClaims} {f : AccessTokenClaims → Async α}
    {Q : α → ApiPast → Prop} (ha : Admitted env req h handler user)
    (hf : ∀ claims, Permitted env req h handler claims → (authorityLaw env req).Heeds (f claims) Q h) :
    (authorityLaw env req).Heeds ((liftM (principal user) : Async AccessTokenClaims) >>= f) Q h :=
  Law.heeds_bind (Law.heeds_lift fun claims hclaims => by
    cases user with
    | none => cases hclaims
    | some claims' =>
      cases hclaims
      exact hf claims (ha.permitted claims rfl))

/-- A call for a principal who has passed the guards, and what follows. -/
theorem heeds_send_bind {s : Stmt} {f : Res s → Async α} {Q : α → ApiPast → Prop}
    (hs : ∀ h', h <:+ h' → Needs env req h' s)
    (hf : ∀ r h', h <:+ h' → (authorityLaw env req).Heeds (f r) Q h') :
    (authorityLaw env req).Heeds (send s >>= f) Q h := fun h' _ hlater =>
  ⟨hs h' hlater, hf _ _ (hlater.trans (List.suffix_cons ..))⟩

theorem heeds_createUser (dto : Auth.CreateUserDto) (newId : Uuid) (salt : String)
    (hp : Permitted env req h .createUser claims) :
    (authorityLaw env req).Heeds (UsersService.create env dto newId salt) (fun _ _ => True) h := by
  unfold UsersService.create
  refine heeds_onAccounts_bind (Auth.heeds_exempt (by trivial) fun _ _ _ => trivial)
    fun found h' hlater => ?_
  split_ifs
  · trivial
  · refine Law.heeds_ask fun h'' w hlater' => ⟨⟨fun handler hhandler => ?_, trivial⟩,
      fun _ _ => trivial⟩
    cases hhandler
    exact ⟨claims, hp.later (hlater.trans hlater'), fun _ hactor => (nomatch hactor)⟩

theorem heeds_removeUser (id : UuidText) (hp : Permitted env req h .removeUser claims) :
    (authorityLaw env req).Heeds (UsersService.remove id) (fun _ _ => True) h :=
  heeds_onAccounts_bind (Auth.heeds_findById id) fun user h' hlater =>
    heeds_send_bind (fun h'' hlater' => ⟨fun handler hhandler => by
      cases hhandler
      exact ⟨claims, hp.later (hlater.trans hlater'), fun _ hactor => (nomatch hactor)⟩, trivial⟩)
      fun _ _ _ => trivial

theorem heeds_setSetting (key : String) (value : Audit.JsValue)
    (hp : Permitted env req h .setSetting claims) :
    (authorityLaw env req).Heeds (SettingsService.set key value claims.sub) (fun _ _ => True) h := by
  refine heeds_send_bind (fun _ _ => ⟨fun _ hhandler => (nomatch hhandler), trivial⟩)
    fun existing h' hlater => ?_
  refine heeds_send_bind (fun h'' hlater' => ⟨fun handler hhandler => ?_, trivial⟩)
    fun _ _ _ => trivial
  cases hhandler
  refine ⟨claims, hp.later (hlater.trans hlater'), fun actor hactor => ?_⟩
  cases existing <;> exact (Option.some.inj hactor).symm

/-- **Every handler** makes its calls for the principal of the request. -/
theorem heeds_run (req : Request) {user : Option AccessTokenClaims} (a : Action)
    (ha : Admitted env req h a.handler user) :
    (authorityLaw env req).Heeds (a.run env req user) (fun _ _ => True) h := by
  have hsome : ∀ {claims' : AccessTokenClaims} (actor : Uuid),
      some claims'.sub = some actor → actor = claims'.sub :=
    fun actor heq => (Option.some.inj heq).symm
  cases a with
  | login dto g =>
    exact heeds_onAccounts_bind (Auth.heeds_login dto req.ctx g) fun _ _ _ => trivial
  | refresh g =>
    exact heeds_onAccounts_bind (Auth.heeds_refresh req.ctx g _) fun _ _ _ => trivial
  | logout => exact heeds_onAccounts_bind (Auth.heeds_logout _) fun _ _ _ => trivial
  | me =>
    exact heeds_principal_bind ha fun claims _ =>
      heeds_onAccounts_bind (Auth.heeds_findById _) fun _ _ _ => trivial
  | changePassword dto salt =>
    exact heeds_principal_bind ha fun claims _ =>
      heeds_onAccounts_bind (Auth.heeds_changePassword req.ctx _ dto salt) fun _ _ _ => trivial
  | createUser dto newId salt =>
    obtain ⟨claims, hp⟩ := ha.exists_permitted fun h => (nomatch h)
    exact heeds_createUser dto newId salt hp
  | updateUser id dto =>
    have hD : True → ∃ claims, Permitted env req h .updateUser claims := fun _ =>
      ha.exists_permitted fun h => (nomatch h)
    exact Law.heeds_bind ((heeds_onAccounts hD (Auth.heeds_update id dto trivial)).mono
      fun _ _ _ _ => trivial)
  | removeUser id =>
    obtain ⟨claims, hp⟩ := ha.exists_permitted fun h => (nomatch h)
    exact heeds_removeUser id hp
  | setSetting dto =>
    exact heeds_principal_bind ha fun claims hp => heeds_setSetting _ _ hp
  | recordPayment customerId dto newId =>
    exact heeds_principal_bind ha fun claims hp => heeds_onClub hp hsome
  | correct customerId dto newId =>
    exact heeds_principal_bind ha fun claims hp => heeds_onClub hp hsome
  | startSession dto startedAt randomUUID newIds =>
    exact heeds_principal_bind ha fun claims hp => heeds_onClub hp hsome
  | endSession id dto endedAt newId =>
    exact heeds_principal_bind ha fun claims hp => heeds_onClub hp hsome
  | cancelSession id now =>
    exact heeds_principal_bind ha fun claims hp => heeds_onClub hp hsome
  | createComputer dto newId => exact heeds_onClub_admitted ha rfl
  | updateComputer id dto byRelation => exact heeds_onClub_admitted ha rfl
  | removeComputer id now => exact heeds_onClub_admitted ha rfl
  | createRoom dto newId => exact heeds_onClub_admitted ha rfl
  | updateRoom id dto => exact heeds_onClub_admitted ha rfl
  | removeRoom id now => exact heeds_onClub_admitted ha rfl
  | createCustomer dto newId => exact heeds_onClub_admitted ha rfl
  | updateCustomer id dto => exact heeds_onClub_admitted ha rfl
  | removeCustomer id now => exact heeds_onClub_admitted ha rfl
  | extendSession id dto => exact heeds_onClub_admitted ha rfl
  | other handler hother =>
    exact Law.heeds_ask fun _ _ _ => ⟨⟨fun _ hhandler => (nomatch hhandler), trivial⟩,
      fun _ _ => trivial⟩

/-- An audited handler requires a role. -/
theorem required_of_audited {audited : Audit.AuditedHandler} (ha : handler.audited = some audited) :
    handler.required ≠ [] := by
  cases handler <;> cases ha <;> exact fun h => nomatch h

theorem heeds_intercepted (req : Request) {user : Option AccessTokenClaims} (returned : Returned)
    (ha : Admitted env req h req.handler user) :
    (authorityLaw env req).Heeds (intercepted env req user returned) (fun _ _ => True) h := by
  unfold intercepted
  dsimp only
  split
  · trivial
  · next audited haudited =>
    obtain ⟨claims, rfl⟩ := ha.present (required_of_audited haudited)
    refine heeds_send_bind (fun h' hlater => ⟨fun _ hhandler => (nomatch hhandler), ?_⟩)
      fun _ _ _ => trivial
    exact ⟨req.handler, claims, (ha.later hlater).permitted claims rfl,
      ⟨audited, haudited, rfl, rfl⟩, rfl, rfl⟩

/-- **Every request heeds the law**, whatever the others do. -/
theorem heeds_handle (req : Request) :
    (authorityLaw env req).Heeds (handle env req) (fun _ _ => True) h := by
  refine Law.heeds_bind (heeds_canActivate.mono fun user h' _ hv => ?_)
  refine Law.heeds_bind (Law.heeds_lift fun _ hr => ?_)
  have ha := admitted_of_roles hv hr
  refine Law.heeds_bind (Law.heeds_lift fun action haction => ?_)
  have hrouted := req.routed action haction
  refine Law.heeds_bind ((heeds_run req action (hrouted ▸ ha)).mono fun returned h'' hlater _ => ?_)
  exact heeds_intercepted req returned (ha.later hlater)

end Handlers

theorem governs (env : Env) : Law.Governs (authorityLaw env) (system env) where
  exec _ := rfl
  view := rfl
  start _ _ := heeds_handle _

/-! ### Runs -/

/-- **No token is forged**: one that is verified is one of those that were `held` at the beginning, or
it was signed, for these claims, at an earlier call. -/
def Unforged (env : Env) (held : String → Prop) (h : ApiPast) : Prop :=
  ∀ later token w earlier, h = later ++ (.verifyAsync token, w) :: earlier →
    ∀ claims, env.verifyAsync token w.accounts.clock = some claims → held token ∨
      ∃ w', (.account (.sign claims), w') ∈ earlier ∧
        token = env.signAsync claims w'.accounts.clock

/-- **The principal of a request**: its token was verified, with these claims; the token was held at
the beginning, or it had been signed before, for the claims, and they were those of an account that was
active before that. -/
def Principal (env : Env) (held : String → Prop) (req : Request) (h : ApiPast)
    (claims : AccessTokenClaims) : Prop :=
  ∃ token w verified, Realtime.JwtAuthGuard.extractToken req.http = some token ∧
    (.verifyAsync token, w) :: verified <:+ h ∧
      env.verifyAsync token w.accounts.clock = some claims ∧
        (held token ∨ ∃ w' signed, (.account (.sign claims), w') :: signed <:+ verified ∧
          token = env.signAsync claims w'.accounts.clock ∧
            Auth.Vouched (accountsPast signed) claims)

/-- **A call is traced** to the principal of its request. -/
structure Traced (env : Env) (held : String → Prop) (req : Request) (h : ApiPast) (s : Stmt) :
    Prop where
  privileged : ∀ handler, s.handler = some handler → req.handler = handler ∧ ∃ claims,
    Principal env held req h claims ∧ handler.Allows claims.role ∧
      ∀ actor, s.actor = some actor → actor = claims.sub
  saved : ∀ entity, s = .account (.saveUser entity) → Auth.Restores (accountsPast h) entity ∨
    req.handler = .updateUser ∧ ∃ claims, Principal env held req h claims ∧
      Handler.updateUser.Allows claims.role
  recorded : ∀ entry, s = .record entry → ∃ claims, Principal env held req h claims ∧
    req.handler.Allows claims.role ∧ Records entry req.handler claims
  attested : ∀ entry, s = .account (.audit entry) → Auth.Attested (accountsPast h) entry

section Runs

variable {held : String → Prop} {tr : List ApiEvent} {c : ApiConfig}

/-- **A principal whose token is not forged** is traced to an account. -/
theorem Permitted.principal (hp : Permitted env req h handler claims)
    (hobeyed : Law.Obeyed (authorityLaw env) tr c) (hun : Unforged env held (past tr))
    (hlater : h <:+ past tr) : Principal env held req h claims := by
  obtain ⟨-, ⟨token, w, verified, htoken, hm, hv⟩, -⟩ := hp
  refine ⟨token, w, verified, htoken, hm, hv, ?_⟩
  obtain ⟨later, hpast⟩ := hm.trans hlater
  refine (hun later token w verified hpast.symm claims hv).imp_right ?_
  rintro ⟨w', hsigned, htext⟩
  obtain ⟨between, signed, rfl⟩ := List.append_of_mem hsigned
  have hsplit : past tr = (later ++ (.verifyAsync token, w) :: between) ++
      (.account (.sign claims), w') :: signed := by
    rw [← hpast, List.append_assoc, List.cons_append]
  obtain ⟨_, hneeds⟩ := hobeyed.needs_past hsplit
  exact ⟨w', signed, List.suffix_append .., htext, hneeds.2⟩

/-- A call of a run in which no token is forged is traced. -/
theorem traced {w₀ : Server}
    (hrun : (system env).Run (fun _ _ => True) (.idle w₀) tr c) (hun : Unforged env held (past tr))
    {earlier : List ApiEvent} {i : ℕ} {s : Stmt} (hcalled : CalledAfter tr earlier i s) :
    ∃ req, serving i earlier = some req ∧ Traced env held req (past earlier) s := by
  have hobeyed := Law.run (governs env) hrun
  obtain ⟨req, hreq, hneeds⟩ := hobeyed.needs earlier i s hcalled
  have hsuffix : past earlier <:+ past tr := hcalled.suffix.filterMap moment
  have hprincipal : ∀ {handler claims}, Permitted env req (past earlier) handler claims →
      Principal env held req (past earlier) claims := fun hp => hp.principal hobeyed hun hsuffix
  refine ⟨req, hreq, fun handler hhandler => ?_, fun entity hs => ?_, fun entry hs => ?_,
    fun entry hs => ?_⟩
  · obtain ⟨claims, hp, hactor⟩ := hneeds.1 handler hhandler
    exact ⟨hp.routed, claims, hprincipal hp, hp.allows, hactor⟩
  · subst hs
    rcases hneeds.2 with ⟨claims, hp⟩ | hrestores
    · exact Or.inr ⟨hp.routed, claims, hprincipal hp, hp.allows⟩
    · exact Or.inl hrestores
  · subst hs
    obtain ⟨handler, claims, hp, hrecords⟩ := hneeds.2
    obtain rfl := hp.routed
    exact ⟨claims, hprincipal hp, hp.allows, hrecords⟩
  · subst hs
    exact hneeds.2

/-- **Every change is traced to the token of its request**: in every interleaved run in which no token
is forged, a call that changes the club, the settings or the staff is made by a request to the route
of this change, whose token was verified before with a role that the route allows; it writes the
account of the token down as the actor; and the token had been signed for the claims of an account
that was active, if it was not held at the beginning. An account is only changed so, but for its
password, its lock and its last login; an audit row of the interceptor names such an account; and one
of a login or of a change of a password an account that was found before. -/
theorem authority_traced {w₀ : Server}
    (hrun : (system env).Run (fun _ _ => True) (.idle w₀) tr c) (hun : Unforged env held (past tr))
    {earlier : List ApiEvent} {i : ℕ} {s : Stmt} (hcalled : CalledAfter tr earlier i s) :
    ∃ req, serving i earlier = some req ∧ Traced env held req (past earlier) s :=
  traced hrun hun hcalled

end Runs

/-! ### A cashier -/

def cashierClaims : AccessTokenClaims := ⟨5, "cashier@club.uz", .cashier⟩

/-- Tokens and hashes as plain texts. -/
def plainEnv : Env where
  refreshTtlMs := 1000
  signAsync claims _ := if claims = cashierClaims then "cashier" else "other"
  hashSecret secret _ := secret
  hashPassword password _ := password
  verify hash plain := hash = plain
  needsRehash _ := false
  trim s := s
  toLowerCase s := s
  returned entity := { entity with passwordHash := none }
  saves _ := true
  verifyAsync token _ :=
    if token = "cashier" ∨ token = "yesterday" then some cashierClaims else none
  object _ := .undefined
  answer _ _ := .ok .undefined

/-- An empty club with one cashier. -/
def oneCashier : Server :=
  ⟨.initial, ⟨.single ⟨5, "cashier@club.uz", "Dilnoza", .cashier, true, none, 0, none, none,
    "Str0ng-Passw0rd"⟩, .empty, [], 0⟩, .empty⟩

/-- They still have the token of another day. -/
def heldOver (token : String) : Prop := token = "yesterday"

instance : DecidablePred heldOver := fun token => inferInstanceAs (Decidable (token = "yesterday"))

def loginRequest : Request :=
  ⟨⟨none, []⟩, .object [], [], none, none, none, .epoch, .login,
    .ok (.login Auth.cashierDto ⟨1, 2, "refresh", "", ""⟩), fun _ h => by cases h; rfl⟩

theorem noPhone (s : String) (h : none = some s) : Services.isPhone s = true :=
  nomatch h

/-- A customer is created with a token of the cashier. -/
def customerRequest (authorization : String) (newId : Uuid) : Request :=
  ⟨⟨some authorization, []⟩, .object [("fullName", .string "Malika")], [], none, none, none, .epoch,
    .createCustomer,
    .ok (.createCustomer ⟨"Malika", none, none, by decide, noPhone, noText_length⟩ newId),
    fun _ h => by cases h; rfl⟩

/-- The login, a request with its token, and one with the token of another day in between. -/
def shift : List (System.Action Request) :=
  (.arrive 0 loginRequest :: List.replicate 9 (.run 0)) ++
    .arrive 1 (customerRequest "Bearer cashier" 7) :: .run 1 ::
      .arrive 2 (customerRequest "Bearer yesterday" 8) :: .run 2 ::
        List.replicate 3 (.run 1) ++ List.replicate 3 (.run 2)

/-- The condition on tokens, checked. -/
def checkedUnforged (env : Env) (held : String → Prop) [DecidablePred held] : ApiPast → Bool
  | [] => true
  | (.verifyAsync token, w) :: earlier =>
    (decide (held token) || (env.verifyAsync token w.accounts.clock).all fun claims =>
      earlier.any fun m =>
        match m with
        | (.account (.sign claims'), w') =>
          decide (claims' = claims ∧ token = env.signAsync claims w'.accounts.clock)
        | _ => false) && checkedUnforged env held earlier
  | _ :: earlier => checkedUnforged env held earlier

section Checked

variable {held : String → Prop} [DecidablePred held]

theorem checkedUnforged_cons {m : Stmt × Server} (hc : checkedUnforged env held (m :: h) = true) :
    checkedUnforged env held h = true := by
  obtain ⟨s, w⟩ := m
  cases s with
  | verifyAsync token => exact (Bool.and_eq_true_iff.mp hc).2
  | _ => exact hc

theorem unforged_of_checked (hc : checkedUnforged env held h = true) : Unforged env held h := by
  intro later token w earlier heq claims hv
  induction later generalizing h with
  | cons m later ih =>
    subst heq
    exact ih (checkedUnforged_cons hc) rfl
  | nil =>
    subst heq
    have hall := (Bool.and_eq_true_iff.mp hc).1
    refine (Bool.or_eq_true_iff.mp hall).imp of_decide_eq_true fun hsigned => ?_
    rw [hv, Option.all_some] at hsigned
    obtain ⟨⟨s, w'⟩, hm, hmatch⟩ := List.any_eq_true.mp hsigned
    cases s with
    | account s =>
      cases s with
      | sign claims' =>
        obtain ⟨rfl, htoken⟩ := of_decide_eq_true hmatch
        exact ⟨w', hm, htoken⟩
      | _ => cases hmatch
    | _ => cases hmatch

end Checked

/-- The event is a call of the handler by the request `i`. -/
def isCall (i : ℕ) (handler : Handler) : ApiEvent → Bool
  | .called j (.call s _) _ => decide (j = i ∧ s.handler = some handler)
  | _ => false

/-- The shift is a run, in which no token is forged. -/
theorem exists_shift : ∃ tr c, (system plainEnv).Run (fun _ _ => True) (.idle oneCashier) tr c ∧
    Unforged plainEnv heldOver (past tr) ∧
    c.db.world.db.customers.rows.map Customer.id = [7, 8] ∧
    ∀ i ∈ [1, 2], ∃ earlier s, CalledAfter tr earlier i s ∧ s.handler = some .createCustomer := by
  obtain ⟨tr, c, hrun, hcheck, -⟩ := System.exists_run (S := system plainEnv)
    (A := fun _ _ => True) (fun _ _ => true) 3 (fun _ _ _ _ => trivial) oneCashier shift
    (fun x => checkedUnforged plainEnv heldOver (past x.1) &&
      (decide (x.2.db.world.db.customers.rows.map Customer.id = [7, 8]) &&
        [1, 2].all fun i => x.1.any (isCall i .createCustomer)))
    (by decide) (by decide +kernel)
  obtain ⟨hun, hrest⟩ := Bool.and_eq_true_iff.mp hcheck
  obtain ⟨hrows, hall⟩ := Bool.and_eq_true_iff.mp hrest
  refine ⟨tr, c, hrun, unforged_of_checked hun, of_decide_eq_true hrows, fun i hi => ?_⟩
  obtain ⟨e, he, hmatch⟩ := List.any_eq_true.mp (List.all_eq_true.mp hall i hi)
  obtain ⟨later, earlier, htr⟩ := List.append_of_mem he
  cases e with
  | called j p w =>
    cases p with
    | call s k =>
      obtain ⟨rfl, hhandler⟩ := of_decide_eq_true hmatch
      exact ⟨earlier, s, ⟨later, k, w, htr⟩, hhandler⟩
    | _ => cases hmatch
  | _ => cases hmatch

/-- Both customers are created with the token of their request. -/
theorem authority_traced_cashier : ∃ (tr : List ApiEvent) (c : ApiConfig),
    (system plainEnv).Run (fun _ _ => True) (.idle oneCashier) tr c ∧
      ∀ i ∈ [1, 2], ∃ earlier s, CalledAfter tr earlier i s ∧
        s.handler = some .createCustomer ∧ ∃ req, serving i earlier = some req ∧
          Traced plainEnv heldOver req (past earlier) s := by
  obtain ⟨tr, c, hrun, hun, -, hcalls⟩ := exists_shift
  refine ⟨tr, c, hrun, fun i hi => ?_⟩
  obtain ⟨earlier, s, hcalled, hhandler⟩ := hcalls i hi
  exact ⟨earlier, s, hcalled, hhandler, authority_traced hrun hun hcalled⟩

end GameClub.Api
