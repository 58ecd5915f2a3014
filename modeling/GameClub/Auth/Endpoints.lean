import GameClub.Auth.Secrecy
import GameClub.Auth.Sequential

/-! # The users and auth endpoints

A find does not select the hash of a password, and neither does what `save` returns: the account that
is created has its hash set in memory, and loses it there when it is saved.

* `respond_alike`: one endpoint, on two stores that differ in hashes only.
* `hides_hashes`: **responses are the same in both runs, and show no hash.** -/

namespace GameClub.Auth

open GameClub.Lib GameClub.Lib.Pages GameClub.Common

/-! ### Requests and payloads -/

structure CreateUserDto where
  email : String
  fullName : String
  password : String
  role : Role
  email_le : email.length ≤ 160
  fullName_valid : 2 ≤ fullName.length ∧ fullName.length ≤ 120
  password_ge : 10 ≤ password.length
  password_le : password.length ≤ 128
  password_letter : password.toList.any Char.isAlpha
  password_digit : password.toList.any Char.isDigit

/-- The handlers of `UsersController` and `AuthController`; `request` is for those that have been
given as programs. -/
inductive Endpoint
  | create (dto : CreateUserDto) (newId : Uuid) (salt : String)
  | findAll (query : PaginationQueryDto)
  | findOne (id : UuidText)
  | remove (id : UuidText)
  | me (userId : Uuid)
  | request (q : Request)

/-- A request, and the time of each of its calls. -/
structure TimedRequest where
  endpoint : Endpoint
  times : ℕ → ℤ

/-- What a handler returns, with the cookies it sets. -/
inductive Payload
  | authenticated (authenticated : Bool) (cookies : Option IssuedTokens)
  | passwordChanged
  | user (saved : UserEntity)
  | profile (found : Profile)
  | page (found : PaginatedResult Profile)
  | nothing

/-- The hash in a payload. -/
def Payload.passwordHash : Payload → Option String
  | .user saved => saved.passwordHash
  | _ => none

abbrev Response : Type := Except ErrorResponse Payload

/-! ### UsersService -/

namespace UsersService

/-- The row of a new account, with the defaults of its columns. -/
def newUser (env : Env) (dto : CreateUserDto) (newId : Uuid) (salt : String) : User where
  id := newId
  email := normalizeEmail env dto.email
  fullName := dto.fullName
  role := dto.role
  isActive := true
  lastLoginAt := none
  failedLoginAttempts := 0
  lockedUntil := none
  deletedAt := none
  passwordHash := env.hashPassword dto.password salt

/-- `create`, which returns what `save` leaves in the account. The index on emails is not partial, so
that the `INSERT` fails on the email of a soft-deleted account, which `exists` has not found. -/
def create (env : Env) (dto : CreateUserDto) (newId : Uuid) (salt : String) (db : AuthDb) :
    Except Thrown UserEntity × AuthDb :=
  let user := newUser env dto newId salt
  if (db.findUserByEmail user.email).isSome then
    (.error (.domain (ConflictException "EMAIL_TAKEN" "A user with this email already exists" [])),
      db)
  else if db.users.rows.any fun u => u.email = user.email then
    (.error (.database (.uniqueViolation "uq_users_email")), db)
  else if (db.users.get? user.id).isSome then
    (.error (.database (.uniqueViolation "PK_a3ffb1c0c8416b9fc6f907b7433")), db)
  else (.ok (env.returned user.entity), { db with users := db.users.insert user })

/-- `findAll`, where `listed` is the order in which the database returns the rows. -/
def findAll (listed : List Profile → List Profile) (query : PaginationQueryDto) (db : AuthDb) :
    PaginatedResult Profile :=
  let rows := listed ((db.users.rows.filter fun u => u.deletedAt.isNone).map User.profile)
  paginate (window query.skip query.limit rows) rows.length query

end UsersService

/-! ### Responses -/

/-- What the controller makes of the outcome of a program. -/
def payload : Request → Outcome → Payload
  | _, .tokens t => .authenticated true (some t)
  | _, .user saved => .user saved
  | .changePassword _, .done => .passwordChanged
  | _, .done => .authenticated false none

/-- A program on its schedule, and the payload of its result. -/
def runFor {α : Type} (env : Env) (times : ℕ → ℤ) (p : Async α) (f : α → Payload) (db : AuthDb) :
    Except Thrown Payload × AuthDb :=
  let y := Timed.run env times p (0, db)
  (y.1.map f, y.2.2)

/-- **What a handler does.** -/
def Endpoint.handle (env : Env) (listed : List Profile → List Profile) (times : ℕ → ℤ) :
    Endpoint → AuthDb → Except Thrown Payload × AuthDb
  | .create dto newId salt, db =>
    let y := UsersService.create env dto newId salt db
    (y.1.map .user, y.2)
  | .findAll query, db => (.ok (.page (UsersService.findAll listed query db)), db)
  | .findOne id, db => runFor env times (findById id) .profile db
  | .remove id, db =>
    match Timed.run env times (findById id) (0, db) with
    | (.error e, y) => (.error e, y.2)
    | (.ok user, y) => (.ok .nothing, { y.2 with clock := times y.1 }.softRemove user.id)
  | .me userId, db => runFor env times (findById (Uuid.asText userId)) .profile db
  | .request q, db => runFor env times (handler env q) (payload q) db

def TimedRequest.respond (env : Env) (listed : List Profile → List Profile) (q : TimedRequest)
    (db : AuthDb) : Response × AuthDb :=
  let y := q.endpoint.handle env listed q.times db
  (y.1.mapError normalise, y.2)

/-- The responses to requests one after another. -/
def allResponses (env : Env) (listed : List Profile → List Profile) :
    List TimedRequest → AuthDb → List Response
  | [], _ => []
  | q :: qs, db =>
    (q.respond env listed db).1 :: allResponses env listed qs (q.respond env listed db).2

/-- The response has no hash in it. -/
def ShowsNoHash (r : Response) : Prop := ∀ p, r = .ok p → p.passwordHash = none

/-! ### One request -/

section Alike

variable {env : Env} {hash : String → String → String} {listed : List Profile → List Profile}
  {db db' : AuthDb}

/-- One response in both runs, without a hash. -/
def ResultAlike (x x' : Except Thrown Payload) : Prop :=
  x = x' ∧ ∀ p, x = .ok p → p.passwordHash = none

theorem resultAlike_map {α : Type} {R : α → α → Prop} {f : α → Payload} {x x' : Except Thrown α}
    (h : Relates.Result R x x') (hf : ∀ a a', R a a' → f a = f a' ∧ (f a).passwordHash = none) :
    ResultAlike (x.map f) (x'.map f) := by
  cases x with
  | ok a =>
    cases x' with
    | ok a' =>
      obtain ⟨heq, hnone⟩ := hf a a' h
      refine ⟨congrArg Except.ok heq, fun p hp => ?_⟩
      cases hp
      exact hnone
    | error e' => exact h.elim
  | error e =>
    cases x' with
    | ok a' => exact h.elim
    | error e' => exact ⟨congrArg Except.error h, fun p hp => nomatch hp⟩

theorem runFor_alike {α : Type} {R : α → α → Prop} {p p' : Async α} {f : α → Payload}
    (h : Side env R p p') (hf : ∀ a a', R a a' → f a = f a' ∧ (f a).passwordHash = none)
    (times : ℕ → ℤ) (hdb : StoresAlike env db db') :
    ResultAlike (runFor env times p f db).1 (runFor (env.withHash hash) times p' f db').1 ∧
      StoresAlike env (runFor env times p f db).2
        (runFor (env.withHash hash) times p' f db').2 := by
  have hrun : Relates.Result R _ (Timed.run (env.withHash hash) times p' (0, db')).1 ∧ _ :=
    run_alike h times hdb
  obtain ⟨hresult, hstores⟩ := hrun
  exact ⟨resultAlike_map hresult hf, hstores.2⟩

theorem profiles_alike (hdb : StoresAlike env db db') :
    db.users.rows.map User.profile = db'.users.rows.map User.profile :=
  hdb.users.rows_map UserAlike.profile_eq

theorem findAll_alike (query : PaginationQueryDto) (hdb : StoresAlike env db db') :
    UsersService.findAll listed query db = UsersService.findAll listed query db' := by
  have hprofiles := profiles_alike hdb
  have hfound : ∀ rows : List User, (rows.filter fun u => u.deletedAt.isNone).map User.profile =
      (rows.map User.profile).filter fun u => u.deletedAt.isNone := by
    intro rows
    rw [List.filter_map]
    rfl
  simp only [UsersService.findAll, hfound, hprofiles]

theorem emailTaken_alike (email : String) (hdb : StoresAlike env db db') :
    (db.users.rows.any fun u => u.email = email) =
      db'.users.rows.any fun u => u.email = email := by
  have hany : ∀ rows : List User, (rows.any fun u => u.email = email) =
      (rows.map User.profile).any fun u => u.email = email := by
    intro rows
    rw [List.any_map]
    rfl
  rw [hany, hany, profiles_alike hdb]

/-- **An account that is created** is returned without the one thing that differs. -/
theorem create_alike (hver : SameVerification env hash) (hsave : env.Unselects) (dto : CreateUserDto)
    (newId : Uuid) (salt : String) (hdb : StoresAlike env db db') :
    ResultAlike ((UsersService.create env dto newId salt db).1.map .user)
        ((UsersService.create (env.withHash hash) dto newId salt db').1.map .user) ∧
      StoresAlike env (UsersService.create env dto newId salt db).2
        (UsersService.create (env.withHash hash) dto newId salt db').2 := by
  set user := UsersService.newUser env dto newId salt with huser
  set user' := UsersService.newUser (env.withHash hash) dto newId salt with huser'
  have halike : UserAlike env user user' := ⟨hash dto.password salt, rfl, hver.hashed dto.password salt⟩
  have hemail : user'.email = user.email := rfl
  have hid : user'.id = user.id := rfl
  have hreturned : (env.withHash hash).returned user'.entity = env.returned user.entity :=
    (hsave user'.entity).trans (hsave user.entity).symm
  have hexists := Table.isSome_eq_of_rel (hdb.findUserByEmail user.email)
  have hindex := emailTaken_alike user.email hdb
  have hkey := Table.isSome_eq_of_rel (hdb.users.get? UserAlike.id_eq user.id)
  unfold UsersService.create
  dsimp only
  rw [← huser, ← huser', hemail, hid, ← hexists, ← hindex, ← hkey, hreturned]
  have herror : ∀ e : Thrown, ResultAlike ((.error e : Except Thrown UserEntity).map .user)
      ((.error e : Except Thrown UserEntity).map .user) :=
    fun e => ⟨rfl, fun p hp => nomatch hp⟩
  split_ifs
  · exact ⟨herror _, hdb⟩
  · exact ⟨herror _, hdb⟩
  · exact ⟨herror _, hdb⟩
  · refine ⟨⟨rfl, fun p hp => ?_⟩, hdb.users.insert UserAlike.id_eq halike, hdb.refreshTokens,
      hdb.auditLogs, hdb.clock⟩
    cases hp
    show (env.returned user.entity).passwordHash = none
    rw [hsave]

theorem softRemove_alike (hdb : StoresAlike env db db') (id : Uuid) :
    StoresAlike env (db.softRemove id) (db'.softRemove id) := by
  refine ⟨List.rel_map (fun u u' hu => ?_) hdb.users, hdb.refreshTokens, hdb.auditLogs,
    hdb.clock⟩
  obtain ⟨h, rfl, hsame⟩ := hu
  dsimp only
  rw [hdb.clock]
  split_ifs
  · exact ⟨h, rfl, hsame⟩
  · exact ⟨h, rfl, hsame⟩

/-- **One request**: one response, without a hash, and stores that still differ in hashes only. -/
theorem handle_alike (hver : SameVerification env hash) (hsave : env.Unselects) (times : ℕ → ℤ)
    (e : Endpoint) (hdb : StoresAlike env db db') :
    ResultAlike (e.handle env listed times db).1
        (e.handle (env.withHash hash) listed times db').1 ∧
      StoresAlike env (e.handle env listed times db).2
        (e.handle (env.withHash hash) listed times db').2 := by
  have hprofile : ∀ id, ResultAlike (runFor env times (findById id) .profile db).1
      (runFor (env.withHash hash) times (findById id) .profile db').1 ∧
        StoresAlike env (runFor env times (findById id) .profile db).2
          (runFor (env.withHash hash) times (findById id) .profile db').2 := fun id =>
    runFor_alike (side_findById id) (fun a a' heq => ⟨congrArg Payload.profile heq, rfl⟩) times hdb
  cases e with
  | create dto newId salt => exact create_alike hver hsave dto newId salt hdb
  | findAll query =>
    refine ⟨⟨?_, fun p hp => ?_⟩, hdb⟩
    · simp only [Endpoint.handle, findAll_alike query hdb]
    · cases hp
      rfl
  | findOne id => exact hprofile id
  | remove id =>
    have hrun : _ ∧ Abreast env _ (Timed.run (env.withHash hash) times (findById id) (0, db')).2 :=
      run_alike (side_findById id) times hdb
    simp only [Endpoint.handle]
    generalize Timed.run env times (findById id) (0, db) = x at hrun ⊢
    generalize Timed.run (env.withHash hash) times (findById id) (0, db') = x' at hrun ⊢
    obtain ⟨o, k, d⟩ := x
    obtain ⟨o', k', d'⟩ := x'
    obtain ⟨hresult, hk, hd⟩ := hrun
    dsimp only at hresult hk hd
    subst hk
    cases o with
    | error err =>
      cases o' with
      | error err' => exact ⟨⟨congrArg Except.error hresult, fun p hp => nomatch hp⟩, hd⟩
      | ok user' => exact hresult.elim
    | ok user =>
      cases o' with
      | error err' => exact hresult.elim
      | ok user' =>
        cases hresult
        have hnothing : ∀ p : Payload, (.ok .nothing : Except Thrown Payload) = .ok p →
            p.passwordHash = none := by
          intro p hp
          cases hp
          rfl
        have hclock : StoresAlike env { d with clock := times k } { d' with clock := times k } :=
          ⟨hd.users, hd.refreshTokens, hd.auditLogs, rfl⟩
        exact ⟨⟨rfl, hnothing⟩, softRemove_alike hclock user.id⟩
  | me userId => exact hprofile (Uuid.asText userId)
  | request q =>
    refine runFor_alike (side_handler hver q) (fun o o' ⟨heq, hhash⟩ => ?_) times hdb
    subst heq
    refine ⟨rfl, ?_⟩
    cases o with
    | tokens t => cases q <;> rfl
    | done => cases q <;> rfl
    | user saved =>
      have hsaved := hhash saved rfl
      cases q <;> exact hsaved

/-- The same for what the filter makes of it. -/
theorem respond_alike (hver : SameVerification env hash) (hsave : env.Unselects) (q : TimedRequest)
    (hdb : StoresAlike env db db') :
    (q.respond env listed db).1 = (q.respond (env.withHash hash) listed db').1 ∧
      ShowsNoHash (q.respond env listed db).1 ∧
        StoresAlike env (q.respond env listed db).2
          (q.respond (env.withHash hash) listed db').2 := by
  have hhandle : ResultAlike (q.endpoint.handle env listed q.times db).1 _ ∧ _ :=
    handle_alike hver hsave q.times q.endpoint hdb
  obtain ⟨⟨hresult, hhash⟩, hstores⟩ := hhandle
  refine ⟨?_, fun p hp => ?_, hstores⟩
  · simp only [TimedRequest.respond, hresult]
  · simp only [TimedRequest.respond] at hp
    cases hx : (q.endpoint.handle env listed q.times db).1 with
    | error e =>
      rw [hx] at hp
      cases hp
    | ok p' =>
      rw [hx] at hp
      cases hp
      exact hhash p hx

/-- **Password hashes never influence a response**: run with two hash functions whose hashes verify the
same passwords, the same requests get the same responses, and none of them has a hash in it. -/
theorem hides_hashes (env : Env) (hash : String → String → String)
    (listed : List Profile → List Profile) (hver : SameVerification env hash)
    (hsave : env.Unselects) (qs : List TimedRequest) (db db' : AuthDb)
    (hdb : StoresAlike env db db') :
    allResponses env listed qs db = allResponses (env.withHash hash) listed qs db' ∧
      ∀ r ∈ allResponses env listed qs db, ShowsNoHash r := by
  induction qs generalizing db db' with
  | nil => exact ⟨rfl, fun r hr => by cases hr⟩
  | cons q qs ih =>
    have hrespond : (q.respond env listed db).1 = _ ∧ _ := respond_alike hver hsave q hdb
    obtain ⟨hsame, hshows, hstores⟩ := hrespond
    obtain ⟨hequal, hhidden⟩ := ih _ _ hstores
    simp only [allResponses, List.forall_mem_cons]
    exact ⟨by rw [hsame, hequal], hshows, hhidden⟩

end Alike

/-! ### Two formats of a hash -/

/-- Passwords are verified against hashes of either format. -/
def twoFormats : Env :=
  { plainEnv with verify h plain := h = "argon2:" ++ plain || h = "argon2id:" ++ plain }

/-- The hashes of the other run. -/
def otherHash (plain _ : String) : String := "argon2id:" ++ plain

theorem verify_twoFormats (plain plain' salt : String) :
    twoFormats.verify (twoFormats.hashPassword plain salt) plain' = decide (plain = plain') ∧
      twoFormats.verify (otherHash plain salt) plain' = decide (plain = plain') := by
  simp [twoFormats, otherHash, plainEnv, String.ext_iff]

theorem sameVerification_twoFormats : SameVerification twoFormats otherHash := by
  have hhashed : ∀ plain salt,
      SamePasswords twoFormats (twoFormats.hashPassword plain salt) (otherHash plain salt) := by
    intro plain salt plain'
    obtain ⟨hold, hnew⟩ := verify_twoFormats plain plain' salt
    rw [hold, hnew]
  refine ⟨hhashed, fun h plain salt hok => ?_⟩
  simp only [twoFormats, Bool.or_eq_true, decide_eq_true_eq] at hok
  rcases hok with rfl | rfl
  · exact fun _ => rfl
  · exact hhashed plain salt

/-- The store of the other run. -/
def oneLoginOther : AuthDb :=
  { oneLogin with users := .single { cashier with passwordHash := otherHash "Str0ng-Passw0rd" "" } }

theorem oneLogin_alike : StoresAlike twoFormats oneLogin oneLoginOther := by
  have hcashier : UserAlike twoFormats cashier
      { cashier with passwordHash := otherHash "Str0ng-Passw0rd" "" } :=
    ⟨_, rfl, sameVerification_twoFormats.hashed "Str0ng-Passw0rd" ""⟩
  exact ⟨.cons hcashier .nil, rfl, rfl, rfl⟩

/-- A second cashier. -/
def newCashierDto : CreateUserDto where
  email := "night@club.uz"
  fullName := "Nodir Aliev"
  password := cashierDto.password
  role := .cashier
  email_le := by decide
  fullName_valid := by decide
  password_ge := by decide
  password_le := cashierDto.password_le
  password_letter := by decide
  password_digit := by decide

/-- The request that creates their account. -/
def createCashier : TimedRequest := ⟨.create newCashierDto 5 "salt", fun _ => 0⟩

/-- The sign-in of the cashier, with the password that both hashes verify. -/
def signInCashier : TimedRequest :=
  ⟨.request (.login ⟨cashierDto, noContext, ⟨7, 8, "other", "pepper", ""⟩⟩), fun n => n⟩

/-- The new account is returned without a hash, and the old one signs in, in both runs. -/
theorem hides_hashes_twoFormats :
    (allResponses twoFormats id [createCashier, signInCashier] oneLogin).map Except.isOk =
        [true, true] ∧
      allResponses twoFormats id [createCashier, signInCashier] oneLogin =
        allResponses (twoFormats.withHash otherHash) id [createCashier, signInCashier]
          oneLoginOther ∧
      ∀ r ∈ allResponses twoFormats id [createCashier, signInCashier] oneLogin, ShowsNoHash r :=
  ⟨by decide +kernel, hides_hashes twoFormats otherHash id sameVerification_twoFormats
    (fun _ => rfl) _ oneLogin oneLoginOther oneLogin_alike⟩

end GameClub.Auth
