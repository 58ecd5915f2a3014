import GameClub.Audit.Interceptors
import GameClub.Common.Patch
import GameClub.Common.Values
import GameClub.Lib.Prog
import GameClub.Lib.Table

/-! # Accounts and refresh tokens

The rows of `users`, `refresh_tokens` and `audit_logs`, and what one call of a repository, of the
clock, of the audit or of Argon2 does. A call takes effect at once; between two calls of a request other requests make theirs.
Times are in milliseconds.

* `execSaveUser`: `save` writes every column the entity has a value for over whatever is stored.
* `exec`: the calls. -/

namespace GameClub.Auth

open GameClub.Lib GameClub.Common
open GameClub.Audit (AuditEntryInput AuditLog)

inductive Role
  | owner
  | manager
  | cashier
deriving DecidableEq

/-! ### Rows -/

/-- A staff account. -/
structure User where
  id : Uuid
  email : String
  fullName : String
  role : Role
  isActive : Bool
  lastLoginAt : Option ℤ
  failedLoginAttempts : ℕ
  lockedUntil : Option ℤ
  deletedAt : Option ℤ
  passwordHash : String
deriving DecidableEq

/-- The columns of an account that a find selects: the hash is not one of them. -/
structure Profile where
  id : Uuid
  email : String
  fullName : String
  role : Role
  isActive : Bool
  lastLoginAt : Option ℤ
  failedLoginAttempts : ℕ
  lockedUntil : Option ℤ
  deletedAt : Option ℤ
deriving DecidableEq

/-- One refresh token of a family. -/
structure RefreshToken where
  id : Uuid
  userId : Uuid
  familyId : Uuid
  tokenHash : String
  revoked : Bool
  replacedBy : Option Uuid
  expiresAt : ℤ
  userAgent : Option String
  ipAddress : Option String
deriving DecidableEq

structure AuthDb where
  users : Table User.id
  refreshTokens : Table RefreshToken.id
  auditLogs : List AuditLog
  clock : ℤ

/-! ### Entities -/

/-- An account in memory, as `save` reads it: a property is undefined, `null`, or a value. The hash
is undefined unless it was selected or set. -/
structure UserEntity where
  id : Uuid
  email : String
  fullName : Patch String
  role : Patch Role
  isActive : Patch Bool
  lastLoginAt : Option ℤ
  failedLoginAttempts : ℕ
  lockedUntil : Option ℤ
  deletedAt : Option ℤ
  passwordHash : Option String
deriving DecidableEq

def User.profile (u : User) : Profile :=
  ⟨u.id, u.email, u.fullName, u.role, u.isActive, u.lastLoginAt, u.failedLoginAttempts,
    u.lockedUntil, u.deletedAt⟩

/-- An account found without its hash. -/
def Profile.entity (u : Profile) : UserEntity :=
  ⟨u.id, u.email, some (some u.fullName), some (some u.role), some (some u.isActive),
    u.lastLoginAt, u.failedLoginAttempts, u.lockedUntil, u.deletedAt, none⟩

/-- An account found with its hash. -/
def User.entity (u : User) : UserEntity :=
  { u.profile.entity with passwordHash := some u.passwordHash }

/-! ### Calls -/

structure AccessTokenClaims where
  sub : Uuid
  email : String
  role : Role
deriving DecidableEq

/-- **What is not of this repository**: the configured lifetime of a refresh token, the signature of
an access token at a time, Argon2 with a salt (as the token service and as the password service
call it), the case mapping and trimming of strings, what `save` leaves in an account it returns, and
which audit rows the database takes. -/
structure Env where
  refreshTtlMs : ℤ
  signAsync : AccessTokenClaims → ℤ → String
  hashSecret : String → String → String
  hashPassword : String → String → String
  verify : String → String → Bool
  needsRehash : String → Bool
  trim : String → String
  toLowerCase : String → String
  returned : UserEntity → UserEntity
  saves : AuditLog → Bool

/-- **`save` returns the entity it was given** without the columns that are not selected. -/
def Env.Unselects (env : Env) : Prop :=
  ∀ e : UserEntity, env.returned e = { e with passwordHash := none }

inductive Stmt
  | now
  | sign (claims : AccessTokenClaims)
  | verify (hash plain : String)
  | findToken (id : String)
  | insertToken (record : RefreshToken)
  | saveToken (record : RefreshToken)
  | revokeFamily (familyId : Uuid)
  | revokeAllForUser (userId : Uuid)
  | findUserByEmail (email : String)
  | findUserWithSecret (id : Uuid)
  | findUser (id : Uuid)
  | saveUser (entity : UserEntity)
  | audit (entry : AuditEntryInput)

/-- What a call resolves to. -/
abbrev Reply : Stmt → Type
  | .now => ℤ
  | .sign _ => String
  | .verify _ _ => Bool
  | .findToken _ => Option RefreshToken
  | .findUserByEmail _ => Option User
  | .findUserWithSecret _ => Option User
  | .findUser _ => Option Profile
  | _ => Unit

/-- A call resolves or rejects. -/
abbrev Res (s : Stmt) : Type := Except Thrown (Reply s)

/-- A request handler, which awaits its calls. -/
abbrev Async (α : Type) : Type := Prog Res Thrown α

/-- `await` of one call. -/
def ask (s : Stmt) : Async (Reply s) := .call s fun r => liftM r

/-- A row after `update(criteria, { revoked: true })`. -/
def RefreshToken.updated (criteria : RefreshToken → Bool) (t : RefreshToken) : RefreshToken :=
  if criteria t then { t with revoked := true } else t

theorem RefreshToken.updated_id (criteria : RefreshToken → Bool) (t : RefreshToken) :
    (t.updated criteria).id = t.id := by
  unfold updated
  split_ifs <;> rfl

namespace AuthDb

variable (db : AuthDb)

/-- `findOne({ where: { id } })`: the text has to be one of a uuid. -/
def findToken (id : String) : Except Thrown (Option RefreshToken) :=
  match Uuid.parse id.toList with
  | none => .error (.database .invalidTextRepresentation)
  | some k => .ok (db.refreshTokens.get? k)

/-- An account that is not soft-deleted. -/
def findUser (id : Uuid) : Option User :=
  (db.users.get? id).filter fun u => u.deletedAt.isNone

def findUserByEmail (email : String) : Option User :=
  db.users.rows.find? fun u => u.email = email && u.deletedAt.isNone

def execInsertToken (record : RefreshToken) : Except Thrown Unit × AuthDb :=
  if db.refreshTokens.get? record.id = none then
    (.ok (), { db with refreshTokens := db.refreshTokens.insert record })
  else (.error (.database (.uniqueViolation "PK_7d8bee0204106019488c4c50ffa")), db)

/-- `save` of a loaded token: the stored row gets the columns of the entity; a row that is gone is
inserted again. -/
def saveToken (record : RefreshToken) : AuthDb :=
  { db with refreshTokens := db.refreshTokens.put record }

def revoke (criteria : RefreshToken → Bool) : AuthDb :=
  { db with
    refreshTokens := db.refreshTokens.mapRows (RefreshToken.updated criteria)
      (RefreshToken.updated_id criteria) }

/-- The row `save` leaves: the columns the entity has a value for, and the stored ones (or, for an
insert, the defaults). -/
def savedUser (entity : UserEntity) : Except Thrown User := do
  let stored := db.users.get? entity.id
  let fullName ← notNull "full_name" (entity.fullName.getD (stored.map (·.fullName)))
  let role ← notNull "role" (entity.role.getD (some (stored.elim .cashier (·.role))))
  let isActive ← notNull "is_active" (entity.isActive.getD (some (stored.elim true (·.isActive))))
  let passwordHash ←
    notNull "password_hash" (entity.passwordHash.or (stored.map (·.passwordHash)))
  return ⟨entity.id, entity.email, fullName, role, isActive, entity.lastLoginAt,
    entity.failedLoginAttempts, entity.lockedUntil, entity.deletedAt, passwordHash⟩

def execSaveUser (entity : UserEntity) : Except Thrown Unit × AuthDb :=
  match db.savedUser entity with
  | .error e => (.error e, db)
  | .ok row => (.ok (), { db with users := db.users.put row })

end AuthDb

namespace AuthDb

variable {db : AuthDb}

theorem findToken_ok {id : String} {record : RefreshToken}
    (h : db.findToken id = .ok (some record)) : db.refreshTokens.get? record.id = some record := by
  unfold findToken at h
  split at h
  · cases h
  · next k _ =>
    have hget : db.refreshTokens.get? k = some record := Except.ok.inj h
    rw [Table.key_of_get? hget]
    exact hget

theorem findUser_eq_some {id : Uuid} {u : User} :
    db.findUser id = some u ↔ db.users.get? id = some u ∧ u.deletedAt = none := by
  simp [findUser, Option.filter_eq_some_iff]

theorem findUserByEmail_get? {email : String} {u : User}
    (h : db.findUserByEmail email = some u) : db.users.get? u.id = some u :=
  Table.get?_of_mem (List.mem_of_find?_eq_some h)

/-- What `save` writes: each column is the one of the entity, where it has a value. -/
theorem savedUser_ok {entity : UserEntity} {row : User} (h : db.savedUser entity = .ok row) :
    row.id = entity.id ∧ row.failedLoginAttempts = entity.failedLoginAttempts ∧
      row.lockedUntil = entity.lockedUntil ∧
      entity.isActive.getD (some ((db.users.get? entity.id).elim true (·.isActive))) =
        some row.isActive ∧
      entity.passwordHash.or ((db.users.get? entity.id).map (·.passwordHash)) =
        some row.passwordHash := by
  obtain ⟨fullName, -, h⟩ := bind_ok.mp h
  obtain ⟨role, -, h⟩ := bind_ok.mp h
  obtain ⟨isActive, hactive, h⟩ := bind_ok.mp h
  obtain ⟨passwordHash, hhash, h⟩ := bind_ok.mp h
  cases h
  exact ⟨rfl, rfl, rfl, notNull_ok.mp hactive, notNull_ok.mp hhash⟩

end AuthDb

/-- What a call does. The audit resolves whether or not its row is stored. -/
def exec (env : Env) : (s : Stmt) → AuthDb → Res s × AuthDb
  | .now, db => (.ok db.clock, db)
  | .sign claims, db => (.ok (env.signAsync claims db.clock), db)
  | .verify hash plain, db => (.ok (env.verify hash plain), db)
  | .findToken id, db => (db.findToken id, db)
  | .insertToken record, db => db.execInsertToken record
  | .saveToken record, db => (.ok (), db.saveToken record)
  | .revokeFamily familyId, db => (.ok (), db.revoke fun t => t.familyId = familyId)
  | .revokeAllForUser userId, db => (.ok (), db.revoke fun t => t.userId = userId)
  | .findUserByEmail email, db => (.ok (db.findUserByEmail email), db)
  | .findUserWithSecret id, db => (.ok (db.findUser id), db)
  | .findUser id, db => (.ok ((db.findUser id).map User.profile), db)
  | .saveUser entity, db => db.execSaveUser entity
  | .audit entry, db =>
    (.ok (), { db with auditLogs := Audit.AuditService.record env.saves entry db.auditLogs })

/-- Time passes. -/
def passTime (n : ℕ) (db : AuthDb) : AuthDb := { db with clock := db.clock + n }

end GameClub.Auth
