import GameClub.Audit.Interceptors
import GameClub.Auth.Sequential
import GameClub.Auth.Timed
import GameClub.Realtime.Handshake
import GameClub.Services.Requests
import GameClub.Services.Settings

/-! # Routes

The handlers of the controllers, with the metadata of their decorators, and the two guards.

* `Handler.required`: the roles of a handler, its own or those of its controller.
* `RolesGuard.canActivate_ok`: who passes the guard.
* `reaches_trans`: the hierarchy is transitive. -/

namespace GameClub.Api

open GameClub.Lib GameClub.Common GameClub.Store
open GameClub.Auth (Role AccessTokenClaims ErrorResponse normalise)
open GameClub.Audit (AuditedHandler)
open GameClub.Realtime (HttpRequest)

/-! ### Handlers -/

inductive Controller
  | analytics
  | audit
  | auth
  | computers
  | customers
  | debt
  | health
  | notifications
  | rooms
  | sessions
  | settings
  | users

/-- The methods of the controllers. -/
inductive Handler
  | summary
  | findAuditLogs
  | login
  | refresh
  | logout
  | me
  | changePassword
  | createComputer
  | findComputers
  | findComputer
  | updateComputer
  | removeComputer
  | createCustomer
  | findCustomers
  | findCustomer
  | updateCustomer
  | removeCustomer
  | balance
  | ledger
  | recordPayment
  | correct
  | live
  | ready
  | findNotifications
  | markRead
  | markAllRead
  | createRoom
  | findRooms
  | findRoom
  | updateRoom
  | removeRoom
  | startSession
  | findSessions
  | activeSessions
  | findSession
  | quote
  | extendSession
  | endSession
  | cancelSession
  | getSettings
  | setSetting
  | createUser
  | findUsers
  | findUser
  | updateUser
  | removeUser
deriving DecidableEq

/-- What `@Public()` and `@Roles(...)` set, on a method or on a class. -/
structure Metadata where
  isPublic : Option Bool
  roles : Option (List Role)

def Metadata.none : Metadata := ⟨.none, .none⟩

def isPublic : Metadata := ⟨some true, .none⟩

def roles (required : List Role) : Metadata := ⟨.none, some required⟩

def Controller.metadata : Controller → Metadata
  | .analytics => roles [.manager]
  | .audit | .users => roles [.owner]
  | .notifications | .sessions => roles [.cashier]
  | .auth | .computers | .customers | .debt | .health | .rooms | .settings => .none

namespace Handler

def controller : Handler → Controller
  | summary => .analytics
  | findAuditLogs => .audit
  | login | refresh | logout | me | changePassword => .auth
  | createComputer | findComputers | findComputer | updateComputer | removeComputer => .computers
  | createCustomer | findCustomers | findCustomer | updateCustomer | removeCustomer => .customers
  | balance | ledger | recordPayment | correct => .debt
  | live | ready => .health
  | findNotifications | markRead | markAllRead => .notifications
  | createRoom | findRooms | findRoom | updateRoom | removeRoom => .rooms
  | startSession | findSessions | activeSessions | findSession | quote | extendSession | endSession
  | cancelSession => .sessions
  | getSettings | setSetting => .settings
  | createUser | findUsers | findUser | updateUser | removeUser => .users

/-- The metadata of the method itself. -/
def metadata : Handler → Metadata
  | login | refresh | live | ready => isPublic
  | createComputer | updateComputer | removeComputer => roles [.manager]
  | findComputers | findComputer => roles [.cashier]
  | createCustomer | findCustomers | findCustomer | updateCustomer => roles [.cashier]
  | removeCustomer => roles [.manager]
  | balance | ledger | recordPayment => roles [.cashier]
  | correct => roles [.owner]
  | createRoom | updateRoom | removeRoom => roles [.manager]
  | findRooms | findRoom => roles [.cashier]
  | getSettings => roles [.cashier]
  | setSetting => roles [.owner]
  | _ => .none

/-- `@Audited(...)` of the method. -/
def audited : Handler → Option AuditedHandler
  | recordPayment => some .recordPayment
  | correct => some .correct
  | createComputer => some .createComputer
  | updateComputer => some .updateComputer
  | removeComputer => some .removeComputer
  | createUser => some .createUser
  | updateUser => some .updateUser
  | removeUser => some .removeUser
  | createRoom => some .createRoom
  | updateRoom => some .updateRoom
  | removeRoom => some .removeRoom
  | createCustomer => some .createCustomer
  | updateCustomer => some .updateCustomer
  | removeCustomer => some .removeCustomer
  | setSetting => some .setSetting
  | startSession => some .startSession
  | extendSession => some .extendSession
  | endSession => some .endSession
  | cancelSession => some .cancelSession
  | _ => none

/-- `reflector.getAllAndOverride(key, [handler, class])` -/
def getAllAndOverride {α : Type} (key : Metadata → Option α) (handler : Handler) : Option α :=
  (key handler.metadata).or (key handler.controller.metadata)

/-- The roles of which one is required; none when there is no metadata. -/
def required (handler : Handler) : List Role :=
  (handler.getAllAndOverride Metadata.roles).getD []

end Handler

/-! ### The guards -/

def ROLE_HIERARCHY : Role → List Role
  | .owner => [.owner, .manager, .cashier]
  | .manager => [.manager, .cashier]
  | .cashier => [.cashier]

/-- `UnauthorizedException`, as the filter answers it. -/
def UnauthorizedException (message : String) : ErrorResponse := normalise (.unauthorized message)

/-- `ForbiddenException`, as the filter answers it. -/
def ForbiddenException (message : String) : ErrorResponse := ⟨403, "FORBIDDEN", message, []⟩

namespace RolesGuard

/-- `canActivate`, for the principal of the request. -/
def canActivate (handler : Handler) (user : Option AccessTokenClaims) : Except ErrorResponse Unit :=
  if handler.required.isEmpty then .ok ()
  else
    match user with
    | none => .error (ForbiddenException "Missing authenticated principal")
    | some user =>
      if handler.required.any fun r => r ∈ ROLE_HIERARCHY user.role then .ok ()
      else .error (ForbiddenException "Insufficient role for this operation")

end RolesGuard

/-- The role has the privileges of `r`. -/
def Reaches (role r : Role) : Prop := r ∈ ROLE_HIERARCHY role

instance (role r : Role) : Decidable (Reaches role r) := inferInstanceAs (Decidable (r ∈ _))

/-- The role passes the guard of a handler. -/
def Handler.Allows (handler : Handler) (role : Role) : Prop :=
  handler.required = [] ∨ ∃ r ∈ handler.required, Reaches role r

theorem reaches_trans {a b c : Role} (h : Reaches a b) (h' : Reaches b c) : Reaches a c := by
  revert h h'
  cases a <;> cases b <;> cases c <;> decide

/-- **Who passes the roles guard.** -/
theorem RolesGuard.canActivate_ok {handler : Handler} {user : Option AccessTokenClaims} :
    canActivate handler user = .ok () ↔
      handler.required = [] ∨ ∃ claims, user = some claims ∧ handler.Allows claims.role := by
  unfold canActivate
  by_cases hempty : handler.required = []
  · simp [hempty]
  · have hfalse : handler.required.isEmpty = false := by simpa using hempty
    rw [if_neg (by simp [hfalse])]
    cases user with
    | none => simp [hempty]
    | some claims =>
      simp only [Handler.Allows, hempty, false_or, Option.some.injEq, exists_eq_left', Reaches]
      constructor
      · intro h
        split_ifs at h with hany
        obtain ⟨r, hr, hin⟩ := List.any_eq_true.mp hany
        exact ⟨r, hr, of_decide_eq_true hin⟩
      · rintro ⟨r, hr, hin⟩
        exact if_pos (List.any_eq_true.mpr ⟨r, hr, decide_eq_true hin⟩)

end GameClub.Api
