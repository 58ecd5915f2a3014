import Mathlib.Tactic

/-! # What services throw

`DomainException` and its subclasses, the plain `Error`s of the value objects, and the errors of the
database driver. -/

namespace GameClub.Common

/-- A value in the `details` of an exception. -/
inductive Detail
  | num (n : ℤ)
  | str (s : String)
deriving DecidableEq

/-- A business-rule violation with a stable `code`. -/
structure DomainException where
  code : String
  message : String
  httpStatus : ℕ
  details : List (String × Detail)
deriving DecidableEq

/-- `HttpStatus.NOT_FOUND`. -/
def ResourceNotFoundException (resource id : String) : DomainException :=
  ⟨"NOT_FOUND", resource ++ " " ++ id ++ " was not found", 404, []⟩

/-- `HttpStatus.UNPROCESSABLE_ENTITY`. -/
def BusinessRuleException (code message : String) (details : List (String × Detail)) :
    DomainException := ⟨code, message, 422, details⟩

/-- `HttpStatus.CONFLICT`. -/
def ConflictException (code message : String) (details : List (String × Detail)) :
    DomainException := ⟨code, message, 409, details⟩

/-- What Postgres refuses a statement for. -/
inductive DatabaseError
  | uniqueViolation (index : String)
  | foreignKeyViolation (constraint : String)
  | notNullViolation (column : String)
  | invalidDatetime
  | invalidTextRepresentation
  | numericValueOutOfRange
deriving DecidableEq

/-- What a service call throws to its caller. -/
inductive Thrown
  | domain (e : DomainException)
  | unauthorized (message : String)
  | error (message : String)
  | database (e : DatabaseError)
deriving DecidableEq

theorem bind_ok {α β : Type} {x : Except Thrown α} {f : α → Except Thrown β} {b : β} :
    (x >>= f) = .ok b ↔ ∃ a, x = .ok a ∧ f a = .ok b := by
  cases x with
  | error e => simp [bind, Except.bind]
  | ok a => simp [bind, Except.bind]

/-- What is computed was returned. -/
theorem ok_of_toOption {ε α : Type} {x : Except ε α} {a : α} (h : x.toOption = some a) :
    x = .ok a := by
  cases x with
  | error e => cases h
  | ok b => exact congrArg Except.ok (Option.some.inj h)

end GameClub.Common
