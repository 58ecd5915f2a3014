import GameClub.Auth.Phases
import GameClub.Lib.Await

/-! # Requests with a schedule

A schedule says at which time each call of a request is made. With it, a request has one response
and leaves one store, so that the runs of two stores can be compared.

* `Timed.run`: a program on a schedule, and `run_bind`, `run_ask`.
* `normalise`: what `AllExceptionsFilter` makes of what was thrown. -/

namespace GameClub.Auth

open GameClub.Lib GameClub.Common

/-! ### Schedules -/

namespace Timed

/-- A call at its time. The first component numbers the calls of the request. -/
def answer (env : Env) (times : ℕ → ℤ) (s : Stmt) (x : ℕ × AuthDb) : Res s × (ℕ × AuthDb) :=
  let y := exec env s { x.2 with clock := times x.1 }
  (y.1, x.1 + 1, y.2)

/-- A program whose calls are made on a schedule. -/
def run {α : Type} (env : Env) (times : ℕ → ℤ) (p : Async α) (x : ℕ × AuthDb) :
    Except Thrown α × (ℕ × AuthDb) := serve (answer env times) p x

variable {env : Env} {times : ℕ → ℤ} {α β : Type}

@[simp] theorem run_throw (e : Thrown) (x : ℕ × AuthDb) :
    run env times (.throw e : Async α) x = (.error e, x) := rfl

@[simp] theorem run_ask (s : Stmt) (x : ℕ × AuthDb) :
    run env times (ask s) x = answer env times s x := by
  unfold run ask
  simp only [serve]
  cases h : (answer env times s x).1 with
  | ok a => exact Prod.ext h.symm rfl
  | error e => exact Prod.ext h.symm rfl

theorem run_bind (p : Async α) (f : α → Async β) (x : ℕ × AuthDb) :
    run env times (p >>= f) x =
      match run env times p x with
      | (.ok a, y) => run env times (f a) y
      | (.error e, y) => (.error e, y) := by
  unfold run
  rw [serve_bind]
  rcases serve (answer env times) p x with ⟨_ | _, _⟩ <;> rfl

/-- A call that resolves, and what follows. -/
theorem run_ask_bind {s : Stmt} (f : Reply s → Async β) {x : ℕ × AuthDb} {a : Reply s}
    {db : AuthDb} (h : exec env s { x.2 with clock := times x.1 } = (.ok a, db)) :
    run env times (ask s >>= f) x = run env times (f a) (x.1 + 1, db) := by
  rw [run_bind, run_ask, answer, h]

end Timed

/-! ### Responses -/

/-- The error of a failed request. -/
structure ErrorResponse where
  status : ℕ
  code : String
  message : String
  details : List (String × Detail)
deriving DecidableEq

/-- `AllExceptionsFilter.normalise` -/
def normalise : Thrown → ErrorResponse
  | .domain e => ⟨e.httpStatus, e.code, e.message, e.details⟩
  | .unauthorized message => ⟨401, "UNAUTHORIZED", message, []⟩
  | .database (.uniqueViolation _) =>
    ⟨409, "RESOURCE_CONFLICT", "A record with the same unique value already exists", []⟩
  | .database _ => ⟨400, "DATABASE_CONSTRAINT", "The operation violates a data constraint", []⟩
  | .error _ => ⟨500, "INTERNAL_ERROR", "An unexpected error occurred", []⟩

end GameClub.Auth
