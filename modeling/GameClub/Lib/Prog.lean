import Mathlib.Tactic

/-! # Programs of statements

A program is a tree: it returns, throws, or sends a statement to a database and goes on with the
reply. The reply type `Res s` depends on the statement `s`. What a statement does to a database is
given by a `Sem`: it fails, or it has a reply and writes, and the writes of one program are seen by
its own later statements.

* `Sem.eval`: a program run alone on a database.
* `Sem.transaction`: the same, all writes or none.
* `Sem.eval_bind`, `Sem.eval_bind_ok`: how programs compose.
* `Sem.Meets`: assertions about every statement of a program and about its result. -/

namespace GameClub.Lib

/-- Programs over the statements `Stmt`, with errors in `ε` and results in `α`. -/
inductive Prog {Stmt : Type} (Res : Stmt → Type) (ε α : Type) : Type
  | pure (a : α)
  | throw (e : ε)
  | call (s : Stmt) (k : Res s → Prog Res ε α)

namespace Prog

variable {Stmt : Type} {Res : Stmt → Type} {ε α β : Type}

/-- `p`, then `f` on its result. -/
def bind : Prog Res ε α → (α → Prog Res ε β) → Prog Res ε β
  | .pure a, f => f a
  | .throw e, _ => .throw e
  | .call s k, f => .call s fun r => (k r).bind f

instance : Monad (Prog Res ε) where
  pure := .pure
  bind := .bind

instance : MonadLift (Except ε) (Prog Res ε) where
  monadLift
    | .ok a => .pure a
    | .error e => .throw e

/-- One statement. -/
def stmt (s : Stmt) : Prog Res ε (Res s) := .call s .pure

/-- `p`, and `h` on what it throws. -/
def tryCatch : Prog Res ε α → (ε → Prog Res ε α) → Prog Res ε α
  | .pure a, _ => .pure a
  | .throw e, h => h e
  | .call s k, h => .call s fun r => (k r).tryCatch h

/-- The program has thrown. -/
def isThrow : Prog Res ε α → Bool
  | .throw _ => true
  | _ => false

theorem isThrow_bind {p : Prog Res ε α} (h : p.isThrow = true) (f : α → Prog Res ε β) :
    (p >>= f).isThrow = true := by
  cases p with
  | throw e => rfl
  | pure a => cases h
  | call s k => cases h

/-- A sequence of three programs, with either of its two parentheses. -/
theorem bind_assoc {γ : Type} (p : Prog Res ε α) (f : α → Prog Res ε β) (g : β → Prog Res ε γ) :
    p >>= f >>= g = p >>= fun a => f a >>= g := by
  induction p with
  | pure a => rfl
  | throw e => rfl
  | call s k ih => exact congrArg (Prog.call s) (funext ih)

/-- Every statement a program may send is one of `p`. -/
def Sends (p : Stmt → Prop) : Prog Res ε α → Prop
  | .pure _ => True
  | .throw _ => True
  | .call s k => p s ∧ ∀ r, (k r).Sends p

theorem Sends.bind {p : Stmt → Prop} {q : Prog Res ε α} {f : α → Prog Res ε β} (h : q.Sends p)
    (hf : ∀ a, (f a).Sends p) : (q >>= f).Sends p := by
  induction q with
  | pure a => exact hf a
  | throw e => trivial
  | call s k ih => exact ⟨h.1, fun r => ih r (h.2 r)⟩

theorem Sends.tryCatch {p : Stmt → Prop} {q : Prog Res ε α} {h : ε → Prog Res ε α} (hq : q.Sends p)
    (hh : ∀ e, (h e).Sends p) : (q.tryCatch h).Sends p := by
  induction q with
  | pure a => trivial
  | throw e => exact hh e
  | call s k ih => exact ⟨hq.1, fun r => ih r (hq.2 r)⟩

theorem sends_of_forall {p : Stmt → Prop} (h : ∀ s, p s) (q : Prog Res ε α) : q.Sends p := by
  induction q with
  | pure a => trivial
  | throw e => trivial
  | call s k ih => exact ⟨h s, ih⟩

theorem sends_stmt {p : Stmt → Prop} {s : Stmt} (h : p s) :
    (Prog.stmt s : Prog Res ε _).Sends p := ⟨h, fun _ => trivial⟩

theorem sends_lift {p : Stmt → Prop} (x : Except ε α) : (liftM x : Prog Res ε α).Sends p := by
  cases x <;> trivial

end Prog

/-- What statements do: they fail, or have a reply and a list of writes. -/
structure Sem {Stmt : Type} (Res : Stmt → Type) (ε σ ω : Type) where
  exec : (s : Stmt) → σ → Except ε (Res s × List ω)
  apply : ω → σ → σ

namespace Sem

variable {Stmt : Type} {Res : Stmt → Type} {ε σ ω α β : Type} (m : Sem Res ε σ ω)

/-- The writes `ws` made on `db`, from first to last. -/
def applyAll (ws : List ω) (db : σ) : σ := ws.foldl (fun d w => m.apply w d) db

@[simp] theorem applyAll_nil (db : σ) : m.applyAll [] db = db := rfl

@[simp] theorem applyAll_cons (w : ω) (ws : List ω) (db : σ) :
    m.applyAll (w :: ws) db = m.applyAll ws (m.apply w db) := rfl

theorem applyAll_append (ws ws' : List ω) (db : σ) :
    m.applyAll (ws ++ ws') db = m.applyAll ws' (m.applyAll ws db) :=
  List.foldl_append ..

/-- **A program run alone** on `db`: its result and the database with its writes. -/
def eval : Prog Res ε α → σ → Except ε (α × σ)
  | .pure a, db => .ok (a, db)
  | .throw e, _ => .error e
  | .call s k, db =>
    match m.exec s db with
    | .error e => .error e
    | .ok (r, ws) => eval (k r) (m.applyAll ws db)

/-- A transaction: the writes of a program that returns, none of one that throws. -/
def transaction (p : Prog Res ε α) (db : σ) : Except ε α × σ :=
  match m.eval p db with
  | .ok (a, db') => (.ok a, db')
  | .error e => (.error e, db)

@[simp] theorem eval_pure (a : α) (db : σ) :
    m.eval (pure a : Prog Res ε α) db = .ok (a, db) := rfl

@[simp] theorem eval_throw (e : ε) (db : σ) :
    m.eval (.throw e : Prog Res ε α) db = .error e := rfl

theorem eval_bind (p : Prog Res ε α) (f : α → Prog Res ε β) (db : σ) :
    m.eval (p >>= f) db =
      match m.eval p db with
      | .error e => .error e
      | .ok (a, db') => m.eval (f a) db' := by
  induction p generalizing db with
  | pure a => rfl
  | throw e => rfl
  | call s k ih =>
    show m.eval (.call s fun r => k r >>= f) db = _
    simp only [eval]
    cases m.exec s db with
    | error e => rfl
    | ok x => exact ih x.1 _

/-- **A sequence succeeds** exactly when its two parts do, one after the other. -/
theorem eval_bind_ok {p : Prog Res ε α} {f : α → Prog Res ε β} {db db' : σ} {b : β} :
    m.eval (p >>= f) db = .ok (b, db') ↔
      ∃ a db₁, m.eval p db = .ok (a, db₁) ∧ m.eval (f a) db₁ = .ok (b, db') := by
  rw [eval_bind]
  cases m.eval p db with
  | error e => simp
  | ok x => obtain ⟨a, db₁⟩ := x; simp

/-- A sequence fails in its first part, or in its second. -/
theorem eval_bind_error {p : Prog Res ε α} {f : α → Prog Res ε β} {db : σ} {e : ε} :
    m.eval (p >>= f) db = .error e ↔ m.eval p db = .error e ∨
      ∃ a db₁, m.eval p db = .ok (a, db₁) ∧ m.eval (f a) db₁ = .error e := by
  rw [eval_bind]
  cases m.eval p db with
  | error e' => simp
  | ok x => obtain ⟨a, db₁⟩ := x; simp

theorem eval_stmt_error {s : Stmt} {db : σ} {e : ε} :
    m.eval (Prog.stmt s : Prog Res ε _) db = .error e ↔ m.exec s db = .error e := by
  simp only [Prog.stmt, eval]
  cases m.exec s db with
  | error e' => simp
  | ok x => simp

theorem eval_stmt_ok {s : Stmt} {db db' : σ} {r : Res s} :
    m.eval (Prog.stmt s : Prog Res ε _) db = .ok (r, db') ↔
      ∃ ws, m.exec s db = .ok (r, ws) ∧ db' = m.applyAll ws db := by
  simp only [Prog.stmt, eval]
  cases m.exec s db with
  | error e => simp
  | ok x =>
    obtain ⟨r', ws⟩ := x
    simp only [Except.ok.injEq, Prod.mk.injEq]
    exact ⟨fun ⟨h, h'⟩ => ⟨ws, ⟨h, rfl⟩, h'.symm⟩, fun ⟨_, ⟨h, h'⟩, h''⟩ => ⟨h, by rw [h'', h']⟩⟩

theorem eval_lift_ok {x : Except ε α} {db db' : σ} {a : α} :
    m.eval (liftM x : Prog Res ε α) db = .ok (a, db') ↔ x = .ok a ∧ db' = db := by
  cases x with
  | error e => simp [liftM, monadLift, MonadLift.monadLift]
  | ok b =>
    show (.ok (b, db) : Except ε (α × σ)) = .ok (a, db') ↔ _
    simp [eq_comm]

theorem eval_lift_error {x : Except ε α} {db : σ} {e : ε} :
    m.eval (liftM x : Prog Res ε α) db = .error e ↔ x = .error e := by
  cases x with
  | error e' =>
    show (.error e' : Except ε (α × σ)) = .error e ↔ _
    simp
  | ok b =>
    show (.ok (b, db) : Except ε (α × σ)) = .error e ↔ _
    simp

theorem transaction_ok {p : Prog Res ε α} {db db' : σ} {a : α}
    (h : m.eval p db = .ok (a, db')) : m.transaction p db = (.ok a, db') := by
  rw [transaction, h]

theorem transaction_error {p : Prog Res ε α} {db : σ} {e : ε}
    (h : m.eval p db = .error e) : m.transaction p db = (.error e, db) := by
  rw [transaction, h]

/-! ### Assertions -/

/-- **Every statement a program sends meets `P`**, and its result meets `Q`, when run on `db`. -/
def Meets (P : Stmt → σ → Prop) : Prog Res ε α → (α → σ → Prop) → σ → Prop
  | .pure a, Q, db => Q a db
  | .throw _, _, _ => True
  | .call s k, Q, db => P s db ∧
      ∀ r ws, m.exec s db = .ok (r, ws) → Meets P (k r) Q (m.applyAll ws db)

variable {m}

theorem Meets.mono {P : Stmt → σ → Prop} {p : Prog Res ε α} {Q Q' : α → σ → Prop} {db : σ}
    (h : m.Meets P p Q db) (hQ : ∀ a db, Q a db → Q' a db) : m.Meets P p Q' db := by
  induction p generalizing db with
  | pure a => exact hQ a db h
  | throw e => trivial
  | call s k ih => exact ⟨h.1, fun r ws hx => ih r (h.2 r ws hx)⟩

theorem Meets.bind {P : Stmt → σ → Prop} {p : Prog Res ε α} {f : α → Prog Res ε β}
    {Q : β → σ → Prop} {db : σ} (h : m.Meets P p (fun a db => m.Meets P (f a) Q db) db) :
    m.Meets P (p >>= f) Q db := by
  induction p generalizing db with
  | pure a => exact h
  | throw e => trivial
  | call s k ih => exact ⟨h.1, fun r ws hx => ih r (h.2 r ws hx)⟩

theorem Meets.of_sends {p : Stmt → Prop} {P : Stmt → σ → Prop} {q : Prog Res ε α} {db : σ}
    (h : q.Sends p) (hP : ∀ s db, p s → P s db) : m.Meets P q (fun _ _ => True) db := by
  induction q generalizing db with
  | pure a => trivial
  | throw e => trivial
  | call s k ih => exact ⟨hP s db h.1, fun r ws _ => ih r (h.2 r)⟩

/-- What is known of the result of a run can be added to an assertion. -/
theorem Meets.and_eval {P : Stmt → σ → Prop} {p : Prog Res ε α} {Q : α → σ → Prop} {db : σ}
    (h : m.Meets P p (fun _ _ => True) db)
    (hQ : ∀ a db', m.eval p db = .ok (a, db') → Q a db') : m.Meets P p Q db := by
  induction p generalizing db with
  | pure a => exact hQ a db rfl
  | throw e => trivial
  | call s k ih =>
    refine ⟨h.1, fun r ws hx => ih r (h.2 r ws hx) fun a db' he => hQ a db' ?_⟩
    simp only [Sem.eval, hx]
    exact he

variable (m)

/-- What a transaction that succeeds preserves, a transaction preserves. -/
theorem transaction_preserves {p : Prog Res ε α} {db : σ} (I : σ → Prop) (h : I db)
    (hok : ∀ a db', m.eval p db = .ok (a, db') → I db') : I (m.transaction p db).2 := by
  cases he : m.eval p db with
  | error e => rw [transaction_error m he]; exact h
  | ok x => rw [transaction_ok m he]; exact hok x.1 x.2 he

/-- **Two semantics that agree on the statements a program sends agree on the program.** -/
theorem eval_congr (m m' : Sem Res ε σ ω) {P : Stmt → σ → Prop} (happly : m.apply = m'.apply)
    (hexec : ∀ s db, P s db → m.exec s db = m'.exec s db) {p : Prog Res ε α} {Q : α → σ → Prop}
    {db : σ} (h : m.Meets P p Q db) : m.eval p db = m'.eval p db := by
  have hall : ∀ (ws : List ω) db, m.applyAll ws db = m'.applyAll ws db := by
    intro ws db
    unfold applyAll
    rw [happly]
  induction p generalizing db with
  | pure a => rfl
  | throw e => rfl
  | call s k ih =>
    simp only [eval]
    rw [← hexec s db h.1]
    cases hx : m.exec s db with
    | error e => rfl
    | ok x =>
      obtain ⟨r, ws⟩ := x
      dsimp only
      rw [← hall]
      exact ih r (h.2 r ws hx)

end Sem

end GameClub.Lib
