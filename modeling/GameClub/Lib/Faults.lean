import GameClub.Lib.Await

/-! # Programs whose calls may fail

One call of a run fails: it has no effect, and is answered as calls of its kind are when they fail.
Before it and after it the calls are answered as always.

* `Reaches`: what is left of a program at some point of its run, and in which state.
* `Runs.faulted`: a run with a failure is a run up to a call, the failure, and a run of what is left.
* `reaches_bind`: the points of a sequence. -/

namespace GameClub.Lib

variable {Stmt : Type} {Res : Stmt → Type} {ε σ α β : Type}

/-- **Answers of which one is a failure.** The state remembers the call that failed. -/
def Faulty (A : Answers Res σ) (fault : (s : Stmt) → Res s → Prop) :
    Answers Res (σ × Option Stmt) := fun s x r y =>
  (y.2 = x.2 ∧ A s x.1 r y.1) ∨ (x.2 = none ∧ y = (x.1, some s) ∧ fault s r)

/-- **The run of `p` from `x` comes to `q` in the state `y`.** -/
inductive Reaches (A : Answers Res σ) : Prog Res ε α → σ → Prog Res ε α → σ → Prop
  | here {p : Prog Res ε α} {x : σ} : Reaches A p x p x
  | call {s : Stmt} {k : Res s → Prog Res ε α} {r : Res s} {q : Prog Res ε α} {x z y : σ}
      (hA : A s x r z) (h : Reaches A (k r) z q y) : Reaches A (.call s k) x q y

variable {A : Answers Res σ} {fault : (s : Stmt) → Res s → Prop}

/-! ### Runs with a failure -/

/-- After the failure the calls are answered as always. -/
theorem Runs.after_fault {p : Prog Res ε α} {x y : σ} {s : Stmt} {hit : Option Stmt}
    {o : Except ε α} (h : Runs (Faulty A fault) p (x, some s) o (y, hit)) :
    hit = some s ∧ Runs A p x o y := by
  induction p generalizing x with
  | pure a =>
    obtain ⟨ho, heq⟩ := h
    cases heq
    exact ⟨rfl, ho, rfl⟩
  | throw e =>
    obtain ⟨ho, heq⟩ := h
    cases heq
    exact ⟨rfl, ho, rfl⟩
  | call s' k ih =>
    obtain ⟨r, ⟨z, hit'⟩, hA, hrest⟩ := h
    rcases hA with ⟨hkeep, hA⟩ | ⟨hnone, -⟩
    · obtain rfl : hit' = some s := hkeep
      obtain ⟨hhit, hrest⟩ := ih r hrest
      exact ⟨hhit, r, z, hA, hrest⟩
    · cases hnone

/-- **A run in which `s` fails** comes to `s`, which fails, and goes on. By induction on the
program. -/
theorem Runs.faulted {p : Prog Res ε α} {x y : σ} {s : Stmt} {o : Except ε α}
    (h : Runs (Faulty A fault) p (x, none) o (y, some s)) :
    ∃ k z r, Reaches A p x (.call s k) z ∧ fault s r ∧ Runs A (k r) z o y := by
  induction p generalizing x with
  | pure a => cases h.2
  | throw e => cases h.2
  | call s' k ih =>
    obtain ⟨r, ⟨z, hit⟩, hA, hrest⟩ := h
    rcases hA with ⟨hkeep, hA⟩ | ⟨-, heq, hfault⟩
    · obtain rfl : hit = none := hkeep
      obtain ⟨k', z', r', hreach, hfault, hrun⟩ := ih r hrest
      exact ⟨k', z', r', .call hA hreach, hfault, hrun⟩
    · cases heq
      obtain ⟨hs, hrun⟩ := hrest.after_fault
      cases hs
      exact ⟨k, x, r, .here, hfault, hrun⟩

/-! ### The points of a run -/

theorem reaches_pure {a : α} {q : Prog Res ε α} {x y : σ}
    (h : Reaches A (pure a : Prog Res ε α) x q y) : q = pure a := by
  cases h
  rfl

theorem reaches_throw {e : ε} {q : Prog Res ε α} {x y : σ}
    (h : Reaches A (.throw e : Prog Res ε α) x q y) : q = .throw e := by
  cases h
  rfl

/-- **A sequence is at a call of its first part, or of what follows.** -/
theorem reaches_bind {p : Prog Res ε α} {f : α → Prog Res ε β} {s : Stmt}
    {k : Res s → Prog Res ε β} {x y : σ} (h : Reaches A (p >>= f) x (.call s k) y) :
    (∃ k', k = (fun r => k' r >>= f) ∧ Reaches A p x (.call s k') y) ∨
      ∃ a z, Runs A p x (.ok a) z ∧ Reaches A (f a) z (.call s k) y := by
  induction p generalizing x with
  | pure a => exact Or.inr ⟨a, x, ⟨rfl, rfl⟩, h⟩
  | throw e => cases reaches_throw h
  | call s' k' ih =>
    have hbind : (Prog.call s' k' >>= f : Prog Res ε β) = .call s' fun r => k' r >>= f := rfl
    rw [hbind] at h
    generalize hq : Prog.call s k = q at h
    cases h with
    | here =>
      cases hq
      exact Or.inl ⟨k', rfl, .here⟩
    | call hA hrest =>
      subst hq
      rcases ih _ hrest with ⟨k'', hk, hreach⟩ | ⟨a, z, hrun, hreach⟩
      · exact Or.inl ⟨k'', hk, .call hA hreach⟩
      · exact Or.inr ⟨a, z, ⟨_, _, hA, hrun⟩, hreach⟩

end GameClub.Lib
