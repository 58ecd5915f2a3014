import GameClub.Lib.Prog

/-! # Programs that await their calls

A program whose calls are answered one after the other. `Answers` says how a call may be answered in
a state and in which state it leaves off; it is a relation, as the state may have changed, or the call
have failed, while the program was waiting.

* `Runs`: the runs of a program, and `runs_bind`, `runs_tryCatch`, `runs_lift`: how they compose.
* `Runs.keeps`: what every answer to a call of a program keeps, its runs keep.
* `serve`: the run where every call has one answer. -/

namespace GameClub.Lib

variable {Stmt : Type} {Res : Stmt → Type} {ε σ α β : Type}

/-- How calls may be answered. -/
abbrev Answers (Res : Stmt → Type) (σ : Type) : Type := (s : Stmt) → σ → Res s → σ → Prop

/-- **A run of a program**: its result, and the state it leaves off in. -/
def Runs (A : Answers Res σ) : Prog Res ε α → σ → Except ε α → σ → Prop
  | .pure a, x, o, y => o = .ok a ∧ y = x
  | .throw e, x, o, y => o = .error e ∧ y = x
  | .call s k, x, o, y => ∃ r z, A s x r z ∧ Runs A (k r) z o y

variable {A : Answers Res σ}

@[simp] theorem runs_pure {a : α} {x y : σ} {o : Except ε α} :
    Runs A (pure a : Prog Res ε α) x o y ↔ o = .ok a ∧ y = x := Iff.rfl

@[simp] theorem runs_throw {e : ε} {x y : σ} {o : Except ε α} :
    Runs A (.throw e : Prog Res ε α) x o y ↔ o = .error e ∧ y = x := Iff.rfl

@[simp] theorem runs_lift {v o : Except ε α} {x y : σ} :
    Runs A (liftM v : Prog Res ε α) x o y ↔ o = v ∧ y = x := by
  cases v <;> exact Iff.rfl

/-- **A sequence fails in its first part, or goes on with its result.** -/
theorem runs_bind {p : Prog Res ε α} {f : α → Prog Res ε β} {x y : σ} {o : Except ε β} :
    Runs A (p >>= f) x o y ↔ (∃ e, o = .error e ∧ Runs A p x (.error e) y) ∨
      ∃ a z, Runs A p x (.ok a) z ∧ Runs A (f a) z o y := by
  induction p generalizing x with
  | pure a =>
    constructor
    · exact fun h => Or.inr ⟨a, x, ⟨rfl, rfl⟩, h⟩
    · rintro (⟨e, -, he, -⟩ | ⟨a', z, ⟨ha, rfl⟩, h⟩)
      · cases he
      · cases ha
        exact h
  | throw e =>
    constructor
    · rintro ⟨rfl, rfl⟩
      exact Or.inl ⟨e, rfl, rfl, rfl⟩
    · rintro (⟨e', rfl, he, rfl⟩ | ⟨a, z, ⟨ha, -⟩, -⟩)
      · cases he
        exact ⟨rfl, rfl⟩
      · cases ha
  | call s k ih =>
    constructor
    · rintro ⟨r, z, hs, h⟩
      rcases (ih r).mp h with ⟨e, rfl, he⟩ | ⟨a, z', ha, hf⟩
      · exact Or.inl ⟨e, rfl, r, z, hs, he⟩
      · exact Or.inr ⟨a, z', ⟨r, z, hs, ha⟩, hf⟩
    · rintro (⟨e, rfl, r, z, hs, he⟩ | ⟨a, z', ⟨r, z, hs, ha⟩, hf⟩)
      · exact ⟨r, z, hs, (ih r).mpr (Or.inl ⟨e, rfl, he⟩)⟩
      · exact ⟨r, z, hs, (ih r).mpr (Or.inr ⟨a, z', ha, hf⟩)⟩

/-- A program whose result is passed on. -/
theorem runs_map {p : Prog Res ε α} {f : α → β} {x y : σ} {o : Except ε β} :
    Runs A (p >>= fun a => pure (f a)) x o y ↔ ∃ o', Runs A p x o' y ∧
      ((∃ e, o' = .error e ∧ o = .error e) ∨ ∃ a, o' = .ok a ∧ o = .ok (f a)) := by
  rw [runs_bind]
  constructor
  · rintro (⟨e, rfl, he⟩ | ⟨a, z, ha, rfl, rfl⟩)
    · exact ⟨_, he, Or.inl ⟨e, rfl, rfl⟩⟩
    · exact ⟨_, ha, Or.inr ⟨a, rfl, rfl⟩⟩
  · rintro ⟨_, h, ⟨e, rfl, rfl⟩ | ⟨a, rfl, rfl⟩⟩
    · exact Or.inl ⟨e, rfl, h⟩
    · exact Or.inr ⟨a, y, h, rfl, rfl⟩

/-- **What a program throws goes to its handler.** -/
theorem runs_tryCatch {p : Prog Res ε α} {h : ε → Prog Res ε α} {x y : σ} {o : Except ε α} :
    Runs A (p.tryCatch h) x o y ↔ (∃ a, o = .ok a ∧ Runs A p x (.ok a) y) ∨
      ∃ e z, Runs A p x (.error e) z ∧ Runs A (h e) z o y := by
  induction p generalizing x with
  | pure a =>
    constructor
    · rintro ⟨rfl, rfl⟩
      exact Or.inl ⟨a, rfl, rfl, rfl⟩
    · rintro (⟨a', rfl, ha, rfl⟩ | ⟨e, z, ⟨he, -⟩, -⟩)
      · cases ha
        exact ⟨rfl, rfl⟩
      · cases he
  | throw e =>
    constructor
    · exact fun hh => Or.inr ⟨e, x, ⟨rfl, rfl⟩, hh⟩
    · rintro (⟨a, -, ha, -⟩ | ⟨e', z, ⟨he, rfl⟩, hh⟩)
      · cases ha
      · cases he
        exact hh
  | call s k ih =>
    constructor
    · rintro ⟨r, z, hs, hr⟩
      rcases (ih r).mp hr with ⟨a, rfl, ha⟩ | ⟨e, z', he, hh⟩
      · exact Or.inl ⟨a, rfl, r, z, hs, ha⟩
      · exact Or.inr ⟨e, z', ⟨r, z, hs, he⟩, hh⟩
    · rintro (⟨a, rfl, r, z, hs, ha⟩ | ⟨e, z', ⟨r, z, hs, he⟩, hh⟩)
      · exact ⟨r, z, hs, (ih r).mpr (Or.inl ⟨a, rfl, ha⟩)⟩
      · exact ⟨r, z, hs, (ih r).mpr (Or.inr ⟨e, z', he, hh⟩)⟩

/-- **What the answers to the calls of a program keep, its runs keep.** -/
theorem Runs.keeps {p : Prog Res ε α} {x y : σ} {o : Except ε α} (h : Runs A p x o y)
    {C : Stmt → Prop} (hp : p.Sends C) {K : σ → σ → Prop} (hrefl : ∀ x, K x x)
    (htrans : ∀ {x y z}, K x y → K y z → K x z) (hA : ∀ {s x r y}, C s → A s x r y → K x y) :
    K x y := by
  induction p generalizing x with
  | pure a =>
    obtain ⟨-, rfl⟩ := h
    exact hrefl _
  | throw e =>
    obtain ⟨-, rfl⟩ := h
    exact hrefl _
  | call s k ih =>
    obtain ⟨r, z, hs, hr⟩ := h
    have hstep := hA hp.1 hs
    have hrest := ih r hr (hp.2 r)
    exact htrans hstep hrest

/-- A program runs to its end when every call is answered. -/
theorem exists_runs (hA : ∀ s x, ∃ r y, A s x r y) (p : Prog Res ε α) (x : σ) :
    ∃ o y, Runs A p x o y := by
  induction p generalizing x with
  | pure a => exact ⟨.ok a, x, rfl, rfl⟩
  | throw e => exact ⟨.error e, x, rfl, rfl⟩
  | call s k ih =>
    obtain ⟨r, z, hs⟩ := hA s x
    obtain ⟨o, y, hr⟩ := ih r z
    exact ⟨o, y, r, z, hs, hr⟩

/-! ### One answer -/

/-- The run of a program where `answer` answers every call. -/
def serve (answer : (s : Stmt) → σ → Res s × σ) : Prog Res ε α → σ → Except ε α × σ
  | .pure a, x => (.ok a, x)
  | .throw e, x => (.error e, x)
  | .call s k, x => serve answer (k (answer s x).1) (answer s x).2

theorem serve_bind (answer : (s : Stmt) → σ → Res s × σ) (p : Prog Res ε α) (f : α → Prog Res ε β)
    (x : σ) : serve answer (p >>= f) x =
      match serve answer p x with
      | (.ok a, y) => serve answer (f a) y
      | (.error e, y) => (.error e, y) := by
  induction p generalizing x with
  | pure a => rfl
  | throw e => rfl
  | call s k ih => exact ih _ _

theorem runs_serve {answer : (s : Stmt) → σ → Res s × σ}
    (hA : ∀ s x, A s x (answer s x).1 (answer s x).2) (p : Prog Res ε α) (x : σ) :
    Runs A p x (serve answer p x).1 (serve answer p x).2 := by
  induction p generalizing x with
  | pure a => exact ⟨rfl, rfl⟩
  | throw e => exact ⟨rfl, rfl⟩
  | call s k ih => exact ⟨_, _, hA s x, ih _ _⟩

end GameClub.Lib
