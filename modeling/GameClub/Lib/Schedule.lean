import GameClub.Lib.Deadlock

/-! # Schedules of transactions

A scheduler begins transactions, lets one of them take its next step, or aborts one. A schedule is
computed: each choice is checked against the locks of the others, as far as they are below a bound.

* `perform`: a schedule, carried out.
* `exists_run`: **what a schedule is checked to lead to, a run leads to.**
* `heldUp`: a transaction that waits, computed. -/

namespace GameClub.Lib.RowLock

variable {Stmt : Type} {Res : Stmt → Type} {ε σ ω κ ρ α : Type}

/-- A choice of the scheduler. -/
inductive Choice (ρ : Type)
  | begin (i : ℕ) (q : ρ)
  | run (i : ℕ)
  | abort (i : ℕ)

/-- The transaction a choice is about. -/
def Choice.tx : Choice ρ → ℕ
  | .begin i _ => i
  | .run i => i
  | .abort i => i

/-- Transaction `i` goes on as `t`, or is over. -/
def Config.put (c : Config Res ε σ ω κ ρ α) (db : σ) (i : ℕ) (t : Option (Tx Res ε ω κ ρ α)) :
    Config Res ε σ ω κ ρ α := ⟨db, Function.update c.txs i t⟩

/-- Nothing is in flight from `n` on. -/
def Config.Below (n : ℕ) (c : Config Res ε σ ω κ ρ α) : Prop := ∀ i, n ≤ i → c.txs i = none

section

variable [DecidableEq κ]

/-- `Free`, as far as the transactions below `n` are concerned. -/
def Config.freeBelow (n : ℕ) (c : Config Res ε σ ω κ ρ α) (i : ℕ) (ls : List (Lock κ)) : Bool :=
  (List.range n).all fun j => j == i || (c.txs j).all fun t => decide (Compatible ls t.held)

/-- The next step of transaction `i`, unless it has to wait. -/
def System.turn (m : System Res ε σ ω κ ρ α) (n : ℕ) (c : Config Res ε σ ω κ ρ α) (i : ℕ)
    (t : Tx Res ε ω κ ρ α) : Option (Label Stmt ε ρ α × Config Res ε σ ω κ ρ α) :=
  match t.rest with
  | .pure a => some (.commit i t.req a, c.put (m.applyAll t.log c.db) i none)
  | .throw e => some (.reject i t.req e, c.put c.db i none)
  | .call s k =>
    if c.freeBelow n i (m.locks s (m.view c t)) then
      match m.exec s (m.view c t) with
      | .error e => some (.reject i t.req e, c.put c.db i none)
      | .ok (r, ws) =>
        match k r with
        | .throw e => some (.reject i t.req e, c.put c.db i none)
        | p => some (.exec i s, c.put c.db i
            (some ⟨t.req, p, t.log ++ ws, t.held ++ m.locks s (m.view c t)⟩))
    else none

/-- The step a scheduler chooses, if it can be made. -/
def System.act (m : System Res ε σ ω κ ρ α) (n : ℕ) (c : Config Res ε σ ω κ ρ α) :
    Choice ρ → Option (Label Stmt ε ρ α × Config Res ε σ ω κ ρ α)
  | .begin i q =>
    match c.txs i with
    | none => some (.begin i q, c.put c.db i (some ⟨q, m.body q, [], []⟩))
    | some _ => none
  | .run i => (c.txs i).bind (m.turn n c i)
  | .abort i => (c.txs i).map fun t => (.abort i t.req, c.put c.db i none)

/-- A schedule, carried out from a configuration with the labels so far. -/
def System.perform (m : System Res ε σ ω κ ρ α) (n : ℕ) : List (Choice ρ) →
    List (Label Stmt ε ρ α) × Config Res ε σ ω κ ρ α →
    Option (List (Label Stmt ε ρ α) × Config Res ε σ ω κ ρ α)
  | [], x => some x
  | a :: acts, (tr, c) =>
    match m.act n c a with
    | none => none
    | some (l, c') => m.perform n acts (tr ++ [l], c')

variable {m : System Res ε σ ω κ ρ α} {n : ℕ} {c c' : Config Res ε σ ω κ ρ α}

theorem free_of_freeBelow {i : ℕ} {ls : List (Lock κ)} (hc : c.Below n)
    (h : c.freeBelow n i ls = true) : c.Free i ls := by
  intro j t hne hj
  have hlt : j < n := by
    by_contra hge
    rw [hc j (by omega)] at hj
    cases hj
  have hfree := List.all_eq_true.mp h j (List.mem_range.mpr hlt)
  rw [hj] at hfree
  simpa [hne] using hfree

theorem step_of_turn {i : ℕ} {t : Tx Res ε ω κ ρ α} {l : Label Stmt ε ρ α} (hc : c.Below n)
    (hi : c.txs i = some t) (h : m.turn n c i t = some (l, c')) : m.Step c l c' := by
  unfold System.turn at h
  split at h
  · next a hrest =>
    cases h
    exact .commit hi hrest
  · next e hrest =>
    cases h
    exact .reject hi (by rw [hrest]; rfl)
  · next s k hrest =>
    split_ifs at h with hfree
    split at h
    · next e hx =>
      cases h
      exact .reject hi (by rw [hrest]; exact Or.inl hx)
    · next r ws hx =>
      split at h
      · next e hk =>
        cases h
        exact .reject hi (by rw [hrest]; exact Or.inr ⟨r, ws, hx, hk⟩)
      · next p hk =>
        cases h
        refine .exec hi hrest (free_of_freeBelow hc hfree) hx ?_
        cases hp : k r with
        | throw e => exact absurd hp (hk e)
        | pure a => rfl
        | call s' k' => rfl

/-- **A choice that can be made is a step.** -/
theorem step_of_act {a : Choice ρ} {l : Label Stmt ε ρ α} (hc : c.Below n)
    (h : m.act n c a = some (l, c')) : m.Step c l c' := by
  cases a with
  | begin i q =>
    simp only [System.act] at h
    split at h
    · next hnone =>
      cases h
      exact .begin hnone
    · cases h
  | run i =>
    obtain ⟨t, hi, hturn⟩ := Option.bind_eq_some_iff.mp h
    exact step_of_turn hc hi hturn
  | abort i =>
    obtain ⟨t, hi, he⟩ := Option.map_eq_some_iff.mp h
    cases he
    exact .abort hi

/-- A step about a transaction below `n` starts none beyond. -/
theorem below_of_act {a : Choice ρ} {l : Label Stmt ε ρ α} (hc : c.Below n) (ha : a.tx < n)
    (h : m.act n c a = some (l, c')) : c'.Below n := by
  have hput : ∀ {i db} {t : Option (Tx Res ε ω κ ρ α)}, i < n → (c.put db i t).Below n :=
    fun hi j hj => (Function.update_of_ne (by omega) ..).trans (hc j hj)
  cases a with
  | begin i q =>
    simp only [System.act] at h
    split at h
    · cases h
      exact hput ha
    · cases h
  | run i =>
    obtain ⟨t, -, hturn⟩ := Option.bind_eq_some_iff.mp h
    unfold System.turn at hturn
    split at hturn
    · cases hturn
      exact hput ha
    · cases hturn
      exact hput ha
    · split_ifs at hturn
      split at hturn
      · cases hturn
        exact hput ha
      · split at hturn <;> cases hturn <;> exact hput ha
  | abort i =>
    obtain ⟨t, -, he⟩ := Option.map_eq_some_iff.mp h
    cases he
    exact hput ha

/-- **A schedule that is carried out is a run.** -/
theorem run_of_perform {acts : List (Choice ρ)} {c₀ : Config Res ε σ ω κ ρ α}
    {x x' : List (Label Stmt ε ρ α) × Config Res ε σ ω κ ρ α} (hacts : ∀ a ∈ acts, a.tx < n)
    (h : m.perform n acts x = some x') (hx : m.Run c₀ x.1 x.2) (hn : x.2.Below n) :
    m.Run c₀ x'.1 x'.2 ∧ x'.2.Below n := by
  induction acts generalizing x with
  | nil =>
    cases h
    exact ⟨hx, hn⟩
  | cons a acts ih =>
    obtain ⟨tr, c⟩ := x
    simp only [System.perform] at h
    split at h
    · cases h
    · next l c' ha =>
      exact ih (fun b hb => hacts b (List.mem_cons_of_mem _ hb)) h (.snoc hx (step_of_act hn ha))
        (below_of_act hn (hacts a (List.mem_cons_self ..)) ha)

/-- **What a schedule is checked to lead to, a run leads to.** -/
theorem System.exists_run (m : System Res ε σ ω κ ρ α) (n : ℕ) {c₀ : Config Res ε σ ω κ ρ α}
    (hn : c₀.Below n) (acts : List (Choice ρ)) (hacts : ∀ a ∈ acts, a.tx < n)
    (check : List (Label Stmt ε ρ α) × Config Res ε σ ω κ ρ α → Bool)
    (h : (m.perform n acts ([], c₀)).any check = true) :
    ∃ tr c, m.Run c₀ tr c ∧ c.Below n ∧ check (tr, c) = true := by
  obtain ⟨⟨tr, c⟩, hx, hcheck⟩ := (Option.any_eq_true _ _).mp h
  obtain ⟨hrun, hbelow⟩ := run_of_perform hacts hx .nil hn
  exact ⟨tr, c, hrun, hbelow, hcheck⟩

/-- Transaction `i` waits for `j`, computed. -/
def System.heldUp (m : System Res ε σ ω κ ρ α) (c : Config Res ε σ ω κ ρ α) (i j : ℕ) : Bool :=
  i != j && (c.txs i).any fun t => (c.txs j).any fun t' =>
    decide (¬ Compatible (m.nextLocks c.db t) t'.held)

theorem waits_of_heldUp {i j : ℕ} (h : m.heldUp c i j = true) : m.Waits c i j := by
  obtain ⟨hne, h⟩ := (Bool.and_eq_true _ _).mp h
  obtain ⟨t, hi, h⟩ := (Option.any_eq_true _ _).mp h
  obtain ⟨t', hj, h⟩ := (Option.any_eq_true _ _).mp h
  exact waits_of_nextLocks (by simpa using hne) hi hj (of_decide_eq_true h)

end

theorem below_idle (n : ℕ) (db : σ) :
    (Config.idle db : Config Res ε σ ω κ ρ α).Below n := fun _ _ => rfl

end GameClub.Lib.RowLock
