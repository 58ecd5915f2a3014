import GameClub.Lib.Prog

/-! # Interleaved requests

Requests run side by side over a shared state, one call at a time and in any order; no call waits for
another. A request is at a phase: it is over, or it sends a call and goes on with the reply. Between
the calls time may pass.

* `System.Step`, `System.Run`: the interleavings, and those whose steps meet a condition.
* `System.perform`: a schedule carried out, and `run_of_perform`, `exists_run`: it is a run.
* `Implements`: the phases are the points of a program. `run_programs`: the interleavings of the
  phases are those of the programs. -/

namespace GameClub.Lib.Interleave

variable {Stmt : Type} {Res : Stmt → Type} {σ Req ρ P : Type}

/-! ### Phases -/

/-- What a request does next at a phase. -/
inductive View (Res : Stmt → Type) (ρ P : Type) : Type
  | done (r : ρ)
  | call (s : Stmt) (k : Res s → P)

/-- How calls work, how requests start and go on, and what the passing of time does. -/
structure System (Res : Stmt → Type) (σ Req ρ P : Type) where
  exec : (s : Stmt) → σ → Res s × σ
  start : Req → P
  view : P → View Res ρ P
  pass : ℕ → σ → σ

/-- The shared state, and the phase of every request in flight. -/
structure Config (σ P : Type) where
  db : σ
  threads : ℕ → Option P

/-- What has happened in one step; a call with the state it was made on. -/
inductive Event (σ Req ρ P : Type) : Type
  | arrived (i : ℕ) (q : Req)
  | called (i : ℕ) (p : P) (db : σ)
  | left (i : ℕ) (p : P) (r : ρ)
  | passed (n : ℕ)

namespace Config

/-- No request is in flight. -/
def idle (db : σ) : Config σ P := ⟨db, fun _ => none⟩

/-- No request is in flight any more. -/
def Quiet (c : Config σ P) : Prop := ∀ i, c.threads i = none

/-- The request `i` at another phase, or gone. -/
def put (c : Config σ P) (db : σ) (i : ℕ) (p : Option P) : Config σ P :=
  ⟨db, fun j => if j = i then p else c.threads j⟩

theorem put_self (c : Config σ P) (db : σ) (i : ℕ) (p : Option P) :
    (c.put db i p).threads i = p := if_pos rfl

theorem put_ne (c : Config σ P) (db : σ) {i j : ℕ} (p : Option P) (h : j ≠ i) :
    (c.put db i p).threads j = c.threads j := if_neg h

/-- A request after the step is the one that moved, or one that did not. -/
theorem of_put {c : Config σ P} {db : σ} {i j : ℕ} {p : Option P} {q : P}
    (h : (c.put db i p).threads j = some q) :
    (j = i ∧ p = some q) ∨ (j ≠ i ∧ c.threads j = some q) := by
  by_cases hj : j = i
  · subst hj
    rw [put_self] at h
    exact Or.inl ⟨rfl, h⟩
  · rw [put_ne _ _ _ hj] at h
    exact Or.inr ⟨hj, h⟩

/-- Some request in flight is at such a phase. -/
def InFlight (c : Config σ P) (A : P → Prop) : Prop := ∃ i p, c.threads i = some p ∧ A p

theorem inFlight_put {c : Config σ P} {db : σ} {i : ℕ} {p : P} {A : P → Prop} :
    (c.put db i (some p)).InFlight A ↔ A p ∨ ∃ j q, j ≠ i ∧ c.threads j = some q ∧ A q := by
  constructor
  · rintro ⟨j, q, hj, hq⟩
    rcases of_put hj with ⟨-, heq⟩ | ⟨hne, hj'⟩
    · cases heq
      exact Or.inl hq
    · exact Or.inr ⟨j, q, hne, hj', hq⟩
  · rintro (hp | ⟨j, q, hne, hj, hq⟩)
    · exact ⟨i, p, put_self .., hp⟩
    · exact ⟨j, q, (put_ne _ _ _ hne).trans hj, hq⟩

/-- The requests below `n` are over. -/
def allOver (n : ℕ) (c : Config σ P) : Bool := (List.range n).all fun i => (c.threads i).isNone

theorem quiet_of_allOver {c : Config σ P} {n : ℕ} (h : c.allOver n = true)
    (hn : ∀ i, n ≤ i → c.threads i = none) : c.Quiet := by
  intro i
  by_cases hi : i < n
  · have hnone := List.all_eq_true.mp h i (List.mem_range.mpr hi)
    exact Option.isNone_iff_eq_none.mp hnone
  · exact hn i (by omega)

/-- Of the phases before a step, one that is not the request's own is still there after it. -/
theorem inFlight_of_put {c : Config σ P} {db : σ} {i : ℕ} {p p' : P} {A : P → Prop}
    (hi : c.threads i = some p) (h : c.InFlight A) (hp : A p → A p') :
    (c.put db i (some p')).InFlight A := by
  obtain ⟨j, q, hj, hq⟩ := h
  by_cases hne : j = i
  · subst hne
    rw [hi] at hj
    cases hj
    exact inFlight_put.mpr (Or.inl (hp hq))
  · exact inFlight_put.mpr (Or.inr ⟨j, q, hne, hj, hq⟩)

end Config

namespace System

variable (S : System Res σ Req ρ P)

/-- **One step**: a request arrives, makes its next call, or leaves; or time passes. -/
inductive Step (c : Config σ P) : Event σ Req ρ P → Config σ P → Prop
  | arrive {i : ℕ} (q : Req) (h : c.threads i = none) :
      Step c (.arrived i q) (c.put c.db i (some (S.start q)))
  | call {i : ℕ} {p : P} {s : Stmt} {k : Res s → P} (h : c.threads i = some p)
      (hv : S.view p = .call s k) : Step c (.called i p c.db)
        (c.put (S.exec s c.db).2 i (some (k (S.exec s c.db).1)))
  | leave {i : ℕ} {p : P} {r : ρ} (h : c.threads i = some p) (hv : S.view p = .done r) :
      Step c (.left i p r) (c.put c.db i none)
  | pass (n : ℕ) : Step c (.passed n) { c with db := S.pass n c.db }

/-- **A run** whose steps all meet `A`, with its events, the last one first. -/
inductive Run (A : Config σ P → Event σ Req ρ P → Prop) (c₀ : Config σ P) :
    List (Event σ Req ρ P) → Config σ P → Prop
  | nil : Run A c₀ [] c₀
  | step {tr : List (Event σ Req ρ P)} {c c' : Config σ P} {e : Event σ Req ρ P}
      (h : Run A c₀ tr c) (hs : S.Step c e c') (ha : A c e) : Run A c₀ (e :: tr) c'

variable {S}

/-- **A step that is no call** leaves every request where it is, but for one that starts and one that
is over. -/
theorem Step.of_ne_called {c c' : Config σ P} {e : Event σ Req ρ P} (h : S.Step c e c')
    (he : ∀ i p db, e ≠ .called i p db) :
    (∀ j p, c'.threads j = some p → c.threads j = some p ∨ ∃ q, p = S.start q) ∧
    (∀ j p, c.threads j = some p → c'.threads j = some p ∨ ∃ r, S.view p = .done r) := by
  cases h with
  | @arrive i q hi =>
    refine ⟨fun j p hj => ?_, fun j p hj => Or.inl ?_⟩
    · rcases Config.of_put hj with ⟨-, heq⟩ | ⟨-, hj'⟩
      · exact Or.inr ⟨q, (Option.some.inj heq).symm⟩
      · exact Or.inl hj'
    · have hne : j ≠ i := by
        rintro rfl
        rw [hi] at hj
        cases hj
      exact (Config.put_ne _ _ _ hne).trans hj
  | call hi hv => exact absurd rfl (he _ _ _)
  | @leave i p r hi hv =>
    refine ⟨fun j q hj => ?_, fun j q hj => ?_⟩
    · rcases Config.of_put hj with ⟨-, heq⟩ | ⟨-, hj'⟩
      · cases heq
      · exact Or.inl hj'
    · by_cases hne : j = i
      · subst hne
        rw [hi] at hj
        cases hj
        exact Or.inr ⟨r, hv⟩
      · exact Or.inl ((Config.put_ne _ _ _ hne).trans hj)
  | pass n => exact ⟨fun j p hj => Or.inl hj, fun j p hj => Or.inl hj⟩

/-- **An invariant** that every step keeps holds after every run. -/
theorem Run.invariant {A : Config σ P → Event σ Req ρ P → Prop}
    {I : List (Event σ Req ρ P) → Config σ P → Prop} {c₀ c : Config σ P}
    {tr : List (Event σ Req ρ P)} (h : S.Run A c₀ tr c) (h₀ : I [] c₀)
    (hstep : ∀ {tr c e c'}, I tr c → S.Step c e c' → A c e → I (e :: tr) c') : I tr c := by
  induction h with
  | nil => exact h₀
  | step _ hs ha ih => exact hstep ih hs ha

/-- **A run goes through each of its events**: the run up to it, its step, and the run from there. -/
theorem Run.split {A : Config σ P → Event σ Req ρ P → Prop} {c₀ c : Config σ P}
    {later earlier : List (Event σ Req ρ P)} {e : Event σ Req ρ P}
    (h : S.Run A c₀ (later ++ e :: earlier) c) :
    ∃ c₁ c₂, S.Run A c₀ earlier c₁ ∧ S.Step c₁ e c₂ ∧ A c₁ e ∧ S.Run A c₂ later c := by
  induction later generalizing c with
  | nil =>
    cases h with
    | @step _ c₁ _ _ hrun hs ha => exact ⟨c₁, c, hrun, hs, ha, .nil⟩
  | cons e' later ih =>
    cases h with
    | step hrun hs ha =>
      obtain ⟨c₁, c₂, hearlier, hstep, hallowed, hlater⟩ := ih hrun
      exact ⟨c₁, c₂, hearlier, hstep, hallowed, .step hlater hs ha⟩

/-! ### Schedules -/

/-- A choice of the scheduler. -/
inductive Action (Req : Type) : Type
  | arrive (i : ℕ) (q : Req)
  | run (i : ℕ)
  | pass (n : ℕ)

variable (S)

/-- The step a scheduler chooses, if it can be made. -/
def act (c : Config σ P) : Action Req → Option (Event σ Req ρ P × Config σ P)
  | .arrive i q =>
    match c.threads i with
    | none => some (.arrived i q, c.put c.db i (some (S.start q)))
    | some _ => none
  | .run i =>
    match c.threads i with
    | none => none
    | some p =>
      match S.view p with
      | .done r => some (.left i p r, c.put c.db i none)
      | .call s k => some (.called i p c.db,
          c.put (S.exec s c.db).2 i (some (k (S.exec s c.db).1)))
  | .pass n => some (.passed n, { c with db := S.pass n c.db })

/-- A schedule, carried out from a configuration with the events so far; every step is checked. -/
def perform (ok : Config σ P → Event σ Req ρ P → Bool) :
    List (Action Req) → List (Event σ Req ρ P) × Config σ P →
    Option (List (Event σ Req ρ P) × Config σ P)
  | [], x => some x
  | a :: acts, (tr, c) =>
    match S.act c a with
    | none => none
    | some (e, c') => if ok c e then perform ok acts (e :: tr, c') else none

variable {S}

theorem step_of_act {c c' : Config σ P} {a : Action Req} {e : Event σ Req ρ P}
    (h : S.act c a = some (e, c')) : S.Step c e c' := by
  cases a with
  | arrive i q =>
    simp only [act] at h
    split at h
    · next hnone =>
      cases h
      exact .arrive q hnone
    · cases h
  | run i =>
    simp only [act] at h
    split at h
    · cases h
    · next p hp =>
      split at h
      · next r hv =>
        cases h
        exact .leave hp hv
      · next s k hv =>
        cases h
        exact .call hp hv
  | pass n =>
    cases h
    exact .pass n

/-- The request a choice is about. -/
def Action.request : Action Req → Option ℕ
  | .arrive i _ => some i
  | .run i => some i
  | .pass _ => none

/-- A choice about a request below `n` starts none beyond. -/
theorem act_threads {c c' : Config σ P} {a : Action Req} {e : Event σ Req ρ P} {n : ℕ}
    (h : S.act c a = some (e, c')) (ha : ∀ i ∈ a.request, i < n)
    (hc : ∀ i, n ≤ i → c.threads i = none) : ∀ i, n ≤ i → c'.threads i = none := by
  have hput : ∀ {j db} {p : Option P}, j < n → ∀ i, n ≤ i → (c.put db j p).threads i = none :=
    fun hj i hi => (Config.put_ne _ _ _ (by omega)).trans (hc i hi)
  cases a with
  | arrive j q =>
    simp only [act] at h
    split at h
    · cases h
      exact hput (ha j rfl)
    · cases h
  | run j =>
    simp only [act] at h
    split at h
    · cases h
    · split at h <;> cases h <;> exact hput (ha j rfl)
  | pass n =>
    cases h
    exact hc

/-- **A schedule that is carried out is a run**, of the requests below `n` if it is about these. -/
theorem run_of_perform {A : Config σ P → Event σ Req ρ P → Prop}
    {ok : Config σ P → Event σ Req ρ P → Bool} {n : ℕ} {acts : List (Action Req)} {c₀ : Config σ P}
    {x x' : List (Event σ Req ρ P) × Config σ P}
    (hok : ∀ c e, (∀ i, n ≤ i → c.threads i = none) → ok c e = true → A c e)
    (hacts : ∀ a ∈ acts, ∀ i ∈ a.request, i < n) (h : S.perform ok acts x = some x')
    (hx : S.Run A c₀ x.1 x.2) (hn : ∀ i, n ≤ i → x.2.threads i = none) :
    S.Run A c₀ x'.1 x'.2 ∧ ∀ i, n ≤ i → x'.2.threads i = none := by
  induction acts generalizing x with
  | nil =>
    cases h
    exact ⟨hx, hn⟩
  | cons a acts ih =>
    obtain ⟨tr, c⟩ := x
    simp only [perform] at h
    split at h
    · cases h
    · next e c' ha =>
      split_ifs at h with hcheck
      exact ih (fun b hb => hacts b (List.mem_cons_of_mem _ hb)) h
        (.step hx (step_of_act ha) (hok c e hn hcheck))
        (act_threads ha (hacts a (List.mem_cons_self ..)) hn)

/-- **What a schedule is checked to lead to, a run leads to.** -/
theorem exists_run {A : Config σ P → Event σ Req ρ P → Prop}
    (ok : Config σ P → Event σ Req ρ P → Bool) (n : ℕ)
    (hok : ∀ c e, (∀ i, n ≤ i → c.threads i = none) → ok c e = true → A c e) (db : σ)
    (acts : List (Action Req)) (check : List (Event σ Req ρ P) × Config σ P → Bool)
    (hacts : ∀ a ∈ acts, ∀ i ∈ a.request, i < n)
    (h : (S.perform ok acts ([], .idle db)).any check = true) :
    ∃ tr c, S.Run A (.idle db) tr c ∧ check (tr, c) = true ∧ ∀ i, n ≤ i → c.threads i = none := by
  obtain ⟨⟨tr, c⟩, hx, hcheck⟩ := (Option.any_eq_true _ _).mp h
  obtain ⟨hrun, hthreads⟩ := run_of_perform hok hacts hx .nil fun _ _ => rfl
  exact ⟨tr, c, hrun, hcheck, hthreads⟩

end System

/-! ### Programs -/

section Programs

variable {ε α : Type}

/-- What a program does next. -/
def progView : Prog Res ε α → View Res (Except ε α) (Prog Res ε α)
  | .pure a => .done (.ok a)
  | .throw e => .done (.error e)
  | .call s k => .call s k

/-- The phases as points of something else. -/
def View.map {P' : Type} (f : P → P') : View Res ρ P → View Res ρ P'
  | .done r => .done r
  | .call s k => .call s fun r => f (k r)

/-- **A phase is a point of a program**: the rest of the program does next what the phase does. -/
def Implements (view : P → View Res (Except ε α) P) (prog : P → Prog Res ε α) : Prop :=
  ∀ p, progView (prog p) = (view p).map prog

/-- The same requests as programs. -/
def System.programs (S : System Res σ Req (Except ε α) P) (prog : P → Prog Res ε α) :
    System Res σ Req (Except ε α) (Prog Res ε α) where
  exec := S.exec
  start q := prog (S.start q)
  view := progView
  pass := S.pass

def Config.map {P' : Type} (f : P → P') (c : Config σ P) : Config σ P' :=
  ⟨c.db, fun i => (c.threads i).map f⟩

def Event.map {P' : Type} (f : P → P') : Event σ Req ρ P → Event σ Req ρ P'
  | .arrived i q => .arrived i q
  | .called i p db => .called i (f p) db
  | .left i p r => .left i (f p) r
  | .passed n => .passed n

theorem Config.map_put {P' : Type} (f : P → P') (c : Config σ P) (db : σ) (i : ℕ) (p : Option P) :
    (c.put db i p).map f = (c.map f).put db i (p.map f) := by
  unfold Config.map Config.put
  congr 1
  funext j
  dsimp only
  split_ifs <;> rfl

variable {S : System Res σ Req (Except ε α) P} {prog : P → Prog Res ε α}

/-- A step of the phases is one of the programs. -/
theorem step_programs (himp : Implements S.view prog) {c c' : Config σ P}
    {e : Event σ Req (Except ε α) P} (h : S.Step c e c') :
    (S.programs prog).Step (c.map prog) (e.map prog) (c'.map prog) := by
  cases h with
  | arrive q h =>
    rw [Config.map_put]
    exact .arrive q (by simp [Config.map, h])
  | @call i p s k h hv =>
    rw [Config.map_put]
    have hview := himp p
    rw [hv] at hview
    exact .call (S := S.programs prog) (c := c.map prog) (k := fun r => prog (k r))
      (by simp [Config.map, h]) hview
  | @leave i p r h hv =>
    rw [Config.map_put]
    have hview := himp p
    rw [hv] at hview
    exact .leave (S := S.programs prog) (c := c.map prog) (by simp [Config.map, h]) hview
  | pass n => exact .pass (S := S.programs prog) n

/-- A step of the programs is one of the phases. -/
theorem step_of_programs (himp : Implements S.view prog) {c : Config σ P}
    {e' : Event σ Req (Except ε α) (Prog Res ε α)} {d : Config σ (Prog Res ε α)}
    (h : (S.programs prog).Step (c.map prog) e' d) :
    ∃ e c', S.Step c e c' ∧ e' = e.map prog ∧ d = c'.map prog := by
  cases h with
  | arrive q h =>
    refine ⟨_, _, .arrive q (by simpa [Config.map] using h), rfl, ?_⟩
    rw [Config.map_put]
    rfl
  | @call i x s k h hv =>
    obtain ⟨p, hp, rfl⟩ := Option.map_eq_some_iff.mp h
    have hview := (himp p).symm.trans hv
    cases hp' : S.view p with
    | done r =>
      rw [hp'] at hview
      cases hview
    | call s' k' =>
      rw [hp'] at hview
      cases hview
      refine ⟨_, _, .call hp hp', rfl, ?_⟩
      rw [Config.map_put]
      rfl
  | @leave i x r h hv =>
    obtain ⟨p, hp, rfl⟩ := Option.map_eq_some_iff.mp h
    have hview := (himp p).symm.trans hv
    cases hp' : S.view p with
    | done r' =>
      rw [hp'] at hview
      cases hview
      refine ⟨_, _, .leave hp hp', rfl, ?_⟩
      rw [Config.map_put]
      rfl
    | call s' k' =>
      rw [hp'] at hview
      cases hview
  | pass n => exact ⟨_, _, .pass n, rfl, rfl⟩

/-- **The interleavings of the phases are those of the programs.** -/
theorem run_programs (himp : Implements S.view prog) {c : Config σ P}
    {tr' : List (Event σ Req (Except ε α) (Prog Res ε α))} {d : Config σ (Prog Res ε α)} :
    (S.programs prog).Run (fun _ _ => True) (c.map prog) tr' d ↔
      ∃ tr c', S.Run (fun _ _ => True) c tr c' ∧ tr' = tr.map (Event.map prog) ∧
        d = c'.map prog := by
  constructor
  · intro h
    induction h with
    | nil => exact ⟨[], c, .nil, rfl, rfl⟩
    | step _ hs _ ih =>
      obtain ⟨tr, c₁, hrun, rfl, rfl⟩ := ih
      obtain ⟨e, c₂, hs', rfl, rfl⟩ := step_of_programs himp hs
      exact ⟨e :: tr, c₂, .step hrun hs' trivial, rfl, rfl⟩
  · rintro ⟨tr, c', h, rfl, rfl⟩
    induction h with
    | nil => exact .nil
    | step _ hs _ ih => exact .step ih (step_programs himp hs) trivial

end Programs

end GameClub.Lib.Interleave
