import GameClub.Lib.RowLock
import Mathlib.Logic.Relation
import Mathlib.Order.Basic

/-! # Requests that arrive before they run

A request reads the clock when it arrives and begins its transaction some time later, when others
that arrived after it may have committed. The clock never goes back.

* `TimedStep`, `TimedRun`: the interleavings with the clock; a run can ask something of each step.
* `Pending`: a request that has arrived and is not finished, and `TimedStep.pending`: only an arrival
  adds one.
* `timed_alone`: a request that has arrived can run alone. -/

namespace GameClub.Lib.RowLock

variable {Stmt : Type} {Res : Stmt → Type} {ε σ ω κ ρ α τ : Type}

/-- The clock, the requests that have arrived and wait, and those in flight. -/
structure Timed {Stmt : Type} (Res : Stmt → Type) (ε σ ω κ ρ α τ : Type) where
  now : τ
  arrived : ℕ → Option ρ
  state : Config Res ε σ ω κ ρ α

/-- Nothing has arrived. -/
def Timed.idle (now : τ) (db : σ) : Timed Res ε σ ω κ ρ α τ := ⟨now, fun _ => none, Config.idle db⟩

/-- **One step**: the clock goes on, a request arrives with what it reads from the clock, a request
that has arrived begins, or a transaction goes on. -/
inductive System.TimedStep [Preorder τ] (m : System Res ε σ ω κ ρ α) (Stamped : τ → ρ → Prop) :
    Timed Res ε σ ω κ ρ α τ → Option (Label Stmt ε ρ α) → Timed Res ε σ ω κ ρ α τ → Prop
  | tick {c now} (h : c.now ≤ now) : m.TimedStep Stamped c none ⟨now, c.arrived, c.state⟩
  | arrive {c k q} (h : c.arrived k = none) (hq : Stamped c.now q) :
      m.TimedStep Stamped c none ⟨c.now, Function.update c.arrived k (some q), c.state⟩
  | begin {c k i q s} (h : c.arrived k = some q) (hstep : m.Step c.state (.begin i q) s) :
      m.TimedStep Stamped c (some (.begin i q)) ⟨c.now, Function.update c.arrived k none, s⟩
  | serve {c l s} (hl : ∀ i q, l ≠ .begin i q) (hstep : m.Step c.state l s) :
      m.TimedStep Stamped c (some l) ⟨c.now, c.arrived, s⟩

/-- Runs each step of which has `P` of the configuration before it. -/
def System.TimedRun [Preorder τ] (m : System Res ε σ ω κ ρ α) (Stamped : τ → ρ → Prop)
    (P : Timed Res ε σ ω κ ρ α τ → Option (Label Stmt ε ρ α) → Prop) :
    Timed Res ε σ ω κ ρ α τ → Timed Res ε σ ω κ ρ α τ → Prop :=
  Relation.ReflTransGen fun c c' => ∃ l, m.TimedStep Stamped c l c' ∧ P c l

/-- The request has arrived and is not finished. -/
def Timed.Pending (c : Timed Res ε σ ω κ ρ α τ) (q : ρ) : Prop :=
  (∃ k, c.arrived k = some q) ∨ ∃ i t, c.state.txs i = some t ∧ t.req = q

/-- Alone in flight, with nothing waiting. -/
theorem pending_solo {c : Timed Res ε σ ω κ ρ α τ} {db : σ} {t : Tx Res ε ω κ ρ α} {q : ρ}
    (harr : ∀ k, c.arrived k = none) (hs : c.state = Config.solo db t) (h : c.Pending q) :
    q = t.req := by
  rcases h with ⟨k, hk⟩ | ⟨i, t', hi, rfl⟩
  · rw [harr] at hk
    cases hk
  · rw [hs] at hi
    have hsolo : Function.update (fun _ => none) 0 (some t) i = some t' := hi
    rcases Discipline.update_eq_some.mp hsolo with ⟨-, he⟩ | ⟨-, hi⟩
    · cases he
      rfl
    · cases hi

section Steps

variable [Preorder τ] {m : System Res ε σ ω κ ρ α} {Stamped : τ → ρ → Prop}
  {P : Timed Res ε σ ω κ ρ α τ → Option (Label Stmt ε ρ α) → Prop}
  {c c' : Timed Res ε σ ω κ ρ α τ} {l : Option (Label Stmt ε ρ α)} {q : ρ}

/-- A request in flight was in flight before, or has begun. -/
theorem System.Step.in_flight {s s' : Config Res ε σ ω κ ρ α} {l : Label Stmt ε ρ α}
    (h : m.Step s l s') {i : ℕ} {t' : Tx Res ε ω κ ρ α} (hi : s'.txs i = some t') :
    l = .begin i t'.req ∨ ∃ t, s.txs i = some t ∧ t.req = t'.req := by
  rcases h.tx_cases hi with hold | ⟨hbegun, -⟩ | ⟨t₀, s, k, r, ws, h₀, -, -, -, rfl⟩
  · exact Or.inr ⟨t', hold, rfl⟩
  · exact Or.inl hbegun
  · exact Or.inr ⟨t₀, h₀, rfl⟩

/-- **Only an arrival adds a pending request.** -/
theorem System.TimedStep.pending (h : m.TimedStep Stamped c l c') (hq : c'.Pending q) :
    c.Pending q ∨ Stamped c'.now q ∧ c'.state = c.state := by
  cases h with
  | tick hle => exact Or.inl hq
  | arrive hn hstamp =>
    rcases hq with ⟨k', hk'⟩ | hflight
    · rcases Discipline.update_eq_some.mp hk' with ⟨-, he⟩ | ⟨-, hk'⟩
      · cases he
        exact Or.inr ⟨hstamp, rfl⟩
      · exact Or.inl (Or.inl ⟨k', hk'⟩)
    · exact Or.inl (Or.inr hflight)
  | begin hk hstep =>
    rcases hq with ⟨k', hk'⟩ | ⟨j, t', hj, rfl⟩
    · rcases Discipline.update_eq_some.mp hk' with ⟨-, he⟩ | ⟨-, hk'⟩
      · cases he
      · exact Or.inl (Or.inl ⟨k', hk'⟩)
    · rcases hstep.in_flight hj with he | ⟨t, ht, hreq⟩
      · cases he
        exact Or.inl (Or.inl ⟨_, hk⟩)
      · exact Or.inl (Or.inr ⟨j, t, ht, hreq⟩)
  | serve hl hstep =>
    rcases hq with harr | ⟨j, t', hj, rfl⟩
    · exact Or.inl (Or.inl harr)
    · rcases hstep.in_flight hj with he | ⟨t, ht, hreq⟩
      · exact absurd he (hl _ _)
      · exact Or.inl (Or.inr ⟨j, t, ht, hreq⟩)

theorem System.TimedStep.now_le (h : m.TimedStep Stamped c l c') : c.now ≤ c'.now := by
  cases h with
  | tick hle => exact hle
  | arrive hn hstamp => exact le_rfl
  | begin hk hstep => exact le_rfl
  | serve hl hstep => exact le_rfl

/-! ### Running one request -/

/-- Statements are served when every step that is no commit may be taken. -/
theorem System.Run.timed {s s' : Config Res ε σ ω κ ρ α} {i : ℕ} {ss : List Stmt}
    (h : m.Run s (ss.map (Label.exec i)) s')
    (hP : ∀ c l, (∀ i q a, l ≠ some (.commit i q a)) → P c l) (now : τ) (arrived : ℕ → Option ρ) :
    m.TimedRun Stamped P ⟨now, arrived, s⟩ ⟨now, arrived, s'⟩ := by
  generalize htr : ss.map (Label.exec i) = tr at h
  have hexec : ∀ l ∈ tr, ∃ st, l = Label.exec i st := by
    intro l hl
    rw [← htr] at hl
    obtain ⟨st, -, rfl⟩ := List.mem_map.mp hl
    exact ⟨st, rfl⟩
  clear htr
  induction h with
  | nil => exact .refl
  | @snoc tr s l s' _ hstep ih =>
    obtain ⟨st, rfl⟩ := hexec l (by simp)
    refine (ih fun l hl => hexec l (by simp [hl])).tail ⟨some (.exec i st), ?_, hP _ _ (by simp)⟩
    exact .serve (by simp) hstep

/-- **A request that has arrived runs alone**, while others wait. -/
theorem System.timed_alone {arrived : ℕ → Option ρ} {k : ℕ} {db db' : σ} {a : α} {now : τ}
    (hk : arrived k = some q) (h : m.eval (m.body q) db = .ok (a, db'))
    (hP : ∀ c l, (∀ i q a, l ≠ some (.commit i q a)) → P c l)
    (hcommit : ∀ log held, P ⟨now, Function.update arrived k none,
      Config.solo db ⟨q, .pure a, log, held⟩⟩ (some (.commit 0 q a))) :
    m.TimedRun Stamped P ⟨now, arrived, Config.idle db⟩
      ⟨now, Function.update arrived k none, Config.idle db'⟩ := by
  have hbody : ∃ (ss : List Stmt) (log : List ω) (held : List (Lock κ)),
      m.Run (Config.solo db ⟨q, m.body q, [], []⟩) (ss.map (Label.exec 0))
        (Config.solo db ⟨q, .pure a, log, held⟩) ∧ m.applyAll log db = db' := m.run_execs h
  obtain ⟨ss, log, held, hrun, rfl⟩ := hbody
  have hbegin : m.TimedStep Stamped ⟨now, arrived, Config.idle db⟩ (some (.begin 0 q))
      ⟨now, Function.update arrived k none, Config.solo db ⟨q, m.body q, [], []⟩⟩ :=
    .begin hk (System.Step.begin rfl)
  have hserve : m.TimedRun Stamped P
      ⟨now, Function.update arrived k none, Config.solo db ⟨q, m.body q, [], []⟩⟩
      ⟨now, Function.update arrived k none, Config.solo db ⟨q, .pure a, log, held⟩⟩ :=
    hrun.timed hP now (Function.update arrived k none)
  have hend : m.TimedStep Stamped ⟨now, Function.update arrived k none,
      Config.solo db ⟨q, .pure a, log, held⟩⟩ (some (.commit 0 q a))
      ⟨now, Function.update arrived k none, Config.idle (m.applyAll log db)⟩ :=
    .serve (by simp) (m.solo_commit q a db log held)
  refine Relation.ReflTransGen.head ⟨_, hbegin, hP _ _ (by simp)⟩ ?_
  exact Relation.ReflTransGen.tail hserve ⟨_, hend, hcommit log held⟩

end Steps

end GameClub.Lib.RowLock
