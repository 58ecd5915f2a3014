import GameClub.Lib.RowLock

/-! # Serial executions

The transactions that commit in an interleaved run, in the order of their commits, and the same
requests run alone one after another.

* `Serial`: requests run alone, each with its reply; `runAll` computes it.
* `run_serial`: **an interleaved run is serial** in the order of its commits, when every body keeps to
  the locking discipline.
* `serial_run`: a serial execution is an interleaved run too. -/

namespace GameClub.Lib.RowLock

variable {Stmt : Type} {Res : Stmt → Type} {ε σ ω κ ρ α : Type}

/-- The request a step commits, with its reply. -/
def Label.committed : Label Stmt ε ρ α → Option (ρ × α)
  | .commit _ q a => some (q, a)
  | _ => none

/-- The commits of a run, from first to last. -/
def commits (tr : List (Label Stmt ε ρ α)) : List (ρ × α) := tr.filterMap Label.committed

theorem commits_append (tr tr' : List (Label Stmt ε ρ α)) :
    commits (tr ++ tr') = commits tr ++ commits tr' := List.filterMap_append ..

/-- Statements commit nothing. -/
theorem commits_execs (i : ℕ) (ss : List Stmt) :
    commits (ss.map fun s => (.exec i s : Label Stmt ε ρ α)) = [] := by
  induction ss with
  | nil => rfl
  | cons s ss ih => exact ih

/-- **Requests run alone**, one after another, from `db`; each is given with its reply. -/
inductive System.Serial (m : System Res ε σ ω κ ρ α) (db : σ) : List (ρ × α) → σ → Prop
  | nil : m.Serial db [] db
  | snoc {cs db' q a db''} (h : m.Serial db cs db') (he : m.eval (m.body q) db' = .ok (a, db'')) :
      m.Serial db (cs ++ [(q, a)]) db''

/-- The same as a function. -/
def System.runAll (m : System Res ε σ ω κ ρ α) : List ρ → σ → Except ε (List (ρ × α) × σ)
  | [], db => .ok ([], db)
  | q :: qs, db => do
    let (a, db') ← m.eval (m.body q) db
    let (cs, db'') ← m.runAll qs db'
    pure ((q, a) :: cs, db'')

variable {m : System Res ε σ ω κ ρ α}

theorem System.Serial.trans {db db' db'' : σ} {cs cs' : List (ρ × α)} (h : m.Serial db cs db')
    (h' : m.Serial db' cs' db'') : m.Serial db (cs ++ cs') db'' := by
  induction h' with
  | nil => rwa [List.append_nil]
  | snoc _ he ih =>
    rw [← List.append_assoc]
    exact ih.snoc he

theorem System.serial_of_runAll {qs : List ρ} {db db' : σ} {cs : List (ρ × α)}
    (h : m.runAll qs db = .ok (cs, db')) : m.Serial db cs db' := by
  induction qs generalizing db cs with
  | nil =>
    cases h
    exact .nil
  | cons q qs ih =>
    simp only [System.runAll] at h
    cases he : m.eval (m.body q) db with
    | error e => rw [he] at h; cases h
    | ok x =>
      rw [he] at h
      cases hrest : m.runAll qs x.2 with
      | error e => simp [hrest, bind, Except.bind] at h
      | ok y =>
        simp only [hrest, bind, Except.bind] at h
        cases h
        have hone : m.Serial db ([] ++ [(q, x.1)]) x.2 := .snoc .nil he
        exact hone.trans (ih hrest)

/-- **An interleaved run is serial** in the order of its commits. `I` is an invariant under which a
program that succeeds in the semantics of the discipline succeeds. -/
theorem Discipline.run_serial (D : Discipline m)
    (hbody : ∀ q, D.Guarded (m.body q) [] fun _ _ => True) {I : σ → Prop}
    (hI : ∀ q a db db', I db → D.sem.eval (m.body q) db = .ok (a, db') →
      m.eval (m.body q) db = .ok (a, db') ∧ I db')
    {db : σ} (h : I db) {tr : List (Label Stmt ε ρ α)} {c : Config Res ε σ ω κ ρ α}
    (hrun : m.Run (Config.idle db) tr c) : m.Serial db (commits tr) c.db ∧ I c.db := by
  induction hrun with
  | nil => exact ⟨.nil, h⟩
  | @snoc tr c l c' hr hstep ih =>
    obtain ⟨hserial, hinv⟩ := ih
    have hD := (inv_idle (D := D) db).run hbody hr
    rw [commits_append]
    cases hstep with
    | commit hi hp =>
      obtain ⟨he, hinv'⟩ := hI _ _ _ _ hinv (commit_eval hD (.commit hi hp))
      exact ⟨hserial.snoc he, hinv'⟩
    | begin hn => exact ⟨(List.append_nil _).symm ▸ hserial, hinv⟩
    | exec hi hs hfree hx hk => exact ⟨(List.append_nil _).symm ▸ hserial, hinv⟩
    | reject hi he => exact ⟨(List.append_nil _).symm ▸ hserial, hinv⟩
    | abort hi => exact ⟨(List.append_nil _).symm ▸ hserial, hinv⟩

/-- One request alone: it begins, runs its statements, and commits. -/
theorem System.run_one (m : System Res ε σ ω κ ρ α) {q : ρ} {db db' : σ} {a : α}
    (h : m.eval (m.body q) db = .ok (a, db')) :
    ∃ tr, m.Run (Config.idle db) tr (Config.idle db') ∧ commits tr = [(q, a)] := by
  have halone : m.eval (m.body q) (m.applyAll [] db) = .ok (a, db') := h
  obtain ⟨ss, log, held, hrun, rfl⟩ := m.run_execs halone
  have hbegin : m.Run (Config.idle db) ([] ++ [.begin 0 q]) (Config.solo db ⟨q, m.body q, [], []⟩) :=
    .snoc .nil (.begin rfl)
  refine ⟨_, hbegin.trans (hrun.snoc (m.solo_commit q a db log held)), ?_⟩
  rw [commits_append, commits_append, commits_append, commits_execs]
  rfl

/-- **A serial execution is an interleaved run** with these commits. -/
theorem System.Serial.run {db db' : σ} {cs : List (ρ × α)} (h : m.Serial db cs db') :
    ∃ tr, m.Run (Config.idle db) tr (Config.idle db') ∧ commits tr = cs := by
  induction h with
  | nil => exact ⟨[], .nil, rfl⟩
  | snoc _ he ih =>
    obtain ⟨tr, hrun, rfl⟩ := ih
    obtain ⟨tr', hrun', hcommits⟩ := m.run_one he
    exact ⟨tr ++ tr', hrun.trans hrun', by rw [commits_append, hcommits]⟩

end GameClub.Lib.RowLock
