import GameClub.Lib.Prog

/-! # Row locks under READ COMMITTED

Transactions run their statements one at a time, interleaved in any order. A statement sees the
committed database with the writes of its own transaction, takes its row locks before it runs and
keeps them until the transaction ends; it waits while another transaction holds a conflicting lock.
A commit makes all writes of the transaction visible at once.

* `Step`, `Run`: the interleavings.
* `Discipline`: what makes them serial. `Same L` relates two databases a holder of the locks `L`
  cannot tell apart, and `Guarded` asks of a program that each statement is sent under the locks it
  expects and that its reply depends only on what the locks protect. The replies are compared under
  `relaxed`, a semantics that may leave out checks which only make a statement fail.
* `commit_eval`: **a commit is the whole program run alone** on the database just before it.
* `run_preserves`: what every program run alone preserves holds of every committed database.
* `Step.tx_cases`: where a transaction in flight comes from. -/

namespace GameClub.Lib.RowLock

/-! ### Locks -/

/-- Row lock modes: `FOR KEY SHARE`, `FOR NO KEY UPDATE`, `FOR UPDATE`. -/
inductive Mode
  | keyShare
  | noKeyUpdate
  | update
deriving DecidableEq

/-- The conflict table of the modes. -/
def Mode.conflicts : Mode → Mode → Bool
  | .keyShare, .update | .update, .keyShare => true
  | .keyShare, _ | _, .keyShare => false
  | _, _ => true

/-- A lock on the row `row`. -/
structure Lock (κ : Type) where
  row : κ
  mode : Mode
deriving DecidableEq

/-- Two transactions cannot hold `l` and `l'` together. -/
def Lock.Conflicts {κ : Type} (l l' : Lock κ) : Prop :=
  l.row = l'.row ∧ l.mode.conflicts l'.mode = true

instance {κ : Type} [DecidableEq κ] (l l' : Lock κ) : Decidable (l.Conflicts l') :=
  inferInstanceAs (Decidable (l.row = l'.row ∧ l.mode.conflicts l'.mode = true))

theorem Lock.Conflicts.symm {κ : Type} {l l' : Lock κ} (h : l.Conflicts l') : l'.Conflicts l :=
  ⟨h.1.symm, by rw [← h.2]; cases l.mode <;> cases l'.mode <;> rfl⟩

/-- No lock of `ls` conflicts with one of `ls'`. -/
def Compatible {κ : Type} (ls ls' : List (Lock κ)) : Prop :=
  ∀ l ∈ ls, ∀ l' ∈ ls', ¬ l.Conflicts l'

instance {κ : Type} [DecidableEq κ] (ls ls' : List (Lock κ)) : Decidable (Compatible ls ls') :=
  inferInstanceAs (Decidable (∀ l ∈ ls, ∀ l' ∈ ls', ¬ l.Conflicts l'))

theorem Compatible.symm {κ : Type} {ls ls' : List (Lock κ)} (h : Compatible ls ls') :
    Compatible ls' ls := fun l hl l' hl' hc => h l' hl' l hl hc.symm

theorem Compatible.append_left {κ : Type} {ls₁ ls₂ ls' : List (Lock κ)} (h₁ : Compatible ls₁ ls')
    (h₂ : Compatible ls₂ ls') : Compatible (ls₁ ++ ls₂) ls' := fun l hl =>
  (List.mem_append.mp hl).elim (h₁ l) (h₂ l)

theorem Compatible.mono {κ : Type} {ls₁ ls₂ ls' : List (Lock κ)} (h : Compatible ls₂ ls')
    (hs : ls₁ ⊆ ls₂) : Compatible ls₁ ls' := fun l hl => h l (hs hl)

/-! ### The system -/

variable {Stmt : Type} {Res : Stmt → Type} {ε σ ω κ ρ α : Type}

/-- Statements with the locks each takes, and the body of each request. -/
structure System {Stmt : Type} (Res : Stmt → Type) (ε σ ω κ ρ α : Type) extends
    Sem Res ε σ ω where
  locks : Stmt → σ → List (Lock κ)
  body : ρ → Prog Res ε α

/-- A transaction in flight: its request, what is left of its body, its writes so far and the locks
it holds. -/
structure Tx {Stmt : Type} (Res : Stmt → Type) (ε ω κ ρ α : Type) where
  req : ρ
  rest : Prog Res ε α
  log : List ω
  held : List (Lock κ)

/-- The committed database and the transactions in flight. -/
structure Config {Stmt : Type} (Res : Stmt → Type) (ε σ ω κ ρ α : Type) where
  db : σ
  txs : ℕ → Option (Tx Res ε ω κ ρ α)

/-- What a step shows. -/
inductive Label (Stmt ε ρ α : Type)
  | begin (i : ℕ) (q : ρ)
  | exec (i : ℕ) (s : Stmt)
  | commit (i : ℕ) (q : ρ) (a : α)
  | reject (i : ℕ) (q : ρ) (e : ε)
  | abort (i : ℕ) (q : ρ)

/-- The database as transaction `t` sees it. -/
def System.view (m : System Res ε σ ω κ ρ α) (c : Config Res ε σ ω κ ρ α) (t : Tx Res ε ω κ ρ α) :
    σ := m.applyAll t.log c.db

/-- No other transaction holds a lock that conflicts with `ls`. -/
def Config.Free (c : Config Res ε σ ω κ ρ α) (i : ℕ) (ls : List (Lock κ)) : Prop :=
  ∀ j t, j ≠ i → c.txs j = some t → Compatible ls t.held

/-- The next thing the rest of a program does is to throw `e`: at once, because its statement fails,
or because of the reply. -/
def System.Fails (m : System Res ε σ ω κ ρ α) (db : σ) (e : ε) : Prog Res ε α → Prop
  | .pure _ => False
  | .throw e' => e' = e
  | .call s k => m.exec s db = .error e ∨ ∃ r ws, m.exec s db = .ok (r, ws) ∧ k r = .throw e

/-- **One step** of some transaction. A request may be aborted at any time: a deadlock, a lost
connection. -/
inductive System.Step (m : System Res ε σ ω κ ρ α) :
    Config Res ε σ ω κ ρ α → Label Stmt ε ρ α → Config Res ε σ ω κ ρ α → Prop
  | begin {c i q} (h : c.txs i = none) :
      m.Step c (.begin i q) ⟨c.db, Function.update c.txs i (some ⟨q, m.body q, [], []⟩)⟩
  | exec {c i t s k r ws} (h : c.txs i = some t) (hs : t.rest = .call s k)
      (hfree : c.Free i (m.locks s (m.view c t))) (hx : m.exec s (m.view c t) = .ok (r, ws))
      (hk : (k r).isThrow = false) :
      m.Step c (.exec i s) ⟨c.db, Function.update c.txs i
        (some ⟨t.req, k r, t.log ++ ws, t.held ++ m.locks s (m.view c t)⟩)⟩
  | commit {c i t a} (h : c.txs i = some t) (hp : t.rest = .pure a) :
      m.Step c (.commit i t.req a) ⟨m.applyAll t.log c.db, Function.update c.txs i none⟩
  | reject {c i t e} (h : c.txs i = some t) (he : m.Fails (m.view c t) e t.rest) :
      m.Step c (.reject i t.req e) ⟨c.db, Function.update c.txs i none⟩
  | abort {c i t} (h : c.txs i = some t) :
      m.Step c (.abort i t.req) ⟨c.db, Function.update c.txs i none⟩

/-- Runs, with the labels of their steps. -/
inductive System.Run (m : System Res ε σ ω κ ρ α) (c₀ : Config Res ε σ ω κ ρ α) :
    List (Label Stmt ε ρ α) → Config Res ε σ ω κ ρ α → Prop
  | nil : m.Run c₀ [] c₀
  | snoc {tr c l c'} (h : m.Run c₀ tr c) (hstep : m.Step c l c') : m.Run c₀ (tr ++ [l]) c'

/-- The configuration with nothing in flight. -/
def Config.idle (db : σ) : Config Res ε σ ω κ ρ α := ⟨db, fun _ => none⟩

theorem System.Run.trans {m : System Res ε σ ω κ ρ α} {c₀ c c' : Config Res ε σ ω κ ρ α}
    {tr tr' : List (Label Stmt ε ρ α)} (h : m.Run c₀ tr c) (h' : m.Run c tr' c') :
    m.Run c₀ (tr ++ tr') c' := by
  induction h' with
  | nil => rwa [List.append_nil]
  | snoc _ hstep ih => rw [← List.append_assoc]; exact .snoc ih hstep

/-- The configuration with only `t` in flight. -/
def Config.solo (db : σ) (t : Tx Res ε ω κ ρ α) : Config Res ε σ ω κ ρ α :=
  ⟨db, Function.update (fun _ => none) 0 (some t)⟩

theorem solo_txs (db : σ) (t : Tx Res ε ω κ ρ α) : (Config.solo db t).txs 0 = some t := by
  simp [Config.solo]

theorem solo_update (db : σ) (t : Tx Res ε ω κ ρ α) (v : Option (Tx Res ε ω κ ρ α)) :
    Function.update (Config.solo db t).txs 0 v = Function.update (fun _ => none) 0 v :=
  Function.update_idem ..

theorem solo_free (db : σ) (t : Tx Res ε ω κ ρ α) (ls : List (Lock κ)) :
    (Config.solo db t).Free 0 ls := by
  intro j t' hne hj
  simp [Config.solo, hne] at hj

/-- The rest of a program runs to its end when nothing else is in flight. -/
theorem System.run_execs (m : System Res ε σ ω κ ρ α) {q : ρ} {p : Prog Res ε α} {db db' : σ}
    {log : List ω} {held : List (Lock κ)} {a : α}
    (h : m.eval p (m.applyAll log db) = .ok (a, db')) :
    ∃ (ss : List Stmt) (log' : List ω) (held' : List (Lock κ)),
      m.Run (Config.solo db ⟨q, p, log, held⟩) (ss.map (Label.exec 0))
        (Config.solo db ⟨q, .pure a, log', held'⟩) ∧ m.applyAll log' db = db' := by
  induction p generalizing log held with
  | pure b =>
    cases h
    exact ⟨[], log, held, .nil, rfl⟩
  | throw e => cases h
  | call s k ih =>
    simp only [Sem.eval] at h
    cases hx : m.exec s (m.applyAll log db) with
    | error e => rw [hx] at h; cases h
    | ok x =>
      obtain ⟨r, ws⟩ := x
      rw [hx] at h
      simp only [← m.applyAll_append] at h
      have hk : (k r).isThrow = false := by
        cases hkr : k r with
        | throw e => rw [hkr] at h; cases h
        | pure b => rfl
        | call s' k' => rfl
      obtain ⟨ss, log', held', hrun, hdb⟩ := @ih r _ (held ++ m.locks s (m.applyAll log db)) h
      have hstep := System.Step.exec (m := m) (solo_txs db ⟨q, .call s k, log, held⟩) rfl
        (solo_free db _ _) hx hk
      rw [solo_update] at hstep
      exact ⟨s :: ss, log', held', (System.Run.snoc .nil hstep).trans hrun, hdb⟩

theorem System.solo_commit (m : System Res ε σ ω κ ρ α) (q : ρ) (a : α) (db : σ) (log : List ω)
    (held : List (Lock κ)) : m.Step (Config.solo db ⟨q, .pure a, log, held⟩) (.commit 0 q a)
      (Config.idle (m.applyAll log db)) := by
  have hstep := System.Step.commit (m := m) (solo_txs db ⟨q, .pure a, log, held⟩) rfl
  rwa [solo_update, Function.update_eq_self_iff.mpr rfl] at hstep

theorem System.run_rest (m : System Res ε σ ω κ ρ α) {q : ρ} {p : Prog Res ε α} {db db' : σ}
    {log : List ω} {held : List (Lock κ)} {a : α}
    (h : m.eval p (m.applyAll log db) = .ok (a, db')) :
    ∃ tr, m.Run (Config.solo db ⟨q, p, log, held⟩) (tr ++ [.commit 0 q a]) (Config.idle db') := by
  obtain ⟨ss, log', held', hrun, rfl⟩ := m.run_execs h
  exact ⟨_, hrun.snoc (m.solo_commit q a db log' held')⟩

/-- **A request can run alone.** -/
theorem System.run_alone (m : System Res ε σ ω κ ρ α) {q : ρ} {db db' : σ} {a : α}
    (h : m.eval (m.body q) db = .ok (a, db')) :
    ∃ tr, m.Run (Config.idle db) (tr ++ [.commit 0 q a]) (Config.idle db') := by
  obtain ⟨tr, htr⟩ : ∃ tr, m.Run (Config.solo db ⟨q, m.body q, [], []⟩) (tr ++ [.commit 0 q a])
      (Config.idle db') := m.run_rest h
  have hbegin := System.Run.snoc .nil (System.Step.begin (m := m) (c := Config.idle db) (q := q)
    (i := 0) rfl)
  exact ⟨_, by rw [List.append_assoc]; exact hbegin.trans htr⟩

/-! ### Locking discipline -/

/-- What the locks protect. `needs w` are the locks that protect what `w` writes, `Expects s L` says
that `L` are locks under which `s` may be sent, and `Same L` that a holder of `L` cannot tell two
databases apart. -/
structure Discipline (m : System Res ε σ ω κ ρ α) where
  relaxed : (s : Stmt) → σ → Except ε (Res s × List ω)
  needs : ω → List (Lock κ)
  Expects : Stmt → List (Lock κ) → Prop
  Same : List (Lock κ) → σ → σ → Prop
  relax : ∀ {s db x}, m.exec s db = .ok x → relaxed s db = .ok x
  guards : ∀ {s db r ws}, m.exec s db = .ok (r, ws) → ∀ w ∈ ws, needs w ⊆ m.locks s db
  refl : ∀ L db, Same L db db
  trans : ∀ {L db₁ db₂ db₃}, Same L db₁ db₂ → Same L db₂ db₃ → Same L db₁ db₃
  mono : ∀ {L L' db db'}, L ⊆ L' → Same L' db db' → Same L db db'
  own : ∀ {L w db db'}, needs w ⊆ L → Same L db db' → Same L (m.apply w db) (m.apply w db')
  other : ∀ {L w db}, Compatible (needs w) L → Same L db (m.apply w db)

namespace Discipline

variable {m : System Res ε σ ω κ ρ α} (D : Discipline m)

/-- The semantics the replies are compared in. -/
def sem : Sem Res ε σ ω := ⟨D.relaxed, m.apply⟩

/-- The reply `r` to `s` stays the same for a holder of `L`. -/
def Stable (L : List (Lock κ)) (s : Stmt) (r : Res s) : Prop :=
  ∀ db db' ws, D.Same L db db' → D.relaxed s db = .ok (r, ws) → D.relaxed s db' = .ok (r, ws)

theorem Stable.mono {D : Discipline m} {L L' : List (Lock κ)} {s : Stmt} {r : Res s}
    (h : D.Stable L s r) (hL : L ⊆ L') : D.Stable L' s r :=
  fun db db' ws hs => h db db' ws (D.mono hL hs)

/-- **Every reply a program goes on from is protected** by the locks it holds by then, and every
statement is sent under the locks it expects; `Q` is what is known of the result and the locks at the
end. -/
def Guarded {β : Type} : Prog Res ε β → List (Lock κ) → (β → List (Lock κ) → Prop) → Prop
  | .pure b, L, Q => Q b L
  | .throw _, _, _ => True
  | .call s k, L, Q => D.Expects s L ∧
      ∀ db r ws, m.exec s db = .ok (r, ws) → (k r).isThrow = true ∨
        (D.Stable (L ++ m.locks s db) s r ∧ Guarded (k r) (L ++ m.locks s db) Q)

variable {D}

theorem Guarded.bind {β γ : Type} {p : Prog Res ε β} {f : β → Prog Res ε γ} {L : List (Lock κ)}
    {Q : γ → List (Lock κ) → Prop} (h : D.Guarded p L fun b L' => D.Guarded (f b) L' Q) :
    D.Guarded (p >>= f) L Q := by
  induction p generalizing L with
  | pure b => exact h
  | throw e => trivial
  | call s k ih =>
    refine ⟨h.1, fun db r ws hx => ?_⟩
    rcases h.2 db r ws hx with ht | ⟨hst, hg⟩
    · exact Or.inl (Prog.isThrow_bind ht f)
    · exact Or.inr ⟨hst, ih r hg⟩

/-- `p₀` run on `db` under the locks `L` has come to `p` with the writes `log`. -/
inductive Replay (D : Discipline m) (p₀ : Prog Res ε α) (L : List (Lock κ)) (db : σ) :
    Prog Res ε α → List ω → Prop
  | start : Replay D p₀ L db p₀ []
  | call {s k log r ws} (h : Replay D p₀ L db (.call s k) log)
      (hx : D.relaxed s (m.applyAll log db) = .ok (r, ws)) (hst : D.Stable L s r)
      (hw : ∀ w ∈ ws, D.needs w ⊆ L) : Replay D p₀ L db (k r) (log ++ ws)

theorem Replay.mono {p₀ p : Prog Res ε α} {L L' : List (Lock κ)} {db : σ} {log : List ω}
    (h : D.Replay p₀ L db p log) (hL : L ⊆ L') : D.Replay p₀ L' db p log := by
  induction h with
  | start => exact .start
  | call _ hx hst hw ih => exact .call ih hx (hst.mono hL) fun w hm => List.Subset.trans (hw w hm) hL

theorem Replay.needs {p₀ p : Prog Res ε α} {L : List (Lock κ)} {db : σ} {log : List ω}
    (h : D.Replay p₀ L db p log) : ∀ w ∈ log, D.needs w ⊆ L := by
  induction h with
  | start => simp
  | call _ _ _ hw ih => exact fun w hm => (List.mem_append.mp hm).elim (ih w) (hw w)

theorem same_applyAll {L : List (Lock κ)} {ws : List ω} {db db' : σ}
    (hw : ∀ w ∈ ws, D.needs w ⊆ L) (h : D.Same L db db') :
    D.Same L (m.applyAll ws db) (m.applyAll ws db') := by
  induction ws generalizing db db' with
  | nil => exact h
  | cons w ws ih =>
    exact ih (fun w' hm => hw w' (List.mem_cons_of_mem _ hm)) (D.own (hw w (by simp)) h)

/-- **What other transactions commit does not change a replay.** -/
theorem Replay.same {p₀ p : Prog Res ε α} {L : List (Lock κ)} {db db' : σ} {log : List ω}
    (h : D.Replay p₀ L db p log) (hs : D.Same L db db') : D.Replay p₀ L db' p log := by
  induction h with
  | start => exact .start
  | call h hx hst hw ih => exact .call ih (hst _ _ _ (same_applyAll h.needs hs) hx) hst hw

/-- A replayed prefix is a prefix of the run alone. -/
theorem Replay.eval {p₀ p : Prog Res ε α} {L : List (Lock κ)} {db : σ} {log : List ω}
    (h : D.Replay p₀ L db p log) : D.sem.eval p₀ db = D.sem.eval p (m.applyAll log db) := by
  induction h with
  | start => rfl
  | call _ hx _ _ ih =>
    rw [ih]
    simp only [Sem.eval]
    rw [show D.sem.exec = D.relaxed from rfl, hx, m.applyAll_append]
    rfl

/-- What is asserted of the run alone is so of the rest of a replay. -/
theorem Replay.meets {P : Stmt → σ → Prop} {Q : α → σ → Prop} {p₀ p : Prog Res ε α}
    {L : List (Lock κ)} {db : σ} {log : List ω} (h : D.Replay p₀ L db p log)
    (hm : D.sem.Meets P p₀ Q db) : D.sem.Meets P p Q (m.applyAll log db) := by
  induction h with
  | start => exact hm
  | call _ hx _ _ ih =>
    rw [m.applyAll_append]
    exact ih.2 _ _ hx

/-! ### The invariant of the interleavings -/

/-- Each transaction in flight is a replay on the committed database, goes on guarded, and holds
locks compatible with those of the others. -/
structure Inv (D : Discipline m) (c : Config Res ε σ ω κ ρ α) : Prop where
  replay : ∀ {i t}, c.txs i = some t → D.Replay (m.body t.req) t.held c.db t.rest t.log
  guarded : ∀ {i t}, c.txs i = some t → D.Guarded t.rest t.held fun _ _ => True
  compatible : ∀ {i j t t'}, i ≠ j → c.txs i = some t → c.txs j = some t' → Compatible t.held t'.held

theorem inv_idle (db : σ) : D.Inv (Config.idle db) where
  replay h := by cases h
  guarded h := by cases h
  compatible _ h := by cases h

/-- What is found at `j` after transaction `i` is replaced. -/
theorem update_eq_some {β : Type} {f : ℕ → Option β} {i j : ℕ} {v : Option β} {t : β} :
    Function.update f i v j = some t ↔ (j = i ∧ v = some t) ∨ (j ≠ i ∧ f j = some t) := by
  by_cases h : j = i
  · subst h; simp
  · simp [h]

/-- Ending transaction `i` keeps the invariant of the others. -/
theorem Inv.remove {c : Config Res ε σ ω κ ρ α} (h : D.Inv c) (i : ℕ) :
    D.Inv ⟨c.db, Function.update c.txs i none⟩ := by
  have hmem : ∀ {j t}, Function.update c.txs i none j = some t → c.txs j = some t := fun hj =>
    (update_eq_some.mp hj).elim (fun h => by cases h.2) And.right
  exact ⟨fun hj => h.replay (hmem hj), fun hj => h.guarded (hmem hj),
    fun hne hj hj' => h.compatible hne (hmem hj) (hmem hj')⟩

/-- Replacing transaction `i` by one that has the invariant. -/
theorem Inv.update {c : Config Res ε σ ω κ ρ α} (h : D.Inv c) (i : ℕ) {t : Tx Res ε ω κ ρ α}
    (hr : D.Replay (m.body t.req) t.held c.db t.rest t.log)
    (hg : D.Guarded t.rest t.held fun _ _ => True)
    (hc : ∀ {j t'}, j ≠ i → c.txs j = some t' → Compatible t.held t'.held) :
    D.Inv ⟨c.db, Function.update c.txs i (some t)⟩ := by
  refine ⟨fun hj => ?_, fun hj => ?_, fun hne hj hj' => ?_⟩
  · rcases update_eq_some.mp hj with ⟨-, he⟩ | ⟨-, hj⟩
    · cases he; exact hr
    · exact h.replay hj
  · rcases update_eq_some.mp hj with ⟨-, he⟩ | ⟨-, hj⟩
    · cases he; exact hg
    · exact h.guarded hj
  · rcases update_eq_some.mp hj with ⟨rfl, he⟩ | ⟨hji, hold⟩
    · cases he
      rcases update_eq_some.mp hj' with ⟨rfl, -⟩ | ⟨hji', hold'⟩
      · exact absurd rfl hne
      · exact hc hji' hold'
    · rcases update_eq_some.mp hj' with ⟨rfl, he⟩ | ⟨-, hold'⟩
      · cases he; exact (hc hji hold).symm
      · exact h.compatible hne hold hold'

theorem Inv.start {c : Config Res ε σ ω κ ρ α} (h : D.Inv c) (i : ℕ) {q : ρ}
    (hg : D.Guarded (m.body q) [] fun _ _ => True) :
    D.Inv ⟨c.db, Function.update c.txs i (some ⟨q, m.body q, [], []⟩)⟩ :=
  h.update i .start hg fun _ _ l hl => by cases hl

/-- A statement takes its locks and leaves a longer replay. -/
theorem Inv.exec {c : Config Res ε σ ω κ ρ α} (h : D.Inv c) {i : ℕ} {t : Tx Res ε ω κ ρ α} {s : Stmt}
    {k : Res s → Prog Res ε α} {r : Res s} {ws : List ω} (hi : c.txs i = some t)
    (hs : t.rest = .call s k) (hfree : c.Free i (m.locks s (m.view c t)))
    (hx : m.exec s (m.view c t) = .ok (r, ws)) (hk : (k r).isThrow = false) :
    D.Inv ⟨c.db, Function.update c.txs i
      (some ⟨t.req, k r, t.log ++ ws, t.held ++ m.locks s (m.view c t)⟩)⟩ := by
  have hg : D.Guarded (.call s k) t.held fun _ _ => True := hs ▸ h.guarded hi
  obtain ⟨hst, hg'⟩ := (hg.2 _ r ws hx).resolve_left (by simp [hk])
  have hrep : D.Replay (m.body t.req) (t.held ++ m.locks s (m.view c t)) c.db (.call s k) t.log :=
    (hs ▸ h.replay hi).mono (List.subset_append_left _ _)
  refine h.update i (hrep.call (D.relax hx) hst fun w hw => ?_) hg' fun hne hj => ?_
  · exact List.Subset.trans (D.guards hx w hw) (List.subset_append_right _ _)
  · exact (h.compatible hne.symm hi hj).append_left (hfree _ _ hne hj)

theorem same_of_compatible {L : List (Lock κ)} {ws : List ω}
    (h : ∀ w ∈ ws, Compatible (D.needs w) L) (db : σ) : D.Same L db (m.applyAll ws db) := by
  induction ws generalizing db with
  | nil => exact D.refl L db
  | cons w ws ih =>
    exact D.trans (D.other (h w (by simp))) (ih (fun w' hm => h w' (List.mem_cons_of_mem _ hm)) _)

/-- A commit changes nothing that the others have locked. -/
theorem Inv.commit {c : Config Res ε σ ω κ ρ α} (h : D.Inv c) {i : ℕ} {t : Tx Res ε ω κ ρ α}
    (hi : c.txs i = some t) : D.Inv ⟨m.applyAll t.log c.db, Function.update c.txs i none⟩ := by
  have hrem := h.remove i
  refine ⟨fun {j t'} hj => (hrem.replay hj).same (same_of_compatible (fun w hw => ?_) _),
    fun hj => hrem.guarded hj, fun hne hj hj' => hrem.compatible hne hj hj'⟩
  rcases update_eq_some.mp hj with ⟨-, he⟩ | ⟨hji, hj⟩
  · cases he
  · exact (h.compatible hji.symm hi hj).mono ((h.replay hi).needs w hw)

/-- **Every step keeps the invariant.** -/
theorem Inv.step (hbody : ∀ q, D.Guarded (m.body q) [] fun _ _ => True)
    {c c' : Config Res ε σ ω κ ρ α} {l : Label Stmt ε ρ α} (h : D.Inv c) (hstep : m.Step c l c') :
    D.Inv c' := by
  cases hstep with
  | begin hn => exact h.start _ (hbody _)
  | exec hi hs hfree hx hk => exact h.exec hi hs hfree hx hk
  | commit hi hp => exact h.commit hi
  | reject hi he => exact h.remove _
  | abort hi => exact h.remove _

theorem Inv.run (hbody : ∀ q, D.Guarded (m.body q) [] fun _ _ => True)
    {c c' : Config Res ε σ ω κ ρ α} {tr : List (Label Stmt ε ρ α)} (h : D.Inv c)
    (hrun : m.Run c tr c') : D.Inv c' := by
  induction hrun with
  | nil => exact h
  | snoc _ hstep ih => exact ih.step hbody hstep

/-- **A commit is the body run alone** on the database just before it. -/
theorem commit_eval {c c' : Config Res ε σ ω κ ρ α} {i : ℕ} {q : ρ} {a : α} (h : D.Inv c)
    (hstep : m.Step c (.commit i q a) c') : D.sem.eval (m.body q) c.db = .ok (a, c'.db) := by
  cases hstep with
  | commit hi hp =>
    have hrep := h.replay hi
    rw [hp] at hrep
    exact hrep.eval

/-- Only a commit changes the committed database. -/
theorem step_db {c c' : Config Res ε σ ω κ ρ α} {l : Label Stmt ε ρ α} (h : D.Inv c)
    (hstep : m.Step c l c') : c'.db = c.db ∨
      ∃ i q a, l = .commit i q a ∧ D.sem.eval (m.body q) c.db = .ok (a, c'.db) := by
  cases hstep with
  | commit hi hp => exact Or.inr ⟨_, _, _, rfl, commit_eval h (.commit hi hp)⟩
  | begin hn => exact Or.inl rfl
  | exec hi hs hfree hx hk => exact Or.inl rfl
  | reject hi he => exact Or.inl rfl
  | abort hi => exact Or.inl rfl

/-- **What every body run alone preserves holds of every committed database.** -/
theorem run_preserves (D : Discipline m) (hbody : ∀ q, D.Guarded (m.body q) [] fun _ _ => True)
    (I : σ → Prop) (hI : ∀ q a db db', I db → D.sem.eval (m.body q) db = .ok (a, db') → I db')
    {db : σ} {c : Config Res ε σ ω κ ρ α} {tr : List (Label Stmt ε ρ α)} (h : I db)
    (hrun : m.Run (Config.idle db) tr c) : I c.db := by
  induction hrun with
  | nil => exact h
  | snoc hr hstep ih =>
    rcases step_db ((inv_idle (D := D) db).run hbody hr) hstep with he | ⟨i, q, a, -, he⟩
    · rw [he]; exact ih
    · exact hI q a _ _ ih he

end Discipline

/-! ### A transaction in flight after a step -/

/-- **A transaction in flight after a step** has not moved, has begun, or has run a statement. -/
theorem System.Step.tx_cases {m : System Res ε σ ω κ ρ α} {c c' : Config Res ε σ ω κ ρ α}
    {l : Label Stmt ε ρ α} (h : m.Step c l c') {i : ℕ} {t : Tx Res ε ω κ ρ α}
    (hi : c'.txs i = some t) :
    c.txs i = some t ∨ (l = .begin i t.req ∧ t = ⟨t.req, m.body t.req, [], []⟩) ∨
      ∃ t₀ s k r ws, c.txs i = some t₀ ∧ t₀.rest = .call s k ∧
        m.exec s (m.view c t₀) = .ok (r, ws) ∧ (k r).isThrow = false ∧
        t = ⟨t₀.req, k r, t₀.log ++ ws, t₀.held ++ m.locks s (m.view c t₀)⟩ := by
  have hended : ∀ {j}, Function.update c.txs j none i = some t → c.txs i = some t := by
    intro j hj
    rcases Discipline.update_eq_some.mp hj with ⟨-, he⟩ | ⟨-, hold⟩
    · cases he
    · exact hold
  cases h with
  | begin hn =>
    rcases Discipline.update_eq_some.mp hi with ⟨rfl, he⟩ | ⟨-, hold⟩
    · cases he
      exact Or.inr (Or.inl ⟨rfl, rfl⟩)
    · exact Or.inl hold
  | exec hj hs hfree hx hk =>
    rcases Discipline.update_eq_some.mp hi with ⟨rfl, he⟩ | ⟨-, hold⟩
    · cases he
      exact Or.inr (Or.inr ⟨_, _, _, _, _, hj, hs, hx, hk, rfl⟩)
    · exact Or.inl hold
  | commit hj hp => exact Or.inl (hended hi)
  | reject hj he => exact Or.inl (hended hi)
  | abort hj => exact Or.inl (hended hi)

end GameClub.Lib.RowLock
