import Mathlib.Logic.Basic
import Mathlib.Data.List.Induction
import Mathlib.Tactic.Common

/-! # Load, then save

Two operations on one store. Each loads an entity, checks it, and saves it, and between two of these
the other one may act. What was loaded may be stale when it is saved.

* `Operation.alone`: an operation that nothing comes between.
* `unsaved`, `run_alone`: the store before the first save and after the second operation.
* `Patches.kept_iff`: what a patch writes back as it was loaded is kept unless the other operation
  came in between. -/

namespace GameClub.Lib.LoadSave

/-- An operation: `load`, `check` and `save` read the store of their moment. -/
structure Operation (ε σ : Type) where
  Entity : Type
  load : σ → Except ε Entity
  check : Entity → σ → Except ε Unit
  save : Entity → σ → Except ε σ

variable {ε σ α : Type}

/-- Nothing comes between. -/
def Operation.alone (U : Operation ε σ) (s : σ) : Except ε σ := do
  let e ← U.load s
  U.check e s
  U.save e s

/-- Where an operation is. -/
inductive Phase (U : Operation ε σ)
  | ready
  | loaded (e : U.Entity)
  | checked (e : U.Entity)
  | returned
  | rejected (x : ε)

/-- The next step of an operation. -/
def Phase.next {U : Operation ε σ} : Phase U → σ → Phase U × σ
  | .ready, s =>
    match U.load s with
    | .ok e => (.loaded e, s)
    | .error x => (.rejected x, s)
  | .loaded e, s =>
    match U.check e s with
    | .ok _ => (.checked e, s)
    | .error x => (.rejected x, s)
  | .checked e, s =>
    match U.save e s with
    | .ok s' => (.returned, s')
    | .error x => (.rejected x, s)
  | .returned, s => (.returned, s)
  | .rejected x, s => (.rejected x, s)

/-- **What a step can do.** -/
inductive Phase.Step {U : Operation ε σ} : Phase U → σ → Phase U → σ → Prop
  | load {s : σ} {e : U.Entity} (h : U.load s = .ok e) : Step .ready s (.loaded e) s
  | check {s : σ} {e : U.Entity} : Step (.loaded e) s (.checked e) s
  | save {s s' : σ} {e : U.Entity} (h : U.save e s = .ok s') : Step (.checked e) s .returned s'
  | reject {p : Phase U} {s : σ} {x : ε} (h : p ≠ .returned) : Step p s (.rejected x) s
  | rest {s : σ} : Step .returned s .returned s

theorem Phase.next_step {U : Operation ε σ} (p : Phase U) (s : σ) :
    p.Step s (p.next s).1 (p.next s).2 := by
  cases p with
  | ready =>
    rcases h : U.load s with x | e <;> simp only [Phase.next, h]
    · exact .reject nofun
    · exact .load h
  | loaded e =>
    rcases h : U.check e s with x | u <;> simp only [Phase.next, h]
    · exact .reject nofun
    · exact .check
  | checked e =>
    rcases h : U.save e s with x | s' <;> simp only [Phase.next, h]
    · exact .reject nofun
    · exact .save h
  | returned => exact .rest
  | rejected x => exact .reject nofun

inductive Party
  | first
  | second
deriving DecidableEq

/-- The two operations under way, and the store. -/
structure Config (U O : Operation ε σ) where
  first : Phase U
  second : Phase O
  store : σ

variable {U O : Operation ε σ}

namespace Config

/-- Both operations are called on `s`. -/
def start (U O : Operation ε σ) (s : σ) : Config U O := ⟨.ready, .ready, s⟩

/-- One of them takes its next step. -/
def turn (c : Config U O) : Party → Config U O
  | .first => { c with first := (c.first.next c.store).1, store := (c.first.next c.store).2 }
  | .second => { c with second := (c.second.next c.store).1, store := (c.second.next c.store).2 }

/-- They take their steps in the order of `turns`. -/
def run (c : Config U O) (turns : List Party) : Config U O := turns.foldl turn c

theorem run_append (c : Config U O) (turns turns' : List Party) :
    c.run (turns ++ turns') = (c.run turns).run turns' := List.foldl_append ..

theorem run_concat (c : Config U O) (turns : List Party) (p : Party) :
    c.run (turns ++ [p]) = (c.run turns).turn p := run_append c turns [p]

end Config

/-- The entity is loaded and not saved yet. -/
def Phase.Holds (e : U.Entity) (p : Phase U) : Prop := p = .loaded e ∨ p = .checked e

/-! ### Before the first save -/

/-- Until one of them has saved, the store is the one both were called on. -/
structure Unsaved (s : σ) (c : Config U O) : Prop where
  store : c.store = s
  loaded : ∀ e, c.first.Holds e → U.load s = .ok e

namespace Phase

variable {p p' : Phase U} {s s' : σ}

/-- Only a save changes the store. -/
theorem Step.store (h : p.Step s p' s') (hp : p' ≠ .returned) : s' = s := by
  cases h with
  | save _ => exact absurd rfl hp
  | _ => rfl

/-- An operation that has returned stays so. -/
theorem Step.returned (h : p.Step s p' s') (hp : p = .returned) : p' = .returned ∧ s' = s := by
  cases h with
  | reject hne => exact absurd hp hne
  | rest => exact ⟨rfl, rfl⟩
  | _ => cases hp

theorem Step.holds (h : p.Step s p' s') {e : U.Entity} (hp : p'.Holds e) :
    p.Holds e ∨ U.load s = .ok e := by
  cases h with
  | load h =>
    rcases hp with hp | hp
    · cases hp
      exact Or.inr h
    · cases hp
  | check =>
    rcases hp with hp | hp
    · cases hp
    · cases hp
      exact Or.inl (Or.inl rfl)
  | _ => rcases hp with hp | hp <;> cases hp

end Phase

/-- **The store changes with the first save.** By induction on the turns, the last one first. -/
theorem unsaved {s : σ} {turns : List Party}
    (hfirst : ((Config.start U O s).run turns).first ≠ .returned)
    (hsecond : ((Config.start U O s).run turns).second ≠ .returned) :
    Unsaved s ((Config.start U O s).run turns) := by
  induction turns using List.reverseRecOn with
  | nil =>
    refine ⟨rfl, fun e he => ?_⟩
    rcases he with he | he <;> cases he
  | append_singleton turns p ih =>
    rw [Config.run_concat] at hfirst hsecond ⊢
    set c := (Config.start U O s).run turns
    cases p with
    | first =>
      have hstep := c.first.next_step c.store
      have hprev := ih (fun heq => hfirst (hstep.returned heq).1) hsecond
      have hstore : (c.turn .first).store = c.store := hstep.store hfirst
      refine ⟨hstore.trans hprev.store, fun e he => ?_⟩
      rcases hstep.holds he with he | he
      · exact hprev.loaded e he
      · rw [← hprev.store]
        exact he
    | second =>
      have hstep := c.second.next_step c.store
      have hprev := ih hfirst fun heq => hsecond (hstep.returned heq).1
      have hstore : (c.turn .second).store = c.store := hstep.store hsecond
      exact ⟨hstore.trans hprev.store, hprev.loaded⟩

/-! ### After the second operation has saved -/

/-- What the first operation saves if it goes on from a phase on the store `s`. -/
def Phase.Pending (s : σ) (e : U.Entity) : Phase U → Prop
  | .ready => U.load s = .ok e
  | .loaded e' | .checked e' => e' = e
  | .returned | .rejected _ => False

/-- **Once the second operation has returned** the first one is alone. By induction on the turns. -/
theorem run_alone {c : Config U O} {turns : List Party} (hsecond : c.second = .returned)
    (hfirst : (c.run turns).first = .returned) :
    (c.first = .returned ∧ (c.run turns).store = c.store) ∨
    ∃ e, c.first.Pending c.store e ∧ U.save e c.store = .ok (c.run turns).store := by
  induction turns generalizing c with
  | nil => exact Or.inl ⟨hfirst, rfl⟩
  | cons p turns ih =>
    cases p with
    | second =>
      have hrest := (c.second.next_step c.store).returned hsecond
      have hturn : c.turn .second = c := by
        obtain ⟨p, q, s⟩ := c
        simp only [Config.turn, hrest.1, hrest.2]
        exact congrArg (Config.mk p · s) hsecond.symm
      change ((c.turn .second).run turns).first = .returned at hfirst
      rw [hturn] at hfirst
      have hrun : c.run (.second :: turns) = c.run turns := congrArg (Config.run · turns) hturn
      rw [hrun]
      exact ih hsecond hfirst
    | first =>
      have hlater := ih (c := c.turn .first) hsecond hfirst
      have hrun : c.run (.first :: turns) = (c.turn .first).run turns := rfl
      have hstep := c.first.next_step c.store
      rw [hrun]
      change ((c.first.next c.store).1 = .returned ∧ _ = (c.first.next c.store).2) ∨
        (∃ e, (c.first.next c.store).1.Pending (c.first.next c.store).2 e ∧
          U.save e (c.first.next c.store).2 = _) at hlater
      generalize (c.first.next c.store).1 = p' at hstep hlater
      generalize (c.first.next c.store).2 = s' at hstep hlater
      generalize c.first = p at hstep ⊢
      generalize c.store = s at hstep ⊢
      cases hstep with
      | load h =>
        rcases hlater with ⟨hret, -⟩ | ⟨e', rfl, hsave⟩
        · cases hret
        · exact Or.inr ⟨_, h, hsave⟩
      | check =>
        rcases hlater with ⟨hret, -⟩ | ⟨e', rfl, hsave⟩
        · cases hret
        · exact Or.inr ⟨_, rfl, hsave⟩
      | save h =>
        rcases hlater with ⟨-, hstore⟩ | ⟨e', hpend, -⟩
        · exact Or.inr ⟨_, rfl, by rw [hstore]; exact h⟩
        · exact hpend.elim
      | reject _ =>
        rcases hlater with ⟨hret, -⟩ | ⟨e', hpend, -⟩
        · cases hret
        · exact hpend.elim
      | rest =>
        rcases hlater with ⟨-, hstore⟩ | ⟨e', hpend, -⟩
        · exact Or.inl ⟨rfl, hstore⟩
        · exact hpend.elim

/-! ### The two together -/

section

variable (U O) (s : σ) (before later : List Party)

/-- The store when the second operation takes its next step after `before`. -/
def storeBefore : σ := ((Config.start U O s).run before).store

/-- The store after this step. -/
def storeAfter : σ := ((Config.start U O s).run (before ++ [.second])).store

/-- The store at the end. -/
def storeFinal : σ := ((Config.start U O s).run (before ++ .second :: later)).store

/-- **The second operation returns** with its step after `before`, and the first one by the end. -/
structure Both : Prop where
  waiting : ((Config.start U O s).run before).second ≠ .returned
  second : ((Config.start U O s).run (before ++ [.second])).second = .returned
  first : ((Config.start U O s).run (before ++ .second :: later)).first = .returned

/-- The first operation has loaded and not saved after `before`. -/
def Overtaken : Prop := ∃ e, ((Config.start U O s).run before).first.Holds e

end

variable {s : σ} {before later : List Party}

/-- The first operation after the second one has returned. -/
theorem Both.alone (h : Both U O s before later) :
    (((Config.start U O s).run before).first = .returned ∧
      storeFinal U O s before later = storeAfter U O s before) ∨
    ∃ e, ((Config.start U O s).run before).first.Pending (storeAfter U O s before) e ∧
      U.save e (storeAfter U O s before) = .ok (storeFinal U O s before later) := by
  have hfinal : (Config.start U O s).run (before ++ .second :: later) =
      ((Config.start U O s).run (before ++ [.second])).run later := by
    rw [← Config.run_append, List.append_assoc]
    rfl
  have hturn := Config.run_concat (Config.start U O s) before .second
  have hfirst : ((Config.start U O s).run (before ++ [.second])).first =
      ((Config.start U O s).run before).first := by rw [hturn]; rfl
  have hover := h.first
  rw [hfinal] at hover
  have halone := run_alone h.second hover
  unfold storeFinal storeAfter
  rw [hfinal]
  rw [hfirst] at halone
  exact halone

/-- The first operation was called on the store the second one saves to. -/
theorem Both.overtaken (h : Both U O s before later) {e : U.Entity}
    (he : ((Config.start U O s).run before).first.Holds e) :
    U.load (storeBefore U O s before) = .ok e := by
  have hfirst : ((Config.start U O s).run before).first ≠ .returned := fun heq => by
    rcases he with he | he <;> rw [heq] at he <;> cases he
  have hun := unsaved hfirst h.waiting
  unfold storeBefore
  rw [hun.store]
  exact hun.loaded e he

/-- **Where the first operation was** when the second one returned: over, not yet at its load, or
past it with what is stale now. -/
theorem Both.cases (h : Both U O s before later) :
    (¬ Overtaken U O s before ∧
      (storeFinal U O s before later = storeAfter U O s before ∨
        ∃ e, U.load (storeAfter U O s before) = .ok e ∧
          U.save e (storeAfter U O s before) = .ok (storeFinal U O s before later))) ∨
    (Overtaken U O s before ∧ ∃ e, U.load (storeBefore U O s before) = .ok e ∧
      U.save e (storeAfter U O s before) = .ok (storeFinal U O s before later)) := by
  have hno : ∀ p, (∀ e, ¬ Phase.Holds e p) → ((Config.start U O s).run before).first = p →
      ¬ Overtaken U O s before := fun p hp heq ⟨e, he⟩ => hp e (heq ▸ he)
  rcases h.alone with ⟨hret, hstore⟩ | ⟨e, hpend, hsave⟩
  · exact Or.inl ⟨hno _ (fun e he => by rcases he with he | he <;> cases he) hret, Or.inl hstore⟩
  · cases hp : ((Config.start U O s).run before).first with
    | ready =>
      rw [hp] at hpend
      have hover := hno _ (fun e he => by rcases he with he | he <;> cases he) hp
      exact Or.inl ⟨hover, Or.inr ⟨e, hpend, hsave⟩⟩
    | loaded e' =>
      rw [hp] at hpend
      obtain rfl : e' = e := hpend
      have he : Phase.Holds e' ((Config.start U O s).run before).first := Or.inl hp
      exact Or.inr ⟨⟨e', he⟩, e', h.overtaken he, hsave⟩
    | checked e' =>
      rw [hp] at hpend
      obtain rfl : e' = e := hpend
      have he : Phase.Holds e' ((Config.start U O s).run before).first := Or.inr hp
      exact Or.inr ⟨⟨e', he⟩, e', h.overtaken he, hsave⟩
    | returned =>
      rw [hp] at hpend
      exact hpend.elim
    | rejected x =>
      rw [hp] at hpend
      exact hpend.elim

/-- **In every run where both return** the second operation returns with one of the turns. -/
theorem exists_both {turns : List Party}
    (hfirst : ((Config.start U O s).run turns).first = .returned)
    (hsecond : ((Config.start U O s).run turns).second = .returned) :
    ∃ before later, turns = before ++ .second :: later ∧ Both U O s before later := by
  have hsplit : ∃ before later, turns = before ++ .second :: later ∧
      ((Config.start U O s).run before).second ≠ .returned ∧
      ((Config.start U O s).run (before ++ [.second])).second = .returned := by
    clear hfirst
    induction turns using List.reverseRecOn with
    | nil => cases hsecond
    | append_singleton turns p ih =>
      by_cases hprev : ((Config.start U O s).run turns).second = .returned
      · obtain ⟨before, later, rfl, hwait, hret⟩ := ih hprev
        exact ⟨before, later ++ [p], by simp, hwait, hret⟩
      · cases p with
        | first =>
          rw [Config.run_concat] at hsecond
          exact absurd hsecond hprev
        | second => exact ⟨turns, [], rfl, hprev, hsecond⟩
  obtain ⟨before, later, rfl, hwait, hret⟩ := hsplit
  exact ⟨before, later, rfl, hwait, hret, hfirst⟩

/-! ### Patches of a row -/

section

variable {ρ κ : Type} {V : κ → Type} {row : σ → Option ρ} {column : (c : κ) → ρ → V c}
  {named untouched : κ → Prop}

/-- **The save of a patch**: a column that is not named is as it was loaded, or untouched. -/
structure Patches (U : Operation ε σ) (row : σ → Option ρ) (column : (c : κ) → ρ → V c)
    (named untouched : κ → Prop) : Prop where
  saved : ∀ {e : U.Entity} {s s₁ s₂ : σ} {r₁ : ρ}, U.load s = .ok e → U.save e s₁ = .ok s₂ →
    row s₁ = some r₁ → ∃ r r₂, row s = some r ∧ row s₂ = some r₂ ∧ ∀ c, ¬ named c →
      (untouched c → column c r₂ = column c r₁) ∧ (¬ untouched c → column c r₂ = column c r)

/-- The second operation, when it returns, has changed the column `c` of the row. -/
def Changes (U O : Operation ε σ) (s : σ) (before : List Party) (row : σ → Option ρ)
    (column : (c : κ) → ρ → V c) (c : κ) : Prop :=
  ∃ r r', row (storeBefore U O s before) = some r ∧ row (storeAfter U O s before) = some r' ∧
    column c r' ≠ column c r

/-- At the end the column `c` of the row is as the second operation has left it. -/
def Kept (U O : Operation ε σ) (s : σ) (before later : List Party) (row : σ → Option ρ)
    (column : (c : κ) → ρ → V c) (c : κ) : Prop :=
  ∃ r' r'', row (storeAfter U O s before) = some r' ∧
    row (storeFinal U O s before later) = some r'' ∧ column c r'' = column c r'

/-- **A change of a column that is not named is kept** exactly when the save does not touch the
column or the second operation has not come in between. -/
theorem Patches.kept_iff (hU : Patches U row column named untouched)
    (h : Both U O s before later) {c : κ} (hc : ¬ named c)
    (hchange : Changes U O s before row column c) :
    Kept U O s before later row column c ↔ untouched c ∨ ¬ Overtaken U O s before := by
  obtain ⟨r, r', hbefore, hafter, hne⟩ := hchange
  rcases h.cases with ⟨hnot, hstore | ⟨e, hload, hsave⟩⟩ | ⟨hover, e, hload, hsave⟩
  · have hsame : row (storeFinal U O s before later) = some r' := by rw [hstore]; exact hafter
    exact ⟨fun _ => Or.inr hnot, fun _ => ⟨r', r', hafter, hsame, rfl⟩⟩
  · -- loaded after the change: written back or not, it is the changed value
    obtain ⟨r₀, r₂, hr₀, hr₂, hcolumns⟩ := hU.saved hload hsave hafter
    obtain rfl : r' = r₀ := Option.some.inj (hafter.symm.trans hr₀)
    have hkept : column c r₂ = column c r' := by
      by_cases hun : untouched c
      · exact (hcolumns c hc).1 hun
      · exact (hcolumns c hc).2 hun
    exact ⟨fun _ => Or.inr hnot, fun _ => ⟨r', r₂, hafter, hr₂, hkept⟩⟩
  · obtain ⟨r₀, r₂, hr₀, hr₂, hcolumns⟩ := hU.saved hload hsave hafter
    obtain rfl : r = r₀ := Option.some.inj (hbefore.symm.trans hr₀)
    constructor
    · rintro ⟨r₁, r'', heq₁, heq, hkept⟩
      obtain rfl : r' = r₁ := Option.some.inj (hafter.symm.trans heq₁)
      obtain rfl : r₂ = r'' := Option.some.inj (hr₂.symm.trans heq)
      by_contra hno
      have hback := (hcolumns c hc).2 fun hun => hno (Or.inl hun)
      exact hne (hkept.symm.trans hback)
    · rintro (hun | hnot)
      · exact ⟨r', r₂, hafter, hr₂, (hcolumns c hc).1 hun⟩
      · exact absurd hover hnot

end

end GameClub.Lib.LoadSave
