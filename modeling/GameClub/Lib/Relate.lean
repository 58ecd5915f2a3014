import GameClub.Lib.Await
import GameClub.Lib.Table

/-! # Two programs side by side

Two programs that send related calls, and go on alike with related replies. `S s s' Q` says that the
calls `s` and `s'` may be sent side by side and that `Q` then relates their replies. What the two
programs see may differ where `Q` allows it; what they throw may not.

* `Relates`: the relation, and `bind`, `of_sends`: how it is proved.
* `Relates.serve`: run on related states, related programs end alike on related states.
* `Table.Alike`: two tables whose rows are related one by one. -/

namespace GameClub.Lib

variable {Stmt : Type} {Res : Stmt → Type} {ε σ τ α α' β β' : Type}

/-- Which calls may be sent side by side, and how their replies are then related. -/
abbrev Sides (Res : Stmt → Type) : Type := (s s' : Stmt) → (Res s → Res s' → Prop) → Prop

/-- **Programs side by side**, with results related by `R`. -/
inductive Relates (S : Sides Res) (R : α → α' → Prop) : Prog Res ε α → Prog Res ε α' → Prop
  | pure {a : α} {a' : α'} (h : R a a') : Relates S R (.pure a) (.pure a')
  | throw (e : ε) : Relates S R (.throw e) (.throw e)
  | call {s s' : Stmt} {Q : Res s → Res s' → Prop} {k : Res s → Prog Res ε α}
      {k' : Res s' → Prog Res ε α'} (hs : S s s' Q)
      (hk : ∀ r r', Q r r' → Relates S R (k r) (k' r')) : Relates S R (.call s k) (.call s' k')

namespace Relates

variable {S : Sides Res} {R : α → α' → Prop} {R' : β → β' → Prop}

theorem bind {p : Prog Res ε α} {p' : Prog Res ε α'} {f : α → Prog Res ε β}
    {f' : α' → Prog Res ε β'} (h : Relates S R p p')
    (hf : ∀ a a', R a a' → Relates S R' (f a) (f' a')) : Relates S R' (p >>= f) (p' >>= f') := by
  induction h with
  | pure ha => exact hf _ _ ha
  | throw e => exact .throw e
  | call hs _ ih => exact .call hs fun r r' hr => ih r r' hr

/-- A program beside itself, where its calls may be sent beside themselves. -/
theorem of_sends {C : Stmt → Prop} {p : Prog Res ε α} (hp : p.Sends C)
    (hC : ∀ s, C s → S s s Eq) : Relates S Eq p p := by
  induction p with
  | pure a => exact .pure rfl
  | throw e => exact .throw e
  | call s k ih =>
    refine .call (hC s hp.1) fun r r' hr => ?_
    subst hr
    exact ih r (hp.2 r)

/-- Results related by `R`, or the same error. -/
def Result (R : α → α' → Prop) : Except ε α → Except ε α' → Prop
  | .ok a, .ok a' => R a a'
  | .error e, .error e' => e = e'
  | _, _ => False

theorem Result.refl (x : Except ε α) : Result Eq x x := by
  cases x <;> rfl

theorem Result.bind {x : Except ε α} {x' : Except ε α'} {f : α → Except ε β} {f' : α' → Except ε β'}
    (h : Result R x x') (hf : ∀ a a', R a a' → Result R' (f a) (f' a')) :
    Result R' (x >>= f) (x' >>= f') := by
  cases x with
  | ok a =>
    cases x' with
    | ok a' => exact hf a a' h
    | error e' => exact h.elim
  | error e =>
    cases x' with
    | ok a' => exact h.elim
    | error e' => exact h

/-- **Related programs on related states** end alike, on related states. -/
theorem serve {I : σ → τ → Prop} {answer : (s : Stmt) → σ → Res s × σ}
    {answer' : (s : Stmt) → τ → Res s × τ} (hS : ∀ {s s' Q}, S s s' Q → ∀ {x y}, I x y →
      Q (answer s x).1 (answer' s' y).1 ∧ I (answer s x).2 (answer' s' y).2)
    {p : Prog Res ε α} {p' : Prog Res ε α'} (h : Relates S R p p') {x : σ} {y : τ} (hxy : I x y) :
    Result R (Lib.serve answer p x).1 (Lib.serve answer' p' y).1 ∧
      I (Lib.serve answer p x).2 (Lib.serve answer' p' y).2 := by
  induction h generalizing x y with
  | pure ha => exact ⟨ha, hxy⟩
  | throw e => exact ⟨rfl, hxy⟩
  | call hs _ ih =>
    obtain ⟨hreply, hstate⟩ := hS hs hxy
    exact ih _ _ hreply hstate

end Relates

/-! ### Tables -/

namespace Table

variable {κ : Type} {key : α → κ}

/-- Two tables whose rows are related one by one. -/
def Alike (A : α → α → Prop) (t t' : Table key) : Prop := List.Forall₂ A t.rows t'.rows

variable {A : α → α → Prop} {t t' : Table key}

theorem Alike.rows_map {f : α → β} (h : t.Alike A t') (hf : ∀ x y, A x y → f x = f y) :
    t.rows.map f = t'.rows.map f := by
  have hmap : List.Forall₂ Eq (t.rows.map f) (t'.rows.map f) := List.rel_map hf h
  rwa [List.forall₂_eq_eq_eq] at hmap

/-- A search that does not tell related rows apart. -/
theorem rel_find? {l l' : List α} {p : α → Bool} (h : List.Forall₂ A l l')
    (hp : ∀ x y, A x y → p x = p y) : Option.Rel A (l.find? p) (l'.find? p) := by
  induction h with
  | nil => exact .none
  | cons hxy _ ih =>
    rw [List.find?_cons, List.find?_cons, ← hp _ _ hxy]
    split
    · exact .some hxy
    · exact ih

theorem rel_filter {x y : Option α} {p : α → Bool} (h : Option.Rel A x y)
    (hp : ∀ x y, A x y → p x = p y) : Option.Rel A (x.filter p) (y.filter p) := by
  cases h with
  | none => exact .none
  | @some a b hab =>
    rw [Option.filter_some, Option.filter_some, hp a b hab]
    split
    · exact .some hab
    · exact .none

theorem map_eq_of_rel {x y : Option α} {f : α → β} (h : Option.Rel A x y)
    (hf : ∀ a b, A a b → f a = f b) : x.map f = y.map f := by
  cases h with
  | none => rfl
  | some hab => exact congrArg some (hf _ _ hab)

theorem isSome_eq_of_rel {x y : Option α} (h : Option.Rel A x y) : x.isSome = y.isSome := by
  cases h <;> rfl

theorem rel_or {x y x' y' : Option α} (h : Option.Rel A x y) (h' : Option.Rel A x' y') :
    Option.Rel A (x.or x') (y.or y') := by
  cases h with
  | none => simpa using h'
  | some hab => exact .some hab

variable [DecidableEq κ] (hkey : ∀ x y, A x y → key x = key y)
include hkey

theorem Alike.get? (h : t.Alike A t') (k : κ) : Option.Rel A (t.get? k) (t'.get? k) :=
  rel_find? h fun x y hxy => by rw [hkey x y hxy]

theorem Alike.get?_eq_none (h : t.Alike A t') (k : κ) : t.get? k = none ↔ t'.get? k = none := by
  have hget := h.get? hkey k
  generalize t.get? k = x at hget ⊢
  generalize t'.get? k = y at hget ⊢
  cases hget <;> simp

theorem Alike.insert (h : t.Alike A t') {r r' : α} (hr : A r r') :
    (t.insert r).Alike A (t'.insert r') := by
  have hnone := h.get?_eq_none hkey (key r)
  rw [hkey r r' hr] at hnone
  by_cases hnew : t'.get? (key r') = none
  · have hnew' : t.get? (key r) = none := by
      rw [hkey r r' hr]
      exact hnone.mpr hnew
    unfold Alike
    rw [rows_insert hnew, rows_insert hnew']
    exact List.rel_append h (.cons hr .nil)
  · have hold : t.get? (key r) ≠ none := by
      rw [hkey r r' hr]
      exact fun h => hnew (hnone.mp h)
    rwa [insert_of_mem hnew, insert_of_mem hold]

/-- Related rows are put at one place. -/
theorem Alike.put (h : t.Alike A t') {r r' : α} (hr : A r r') : (t.put r).Alike A (t'.put r') := by
  have hnone := h.get?_eq_none hkey (key r)
  have hset : (t.set r).Alike A (t'.set r') := by
    unfold Alike
    rw [rows_set, rows_set]
    refine List.rel_map (fun x y hxy => ?_) h
    rw [hkey x y hxy, hkey r r' hr]
    split_ifs
    · exact hr
    · exact hxy
  have hinsert := h.insert hkey hr
  rw [Table.put, Table.put, ← hkey r r' hr]
  by_cases hnew : t.get? (key r) = none
  · rwa [if_pos hnew, if_pos (hnone.mp hnew)]
  · rwa [if_neg hnew, if_neg fun h => hnew (hnone.mpr h)]

end Table

end GameClub.Lib
