import GameClub.Lib.Interleave

/-! # Programs and what is past

Programs run side by side. What a program has read may no longer be so when it makes its next call,
but that it once was so stays true. A `Law` says what a call needs of the calls before it, those of
all the programs.

* `Law.Heeds`: a program makes only calls the law allows, whatever the others do in between, and
  `heeds_bind`, `heeds_ask`, `heeds_tryCatch`: how programs compose.
* `Law.run`: where the program of every request heeds the law of the request, every call of a run is
  one that its request may make.
* `past_of_sends`: the same where what is asked of a call does not depend on the past. -/

namespace GameClub.Lib.Interleave

variable {Stmt : Type} {Res : Stmt → Type} {σ Req ε α β : Type}

/-- The calls that have been made, each with the state it was made on; the last one first. -/
abbrev Past (Stmt σ : Type) := List (Stmt × σ)

/-- **What is asked of calls**: what a call needs of the past. -/
structure Law (Res : Stmt → Type) (σ : Type) where
  exec : (s : Stmt) → σ → Res s × σ
  needs : Past Stmt σ → Stmt → Prop

namespace Law

variable {L : Law Res σ} {h h' : Past Stmt σ}

/-- **A program heeds the law** after the past `h`: whatever has been called when it makes a call, the
call is one it may make; and its result meets `Q`. -/
def Heeds (L : Law Res σ) : Prog Res ε α → (α → Past Stmt σ → Prop) → Past Stmt σ → Prop
  | .pure a, Q, h => Q a h
  | .throw _, _, _ => True
  | .call s k, Q, h => ∀ h' w, h <:+ h' →
      L.needs h' s ∧ L.Heeds (k (L.exec s w).1) Q ((s, w) :: h')

theorem Heeds.mono {p : Prog Res ε α} {Q Q' : α → Past Stmt σ → Prop} (hp : L.Heeds p Q h)
    (hQ : ∀ a h', h <:+ h' → Q a h' → Q' a h') : L.Heeds p Q' h := by
  induction p generalizing h with
  | pure a => exact hQ a h (List.suffix_refl h) hp
  | throw e => trivial
  | call s k ih =>
    intro h' w hsuffix
    obtain ⟨hneeds, hrest⟩ := hp h' w hsuffix
    exact ⟨hneeds, ih _ hrest fun a h'' hlater =>
      hQ a h'' (hsuffix.trans ((List.suffix_cons ..).trans hlater))⟩

/-- The others may have made calls before the program goes on. -/
theorem Heeds.later {p : Prog Res ε α} {Q : α → Past Stmt σ → Prop} (hp : L.Heeds p Q h)
    (hlater : h <:+ h') (hQ : ∀ a, Q a h → Q a h') : L.Heeds p Q h' := by
  cases p with
  | pure a => exact hQ a hp
  | throw e => trivial
  | call s k => exact fun h'' w hsuffix => hp h'' w (hlater.trans hsuffix)

theorem heeds_bind {p : Prog Res ε α} {f : α → Prog Res ε β} {Q : β → Past Stmt σ → Prop}
    (hp : L.Heeds p (fun a h' => L.Heeds (f a) Q h') h) : L.Heeds (p >>= f) Q h := by
  induction p generalizing h with
  | pure a => exact hp
  | throw e => trivial
  | call s k ih =>
    intro h' w hsuffix
    obtain ⟨hneeds, hrest⟩ := hp h' w hsuffix
    exact ⟨hneeds, ih _ hrest⟩

theorem heeds_tryCatch {p : Prog Res ε α} {f : ε → Prog Res ε α} {Q : α → Past Stmt σ → Prop}
    (hp : L.Heeds p Q h) (hf : ∀ e h', L.Heeds (f e) Q h') : L.Heeds (p.tryCatch f) Q h := by
  induction p generalizing h with
  | pure a => exact hp
  | throw e => exact hf e h
  | call s k ih =>
    intro h' w hsuffix
    obtain ⟨hneeds, hrest⟩ := hp h' w hsuffix
    exact ⟨hneeds, ih _ hrest⟩

theorem heeds_lift {x : Except ε α} {Q : α → Past Stmt σ → Prop} (hQ : ∀ a, x = .ok a → Q a h) :
    L.Heeds (liftM x : Prog Res ε α) Q h := by
  cases x with
  | ok a => exact hQ a rfl
  | error e => trivial

/-- A program whose calls need nothing. -/
theorem heeds_of_sends {A : Stmt → Prop} {p : Prog Res ε α} {Q : α → Past Stmt σ → Prop}
    (hp : p.Sends A) (hA : ∀ h s, A s → L.needs h s) (hQ : ∀ a h', h <:+ h' → Q a h') :
    L.Heeds p Q h := by
  induction p generalizing h with
  | pure a => exact hQ a h (List.suffix_refl h)
  | throw e => trivial
  | call s k ih =>
    exact fun h' w hsuffix => ⟨hA h' s hp.1, ih _ (hp.2 _) fun a h'' hlater =>
      hQ a h'' (hsuffix.trans ((List.suffix_cons ..).trans hlater))⟩

/-- A call whose reply may be thrown. -/
theorem heeds_ask {s : Stmt} {f : Res s → Except ε α} {Q : α → Past Stmt σ → Prop}
    (hs : ∀ h' w, h <:+ h' → L.needs h' s ∧
      ∀ a, f (L.exec s w).1 = .ok a → Q a ((s, w) :: h')) :
    L.Heeds (.call s fun r => liftM (f r) : Prog Res ε α) Q h := by
  intro h' w hsuffix
  obtain ⟨hneeds, hok⟩ := hs h' w hsuffix
  exact ⟨hneeds, heeds_lift hok⟩

end Law

/-! ### Runs -/

/-- The call of a program, with the state it is made on. -/
def moment : Event σ Req (Except ε α) (Prog Res ε α) → Option (Stmt × σ)
  | .called _ (.call s _) db => some (s, db)
  | _ => none

/-- The calls of a run. -/
def past (tr : List (Event σ Req (Except ε α) (Prog Res ε α))) : Past Stmt σ := tr.filterMap moment

/-- The request that is in flight at `i`. -/
def serving (i : ℕ) : List (Event σ Req (Except ε α) (Prog Res ε α)) → Option Req
  | [] => none
  | .arrived j q :: tr => if j = i then some q else serving i tr
  | .left j _ _ :: tr => if j = i then none else serving i tr
  | _ :: tr => serving i tr

/-- The request `i` makes the call `s` after the events `earlier`. -/
def CalledAfter (tr earlier : List (Event σ Req (Except ε α) (Prog Res ε α))) (i : ℕ)
    (s : Stmt) : Prop := ∃ later k w, tr = later ++ .called i (.call s k) w :: earlier

/-- The system runs programs, and that of a request heeds the law of the request. -/
structure Law.Governs (L : Req → Law Res σ)
    (S : System Res σ Req (Except ε α) (Prog Res ε α)) : Prop where
  exec : ∀ q, S.exec = (L q).exec
  view : S.view = progView
  start : ∀ q h, (L q).Heeds (S.start q) (fun _ _ => True) h

/-- **What is known of a run**: what is in flight heeds the law of its request, and every call was one
that the request may make. -/
structure Law.Obeyed (L : Req → Law Res σ)
    (tr : List (Event σ Req (Except ε α) (Prog Res ε α))) (c : Config σ (Prog Res ε α)) : Prop where
  threads : ∀ i p, c.threads i = some p →
    ∃ q, serving i tr = some q ∧ (L q).Heeds p (fun _ _ => True) (past tr)
  needs : ∀ earlier i s, CalledAfter tr earlier i s →
    ∃ q, serving i earlier = some q ∧ (L q).needs (past earlier) s

variable {L : Req → Law Res σ} {S : System Res σ Req (Except ε α) (Prog Res ε α)}
  {c c' : Config σ (Prog Res ε α)} {tr : List (Event σ Req (Except ε α) (Prog Res ε α))}
  {e : Event σ Req (Except ε α) (Prog Res ε α)}

/-- A call of the past was made by a request. -/
theorem called_of_past {later earlier : Past Stmt σ} {s : Stmt} {w : σ}
    (hpast : past tr = later ++ (s, w) :: earlier) :
    ∃ before i, CalledAfter tr before i s ∧ past before = earlier := by
  obtain ⟨after, rest, rfl, -, hrest⟩ := List.filterMap_eq_append_iff.mp hpast
  obtain ⟨quiet, e, before, rfl, -, hmoment, hbefore⟩ := List.filterMap_eq_cons_iff.mp hrest
  cases e with
  | called i p w' =>
    cases p with
    | call s' k =>
      cases hmoment
      exact ⟨before, i, ⟨after ++ quiet, k, w, (List.append_assoc ..).symm⟩, hbefore⟩
    | _ => cases hmoment
  | _ => cases hmoment

theorem CalledAfter.suffix {earlier : List (Event σ Req (Except ε α) (Prog Res ε α))} {i : ℕ}
    {s : Stmt} (h : CalledAfter tr earlier i s) : earlier <:+ tr := by
  obtain ⟨later, k, w, rfl⟩ := h
  exact (List.suffix_cons ..).trans (List.suffix_append ..)

/-- A call of the events is the last one, or an earlier one. -/
theorem CalledAfter.of_cons {earlier : List (Event σ Req (Except ε α) (Prog Res ε α))} {i : ℕ}
    {s : Stmt} (h : CalledAfter (e :: tr) earlier i s) :
    (∃ k w, e = .called i (.call s k) w ∧ earlier = tr) ∨ CalledAfter tr earlier i s := by
  obtain ⟨later, k, w, heq⟩ := h
  rcases later with _ | ⟨x, later⟩
  · exact Or.inl ⟨k, w, (List.cons.inj heq).1, (List.cons.inj heq).2.symm⟩
  · exact Or.inr ⟨later, k, w, (List.cons.inj heq).2⟩

/-- An event that is no call needs nothing. -/
theorem Law.Obeyed.needs_cons (hc : Law.Obeyed L tr c) (he : ∀ i p w, e ≠ .called i p w) :
    ∀ earlier i s, CalledAfter (e :: tr) earlier i s →
      ∃ q, serving i earlier = some q ∧ (L q).needs (past earlier) s := by
  intro earlier i s hcalled
  rcases hcalled.of_cons with ⟨k, w, heq, -⟩ | hold
  · exact absurd heq (he i _ w)
  · exact hc.needs earlier i s hold

/-- Every call of the past is one that some request might make. -/
theorem Law.Obeyed.needs_past (hc : Law.Obeyed L tr c) {later earlier : Past Stmt σ} {s : Stmt} {w : σ}
    (hpast : past tr = later ++ (s, w) :: earlier) : ∃ q, (L q).needs earlier s := by
  obtain ⟨before, i, hcalled, rfl⟩ := called_of_past hpast
  obtain ⟨q, -, hneeds⟩ := hc.needs before i s hcalled
  exact ⟨q, hneeds⟩

theorem Law.Obeyed.step (hL : Law.Governs L S) (hc : Law.Obeyed L tr c) (hs : S.Step c e c') :
    Law.Obeyed L (e :: tr) c' := by
  cases hs with
  | @arrive i q hi =>
    refine ⟨fun j p hj => ?_, hc.needs_cons fun _ _ _ h => nomatch h⟩
    rcases Config.of_put hj with ⟨rfl, heq⟩ | ⟨hne, hold⟩
    · cases heq
      exact ⟨q, if_pos rfl, hL.start q _⟩
    · obtain ⟨q', hq', hheeds⟩ := hc.threads j p hold
      exact ⟨q', (if_neg (Ne.symm hne)).trans hq', hheeds⟩
  | @call i p s k hi hv =>
    rw [hL.view] at hv
    cases p with
    | pure a => cases hv
    | throw err => cases hv
    | call s' k' =>
      cases hv
      have hpast : past (Event.called i (.call s k) c.db :: tr) = (s, c.db) :: past tr := rfl
      obtain ⟨q, hq, hheeds⟩ := hc.threads i _ hi
      obtain ⟨hneeds, hrest⟩ := hheeds (past tr) c.db (List.suffix_refl _)
      refine ⟨fun j p hj => ?_, fun earlier j s' hcalled => ?_⟩
      · rw [hpast]
        rcases Config.of_put hj with ⟨rfl, heq⟩ | ⟨-, hold⟩
        · cases heq
          exact ⟨q, hq, by rw [hL.exec q]; exact hrest⟩
        · obtain ⟨q', hq', hheeds'⟩ := hc.threads j p hold
          exact ⟨q', hq', hheeds'.later (List.suffix_cons ..) fun _ _ => trivial⟩
      · rcases hcalled.of_cons with ⟨k', w, heq, rfl⟩ | hold
        · cases heq
          exact ⟨q, hq, hneeds⟩
        · exact hc.needs earlier j s' hold
  | @leave i p r hi hv =>
    refine ⟨fun j p' hj => ?_, hc.needs_cons fun _ _ _ h => nomatch h⟩
    rcases Config.of_put hj with ⟨-, heq⟩ | ⟨hne, hold⟩
    · cases heq
    · obtain ⟨q, hq, hheeds⟩ := hc.threads j p' hold
      exact ⟨q, (if_neg (Ne.symm hne)).trans hq, hheeds⟩
  | pass n => exact ⟨hc.threads, hc.needs_cons fun _ _ _ h => nomatch h⟩

/-- **Every call of a run is one that its request may make.** -/
theorem Law.run (hL : Law.Governs L S) {w : σ} {A : Config σ (Prog Res ε α) →
    Event σ Req (Except ε α) (Prog Res ε α) → Prop} (hrun : S.Run A (.idle w) tr c) :
    Law.Obeyed L tr c :=
  hrun.invariant (I := fun tr c => Law.Obeyed L tr c)
    ⟨fun i p hi => (nomatch hi), fun earlier i s h => absurd h.choose_spec (by simp)⟩
    fun hc hs _ => hc.step hL hs

/-- **What all programs send**: if they send calls of `A` only, every call of a run is one. -/
theorem past_of_sends {w : σ} {A : Stmt → Prop} {B : Config σ (Prog Res ε α) →
    Event σ Req (Except ε α) (Prog Res ε α) → Prop} (hview : S.view = progView)
    (hstart : ∀ q, (S.start q).Sends A) (hrun : S.Run B (.idle w) tr c) : ∀ m ∈ past tr, A m.1 := by
  have hgoverns : Law.Governs (fun _ => Law.mk S.exec fun _ s => A s) S :=
    ⟨fun _ => rfl, hview,
      fun q h => Law.heeds_of_sends (hstart q) (fun _ _ hs => hs) fun _ _ _ => trivial⟩
  intro m hm
  obtain ⟨later, earlier, heq⟩ := List.append_of_mem hm
  obtain ⟨-, hneeds⟩ := (Law.run hgoverns hrun).needs_past heq
  exact hneeds

end GameClub.Lib.Interleave
