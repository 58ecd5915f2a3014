import GameClub.Lib.Past

/-! # A journal of requests

Some calls of the programs that run side by side leave an entry, which may hold the reply. What a
request has left when it is over is known from its program alone; what is left by all of them is that
of the requests taken together.

* `Journal.Leaves`: on every path of a program, its outcome and the entries it leaves fit, and
  `leaves_bind`, `leaves_of_sends`: how programs compose.
* `Journal.run`: the entries of a run are those of the requests that are over and of those in flight,
  and each request that is over has left what its program leaves. -/

namespace GameClub.Lib.Interleave

variable {Stmt : Type} {Res : Stmt → Type} {σ Req ε α β ι : Type}

/-- Which calls leave an entry. -/
structure Journal (Res : Stmt → Type) (σ ι : Type) where
  exec : (s : Stmt) → σ → Res s × σ
  entry : (s : Stmt) → Res s → Option ι

namespace Journal

variable {J : Journal Res σ ι} {es : List ι}

/-- **What a program leaves**: with the entries `es` so far, whatever its calls find, its outcome and
its entries meet `Q`. -/
def Leaves (J : Journal Res σ ι) :
    Prog Res ε α → (Except ε α → List ι → Prop) → List ι → Prop
  | .pure a, Q, es => Q (.ok a) es
  | .throw e, Q, es => Q (.error e) es
  | .call s k, Q, es => ∀ w,
    J.Leaves (k (J.exec s w).1) Q (es ++ (J.entry s (J.exec s w).1).toList)

theorem Leaves.mono {p : Prog Res ε α} {Q Q' : Except ε α → List ι → Prop} (hp : J.Leaves p Q es)
    (hQ : ∀ r es', Q r es' → Q' r es') : J.Leaves p Q' es := by
  induction p generalizing es with
  | pure a => exact hQ _ _ hp
  | throw e => exact hQ _ _ hp
  | call s k ih => exact fun w => ih _ (hp w)

/-- A program that goes on where another returned. -/
theorem leaves_bind {p : Prog Res ε α} {f : α → Prog Res ε β} {Q : Except ε α → List ι → Prop}
    {Q' : Except ε β → List ι → Prop} (hp : J.Leaves p Q es)
    (he : ∀ e es', Q (.error e) es' → Q' (.error e) es')
    (hf : ∀ a es', Q (.ok a) es' → J.Leaves (f a) Q' es') : J.Leaves (p >>= f) Q' es := by
  induction p generalizing es with
  | pure a => exact hf a es hp
  | throw e => exact he e es hp
  | call s k ih => exact fun w => ih _ (hp w)

theorem leaves_lift_bind {x : Except ε α} {f : α → Prog Res ε β} {Q : Except ε β → List ι → Prop}
    (he : ∀ e, x = .error e → Q (.error e) es) (hf : ∀ a, x = .ok a → J.Leaves (f a) Q es) :
    J.Leaves ((liftM x : Prog Res ε α) >>= f) Q es := by
  cases x with
  | ok a => exact hf a rfl
  | error e => exact he e rfl

/-- A program whose calls leave no entry. -/
theorem leaves_of_sends {p : Prog Res ε α} {Q : Except ε α → List ι → Prop}
    (hp : p.Sends fun s => ∀ r, J.entry s r = none) (hQ : ∀ r, Q r es) : J.Leaves p Q es := by
  induction p with
  | pure a => exact hQ (.ok a)
  | throw e => exact hQ (.error e)
  | call s k ih =>
    intro w
    rw [hp.1, Option.toList_none, List.append_nil]
    exact ih _ (hp.2 _)

/-! ### Runs -/

/-- The entries of the next call of a program, when it is made on `w`. -/
def next (J : Journal Res σ ι) (w : σ) : Prog Res ε α → List ι
  | .call s _ => (J.entry s (J.exec s w).1).toList
  | _ => []

/-- **The request `i` in flight** after the events, the last one first, with the entries it has left. -/
def inHand (J : Journal Res σ ι) (i : ℕ) :
    List (Event σ Req (Except ε α) (Prog Res ε α)) → Option (Req × List ι)
  | [] => none
  | .arrived j q :: tr => if j = i then some (q, []) else J.inHand i tr
  | .called j p w :: tr =>
    if j = i then (J.inHand i tr).map fun x => (x.1, x.2 ++ J.next w p) else J.inHand i tr
  | .left j _ _ :: tr => if j = i then none else J.inHand i tr
  | .passed _ :: tr => J.inHand i tr

/-- **The requests that are over**, with their outcomes and the entries they have left. -/
def completed (J : Journal Res σ ι) : List (Event σ Req (Except ε α) (Prog Res ε α)) →
    List (Req × Except ε α × List ι)
  | [] => []
  | .left j _ r :: tr =>
    ((J.inHand j tr).map fun x => (x.1, r, x.2)).toList ++ J.completed tr
  | _ :: tr => J.completed tr

/-- **All entries**, in the order of their calls. -/
def entries (J : Journal Res σ ι) : List (Event σ Req (Except ε α) (Prog Res ε α)) → List ι
  | [] => []
  | .called _ p w :: tr => J.entries tr ++ J.next w p
  | _ :: tr => J.entries tr

/-- The requests in flight. -/
def inFlight : List (Event σ Req (Except ε α) (Prog Res ε α)) → List ℕ
  | [] => []
  | .arrived j _ :: tr => j :: inFlight tr
  | .left j _ _ :: tr => (inFlight tr).erase j
  | _ :: tr => inFlight tr

/-- The entries of the requests in flight. -/
def inHandEntries (J : Journal Res σ ι) (tr : List (Event σ Req (Except ε α) (Prog Res ε α)))
    (i : ℕ) : List ι := ((J.inHand i tr).map Prod.snd).getD []

/-- The entries that the requests that are over have left. -/
def completedEntries (J : Journal Res σ ι)
    (tr : List (Event σ Req (Except ε α) (Prog Res ε α))) : List ι :=
  (J.completed tr).flatMap fun x => x.2.2

/-- The system runs programs, and those of a request leave what `Q` says. -/
structure Keeps (J : Journal Res σ ι) (S : System Res σ Req (Except ε α) (Prog Res ε α))
    (Q : Req → Except ε α → List ι → Prop) : Prop where
  exec : S.exec = J.exec
  view : S.view = progView
  start : ∀ q, J.Leaves (S.start q) (Q q) []

/-- **What is known of a run**: its entries are those of the requests that are over and in flight. -/
structure Kept (J : Journal Res σ ι) (Q : Req → Except ε α → List ι → Prop)
    (tr : List (Event σ Req (Except ε α) (Prog Res ε α))) (c : Config σ (Prog Res ε α)) : Prop where
  nodup : (inFlight tr).Nodup
  mem : ∀ i, i ∈ inFlight tr ↔ c.threads i ≠ none
  threads : ∀ i p, c.threads i = some p → ∃ q es, J.inHand i tr = some (q, es) ∧ J.Leaves p (Q q) es
  completed : ∀ x ∈ J.completed tr, Q x.1 x.2.1 x.2.2
  entries : (J.entries tr).Perm
    (J.completedEntries tr ++ (inFlight tr).flatMap (J.inHandEntries tr))

/-- A function that changes at one of the keys adds there. -/
theorem flatMap_add {l : List ℕ} {f g : ℕ → List ι} {j : ℕ} {added : List ι} (hl : l.Nodup)
    (hj : j ∈ l) (hself : g j = f j ++ added) (hother : ∀ i ∈ l, i ≠ j → g i = f i) :
    (l.flatMap g).Perm (l.flatMap f ++ added) := by
  have hperm := List.perm_cons_erase hj
  have hrest : (l.erase j).flatMap g = (l.erase j).flatMap f :=
    List.flatMap_congr fun i hi =>
      hother i (List.mem_of_mem_erase hi) (hl.mem_erase_iff.mp hi).1
  calc (l.flatMap g).Perm ((j :: l.erase j).flatMap g) := hperm.flatMap_right g
    _ = f j ++ (added ++ (l.erase j).flatMap f) := by
      rw [List.flatMap_cons, hself, hrest, List.append_assoc]
    List.Perm _ (f j ++ ((l.erase j).flatMap f ++ added)) :=
      List.perm_append_comm.append_left (f j)
    _ = (j :: l.erase j).flatMap f ++ added := by rw [List.flatMap_cons, List.append_assoc]
    List.Perm _ (l.flatMap f ++ added) := (hperm.flatMap_right f).symm.append_right added

variable {S : System Res σ Req (Except ε α) (Prog Res ε α)}
  {Q : Req → Except ε α → List ι → Prop} {c c' : Config σ (Prog Res ε α)}
  {tr : List (Event σ Req (Except ε α) (Prog Res ε α))} {i : ℕ}

/-- A request arrives, with nothing left yet. -/
theorem Kept.arrive (hJ : J.Keeps S Q) (h : J.Kept Q tr c) (q : Req) (hi : c.threads i = none) :
    J.Kept Q (.arrived i q :: tr) (c.put c.db i (some (S.start q))) := by
  have hnot : i ∉ inFlight tr := fun hmem => (h.mem i).mp hmem hi
  have hself : J.inHand i (.arrived i q :: tr) = some (q, []) := if_pos rfl
  have hother : ∀ j, j ≠ i → J.inHand j (.arrived i q :: tr) = J.inHand j tr := fun j hj =>
    if_neg (Ne.symm hj)
  refine ⟨List.nodup_cons.mpr ⟨hnot, h.nodup⟩, fun j => ?_, fun j p hj => ?_, h.completed, ?_⟩
  · by_cases hj : j = i
    · subst hj
      simp [inFlight, Config.put_self]
    · rw [Config.put_ne _ _ _ hj, ← h.mem j]
      simp [inFlight, hj]
  · rcases Config.of_put hj with ⟨rfl, heq⟩ | ⟨hne, hold⟩
    · cases heq
      exact ⟨q, [], hself, hJ.start q⟩
    · rw [hother j hne]
      exact h.threads j p hold
  · have hnone : J.inHandEntries (.arrived i q :: tr) i = [] := by
      rw [inHandEntries, hself]
      rfl
    have hsame : (inFlight tr).flatMap (J.inHandEntries (.arrived i q :: tr)) =
        (inFlight tr).flatMap (J.inHandEntries tr) := by
      refine List.flatMap_congr fun j hj => ?_
      rw [inHandEntries, hother j fun heq => hnot (heq ▸ hj)]
      rfl
    have hflat : (inFlight (.arrived i q :: tr)).flatMap (J.inHandEntries (.arrived i q :: tr)) =
        (inFlight tr).flatMap (J.inHandEntries tr) := by
      rw [inFlight, List.flatMap_cons, hnone, hsame, List.nil_append]
    rw [hflat]
    exact h.entries

/-- A request makes a call, and may leave an entry. -/
theorem Kept.call (hJ : J.Keeps S Q) (h : J.Kept Q tr c) {s : Stmt}
    {k : Res s → Prog Res ε α} (hi : c.threads i = some (.call s k)) :
    J.Kept Q (.called i (.call s k) c.db :: tr)
      (c.put (S.exec s c.db).2 i (some (k (S.exec s c.db).1))) := by
  obtain ⟨q, es, hopen, hleaves⟩ := h.threads i _ hi
  have hself : J.inHand i (.called i (.call s k) c.db :: tr) =
      some (q, es ++ (J.entry s (J.exec s c.db).1).toList) := by
    rw [inHand, if_pos rfl, hopen]
    rfl
  have hother : ∀ j, j ≠ i → J.inHand j (.called i (.call s k) c.db :: tr) = J.inHand j tr :=
    fun j hj => if_neg (Ne.symm hj)
  refine ⟨h.nodup, fun j => ?_, fun j p hj => ?_, h.completed, ?_⟩
  · by_cases hj : j = i
    · subst hj
      rw [Config.put_self]
      have hmem : j ∈ inFlight tr := (h.mem j).mpr (by simp [hi])
      simp [inFlight, hmem]
    · rw [Config.put_ne _ _ _ hj]
      exact h.mem j
  · rcases Config.of_put hj with ⟨rfl, heq⟩ | ⟨hne, hold⟩
    · cases heq
      rw [hJ.exec]
      exact ⟨q, _, hself, hleaves c.db⟩
    · rw [hother j hne]
      exact h.threads j p hold
  · have hmem : i ∈ inFlight tr := (h.mem i).mpr (by simp [hi])
    have hadd : J.inHandEntries (.called i (.call s k) c.db :: tr) i =
        J.inHandEntries tr i ++ (J.entry s (J.exec s c.db).1).toList := by
      rw [inHandEntries, hself, inHandEntries, hopen]
      rfl
    have hsame : ∀ j ∈ inFlight tr, j ≠ i →
        J.inHandEntries (.called i (.call s k) c.db :: tr) j = J.inHandEntries tr j := by
      intro j _ hj
      rw [inHandEntries, hother j hj]
      rfl
    have hflat := (flatMap_add h.nodup hmem hadd hsame).append_left (J.completedEntries tr)
    rw [← List.append_assoc] at hflat
    exact (h.entries.append_right _).trans hflat.symm

/-- A request is over, with what its program leaves. -/
theorem Kept.leave (hJ : J.Keeps S Q) (h : J.Kept Q tr c) {p : Prog Res ε α} {r : Except ε α}
    (hi : c.threads i = some p) (hv : S.view p = .done r) :
    J.Kept Q (.left i p r :: tr) (c.put c.db i none) := by
  obtain ⟨q, es, hopen, hleaves⟩ := h.threads i p hi
  have hover : Q q r es := by
    rw [hJ.view] at hv
    cases p with
    | pure a =>
      cases hv
      exact hleaves
    | throw e =>
      cases hv
      exact hleaves
    | call s k => cases hv
  have hmem : i ∈ inFlight tr := (h.mem i).mpr (by simp [hi])
  have hcompleted : J.completed (.left i p r :: tr) = (q, r, es) :: J.completed tr := by
    rw [Journal.completed, hopen]
    rfl
  have hother : ∀ j, j ≠ i → J.inHand j (.left i p r :: tr) = J.inHand j tr := fun j hj =>
    if_neg (Ne.symm hj)
  refine ⟨h.nodup.erase i, fun j => ?_, fun j p' hj => ?_, fun x hx => ?_, ?_⟩
  · by_cases hj : j = i
    · subst hj
      rw [Config.put_self]
      simp [inFlight, h.nodup.not_mem_erase]
    · rw [Config.put_ne _ _ _ hj, ← h.mem j]
      exact List.mem_erase_of_ne hj
  · rcases Config.of_put hj with ⟨-, heq⟩ | ⟨hne, hold⟩
    · cases heq
    · rw [hother j hne]
      exact h.threads j p' hold
  · rw [hcompleted] at hx
    rcases List.mem_cons.mp hx with rfl | hx
    · exact hover
    · exact h.completed x hx
  · have hsplit : ((inFlight tr).flatMap (J.inHandEntries tr)).Perm
        (es ++ ((inFlight tr).erase i).flatMap (J.inHandEntries tr)) := by
      have hself : J.inHandEntries tr i = es := by
        rw [inHandEntries, hopen]
        rfl
      have hperm := (List.perm_cons_erase hmem).flatMap_right (J.inHandEntries tr)
      rwa [List.flatMap_cons, hself] at hperm
    have hsame : ((inFlight tr).erase i).flatMap (J.inHandEntries (.left i p r :: tr)) =
        ((inFlight tr).erase i).flatMap (J.inHandEntries tr) := by
      refine List.flatMap_congr fun j hj => ?_
      rw [inHandEntries, hother j (h.nodup.mem_erase_iff.mp hj).1]
      rfl
    have hmove : (J.completedEntries tr ++
        (es ++ ((inFlight tr).erase i).flatMap (J.inHandEntries tr))).Perm
        ((es ++ J.completedEntries tr) ++
          ((inFlight tr).erase i).flatMap (J.inHandEntries tr)) := by
      rw [← List.append_assoc]
      exact List.perm_append_comm.append_right _
    have hnow : J.completedEntries (.left i p r :: tr) = es ++ J.completedEntries tr := by
      rw [completedEntries, hcompleted]
      rfl
    rw [hnow, inFlight, hsame]
    exact h.entries.trans ((hsplit.append_left _).trans hmove)

theorem Kept.step (hJ : J.Keeps S Q) (h : J.Kept Q tr c)
    {e : Event σ Req (Except ε α) (Prog Res ε α)} (hs : S.Step c e c') : J.Kept Q (e :: tr) c' := by
  cases hs with
  | arrive q hi => exact h.arrive hJ q hi
  | @call i p s k hi hv =>
    rw [hJ.view] at hv
    cases p with
    | pure a => cases hv
    | throw e => cases hv
    | call s' k' =>
      cases hv
      exact h.call hJ hi
  | leave hi hv => exact h.leave hJ hi hv
  | pass n => exact ⟨h.nodup, h.mem, h.threads, h.completed, h.entries⟩

/-- **Every run keeps its journal.** -/
theorem run (hJ : J.Keeps S Q) {w : σ} {A : Config σ (Prog Res ε α) →
    Event σ Req (Except ε α) (Prog Res ε α) → Prop} (hrun : S.Run A (.idle w) tr c) :
    J.Kept Q tr c :=
  hrun.invariant (I := fun tr c => J.Kept Q tr c)
    ⟨List.nodup_nil, fun i => by simp [inFlight, Config.idle], fun i p hi => (nomatch hi),
      fun x hx => (nomatch hx), .refl _⟩
    fun hc hs _ => hc.step hJ hs

/-- **When no request is in flight**, the entries are those of the requests that are over. -/
theorem Kept.quiet (h : J.Kept Q tr c) (hq : c.Quiet) :
    (J.entries tr).Perm (J.completedEntries tr) := by
  have hnil : inFlight tr = [] :=
    List.eq_nil_iff_forall_not_mem.mpr fun i hi => (h.mem i).mp hi (hq i)
  have hentries := h.entries
  rwa [hnil, List.flatMap_nil, List.append_nil] at hentries

end Journal

end GameClub.Lib.Interleave
