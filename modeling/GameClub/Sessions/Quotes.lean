import GameClub.Common.IsoDate
import GameClub.Lib.Serial
import GameClub.Sessions.Billing
import GameClub.Sessions.Extensions
import GameClub.Sessions.Intervals
import GameClub.Sessions.Terminal

/-! # Quotes

The live cost of a session is read from a committed row and promises nothing, yet it is never more than
what comes later: an open session accrues, an extension never lowers a locked charge, and the end charges
what was quoted at its instant.

* `History.locked`, `History.accrued`: the charge of a fixed and of an open session along its rows.
* `quotes_hold`: in every interleaved run, what a later quote says of an earlier one. -/

namespace GameClub.Sessions

open GameClub.Lib GameClub.Lib.RowLock GameClub.Common GameClub.Store GameClub.Concurrency

/-- Live charge for an in-progress session. -/
def Pricing.quote (session : Session) (now : Instant) : Except Thrown Money :=
  match session.type with
  | .openSession =>
    let seconds := diffSeconds session.startedAt now
    Money.forDuration session.ratePerHour ((max seconds 0 : ℤ) : Number)
  | _ => Money.fromMinor session.amountDue

def findById (id : UuidText) (db : Db) : Except Thrown Session :=
  match db.sessions.get? id.value with
  | none => .error (.domain (ResourceNotFoundException "Session" id.text))
  | some session => .ok session

structure Quote where
  amount : ℤ
  time : String

/-- Live cost of a session right now; the clock is read twice. -/
def quote (id : UuidText) (now later : Instant) (db : Db) : Except Thrown Quote := do
  let session ← findById id db
  if session.status ≠ .active then
    pure ⟨session.amountDue, later.toISOString⟩
  else
    let amount ← Pricing.quote session now
    pure ⟨amount.value, later.toISOString⟩

/-! ### The rows of a session -/

/-- The live charge is the final one at the same instant. -/
theorem quote_eq_finalize (s : Session) (now : Instant) :
    Pricing.quote s now = Pricing.finalize s now := rfl

theorem quote_ok {id : UuidText} {now later : Instant} {db : Db} {q : Quote}
    (h : quote id now later db = .ok q) : ∃ s, db.sessions.get? id.value = some s ∧
      (s.status ≠ .active → q.amount = s.amountDue) ∧
      (s.status = .active → ∃ a, Pricing.finalize s now = .ok a ∧ q.amount = a.value) := by
  obtain ⟨s, hfound, h⟩ := bind_ok.mp h
  have hrow : db.sessions.get? id.value = some s := by
    unfold findById at hfound
    split at hfound
    · cases hfound
    · next s' hs =>
      cases hfound
      exact hs
  refine ⟨s, hrow, fun hs => ?_, fun hs => ?_⟩
  · rw [if_pos hs] at h
    cases h
    rfl
  · rw [if_neg (not_not.mpr hs)] at h
    obtain ⟨a, ha, h⟩ := bind_ok.mp h
    cases h
    exact ⟨a, ha, rfl⟩

/-- A charge that is locked until `stop`. -/
def lockedPlan (stop : Instant) (a : Money) : PricingPlan := ⟨some (some stop), a⟩

/-- **An extension never lowers a locked charge.** -/
theorem extend_due_le {s : Session} {params : ExtendParams} {p : PricingPlan} (hb : Billed s)
    (ha : s.status = .active) (hp : Pricing.extend s params = .ok p) :
    s.amountDue ≤ p.plannedAmount.value := by
  obtain ⟨stop, hstop, -, hcharges⟩ := hb.fixed (extend_ne_open hp)
  obtain ⟨a, hcharge, hdue⟩ := hcharges (by simp [ha])
  have hlocked : ChargedUntil s (lockedPlan stop a) stop := ⟨rfl, hcharge⟩
  have hrow : planned s (lockedPlan stop a) = .ok s := by
    refine planned_ok.mpr ⟨some stop, rfl, ?_⟩
    obtain ⟨⟩ := s
    simp only [lockedPlan] at hstop hdue ⊢
    rw [← hstop, ← hdue]
  obtain ⟨stop', hlater, hextended, -⟩ := extend_planned hlocked.plannedEndAt hrow hp
  rw [hdue]
  exact hlocked.mono hextended hlater.le

/-- A request on a billed session leaves it billed. -/
theorem Transition.billed {s s' : Session} {q : Request} (hb : Billed s) (ha : s.status = .active)
    (h : Transition s q s') : Billed s' := by
  cases h with
  | extended hp hdate =>
    obtain ⟨stop, hstop, hfits⟩ := extend_fits (hb.planFits ha) hp
    rw [hstop] at hdate
    obtain ⟨_, rfl, hd⟩ := Option.map_eq_some_iff.mp hdate.symm
    cases hd
    exact billed_of_planFits ha hfits hb.paid_safe
  | ended hdue hpaid => exact hb.ended ha hdue hpaid
  | cancelled => exact hb.cancel _ _

theorem Transition.type {s s' : Session} {q : Request} (h : Transition s q s') :
    s'.type = s.type := by
  cases h <;> rfl

/-- What the rows of a fixed session say of the charge: it never falls before a cancellation, and only
an extension raises it. -/
structure Locked (s : Session) (qs : List Request) (s' : Session) : Prop where
  billed : Billed s'
  type : s'.type ≠ .openSession
  due_le : s'.status ≠ .cancelled → s.amountDue ≤ s'.amountDue
  due_eq : s'.status ≠ .cancelled → (∀ q ∈ qs, closes q = true) → s'.amountDue = s.amountDue

/-- **The charge of a fixed session**; by induction on its rows. -/
theorem History.locked {s s' : Session} {qs : List Request} (h : History s qs s') (hb : Billed s)
    (ht : s.type ≠ .openSession) : Locked s qs s' := by
  induction h with
  | nil => exact ⟨hb, ht, fun _ => le_rfl, fun _ _ => rfl⟩
  | @snoc qs s₁ s₂ q h ha htrans ih =>
    have hopen : s₁.status ≠ .cancelled := by simp [ha]
    have htype : s₂.type ≠ .openSession := htrans.type ▸ ih.type
    have hle := ih.due_le hopen
    have heq : (∀ r ∈ qs ++ [q], closes r = true) → s₁.amountDue = s.amountDue := fun hall =>
      ih.due_eq hopen fun r hr => hall r (List.mem_append_left _ hr)
    refine ⟨htrans.billed ih.billed ha, htype, fun hs => ?_, fun hs hall => ?_⟩
    · cases htrans with
      | extended hp hdate => exact hle.trans (extend_due_le ih.billed ha hp)
      | ended hdue hpaid => exact hle.trans (finalize_fixed ih.type hdue).ge
      | cancelled => exact absurd rfl hs
    · cases htrans with
      | extended hp hdate => exact nomatch hall _ (List.mem_append_right _ (List.mem_cons_self ..))
      | ended hdue hpaid => exact (finalize_fixed ih.type hdue).trans (heq hall)
      | cancelled => exact absurd rfl hs

/-- A request that ends a session does so at `now` or later. -/
def EndsAfter (now : Instant) : Request → Prop
  | .endSession _ _ _ endedAt _ => now.ms ≤ endedAt.ms
  | _ => True

/-- **The charge of an open session**: as long as it is active its row is the same one, and its bill is
the charge until its end. -/
theorem History.accrued {s s' : Session} {qs : List Request} (h : History s qs s')
    (ht : s.type = .openSession) (ha : s.status = .active) :
    s' = s ∨ s'.status = .cancelled ∨ ∃ id dto ctx endedAt newId due,
      .endSession id dto ctx endedAt newId ∈ qs ∧ Pricing.finalize s endedAt = .ok due ∧
        s'.status = .ended ∧ s'.amountDue = due.value := by
  induction h with
  | nil => exact Or.inl rfl
  | snoc h hactive htrans ih =>
    rcases ih with rfl | hcancelled | ⟨_, _, _, _, _, _, -, -, hended, -⟩
    · cases htrans with
      | extended hp hdate => exact absurd ht (extend_ne_open hp)
      | ended hdue hpaid =>
        exact Or.inr (Or.inr ⟨_, _, _, _, _, _, List.mem_append_right _ (List.mem_cons_self ..),
          hdue, rfl, rfl⟩)
      | cancelled => exact Or.inr (Or.inl rfl)
    · rw [hcancelled] at hactive
      cases hactive
    · rw [hended] at hactive
      cases hactive

/-- The charge of an open session grows with the time. -/
theorem finalize_mono {s : Session} {now now' : Instant} {a a' : Money} (ht : s.type = .openSession)
    (hle : now.ms ≤ now'.ms) (h : Pricing.finalize s now = .ok a)
    (h' : Pricing.finalize s now' = .ok a') : a.value ≤ a'.value :=
  forDuration_mono (max_le_max_right 0 (diffSeconds_mono s.startedAt hle)) (finalize_open ht h)
    (finalize_open ht h')

/-! ### Runs -/

/-- The requests on a session among those committed. -/
theorem commitsOn_eq (id : Uuid) (tr : Trace) :
    commitsOn id tr =
      (commits tr).filterMap fun x => if subject x.1 = some id then some x.1 else none := by
  unfold commitsOn commits
  rw [List.filterMap_filterMap]
  refine List.filterMap_congr fun l _ => ?_
  cases l <;> rfl

section Run

variable {db : Db} {tr tr' : Trace} {c c' : State} {id : UuidText}
  {now later now' later' : Instant} {q q' : Quote}

/-- **What a later quote says** of an earlier one, of a session whose row was `s` and is `s'`. -/
structure Holds (qs : List Request) (s s' : Session) (q q' : Quote) : Prop where
  bill : s'.status = .ended → q'.amount = s'.amountDue
  cancelled : s'.status = .cancelled → q'.amount = 0
  le : s'.status ≠ .cancelled → q.amount ≤ q'.amount
  locked : s'.status ≠ .cancelled → s.type ≠ .openSession → (∀ r ∈ qs, closes r = true) →
    q'.amount = q.amount
  closed : s.status ≠ .active → q'.amount = q.amount

/-- **A quote holds** in every interleaved run: a later quote of the same session, up to and including
its bill, is not lower, unless the session was cancelled or ended at an earlier instant; and it is the
same one when the charge was locked and no extension came in between, or the session was over. -/
theorem quotes_hold (hb : AllBilled db) (hrun : system.Run (Config.idle db) tr c)
    (hmore : system.Run c tr' c') (hq : quote id now later c.db = .ok q)
    (hq' : quote id now' later' c'.db = .ok q') (hclock : now.ms ≤ now'.ms)
    (hends : ∀ r ∈ commitsOn id.value tr', EndsAfter now r) :
    ∃ s s', c.db.sessions.get? id.value = some s ∧ c'.db.sessions.get? id.value = some s' ∧
      Holds (commitsOn id.value tr') s s' q q' := by
  have hbilled : AllBilled c.db := run_invariant AllBilled billed_change hb hrun
  have hbilled' : AllBilled c'.db := run_invariant AllBilled billed_change hb (hrun.trans hmore)
  obtain ⟨s, hrow, hover, hlive⟩ := quote_ok hq
  obtain ⟨s', hrow', hover', hlive'⟩ := quote_ok hq'
  obtain ⟨s'', hrow'', hhist⟩ := run_history hrun hrow hmore
  obtain rfl : s'' = s' := by
    rw [hrow'] at hrow''
    exact (Option.some.inj hrow'').symm
  have hbs := hbilled s (Table.mem_of_get? hrow).1
  have hbs' := hbilled' s'' (Table.mem_of_get? hrow').1
  have hbill : s''.status = .ended → q'.amount = s''.amountDue := fun hs => hover' (by simp [hs])
  have hcancelled : s''.status = .cancelled → q'.amount = 0 := fun hs =>
    (hover' (by simp [hs])).trans (hbs'.cancelled hs).1
  refine ⟨s, s'', hrow, hrow', ?_⟩
  by_cases ha : s.status = .active
  · obtain ⟨a, hfinal, hamount⟩ := hlive ha
    by_cases ht : s.type = .openSession
    · refine ⟨hbill, hcancelled, fun hs => ?_, fun _ hne => absurd ht hne, fun hne => absurd ha hne⟩
      rcases hhist.accrued ht ha with rfl | hc | ⟨_, _, _, endedAt, _, due, hmem, hdue, hended, heq⟩
      · obtain ⟨a', hfinal', hamount'⟩ := hlive' ha
        rw [hamount, hamount']
        exact finalize_mono ht hclock hfinal hfinal'
      · exact absurd hc hs
      · rw [hamount, hbill hended, heq]
        exact finalize_mono ht (hends _ hmem) hfinal hdue
    · have hlocked := hhist.locked hbs ht
      have hdue' : q'.amount = s''.amountDue := by
        by_cases ha' : s''.status = .active
        · obtain ⟨a', hfinal', hamount'⟩ := hlive' ha'
          exact hamount'.trans (finalize_fixed hlocked.type hfinal')
        · exact hover' ha'
      have hdue : q.amount = s.amountDue := hamount.trans (finalize_fixed ht hfinal)
      refine ⟨hbill, hcancelled, fun hs => ?_, fun hs _ hall => ?_, fun hne => absurd ha hne⟩
      · rw [hdue, hdue']
        exact hlocked.due_le hs
      · rw [hdue, hdue']
        exact hlocked.due_eq hs hall
  · obtain ⟨-, rfl⟩ := hhist.frozen ha
    have heq : q'.amount = q.amount := (hover' ha).trans (hover ha).symm
    exact ⟨hbill, hcancelled, fun _ => heq.ge, fun _ _ _ => heq, fun _ => heq⟩

end Run

/-! ### An hour -/

def halfHour : Instant := ⟨1800000, by decide⟩

def hour : Instant := ⟨3600000, hour_valid⟩

/-- The end of the session after an hour. -/
def hourEnd : Request := .endSession ⟨3, 0⟩ .inFull ⟨9⟩ hour 60

def afterEnd : Option (Reply × Db) := (store.eval (body hourEnd) inUseDb).toOption

theorem inUseDb_billed : AllBilled inUseDb := by
  intro s hs
  rw [List.mem_singleton.mp hs]
  exact billed_of_planFits rfl ⟨rfl, rfl⟩ zero_safe

/-- The quote after half an hour, and the bill. -/
theorem quotes_hold_hour : ∃ (tr : Trace) (c : State) (q q' : Quote),
    system.Run (Config.idle inUseDb) tr c ∧ quote ⟨3, 0⟩ halfHour halfHour inUseDb = .ok q ∧
      quote ⟨3, 0⟩ hour hour c.db = .ok q' ∧ q.amount = 7500 ∧ q'.amount = 15000 ∧
      q.amount ≤ q'.amount := by
  have hsome : (afterEnd.bind fun x => (quote ⟨3, 0⟩ hour hour x.2).toOption).map Quote.amount =
      some 15000 := by decide +kernel
  have hhalf : (quote ⟨3, 0⟩ halfHour halfHour inUseDb).toOption.map Quote.amount = some 7500 := by
    decide +kernel
  obtain ⟨q', hq', hamount'⟩ := Option.map_eq_some_iff.mp hsome
  obtain ⟨q, hq, hamount⟩ := Option.map_eq_some_iff.mp hhalf
  obtain ⟨⟨a, db'⟩, heval, hquote⟩ := Option.bind_eq_some_iff.mp hq'
  have hend : system.eval (system.body hourEnd) inUseDb = .ok (a, db') := ok_of_toOption heval
  obtain ⟨tr, hrun, hcommits⟩ := system.run_one hend
  obtain ⟨s, s', -, -, hholds⟩ := quotes_hold inUseDb_billed .nil hrun (ok_of_toOption hq)
    (ok_of_toOption hquote) (by decide) fun r hr => by
      rw [commitsOn_eq, hcommits] at hr
      obtain rfl : r = hourEnd := List.mem_singleton.mp hr
      have hlate : halfHour.ms ≤ hour.ms := by decide
      exact hlate
  refine ⟨tr, _, q, q', hrun, ok_of_toOption hq, ok_of_toOption hquote, hamount, hamount',
    hholds.le fun hs => ?_⟩
  rw [hholds.cancelled hs] at hamount'
  cases hamount'

end GameClub.Sessions
