import GameClub.Sessions.Changes

/-! # Billing

What a session charges follows from its type, its rate and its dates. At the start the charge is
computed from minutes, after an extension from a difference of dates, and at the end a locked charge
is trusted.

* `Billed`: the formula, for one session.
* `billed_change`: every change keeps it, for all sessions. -/

namespace GameClub.Sessions

open GameClub.Lib GameClub.Lib.Binary64 GameClub.Common GameClub.Store

/-- The session charges `seconds` at its rate. -/
def Charges (s : Session) (seconds : ℤ) : Prop :=
  ∃ a, Money.forDuration s.ratePerHour ((seconds : ℤ) : Number) = .ok a ∧ s.amountDue = a.value

/-- **The billing formula** of a session. -/
structure Billed (s : Session) : Prop where
  open_unplanned : s.type = .openSession → s.plannedEndAt = none
  open_active : s.type = .openSession → s.status = .active → s.amountDue = 0
  open_ended : s.type = .openSession → s.status = .ended →
    ∃ stop, s.endedAt = some stop ∧ Charges s (max 0 (diffSeconds s.startedAt stop))
  fixed : s.type ≠ .openSession → ∃ stop, s.plannedEndAt = some stop ∧
    1 ≤ diffSeconds s.startedAt stop ∧
    (s.status ≠ .cancelled → Charges s (diffSeconds s.startedAt stop))
  cancelled : s.status = .cancelled → s.amountDue = 0 ∧ s.amountPaid = 0
  due_safe : 0 ≤ s.amountDue ∧ s.amountDue ≤ maxSafeInteger
  paid_safe : 0 ≤ s.amountPaid ∧ s.amountPaid ≤ maxSafeInteger

theorem zero_safe : (0 : ℤ) ≤ 0 ∧ (0 : ℤ) ≤ maxSafeInteger := by decide

theorem value_le (a : Money) : a.value ≤ maxSafeInteger := (abs_le.mp a.safe).2

/-- The plan of an active session that is billed. -/
theorem Billed.planFits {s : Session} (h : Billed s) (ha : s.status = .active) :
    PlanFits s.type s.ratePerHour s.startedAt s.plannedEndAt s.amountDue := by
  have hne : s.status ≠ .cancelled := by simp [ha]
  have hfixed : s.type ≠ .openSession → ∃ stop a, s.plannedEndAt = some stop ∧
      1 ≤ diffSeconds s.startedAt stop ∧
      Money.forDuration s.ratePerHour (diffSeconds s.startedAt stop) = .ok a ∧
      s.amountDue = a.value := by
    intro ht
    obtain ⟨stop, hstop, hle, hcharge⟩ := h.fixed ht
    obtain ⟨a, ha, hdue⟩ := hcharge hne
    exact ⟨stop, a, hstop, hle, ha, hdue⟩
  unfold PlanFits
  split
  · next ht => exact ⟨h.open_unplanned ht, h.open_active ht ha⟩
  · next ht => exact hfixed fun heq => ht heq

/-- A session with a plan that fits, not yet closed. -/
theorem billed_of_planFits {s : Session} (ha : s.status = .active)
    (h : PlanFits s.type s.ratePerHour s.startedAt s.plannedEndAt s.amountDue)
    (hpaid : 0 ≤ s.amountPaid ∧ s.amountPaid ≤ maxSafeInteger) : Billed s := by
  have hrange := h.nonneg
  have hopen : s.type = .openSession → s.plannedEndAt = none ∧ s.amountDue = 0 := by
    intro ht
    rw [ht] at h
    exact h
  have hfixed : s.type ≠ .openSession → ∃ stop, s.plannedEndAt = some stop ∧
      1 ≤ diffSeconds s.startedAt stop ∧
      (s.status ≠ .cancelled → Charges s (diffSeconds s.startedAt stop)) := by
    intro ht
    unfold PlanFits at h
    split at h
    · next heq => exact absurd heq ht
    · obtain ⟨stop, a, hstop, hle, hcharge, hdue⟩ := h
      exact ⟨stop, hstop, hle, fun _ => ⟨a, hcharge, hdue⟩⟩
  exact ⟨fun ht => (hopen ht).1, fun ht _ => (hopen ht).2, fun _ he => by simp [ha] at he, hfixed,
    fun hc => by simp [ha] at hc, hrange, hpaid⟩

/-- **The row of an ended session is billed** when that of the active one was. -/
theorem Billed.ended {session : Session} {dto : EndSessionDto} {ctx : ActorContext}
    {endedAt : Instant} {due paid : Money} (h : Billed session) (ha : session.status = .active)
    (hdue : Pricing.finalize session endedAt = .ok due) (hpaid : amountPaid dto due = .ok paid) :
    Billed (endedSession session dto ctx endedAt due paid) := by
  have hdue0 : 0 ≤ due.value := finalize_nonneg h.due_safe.1 hdue
  have hpaid0 : 0 ≤ paid.value := amountPaid_nonneg hdue0 hpaid
  refine ⟨h.open_unplanned, ?_, ?_, ?_, ?_, ⟨hdue0, value_le due⟩, ⟨hpaid0, value_le paid⟩⟩
  · intro _ hs
    cases hs
  · intro ht _
    have hopen : session.type = .openSession := ht
    have hcharge := finalize_open hopen hdue
    rw [max_comm] at hcharge
    exact ⟨endedAt, rfl, due, hcharge, rfl⟩
  · intro ht
    have hfixed : session.type ≠ .openSession := ht
    obtain ⟨stop, hstop, hle, hcharge⟩ := h.fixed hfixed
    obtain ⟨a, hok, hvalue⟩ := hcharge (by simp [ha])
    -- the locked charge is the final one
    have hlocked : due.value = a.value := (finalize_fixed hfixed hdue).trans hvalue
    exact ⟨stop, hstop, hle, fun _ => ⟨a, hok, hlocked⟩⟩
  · intro hs
    cases hs

/-- The row of a cancelled session is billed when that of the active one was. -/
theorem Billed.cancel {session : Session} (h : Billed session) (endedAt : Option Instant)
    (endedBy : Option Uuid) : Billed { session with
      status := .cancelled
      endedAt := endedAt
      amountDue := 0
      amountPaid := 0
      endedBy := endedBy } := by
  refine ⟨h.open_unplanned, ?_, ?_, ?_, ?_, zero_safe, zero_safe⟩
  · intro _ _
    rfl
  · intro _ hs
    cases hs
  · intro ht
    obtain ⟨stop, hstop, hle, -⟩ := h.fixed ht
    exact ⟨stop, hstop, hle, fun hs => absurd rfl hs⟩
  · intro _
    exact ⟨rfl, rfl⟩

/-- Every session is billed. -/
def AllBilled (db : Db) : Prop := ∀ s ∈ db.sessions.rows, Billed s

theorem AllBilled.save {db db' : Db} (h : AllBilled db) {old s : Session} (hs : Billed s)
    (hold : db.sessions.get? s.id = some old) (hses : db'.sessions = db.sessions.set s) :
    AllBilled db' := by
  intro t ht
  rw [hses] at ht
  rcases (mem_save hold).mp ht with rfl | ⟨ht, -⟩
  · exact hs
  · exact h t ht

/-- **Every change keeps the billing formula.** -/
theorem billed_change {db db' : Db} (hc : Change db db') (h : AllBilled db) : AllBilled db' := by
  have hrow : ∀ {id session}, db.sessions.get? id = some session →
      Billed session ∧ db.sessions.get? session.id = some session := by
    intro id session hs
    have hmem := (Table.mem_of_get? hs).1
    exact ⟨h session hmem, Table.get?_of_mem hmem⟩
  cases hc with
  | opened hstart hid =>
    intro t ht
    rw [opened_sessions] at ht
    rcases (Table.mem_insert hid).mp ht with ht | rfl
    · exact h t ht
    · obtain ⟨p, hp, hdate, rfl⟩ := hstart.plan
      have hfits := plan_fits (fun m hm => (StartSessionDto.durationRange _ m hm).2) hp hdate
      exact billed_of_planFits rfl hfits zero_safe
  | @extended id session params p plannedEndAt hs ha hp hdate =>
    obtain ⟨hbilled, hold⟩ := hrow hs
    obtain ⟨stop, hstop, hfits⟩ := extend_fits (hbilled.planFits ha) hp
    have hend : plannedEndAt = some stop := by
      rw [hstop] at hdate
      obtain ⟨_, rfl, hd⟩ := Option.map_eq_some_iff.mp hdate.symm
      cases hd
      rfl
    subst hend
    have hnew : Billed { session with
        plannedEndAt := some stop, amountDue := p.plannedAmount.value } :=
      billed_of_planFits ha hfits hbilled.paid_safe
    exact h.save hnew hold rfl
  | ended hs ha hdue hpaid hset =>
    obtain ⟨hbilled, hold⟩ := hrow hs
    exact h.save (hbilled.ended ha hdue hpaid) hold hset.sessions
  | cancelled hs ha =>
    obtain ⟨hbilled, hold⟩ := hrow hs
    exact h.save (hbilled.cancel _ _) hold (release_sessions _ _)
  | paid ht hneg hle hid => exact h
  | corrected ht hid => exact h

end GameClub.Sessions
