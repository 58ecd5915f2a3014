import GameClub.Sessions.Occupancy

/-! # What a start is refused for

A start is refused by the unique index of the active sessions only when a computer is `AVAILABLE`
and has a session.

* `start_error`: when computers and sessions agree, a start that throws throws something else. -/

namespace GameClub.Sessions

open GameClub.Lib GameClub.Common GameClub.Store

variable {P : ComputerStatus → Prop}

/-- The unique index has refused a session. -/
def indexRefusal : Thrown := .database (.uniqueViolation "uq_session_active_computer")

theorem forDuration_error {r d : Number} {e : Thrown} (h : Money.forDuration r d = .error e) :
    ∃ message, e = .error message := by
  unfold Money.forDuration Money.fromMinor at h
  dsimp only at h
  split_ifs at h <;> exact ⟨_, (Except.error.inj h).symm⟩

/-- The pricing engine does not throw errors of the database. -/
theorem plan_error {type : SessionType} {rate : Number} {startedAt : Instant} {params : PlanParams}
    {e : Thrown} (h : Pricing.plan type rate startedAt params = .error e) : e ≠ indexRefusal := by
  have hcharge : ∀ {d : Number} {f : Money → PricingPlan},
      (do let a ← Money.forDuration rate d; pure (f a)) = Except.error e → e ≠ indexRefusal := by
    intro d f hf
    cases hd : Money.forDuration rate d with
    | error e' =>
      obtain ⟨message, rfl⟩ := forDuration_error hd
      rw [hd] at hf
      cases hf
      simp [indexRefusal]
    | ok a =>
      rw [hd] at hf
      cases hf
  unfold Pricing.plan at h
  split at h
  · split at h
    · cases h
      simp [indexRefusal, rule]
    · exact hcharge h
  · split at h
    · cases h
      simp [indexRefusal, rule]
    · dsimp only at h
      split_ifs at h
      · cases h
        simp [indexRefusal, rule]
      · exact hcharge h
  · cases h

theorem dateColumn_error {date : Option JsDate} {e : Thrown} (h : dateColumn date = .error e) :
    e ≠ indexRefusal := by
  unfold dateColumn at h
  split at h
  · cases h
  · cases h
    simp [indexRefusal]
  · cases h

theorem resolveCustomer_error {customerId : Option UuidText} {db : Db} {e : Thrown}
    (h : store.eval (resolveCustomer customerId) db = .error e) : e ≠ indexRefusal := by
  cases customerId with
  | none => cases h
  | some id =>
    rcases (Sem.eval_bind_error _).mp h with h | ⟨found, db', -, h⟩
    · cases (Sem.eval_stmt_error _).mp h
    · split at h
      · cases h
        simp [indexRefusal]
      · split_ifs at h
        · cases h
          simp [indexRefusal]
        · cases h

/-- The index refuses only a second session on a computer. -/
theorem insertSession_error {row : Session} {db : Db} {e : Thrown}
    (h : store.eval (insertSession row) db = .error e) (hfree : ¬ Busy db row.computerId) :
    e ≠ indexRefusal := by
  have hx : execInsertSession true row db = .error e := (Sem.eval_stmt_error _).mp h
  unfold execInsertSession at hx
  split_ifs at hx with h1 h2
  · cases hx
    simp [indexRefusal]
  · have hindex : row.status = .active ∧ db.activeOn row.computerId ≠ [] := by simpa using h2
    exact absurd (busy_iff_activeOn.mpr hindex.2) hfree
  · cases hx
    simp [indexRefusal]
  · cases hx
    simp [indexRefusal]

/-- **The start of one session is not refused by the index**: an available computer is free. -/
theorem startOne_error {dto : StartSessionDto} {ctx : ActorContext} {startedAt : Instant}
    {groupId : Option Uuid} {customer : Option Customer} {computerId : UuidText} {newId : Uuid}
    {db : Db} {e : Thrown} (hP : ¬ P .available)
    (hs : Coherent P db) (h : store.eval
      (startOne dto ctx startedAt groupId customer computerId newId) db = .error e) :
    e ≠ indexRefusal := by
  rcases (Sem.eval_bind_error _).mp h with hlock | ⟨found, _, hfound, hrest⟩
  · cases (Sem.eval_stmt_error _).mp hlock
  obtain ⟨rfl, rfl⟩ := lockComputer_ok.mp hfound
  split at hrest
  · cases hrest
    simp [indexRefusal]
  · next computer hcomputer =>
    split_ifs at hrest with hbusy
    · cases hrest
      simp [indexRefusal]
    push Not at hbusy
    rcases (Sem.eval_bind_error _).mp hrest with hread | ⟨room, _, hroom, hpriced⟩
    · cases (Sem.eval_stmt_error _).mp hread
    obtain ⟨rfl, rfl⟩ := findRoom_ok.mp hroom
    split at hpriced
    · cases hpriced
      simp [indexRefusal]
    · rcases (Sem.eval_bind_error _).mp hpriced with hplan | ⟨p, _, hp, hdated⟩
      · exact plan_error ((Sem.eval_lift_error _).mp hplan)
      obtain ⟨-, rfl⟩ := (Sem.eval_lift_ok _).mp hp
      rcases (Sem.eval_bind_error _).mp hdated with hcolumn | ⟨plannedEndAt, _, hdate, hsave⟩
      · exact dateColumn_error ((Sem.eval_lift_error _).mp hcolumn)
      obtain ⟨-, rfl⟩ := (Sem.eval_lift_ok _).mp hdate
      rcases (Sem.eval_bind_error _).mp hsave with hinsert | ⟨saved, _, -, hset⟩
      · obtain ⟨hget, -⟩ := Db.findComputer_eq_some.mp hcomputer
        have hself := Table.get?_of_mem (Table.mem_of_get? hget).1
        exact insertSession_error hinsert fun hb => hP (hbusy.2 ▸ hs.busy hself hb)
      rcases (Sem.eval_bind_error _).mp hset with hstatus | ⟨_, _, -, hret⟩
      · cases (Sem.eval_stmt_error _).mp hstatus
      · cases hret

/-- By induction on the computers of the group. -/
theorem startAll_error {dto : StartSessionDto} {ctx : ActorContext} {startedAt : Instant}
    {groupId : Option Uuid} {customer : Option Customer} {ids : List (UuidText × Uuid)} {db : Db}
    {e : Thrown} (hP : P .inUse) (hP' : ¬ P .available) (hs : Coherent P db)
    (h : store.eval (startAll dto ctx startedAt groupId customer ids) db = .error e) :
    e ≠ indexRefusal := by
  induction ids generalizing db with
  | nil => cases h
  | cons x rest ih =>
    rcases (Sem.eval_bind_error _).mp h with h | ⟨saved, db', hone, h⟩
    · exact startOne_error hP' hs h
    rcases (Sem.eval_bind_error _).mp h with h | ⟨results, _, -, h⟩
    · exact ih (Coherent.change hP hP' (startOne_change hone) hs) h
    · cases h

/-- **No start is refused by the unique index** when computers and sessions agree. -/
theorem start_error {dto : StartSessionDto} {ctx : ActorContext} {startedAt : Instant}
    {randomUUID : Uuid} {newIds : ℕ → Uuid} {db : Db} {e : Thrown} (hP : P .inUse)
    (hP' : ¬ P .available) (hs : Coherent P db)
    (h : store.eval (start dto ctx startedAt randomUUID newIds) db = .error e) :
    e ≠ indexRefusal := by
  rcases (Sem.eval_bind_error _).mp h with hresolve | ⟨customer, _, hcustomer, hall⟩
  · exact resolveCustomer_error hresolve
  · obtain ⟨rfl, -⟩ := resolveCustomer_ok.mp hcustomer
    exact startAll_error hP hP' hs hall

end GameClub.Sessions
