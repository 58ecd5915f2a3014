import GameClub.Store.Entities

/-! # The pricing engine

`plan` fixes the schedule and, for the fixed types, the charge of a session when it starts, `extend`
recomputes both, and `finalize` is the charge when the session ends.

* `newDate_minutes`, `diffSeconds_minutes`: minutes are added to a date and measured exactly.
* `PlanFits`: the schedule and the charge a session of some type may have. `plan_fits`,
  `extend_fits`: both functions return such plans.
* `finalize_nonneg`: the final charge is not negative. -/

namespace GameClub.Sessions

open GameClub.Lib GameClub.Lib.Binary64 GameClub.Common GameClub.Store

/-- A `Date` object; `none` is an Invalid Date. -/
abbrev JsDate := Option Instant

structure PricingPlan where
  plannedEndAt : Option JsDate
  plannedAmount : Money

structure PlanParams where
  durationMinutes : Option ℤ
  plannedEndAt : Option Instant

structure ExtendParams where
  addMinutes : Option ℤ
  newEndAt : Option Instant

def SECONDS_PER_MINUTE : Number := 60

/-- A business rule without details. -/
def rule (code message : String) : Thrown := .domain (BusinessRuleException code message [])

/-- `Math.round((to - from) / 1000)`. -/
def diffSeconds (start stop : Instant) : ℤ :=
  mathRound (rnd (rnd ((stop.ms : ℚ) - start.ms) / 1000))

/-- The schedule and charge at the start of a session. -/
def Pricing.plan (type : SessionType) (ratePerHour : Number) (startedAt : Instant)
    (params : PlanParams) : Except Thrown PricingPlan :=
  match type with
  | .fixedDuration =>
    match params.durationMinutes.filter fun m => 0 < m with
    | none => .error (rule "INVALID_DURATION" "FIXED_DURATION requires a positive durationMinutes")
    | some minutes => do
      let seconds := rnd (minutes * SECONDS_PER_MINUTE)
      let plannedAmount ← Money.forDuration ratePerHour seconds
      pure ⟨some (newDate (rnd (startedAt.ms + rnd (seconds * 1000)))), plannedAmount⟩
  | .fixedEndTime =>
    match params.plannedEndAt with
    | none => .error (rule "INVALID_END_TIME" "FIXED_END_TIME requires plannedEndAt")
    | some stop =>
      let seconds := diffSeconds startedAt stop
      if seconds ≤ 0 then
        .error (rule "INVALID_END_TIME" "plannedEndAt must be after the start time")
      else do
        let plannedAmount ← Money.forDuration ratePerHour seconds
        pure ⟨some (some stop), plannedAmount⟩
  | .openSession => .ok ⟨none, Money.ZERO⟩

/-- The charge of an open session accrues, that of a fixed one is locked. -/
def Pricing.finalize (session : Session) (endedAt : Instant) : Except Thrown Money :=
  match session.type with
  | .openSession =>
    let seconds := diffSeconds session.startedAt endedAt
    Money.forDuration session.ratePerHour ((max seconds 0 : ℤ) : Number)
  | _ => Money.fromMinor session.amountDue

/-- The schedule and charge of an extended session. -/
def Pricing.extend (session : Session) (params : ExtendParams) : Except Thrown PricingPlan :=
  match session.type with
  | .fixedDuration =>
    match params.addMinutes.filter fun m => 0 < m with
    | none =>
      .error (rule "INVALID_EXTENSION" "FIXED_DURATION extension requires positive addMinutes")
    | some addMinutes =>
      let base := session.plannedEndAt.getD session.startedAt
      match newDate (rnd (base.ms + rnd (rnd (addMinutes * SECONDS_PER_MINUTE) * 1000))) with
      -- the seconds to an Invalid Date are not a number
      | none => .error (.error "Invalid duration: NaN")
      | some newEnd => do
        let plannedAmount ← Money.forDuration session.ratePerHour
          (diffSeconds session.startedAt newEnd)
        pure ⟨some (some newEnd), plannedAmount⟩
  | .fixedEndTime =>
    match params.newEndAt with
    | none => .error (rule "INVALID_EXTENSION" "FIXED_END_TIME extension requires newEndAt")
    | some newEndAt =>
      if session.plannedEndAt.any fun d => newEndAt.ms ≤ d.ms then
        .error (rule "INVALID_EXTENSION" "newEndAt must be later than the current planned end")
      else do
        let plannedAmount ← Money.forDuration session.ratePerHour
          (diffSeconds session.startedAt newEndAt)
        pure ⟨some (some newEndAt), plannedAmount⟩
  | .openSession =>
    .error (rule "CANNOT_EXTEND" "OPEN_SESSION cannot be extended; simply end it when finished")

/-! ### Seconds between dates -/

theorem diffSeconds_mono (start : Instant) {stop stop' : Instant} (h : stop.ms ≤ stop'.ms) :
    diffSeconds start stop ≤ diffSeconds start stop' := by
  have hms : (stop.ms : ℚ) ≤ stop'.ms := by exact_mod_cast h
  refine mathRound_mono (rnd_mono (div_le_div_of_nonneg_right (rnd_mono ?_) (by norm_num)))
  linarith

/-- A whole number of seconds is measured exactly. -/
theorem diffSeconds_of_eq {start stop : Instant} {n : ℤ} (hn : |n| ≤ 2 ^ 43)
    (h : stop.ms = start.ms + n * 1000) : diffSeconds start stop = n := by
  obtain ⟨h1, h2⟩ := abs_le.mp hn
  have hd : (stop.ms : ℚ) - start.ms = ((n * 1000 : ℤ) : ℚ) := by rw [h]; push_cast; ring
  have hq : ((n * 1000 : ℤ) : ℚ) / 1000 = (n : ℤ) := by push_cast; ring
  rw [diffSeconds, hd, rnd_intCast (abs_le.mpr ⟨by omega, by omega⟩), hq,
    rnd_intCast (abs_le.mpr ⟨by omega, by omega⟩), mathRound_intCast]

/-- **Minutes are added to a date exactly**, and past the last date there is none. -/
theorem newDate_minutes {base stop : Instant} {minutes : ℤ} (h0 : 0 ≤ minutes) :
    newDate (rnd (base.ms + rnd (rnd (minutes * SECONDS_PER_MINUTE) * 1000))) = some stop ↔
      stop.ms = base.ms + minutes * 60000 := by
  obtain ⟨hb0, hb1⟩ := base.ms_bounds
  unfold maxTimeValue at hb0 hb1
  -- up to there the milliseconds of the minutes are twice an integer below `2 ^ 53`
  have hexact : ∀ m : ℤ, 0 ≤ m → m ≤ 300000000000 →
      rnd (base.ms + rnd (rnd (m * SECONDS_PER_MINUTE) * 1000)) =
        rnd ((base.ms + m * 60000 : ℤ) : ℚ) := by
    intro m hm0 hm1
    have hsec : rnd (m * SECONDS_PER_MINUTE) = ((m * 60 : ℤ) : ℚ) := by
      rw [← rnd_intCast (n := m * 60) (abs_le.mpr ⟨by omega, by omega⟩)]
      push_cast
      rfl
    have hms : rnd (((m * 60 : ℤ) : ℚ) * 1000) = ((2 * (m * 30000) : ℤ) : ℚ) := by
      rw [← rnd_even (i := m * 30000) (by omega) (by omega)]
      push_cast
      ring_nf
    rw [hsec, hms]
    push_cast
    ring_nf
  rcases le_or_gt minutes 300000000000 with hsmall | hbig
  · rw [hexact minutes h0 hsmall]
    exact newDate_rnd
  · have hs := stop.ms_bounds
    unfold maxTimeValue at hs
    constructor
    · intro h
      have hmin : ((300000000000 : ℤ) : ℚ) ≤ minutes := by exact_mod_cast hbig.le
      have hsec : ((300000000000 : ℤ) : ℚ) * SECONDS_PER_MINUTE ≤ minutes * SECONDS_PER_MINUTE :=
        mul_le_mul_of_nonneg_right hmin (by norm_num [SECONDS_PER_MINUTE])
      have hms := rnd_mono (mul_le_mul_of_nonneg_right (rnd_mono hsec) (by norm_num : (0 : ℚ) ≤ 1000))
      have hle := rnd_mono (add_le_add_right hms (base.ms : ℚ))
      rw [hexact _ (by norm_num) le_rfl] at hle
      have hfar := two_pow_le_abs_rnd (n := base.ms + 300000000000 * 60000)
        (lt_abs.mpr (Or.inl (by omega)))
      have hpos : (0 : ℚ) ≤ rnd ((base.ms + 300000000000 * 60000 : ℤ) : ℚ) :=
        rnd_nonneg (by exact_mod_cast (by omega : 0 ≤ base.ms + 300000000000 * 60000))
      rw [abs_of_nonneg hpos] at hfar
      unfold newDate at h
      split_ifs at h with hvalid
      have := (hfar.trans hle).trans (abs_le.mp hvalid).2
      norm_num [maxTimeValue] at this
    · intro h
      omega

/-- **Minutes between dates are measured exactly.** -/
theorem diffSeconds_minutes {start stop : Instant} {minutes : ℤ} (h0 : 0 ≤ minutes)
    (h : stop.ms = start.ms + minutes * 60000) : diffSeconds start stop = minutes * 60 := by
  have hs := stop.ms_bounds
  have hb := start.ms_bounds
  unfold maxTimeValue at hs hb
  have hms : rnd ((stop.ms : ℚ) - start.ms) = ((2 * (minutes * 30000) : ℤ) : ℚ) := by
    rw [← rnd_even (i := minutes * 30000) (by omega) (by omega), h]
    push_cast
    ring_nf
  have hq : ((2 * (minutes * 30000) : ℤ) : ℚ) / 1000 = ((minutes * 60 : ℤ) : ℚ) := by
    push_cast
    ring
  rw [diffSeconds, hms, hq, rnd_intCast (abs_le.mpr ⟨by omega, by omega⟩), mathRound_intCast]

/-! ### Plans -/

/-- **The schedule and charge a session may have**: none for an open session; for a fixed one an end
at least a second after the start and the charge for the time until then. -/
def PlanFits (type : SessionType) (ratePerHour : ℤ) (startedAt : Instant)
    (plannedEndAt : Option Instant) (amount : ℤ) : Prop :=
  match type with
  | .openSession => plannedEndAt = none ∧ amount = 0
  | _ => ∃ stop a, plannedEndAt = some stop ∧ 1 ≤ diffSeconds startedAt stop ∧
      Money.forDuration ratePerHour (diffSeconds startedAt stop) = .ok a ∧ amount = a.value

theorem PlanFits.nonneg {type : SessionType} {ratePerHour : ℤ} {startedAt : Instant}
    {plannedEndAt : Option Instant} {amount : ℤ}
    (h : PlanFits type ratePerHour startedAt plannedEndAt amount) :
    0 ≤ amount ∧ amount ≤ maxSafeInteger := by
  have hsafe : ∀ a : Money, a.value ≤ maxSafeInteger := fun a => (abs_le.mp a.safe).2
  cases type with
  | openSession => obtain ⟨-, rfl⟩ := h; exact ⟨le_rfl, by decide⟩
  | fixedDuration => obtain ⟨_, a, -, -, hc, rfl⟩ := h; exact ⟨(forDuration_spec hc).2.2, hsafe a⟩
  | fixedEndTime => obtain ⟨_, a, -, -, hc, rfl⟩ := h; exact ⟨(forDuration_spec hc).2.2, hsafe a⟩

/-- **`plan` returns plans that fit**, when the duration asked for is at most a day. -/
theorem plan_fits {type : SessionType} {ratePerHour : ℤ} {startedAt : Instant} {params : PlanParams}
    {p : PricingPlan} {plannedEndAt : Option Instant}
    (hday : ∀ m, params.durationMinutes = some m → m ≤ 24 * 60)
    (h : Pricing.plan type ratePerHour startedAt params = .ok p)
    (hdate : p.plannedEndAt = plannedEndAt.map some) :
    PlanFits type ratePerHour startedAt plannedEndAt p.plannedAmount.value := by
  cases type with
  | openSession =>
    simp only [Pricing.plan, Except.ok.injEq] at h
    subst h
    simp only [PlanFits]
    exact ⟨by simpa using hdate.symm, rfl⟩
  | fixedDuration =>
    simp only [Pricing.plan] at h
    split at h
    · cases h
    · next minutes hm =>
      obtain ⟨hsome, hpos⟩ := Option.filter_eq_some_iff.mp hm
      have hpos : 0 < minutes := of_decide_eq_true hpos
      have hle := hday minutes hsome
      have hsec : rnd ((minutes : ℚ) * SECONDS_PER_MINUTE) = ((minutes * 60 : ℤ) : ℚ) := by
        rw [← rnd_intCast (n := minutes * 60) (abs_le.mpr ⟨by omega, by omega⟩)]
        push_cast
        rfl
      obtain ⟨a, ha, hp⟩ := bind_ok.mp h
      cases hp
      cases plannedEndAt with
      | none => cases hdate
      | some stop =>
        have hms := (newDate_minutes hpos.le).mp (Option.some.inj hdate)
        have hstop := diffSeconds_minutes hpos.le hms
        rw [hsec, ← hstop] at ha
        exact ⟨stop, a, rfl, by omega, ha, rfl⟩
  | fixedEndTime =>
    simp only [Pricing.plan] at h
    split at h
    · cases h
    · next stop hstop =>
      split_ifs at h with hneg
      obtain ⟨a, ha, hp⟩ := bind_ok.mp h
      cases hp
      cases plannedEndAt with
      | none => cases hdate
      | some stop' =>
        cases hdate
        exact ⟨stop, a, rfl, by omega, ha, rfl⟩

/-- The end of a fixed session that fits its plan. -/
theorem PlanFits.exists_end {type : SessionType} {ratePerHour : ℤ} {startedAt : Instant}
    {plannedEndAt : Option Instant} {amount : ℤ} (ht : type ≠ .openSession)
    (h : PlanFits type ratePerHour startedAt plannedEndAt amount) :
    ∃ stop, plannedEndAt = some stop ∧ 1 ≤ diffSeconds startedAt stop := by
  cases type with
  | openSession => exact absurd rfl ht
  | fixedDuration => obtain ⟨stop, _, h1, h2, -⟩ := h; exact ⟨stop, h1, h2⟩
  | fixedEndTime => obtain ⟨stop, _, h1, h2, -⟩ := h; exact ⟨stop, h1, h2⟩

/-- A later end than one that fits is again at least a second after the start. -/
theorem planFits_of_later {type : SessionType} {ratePerHour : ℤ} {startedAt stop : Instant}
    {plannedEndAt : Option Instant} {amount : ℤ} {a : Money} (ht : type ≠ .openSession)
    (h : PlanFits type ratePerHour startedAt plannedEndAt amount)
    (hlater : ∀ d, plannedEndAt = some d → d.ms ≤ stop.ms)
    (ha : Money.forDuration ratePerHour (diffSeconds startedAt stop) = .ok a) :
    PlanFits type ratePerHour startedAt (some stop) a.value := by
  obtain ⟨old, hold, h1⟩ := h.exists_end ht
  have hmono := diffSeconds_mono startedAt (hlater old hold)
  cases type with
  | openSession => exact absurd rfl ht
  | fixedDuration => exact ⟨stop, a, rfl, by omega, ha, rfl⟩
  | fixedEndTime => exact ⟨stop, a, rfl, by omega, ha, rfl⟩

/-- **`extend` returns plans that fit** when the plan so far does. -/
theorem extend_fits {session : Session} {params : ExtendParams} {p : PricingPlan} {amount : ℤ}
    (hfit : PlanFits session.type session.ratePerHour session.startedAt session.plannedEndAt amount)
    (h : Pricing.extend session params = .ok p) :
    ∃ stop, p.plannedEndAt = some (some stop) ∧ PlanFits session.type session.ratePerHour
      session.startedAt (some stop) p.plannedAmount.value := by
  unfold Pricing.extend at h
  split at h
  · next htype =>
    have ht : session.type ≠ .openSession := by simp [htype]
    split at h
    · cases h
    · next minutes hm =>
      have hpos : 0 < minutes := of_decide_eq_true (Option.filter_eq_some_iff.mp hm).2
      dsimp only at h
      split at h
      · cases h
      · next newEnd hend =>
        obtain ⟨a, ha, hp⟩ := bind_ok.mp h
        cases hp
        refine ⟨newEnd, rfl, planFits_of_later ht hfit (fun d hd => ?_) ha⟩
        rw [hd, Option.getD_some] at hend
        have hms := (newDate_minutes hpos.le).mp hend
        omega
  · next htype =>
    have ht : session.type ≠ .openSession := by simp [htype]
    split at h
    · cases h
    · next newEndAt hnew =>
      split_ifs at h with hearly
      obtain ⟨a, ha, hp⟩ := bind_ok.mp h
      cases hp
      refine ⟨newEndAt, rfl, planFits_of_later ht hfit (fun d hd => ?_) ha⟩
      rw [hd] at hearly
      simp at hearly
      exact hearly.le
  · cases h

theorem extend_ne_open {session : Session} {params : ExtendParams} {p : PricingPlan}
    (h : Pricing.extend session params = .ok p) : session.type ≠ .openSession := by
  intro ht
  unfold Pricing.extend at h
  rw [ht] at h
  cases h

/-! ### The final charge -/

theorem finalize_fixed {session : Session} {endedAt : Instant} {due : Money}
    (ht : session.type ≠ .openSession) (h : Pricing.finalize session endedAt = .ok due) :
    due.value = session.amountDue := by
  unfold Pricing.finalize at h
  split at h
  · next hopen => exact absurd hopen ht
  · exact fromMinor_ok.mp h

theorem finalize_open {session : Session} {endedAt : Instant} {due : Money}
    (ht : session.type = .openSession) (h : Pricing.finalize session endedAt = .ok due) :
    Money.forDuration session.ratePerHour
      ((max (diffSeconds session.startedAt endedAt) 0 : ℤ) : Number) = .ok due := by
  unfold Pricing.finalize at h
  rw [ht] at h
  exact h

/-- **The final charge is not negative.** -/
theorem finalize_nonneg {session : Session} {endedAt : Instant} {due : Money}
    (hdue : 0 ≤ session.amountDue) (h : Pricing.finalize session endedAt = .ok due) :
    0 ≤ due.value := by
  by_cases ht : session.type = .openSession
  · exact (forDuration_spec (finalize_open ht h)).2.2
  · rw [finalize_fixed ht h]; exact hdue

end GameClub.Sessions
