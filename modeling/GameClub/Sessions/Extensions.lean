import GameClub.Common.HalfUp
import GameClub.Sessions.Transactions

/-! # Extending a session

`extendAll` gives a session a first plan and then extends it again and again, each time as the row
the last extension has left. `plan` counts minutes and `extend` the milliseconds between the dates
that are stored; both are exact for every date there is.

* `ChargedUntil`: the end of a plan and the charge for the time until then; `plan` and `extend`
  return nothing else for a fixed session.
* `extendAll_chargedUntil`: where a sequence of extensions ends. `extendAll_eq_plan`: it ends with the
  plan for all of them together.
* `extendAll_concat`: each extension of a sequence moves the end on, and the charge never falls. -/

namespace GameClub.Sessions

open GameClub.Lib GameClub.Lib.Binary64 GameClub.Common GameClub.Store

/-- The row of a session with a plan. -/
def planned (session : Session) (plan : PricingPlan) : Except Thrown Session := do
  let plannedEndAt ← dateColumn plan.plannedEndAt
  pure { session with plannedEndAt, amountDue := plan.plannedAmount.value }

/-- The plan after a sequence of extensions, each of the session with the plan before it. -/
def extendAll (session : Session) (plan : PricingPlan) :
    List ExtendParams → Except Thrown PricingPlan
  | [] => .ok plan
  | params :: rest => do
    let updated ← planned session plan
    let next ← Pricing.extend updated params
    extendAll session next rest

/-- The minutes a sequence of extensions adds. -/
def addedMinutes (exts : List ExtendParams) : ℤ := (exts.map fun x => x.addMinutes.getD 0).sum

/-- The end the last extension asks for. -/
def lastEnd (exts : List ExtendParams) (plannedEndAt : Option Instant) : Option Instant :=
  exts.getLast?.elim plannedEndAt ExtendParams.newEndAt

/-! ### The plan of a fixed session -/

/-- A plan that ends at `stop` and charges the time from the start until then. -/
structure ChargedUntil (session : Session) (p : PricingPlan) (stop : Instant) : Prop where
  plannedEndAt : p.plannedEndAt = some (some stop)
  plannedAmount : Money.forDuration session.ratePerHour (diffSeconds session.startedAt stop) =
    .ok p.plannedAmount

/-- A later end costs no less. -/
theorem ChargedUntil.mono {session : Session} {p q : PricingPlan} {stop stop' : Instant}
    (hp : ChargedUntil session p stop) (hq : ChargedUntil session q stop')
    (h : stop.ms ≤ stop'.ms) : p.plannedAmount.value ≤ q.plannedAmount.value :=
  forDuration_mono (diffSeconds_mono _ h) hp.plannedAmount hq.plannedAmount

theorem planned_ok {session updated : Session} {p : PricingPlan} :
    planned session p = .ok updated ↔ ∃ plannedEndAt, p.plannedEndAt = plannedEndAt.map some ∧
      updated = { session with plannedEndAt, amountDue := p.plannedAmount.value } := by
  unfold planned
  rw [bind_ok]
  constructor
  · rintro ⟨plannedEndAt, hd, h⟩
    cases h
    exact ⟨plannedEndAt, dateColumn_ok.mp hd, rfl⟩
  · rintro ⟨plannedEndAt, hd, rfl⟩
    exact ⟨plannedEndAt, dateColumn_ok.mpr hd, rfl⟩

/-- **A planned number of minutes** ends that long after the start. -/
theorem plan_fixedDuration {session : Session} {params : PlanParams} {p : PricingPlan}
    {minutes : ℤ} {stop : Instant} (hm : params.durationMinutes = some minutes)
    (hend : p.plannedEndAt = some (some stop)) :
    Pricing.plan .fixedDuration session.ratePerHour session.startedAt params = .ok p ↔
      0 < minutes ∧ stop.ms = session.startedAt.ms + minutes * 60000 ∧
        ChargedUntil session p stop := by
  by_cases hpos : 0 < minutes
  · have hfilter : params.durationMinutes.filter (fun m => decide (0 < m)) = some minutes := by
      simp [hm, hpos]
    have hsec : ∀ d : Instant, d.ms = session.startedAt.ms + minutes * 60000 →
        ((diffSeconds session.startedAt d : ℤ) : ℚ) = rnd (minutes * SECONDS_PER_MINUTE) := by
      intro d hd
      have hs := d.ms_bounds
      have hb := session.startedAt.ms_bounds
      unfold maxTimeValue at hs hb
      rw [diffSeconds_minutes hpos.le hd,
        ← rnd_intCast (n := minutes * 60) (abs_le.mpr ⟨by omega, by omega⟩)]
      push_cast
      rfl
    simp only [Pricing.plan, hfilter, bind_ok]
    constructor
    · rintro ⟨a, ha, hp⟩
      cases hp
      have hms := (newDate_minutes hpos.le).mp (Option.some.inj hend)
      exact ⟨hpos, hms, hend, by rw [hsec stop hms]; exact ha⟩
    · rintro ⟨-, hms, -, ha⟩
      refine ⟨p.plannedAmount, by rw [← hsec stop hms]; exact ha, ?_⟩
      obtain ⟨pe, pa⟩ := p
      cases hend
      rw [(newDate_minutes hpos.le).mpr hms]
      rfl
  · have hfilter : params.durationMinutes.filter (fun m => decide (0 < m)) = none := by
      rw [hm, Option.filter_some, if_neg (by simpa using hpos)]
    simp only [Pricing.plan, hfilter, hpos, false_and, reduceCtorEq]

/-- **A planned end** is at least a second after the start. -/
theorem plan_fixedEndTime {session : Session} {params : PlanParams} {p : PricingPlan}
    {stop : Instant} (hm : params.plannedEndAt = some stop) :
    Pricing.plan .fixedEndTime session.ratePerHour session.startedAt params = .ok p ↔
      1 ≤ diffSeconds session.startedAt stop ∧ ChargedUntil session p stop := by
  simp only [Pricing.plan, hm]
  by_cases hpos : diffSeconds session.startedAt stop ≤ 0
  · rw [if_pos hpos]
    simp only [reduceCtorEq, false_iff]
    omega
  · rw [if_neg hpos, bind_ok]
    constructor
    · rintro ⟨a, ha, hp⟩
      cases hp
      exact ⟨by omega, rfl, ha⟩
    · rintro ⟨-, hend, ha⟩
      obtain ⟨pe, pa⟩ := p
      cases hend
      exact ⟨_, ha, rfl⟩

/-- **What one extension does** to a plan that ends at `stop`: it ends later, by the minutes added or
at the end asked for, and charges the time until then. -/
theorem extend_planned {session updated : Session} {p q : PricingPlan} {params : ExtendParams}
    {stop : Instant} (hp : p.plannedEndAt = some (some stop)) (hu : planned session p = .ok updated)
    (h : Pricing.extend updated params = .ok q) :
    ∃ stop', stop.ms < stop'.ms ∧ ChargedUntil session q stop' ∧
      (session.type = .fixedDuration → ∃ minutes, params.addMinutes = some minutes ∧ 0 < minutes ∧
        stop'.ms = stop.ms + minutes * 60000) ∧
      (session.type = .fixedEndTime → params.newEndAt = some stop') := by
  obtain ⟨plannedEndAt, hd, rfl⟩ := planned_ok.mp hu
  obtain rfl : plannedEndAt = some stop := by
    rw [hp] at hd
    cases plannedEndAt with
    | none => cases hd
    | some d => cases hd; rfl
  unfold Pricing.extend at h
  split at h
  · next ht =>
    split at h
    · cases h
    · next minutes hm =>
      obtain ⟨hsome, hpos⟩ := Option.filter_eq_some_iff.mp hm
      have hpos : 0 < minutes := of_decide_eq_true hpos
      dsimp only [Option.getD_some] at h
      split at h
      · cases h
      · next stop' hstop =>
        obtain ⟨a, ha, hq⟩ := bind_ok.mp h
        cases hq
        have hms := (newDate_minutes hpos.le).mp hstop
        refine ⟨stop', by omega, ⟨rfl, ha⟩, fun _ => ⟨minutes, hsome, hpos, hms⟩, fun ht' => ?_⟩
        exact absurd (ht.symm.trans ht') (by decide)
  · next ht =>
    split at h
    · cases h
    · next stop' hstop =>
      split_ifs at h with hearly
      obtain ⟨a, ha, hq⟩ := bind_ok.mp h
      cases hq
      have hlater : stop.ms < stop'.ms := by simpa using hearly
      refine ⟨stop', hlater, ⟨rfl, ha⟩, fun ht' => ?_, fun _ => hstop⟩
      exact absurd (ht.symm.trans ht') (by decide)
  · cases h

/-! ### Sequences of extensions -/

theorem extendAll_cons {session : Session} {p q : PricingPlan} {params : ExtendParams}
    {rest : List ExtendParams} : extendAll session p (params :: rest) = .ok q ↔
      ∃ updated next, planned session p = .ok updated ∧ Pricing.extend updated params = .ok next ∧
        extendAll session next rest = .ok q := by
  simp only [extendAll, bind_ok]
  constructor
  · rintro ⟨updated, hu, next, hn, h⟩
    exact ⟨updated, next, hu, hn, h⟩
  · rintro ⟨updated, next, hu, hn, h⟩
    exact ⟨updated, hu, next, hn, h⟩

theorem extendAll_append {session : Session} {p q : PricingPlan} {xs ys : List ExtendParams} :
    extendAll session p (xs ++ ys) = .ok q ↔
      ∃ mid, extendAll session p xs = .ok mid ∧ extendAll session mid ys = .ok q := by
  induction xs generalizing p with
  | nil => simp [extendAll]
  | cons x xs ih =>
    rw [List.cons_append, extendAll_cons]
    constructor
    · rintro ⟨updated, next, hu, hn, h⟩
      obtain ⟨mid, hmid, hys⟩ := ih.mp h
      exact ⟨mid, extendAll_cons.mpr ⟨updated, next, hu, hn, hmid⟩, hys⟩
    · rintro ⟨mid, hmid, hys⟩
      obtain ⟨updated, next, hu, hn, h⟩ := extendAll_cons.mp hmid
      exact ⟨updated, next, hu, hn, ih.mpr ⟨mid, h, hys⟩⟩

/-- The first plan of a fixed session that is stored. -/
theorem chargedUntil_of_plan {session updated : Session} {params : PlanParams} {p : PricingPlan}
    (ht : session.type ≠ .openSession)
    (hplan : Pricing.plan session.type session.ratePerHour session.startedAt params = .ok p)
    (hu : planned session p = .ok updated) : ∃ stop, ChargedUntil session p stop := by
  obtain ⟨plannedEndAt, hd, -⟩ := planned_ok.mp hu
  cases htype : session.type with
  | openSession => exact absurd htype ht
  | fixedDuration =>
    rw [htype] at hplan
    rcases hm : params.durationMinutes with _ | minutes
    · simp [Pricing.plan, hm] at hplan
    · rcases plannedEndAt with _ | stop
      · simp only [Pricing.plan] at hplan
        split at hplan
        · cases hplan
        · obtain ⟨a, -, hp⟩ := bind_ok.mp hplan
          cases hp
          cases hd
      · exact ⟨stop, ((plan_fixedDuration hm hd).mp hplan).2.2⟩
  | fixedEndTime =>
    rw [htype] at hplan
    rcases hm : params.plannedEndAt with _ | stop
    · simp [Pricing.plan, hm] at hplan
    · exact ⟨stop, ((plan_fixedEndTime hm).mp hplan).2⟩

/-- **Where a sequence of extensions ends**, by induction on the sequence. -/
theorem extendAll_chargedUntil {session : Session} {p q : PricingPlan} {exts : List ExtendParams}
    {stop : Instant} (hp : ChargedUntil session p stop) (h : extendAll session p exts = .ok q) :
    ∃ stop', ChargedUntil session q stop' ∧ stop.ms ≤ stop'.ms ∧
      (session.type = .fixedDuration → stop'.ms = stop.ms + addedMinutes exts * 60000) ∧
      (session.type = .fixedEndTime → lastEnd exts (some stop) = some stop') := by
  induction exts generalizing p stop with
  | nil =>
    cases h
    refine ⟨stop, hp, le_rfl, fun _ => ?_, fun _ => rfl⟩
    simp [addedMinutes]
  | cons x rest ih =>
    obtain ⟨updated, next, hu, hx, hrest⟩ := extendAll_cons.mp h
    obtain ⟨mid, hlt, hmid, hadd, hnew⟩ := extend_planned hp.plannedEndAt hu hx
    obtain ⟨stop', hq, hle, hsum, hlast⟩ := ih hmid hrest
    refine ⟨stop', hq, by omega, fun ht => ?_, fun ht => ?_⟩
    · obtain ⟨minutes, hm, -, hms⟩ := hadd ht
      have hcons : addedMinutes (x :: rest) = minutes + addedMinutes rest := by
        simp [addedMinutes, hm]
      have := hsum ht
      omega
    · rw [← hlast ht]
      cases rest with
      | nil => simp [lastEnd, hnew ht]
      | cons y ys => simp [lastEnd, List.getLast?_cons]

/-- **One extension of a sequence** moves the end on, and costs no less. -/
theorem extendAll_concat {session : Session} {p before after : PricingPlan} {x : ExtendParams}
    {xs : List ExtendParams} {stop : Instant} (hp : ChargedUntil session p stop)
    (hxs : extendAll session p xs = .ok before) (hx : extendAll session before [x] = .ok after) :
    ∃ end₁ end₂, before.plannedEndAt = some (some end₁) ∧ after.plannedEndAt = some (some end₂) ∧
      end₁.ms < end₂.ms ∧ before.plannedAmount.value ≤ after.plannedAmount.value := by
  obtain ⟨end₁, hbefore, -⟩ := extendAll_chargedUntil hp hxs
  obtain ⟨updated, next, hu, hext, hnil⟩ := extendAll_cons.mp hx
  cases hnil
  obtain ⟨end₂, hlt, hafter, -⟩ := extend_planned hbefore.plannedEndAt hu hext
  exact ⟨end₁, end₂, hbefore.plannedEndAt, hafter.plannedEndAt, hlt, hbefore.mono hafter hlt.le⟩

/-- A session of a fixed duration on the first computer. -/
def prepaid : Session :=
  ⟨1, none, 1, 1, none, .fixedDuration, .active, 6000, .epoch, none, none, 0, 0, none, none, none⟩

/-- **Extending is planning**: a sequence of extensions ends with the plan for all the minutes
together, or for the last end asked for; on the way the end moves on and the charge never falls. -/
theorem extendAll_eq_plan {session : Session} {params : PlanParams} {p q : PricingPlan}
    {exts : List ExtendParams}
    (hplan : Pricing.plan session.type session.ratePerHour session.startedAt params = .ok p)
    (hext : extendAll session p exts = .ok q) :
    (session.type = .fixedDuration → ∀ minutes, params.durationMinutes = some minutes →
      Pricing.plan .fixedDuration session.ratePerHour session.startedAt
        { params with durationMinutes := some (minutes + addedMinutes exts) } = .ok q) ∧
    (session.type = .fixedEndTime →
      Pricing.plan .fixedEndTime session.ratePerHour session.startedAt
        { params with plannedEndAt := lastEnd exts params.plannedEndAt } = .ok q) ∧
    ∀ xs x ys, exts = xs ++ x :: ys → ∃ before after end₁ end₂,
      extendAll session p xs = .ok before ∧ extendAll session p (xs ++ [x]) = .ok after ∧
      before.plannedEndAt = some (some end₁) ∧ after.plannedEndAt = some (some end₂) ∧
      end₁.ms < end₂.ms ∧ before.plannedAmount.value ≤ after.plannedAmount.value := by
  rcases exts with _ | ⟨first, rest⟩
  · cases hext
    refine ⟨fun ht minutes hm => ?_, fun ht => ?_, fun xs x ys h => ?_⟩
    · have hzero : minutes + addedMinutes [] = minutes := by simp [addedMinutes]
      rw [hzero, ← hm, ← ht]
      exact hplan
    · rw [← ht]
      exact hplan
    · simp at h
  · obtain ⟨updated, next, hu, hfirst, -⟩ := extendAll_cons.mp hext
    have hopen : session.type ≠ .openSession := by
      obtain ⟨_, -, rfl⟩ := planned_ok.mp hu
      exact fun ht => extend_ne_open hfirst ht
    obtain ⟨stop, hp⟩ := chargedUntil_of_plan hopen hplan hu
    obtain ⟨stop', hq, hle, hsum, hlast⟩ := extendAll_chargedUntil hp hext
    refine ⟨fun ht minutes hm => ?_, fun ht => ?_, fun xs x ys h => ?_⟩
    · rw [ht] at hplan
      obtain ⟨hpos, hms, -⟩ := (plan_fixedDuration hm hp.plannedEndAt).mp hplan
      have htotal := hsum ht
      exact (plan_fixedDuration rfl hq.plannedEndAt).mpr ⟨by omega, by omega, hq⟩
    · rw [ht] at hplan
      rcases hm : params.plannedEndAt with _ | stop₀
      · simp [Pricing.plan, hm] at hplan
      · obtain ⟨hsec, hp₀⟩ := (plan_fixedEndTime hm).mp hplan
        obtain rfl : stop₀ = stop :=
          Option.some.inj (Option.some.inj (hp₀.plannedEndAt.symm.trans hp.plannedEndAt))
        have hlater := diffSeconds_mono session.startedAt hle
        exact (plan_fixedEndTime (hlast ht)).mpr ⟨by omega, hq⟩
    · rw [h, ← List.singleton_append, ← List.append_assoc] at hext
      obtain ⟨after, hafter, -⟩ := extendAll_append.mp hext
      obtain ⟨before, hbefore, hx⟩ := extendAll_append.mp hafter
      obtain ⟨end₁, end₂, h1, h2, hlt, hamount⟩ := extendAll_concat hp hbefore hx
      exact ⟨before, after, end₁, end₂, hbefore, hafter, h1, h2, hlt, hamount⟩

/-- An hour, half an hour and a quarter more, planned at once. -/
theorem prepaid_extended : ∃ p q,
    Pricing.plan prepaid.type prepaid.ratePerHour prepaid.startedAt ⟨some 60, none⟩ = .ok p ∧
      extendAll prepaid p [⟨some 30, none⟩, ⟨some 15, none⟩] = .ok q ∧
      Pricing.plan .fixedDuration prepaid.ratePerHour prepaid.startedAt ⟨some 105, none⟩ = .ok q := by
  have hplan : (Pricing.plan prepaid.type prepaid.ratePerHour prepaid.startedAt
      ⟨some 60, none⟩).toOption.any (fun p =>
        (extendAll prepaid p [⟨some 30, none⟩, ⟨some 15, none⟩]).toOption.isSome) = true := by
    decide +kernel
  rcases hp : Pricing.plan prepaid.type prepaid.ratePerHour prepaid.startedAt ⟨some 60, none⟩
    with _ | p
  · simp [hp, Except.toOption] at hplan
  · rw [hp] at hplan
    rcases hq : extendAll prepaid p [⟨some 30, none⟩, ⟨some 15, none⟩] with _ | q
    · simp [hq, Except.toOption] at hplan
    · exact ⟨p, q, rfl, hq, (extendAll_eq_plan hp hq).1 rfl 60 rfl⟩

/-- An extend request stores the extended plan of an active session. -/
theorem extend_stores {index : Bool} {db db' : Db} {id : UuidText} {dto : ExtendSessionDto}
    {s : Session} : (database index).eval (extend id dto) db = .ok (s, db') ↔
      ∃ session p, db.sessions.get? id.value = some session ∧ session.status = .active ∧
        Pricing.extend session ⟨dto.addMinutes, dto.newEndAt⟩ = .ok p ∧
        planned session p = .ok s ∧ db' = save db s := by
  rw [extend_ok]
  constructor
  · rintro ⟨session, p, plannedEndAt, hs, ha, hp, hd, hrow, hdb⟩
    exact ⟨session, p, hs, ha, hp, planned_ok.mpr ⟨plannedEndAt, hd, hrow⟩, hdb⟩
  · rintro ⟨session, p, hs, ha, hp, hrow, hdb⟩
    obtain ⟨plannedEndAt, hd, hrow⟩ := planned_ok.mp hrow
    exact ⟨session, p, plannedEndAt, hs, ha, hp, hd, hrow, hdb⟩

end GameClub.Sessions
