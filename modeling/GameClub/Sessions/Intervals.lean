import Mathlib
import GameClub.Lib.Arrivals
import GameClub.Sessions.Exclusive

/-! # The time a session bills

A session bills its computer from `startedAt` to `endedAt`. A start and an end read the clock when
they arrive and run later, so they may commit in another order than that of their times.

* `BilledOnce`: no time of a computer is billed twice.
* `serves_billed`: a start keeps this when every session of its computers has ended by its time.
* `billed_once`: it holds in every run in which an end commits only after the starts of its computer
  that arrived before it.
* `billed_twice`: an end that overtakes a start. -/

namespace GameClub.Sessions

open GameClub.Lib GameClub.Lib.RowLock GameClub.Common GameClub.Store GameClub.Concurrency

/-! ### Intervals -/

/-- The end of a session; an `ACTIVE` one has none. -/
def closedAt (s : Session) : Option Instant := if s.status = .active then none else s.endedAt

/-- **The times a session bills.** -/
def billed (s : Session) : Set ℤ :=
  {x | s.startedAt.ms ≤ x ∧ ∀ e, closedAt s = some e → x < e.ms}

/-- **No time of a computer is billed by two sessions**; a cancelled one bills nothing. -/
def BilledOnce (db : Db) : Prop := ∀ s ∈ db.sessions.rows, ∀ t ∈ db.sessions.rows, s.id ≠ t.id →
  s.computerId = t.computerId → s.status ≠ .cancelled → t.status ≠ .cancelled →
  Disjoint (billed s) (billed t)

/-- The sessions that ended on a computer did so by each of the times `K` gives for it. -/
def EndedBy (K : Uuid → ℤ → Prop) (db : Db) : Prop := ∀ s ∈ db.sessions.rows, s.status = .ended →
  ∃ e, s.endedAt = some e ∧ ∀ T, K s.computerId T → e.ms ≤ T

theorem EndedBy.mono {K K' : Uuid → ℤ → Prop} {db : Db} (h : EndedBy K db)
    (hK : ∀ id T', K' id T' → ∃ T, K id T ∧ T ≤ T') : EndedBy K' db := by
  intro s hs hended
  obtain ⟨e, he, hbound⟩ := h s hs hended
  refine ⟨e, he, fun T' hT' => ?_⟩
  obtain ⟨T, hT, hle⟩ := hK _ _ hT'
  have hT := hbound T hT
  omega

/-- An active session bills every time from its start on. -/
theorem billed_active {s : Session} (ha : s.status = .active) : billed s = Set.Ici s.startedAt.ms := by
  ext x
  simp [billed, closedAt, ha]

/-- Closing a session, or changing its plan, bills no new time. -/
theorem billed_subset {s s' : Session} (ha : s.status = .active)
    (hstart : s'.startedAt = s.startedAt) : billed s' ⊆ billed s := by
  rw [billed_active ha]
  intro x hx
  have hle : s'.startedAt.ms ≤ x := hx.1
  rw [hstart] at hle
  exact hle

/-! ### What the requests keep -/

section Keeps

variable {K : Uuid → ℤ → Prop} {db db' : Db}

/-- **A session is opened** on a computer whose sessions have ended by then. -/
theorem BilledOnce.opened (h : BilledOnce db) (hended : EndedBy K db) {s : Session}
    (hfree : ¬ Busy db s.computerId) (hid : db.sessions.get? s.id = none) (ha : s.status = .active)
    (hK : K s.computerId s.startedAt.ms) :
    BilledOnce (Sessions.opened db s) ∧ EndedBy K (Sessions.opened db s) := by
  have hmem : ∀ {t}, t ∈ (Sessions.opened db s).sessions.rows ↔ t ∈ db.sessions.rows ∨ t = s := by
    intro t
    rw [opened_sessions]
    exact Table.mem_insert hid
  have hbefore : ∀ t ∈ db.sessions.rows, t.computerId = s.computerId → t.status ≠ .cancelled →
      Disjoint (billed t) (billed s) := by
    intro t ht hc hcancelled
    have hnot : t.status ≠ .active := fun hta => hfree ⟨t, ht, hc, hta⟩
    have hend : t.status = .ended := by
      cases hst : t.status with
      | active => exact absurd hst hnot
      | ended => rfl
      | cancelled => exact absurd hst hcancelled
    obtain ⟨e, he, hbound⟩ := hended t ht hend
    have hle : e.ms ≤ s.startedAt.ms := hbound _ (hc ▸ hK)
    refine Set.disjoint_left.mpr fun x hx hx' => ?_
    have hlt : x < e.ms := hx.2 e (by simp [closedAt, hend, he])
    have hge : s.startedAt.ms ≤ x := hx'.1
    omega
  constructor
  · intro t ht u hu hne hc htc huc
    rcases hmem.mp ht with htold | rfl
    · rcases hmem.mp hu with huold | rfl
      · exact h t htold u huold hne hc htc huc
      · exact hbefore t htold hc htc
    · rcases hmem.mp hu with huold | rfl
      · exact (hbefore u huold hc.symm huc).symm
      · exact absurd rfl hne
  · intro t ht htend
    rcases hmem.mp ht with htold | rfl
    · exact hended t htold htend
    · rw [ha] at htend
      cases htend

/-- **An active session is saved** with another status or plan. -/
theorem BilledOnce.saved (h : BilledOnce db) (hended : EndedBy K db) {id : Uuid} {s s' : Session}
    (hs : db.sessions.get? id = some s) (ha : s.status = .active)
    (hses : db'.sessions = db.sessions.set s') (hid : s'.id = s.id)
    (hc : s'.computerId = s.computerId) (hstart : s'.startedAt = s.startedAt)
    (hend : s'.status = .ended → ∃ e, s'.endedAt = some e ∧ ∀ T, K s.computerId T → e.ms ≤ T) :
    BilledOnce db' ∧ EndedBy K db' := by
  have hkey : s.id = id := Table.key_of_get? hs
  have hrow : s ∈ db.sessions.rows := (Table.mem_of_get? hs).1
  have hmem : ∀ {t}, t ∈ db'.sessions.rows ↔ t = s' ∨ (t ∈ db.sessions.rows ∧ t.id ≠ s'.id) := by
    intro t
    rw [hses]
    exact Table.mem_set (by rw [hid, hkey, hs]; simp)
  have hother : ∀ t ∈ db.sessions.rows, t.id ≠ s'.id → t.computerId = s'.computerId →
      t.status ≠ .cancelled → Disjoint (billed t) (billed s') := by
    intro t ht hne hct htc
    have hdisj : Disjoint (billed t) (billed s) :=
      h t ht s hrow (by rwa [← hid]) (hct.trans hc) htc (by rw [ha]; decide)
    exact hdisj.mono_right (billed_subset ha hstart)
  constructor
  · intro t ht u hu hne hct htc huc
    rcases hmem.mp ht with rfl | ⟨ht, htne⟩
    · rcases hmem.mp hu with rfl | ⟨hu, hune⟩
      · exact absurd rfl hne
      · exact (hother u hu hune hct.symm huc).symm
    · rcases hmem.mp hu with rfl | ⟨hu, hune⟩
      · exact hother t ht htne hct htc
      · exact h t ht u hu hne hct htc huc
  · intro t ht htend
    rcases hmem.mp ht with rfl | ⟨ht, -⟩
    · rw [hc]
      exact hend htend
    · exact hended t ht htend

theorem BilledOnce.congr (h : BilledOnce db) (hended : EndedBy K db)
    (hses : db'.sessions = db.sessions) : BilledOnce db' ∧ EndedBy K db' := by
  unfold BilledOnce EndedBy
  rw [hses]
  exact ⟨h, hended⟩

/-- **A transaction run alone keeps billed times apart**: a start when the sessions of its computers
ended by its time, an end when it is no later than the times `K` gives for its computer. -/
theorem serves_billed {q : Request} {a : Reply} (hcoh : Coherent (· = .inUse) db)
    (h : BilledOnce db) (hended : EndedBy K db) (hserves : Serves q db a db')
    (hstart : ∀ dto ctx startedAt randomUUID newIds,
      q = .start dto ctx startedAt randomUUID newIds →
      ∀ id ∈ dto.computerIds.map UuidText.value, K id startedAt.ms)
    (hend : ∀ id dto ctx endedAt newId session, q = .endSession id dto ctx endedAt newId →
      db.sessions.get? id.value = some session → ∀ T, K session.computerId T → endedAt.ms ≤ T) :
    BilledOnce db' ∧ EndedBy K db' := by
  cases q with
  | start dto ctx startedAt randomUUID newIds =>
    obtain ⟨created, hrun, -⟩ := hserves
    obtain ⟨groupId, customer, -, hall⟩ := start_ok hrun
    have hkept : Coherent (· = .inUse) db' ∧ BilledOnce db' ∧ EndedBy K db' := by
      refine startAll_preserves_of_mem
        (fun d => Coherent (· = .inUse) d ∧ BilledOnce d ∧ EndedBy K d)
        (fun computerId newId s d d' hmem hd hone => ?_) ⟨hcoh, h, hended⟩ hall
      obtain ⟨hdcoh, hdonce, hdended⟩ := hd
      obtain ⟨i, hi, hpair⟩ := List.mem_mapIdx.mp hmem
      have hnamed : computerId.value ∈ dto.computerIds.map UuidText.value := by
        obtain ⟨rfl, -⟩ := Prod.mk.inj hpair
        exact List.mem_map_of_mem (List.getElem_mem hi)
      obtain ⟨computer, room, plannedEndAt, amount, hfound, rfl, hid, -, -, rfl⟩ :=
        startOne_ok.mp hone
      obtain ⟨hget, -⟩ := Db.findComputer_eq_some.mp hfound.findComputer
      have hkey : computer.id = computerId.value := Table.key_of_get? hget
      rw [← hkey] at hget hnamed
      obtain ⟨hfree, hcoh'⟩ := Coherent.opened (P := (· = .inUse)) rfl (by decide) hdcoh
        (s := newSession dto ctx startedAt groupId customer computer room plannedEndAt amount newId)
        hget hfound.available hid rfl
      exact ⟨hcoh', hdonce.opened hdended hfree hid rfl
        (hstart dto ctx startedAt randomUUID newIds rfl _ hnamed)⟩
    exact hkept.2
  | extend id dto =>
    obtain ⟨s, hrun, -⟩ := hserves
    obtain ⟨session, p, plannedEndAt, hs, ha, -, -, rfl, rfl⟩ := extend_ok.mp hrun
    have hses : (save db { session with plannedEndAt, amountDue := p.plannedAmount.value }).sessions =
        db.sessions.set { session with plannedEndAt, amountDue := p.plannedAmount.value } := rfl
    refine h.saved hended hs ha hses rfl rfl rfl fun hst => ?_
    rw [show session.status = .ended from hst] at ha
    cases ha
  | endSession id dto ctx endedAt newId =>
    obtain ⟨s, e, hrun, -⟩ := hserves
    obtain ⟨session, due, paid, hs, ha, -, -, rfl, hset⟩ := endSession_ok.mp hrun
    exact h.saved hended hs ha hset.sessions rfl rfl rfl fun _ =>
      ⟨endedAt, rfl, hend id dto ctx endedAt newId session rfl hs⟩
  | cancel id ctx now =>
    obtain ⟨s, hrun, -⟩ := hserves
    obtain ⟨session, hs, ha, rfl, rfl⟩ := cancel_ok.mp hrun
    exact h.saved hended hs ha (release_sessions _ _) rfl rfl rfl fun hst => by cases hst
  | recordPayment input newId =>
    obtain ⟨e, hrun, -⟩ := hserves
    obtain ⟨_, _, -, -, -, -, -, -, -, rfl⟩ := Debt.recordPayment_ok.mp hrun
    exact h.congr hended rfl
  | correct customerId signedAmount actorId reason newId =>
    obtain ⟨e, hrun, -⟩ := hserves
    obtain ⟨_, -, -, -, -, -, rfl⟩ := Debt.correct_ok.mp hrun
    exact h.congr hended rfl

end Keeps

/-! ### Runs with a clock -/

instance : Preorder Instant where
  le d d' := d.ms ≤ d'.ms
  le_refl d := le_refl d.ms
  le_trans _ _ _ := le_trans

/-- What a request reads from the clock when it arrives. -/
def Stamped (now : Instant) : Request → Prop
  | .start _ _ startedAt _ _ => startedAt = now
  | .endSession _ _ _ endedAt _ => endedAt = now
  | _ => True

/-- The interleavings with the clock. -/
abbrev ClockState := Timed Res Thrown Db Write RowId Request Reply Instant

/-- **An end is in turn**: when it commits, the pending starts of its computer arrived no earlier. -/
def InTurn (c : ClockState) : Option (Label Stmt Thrown Request Reply) → Prop
  | some (.commit _ (.endSession id _ _ endedAt _) _) =>
    ∀ session dto ctx startedAt randomUUID newIds, c.state.db.sessions.get? id.value = some session →
      c.Pending (.start dto ctx startedAt randomUUID newIds) →
      session.computerId ∈ dto.computerIds.map UuidText.value → endedAt ≤ startedAt
  | _ => True

/-- The times a session of computer `id` can still be started at. -/
def Starts (c : ClockState) (id : Uuid) (T : ℤ) : Prop :=
  T = c.now.ms ∨ ∃ dto ctx startedAt randomUUID newIds,
    c.Pending (.start dto ctx startedAt randomUUID newIds) ∧
      id ∈ dto.computerIds.map UuidText.value ∧ T = startedAt.ms

/-- **The invariant of the clock**: what is pending was stamped in the past, and the sessions of a
computer have ended by each time one of it can still be started at. -/
structure OnTime (c : ClockState) : Prop where
  locks : discipline.Inv c.state
  coherent : Coherent (· = .inUse) c.state.db
  once : BilledOnce c.state.db
  ended : EndedBy (Starts c) c.state.db
  stamped : ∀ q, c.Pending q → ∃ t ≤ c.now, Stamped t q

section Clock

variable {c c' : ClockState} {l : Option (Label Stmt Thrown Request Reply)}

/-- The starts of the next configuration are no earlier. -/
theorem starts_step (h : system.TimedStep Stamped c l c') :
    ∀ id T', Starts c' id T' → ∃ T, Starts c id T ∧ T ≤ T' := by
  have hnow : c.now.ms ≤ c'.now.ms := h.now_le
  rintro id T' (rfl | ⟨dto, ctx, startedAt, randomUUID, newIds, hpending, hid, rfl⟩)
  · exact ⟨_, Or.inl rfl, hnow⟩
  · rcases h.pending hpending with hold | ⟨hstamp, -⟩
    · exact ⟨_, Or.inr ⟨dto, ctx, startedAt, randomUUID, newIds, hold, hid, rfl⟩, le_rfl⟩
    · have heq : startedAt = c'.now := hstamp
      rw [heq]
      exact ⟨_, Or.inl rfl, hnow⟩

theorem OnTime.stamped_step (h : OnTime c) (hstep : system.TimedStep Stamped c l c') :
    ∀ q, c'.Pending q → ∃ t ≤ c'.now, Stamped t q := by
  intro q hq
  rcases hstep.pending hq with hold | ⟨hstamp, -⟩
  · obtain ⟨t, ht, hstamp⟩ := h.stamped q hold
    exact ⟨t, ht.trans hstep.now_le, hstamp⟩
  · exact ⟨_, le_rfl, hstamp⟩

/-- **What commits keeps billed times apart.** -/
theorem OnTime.commit (h : OnTime c) {s : State} {l : Label Stmt Thrown Request Reply}
    (hstep : system.Step c.state l s) (hturn : InTurn c (some l)) :
    Coherent (· = .inUse) s.db ∧ BilledOnce s.db ∧ EndedBy (Starts c) s.db := by
  rcases Discipline.step_db h.locks hstep with he | ⟨i, q, a, rfl, he⟩
  · rw [he]
    exact ⟨h.coherent, h.once, h.ended⟩
  · have hpending : c.Pending q := by
      cases hstep with
      | commit hi hp => exact Or.inr ⟨i, _, hi, rfl⟩
    have hcoh : Coherent (· = .inUse) s.db := by
      rcases body_changes he with hc | ⟨hc, -⟩
      · exact Coherent.change rfl (by decide) hc h.coherent
      · exact changes_preserve (Coherent (· = .inUse))
          (fun hc hd => Coherent.change rfl (by decide) hc hd) hc h.coherent
    refine ⟨hcoh, serves_billed h.coherent h.once h.ended (body_ok he) ?_ ?_⟩
    · rintro dto ctx startedAt randomUUID newIds rfl id hid
      exact Or.inr ⟨dto, ctx, startedAt, randomUUID, newIds, hpending, hid, rfl⟩
    · rintro id dto ctx endedAt newId session rfl hs T (rfl | hstart)
      · obtain ⟨t, ht, rfl⟩ := h.stamped _ hpending
        exact ht
      · obtain ⟨dto', ctx', startedAt, randomUUID, newIds, hstart, hid, rfl⟩ := hstart
        exact hturn session dto' ctx' startedAt randomUUID newIds hs hstart hid

/-- **Every step in turn keeps it.** -/
theorem OnTime.step (h : OnTime c) (hstep : system.TimedStep Stamped c l c') (hturn : InTurn c l) :
    OnTime c' := by
  have hmono := starts_step hstep
  have hstamped := h.stamped_step hstep
  cases hstep with
  | tick hle => exact ⟨h.locks, h.coherent, h.once, h.ended.mono hmono, hstamped⟩
  | arrive hn hq => exact ⟨h.locks, h.coherent, h.once, h.ended.mono hmono, hstamped⟩
  | begin hk hs =>
    obtain ⟨hcoh, honce, hended⟩ := h.commit hs hturn
    exact ⟨h.locks.step body_guarded hs, hcoh, honce, hended.mono hmono, hstamped⟩
  | serve hl hs =>
    obtain ⟨hcoh, honce, hended⟩ := h.commit hs hturn
    exact ⟨h.locks.step body_guarded hs, hcoh, honce, hended.mono hmono, hstamped⟩

end Clock

/-- The sessions that ended did so in the past. -/
def EndedBefore (now : Instant) (db : Db) : Prop :=
  ∀ s ∈ db.sessions.rows, s.status = .ended → ∃ e, s.endedAt = some e ∧ e ≤ now

theorem onTime_idle {now : Instant} {db : Db} (h : ExclusiveKept db) (honce : BilledOnce db)
    (hpast : EndedBefore now db) : OnTime (Timed.idle now db) where
  locks := Discipline.inv_idle db
  coherent := exclusiveKept_iff.mp h
  once := honce
  ended := by
    intro s hs hend
    obtain ⟨e, he, hle⟩ := hpast s hs hend
    refine ⟨e, he, ?_⟩
    rintro T (rfl | ⟨dto, ctx, startedAt, randomUUID, newIds, ⟨k, hk⟩ | ⟨i, t, hi, -⟩, -⟩)
    · exact hle
    · cases hk
    · cases hi
  stamped := by
    rintro q (⟨k, hk⟩ | ⟨i, t, hi, -⟩)
    · cases hk
    · cases hi

/-- **No computer is billed twice for the same time** when ends and starts commit in turn. -/
theorem billed_once {now : Instant} {db : Db} (h : ExclusiveKept db) (honce : BilledOnce db)
    (hpast : EndedBefore now db) {c : ClockState}
    (hrun : system.TimedRun Stamped InTurn (Timed.idle now db) c) : BilledOnce c.state.db := by
  have hkept : OnTime c := by
    induction hrun with
    | refl => exact onTime_idle h honce hpast
    | tail _ hstep ih =>
      obtain ⟨l, hstep, hturn⟩ := hstep
      exact ih.step hstep hturn
  exact hkept.once

/-! ### A start and an end -/

/-- The session of a computer that is in use. -/
def running : Session :=
  ⟨3, none, 1, 2, none, .openSession, .active, 15000, .epoch, none, none, 0, 0, some 9, none,
    none⟩

/-- A computer with a session since the time 0. -/
def inUseDb : Db :=
  { Db.empty with
    rooms := .single ⟨2, "VIP Zone", none, 15000, true, none⟩
    computers := .single ⟨1, "PC-01", 2, .inUse, none, true, none⟩
    sessions := .single running }

def nextDto : StartSessionDto := .openOn ⟨1, 0⟩

/-- The next start on the computer. -/
def nextStart (startedAt : Instant) : Request := .start nextDto ⟨9⟩ startedAt 50 fun k => 10 + k

/-- The end of the session, at the time 10. -/
def runningEnd : Request := .endSession ⟨3, 0⟩ .inFull ⟨9⟩ ⟨10, by decide⟩ 60

/-- The database after the end and the next start. -/
def afterBoth (startedAt : Instant) : Option Db :=
  (store.eval (body runningEnd) inUseDb).toOption.bind fun x =>
    (store.eval (body (nextStart startedAt)) x.2).toOption.map Prod.snd

/-- The computer of a session and what it bills there. -/
def bill (s : Session) : Uuid × SessionStatus × ℤ × Option ℤ :=
  (s.computerId, s.status, s.startedAt.ms, s.endedAt.map Instant.ms)

/-- Both commit when the end goes first. -/
theorem both_commit {startedAt : Instant} {db : Db} (h : afterBoth startedAt = some db) :
    ∃ a a' db', store.eval (body runningEnd) inUseDb = .ok (a, db') ∧
      store.eval (body (nextStart startedAt)) db' = .ok (a', db) := by
  unfold afterBoth at h
  obtain ⟨⟨a, db'⟩, hend, hnext⟩ := Option.bind_eq_some_iff.mp h
  obtain ⟨⟨a', db''⟩, hstart, hdb⟩ := Option.map_eq_some_iff.mp hnext
  subst hdb
  refine ⟨a, a', db', ?_, ?_⟩
  · cases he : store.eval (body runningEnd) inUseDb with
    | error e => rw [he] at hend; cases hend
    | ok x => rw [he] at hend; cases hend; rfl
  · dsimp only at hstart
    cases he : store.eval (body (nextStart startedAt)) db' with
    | error e => rw [he] at hstart; cases hstart
    | ok x => rw [he] at hstart; cases hstart; rfl

theorem inUseDb_exclusive : ExclusiveKept inUseDb := by
  intro id
  by_cases hid : id = 1
  · subst hid
    refine ⟨by decide, fun row hrow => ?_⟩
    cases hrow
    decide
  · have hnil : inUseDb.activeOn id = [] := by
      simp [Db.activeOn, inUseDb, running, Ne.symm hid]
    have hnone : inUseDb.computers.get? id = none := by
      simp [Table.get?, inUseDb, Ne.symm hid]
    exact ⟨by simp [hnil], fun row hrow => by rw [hnone] at hrow; cases hrow⟩

theorem inUseDb_billedOnce : BilledOnce inUseDb := by
  intro s hs t ht hne
  rw [List.mem_singleton.mp hs, List.mem_singleton.mp ht] at hne
  exact absurd rfl hne

theorem inUseDb_endedBefore (now : Instant) : EndedBefore now inUseDb := by
  intro s hs hend
  rw [List.mem_singleton.mp hs] at hend
  cases hend

/-- The request with number `k` arrives. -/
theorem arrives {P : ClockState → Option (Label Stmt Thrown Request Reply) → Prop} {now : Instant}
    {arrived : ℕ → Option Request} {db : Db} {k : ℕ} {q : Request} (hk : arrived k = none)
    (hq : Stamped now q) (hP : ∀ c, P c none) : system.TimedRun Stamped P
      ⟨now, arrived, Config.idle db⟩ ⟨now, Function.update arrived k (some q), Config.idle db⟩ :=
  .single ⟨none, .arrive hk hq, hP _⟩

theorem passes {P : ClockState → Option (Label Stmt Thrown Request Reply) → Prop}
    {now later : Instant} {arrived : ℕ → Option Request} {db : Db} (h : now ≤ later)
    (hP : ∀ c, P c none) : system.TimedRun Stamped P ⟨now, arrived, Config.idle db⟩
      ⟨later, arrived, Config.idle db⟩ :=
  .single ⟨none, .tick h, hP _⟩

theorem inTurn_of_not_commit (c : ClockState) (l : Option (Label Stmt Thrown Request Reply))
    (h : ∀ i q a, l ≠ some (.commit i q a)) : InTurn c l := by
  match l with
  | none => trivial
  | some (.begin i q) => trivial
  | some (.exec i s) => trivial
  | some (.commit i q a) => exact absurd rfl (h i q a)
  | some (.reject i q e) => trivial
  | some (.abort i q) => trivial

/-- The end arrives at 10 and commits, and the next start arrives at 12. -/
theorem billed_once_in_turn : ∃ c : ClockState,
    system.TimedRun Stamped InTurn (Timed.idle ⟨5, by decide⟩ inUseDb) c ∧
      afterBoth ⟨12, by decide⟩ = some c.state.db ∧ BilledOnce c.state.db := by
  have hdone : (afterBoth ⟨12, by decide⟩).isSome = true := by decide +kernel
  obtain ⟨db, hdb⟩ := Option.isSome_iff_exists.mp hdone
  obtain ⟨a, a', db', hend, hstart⟩ := both_commit hdb
  have hfirst : system.TimedRun Stamped InTurn (Timed.idle ⟨5, by decide⟩ inUseDb)
      ⟨⟨10, by decide⟩, Function.update (fun _ => none) 0 (some runningEnd), Config.idle inUseDb⟩ :=
    (passes (by decide : (5 : ℤ) ≤ 10) fun _ => trivial).trans
      (arrives rfl rfl fun _ => trivial)
  have hlast : ∀ log held, InTurn ⟨⟨10, by decide⟩, Function.update (Function.update (fun _ => none)
      0 (some runningEnd)) 0 none, Config.solo inUseDb ⟨runningEnd, .pure a, log, held⟩⟩
      (some (.commit 0 runningEnd a)) := by
    intro log held session dto ctx startedAt u ids _ hpending _
    have halone := pending_solo (fun k => by by_cases hk : k = 0 <;> simp [hk]) rfl hpending
    cases halone
  have hended : system.TimedRun Stamped InTurn
      ⟨⟨10, by decide⟩, Function.update (fun _ => none) 0 (some runningEnd), Config.idle inUseDb⟩
      ⟨⟨10, by decide⟩, Function.update (Function.update (fun _ => none) 0 (some runningEnd)) 0 none,
        Config.idle db'⟩ :=
    System.timed_alone (Function.update_self ..) hend inTurn_of_not_commit hlast
  rw [Function.update_idem, Function.update_eq_self_iff.mpr rfl] at hended
  have hsecond : system.TimedRun Stamped InTurn ⟨⟨10, by decide⟩, fun _ => none, Config.idle db'⟩
      ⟨⟨12, by decide⟩, Function.update (fun _ => none) 0 (some (nextStart ⟨12, by decide⟩)),
        Config.idle db'⟩ :=
    (passes (by decide : (10 : ℤ) ≤ 12) fun _ => trivial).trans
      (arrives rfl rfl fun _ => trivial)
  have hstarted : system.TimedRun Stamped InTurn
      ⟨⟨12, by decide⟩, Function.update (fun _ => none) 0 (some (nextStart ⟨12, by decide⟩)),
        Config.idle db'⟩
      ⟨⟨12, by decide⟩, Function.update (Function.update (fun _ => none) 0
        (some (nextStart ⟨12, by decide⟩))) 0 none, Config.idle db⟩ :=
    System.timed_alone (Function.update_self ..) hstart inTurn_of_not_commit fun _ _ => trivial
  have hrun := ((hfirst.trans hended).trans hsecond).trans hstarted
  exact ⟨_, hrun, hdb,
    billed_once inUseDb_exclusive inUseDb_billedOnce (inUseDb_endedBefore _) hrun⟩

/-- The end of a session overlaps what the next one bills. -/
theorem not_billedOnce {db : Db} {s t : Session} (hs : db.sessions.get? 3 = some s)
    (ht : db.sessions.get? 10 = some t) (hsb : bill s = (1, .ended, 0, some 10))
    (htb : bill t = (1, .active, 5, none)) : ¬ BilledOnce db := by
  simp only [bill, Prod.mk.injEq] at hsb htb
  obtain ⟨hsc, hsst, hs0, hse⟩ := hsb
  obtain ⟨htc, htst, ht5, -⟩ := htb
  have hsid : s.id = 3 := Table.key_of_get? hs
  have htid : t.id = 10 := Table.key_of_get? ht
  intro h
  have hdisj := h s (Table.mem_of_get? hs).1 t (Table.mem_of_get? ht).1 (by rw [hsid, htid]; decide)
    (by rw [hsc, htc]) (by rw [hsst]; decide) (by rw [htst]; decide)
  have hmem : (7 : ℤ) ∈ billed s := by
    refine ⟨by omega, fun e he => ?_⟩
    have hend : s.endedAt = some e := by simpa [closedAt, hsst] using he
    rw [hend] at hse
    have hms : e.ms = 10 := by simpa using hse
    omega
  have hmem' : (7 : ℤ) ∈ billed t := by
    rw [billed_active htst]
    show t.startedAt.ms ≤ 7
    omega
  exact Set.disjoint_left.mp hdisj hmem hmem'

/-- **The end overtakes a start**: the start arrives at 5 and the end at 10, and the end runs first.
The times from 5 to 10 are billed twice. -/
theorem billed_twice : ∃ c : ClockState, ExclusiveKept inUseDb ∧ BilledOnce inUseDb ∧
    EndedBefore ⟨5, by decide⟩ inUseDb ∧
    system.TimedRun Stamped (fun _ _ => True) (Timed.idle ⟨5, by decide⟩ inUseDb) c ∧
    ¬ BilledOnce c.state.db := by
  have hold : (afterBoth ⟨5, by decide⟩).bind (fun db => (db.sessions.get? 3).map bill) =
      some (1, .ended, 0, some 10) := by decide +kernel
  have hnew : (afterBoth ⟨5, by decide⟩).bind (fun db => (db.sessions.get? 10).map bill) =
      some (1, .active, 5, none) := by decide +kernel
  obtain ⟨db, hdb, hbill⟩ := Option.bind_eq_some_iff.mp hold
  rw [hdb] at hnew
  obtain ⟨s, hs, hsb⟩ := Option.map_eq_some_iff.mp hbill
  obtain ⟨t, ht, htb⟩ := Option.map_eq_some_iff.mp hnew
  obtain ⟨a, a', db', hend, hstart⟩ := both_commit hdb
  have harrive : system.TimedRun Stamped (fun _ _ => True) (Timed.idle ⟨5, by decide⟩ inUseDb)
      ⟨⟨5, by decide⟩, Function.update (fun _ => none) 0 (some (nextStart ⟨5, by decide⟩)),
        Config.idle inUseDb⟩ := arrives rfl rfl fun _ => trivial
  have hwaits : system.TimedRun Stamped (fun _ _ => True) (Timed.idle ⟨5, by decide⟩ inUseDb)
      ⟨⟨10, by decide⟩, Function.update (Function.update (fun _ => none) 0
        (some (nextStart ⟨5, by decide⟩))) 1 (some runningEnd), Config.idle inUseDb⟩ :=
    (harrive.trans (passes (by decide : (5 : ℤ) ≤ 10) fun _ => trivial)).trans
      (arrives rfl rfl fun _ => trivial)
  have hovertakes : system.TimedRun Stamped (fun _ _ => True)
      ⟨⟨10, by decide⟩, Function.update (Function.update (fun _ => none) 0
        (some (nextStart ⟨5, by decide⟩))) 1 (some runningEnd), Config.idle inUseDb⟩
      ⟨⟨10, by decide⟩, Function.update (Function.update (Function.update (fun _ => none) 0
        (some (nextStart ⟨5, by decide⟩))) 1 (some runningEnd)) 1 none, Config.idle db'⟩ :=
    System.timed_alone (Function.update_self ..) hend (fun _ _ _ => trivial) fun _ _ => trivial
  have hwaiting : Function.update (Function.update (Function.update (fun _ => none) 0
      (some (nextStart ⟨5, by decide⟩))) 1 (some runningEnd)) 1 none 0 =
        some (nextStart ⟨5, by decide⟩) := by simp
  obtain ⟨after, hstarted⟩ : ∃ after, system.TimedRun Stamped (fun _ _ => True)
      ⟨⟨10, by decide⟩, Function.update (Function.update (Function.update (fun _ => none) 0
        (some (nextStart ⟨5, by decide⟩))) 1 (some runningEnd)) 1 none, Config.idle db'⟩
      ⟨⟨10, by decide⟩, after, Config.idle db⟩ :=
    ⟨_, System.timed_alone hwaiting hstart (fun _ _ _ => trivial) fun _ _ => trivial⟩
  exact ⟨_, inUseDb_exclusive, inUseDb_billedOnce, inUseDb_endedBefore _,
    (hwaits.trans hovertakes).trans hstarted, not_billedOnce hs ht hsb htb⟩

end GameClub.Sessions
