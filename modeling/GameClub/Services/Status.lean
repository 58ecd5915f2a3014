import GameClub.Services.Operations
import GameClub.Sessions.Refusals

/-! # Computer status under administration

The sessions service drives the status of a computer, and an update of the computer may set it to
anything.

* `InStep`: `IN_USE` means an `ACTIVE` session, and an `ACTIVE` session means not `AVAILABLE`.
* `StatusFits`: an update sets `IN_USE` only while a session is on the computer, and `AVAILABLE` only
  while none is.
* `inStep_iff`: a run stays in step exactly when its updates fit; then no start is refused by the
  unique index, and a computer in use can be freed.
* `inStep_fails`: two updates that do not fit. -/

namespace GameClub.Services

open GameClub.Lib GameClub.Common GameClub.Store GameClub.Sessions

/-- **Status and sessions agree** for every computer that is not removed. -/
def InStep (db : Db) : Prop := ∀ id c, db.findComputer id = some c →
  (c.status = .inUse → Busy db id) ∧ (Busy db id → c.status ≠ .available)

/-- An update that is going to be written sets `IN_USE` only with a session on the computer, and
`AVAILABLE` only without. -/
def StatusFits (db : Db) : Op → Prop
  | .updateComputer id dto byRelation =>
    (∃ x, Computers.updatedRow id dto byRelation db = .ok x) →
      (dto.status = some (some .inUse) → Busy db id.value) ∧
      (dto.status = some (some .available) → ¬ Busy db id.value)
  | _ => True

/-- Computers and sessions agree, and every session is on a computer there is. -/
structure Sound (db : Db) : Prop where
  coherent : Coherent (· ≠ .available) db
  housed : ∀ s ∈ db.sessions.rows, db.computers.get? s.computerId ≠ none

theorem Sound.inStep {db : Db} (h : Sound db) : InStep db := by
  intro id c hc
  obtain ⟨hrow, hdel⟩ := Db.findComputer_eq_some.mp hc
  exact ⟨h.coherent.inUse hrow hdel, h.coherent.busy hrow⟩

/-! ### The transactions -/

theorem release_present (db : Db) (id k : Uuid) (h : db.computers.get? k ≠ none) :
    (release db id).computers.get? k ≠ none := by
  rw [release_get?]
  simpa using h

theorem setStatus_present (db : Db) (id : Uuid) (status : ComputerStatus) (k : Uuid)
    (h : db.computers.get? k ≠ none) : (db.setStatus id status).computers.get? k ≠ none := by
  rw [setStatus_get?]
  split_ifs with hk
  · subst hk
    simpa using h
  · exact h

/-- The sessions after one is saved are on the computers they were on. -/
theorem Sound.housed_set {db : Db} (h : Sound db) {id : Uuid} {old s t : Session}
    (ht : t ∈ (db.sessions.set s).rows) (hold : db.sessions.get? id = some old)
    (hcomp : s.computerId = old.computerId) : db.computers.get? t.computerId ≠ none := by
  rcases Table.mem_of_mem_set ht with rfl | ht
  · rw [hcomp]
    exact h.housed old (Table.mem_of_get? hold).1
  · exact h.housed t ht

theorem Sound.change {db db' : Db} (hc : Change db db') (h : Sound db) : Sound db' := by
  refine ⟨Coherent.change (by decide) (by decide) hc h.coherent, ?_⟩
  cases hc with
  | opened hstart hid =>
    obtain ⟨hget, -⟩ := Db.findComputer_eq_some.mp hstart.findComputer
    obtain ⟨hmem, -⟩ := Table.mem_of_get? hget
    intro s hs
    refine setStatus_present _ _ _ _ ?_
    rw [opened_sessions] at hs
    rcases (Table.mem_insert hid).mp hs with hs | rfl
    · exact h.housed s hs
    · show db.computers.get? _ ≠ none
      rw [newSession, Table.get?_of_mem hmem]
      simp
  | extended hs ha hp hdate => exact fun s hs' => h.housed_set hs' hs rfl
  | ended hs ha hdue hpaid hset =>
    intro s hs'
    rw [hset.sessions] at hs'
    have hpresent := h.housed_set hs' hs rfl
    cases hset with
    | inFull heq => exact release_present _ _ _ hpresent
    | booked hlt hc hid hrow => exact release_present _ _ _ hpresent
  | cancelled hs ha =>
    intro s hs'
    rw [release_sessions] at hs'
    exact release_present _ _ _ (h.housed_set hs' hs rfl)
  | paid ht hneg hle hid => exact h.housed
  | corrected ht hid => exact h.housed

/-! ### The administration -/

/-- One computer row is changed. -/
theorem Sound.computer {db : Db} (h : Sound db) {old row : Computer}
    (hold : db.computers.get? row.id = some old) (hbusy : Busy db row.id → row.status ≠ .available)
    (hinUse : row.deletedAt = none → row.status = .inUse → Busy db row.id) :
    Sound { db with computers := db.computers.set row } := by
  have hget : ∀ k, (db.computers.set row).get? k =
      if k = row.id then some row else db.computers.get? k := by
    intro k
    rw [Table.get?_set]
    split_ifs with hk
    · subst hk
      simp [hold]
    · rfl
  refine ⟨⟨h.coherent.atMostOne, fun {k c} hk hb => ?_, fun {k c} hk hdel hs => ?_⟩, fun s hs => ?_⟩
  · rw [hget] at hk
    split_ifs at hk with hkid
    · cases hk
      exact hbusy (hkid ▸ hb)
    · exact h.coherent.busy hk hb
  · rw [hget] at hk
    split_ifs at hk with hkid
    · cases hk
      exact hkid ▸ hinUse hdel hs
    · exact h.coherent.inUse hk hdel hs
  · rw [hget]
    split_ifs
    · simp
    · exact h.housed s hs

theorem Sound.administers {db db' : Db} {op : Op} (h : Sound db) (hfits : StatusFits db op)
    (ha : Administers db op db') : Sound db' := by
  cases ha with
  | @created dto newId hid =>
    -- no session is on a computer that was not there
    have hfree : ∀ s ∈ db.sessions.rows, s.computerId ≠ newId := by
      rintro s hs rfl
      exact h.housed s hs hid
    have hget : ∀ k, (db.computers.insert (Computers.newComputer dto newId)).get? k =
        if k = newId then some (Computers.newComputer dto newId) else db.computers.get? k := by
      intro k
      rw [Table.get?_insert]
      show (if k = newId then _ else _) = _
      split_ifs with hk
      · rw [hk, hid]
        rfl
      · rfl
    refine ⟨⟨h.coherent.atMostOne, fun {k c} hk hb => ?_, fun {k c} hk hdel hs => ?_⟩,
      fun s hs => ?_⟩
    · obtain ⟨s, hs, hsc, hsa⟩ := hb
      rw [hget, if_neg (hsc ▸ hfree s hs)] at hk
      exact h.coherent.busy hk ⟨s, hs, hsc, hsa⟩
    · rw [hget] at hk
      split_ifs at hk with hkid
      · cases hk
        cases hs
      · exact h.coherent.inUse hk hdel hs
    · exact fun hn => h.housed s hs (Table.get?_eq_none_of_insert hn)
  | @updated id dto byRelation saved row hrow =>
    obtain ⟨stored, hstored, hid, hdel, hstatus, -⟩ := Computers.updatedRow_ok hrow
    obtain ⟨hget, hkept⟩ := Db.findComputer_eq_some.mp hstored
    obtain ⟨hmem, hkey⟩ := Table.mem_of_get? hget
    obtain ⟨huse, havail⟩ := hfits ⟨_, hrow⟩
    have hrowid : row.id = id.value := hid.trans hkey
    refine h.computer (by rw [hrowid, hget]) (fun hb hs => ?_) fun hd hs => ?_
    · rw [hrowid] at hb
      cases hdto : dto.status with
      | none =>
        rw [hdto] at hstatus
        exact h.coherent.busy hget hb ((Option.some.inj hstatus).trans hs)
      | some s =>
        rw [hdto] at hstatus
        exact havail (by rw [hdto, ← hs]; exact congrArg some hstatus) hb
    · rw [hrowid]
      cases hdto : dto.status with
      | none =>
        rw [hdto] at hstatus
        exact h.coherent.inUse hget hkept ((Option.some.inj hstatus).trans hs)
      | some s =>
        rw [hdto] at hstatus
        exact huse (by rw [hdto, ← hs]; exact congrArg some hstatus)
  | @removed id now stored hstored =>
    obtain ⟨hget, hkept⟩ := Db.findComputer_eq_some.mp hstored
    obtain ⟨hmem, hkey⟩ := Table.mem_of_get? hget
    have hself : db.computers.get? stored.id = some stored := Table.get?_of_mem hmem
    have hbusy : Busy db stored.id → stored.status ≠ .available := h.coherent.busy hself
    refine h.computer hself hbusy fun hd _ => ?_
    cases hd
  | roomUpdated hroom hrow => exact ⟨h.coherent.congr rfl rfl, h.housed⟩

/-! ### Runs -/

theorem Sound.step {w : World} {op : Op} (h : Sound w.db) (hfits : StatusFits w.db op) :
    Sound (w.step op).db := by
  rcases (step_effect w op).changes with hchanges | hadmin
  · exact changes_preserve Sound Sound.change hchanges h
  · exact h.administers hfits hadmin

theorem Sound.after {w : World} (h : Sound w.db) {ops : List Op} (hops : EveryCall StatusFits w ops) :
    Sound (w.after ops).db :=
  after_invariant (fun _ _ => Sound.step) h hops

/-- **An update that does not fit puts status and sessions out of step.** -/
theorem statusFits_of_inStep {w : World} {op : Op} (h : InStep (w.step op).db) :
    StatusFits w.db op := by
  cases op with
  | updateComputer id dto byRelation =>
    rintro ⟨⟨saved, row⟩, hrow⟩
    obtain ⟨stored, hstored, hid, hdel, hstatus, -⟩ := Computers.updatedRow_ok hrow
    obtain ⟨hget, hkept⟩ := Db.findComputer_eq_some.mp hstored
    have hkey : row.id = id.value := hid.trans (Table.key_of_get? hget)
    rw [World.step, Computers.update_call, hrow] at h
    have hfound : Db.findComputer { w.db with computers := w.db.computers.set row } id.value =
        some row := by
      refine Db.findComputer_eq_some.mpr ⟨?_, hdel.trans hkept⟩
      show (w.db.computers.set row).get? id.value = some row
      rw [← hkey]
      exact Table.get?_set_self (by rw [hkey, hget]; simp)
    obtain ⟨huse, havail⟩ := h id.value row hfound
    refine ⟨fun hdto => huse ?_, fun hdto hb => havail hb ?_⟩
    · rw [hdto] at hstatus
      exact (Option.some.inj hstatus).symm
    · rw [hdto] at hstatus
      exact (Option.some.inj hstatus).symm
  | _ => trivial

/-! ### Starts and releases -/

theorem start_not_refused {w : World} (h : Sound w.db) (dto : StartSessionDto) (ctx : ActorContext)
    (startedAt : Instant) (randomUUID : Uuid) (newIds : ℕ → Uuid) :
    ((start dto ctx startedAt randomUUID newIds).call w).1 ≠ .error indexRefusal := by
  rcases he : store.eval (Sessions.start dto ctx startedAt randomUUID newIds) w.db with e | x
  · rw [call_start_error he]
    simpa using start_error (by decide) (by decide) h.coherent he
  · rw [call_start_ok he]
    simp

/-- **A computer in use can be freed**: cancelling the session on it makes it available. -/
def Freeable (w : World) : Prop := ∀ id c, w.db.findComputer id = some c → c.status = .inUse →
  ∃ s ∈ w.db.sessions.rows, s.computerId = id ∧ s.status = .active ∧
    ∀ (sessionId : UuidText) ctx now, sessionId.value = s.id →
      ∃ r w', (cancel sessionId ctx now).call w = (.ok r, w') ∧
        ∃ c', w'.db.findComputer id = some c' ∧ c'.status = .available

theorem Sound.freeable {w : World} (h : Sound w.db) : Freeable w := by
  intro id c hc huse
  obtain ⟨hget, hdel⟩ := Db.findComputer_eq_some.mp hc
  obtain ⟨s, hs, hsc, hsa⟩ := h.coherent.inUse hget hdel huse
  refine ⟨s, hs, hsc, hsa, fun sessionId ctx now hid => ?_⟩
  have hcancel : store.eval (Sessions.cancel sessionId ctx now) w.db = .ok (_, _) :=
    cancel_ok.mpr ⟨s, by rw [hid]; exact Table.get?_of_mem hs, hsa, rfl, rfl⟩
  refine ⟨_, _, call_cancel_ok hcancel, { c with status := .available },
    Db.findComputer_eq_some.mpr ⟨?_, hdel⟩, rfl⟩
  rw [release_get?, hsc]
  show ((w.db.computers.get? id).map _) = _
  rw [hget, Option.map_some, if_pos ⟨rfl, hdel, huse⟩]

/-- **A run stays in step exactly when its updates fit**, and while they do no start is refused by
the unique index, and every computer in use can be freed. -/
theorem inStep_iff {w : World} (h : Sound w.db) (ops : List Op) :
    ((∀ before later, ops = before ++ later → InStep (w.after before).db) ↔
      EveryCall StatusFits w ops) ∧
    (EveryCall StatusFits w ops → ∀ before later, ops = before ++ later →
      (∀ dto ctx startedAt randomUUID newIds, ((start dto ctx startedAt randomUUID newIds).call
        (w.after before)).1 ≠ .error indexRefusal) ∧ Freeable (w.after before)) := by
  have hsound : EveryCall StatusFits w ops → ∀ before later, ops = before ++ later →
      Sound (w.after before).db := by
    intro hops before later heq
    refine h.after fun before' op later' heq' => hops before' op (later' ++ later) ?_
    rw [heq, heq']
    simp
  refine ⟨⟨fun hstep before op later heq => ?_, fun hops before later heq => ?_⟩,
    fun hops before later heq => ?_⟩
  · have hafter := hstep (before ++ [op]) later (by rw [heq]; simp)
    rw [World.after_concat] at hafter
    exact statusFits_of_inStep hafter
  · exact (hsound hops before later heq).inStep
  · have hs := hsound hops before later heq
    exact ⟨start_not_refused hs, hs.freeable⟩

/-! ### Updates that do not fit -/

/-- A room without computers. -/
def emptyRoom : World :=
  { db := { Db.empty with rooms := .single ⟨2, "VIP Zone", none, 15000, true, none⟩ }
    events := [] }

theorem emptyRoom_sound : Sound emptyRoom.db := by
  have hrows : emptyRoom.db.sessions.rows = [] := rfl
  have hnone : ∀ k, emptyRoom.db.computers.get? k = none := fun _ => rfl
  refine ⟨⟨fun s hs => ?_, fun hc _ => ?_, fun hc _ _ => ?_⟩, fun s hs => ?_⟩
  · rw [hrows] at hs
    cases hs
  · rw [hnone] at hc
    cases hc
  · rw [hnone] at hc
    cases hc
  · rw [hrows] at hs
    cases hs

def newPc : Op := .createComputer ⟨"PC-01", ⟨2, 0⟩, none, by decide⟩ 1

/-- A body that sets the status only. -/
def setStatus (status : ComputerStatus) : Op :=
  .updateComputer ⟨1, 0⟩ ⟨none, none, none, some (some status), none, by simp⟩ true

/-- The body that starts an open session on the computer. -/
def openDto : StartSessionDto := .openOn ⟨1, 0⟩

/-- A session is started and its computer set to `IN_USE` once more; when the session is cancelled, the
computer is taken out of service. -/
def maintained : List Op :=
  [newPc, .start openDto ⟨9⟩ .epoch 4 fun _ => 3, setStatus .inUse, .cancel ⟨3, 0⟩ ⟨9⟩ .epoch,
    setStatus .maintenance]

theorem maintained_fits : EveryCall StatusFits emptyRoom maintained := by
  have hnone : EveryCall StatusFits (emptyRoom.after maintained) [] := fun before _ _ heq => by
    cases before <;> cases heq
  have hlast : StatusFits (emptyRoom.after (maintained.take 4)).db (setStatus .maintenance) :=
    fun _ => ⟨fun h => (nomatch h), fun h => (nomatch h)⟩
  have hbusy : StatusFits (emptyRoom.after (maintained.take 2)).db (setStatus .inUse) :=
    fun _ => ⟨fun _ => ⟨_, List.mem_singleton.mpr rfl, rfl, rfl⟩, fun h => (nomatch h)⟩
  exact .cons trivial (.cons trivial (.cons hbusy (.cons trivial (.cons hlast hnone))))

theorem inStep_iff_maintained :
    (emptyRoom.after maintained).db.computers.rows.map Computer.status = [.maintenance] ∧
    ∀ before later, maintained = before ++ later → InStep (emptyRoom.after before).db ∧
      (∀ dto ctx startedAt randomUUID newIds, ((start dto ctx startedAt randomUUID newIds).call
        (emptyRoom.after before)).1 ≠ .error indexRefusal) ∧ Freeable (emptyRoom.after before) := by
  obtain ⟨hiff, hrest⟩ := inStep_iff emptyRoom_sound maintained
  exact ⟨rfl, fun before later heq => ⟨hiff.mpr maintained_fits before later heq,
    hrest maintained_fits before later heq⟩⟩

/-- **A free computer is set to `IN_USE`**, and no session can be closed to free it; **a busy one is
set to `AVAILABLE`**, and the next start on it is refused by the unique index. -/
theorem inStep_fails : Sound emptyRoom.db ∧
    ¬ InStep (emptyRoom.after [newPc, setStatus .inUse]).db ∧
    ¬ Freeable (emptyRoom.after [newPc, setStatus .inUse]) ∧
    ((start openDto ⟨9⟩ .epoch 4 fun _ => 5).call (emptyRoom.after
      [newPc, .start openDto ⟨9⟩ .epoch 4 fun _ => 3, setStatus .available])).1 =
        .error indexRefusal := by
  refine ⟨emptyRoom_sound, fun h => ?_, fun h => ?_, rfl⟩
  · obtain ⟨s, hs, -⟩ := (h 1 _ rfl).1 rfl
    cases hs
  · obtain ⟨s, hs, -⟩ := h 1 _ rfl rfl
    cases hs

end GameClub.Services
