import GameClub.Common.HalfUp
import GameClub.Services.Requests
import GameClub.Services.Status

/-! # Closing a session

An end without a body charges a session and takes the charge as paid. The one check on its way that
can fail for an active session is the range of the charge, which an open session meets only when it
ends: prices have no upper bound.

* `closes_iff`: which active sessions a request to end them closes, in every database reached.
* `closes_fails`: a price too high for two seconds, and a computer that was removed. -/

namespace GameClub.Services

open GameClub.Lib GameClub.Lib.Binary64 GameClub.Common GameClub.Store GameClub.Sessions

/-- The rate of an open session times the seconds charged is a safe integer. -/
def InRange (s : Session) (endedAt : Instant) : Prop :=
  s.type = .openSession → s.ratePerHour * diffSeconds s.startedAt endedAt ≤ 2 ^ 53 - 1

/-- An end without a body has closed `s`: it is stored as ended, and nothing is left to pay. -/
structure ClosedInFull (s saved : Session) (db : Db) : Prop where
  stored : db.sessions.get? s.id = some saved
  ended : saved.status = .ended
  inFull : saved.amountPaid = saved.amountDue

/-- **The request closes the session**, and its computer is not `IN_USE` any more. -/
def Closes (w : World) (s : Session) (capitals : ℕ) (ctx : ActorContext) (endedAt : Instant)
    (newId : Uuid) : Prop :=
  ∃ saved w', (endSession ⟨s.id, capitals⟩ .inFull ctx endedAt newId).call w = (.ok saved, w') ∧
    ClosedInFull s saved w'.db ∧
    ∀ c, w'.db.computers.get? s.computerId = some c → c.status ≠ .inUse

/-! ### The charge -/

theorem diffSeconds_nonneg {start stop : Instant} (h : start.ms ≤ stop.ms) :
    0 ≤ diffSeconds start stop := by
  have hzero : diffSeconds start start = 0 := diffSeconds_of_eq (by norm_num) (by omega)
  have hmono := diffSeconds_mono start h
  omega

/-- **Which sessions are charged**: a locked charge is in range, and an accrued one when the product
of rate and seconds is. -/
theorem finalize_accepts {s : Session} {endedAt : Instant} (hb : Billed s) (hr : 0 ≤ s.ratePerHour)
    (h : s.startedAt.ms ≤ endedAt.ms) :
    (∃ due, Pricing.finalize s endedAt = .ok due) ↔ InRange s endedAt := by
  have hsec := diffSeconds_nonneg h
  by_cases ht : s.type = .openSession
  · have hcharge : Pricing.finalize s endedAt =
        Money.forDuration s.ratePerHour (diffSeconds s.startedAt endedAt) := by
      unfold Pricing.finalize
      simp only [ht, max_eq_left hsec]
    unfold InRange
    rw [hcharge, forDuration_accepts hr hsec]
    exact ⟨fun hle _ => hle, fun hle => hle ht⟩
  · have hsafe : |s.amountDue| ≤ maxSafeInteger :=
      abs_le.mpr ⟨by have := hb.due_safe; omega, hb.due_safe.2⟩
    have hcharge : Pricing.finalize s endedAt = .ok ⟨s.amountDue, hsafe⟩ := by
      unfold Pricing.finalize
      cases htype : s.type with
      | openSession => exact absurd htype ht
      | fixedDuration => exact fromMinor_ok.mpr rfl
      | fixedEndTime => exact fromMinor_ok.mpr rfl
    exact ⟨fun _ ht' => absurd ht' ht, fun _ => ⟨_, hcharge⟩⟩

/-! ### The request -/

section

variable {w : World} {s : Session} {capitals : ℕ} {ctx : ActorContext} {endedAt : Instant}
  {newId : Uuid}

/-- The row an end without a body leaves. -/
abbrev paidInFull (s : Session) (ctx : ActorContext) (endedAt : Instant) (due : Money) : Session :=
  endedSession s .inFull ctx endedAt due due

/-- A session that is charged is closed. -/
theorem call_endSession_ok {due : Money} (hs : w.db.sessions.get? s.id = some s)
    (ha : s.status = .active) (hdue : Pricing.finalize s endedAt = .ok due) :
    (endSession ⟨s.id, capitals⟩ .inFull ctx endedAt newId).call w =
      (.ok (paidInFull s ctx endedAt due),
        ⟨release (save w.db (paidInFull s ctx endedAt due)) s.computerId,
          .sessionEnded (toEvent (paidInFull s ctx endedAt due)) :: w.events⟩) := by
  have hend : store.eval (Sessions.endSession ⟨s.id, capitals⟩ .inFull ctx endedAt newId) w.db =
      .ok ((paidInFull s ctx endedAt due, none),
        release (save w.db (paidInFull s ctx endedAt due)) s.computerId) :=
    endSession_ok.mpr ⟨s, due, due, hs, ha, hdue, rfl, rfl, .inFull rfl⟩
  unfold endSession
  rw [Service.call_bind, call_transaction_ok hend]
  rfl

/-- A session that is not charged is not closed. -/
theorem call_endSession_error (hs : w.db.sessions.get? s.id = some s)
    (hdue : ¬ ∃ due, Pricing.finalize s endedAt = .ok due) :
    ∃ e, (endSession ⟨s.id, capitals⟩ .inFull ctx endedAt newId).call w = (.error e, w) := by
  rcases hend : store.eval (Sessions.endSession ⟨s.id, capitals⟩ .inFull ctx endedAt newId) w.db
    with e | ⟨⟨saved, debt⟩, db'⟩
  · refine ⟨e, ?_⟩
    unfold endSession
    rw [Service.call_bind, call_transaction_error hend]
  · obtain ⟨session, due, _, hs', -, hfin, -⟩ := endSession_ok.mp hend
    rw [hs] at hs'
    cases hs'
    exact absurd ⟨due, hfin⟩ hdue

/-- The computer of a closed session is not `IN_USE`, unless it was removed. -/
theorem release_not_inUse {db : Db} {id : Uuid} {c : Computer}
    (hc : (release db id).findComputer id = some c) : c.status ≠ .inUse := by
  obtain ⟨hget, hdel⟩ := Db.findComputer_eq_some.mp hc
  rw [release_get?] at hget
  obtain ⟨c', hc', rfl⟩ := Option.map_eq_some_iff.mp hget
  split_ifs at hdel ⊢ with hcond
  · simp
  · exact fun hs => hcond ⟨rfl, hdel, hs⟩

/-- A removed computer stays as it was. -/
theorem release_removed {db : Db} {id : Uuid} {c : Computer} {now : Instant}
    (hc : db.computers.get? id = some c) (hdel : c.deletedAt = some now) :
    (release db id).computers.get? id = some c := by
  rw [release_get?, hc, Option.map_some, if_neg (by simp [hdel])]

theorem closedInFull_paidInFull {due : Money} (hs : w.db.sessions.get? s.id = some s) :
    ClosedInFull s (paidInFull s ctx endedAt due)
      (release (save w.db (paidInFull s ctx endedAt due)) s.computerId) := by
  refine ⟨?_, rfl, rfl⟩
  rw [release_sessions]
  have hpresent : w.db.sessions.get? (paidInFull s ctx endedAt due).id ≠ none := by
    show w.db.sessions.get? s.id ≠ none
    rw [hs]
    simp
  exact Table.get?_set_self hpresent

end

/-- **Which active sessions are closed by an end without a body**, in every database reached and at
every instant from their start on: all but the open ones whose charge is out of range. The session
is then stored as ended and fully paid, and its computer, if it was not removed, is not `IN_USE`; a
refused request changes nothing. -/
theorem closes_iff (calls : List Call) {s : Session}
    (hs : s ∈ (World.reached calls).db.sessions.rows) (ha : s.status = .active) (capitals : ℕ)
    (ctx : ActorContext) {endedAt : Instant} (hlater : s.startedAt.ms ≤ endedAt.ms) (newId : Uuid) :
    ((∃ saved w', (endSession ⟨s.id, capitals⟩ .inFull ctx endedAt newId).call
      (World.reached calls) = (.ok saved, w')) ↔ InRange s endedAt) ∧
    (∀ saved w', (endSession ⟨s.id, capitals⟩ .inFull ctx endedAt newId).call
      (World.reached calls) = (.ok saved, w') → ClosedInFull s saved w'.db ∧
        ∀ c, w'.db.findComputer s.computerId = some c → c.status ≠ .inUse) ∧
    (¬ InRange s endedAt → ∃ e, (endSession ⟨s.id, capitals⟩ .inFull ctx endedAt newId).call
      (World.reached calls) = (.error e, World.reached calls)) := by
  have hpriced := reached_priced calls
  have hget := Table.get?_of_mem hs
  have hrange := finalize_accepts (hpriced.billed s hs) (hpriced.rates s hs) hlater
  by_cases hdue : ∃ due, Pricing.finalize s endedAt = .ok due
  · obtain ⟨due, hfin⟩ := hdue
    have hcall := @call_endSession_ok _ _ capitals ctx _ newId _ hget ha hfin
    refine ⟨⟨fun _ => hrange.mp ⟨due, hfin⟩, fun _ => ⟨_, _, hcall⟩⟩, fun saved w' h => ?_,
      fun hnot => absurd (hrange.mp ⟨due, hfin⟩) hnot⟩
    rw [hcall] at h
    cases h
    exact ⟨closedInFull_paidInFull hget, fun c hc => release_not_inUse hc⟩
  · obtain ⟨e, he⟩ := @call_endSession_error _ _ capitals ctx _ newId hget hdue
    refine ⟨⟨fun ⟨saved, w', h⟩ => ?_, fun h => absurd (hrange.mpr h) hdue⟩, fun saved w' h => ?_,
      fun _ => ⟨e, he⟩⟩
    · rw [he] at h
      cases h
    · rw [he] at h
      cases h

/-! ### A charge out of range, and a computer that is gone -/

/-- A room, a computer in it, and an open session on the computer. -/
def opening (room : CreateRoomDto) : List Call :=
  [.createRoom room 2, .op newPc, .op (.start openDto ⟨9⟩ .epoch 4 fun _ => 3)]

/-- The room of a price. -/
def roomAt (price : ℕ) : CreateRoomDto :=
  ⟨"VIP Zone", none, price, by decide, noText_length, Int.natCast_nonneg price⟩

/-- The session of `opening`. -/
def openAt (price : ℤ) : Session :=
  ⟨3, none, 1, 2, none, .openSession, .active, price, .epoch, none, none, 0, 0, some 9, none, none⟩

/-- Two seconds after the start. -/
def afterTwoSeconds : Instant := ⟨2000, by decide⟩

theorem closes_iff_opening :
    ∃ saved w', (endSession ⟨3, 0⟩ .inFull ⟨9⟩ afterTwoSeconds 5).call
      (World.reached (opening (roomAt 15000))) = (.ok saved, w') ∧
      ClosedInFull (openAt 15000) saved w'.db ∧
        ∀ c, w'.db.findComputer 1 = some c → c.status ≠ .inUse := by
  have hs : openAt 15000 ∈ (World.reached (opening (roomAt 15000))).db.sessions.rows := by decide
  have h := closes_iff (opening (roomAt 15000)) hs rfl 0 ⟨9⟩
    (show (openAt 15000).startedAt.ms ≤ afterTwoSeconds.ms by decide) 5
  have hsec : diffSeconds (openAt 15000).startedAt afterTwoSeconds = 2 :=
    diffSeconds_of_eq (by norm_num) rfl
  obtain ⟨saved, w', hcall⟩ := h.1.mpr fun _ => by rw [hsec]; decide
  exact ⟨saved, w', hcall, h.2.1 saved w' hcall⟩

/-- **A price of `2 ^ 53 - 1` is out of range after two seconds**, and the session stays open; **a
computer removed during its session** stays `IN_USE` when the session is closed. -/
theorem closes_fails :
    (∃ s ∈ (World.reached (opening (roomAt 9007199254740991))).db.sessions.rows,
      s.status = .active ∧ s.startedAt.ms ≤ afterTwoSeconds.ms ∧
      ¬ Closes (World.reached (opening (roomAt 9007199254740991))) s 0 ⟨9⟩ afterTwoSeconds 5) ∧
    ∃ s ∈ (World.reached (opening (roomAt 15000) ++
        [.op (.removeComputer ⟨1, 0⟩ .epoch)])).db.sessions.rows,
      s.status = .active ∧ s.startedAt.ms ≤ afterTwoSeconds.ms ∧
      ¬ Closes (World.reached (opening (roomAt 15000) ++ [.op (.removeComputer ⟨1, 0⟩ .epoch)])) s 0
        ⟨9⟩ afterTwoSeconds 5 := by
  have hsec : ∀ price, diffSeconds (openAt price).startedAt afterTwoSeconds = 2 :=
    fun price => diffSeconds_of_eq (by norm_num) rfl
  refine ⟨⟨openAt 9007199254740991, by decide, rfl, by decide, ?_⟩,
    openAt 15000, by decide, rfl, by decide, ?_⟩
  · rintro ⟨saved, w', hcall, -⟩
    have hs : openAt 9007199254740991 ∈
        (World.reached (opening (roomAt 9007199254740991))).db.sessions.rows := by decide
    have hpriced := reached_priced (opening (roomAt 9007199254740991))
    have hrange := finalize_accepts (hpriced.billed _ hs) (hpriced.rates _ hs)
      (show (openAt 9007199254740991).startedAt.ms ≤ afterTwoSeconds.ms by decide)
    have hnot : ¬ InRange (openAt 9007199254740991) afterTwoSeconds := by
      intro h
      have hle := h rfl
      rw [hsec] at hle
      revert hle
      decide
    obtain ⟨e, he⟩ := @call_endSession_error _ _ 0 ⟨9⟩ _ 5 (Table.get?_of_mem hs)
      fun h => hnot (hrange.mp h)
    have := he.symm.trans hcall
    cases this
  · rintro ⟨saved, w', hcall, -, hfree⟩
    have hs : openAt 15000 ∈ (World.reached (opening (roomAt 15000) ++
        [.op (.removeComputer ⟨1, 0⟩ .epoch)])).db.sessions.rows := by decide
    have hpriced := reached_priced (opening (roomAt 15000) ++ [.op (.removeComputer ⟨1, 0⟩ .epoch)])
    obtain ⟨due, hdue⟩ := (finalize_accepts (hpriced.billed _ hs) (hpriced.rates _ hs)
      (show (openAt 15000).startedAt.ms ≤ afterTwoSeconds.ms by decide)).mpr
        fun _ => by rw [hsec]; decide
    have hok := @call_endSession_ok _ _ 0 ⟨9⟩ _ 5 _ (Table.get?_of_mem hs) rfl hdue
    have heq := hok.symm.trans hcall
    cases heq
    exact hfree _ (@release_removed _ _ _ .epoch rfl rfl) rfl

end GameClub.Services
