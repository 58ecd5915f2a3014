import GameClub.Analytics.Summary
import GameClub.Services.Closing

/-! # The occupancy rate

A summary divides the `ACTIVE` sessions by the computers that are active and not removed. The unique
index keeps the sessions apart, and a start finds its computer active; but nothing keeps a computer
counted while a session is on it.

* `Occupied`: no two `ACTIVE` sessions are on one computer, and each is on one that is counted.
* `Occupied.activeSessions_le`: then there are at most as many sessions as computers.
* `occupancy_percentage`: the rate is a percentage in every database reached by requests that do not
  deactivate or remove a computer with a session on it; `occupancy_fails`: two that do. -/

namespace GameClub.Analytics

open GameClub.Lib GameClub.Lib.Binary64 GameClub.Common GameClub.Store GameClub.Sessions
  GameClub.Services

/-- The computer `id` is one the summary counts. -/
def Counted (db : Db) (id : Uuid) : Prop :=
  ∃ c, db.computers.get? id = some c ∧ c.isActive = true ∧ c.deletedAt = none

/-- **Active sessions are on computers of their own**, and these are counted. -/
structure Occupied (db : Db) : Prop where
  atMostOne : AtMostOne db
  counted : ∀ s ∈ db.sessions.rows, s.status = .active → Counted db s.computerId

/-- A request takes no computer out of the count while a session is on it. -/
def KeepsCounted (db : Db) : Services.Call → Prop
  | .op (.updateComputer id dto byRelation) =>
    (∃ x, Computers.updatedRow id dto byRelation db = .ok x) →
      dto.isActive = some (some false) → ¬ Busy db id.value
  | .op (.removeComputer id _) => db.findComputer id.value ≠ none → ¬ Busy db id.value
  | _ => True

/-! ### The count -/

/-- **At most as many sessions as computers**: each session has its own. -/
theorem Occupied.activeSessions_le {db : Db} (h : Occupied db) :
    activeSessions db ≤ totalComputers db := by
  have hnodup : ((db.sessions.rows.filter fun s => s.status = .active).map
      Session.computerId).Nodup := by
    refine ((rows_nodup db).filter _).map_on fun s hs t ht heq => ?_
    obtain ⟨hs, hsa⟩ := List.mem_filter.mp hs
    obtain ⟨ht, hta⟩ := List.mem_filter.mp ht
    exact h.atMostOne s hs t ht (of_decide_eq_true hsa) (of_decide_eq_true hta) heq
  have hsubset : (db.sessions.rows.filter fun s => s.status = .active).map Session.computerId ⊆
      (db.computers.rows.filter fun c => c.isActive && c.deletedAt.isNone).map Computer.id := by
    intro id hid
    obtain ⟨s, hs, rfl⟩ := List.mem_map.mp hid
    obtain ⟨hs, hsa⟩ := List.mem_filter.mp hs
    obtain ⟨c, hc, hact, hdel⟩ := h.counted s hs (of_decide_eq_true hsa)
    obtain ⟨hmem, hkey⟩ := Table.mem_of_get? hc
    exact List.mem_map.mpr ⟨c, List.mem_filter.mpr ⟨hmem, by simp [hact, hdel]⟩, hkey⟩
  have hlength := (List.subperm_of_subset hnodup hsubset).length_le
  simpa [activeSessions, totalComputers] using hlength

/-! ### One request -/

theorem occupied_empty : Occupied .empty := by
  refine ⟨fun s hs => ?_, fun s hs => ?_⟩
  · cases hs
  · cases hs

/-- The invariant speaks of sessions and computers only. -/
theorem Occupied.congr {db db' : Db} (h : Occupied db) (hs : db'.sessions = db.sessions)
    (hc : ∀ id, Busy db id → Counted db id → Counted db' id) : Occupied db' := by
  refine ⟨?_, fun s hmem ha => ?_⟩
  · unfold AtMostOne
    rw [hs]
    exact h.atMostOne
  · rw [hs] at hmem
    exact hc _ ⟨s, hmem, rfl, ha⟩ (h.counted s hmem ha)

/-- The computer of a new session was found active. -/
theorem Occupied.opened {db : Db} (h : Occupied db) {s : Session} {c : Computer}
    (hc : db.findComputer s.computerId = some c) (hact : c.isActive = true)
    (hfree : ¬ Busy db s.computerId) (hid : db.sessions.get? s.id = none) :
    Occupied (opened db s) := by
  obtain ⟨hget, hdel⟩ := Db.findComputer_eq_some.mp hc
  have hmem : ∀ {t}, t ∈ (Sessions.opened db s).sessions.rows ↔ t ∈ db.sessions.rows ∨ t = s := by
    intro t
    rw [opened_sessions]
    exact Table.mem_insert hid
  have hcounted : ∀ {id}, Counted db id → Counted (Sessions.opened db s) id := by
    rintro id ⟨c', hc', hact', hdel'⟩
    unfold Counted
    rw [Sessions.opened, setStatus_get?]
    by_cases heq : id = s.computerId
    · rw [if_pos heq]
      refine ⟨{ c with status := .inUse }, ?_, hact, hdel⟩
      rw [hget]
      rfl
    · rw [if_neg heq]
      exact ⟨c', hc', hact', hdel'⟩
  refine ⟨fun t ht u hu hta hua heq => ?_, fun t ht hta => ?_⟩
  · rcases hmem.mp ht with ht' | rfl
    · rcases hmem.mp hu with hu' | rfl
      · exact h.atMostOne t ht' u hu' hta hua heq
      · exact absurd ⟨t, ht', heq, hta⟩ hfree
    · rcases hmem.mp hu with hu' | rfl
      · exact absurd ⟨u, hu', heq.symm, hua⟩ hfree
      · rfl
  · rcases hmem.mp ht with ht' | rfl
    · exact hcounted (h.counted t ht' hta)
    · exact hcounted ⟨c, hget, hact, hdel⟩

/-- A session is saved on the computer it was on; it may have been closed. -/
theorem Occupied.saved {db db' : Db} (h : Occupied db) {old s : Session}
    (hs : db'.sessions = db.sessions.set s) (hold : db.sessions.get? s.id = some old)
    (hcomp : s.computerId = old.computerId) (hactive : s.status = .active → old.status = .active)
    (hc : ∀ id, Counted db id → Counted db' id) : Occupied db' := by
  obtain ⟨holdmem, hkey⟩ := Table.mem_of_get? hold
  -- an active session of the new table is one of the old, on the same computer
  have hback : ∀ {t}, t ∈ db'.sessions.rows → t.status = .active → ∃ t' ∈ db.sessions.rows,
      t'.id = t.id ∧ t'.computerId = t.computerId ∧ t'.status = .active := by
    intro t ht hta
    rw [hs] at ht
    rcases Table.mem_of_mem_set ht with rfl | ht
    · exact ⟨old, holdmem, hkey, hcomp.symm, hactive hta⟩
    · exact ⟨t, ht, rfl, rfl, hta⟩
  refine ⟨fun t ht u hu hta hua heq => ?_, fun t ht hta => ?_⟩
  · obtain ⟨t', ht', hti, htc, hta'⟩ := hback ht hta
    obtain ⟨u', hu', hui, huc, hua'⟩ := hback hu hua
    have hsame := h.atMostOne t' ht' u' hu' hta' hua' (by rw [htc, huc, heq])
    exact Table.eq_of_key_eq ht hu (by rw [← hti, ← hui, hsame])
  · obtain ⟨t', ht', -, htc, hta'⟩ := hback ht hta
    rw [← htc]
    exact hc _ (h.counted t' ht' hta')

/-- A release changes the status of a computer only. -/
theorem counted_release {db db' : Db} (hc : db'.computers = db.computers) (k id : Uuid)
    (h : Counted db id) : Counted (release db' k) id := by
  obtain ⟨c, hget, hact, hdel⟩ := h
  unfold Counted
  rw [release_get?, hc, hget]
  refine ⟨_, rfl, ?_, ?_⟩ <;> dsimp only
  · split_ifs <;> exact hact
  · split_ifs <;> exact hdel

/-- A new computer leaves the others counted. -/
theorem counted_inserted {db : Db} (c : Computer) {id : Uuid} (h : Counted db id) :
    Counted { db with computers := db.computers.insert c } id := by
  obtain ⟨c', hc, hact, hdel⟩ := h
  refine ⟨c', ?_, hact, hdel⟩
  rw [Table.get?_insert]
  split_ifs
  · rw [hc]
    rfl
  · exact hc

/-- An update leaves a computer counted unless its body makes that computer inactive. -/
theorem counted_updated {db : Db} {id : UuidText} {dto : UpdateComputerDto} {byRelation : Bool}
    {saved : ComputerEntity} {row : Computer}
    (hrow : Computers.updatedRow id dto byRelation db = .ok (saved, row)) {k : Uuid}
    (hkeep : dto.isActive = some (some false) → k ≠ id.value) (h : Counted db k) :
    Counted { db with computers := db.computers.set row } k := by
  obtain ⟨stored, hstored, hrowid, hdel, -, hactive⟩ := Computers.updatedRow_ok hrow
  obtain ⟨hget, hkept⟩ := Db.findComputer_eq_some.mp hstored
  have hkey : stored.id = id.value := Table.key_of_get? hget
  obtain ⟨c, hc, hact, hdelc⟩ := h
  unfold Counted
  rw [Table.get?_set]
  by_cases hk : k = row.id
  · have hid : k = id.value := hk.trans (hrowid.trans hkey)
    have hsame : c = stored := by
      rw [hid, hget] at hc
      exact (Option.some.inj hc).symm
    rw [if_pos hk, hc]
    refine ⟨row, rfl, ?_, hdel.trans hkept⟩
    -- the body sets `isActive` to true, or not at all
    rcases hdto : dto.isActive with _ | _ | _ | _
    · rw [hdto] at hactive
      rw [← Option.some.inj hactive, ← hsame]
      exact hact
    · rw [hdto] at hactive
      cases hactive
    · exact absurd hid (hkeep hdto)
    · rw [hdto] at hactive
      exact (Option.some.inj hactive).symm
  · rw [if_neg hk]
    exact ⟨c, hc, hact, hdelc⟩

/-- A computer that is set leaves the others counted. -/
theorem counted_set_ne {db : Db} {c : Computer} {id : Uuid} (hne : id ≠ c.id) (h : Counted db id) :
    Counted { db with computers := db.computers.set c } id := by
  obtain ⟨c', hc, hact, hdel⟩ := h
  refine ⟨c', ?_, hact, hdel⟩
  rw [← hc]
  exact Table.get?_set_ne hne

theorem Occupied.started {dto : StartSessionDto} {ctx : ActorContext} {startedAt : Instant}
    {randomUUID : Uuid} {newIds : ℕ → Uuid} {results : List Session} {db db' : Db}
    (h : Store.store.eval (Sessions.start dto ctx startedAt randomUUID newIds) db =
      .ok (results, db'))
    (ho : Occupied db) : Occupied db' := by
  obtain ⟨groupId, customer, -, hall⟩ := start_ok h
  refine startAll_preserves Occupied (fun computerId newId s d d' hd hone => ?_) ho hall
  obtain ⟨computer, room, plannedEndAt, amount, hstart, rfl, hid, hindex, -, rfl⟩ :=
    startOne_ok.mp hone
  have hkey : computer.id = computerId.value :=
    Table.key_of_get? (Db.findComputer_eq_some.mp hstart.findComputer).1
  have hfound := hstart.findComputer
  rw [← hkey] at hfound
  exact hd.opened hfound hstart.computerActive
    (fun hb => hindex ⟨rfl, busy_iff_activeOn.mp hb⟩) hid

theorem Occupied.effect {db db' : Db} {op : Op} (he : Effect db op db')
    (hkeeps : KeepsCounted db (.op op)) (h : Occupied db) : Occupied db' := by
  have hid : ∀ {id s}, db.sessions.get? id = some s → db.sessions.get? s.id = some s :=
    fun hs => Table.get?_of_mem (Table.mem_of_get? hs).1
  cases he with
  | rejected => exact h
  | started hs => exact Occupied.started hs h
  | extended hs =>
    obtain ⟨session, p, plannedEndAt, hsession, ha, -, -, rfl, rfl⟩ := extend_ok.mp hs
    have hold := hid hsession
    exact h.saved rfl hold rfl (fun _ => ha) fun _ hc => hc
  | @ended _ _ ctx endedAt _ _ _ _ hs =>
    obtain ⟨session, due, paid, hsession, ha, -, -, rfl, hset⟩ := endSession_ok.mp hs
    have hold := hid hsession
    refine h.saved hset.sessions hold rfl (fun _ => ha) fun id hc => ?_
    cases hset with
    | inFull heq => exact counted_release rfl _ _ hc
    | booked hlt hcust hnew hrow => exact counted_release rfl _ _ hc
  | cancelled hs =>
    obtain ⟨session, hsession, ha, rfl, rfl⟩ := cancel_ok.mp hs
    have hold := hid hsession
    exact h.saved (release_sessions _ _) hold rfl (fun _ => ha)
      fun id hc => counted_release rfl _ _ hc
  | paid hs =>
    obtain ⟨magnitude, customer, -, -, -, -, -, -, -, rfl⟩ := Debt.recordPayment_ok.mp hs
    exact h.congr rfl fun _ _ hc => hc
  | corrected hs =>
    obtain ⟨value, -, -, -, -, -, rfl⟩ := Debt.correct_ok.mp hs
    exact h.congr rfl fun _ _ hc => hc
  | administered ha =>
    cases ha with
    | created hnew => exact h.congr rfl fun id _ hc => counted_inserted _ hc
    | @updated id dto byRelation saved row hrow =>
      refine h.congr rfl fun k hb hc => counted_updated hrow (fun hdto => ?_) hc
      rintro rfl
      exact hkeeps ⟨_, hrow⟩ hdto hb
    | @removed id now stored hstored =>
      have hkey : stored.id = id.value := Table.key_of_get? (Db.findComputer_eq_some.mp hstored).1
      refine h.congr rfl fun k hb hc => counted_set_ne ?_ hc
      rintro rfl
      exact hkeeps (by rw [hstored]; simp) (hkey ▸ hb)
    | roomUpdated hroom hrow => exact h.congr rfl fun _ _ hc => hc

theorem Occupied.performs {db db' : Db} {c : Services.Call} (hc : Performs db c db')
    (h : Occupied db) (hkeeps : KeepsCounted db c) : Occupied db' := by
  cases hc with
  | op he => exact h.effect he hkeeps
  | rejected => exact h
  | roomCreated hid => exact h.congr rfl fun _ _ hc => hc
  | roomRemoved hroom => exact h.congr rfl fun _ _ hc => hc
  | customers => exact h.congr rfl fun _ _ hc => hc

/-- **Sessions are on counted computers in every database reached.** -/
theorem reached_occupied {calls : List Services.Call} (h : EveryRequest KeepsCounted calls) :
    Occupied (World.reached calls).db :=
  reached_invariant (fun hc ho hkeeps => ho.performs hc hkeeps) occupied_empty h

/-! ### The rate -/

/-- `assemble` computes the rate from the two counts. -/
def occupancyRate (active total : ℕ) : Number :=
  if 0 < total then rnd (mathRound (rnd (rnd (active / total) * 10000)) / 100) else 0

/-- **At most as many sessions as computers is at most a hundred per cent.** -/
theorem occupancyRate_le {active total : ℕ} (h : active ≤ total) :
    occupancyRate active total ≤ 100 := by
  unfold occupancyRate
  by_cases htotal : 0 < total
  · have hint : ∀ {n : ℤ}, |n| ≤ 2 ^ 53 → rnd (n : ℚ) = n := fun hn => rnd_intCast hn
    have hquot : rnd ((active : ℚ) / total) ≤ 1 := by
      have hle : (active : ℚ) / total ≤ ((1 : ℤ) : ℚ) := by
        rw [Int.cast_one, div_le_one (by exact_mod_cast htotal)]
        exact_mod_cast h
      have := rnd_mono hle
      rwa [hint (by norm_num), Int.cast_one] at this
    have hpoints : mathRound (rnd (rnd ((active : ℚ) / total) * 10000)) ≤ 10000 := by
      have hle : rnd ((active : ℚ) / total) * 10000 ≤ ((10000 : ℤ) : ℚ) := by
        push_cast
        linarith
      have := mathRound_mono (rnd_mono hle)
      rwa [hint (by norm_num), mathRound_intCast] at this
    have hrate : (mathRound (rnd (rnd ((active : ℚ) / total) * 10000)) : ℚ) / 100 ≤
        ((100 : ℤ) : ℚ) := by
      have : (mathRound (rnd (rnd ((active : ℚ) / total) * 10000)) : ℚ) ≤ 10000 := by
        exact_mod_cast hpoints
      push_cast
      linarith
    have := rnd_mono hrate
    rw [hint (by norm_num)] at this
    rw [if_pos htotal]
    exact_mod_cast this
  · rw [if_neg htotal]
    norm_num

/-- **Occupancy is a percentage** of the database `db`: at most as many sessions as computers are
counted, and so a summary of it has a rate of at most a hundred, and not for want of a computer when
there is a session. -/
structure IsPercentage (db : Db) : Prop where
  counts : activeSessions db ≤ totalComputers db
  rate : ∀ (w : Process) range order result, w.db = db →
    order.Perm [.activeSessions, .totalComputers, .totalOutstanding] →
    (serve exec (computeSummary range order) w).1 = .ok result →
      result.occupancyRate ≤ 100 ∧ (0 < result.activeSessions → 0 < totalComputers db)

theorem Occupied.isPercentage {db : Db} (h : Occupied db) : IsPercentage db := by
  have hle := h.activeSessions_le
  refine ⟨hle, ?_⟩
  rintro w range order result rfl hall hresult
  obtain ⟨figures, hactive, htotal, -, rfl⟩ := computeSummary_eq hall hresult
  rw [← hactive, ← htotal] at hle
  rw [← htotal]
  refine ⟨occupancyRate_le hle, fun hpos => ?_⟩
  have hactive' : 0 < figures.activeSessions := Nat.cast_pos.mp hpos
  omega

/-- **Occupancy is a percentage in every database reached** by requests that take no computer out of
the count while a session is on it. -/
theorem occupancy_percentage (calls : List Services.Call) (h : EveryRequest KeepsCounted calls) :
    IsPercentage (World.reached calls).db := (reached_occupied h).isPercentage

/-- A session is started and its computer deactivated afterwards. -/
def deactivated : List Services.Call :=
  opening (roomAt 15000) ++ [.op (.updateComputer ⟨1, 0⟩
    ⟨none, none, none, none, some (some false), noLabel_length⟩ true)]

theorem occupancy_percentage_opening : IsPercentage (World.reached (opening (roomAt 15000))).db := by
  refine occupancy_percentage _ fun before c later heq => ?_
  -- no request of these updates or removes a computer
  have hmem : c ∈ opening (roomAt 15000) := by rw [heq]; simp
  unfold opening at hmem
  simp only [List.mem_cons, List.not_mem_nil, or_false] at hmem
  rcases hmem with rfl | rfl | rfl <;> trivial

/-- **A computer is deactivated during its session**: one session is counted, and no computer. -/
theorem occupancy_fails : ¬ ∀ calls, IsPercentage (World.reached calls).db := by
  intro h
  have hcounts := (h deactivated).counts
  revert hcounts
  decide

end GameClub.Analytics
