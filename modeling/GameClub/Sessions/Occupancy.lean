import GameClub.Sessions.Changes

/-! # Computers and their sessions

Which computers have an `ACTIVE` session, and how their status goes with it.

* `Coherent P`: no computer has two, one that has one is in a status `P` allows, and one that is
  `IN_USE` and not removed has one.
* `Coherent.change`: the changes of the services keep it, for any `P` that allows `IN_USE` and not
  `AVAILABLE`. -/

namespace GameClub.Sessions

open GameClub.Lib GameClub.Common GameClub.Store

/-- An `ACTIVE` session is on the computer `id`. -/
def Busy (db : Db) (id : Uuid) : Prop :=
  ∃ s ∈ db.sessions.rows, s.computerId = id ∧ s.status = .active

/-- No two `ACTIVE` sessions are on one computer. -/
def AtMostOne (db : Db) : Prop := ∀ s ∈ db.sessions.rows, ∀ t ∈ db.sessions.rows,
  s.status = .active → t.status = .active → s.computerId = t.computerId → s = t

/-- **Computers and sessions agree**; `P` are the statuses a busy computer may have. -/
structure Coherent (P : ComputerStatus → Prop) (db : Db) : Prop where
  atMostOne : AtMostOne db
  busy : ∀ {id c}, db.computers.get? id = some c → Busy db id → P c.status
  inUse : ∀ {id c}, db.computers.get? id = some c → c.deletedAt = none → c.status = .inUse →
    Busy db id

theorem busy_iff_activeOn {db : Db} {id : Uuid} : Busy db id ↔ db.activeOn id ≠ [] := by
  constructor
  · rintro ⟨s, hs, hid, ha⟩ hnil
    have hmem : s ∈ db.activeOn id := Db.mem_activeOn.mpr ⟨hs, hid, ha⟩
    rw [hnil] at hmem
    cases hmem
  · intro hne
    obtain ⟨s, hs⟩ := List.exists_mem_of_ne_nil _ hne
    exact ⟨s, Db.mem_activeOn.mp hs⟩

theorem activeOn_eq_nil {db : Db} {id : Uuid} : db.activeOn id = [] ↔ ¬ Busy db id := by
  rw [busy_iff_activeOn, not_not]

theorem rows_nodup (db : Db) : db.sessions.rows.Nodup := List.Nodup.of_map _ db.sessions.nodup

/-- `AtMostOne` as a count. -/
theorem AtMostOne.length_le {db : Db} (h : AtMostOne db) (id : Uuid) :
    (db.activeOn id).length ≤ 1 := by
  have hnd : (db.activeOn id).Nodup := (rows_nodup db).filter _
  match hl : db.activeOn id with
  | [] => simp
  | [s] => simp
  | s :: t :: l =>
    rw [hl] at hnd
    obtain ⟨hs, hsc, hsa⟩ := Db.mem_activeOn.mp (show s ∈ db.activeOn id by rw [hl]; simp)
    obtain ⟨ht, htc, hta⟩ := Db.mem_activeOn.mp (show t ∈ db.activeOn id by rw [hl]; simp)
    obtain rfl := h s hs t ht hsa hta (hsc.trans htc.symm)
    simp at hnd

theorem atMostOne_of_length {db : Db} (h : ∀ id, (db.activeOn id).length ≤ 1) : AtMostOne db := by
  intro s hs t ht hsa hta hc
  have hms : s ∈ db.activeOn s.computerId := Db.mem_activeOn.mpr ⟨hs, rfl, hsa⟩
  have hmt : t ∈ db.activeOn s.computerId := Db.mem_activeOn.mpr ⟨ht, hc.symm, hta⟩
  obtain ⟨x, hx⟩ | hnil := Nat.le_one_iff_eq_zero_or_eq_one.mp (h s.computerId) |>.symm.imp
    List.length_eq_one_iff.mp List.length_eq_zero_iff.mp
  · rw [hx, List.mem_singleton] at hms hmt
    rw [hms, hmt]
  · rw [hnil] at hms
    cases hms

/-! ### The computers after a change -/

theorem release_get? (db : Db) (id k : Uuid) : (release db id).computers.get? k =
    (db.computers.get? k).map fun c =>
      if k = id ∧ c.deletedAt = none ∧ c.status = .inUse then { c with status := .available }
      else c := by
  unfold release
  cases hf : db.findComputer id with
  | none =>
    cases hk : db.computers.get? k with
    | none => rfl
    | some c =>
      rw [Option.map_some, if_neg]
      rintro ⟨rfl, hdel, -⟩
      rw [Db.findComputer_eq_some.mpr ⟨hk, hdel⟩] at hf
      cases hf
  | some c =>
    obtain ⟨hc, hdel⟩ := Db.findComputer_eq_some.mp hf
    have hid : c.id = id := Table.key_of_get? hc
    dsimp only
    split_ifs with hs
    · rw [setStatus_get?, hid]
      by_cases hk : k = id
      · subst hk
        simp [hc, hdel, hs]
      · simp [hk]
    · cases hk : db.computers.get? k with
      | none => rfl
      | some c' =>
        rw [Option.map_some, if_neg]
        rintro ⟨rfl, -, hs'⟩
        rw [hc] at hk
        cases hk
        exact hs hs'

/-! ### The changes keep it -/

section

variable {P : ComputerStatus → Prop} {db db' : Db}

/-- The invariant speaks of sessions and computers only. -/
theorem Coherent.congr (h : Coherent P db) (hs : db'.sessions = db.sessions)
    (hc : db'.computers = db.computers) : Coherent P db' := by
  refine ⟨?_, ?_, ?_⟩
  · unfold AtMostOne; rw [hs]; exact h.atMostOne
  · unfold Busy; rw [hs, hc]; exact h.busy
  · unfold Busy; rw [hs, hc]; exact h.inUse

/-- **An available computer is taken**: nothing is on it yet. -/
theorem Coherent.opened (hP : P .inUse) (hP' : ¬ P .available) (h : Coherent P db) {s : Session}
    {c : Computer} (hc : db.computers.get? s.computerId = some c) (havail : c.status = .available)
    (hid : db.sessions.get? s.id = none) (hs : s.status = .active) :
    ¬ Busy db s.computerId ∧ Coherent P (opened db s) := by
  have hfree : ¬ Busy db s.computerId := fun hb => hP' (havail ▸ h.busy hc hb)
  have hmem : ∀ {t}, t ∈ (Sessions.opened db s).sessions.rows ↔ t ∈ db.sessions.rows ∨ t = s := by
    intro t
    rw [opened_sessions]
    exact Table.mem_insert hid
  have hget : ∀ k, (Sessions.opened db s).computers.get? k =
      if k = s.computerId then some { c with status := .inUse } else db.computers.get? k := by
    intro k
    rw [Sessions.opened, setStatus_get?, hc]
    rfl
  have hbusy : ∀ {k}, Busy (Sessions.opened db s) k ↔ Busy db k ∨ k = s.computerId := by
    intro k
    constructor
    · rintro ⟨t, ht, htc, hta⟩
      rcases hmem.mp ht with ht | rfl
      · exact Or.inl ⟨t, ht, htc, hta⟩
      · exact Or.inr htc.symm
    · rintro (⟨t, ht, htc, hta⟩ | rfl)
      · exact ⟨t, hmem.mpr (Or.inl ht), htc, hta⟩
      · exact ⟨s, hmem.mpr (Or.inr rfl), rfl, hs⟩
  refine ⟨hfree, fun t ht u hu hta hua hcu => ?_, fun {k x} hk hb => ?_, fun {k x} hk hdel hx => ?_⟩
  · rcases hmem.mp ht with ht' | rfl <;> rcases hmem.mp hu with hu' | rfl
    · exact h.atMostOne t ht' u hu' hta hua hcu
    · exact absurd ⟨t, ht', hcu, hta⟩ hfree
    · exact absurd ⟨u, hu', hcu.symm, hua⟩ hfree
    · rfl
  · rw [hget] at hk
    split_ifs at hk with hkc
    · cases hk; exact hP
    · exact h.busy hk ((hbusy.mp hb).resolve_right hkc)
  · rw [hget] at hk
    split_ifs at hk with hkc
    · exact hbusy.mpr (Or.inr hkc)
    · exact hbusy.mpr (Or.inl (h.inUse hk hdel hx))

/-- A session is saved that stays on its computer. -/
theorem Coherent.saved (h : Coherent P db) {old s : Session}
    (hold : db.sessions.get? s.id = some old) (hcomp : s.computerId = old.computerId)
    (hstatus : s.status = old.status) : Coherent P (save db s) := by
  have hmem : ∀ {t}, t ∈ (save db s).sessions.rows ↔ t = s ∨ (t ∈ db.sessions.rows ∧ t.id ≠ s.id) :=
    mem_save hold
  obtain ⟨holdmem, hkey⟩ := Table.mem_of_get? hold
  have hbusy : ∀ {k}, Busy (save db s) k ↔ Busy db k := by
    intro k
    constructor
    · rintro ⟨t, ht, htc, hta⟩
      rcases hmem.mp ht with rfl | ⟨ht, -⟩
      · exact ⟨old, holdmem, hcomp ▸ htc, hstatus ▸ hta⟩
      · exact ⟨t, ht, htc, hta⟩
    · rintro ⟨t, ht, htc, hta⟩
      by_cases hne : t.id = s.id
      · obtain rfl := Table.eq_of_key_eq ht holdmem (hne.trans hkey.symm)
        exact ⟨s, hmem.mpr (Or.inl rfl), hcomp.trans htc, hstatus.trans hta⟩
      · exact ⟨t, hmem.mpr (Or.inr ⟨ht, hne⟩), htc, hta⟩
  -- a session of the new table is one of the old, with the same computer and status
  have hback : ∀ {t}, t ∈ (save db s).sessions.rows → ∃ t' ∈ db.sessions.rows, t'.id = t.id ∧
      t'.computerId = t.computerId ∧ t'.status = t.status := by
    intro t ht
    rcases hmem.mp ht with rfl | ⟨ht, -⟩
    · exact ⟨old, holdmem, hkey, hcomp.symm, hstatus.symm⟩
    · exact ⟨t, ht, rfl, rfl, rfl⟩
  refine ⟨fun t ht u hu hta hua hcu => ?_, fun hk hb => h.busy hk (hbusy.mp hb),
    fun hk hdel hx => hbusy.mpr (h.inUse hk hdel hx)⟩
  obtain ⟨t', ht', hti, htc, hts⟩ := hback ht
  obtain ⟨u', hu', hui, huc, hus⟩ := hback hu
  have heq := h.atMostOne t' ht' u' hu' (hts.trans hta) (hus.trans hua) (by rw [htc, huc, hcu])
  exact Table.eq_of_key_eq ht hu (by rw [← hti, ← hui, heq])

/-- **A session is closed** and its computer released: nothing is on it any more. -/
theorem Coherent.closed (h : Coherent P db) {old s : Session}
    (hses : db'.sessions = db.sessions.set s) (hc : db'.computers = db.computers)
    (hold : db.sessions.get? s.id = some old) (hactive : old.status = .active)
    (hs : s.status ≠ .active) :
    Coherent P (release db' old.computerId) := by
  have hmem : ∀ {t}, t ∈ (release db' old.computerId).sessions.rows ↔
      t = s ∨ (t ∈ db.sessions.rows ∧ t.id ≠ s.id) := by
    intro t
    rw [release_sessions, hses]
    exact Table.mem_set (by rw [hold]; simp)
  obtain ⟨holdmem, hkey⟩ := Table.mem_of_get? hold
  have hbusy : ∀ {k}, Busy (release db' old.computerId) k → Busy db k ∧ k ≠ old.computerId := by
    rintro k ⟨t, ht, htc, hta⟩
    rcases hmem.mp ht with rfl | ⟨ht, hne⟩
    · exact absurd hta hs
    · refine ⟨⟨t, ht, htc, hta⟩, ?_⟩
      rintro rfl
      exact hne (by rw [h.atMostOne t ht old holdmem hta hactive htc, hkey])
  have hbusy' : ∀ {k}, Busy db k → k ≠ old.computerId → Busy (release db' old.computerId) k := by
    rintro k ⟨t, ht, htc, hta⟩ hne
    refine ⟨t, hmem.mpr (Or.inr ⟨ht, fun hid => hne ?_⟩), htc, hta⟩
    rw [← htc, Table.eq_of_key_eq ht holdmem (hid.trans hkey.symm)]
  refine ⟨fun t ht u hu hta hua hcu => ?_, fun {k x} hk hb => ?_, fun {k x} hk hdel hx => ?_⟩
  · rcases hmem.mp ht with rfl | ⟨ht, -⟩
    · exact absurd hta hs
    · rcases hmem.mp hu with rfl | ⟨hu, -⟩
      · exact absurd hua hs
      · exact h.atMostOne t ht u hu hta hua hcu
  · obtain ⟨hb, hne⟩ := hbusy hb
    rw [release_get?, hc] at hk
    obtain ⟨c, hck, rfl⟩ := Option.map_eq_some_iff.mp hk
    rw [if_neg fun hcond => hne hcond.1]
    exact h.busy hck hb
  · rw [release_get?, hc] at hk
    obtain ⟨c, hck, rfl⟩ := Option.map_eq_some_iff.mp hk
    split_ifs at hdel hx with hcond
    · have hne : k ≠ old.computerId := fun hkc => hcond ⟨hkc, hdel, hx⟩
      exact hbusy' (h.inUse hck hdel hx) hne

/-- **Every change keeps computers and sessions coherent.** -/
theorem Coherent.change (hP : P .inUse) (hP' : ¬ P .available) (hc : Change db db')
    (h : Coherent P db) : Coherent P db' := by
  cases hc with
  | opened hstart hid =>
    obtain ⟨hrow, -⟩ := Db.findComputer_eq_some.mp hstart.findComputer
    have hcomp := Table.get?_of_mem (Table.mem_of_get? hrow).1
    exact (h.opened hP hP' (s := newSession ..) hcomp hstart.available hid rfl).2
  | extended hs ha hp hdate =>
    have hold := Table.get?_of_mem (Table.mem_of_get? hs).1
    exact h.saved hold rfl rfl
  | ended hs ha hdue hpaid hset =>
    have hold := Table.get?_of_mem (Table.mem_of_get? hs).1
    cases hset with
    | inFull heq => exact h.closed rfl rfl hold ha (by simp [endedSession])
    | booked hlt hc hid hrow => exact h.closed rfl rfl hold ha (by simp [endedSession])
  | cancelled hs ha =>
    have hold := Table.get?_of_mem (Table.mem_of_get? hs).1
    exact h.closed rfl rfl hold ha (by simp)
  | paid ht hneg hle hid => exact h.congr rfl rfl
  | corrected ht hid => exact h.congr rfl rfl

end

end GameClub.Sessions
