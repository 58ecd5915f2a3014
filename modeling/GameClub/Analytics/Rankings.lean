import GameClub.Analytics.Books
import GameClub.Lib.Ranking
import GameClub.Lib.Serial

/-! # The top lists

The five computers and the five rooms with the most revenue in a range, against the revenue of the
range. The queries are separate, and `Number` reads each sum on its own.

* `Accounts`: a list that ranks the revenue and accounts for it.
* `rankings_account`: the two lists of a summary do. -/

namespace GameClub.Analytics

open GameClub.Lib GameClub.Lib.Binary64 GameClub.Lib.Ranking GameClub.Lib.RowLock GameClub.Common
  GameClub.Store GameClub.Sessions GameClub.Concurrency

/-- The query is a ranking. -/
theorem isRanking_topFive (column : Session → Uuid) (sessions : List Session) :
    IsRanking column Session.amountPaid 5 sessions (topFive column sessions) :=
  isRanking_top 5 sessions

/-- **A top list accounts for the revenue**: it ranks the sums of at most five groups, exactly, and
what it leaves out of the revenue was paid in groups that it does not list. -/
structure Accounts (column : Session → Uuid) (sessions : List Session)
    (listed : List (Uuid × Number)) (revenue : Number) : Prop where
  ranked : ∃ sums, IsRanking column Session.amountPaid 5 sessions sums ∧
    listed = sums.map fun x => (x.1, (x.2 : Number))
  others : (listed.map Prod.snd).sum +
    (((sessions.filter fun s => column s ∉ listed.map Prod.fst).map Session.amountPaid).sum : ℤ) =
      revenue
  le : (listed.map Prod.snd).sum ≤ revenue
  complete : (sessions.map column).dedup.length ≤ 5 → (listed.map Prod.snd).sum = revenue

section

variable {column : Session → Uuid} {sessions : List Session} {sums : List (Uuid × ℤ)}

/-- The sum of a part is at most that of the whole. -/
theorem sum_filter_le (hpaid : ∀ s ∈ sessions, 0 ≤ s.amountPaid) (p : Session → Bool) :
    0 ≤ ((sessions.filter p).map Session.amountPaid).sum ∧
      ((sessions.filter p).map Session.amountPaid).sum ≤ (sessions.map Session.amountPaid).sum := by
  have hnonneg : ∀ q : Session → Bool, 0 ≤ ((sessions.filter q).map Session.amountPaid).sum := by
    intro q
    refine List.sum_nonneg fun x hx => ?_
    obtain ⟨s, hs, rfl⟩ := List.mem_map.mp hx
    exact hpaid s (List.mem_of_mem_filter hs)
  have hsplit := sum_filter_add (f := Session.amountPaid) p sessions
  have hrest := hnonneg fun s => !p s
  exact ⟨hnonneg p, by omega⟩

theorem fst_rnd (hexact : ∀ x ∈ sums, rnd x.2 = (x.2 : Number)) :
    (sums.map fun x => (x.1, rnd x.2)) = sums.map fun x => (x.1, (x.2 : Number)) :=
  List.map_congr_left fun x hx => by rw [hexact x hx]

/-- **A ranking accounts for the revenue** while that is a safe integer: no sum is rounded. -/
theorem accounts_of_ranking (hranking : IsRanking column Session.amountPaid 5 sessions sums)
    (hpaid : ∀ s ∈ sessions, 0 ≤ s.amountPaid)
    (hsafe : (sessions.map Session.amountPaid).sum ≤ maxSafeInteger) :
    Accounts column sessions (sums.map fun x => (x.1, rnd x.2))
      (rnd (sessions.map Session.amountPaid).sum) := by
  have hwhole : 0 ≤ (sessions.map Session.amountPaid).sum := by
    simpa using (sum_filter_le hpaid fun _ => true).1
  have hround : ∀ n : ℤ, 0 ≤ n → n ≤ (sessions.map Session.amountPaid).sum → rnd n = (n : Number) := by
    intro n h0 hle
    unfold maxSafeInteger at hsafe
    exact rnd_intCast (by rw [abs_of_nonneg h0]; omega)
  have hexact : ∀ x ∈ sums, rnd x.2 = (x.2 : Number) := by
    intro x hx
    obtain ⟨h0, hle⟩ := sum_filter_le hpaid fun s => column s = x.1
    have hsum : x.2 = ((sessions.filter fun s => column s = x.1).map Session.amountPaid).sum :=
      (hranking.sums x hx).2
    exact hround _ (hsum ▸ h0) (hsum ▸ hle)
  have hfst : (sums.map fun x => (x.1, (x.2 : Number))).map Prod.fst = sums.map Prod.fst := by
    rw [List.map_map]
    rfl
  have hsnd : ((sums.map fun x => (x.1, (x.2 : Number))).map Prod.snd).sum =
      ((sums.map Prod.snd).sum : ℤ) := by
    rw [List.map_map, Int.cast_list_sum, List.map_map]
    rfl
  rw [fst_rnd hexact, hround _ hwhole le_rfl]
  have htotal := hranking.total
  have hrest := (sum_filter_le hpaid fun s => column s ∉ sums.map Prod.fst).1
  refine ⟨⟨sums, hranking, rfl⟩, ?_, ?_, fun hroom => ?_⟩
  · rw [hfst, hsnd]
    exact_mod_cast htotal
  · rw [hsnd]
    have hle : (sums.map Prod.snd).sum ≤ (sessions.map Session.amountPaid).sum := by omega
    exact_mod_cast hle
  · have hnone : (sessions.filter fun s => column s ∉ sums.map Prod.fst) = [] := by
      refine List.filter_eq_nil_iff.mpr fun s hs => ?_
      have hlisted := hranking.complete hroom _ (List.mem_map_of_mem hs)
      simpa using hlisted
    rw [hnone, List.map_nil, List.sum_nil, add_zero] at htotal
    rw [hsnd, htotal]

end

/-- **The top lists of a summary account for its revenue** in every committed database, however the
requests interleave, while the revenue is a safe integer. -/
theorem rankings_account {db : Db} (hs : db.sessions.rows = []) (hd : db.debtTransactions.rows = [])
    {tr : Trace} {c : State} (hrun : Concurrency.system.Run (Config.idle db) tr c) {w : Process}
    (hw : w.db = c.db)
    {range : AnalyticsRange} {order : List Figure} {result : AnalyticsSummary}
    (hall : order.Perm [.activeSessions, .totalComputers, .totalOutstanding])
    (hresult : (serve exec (computeSummary range order) w).1 = .ok result)
    (hsafe : (totals range c.db).revenue ≤ maxSafeInteger) :
    Accounts Session.computerId (base range c.db)
        (result.topComputers.map fun r => (r.computerId, r.revenue)) result.revenue ∧
      Accounts Session.roomId (base range c.db)
        (result.topRooms.map fun r => (r.roomId, r.revenue)) result.revenue := by
  have hsettled : Settled c.db := run_invariant Settled Settled.change (settled_of_empty hs hd) hrun
  have hpaid : ∀ s ∈ base range c.db, 0 ≤ s.amountPaid := by
    intro s hmem
    obtain ⟨hrow, hbase⟩ := List.mem_filter.mp hmem
    have hended : s.status = .ended := by
      rw [Bool.and_eq_true] at hbase
      exact of_decide_eq_true hbase.1
    exact (hsettled.conserved s hrow).paid_nonneg hended
  obtain ⟨figures, -, -, -, rfl⟩ := computeSummary_eq hall hresult
  rw [hw]
  have hcomputers : (assemble range (totals range c.db) (topComputersRaw range c.db)
      (topRoomsRaw range c.db) figures).topComputers.map (fun r => (r.computerId, r.revenue)) =
      (topFive Session.computerId (base range c.db)).map fun x => (x.1, rnd x.2) := by
    simp [assemble, topComputersRaw]
  have hrooms : (assemble range (totals range c.db) (topComputersRaw range c.db)
      (topRoomsRaw range c.db) figures).topRooms.map (fun r => (r.roomId, r.revenue)) =
      (topFive Session.roomId (base range c.db)).map fun x => (x.1, rnd x.2) := by
    simp [assemble, topRoomsRaw]
  rw [hcomputers, hrooms]
  exact ⟨accounts_of_ranking (isRanking_topFive _ _) hpaid hsafe,
    accounts_of_ranking (isRanking_topFive _ _) hpaid hsafe⟩

/-! ### Six computers -/

/-- Three rooms with two free computers each. -/
def sixComputers : Db :=
  { Db.empty with
    rooms := ((Table.single ⟨1, "Standard", none, 15000, true, none⟩).insert
      ⟨2, "Comfort", none, 20000, true, none⟩).insert ⟨3, "VIP Zone", none, 25000, true, none⟩
    computers := (List.range 6).foldl (fun computers i => computers.insert
      ⟨i + 1, "PC-0" ++ toString (i + 1), i / 2 + 1, .available, none, true, none⟩) .empty }

theorem half_or_hour (i : ℕ) : |if i % 2 = 0 then (1800000 : ℤ) else 3600000| ≤ maxTimeValue := by
  split_ifs <;> decide

/-- On every computer a session is started, and ended after half an hour or an hour. -/
def paidHour : List Concurrency.Request :=
  (List.range 6).map (fun i =>
    .start (.openOn ⟨i + 1, 0⟩) ⟨9⟩ .epoch (50 + i) fun k => 10 * (i + 1) + k) ++
  (List.range 6).map fun i => .endSession ⟨10 * (i + 1), 0⟩ .inFull ⟨9⟩
    ⟨if i % 2 = 0 then 1800000 else 3600000, half_or_hour i⟩ (60 + i)

def afterHour : Option Db := (Concurrency.system.runAll paidHour sixComputers).toOption.map Prod.snd

/-- What the lists of a summary show. -/
def lists (result : AnalyticsSummary) : Number × List Uuid × Number × List Uuid × Number :=
  (result.revenue, result.topComputers.map TopComputer.computerId,
    (result.topComputers.map TopComputer.revenue).sum, result.topRooms.map TopRoom.roomId,
    (result.topRooms.map TopRoom.revenue).sum)

/-- After the hour five of the six computers are listed, and all rooms. -/
theorem rankings_account_hour : ∃ (tr : Trace) (c : State) (result : AnalyticsSummary),
    Concurrency.system.Run (Config.idle sixComputers) tr c ∧ summaryOf c.db = some result ∧
      lists result = (90000, [6, 4, 2, 5, 3], 82500, [3, 2, 1], 90000) ∧
      Accounts Session.computerId (base wholeRange c.db)
        (result.topComputers.map fun r => (r.computerId, r.revenue)) result.revenue ∧
      Accounts Session.roomId (base wholeRange c.db)
        (result.topRooms.map fun r => (r.roomId, r.revenue)) result.revenue := by
  have hlists : (afterHour.bind summaryOf).map lists =
      some (90000, [6, 4, 2, 5, 3], 82500, [3, 2, 1], 90000) := by decide +kernel
  have hbound : afterHour.map (fun db => decide ((totals wholeRange db).revenue ≤ maxSafeInteger)) =
      some true := by decide +kernel
  obtain ⟨result, hresult, hshown⟩ := Option.map_eq_some_iff.mp hlists
  obtain ⟨db, hdb, hsummary⟩ := Option.bind_eq_some_iff.mp hresult
  rw [hdb] at hbound
  have hsafe := of_decide_eq_true (Option.some.inj hbound)
  obtain ⟨⟨cs, db'⟩, hall, hlast⟩ := Option.map_eq_some_iff.mp hdb
  obtain rfl : db' = db := hlast
  obtain ⟨tr, hrun, -⟩ := (System.serial_of_runAll (ok_of_toOption hall)).run
  have hsessions : sixComputers.sessions.rows = [] := rfl
  have hledger : sixComputers.debtTransactions.rows = [] := rfl
  exact ⟨tr, Config.idle db', result, hrun, hsummary, hshown,
    rankings_account hsessions hledger hrun (w := ⟨fun _ => db', 0, .empty, 0⟩) rfl
      (List.Perm.refl _) (ok_of_toOption hsummary) hsafe⟩

end GameClub.Analytics
