import GameClub.Common.Cache
import GameClub.Common.IsoDate
import GameClub.Debt.Transactions
import GameClub.Lib.Await
import GameClub.Sessions.Pricing

/-! # The analytics summary

The queries of a summary and the figures made of their replies. Counts and sums come as decimal
texts, and `Number` reads the nearest double. The queries are sent one after another, and the last
three together; each is answered from the database as it is then.

* `getOrSet`, `summary`: the programs.
* `computeSummary_eq`: the summary that is computed on one database.
* `summaryKey_inj`: the key of a summary tells its range. -/

namespace GameClub.Analytics

open GameClub.Lib GameClub.Lib.Binary64 GameClub.Common GameClub.Store GameClub.Sessions

structure AnalyticsRange where
  fromDate : JsDate
  toDate : JsDate

structure TopComputer where
  computerId : Uuid
  label : Option String
  revenue : Number
deriving DecidableEq

structure TopRoom where
  roomId : Uuid
  revenue : Number
deriving DecidableEq

structure AnalyticsSummary where
  range : String × String
  revenue : Number
  outstandingDebt : Number
  playSeconds : Number
  averageSessionSeconds : Number
  averageRevenuePerSession : Number
  sessionsCount : Number
  uniqueCustomers : Number
  activeSessions : Number
  occupancyRate : Number
  topComputers : List TopComputer
  topRooms : List TopRoom
deriving DecidableEq

def CACHE_TTL_SECONDS : ℤ := 30

def CACHE_PREFIX : String := "analytics:summary:"

/-! ### The queries -/

/-- `s.status = 'ENDED' AND s.ended_at BETWEEN from AND to`; no date is between invalid ones. -/
def base (range : AnalyticsRange) (db : Db) : List Session :=
  db.sessions.rows.filter fun s => s.status = .ended &&
    match s.endedAt, range.fromDate, range.toDate with
    | some e, some f, some t => decide (f.ms ≤ e.ms) && decide (e.ms ≤ t.ms)
    | _, _, _ => false

structure Totals where
  revenue : ℤ
  playSeconds : ℚ
  sessionsCount : ℕ
  uniqueCustomers : ℕ

/-- The seconds from the start of a session to its end. -/
def played (s : Session) : ℚ :=
  match s.endedAt with
  | some e => (e.ms - s.startedAt.ms) / 1000
  | none => 0

def totals (range : AnalyticsRange) (db : Db) : Totals where
  revenue := ((base range db).map Session.amountPaid).sum
  playSeconds := ((base range db).map played).sum
  sessionsCount := (base range db).length
  uniqueCustomers := ((base range db).filterMap Session.customerId).dedup.length

/-- `GROUP BY column ORDER BY revenue DESC LIMIT 5`; of equal sums the database may choose any order,
here first come first. -/
def topFive (column : Session → Uuid) (sessions : List Session) : List (Uuid × ℤ) :=
  let sums := ((sessions.map column).dedup).map fun id =>
    (id, ((sessions.filter fun s => column s = id).map Session.amountPaid).sum)
  (sums.insertionSort fun a b => b.2 ≤ a.2).take 5

/-- The join leaves out removed computers. -/
def topComputersRaw (range : AnalyticsRange) (db : Db) : List (Uuid × Option String × ℤ) :=
  (topFive Session.computerId (base range db)).map fun x =>
    (x.1, (db.findComputer x.1).map Computer.label, x.2)

def topRoomsRaw (range : AnalyticsRange) (db : Db) : List (Uuid × ℤ) :=
  topFive Session.roomId (base range db)

def activeSessions (db : Db) : ℕ :=
  (db.sessions.rows.filter fun s => s.status = .active).length

def totalComputers (db : Db) : ℕ :=
  (db.computers.rows.filter fun c => c.isActive && c.deletedAt.isNone).length

/-- `SELECT COALESCE(SUM(t.signed_amount), 0)` over the whole ledger. -/
def totalOutstanding (db : Db) : ℤ :=
  (db.debtTransactions.rows.map DebtTransaction.signedAmount).sum

/-! ### The calls -/

/-- A query of `Promise.all`. -/
inductive Figure
  | activeSessions
  | totalComputers
  | totalOutstanding
deriving DecidableEq

/-- What a summary and a change call: the cache, the database, the event bus. -/
inductive Call
  | get (key : String)
  | set (key : String) (value : AnalyticsSummary) (ttlSeconds : ℤ)
  | totals (range : AnalyticsRange)
  | topComputers (range : AnalyticsRange)
  | topRooms (range : AnalyticsRange)
  | activeSessions
  | totalComputers
  | totalOutstanding
  /-- a financial change is committed -/
  | commit (change : Db → Db)
  /-- its event is emitted: `onFinancialChange` -/
  | emit

/-- A reply with the number of the state of the database it was read from; the code does not see the
number. -/
structure Numbered (α : Type) where
  value : α
  state : ℕ

/-- The type of the reply; a commit replies the number of the state it makes. -/
def Res : Call → Type
  | .get _ => Option AnalyticsSummary
  | .set _ _ _ => Unit
  | .totals _ => Numbered Totals
  | .topComputers _ => Numbered (List (Uuid × Option String × ℤ))
  | .topRooms _ => Numbered (List (Uuid × ℤ))
  | .activeSessions => Numbered ℕ
  | .totalComputers => Numbered ℕ
  | .totalOutstanding => Numbered String
  | .commit _ => ℕ
  | .emit => Unit

/-- The states of the database up to now, the cache, and the clock. -/
structure Process where
  states : ℕ → Db
  version : ℕ
  cache : CacheService AnalyticsSummary
  now : ℤ

/-- The committed database. -/
def Process.db (w : Process) : Db := w.states w.version

/-- `invalidate`. -/
def Process.invalidate (w : Process) : Process :=
  { w with cache := w.cache.delByPrefix CACHE_PREFIX }

def exec : (c : Call) → Process → Res c × Process
  | .get key, w => ((w.cache.get key w.now).1, { w with cache := (w.cache.get key w.now).2 })
  | .set key value ttlSeconds, w => ((), { w with cache := w.cache.set key value ttlSeconds w.now })
  | .totals range, w => (⟨totals range w.db, w.version⟩, w)
  | .topComputers range, w => (⟨topComputersRaw range w.db, w.version⟩, w)
  | .topRooms range, w => (⟨topRoomsRaw range w.db, w.version⟩, w)
  | .activeSessions, w => (⟨activeSessions w.db, w.version⟩, w)
  | .totalComputers, w => (⟨totalComputers w.db, w.version⟩, w)
  | .totalOutstanding, w => (⟨String.ofList (decimal (totalOutstanding w.db)), w.version⟩, w)
  | .commit change, w => (w.version + 1,
      { w with
        states := Function.update w.states (w.version + 1) (change w.db)
        version := w.version + 1 })
  | .emit, w => ((), w.invalidate)

/-! ### The programs -/

abbrev Async (α : Type) := Prog Res Thrown α

def send (c : Call) : Async (Res c) := Prog.stmt c

def getOrSet (key : String) (ttlSeconds : ℤ) (factory : Async AnalyticsSummary) :
    Async AnalyticsSummary := do
  match ← send (.get key) with
  | some cached => pure cached
  | none =>
    let fresh ← factory
    send (.set key fresh ttlSeconds)
    pure fresh

/-- The replies to `Promise.all`. -/
structure Figures where
  activeSessions : ℕ
  totalComputers : ℕ
  outstandingDebt : Money

/-- `Promise.all`, its queries in the order they are answered in. -/
def promiseAll : List Figure → Figures → Async Figures
  | [], acc => pure acc
  | .activeSessions :: rest, acc => do
    let count ← send .activeSessions
    promiseAll rest { acc with activeSessions := count.value }
  | .totalComputers :: rest, acc => do
    let count ← send .totalComputers
    promiseAll rest { acc with totalComputers := count.value }
  | .totalOutstanding :: rest, acc => do
    let sum ← send .totalOutstanding
    let debt ← Money.fromString sum.value
    promiseAll rest { acc with outstandingDebt := debt }

/-- `toISOString`; it throws for an invalid date. -/
def isoString : JsDate → Except Thrown String
  | none => .error (.error "Invalid time value")
  | some d => .ok d.toISOString

def summaryKey (range : AnalyticsRange) : Except Thrown String := do
  let fromText ← isoString range.fromDate
  let toText ← isoString range.toDate
  pure (CACHE_PREFIX ++ fromText ++ ":" ++ toText)

/-- The summary from the replies. -/
def assemble (range : AnalyticsRange) (totals : Totals)
    (topComputersRaw : List (Uuid × Option String × ℤ)) (topRoomsRaw : List (Uuid × ℤ))
    (figures : Figures) : AnalyticsSummary :=
  let revenue : Number := rnd totals.revenue
  let playSeconds : Number := mathRound (rnd totals.playSeconds)
  let sessionsCount : Number := rnd totals.sessionsCount
  -- the dates are valid, or there would be no key
  { range := (String.ofList (range.fromDate.elim [] isoText),
      String.ofList (range.toDate.elim [] isoText))
    revenue
    outstandingDebt := figures.outstandingDebt.value
    playSeconds
    averageSessionSeconds :=
      if 0 < sessionsCount then mathRound (rnd (playSeconds / sessionsCount)) else 0
    averageRevenuePerSession :=
      if 0 < sessionsCount then mathRound (rnd (revenue / sessionsCount)) else 0
    sessionsCount
    uniqueCustomers := rnd totals.uniqueCustomers
    activeSessions := figures.activeSessions
    occupancyRate :=
      if 0 < figures.totalComputers then
        rnd (mathRound (rnd (rnd (figures.activeSessions / figures.totalComputers) * 10000)) / 100)
      else 0
    topComputers := topComputersRaw.map fun r => ⟨r.1, r.2.1, rnd r.2.2⟩
    topRooms := topRoomsRaw.map fun r => ⟨r.1, rnd r.2⟩ }

/-- Every figure is produced by a single aggregation query. -/
def computeSummary (range : AnalyticsRange) (order : List Figure) : Async AnalyticsSummary := do
  let totals ← send (.totals range)
  let topComputersRaw ← send (.topComputers range)
  let topRoomsRaw ← send (.topRooms range)
  let figures ← promiseAll order ⟨0, 0, Money.ZERO⟩
  pure (assemble range totals.value topComputersRaw.value topRoomsRaw.value figures)

def summary (range : AnalyticsRange) (order : List Figure) : Async AnalyticsSummary := do
  let key ← summaryKey range
  getOrSet key CACHE_TTL_SECONDS (computeSummary range order)

/-- A financial change: it is committed, and then its event is emitted. -/
def financialChange (change : Db → Db) : Async Unit := do
  let _ ← send (.commit change)
  send .emit

/-! ### A summary of one database -/

/-- The replies to `Promise.all` from one database: each figure that is asked for. -/
theorem serve_figures {w : Process} {figures acc : Figures} {order : List Figure}
    (h : (serve exec (promiseAll order acc) w).1 = .ok figures) :
    figures.activeSessions =
        (if .activeSessions ∈ order then activeSessions w.db else acc.activeSessions) ∧
      figures.totalComputers =
        (if .totalComputers ∈ order then totalComputers w.db else acc.totalComputers) ∧
      figures.outstandingDebt.value =
        if .totalOutstanding ∈ order then totalOutstanding w.db else acc.outstandingDebt.value := by
  induction order generalizing acc with
  | nil =>
    cases h
    exact ⟨rfl, rfl, rfl⟩
  | cons f rest ih =>
    cases f with
    | activeSessions =>
      obtain ⟨hactive, htotal, hdebt⟩ := @ih { acc with activeSessions := activeSessions w.db } h
      exact ⟨by simp [hactive], by simp [htotal], by simp [hdebt]⟩
    | totalComputers =>
      obtain ⟨hactive, htotal, hdebt⟩ := @ih { acc with totalComputers := totalComputers w.db } h
      exact ⟨by simp [hactive], by simp [htotal], by simp [hdebt]⟩
    | totalOutstanding =>
      have hsum : serve exec (promiseAll (.totalOutstanding :: rest) acc) w =
          serve exec ((liftM (Money.fromString (String.ofList (decimal (totalOutstanding w.db)))) :
            Async Money) >>= fun debt => promiseAll rest { acc with outstandingDebt := debt }) w :=
        rfl
      rw [hsum, serve_bind] at h
      by_cases hsafe : |totalOutstanding w.db| ≤ maxSafeInteger
      · rw [fromString_decimal_ok hsafe] at h
        obtain ⟨hactive, htotal, hdebt⟩ := @ih { acc with outstandingDebt := ⟨_, hsafe⟩ } h
        exact ⟨by simp [hactive], by simp [htotal], by simp [hdebt]⟩
      · obtain ⟨e, he⟩ := fromString_decimal_error hsafe
        rw [he] at h
        cases h

/-- **A summary that is computed on one database**: the figures are those of that database. -/
theorem computeSummary_eq {w : Process} {range : AnalyticsRange} {order : List Figure}
    {result : AnalyticsSummary}
    (hall : order.Perm [.activeSessions, .totalComputers, .totalOutstanding])
    (h : (serve exec (computeSummary range order) w).1 = .ok result) :
    ∃ figures : Figures, figures.activeSessions = activeSessions w.db ∧
      figures.totalComputers = totalComputers w.db ∧
      figures.outstandingDebt.value = totalOutstanding w.db ∧
      result = assemble range (totals range w.db) (topComputersRaw range w.db)
        (topRoomsRaw range w.db) figures := by
  have hserve : serve exec (computeSummary range order) w =
      serve exec (promiseAll order ⟨0, 0, Money.ZERO⟩ >>= fun figures =>
        pure (assemble range (totals range w.db) (topComputersRaw range w.db)
          (topRoomsRaw range w.db) figures)) w := rfl
  rw [hserve, serve_bind] at h
  rcases hfig : serve exec (promiseAll order ⟨0, 0, Money.ZERO⟩) w with ⟨r, w'⟩
  rw [hfig] at h
  rcases r with e | figures
  · cases h
  · have hfigures : (serve exec (promiseAll order ⟨0, 0, Money.ZERO⟩) w).1 = .ok figures := by
      rw [hfig]
    have hmem : ∀ f : Figure, f ∈ order := by
      intro f
      rw [hall.mem_iff]
      cases f <;> simp
    obtain ⟨hactive, htotal, hdebt⟩ := serve_figures hfigures
    rw [if_pos (hmem _)] at hactive htotal hdebt
    cases h
    exact ⟨figures, hactive, htotal, hdebt, rfl⟩

/-! ### Keys -/

theorem isoString_ok {d : JsDate} {s : String} :
    isoString d = .ok s ↔ ∃ t, d = some t ∧ s = t.toISOString := by
  cases d with
  | none => simp [isoString]
  | some t => simp [isoString, eq_comm]

theorem summaryKey_ok {range : AnalyticsRange} {key : String} (h : summaryKey range = .ok key) :
    ∃ f t, range = ⟨some f, some t⟩ ∧
      key.toList = CACHE_PREFIX.toList ++ (isoText f ++ (':' :: isoText t)) := by
  obtain ⟨fromText, hf, h⟩ := bind_ok.mp h
  obtain ⟨toText, ht, h⟩ := bind_ok.mp h
  obtain ⟨f, hfrom, rfl⟩ := isoString_ok.mp hf
  obtain ⟨t, hto, rfl⟩ := isoString_ok.mp ht
  cases h
  refine ⟨f, t, ?_, ?_⟩
  · cases range
    cases hfrom
    cases hto
    rfl
  · simp [Instant.toISOString, String.toList_append]

/-- **The key of a summary tells its range.** -/
theorem summaryKey_inj {range range' : AnalyticsRange} {key : String}
    (h : summaryKey range = .ok key) (h' : summaryKey range' = .ok key) : range = range' := by
  obtain ⟨f, t, rfl, hkey⟩ := summaryKey_ok h
  obtain ⟨f', t', rfl, hkey'⟩ := summaryKey_ok h'
  rw [hkey] at hkey'
  have htexts := List.append_cancel_left hkey'
  obtain ⟨rfl, hrest⟩ := isoText_append_inj htexts
  have hlast : isoText t ++ [] = isoText t' ++ [] := by
    rw [List.append_nil, List.append_nil]
    exact (List.cons.inj hrest).2
  obtain ⟨rfl, -⟩ := isoText_append_inj hlast
  rfl

/-- Every summary is cached under the prefix that is invalidated. -/
theorem startsWith_summaryKey {range : AnalyticsRange} {key : String}
    (h : summaryKey range = .ok key) : startsWith key CACHE_PREFIX = true := by
  obtain ⟨f, t, -, hkey⟩ := summaryKey_ok h
  rw [startsWith, hkey, List.isPrefixOf_iff_prefix]
  exact List.prefix_append _ _

end GameClub.Analytics
