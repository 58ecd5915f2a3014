import GameClub.Analytics.Summary
import GameClub.Lib.Interleave

/-! # Summaries after a change

Summaries and financial changes side by side. A summary that has read its figures and not stored
them yet is not there when a change invalidates the cache, and stores them afterwards.

* `Phase`, `implements`: the points of the programs, with the numbers of the states that the figures
  were read from.
* `InTime`: the change is announced when no summary in flight has read an older state.
* `summary_fresh`: then a summary that begins after the announcement has both figures from states
  with the change. -/

namespace GameClub.Analytics

open GameClub.Lib GameClub.Lib.Binary64 GameClub.Lib.Interleave GameClub.Common GameClub.Store

/-! ### Phases -/

/-- A call of `summary`; the last three queries are answered in any order. -/
structure SummaryCall where
  range : AnalyticsRange
  order : List Figure
  all : order.Perm [.activeSessions, .totalComputers, .totalOutstanding]

inductive Request
  | summary (q : SummaryCall)
  | change (f : Db → Db)

inductive Reply
  | summary (s : AnalyticsSummary)
  | changed

/-- What a summary has read before `Promise.all`. -/
structure Partial where
  totals : Numbered Totals
  topComputersRaw : List (Uuid × Option String × ℤ)
  topRoomsRaw : List (Uuid × ℤ)

/-- The point a request has come to. -/
inductive Phase
  | finished (r : Except Thrown Reply)
  | lookingUp (q : SummaryCall) (key : String)
  | totalling (q : SummaryCall) (key : String)
  | rankingComputers (q : SummaryCall) (key : String) (totals : Numbered Totals)
  | rankingRooms (q : SummaryCall) (key : String) (totals : Numbered Totals)
      (topComputersRaw : List (Uuid × Option String × ℤ))
  | counting (q : SummaryCall) (key : String) (seen : Partial) (figures : Figures)
      (debtFrom : Option ℕ) (left : List Figure)
  | committing (f : Db → Db)
  | emitting (n : ℕ)

def start : Request → Phase
  | .summary q =>
    match summaryKey q.range with
    | .error e => .finished (.error e)
    | .ok key => .lookingUp q key
  | .change f => .committing f

/-- The summary of what has been read. -/
def Partial.summary (seen : Partial) (range : AnalyticsRange) (figures : Figures) :
    AnalyticsSummary :=
  assemble range seen.totals.value seen.topComputersRaw seen.topRoomsRaw figures

/-- After the reply of `getTotalOutstanding`, which may be out of range. -/
def indebted (q : SummaryCall) (key : String) (seen : Partial) (figures : Figures)
    (left : List Figure) (sum : Numbered String) : Phase :=
  match Money.fromString sum.value with
  | .error e => .finished (.error e)
  | .ok debt => .counting q key seen { figures with outstandingDebt := debt } (some sum.state) left

def view : Phase → View Res (Except Thrown Reply) Phase
  | .finished r => .done r
  | .lookingUp q key => .call (.get key) fun
    | some cached => .finished (.ok (.summary cached))
    | none => .totalling q key
  | .totalling q key => .call (.totals q.range) fun totals => .rankingComputers q key totals
  | .rankingComputers q key totals => .call (.topComputers q.range) fun r =>
    .rankingRooms q key totals r.value
  | .rankingRooms q key totals topComputersRaw => .call (.topRooms q.range) fun r =>
    .counting q key ⟨totals, topComputersRaw, r.value⟩ ⟨0, 0, Money.ZERO⟩ none q.order
  | .counting q key seen figures debtFrom (.activeSessions :: left) =>
    .call .activeSessions fun r =>
      .counting q key seen { figures with activeSessions := r.value } debtFrom left
  | .counting q key seen figures debtFrom (.totalComputers :: left) =>
    .call .totalComputers fun r =>
      .counting q key seen { figures with totalComputers := r.value } debtFrom left
  | .counting q key seen figures _ (.totalOutstanding :: left) =>
    .call .totalOutstanding fun sum => indebted q key seen figures left sum
  | .counting q key seen figures _ [] =>
    .call (.set key (seen.summary q.range figures) CACHE_TTL_SECONDS) fun _ =>
      .finished (.ok (.summary (seen.summary q.range figures)))
  | .committing f => .call (.commit f) fun n => .emitting n
  | .emitting _ => .call .emit fun _ => .finished (.ok .changed)

/-- The interleavings of summaries and changes; time passes in milliseconds. -/
def system : System Res Process Request (Except Thrown Reply) Phase where
  exec := exec
  start := start
  view := view
  pass n w := { w with now := w.now + n }

theorem view_done {p : Phase} {r : Except Thrown Reply} (h : view p = .done r) :
    p = .finished r := by
  unfold view at h
  split at h <;> cases h
  rfl

/-! ### The phases are the points of the programs -/

/-- The program of a request. -/
def program : Request → Async Reply
  | .summary q => do
    let s ← summary q.range q.order
    pure (.summary s)
  | .change f => do
    financialChange f
    pure .changed

/-- `getOrSet` once the factory has run. -/
def store (key : String) (fresh : AnalyticsSummary) : Async Reply := do
  send (.set key fresh CACHE_TTL_SECONDS)
  pure (.summary fresh)

/-- What is left of the program at a phase. -/
def rest : Phase → Async Reply
  | .finished (.ok r) => pure r
  | .finished (.error e) => .throw e
  | .lookingUp q key => do
    let s ← getOrSet key CACHE_TTL_SECONDS (computeSummary q.range q.order)
    pure (.summary s)
  | .totalling q key => do
    let fresh ← computeSummary q.range q.order
    store key fresh
  | .rankingComputers q key totals => do
    let topComputersRaw ← send (.topComputers q.range)
    let topRoomsRaw ← send (.topRooms q.range)
    let figures ← promiseAll q.order ⟨0, 0, Money.ZERO⟩
    store key (assemble q.range totals.value topComputersRaw.value topRoomsRaw.value figures)
  | .rankingRooms q key totals topComputersRaw => do
    let topRoomsRaw ← send (.topRooms q.range)
    let figures ← promiseAll q.order ⟨0, 0, Money.ZERO⟩
    store key (assemble q.range totals.value topComputersRaw topRoomsRaw.value figures)
  | .counting q key seen figures _ left => do
    let figures' ← promiseAll left figures
    store key (seen.summary q.range figures')
  | .committing f => do
    financialChange f
    pure .changed
  | .emitting _ => do
    send .emit
    pure .changed

theorem rest_start (q : Request) : rest (start q) = program q := by
  cases q with
  | summary q =>
    simp only [start, program, Analytics.summary]
    cases summaryKey q.range with
    | error e => rfl
    | ok key => rfl
  | change f => rfl

theorem rest_totalling (q : SummaryCall) (key : String) : rest (.totalling q key) =
    (send (.totals q.range) >>= fun totals => rest (.rankingComputers q key totals)) := by
  simp only [rest, computeSummary, Prog.bind_assoc]
  rfl

theorem rest_indebted (q : SummaryCall) (key : String) (seen : Partial) (figures : Figures)
    (left : List Figure) (sum : Numbered String) :
    (do
      let figures' ← (do
        let debt ← Money.fromString sum.value
        promiseAll left { figures with outstandingDebt := debt } : Async Figures)
      store key (seen.summary q.range figures') : Async Reply) =
      rest (indebted q key seen figures left sum) := by
  unfold indebted
  cases Money.fromString sum.value <;> rfl

/-- **The phases are the points of the programs.** -/
theorem implements : Implements view rest := by
  intro p
  cases p with
  | finished r => cases r <;> rfl
  | lookingUp q key =>
    refine congrArg (View.call _) (funext fun r => ?_)
    cases r with
    | some cached => rfl
    | none =>
      -- the factory runs, and its result is stored
      change (computeSummary q.range q.order >>= fun fresh =>
        send (.set key fresh CACHE_TTL_SECONDS) >>= fun _ => pure fresh) >>=
          (fun s => pure (Reply.summary s)) = rest (.totalling q key)
      rw [Prog.bind_assoc]
      rfl
  | totalling q key =>
    rw [rest_totalling]
    rfl
  | rankingComputers q key totals => rfl
  | rankingRooms q key totals topComputersRaw => rfl
  | counting q key seen figures debtFrom left =>
    rcases left with _ | ⟨_ | _ | _, left⟩
    · rfl
    · rfl
    · rfl
    · exact congrArg (View.call _) (funext fun sum => rest_indebted q key seen figures left sum)
  | committing f => rfl
  | emitting n => rfl

/-! ### The states the figures are of -/

abbrev SummaryConfig := Config Process Phase

abbrev SummaryEvent := Event Process Request (Except Thrown Reply) Phase

/-- What has been read is of a state of the database. -/
def Numbered.Of {α : Type} (x : Numbered α) (query : Db → α) (w : Process) : Prop :=
  x.state ≤ w.version ∧ x.value = query (w.states x.state)

/-- The debt among the figures is of the state it was read from, or it is still to be read. -/
def DebtOf (w : Process) (figures : Figures) (left : List Figure) : Option ℕ → Prop
  | some m => m ≤ w.version ∧ figures.outstandingDebt.value = totalOutstanding (w.states m)
  | none => Figure.totalOutstanding ∈ left

/-- A phase has the key of its range, and the figures of the states it has read. -/
def Sound (w : Process) : Phase → Prop
  | .finished _ => True
  | .lookingUp q key => summaryKey q.range = .ok key
  | .totalling q key => summaryKey q.range = .ok key
  | .rankingComputers q key read => summaryKey q.range = .ok key ∧ read.Of (totals q.range) w
  | .rankingRooms q key read _ => summaryKey q.range = .ok key ∧ read.Of (totals q.range) w
  | .counting q key seen figures debtFrom left => summaryKey q.range = .ok key ∧
      seen.totals.Of (totals q.range) w ∧ DebtOf w figures left debtFrom
  | .committing _ => True
  | .emitting n => n ≤ w.version

/-- The revenue and the debt that a summary has read are of the state `n` or of later ones. -/
def Reads (n : ℕ) : Phase → Prop
  | .rankingComputers _ _ read => n ≤ read.state
  | .rankingRooms _ _ read _ => n ≤ read.state
  | .counting _ _ seen _ debtFrom _ => n ≤ seen.totals.state ∧ ∀ m ∈ debtFrom, n ≤ m
  | _ => True

instance (n : ℕ) : DecidablePred (Reads n)
  | .rankingComputers _ _ read => inferInstanceAs (Decidable (n ≤ read.state))
  | .rankingRooms _ _ read _ => inferInstanceAs (Decidable (n ≤ read.state))
  | .counting _ _ seen _ debtFrom _ =>
    inferInstanceAs (Decidable (n ≤ seen.totals.state ∧ ∀ m ∈ debtFrom, n ≤ m))
  | .finished _ | .lookingUp _ _ | .totalling _ _ | .committing _ | .emitting _ =>
    inferInstanceAs (Decidable True)

/-- **The revenue and the debt of a summary contain the change** that made the state `n`: each is of
that state or of a later one. -/
def Fresh (n : ℕ) (range : AnalyticsRange) (s : AnalyticsSummary) (w : Process) : Prop :=
  (∃ m, m ≤ w.version ∧ n ≤ m ∧ s.revenue = rnd (totals range (w.states m)).revenue) ∧
    ∃ m, m ≤ w.version ∧ n ≤ m ∧ s.outstandingDebt = totalOutstanding (w.states m)

/-- **A change is announced in time** when no summary in flight has read an older state. -/
def InTime (c : SummaryConfig) : SummaryEvent → Prop
  | .called _ (.emitting n) _ => ∀ i p, c.threads i = some p → Reads n p
  | _ => True

/-- The invalidation for the change that made the state `n` has run. -/
def Invalidated (n : ℕ) (tr : List SummaryEvent) : Prop :=
  ∃ i w, .called i (.emitting n) w ∈ tr

/-- How a request in flight began, with what was before. -/
def began (i : ℕ) : List SummaryEvent → Option (Request × List SummaryEvent)
  | [] => none
  | .arrived j q :: tr => if j = i then some (q, tr) else began i tr
  | _ :: tr => began i tr

/-- The summary that the last event returns, with what was before it began. -/
def returned : List SummaryEvent → Option (SummaryCall × AnalyticsSummary × List SummaryEvent)
  | .left i _ (.ok (.summary s)) :: tr =>
    match began i tr with
    | some (.summary q, earlier) => some (q, s, earlier)
    | _ => none
  | _ => none

theorem returned_some {tr earlier : List SummaryEvent} {q : SummaryCall} {s : AnalyticsSummary}
    (h : returned tr = some (q, s, earlier)) : ∃ i p tr',
      tr = .left i p (.ok (.summary s)) :: tr' ∧ began i tr' = some (.summary q, earlier) := by
  unfold returned at h
  split at h
  · next i p s' tr' =>
    split at h
    · next q' earlier' hbegan =>
      cases h
      exact ⟨i, p, tr', rfl, hbegan⟩
    · cases h
  · cases h

/-! ### What a step does -/

/-- The states of the database are still there. -/
def Process.Extends (w' w : Process) : Prop :=
  w.version ≤ w'.version ∧ ∀ m ≤ w.version, w'.states m = w.states m

theorem Process.Extends.refl (w : Process) : w.Extends w := ⟨le_rfl, fun _ _ => rfl⟩

theorem Numbered.Of.extend {α : Type} {x : Numbered α} {query : Db → α} {w w' : Process}
    (h : x.Of query w) (hw : w'.Extends w) : x.Of query w' := by
  obtain ⟨hle, hvalue⟩ := h
  refine ⟨hle.trans hw.1, ?_⟩
  rw [hw.2 _ hle]
  exact hvalue

theorem DebtOf.extend {w w' : Process} {figures : Figures} {left : List Figure}
    {debtFrom : Option ℕ} (h : DebtOf w figures left debtFrom) (hw : w'.Extends w) :
    DebtOf w' figures left debtFrom := by
  cases debtFrom with
  | none => exact h
  | some m =>
    obtain ⟨hle, hvalue⟩ := h
    refine ⟨hle.trans hw.1, ?_⟩
    rw [hw.2 _ hle]
    exact hvalue

/-- Another figure has been read. -/
theorem DebtOf.other {w : Process} {figures figures' : Figures} {f : Figure} {left : List Figure}
    {debtFrom : Option ℕ} (h : DebtOf w figures (f :: left) debtFrom)
    (hf : Figure.totalOutstanding ≠ f)
    (hdebt : figures'.outstandingDebt = figures.outstandingDebt) :
    DebtOf w figures' left debtFrom := by
  cases debtFrom with
  | none => exact (List.mem_cons.mp h).resolve_left hf
  | some m =>
    obtain ⟨hle, hvalue⟩ := h
    exact ⟨hle, hdebt ▸ hvalue⟩

theorem Sound.extend {w w' : Process} {p : Phase} (h : Sound w p) (hw : w'.Extends w) :
    Sound w' p := by
  cases p with
  | finished r => trivial
  | lookingUp q key => exact h
  | totalling q key => exact h
  | rankingComputers q key read => exact ⟨h.1, h.2.extend hw⟩
  | rankingRooms q key read topComputersRaw => exact ⟨h.1, h.2.extend hw⟩
  | counting q key seen figures debtFrom left => exact ⟨h.1, h.2.1.extend hw, h.2.2.extend hw⟩
  | committing f => trivial
  | emitting n => exact le_trans h hw.1

theorem Fresh.extend {n : ℕ} {range : AnalyticsRange} {s : AnalyticsSummary} {w w' : Process}
    (h : Fresh n range s w) (hw : w'.Extends w) : Fresh n range s w' := by
  obtain ⟨⟨m, hm, hn, hrevenue⟩, k, hk, hn', hdebt⟩ := h
  refine ⟨⟨m, hm.trans hw.1, hn, ?_⟩, k, hk.trans hw.1, hn', ?_⟩
  · rw [hw.2 m hm]
    exact hrevenue
  · rw [hw.2 k hk]
    exact hdebt

/-- No call takes a state away. -/
theorem exec_extends (c : Call) (w : Process) : (exec c w).2.Extends w := by
  cases c with
  | commit f =>
    refine ⟨Nat.le_succ _, fun m hm => ?_⟩
    have hne : m ≠ w.version + 1 := by omega
    exact Function.update_of_ne hne _ _
  | _ => exact .refl w

/-- The summary a phase is about. -/
def Phase.call : Phase → Option SummaryCall
  | .lookingUp q _ | .totalling q _ | .rankingComputers q _ _ | .rankingRooms q _ _ _
  | .counting q _ _ _ _ _ => some q
  | .finished _ | .committing _ | .emitting _ => none

/-- The summary that a phase is about to store, with its key. -/
def Phase.stores : Phase → Option (SummaryCall × String × AnalyticsSummary)
  | .counting q key seen figures _ [] => some (q, key, seen.summary q.range figures)
  | _ => none

/-- **A call of a request**: what the next phase has from the phase before it. -/
structure Goes (w w' : Process) (p p' : Phase) : Prop where
  sound : Sound w p → Sound w' p'
  reads : ∀ n ≤ w.version, Reads n p → Reads n p'
  call : p'.call = none ∨ p'.call = p.call
  /-- a summary that is returned is stored, or was in the cache -/
  replied : ∀ s, p' = .finished (.ok (.summary s)) →
    (∃ q key, p.stores = some (q, key, s)) ∨
    ∃ q key entry, p = .lookingUp q key ∧ w.cache.store key = some entry ∧ entry.value = s
  /-- a summary in the cache is stored, or was there -/
  cached : ∀ key entry, w'.cache.store key = some entry →
    (∃ q, p.stores = some (q, key, entry.value)) ∨ w.cache.store key = some entry

theorem stores_some {p : Phase} {q : SummaryCall} {key : String} {s : AnalyticsSummary}
    (h : p.stores = some (q, key, s)) : ∃ seen figures debtFrom,
      p = .counting q key seen figures debtFrom [] ∧ s = seen.summary q.range figures := by
  unfold Phase.stores at h
  split at h
  · cases h
    exact ⟨_, _, _, rfl, rfl⟩
  · cases h

/-- A query that is answered changes neither the cache nor the summary that is asked for. -/
theorem Goes.of_query {w : Process} {p p' : Phase} (hsound : Sound w p → Sound w p')
    (hreads : ∀ n ≤ w.version, Reads n p → Reads n p') (hcall : p'.call = p.call)
    (hq : p.call ≠ none) : Goes w w p p' := by
  refine ⟨hsound, hreads, Or.inr hcall, fun s h => ?_, fun key entry h => Or.inr h⟩
  rw [h] at hcall
  exact absurd hcall.symm hq

/-- **Every call of a request** goes on so. -/
theorem goes {w : Process} {p : Phase} {c : Call} {k : Res c → Phase} (hv : view p = .call c k) :
    Goes w (exec c w).2 p (k (exec c w).1) := by
  cases p with
  | finished r => cases hv
  | lookingUp q key =>
    cases hv
    have hget : ∀ k entry, (exec (.get key) w).2.cache.store k = some entry →
        w.cache.store k = some entry := fun k entry h => CacheService.store_get h
    have hserved : ∀ v, (exec (.get key) w).1 = some v →
        ∃ entry, w.cache.store key = some entry ∧ entry.value = v :=
      fun v h => CacheService.get_some h
    generalize (exec (.get key) w).1 = served at hserved ⊢
    cases served with
    | some cached =>
      obtain ⟨entry, hentry, hvalue⟩ := hserved cached rfl
      refine ⟨fun _ => trivial, fun n _ _ => trivial, Or.inl rfl, fun s hs => Or.inr ?_,
        fun k e h => Or.inr (hget k e h)⟩
      cases hs
      exact ⟨q, key, entry, rfl, hentry, hvalue⟩
    | none =>
      exact ⟨fun h => h, fun n _ _ => trivial, Or.inr rfl, (fun _ h => nomatch h),
        fun k e h => Or.inr (hget k e h)⟩
  | totalling q key =>
    cases hv
    exact .of_query (fun h => ⟨h, le_rfl, rfl⟩) (fun n hn _ => hn) rfl nofun
  | rankingComputers q key read =>
    cases hv
    exact .of_query (fun h => h) (fun n _ h => h) rfl nofun
  | rankingRooms q key read topComputersRaw =>
    cases hv
    refine .of_query (fun h => ⟨h.1, h.2, ?_⟩) (fun n _ h => ⟨h, nofun⟩) rfl nofun
    exact q.all.mem_iff.mpr (by simp)
  | counting q key seen figures debtFrom left =>
    rcases left with _ | ⟨_ | _ | _, left⟩
    · cases hv
      change Goes w _ _ (.finished (.ok (.summary (seen.summary q.range figures))))
      refine ⟨fun _ => trivial, fun n _ _ => trivial, Or.inl rfl, fun s hs => Or.inl ?_,
        fun k e h => ?_⟩
      · cases hs
        exact ⟨q, key, rfl⟩
      · rcases CacheService.store_set h with ⟨rfl, hvalue⟩ | h
        · exact Or.inl ⟨q, by rw [hvalue]; rfl⟩
        · exact Or.inr h
    · cases hv
      exact .of_query (fun h => ⟨h.1, h.2.1, h.2.2.other nofun rfl⟩) (fun n _ h => h) rfl nofun
    · cases hv
      exact .of_query (fun h => ⟨h.1, h.2.1, h.2.2.other nofun rfl⟩) (fun n _ h => h) rfl nofun
    · cases hv
      have hsum : ∀ debt, Money.fromString (exec .totalOutstanding w).1.value = .ok debt →
          debt.value = totalOutstanding w.db := fun debt => (fromString_decimal _).mp
      change Goes w w _ (indebted q key seen figures left (exec .totalOutstanding w).1)
      unfold indebted
      rcases hread : Money.fromString (exec .totalOutstanding w).1.value with e | debt
      · exact ⟨fun _ => trivial, fun n _ _ => trivial, Or.inl rfl, (fun _ h => nomatch h),
          fun k e h => Or.inr h⟩
      · exact .of_query (fun h => ⟨h.1, h.2.1, le_rfl, hsum debt hread⟩)
          (fun n hn h => ⟨h.1, fun m hm => Option.some.inj hm ▸ hn⟩) rfl nofun
  | committing f =>
    cases hv
    change Goes w _ _ (.emitting (w.version + 1))
    exact ⟨fun _ => le_rfl, fun n _ _ => trivial, Or.inl rfl, (fun _ h => nomatch h),
      fun k e h => Or.inr h⟩
  | emitting n =>
    cases hv
    change Goes w _ _ (.finished (.ok .changed))
    exact ⟨fun _ => trivial, fun n _ _ => trivial, Or.inl rfl, (fun _ h => nomatch h),
      fun k e h => Or.inr (CacheService.delByPrefix_store h).2⟩

/-! ### Runs -/

theorem key_stores {w : Process} {p : Phase} {q : SummaryCall} {key : String}
    {s : AnalyticsSummary} (h : p.stores = some (q, key, s)) (hs : Sound w p) :
    summaryKey q.range = .ok key := by
  obtain ⟨seen, figures, debtFrom, rfl, -⟩ := stores_some h
  exact hs.1

/-- What is about to be stored contains a change if what was read does. -/
theorem fresh_stores {w : Process} {p : Phase} {q : SummaryCall} {key : String}
    {s : AnalyticsSummary} {n : ℕ} (h : p.stores = some (q, key, s)) (hs : Sound w p)
    (hr : Reads n p) : Fresh n q.range s w := by
  obtain ⟨seen, figures, debtFrom, rfl, rfl⟩ := stores_some h
  obtain ⟨-, ⟨hstate, htotals⟩, hdebt⟩ := hs
  obtain ⟨hn, hn'⟩ := hr
  refine ⟨⟨_, hstate, hn, ?_⟩, ?_⟩
  · rw [← htotals]
    rfl
  · cases debtFrom with
    | none => cases hdebt
    | some m =>
      obtain ⟨hm, hvalue⟩ := hdebt
      refine ⟨m, hm, hn' m rfl, ?_⟩
      rw [← hvalue]
      rfl

theorem invalidated_began {i n : ℕ} {tr earlier : List SummaryEvent} {q : Request}
    (h : began i tr = some (q, earlier)) (hn : Invalidated n earlier) : Invalidated n tr := by
  induction tr with
  | nil => cases h
  | cons e tr ih =>
    have hcons : Invalidated n tr → Invalidated n (e :: tr) :=
      fun ⟨j, w, hmem⟩ => ⟨j, w, List.mem_cons_of_mem _ hmem⟩
    cases e with
    | arrived j q' =>
      rw [began] at h
      split_ifs at h with hj
      · cases h
        exact hcons hn
      · exact hcons (ih h)
    | called j p w => exact hcons (ih h)
    | left j p r => exact hcons (ih h)
    | passed m => exact hcons (ih h)

/-- An invalidation is the last event, or was before. -/
theorem invalidated_cons {n : ℕ} {e : SummaryEvent} {tr : List SummaryEvent}
    (h : Invalidated n (e :: tr)) : (∃ i w, e = .called i (.emitting n) w) ∨ Invalidated n tr := by
  obtain ⟨i, w, hmem⟩ := h
  rcases List.mem_cons.mp hmem with heq | hmem
  · exact Or.inl ⟨i, w, heq.symm⟩
  · exact Or.inr ⟨i, w, hmem⟩

/-- **What holds in a run that announces its changes in time.** -/
structure Inv (tr : List SummaryEvent) (c : SummaryConfig) : Prop where
  /-- an invalidation is for a state that is there -/
  invalidated : ∀ n, Invalidated n tr → n ≤ c.db.version
  sound : ∀ i p, c.threads i = some p → Sound c.db p
  /-- no summary in flight has read a state from before an invalidation -/
  reads : ∀ n, Invalidated n tr → ∀ i p, c.threads i = some p → Reads n p
  /-- a summary in the cache contains the changes that the cache was invalidated for -/
  cached : ∀ key entry, c.db.cache.store key = some entry →
    ∃ range, summaryKey range = .ok key ∧ ∀ n, Invalidated n tr → Fresh n range entry.value c.db
  /-- a request is about the summary it began with -/
  call : ∀ i q earlier, began i tr = some (.summary q, earlier) → ∀ p, c.threads i = some p →
    ∀ q', p.call = some q' → q' = q
  /-- a summary that is returned contains the changes that were announced before it began -/
  replied : ∀ i q earlier, began i tr = some (.summary q, earlier) → ∀ s,
    c.threads i = some (.finished (.ok (.summary s))) → ∀ n, Invalidated n earlier →
    Fresh n q.range s c.db

theorem Inv.init {w : Process} (hw : w.cache = .empty) : Inv [] (.idle w) where
  invalidated := by
    rintro n ⟨i, w, hmem⟩
    cases hmem
  sound i p h := by cases h
  reads n hn i p h := by cases h
  cached := by
    intro key entry h
    change w.cache.store key = some entry at h
    rw [hw] at h
    cases h
  call i q earlier h := by cases h
  replied i q earlier h := by cases h

/-- A step that neither calls nor begins anything. -/
theorem Inv.quiet {tr : List SummaryEvent} {e : SummaryEvent} {c c' : SummaryConfig}
    (h : Inv tr c) (he : ∀ n, Invalidated n (e :: tr) → Invalidated n tr)
    (hbegan : ∀ i, began i (e :: tr) = began i tr) (hdb : c'.db.Extends c.db)
    (hcache : c'.db.cache = c.db.cache)
    (hthreads : ∀ i p, c'.threads i = some p → c.threads i = some p) : Inv (e :: tr) c' where
  invalidated n hn := (h.invalidated n (he n hn)).trans hdb.1
  sound i p hp := (h.sound i p (hthreads i p hp)).extend hdb
  reads n hn i p hp := h.reads n (he n hn) i p (hthreads i p hp)
  cached key entry hentry := by
    rw [hcache] at hentry
    obtain ⟨range, hkey, hfresh⟩ := h.cached key entry hentry
    exact ⟨range, hkey, fun n hn => (hfresh n (he n hn)).extend hdb⟩
  call i q earlier hb p hp := h.call i q earlier (hbegan i ▸ hb) p (hthreads i p hp)
  replied i q earlier hb s hs n hn :=
    (h.replied i q earlier (hbegan i ▸ hb) s (hthreads i _ hs) n hn).extend hdb

theorem start_call {q : Request} {q' : SummaryCall} (h : (start q).call = some q') :
    q = .summary q' := by
  cases q with
  | summary q =>
    rw [start] at h
    split at h
    · cases h
    · cases h
      rfl
  | change f => cases h

theorem sound_start (w : Process) (q : Request) : Sound w (start q) := by
  cases q with
  | summary q =>
    rw [start]
    split
    · trivial
    · next key hkey => exact hkey
  | change f => trivial

theorem reads_start (n : ℕ) (q : Request) : Reads n (start q) := by
  cases q with
  | summary q =>
    rw [start]
    split <;> trivial
  | change f => trivial

theorem start_ne_finished {q : Request} {r : Reply} : start q ≠ .finished (.ok r) := by
  cases q with
  | summary q =>
    rw [start]
    split <;> nofun
  | change f => nofun

/-- **A request begins** and has read nothing. -/
theorem Inv.arrive {tr : List SummaryEvent} {c : SummaryConfig} (h : Inv tr c) {i : ℕ}
    (q : Request) : Inv (.arrived i q :: tr) (c.put c.db i (some (start q))) := by
  have he : ∀ n, Invalidated n (.arrived i q :: tr) → Invalidated n tr := fun n hn =>
    (invalidated_cons hn).resolve_left (by rintro ⟨j, w, heq⟩; cases heq)
  refine ⟨fun n hn => h.invalidated n (he n hn), fun j p hj => ?_, fun n hn j p hj => ?_,
    fun key entry hentry => ?_, fun j q' earlier hb p hj => ?_, fun j q' earlier hb s hj => ?_⟩
  · rcases Config.of_put hj with ⟨-, heq⟩ | ⟨-, hj⟩
    · cases heq
      exact sound_start c.db q
    · exact h.sound j p hj
  · rcases Config.of_put hj with ⟨-, heq⟩ | ⟨-, hj⟩
    · cases heq
      exact reads_start n q
    · exact h.reads n (he n hn) j p hj
  · obtain ⟨range, hkey, hfresh⟩ := h.cached key entry hentry
    exact ⟨range, hkey, fun n hn => hfresh n (he n hn)⟩
  · rw [began] at hb
    rcases Config.of_put hj with ⟨rfl, heq⟩ | ⟨hne, hj⟩
    · cases heq
      rw [if_pos rfl] at hb
      cases hb
      intro q'' hq
      cases start_call hq
      rfl
    · rw [if_neg (Ne.symm hne)] at hb
      exact h.call j q' earlier hb p hj
  · rw [began] at hb
    rcases Config.of_put hj with ⟨rfl, heq⟩ | ⟨hne, hj⟩
    · exact absurd (Option.some.inj heq) start_ne_finished
    · rw [if_neg (Ne.symm hne)] at hb
      exact h.replied j q' earlier hb s hj

/-- **A request makes a call.** -/
theorem Inv.called {tr : List SummaryEvent} {c : SummaryConfig} (h : Inv tr c) {i : ℕ} {p : Phase}
    {s : Call} {k : Res s → Phase} (hi : c.threads i = some p) (hv : view p = .call s k)
    (hin : InTime c (.called i p c.db)) :
    Inv (.called i p c.db :: tr) (c.put (exec s c.db).2 i (some (k (exec s c.db).1))) := by
  have hgoes := goes (w := c.db) hv
  have hext := exec_extends s c.db
  have hsound := h.sound i p hi
  have hle : ∀ n, Invalidated n (.called i p c.db :: tr) → n ≤ c.db.version := by
    intro n hn
    rcases invalidated_cons hn with ⟨j, w, heq⟩ | hn
    · cases heq
      exact hsound
    · exact h.invalidated n hn
  have hreads : ∀ n, Invalidated n (.called i p c.db :: tr) → ∀ j p', c.threads j = some p' →
      Reads n p' := by
    intro n hn
    rcases invalidated_cons hn with ⟨j, w, heq⟩ | hn
    · cases heq
      exact hin
    · exact h.reads n hn
  refine ⟨fun n hn => (hle n hn).trans hext.1, fun j p' hj => ?_, fun n hn j p' hj => ?_,
    fun key entry hentry => ?_, fun j q earlier hb p' hj q' hq => ?_,
    fun j q earlier hb s' hj n hn => ?_⟩
  · rcases Config.of_put hj with ⟨-, heq⟩ | ⟨-, hj⟩
    · cases heq
      exact hgoes.sound hsound
    · exact (h.sound j p' hj).extend hext
  · rcases Config.of_put hj with ⟨-, heq⟩ | ⟨-, hj⟩
    · cases heq
      exact hgoes.reads n (hle n hn) (hreads n hn i p hi)
    · exact hreads n hn j p' hj
  · rcases hgoes.cached key entry hentry with ⟨q, hstores⟩ | hentry'
    · exact ⟨q.range, key_stores hstores hsound,
        fun n hn => (fresh_stores hstores hsound (hreads n hn i p hi)).extend hext⟩
    · obtain ⟨range, hkey, hfresh⟩ := h.cached key entry hentry'
      refine ⟨range, hkey, fun n hn => ?_⟩
      rcases invalidated_cons hn with ⟨j, w, heq⟩ | hn
      · -- the invalidation has left no summary
        cases heq
        cases hv
        have hgone := (CacheService.delByPrefix_store hentry).1
        rw [startsWith_summaryKey hkey] at hgone
        cases hgone
      · exact (hfresh n hn).extend hext
  · change began j tr = some (.summary q, earlier) at hb
    rcases Config.of_put hj with ⟨rfl, heq⟩ | ⟨-, hj⟩
    · cases heq
      rcases hgoes.call with hnone | hsame
      · rw [hnone] at hq
        cases hq
      · exact h.call j q earlier hb p hi q' (hsame ▸ hq)
    · exact h.call j q earlier hb p' hj q' hq
  · change began j tr = some (.summary q, earlier) at hb
    rcases Config.of_put hj with ⟨rfl, heq⟩ | ⟨-, hj⟩
    · have hinvalidated := invalidated_began hb hn
      rcases hgoes.replied s' (Option.some.inj heq) with
        ⟨q', key, hstores⟩ | ⟨q', key, entry, rfl, hentry, rfl⟩
      · obtain ⟨seen, figures, debtFrom, rfl, -⟩ := stores_some hstores
        obtain rfl := h.call j q earlier hb _ hi q' rfl
        exact (fresh_stores hstores hsound (h.reads n hinvalidated j _ hi)).extend hext
      · obtain rfl := h.call j q earlier hb _ hi q' rfl
        obtain ⟨range, hkey, hfresh⟩ := h.cached key entry hentry
        rw [summaryKey_inj hsound hkey]
        exact (hfresh n hinvalidated).extend hext
    · exact (h.replied j q earlier hb s' hj n hn).extend hext

theorem inv_step {tr : List SummaryEvent} {c c' : SummaryConfig} {e : SummaryEvent} (h : Inv tr c)
    (hs : system.Step c e c') (hin : InTime c e) : Inv (e :: tr) c' := by
  have hkept : ∀ {e : SummaryEvent}, (∀ i n w, e ≠ .called i (.emitting n) w) →
      ∀ n, Invalidated n (e :: tr) → Invalidated n tr := fun hne n hn =>
    (invalidated_cons hn).resolve_left fun ⟨i, w, heq⟩ => hne i n w heq
  cases hs with
  | arrive q hi => exact h.arrive q
  | call hi hv => exact h.called hi hv hin
  | @leave i p r hi hv =>
    refine h.quiet (hkept nofun) (fun _ => rfl) (.refl _) rfl fun j p' hj => ?_
    rcases Config.of_put hj with ⟨-, heq⟩ | ⟨-, hj⟩
    · cases heq
    · exact hj
  | pass n =>
    exact h.quiet (hkept nofun) (fun _ => rfl) ⟨le_rfl, fun _ _ => rfl⟩ rfl fun _ _ hj => hj

/-- **Fresh summaries**: in a run that announces its changes in time, a summary that begins after the
invalidation for a change returns a revenue and a debt that contain it. -/
theorem summary_fresh {w : Process} {tr earlier : List SummaryEvent} {c : SummaryConfig} {n : ℕ}
    {q : SummaryCall} {s : AnalyticsSummary} (hw : w.cache = .empty)
    (hrun : system.Run InTime (.idle w) tr c) (hreturned : returned tr = some (q, s, earlier))
    (hn : Invalidated n earlier) : Fresh n q.range s c.db := by
  obtain ⟨i, p, tr, rfl, hbegan⟩ := returned_some hreturned
  cases hrun with
  | step hrun hs _ =>
    have hinv := hrun.invariant (I := Inv) (.init hw) fun h hs hin => inv_step h hs hin
    cases hs with
    | leave hi hv =>
      rw [view_done hv] at hi
      exact hinv.replied i q earlier hbegan s hi n hn

/-! ### A summary across a change -/

def announces (n : ℕ) : SummaryEvent → Bool
  | .called _ (.emitting m) _ => m == n
  | _ => false

theorem any_announces {n : ℕ} {tr : List SummaryEvent} :
    tr.any (announces n) = true ↔ Invalidated n tr := by
  rw [List.any_eq_true]
  constructor
  · rintro ⟨e, hmem, he⟩
    unfold announces at he
    split at he
    · cases eq_of_beq he
      exact ⟨_, _, hmem⟩
    · cases he
  · rintro ⟨i, w, hmem⟩
    exact ⟨_, hmem, beq_self_eq_true n⟩

instance (n : ℕ) (tr : List SummaryEvent) : Decidable (Invalidated n tr) :=
  decidable_of_iff _ any_announces

instance (n : ℕ) (range : AnalyticsRange) (s : AnalyticsSummary) (w : Process) :
    Decidable (Fresh n range s w) :=
  inferInstanceAs (Decidable ((∃ m, m ≤ w.version ∧ _) ∧ ∃ m, m ≤ w.version ∧ _))

/-- A session of an hour, under way. -/
def playing : Session :=
  ⟨3, none, 1, 2, some 4, .openSession, .active, 15000, .epoch, none, none, 0, 0, some 9, none,
    none⟩

def playingDb : Db :=
  { Db.empty with
    rooms := .single ⟨2, "VIP Zone", none, 15000, true, none⟩
    computers := .single ⟨1, "PC-01", 2, .inUse, none, true, none⟩
    customers := .single ⟨4, "Alisher", none, none, false, none⟩
    sessions := .single playing }

/-- The session ends, 10000 of 15000 paid. -/
def endPlaying (db : Db) : Db :=
  Debt.append { db with
    sessions := db.sessions.set { playing with
      status := .ended
      endedAt := some ⟨3600000, by decide⟩
      amountDue := 15000
      amountPaid := 10000
      endedBy := some 9 } }
    ⟨60, 4, .debtAdd, 5000, some 3, some 9, none⟩

def playingProcess : Process := ⟨fun _ => playingDb, 0, .empty, 3600000⟩

/-- The summary of the first day. -/
def firstDay : SummaryCall :=
  ⟨⟨some .epoch, some ⟨86400000, by decide⟩⟩,
    [.activeSessions, .totalComputers, .totalOutstanding], .refl _⟩

/-- **A stale summary**: one that has read its figures before a change stores them after the
invalidation, and the next one is served them. -/
theorem stale_after_invalidation : ¬ ∀ (w : Process) (tr earlier : List SummaryEvent)
    (c : SummaryConfig) (n : ℕ) (q : SummaryCall) (s : AnalyticsSummary), w.cache = .empty →
    system.Run (fun _ _ => True) (.idle w) tr c → returned tr = some (q, s, earlier) →
    Invalidated n earlier → Fresh n q.range s c.db := by
  intro hclaim
  obtain ⟨tr, c, hrun, hcheck, -⟩ := System.exists_run (S := system) (A := fun _ _ => True)
    (fun _ _ => true) 3 (fun _ _ _ _ => trivial) playingProcess
    (.arrive 0 (.summary firstDay) :: List.replicate 4 (.run 0) ++
      .arrive 1 (.change endPlaying) :: List.replicate 3 (.run 1) ++
        List.replicate 5 (.run 0) ++ .arrive 2 (.summary firstDay) :: List.replicate 2 (.run 2))
    (fun x => (returned x.1).any fun (q, s, earlier) =>
      decide (Invalidated 1 earlier ∧ ¬ Fresh 1 q.range s x.2.db))
    (by decide) (by decide +kernel)
  obtain ⟨⟨q, s, earlier⟩, hreturned, hstale⟩ := (Option.any_eq_true _ _).mp hcheck
  obtain ⟨hn, hnot⟩ := of_decide_eq_true hstale
  exact hnot (hclaim playingProcess tr earlier c 1 q s rfl hrun hreturned hn)

/-- With three requests, the condition can be checked. -/
def announcedInTime (c : SummaryConfig) : SummaryEvent → Bool
  | .called _ (.emitting n) _ =>
    (List.range 3).all fun i => (c.threads i).all fun p => decide (Reads n p)
  | _ => true

theorem inTime_of_announced {c : SummaryConfig} {e : SummaryEvent}
    (hthreads : ∀ i, 3 ≤ i → c.threads i = none) (h : announcedInTime c e = true) :
    InTime c e := by
  unfold InTime
  split
  · intro i p hi
    have hlt : i < 3 := by
      by_contra hge
      rw [hthreads i (by omega)] at hi
      cases hi
    have hall := List.all_eq_true.mp h i (List.mem_range.mpr hlt)
    rw [hi] at hall
    exact of_decide_eq_true hall
  · trivial

/-- A summary that has found nothing in the cache when the change is announced reads the new figures;
the next one is served them. -/
theorem summary_fresh_served : ∃ tr c q s earlier, system.Run InTime (.idle playingProcess) tr c ∧
    returned tr = some (q, s, earlier) ∧ Invalidated 1 earlier ∧ s.revenue = 10000 ∧
    s.outstandingDebt = 5000 ∧ Fresh 1 q.range s c.db := by
  obtain ⟨tr, c, hrun, hcheck, -⟩ := System.exists_run (S := system) announcedInTime 3
    (fun _ _ => inTime_of_announced) playingProcess
    (.arrive 0 (.summary firstDay) :: .run 0 ::
      .arrive 1 (.change endPlaying) :: List.replicate 3 (.run 1) ++
        List.replicate 8 (.run 0) ++ .arrive 2 (.summary firstDay) :: List.replicate 2 (.run 2))
    (fun x => (returned x.1).any fun (q, s, earlier) =>
      decide (Invalidated 1 earlier ∧ s.revenue = 10000 ∧ s.outstandingDebt = 5000))
    (by decide) (by decide +kernel)
  obtain ⟨⟨q, s, earlier⟩, hreturned, hread⟩ := (Option.any_eq_true _ _).mp hcheck
  obtain ⟨hn, hrevenue, hdebt⟩ := of_decide_eq_true hread
  exact ⟨tr, c, q, s, earlier, hrun, hreturned, hn, hrevenue, hdebt,
    summary_fresh rfl hrun hreturned hn⟩

end GameClub.Analytics
