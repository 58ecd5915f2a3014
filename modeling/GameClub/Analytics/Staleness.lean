import GameClub.Analytics.Freshness

/-! # The age of a summary

However summaries and changes interleave, and whether or not a change is announced in time, the
cache serves what was stored last under the key, for thirty seconds and until the next announcement.

* `cache_remembers`: what a lookup is answered.
* `Known`: how the requests in flight came where they are; `Known.step`.
* `summary_age`: a summary that is returned has the changes from before the lookup of the request
  that computed it. -/

namespace GameClub.Analytics

open GameClub.Lib GameClub.Lib.Binary64 GameClub.Lib.Interleave GameClub.Lib.Ttl GameClub.Common
open GameClub.Store

/-! ### What is remembered -/

/-- What a request writes to the cache. -/
def Phase.writes (now : ℤ) : Phase → Option (Write String AnalyticsSummary)
  | .counting q key seen figures _ [] =>
    some (.put key (seen.summary q.range figures) (now + CACHE_TTL_SECONDS * 1000))
  | .emitting _ => some (.drop fun key => startsWith key CACHE_PREFIX)
  | _ => none

def written : SummaryEvent → Option (Write String AnalyticsSummary)
  | .called _ p w => p.writes w.now
  | _ => none

/-- The event stores a summary under the key, or announces a change. -/
def Touches (key : String) : SummaryEvent → Prop
  | .called _ p _ => (∃ n, p = .emitting n) ∨ ∃ q s, p.stores = some (q, key, s)
  | _ => False

/-- **A summary is cached** under a key: the request `j` has stored it less than thirty seconds ago,
and nothing has touched the key since. `before` is what was before it was stored. -/
def Cached (key : String) (s : AnalyticsSummary) (now : ℤ) (tr : List SummaryEvent) (j : ℕ)
    (q : SummaryCall) (before : List SummaryEvent) : Prop :=
  ∃ later p w, tr = later ++ .called j p w :: before ∧ p.stores = some (q, key, s) ∧
    now < w.now + CACHE_TTL_SECONDS * 1000 ∧ ∀ e ∈ later, ¬ Touches key e

theorem writes_put {now expiresAt : ℤ} {p : Phase} {key : String} {s : AnalyticsSummary} :
    p.writes now = some (.put key s expiresAt) ↔
      (∃ q, p.stores = some (q, key, s)) ∧ expiresAt = now + CACHE_TTL_SECONDS * 1000 := by
  constructor
  · intro h
    unfold Phase.writes at h
    split at h
    · cases h
      exact ⟨⟨_, rfl⟩, rfl⟩
    · cases h
    · cases h
  · rintro ⟨⟨q, hstores⟩, rfl⟩
    obtain ⟨seen, figures, debtFrom, rfl, rfl⟩ := stores_some hstores
    rfl

/-- For the keys of summaries, what touches them is what writes to them. -/
theorem touches_iff {range : AnalyticsRange} {key : String} (hkey : summaryKey range = .ok key)
    {e : SummaryEvent} : Touches key e ↔ ∃ x, written e = some x ∧ x.touches key = true := by
  cases e with
  | called i p w =>
    constructor
    · rintro (⟨n, rfl⟩ | ⟨q, s, hstores⟩)
      · exact ⟨_, rfl, startsWith_summaryKey hkey⟩
      · exact ⟨_, writes_put.mpr ⟨⟨q, hstores⟩, rfl⟩, decide_eq_true rfl⟩
    · rintro ⟨x, hx, htouches⟩
      cases x with
      | put k s expiresAt =>
        obtain ⟨⟨q, hstores⟩, -⟩ := writes_put.mp hx
        obtain rfl : k = key := of_decide_eq_true htouches
        exact Or.inr ⟨q, s, hstores⟩
      | drop keys =>
        rw [written] at hx
        unfold Phase.writes at hx
        split at hx
        · cases hx
        · exact Or.inl ⟨_, rfl⟩
        · cases hx
  | arrived i q => exact ⟨False.elim, fun ⟨_, hx, _⟩ => nomatch hx⟩
  | left i p r => exact ⟨False.elim, fun ⟨_, hx, _⟩ => nomatch hx⟩
  | passed n => exact ⟨False.elim, fun ⟨_, hx, _⟩ => nomatch hx⟩

/-- A summary is remembered when it is cached. -/
theorem remembered_iff {range : AnalyticsRange} {key : String} (hkey : summaryKey range = .ok key)
    {tr : List SummaryEvent} {now : ℤ} {s : AnalyticsSummary} :
    remembered key now (tr.filterMap written) = some s ↔
      ∃ j q before, Cached key s now tr j q before := by
  have huntouched : ∀ later : List SummaryEvent, (∀ e ∈ later, ¬ Touches key e) ↔
      ∀ e ∈ later, ∀ x, written e = some x → x.touches key = false := by
    intro later
    refine forall₂_congr fun e _ => ?_
    rw [touches_iff hkey]
    simp
  rw [remembered_eq_some]
  constructor
  · rintro ⟨later, e, before, expiresAt, rfl, he, hnow, hlater⟩
    cases e with
    | called j p w =>
      obtain ⟨⟨q, hstores⟩, rfl⟩ := writes_put.mp he
      exact ⟨j, q, before, later, p, w, rfl, hstores, hnow, (huntouched later).mpr hlater⟩
    | _ => cases he
  · rintro ⟨j, q, before, later, p, w, rfl, hstores, hnow, hlater⟩
    exact ⟨later, _, before, _, rfl, writes_put.mpr ⟨⟨q, hstores⟩, rfl⟩, hnow,
      (huntouched later).mp hlater⟩

section Runs

variable {tr : List SummaryEvent} {c c' : SummaryConfig} {e : SummaryEvent} {i : ℕ} {p : Phase}

/-- A call does to the cache what its phase writes. -/
theorem agrees_call (h : c.db.cache.Agrees (tr.filterMap written) c.db.now) {s : Call}
    {k : Res s → Phase} (hv : view p = .call s k) :
    (exec s c.db).2.cache.Agrees ((Event.called i p c.db :: tr).filterMap written)
      (exec s c.db).2.now := by
  cases p with
  | finished r => cases hv
  | lookingUp q key =>
    cases hv
    exact h.get le_rfl
  | counting q key seen figures debtFrom left =>
    rcases left with _ | ⟨_ | _ | _, left⟩
    · cases hv
      exact h.set
    · cases hv
      exact h
    · cases hv
      exact h
    · cases hv
      exact h
  | emitting n =>
    cases hv
    exact h.delByPrefix CACHE_PREFIX
  | _ =>
    cases hv
    exact h

/-- **The cache serves what is remembered.** -/
theorem cache_agrees {w : Process} (hw : w.cache = .empty)
    (hrun : system.Run (fun _ _ => True) (.idle w) tr c) :
    c.db.cache.Agrees (tr.filterMap written) c.db.now := by
  refine hrun.invariant (I := fun tr c => c.db.cache.Agrees (tr.filterMap written) c.db.now) ?_ ?_
  · change w.cache.Agrees [] w.now
    rw [hw]
    exact CacheService.agrees_empty _
  · intro tr c e c' h hs _
    cases hs with
    | arrive q hi => exact h
    | call hi hv => exact agrees_call h hv
    | leave hi hv => exact h
    | pass n => exact h.later (by change c.db.now ≤ c.db.now + (n : ℤ); omega)

/-! ### Where the requests in flight come from -/

theorem Process.Extends.trans {w w' w'' : Process} (h : w''.Extends w') (h' : w'.Extends w) :
    w''.Extends w :=
  ⟨h'.1.trans h.1, fun m hm => (h.2 m (hm.trans h'.1)).trans (h'.2 m hm)⟩

/-- No step takes a state away. -/
theorem step_extends (hs : system.Step c e c') : c'.db.Extends c.db := by
  cases hs with
  | call hi hv => exact exec_extends _ _
  | pass n => exact ⟨le_rfl, fun _ _ => rfl⟩
  | _ => exact .refl _

theorem run_extends {A : SummaryConfig → SummaryEvent → Prop} {c₀ : SummaryConfig}
    (hrun : system.Run A c₀ tr c) : c.db.Extends c₀.db :=
  hrun.invariant (I := fun _ c => c.db.Extends c₀.db) (.refl _) fun h hs _ =>
    (step_extends hs).trans h

/-- The summary that a request is computing, with its key. -/
def Phase.computes : Phase → Option (SummaryCall × String)
  | .totalling q key | .rankingComputers q key _ | .rankingRooms q key _ _
  | .counting q key _ _ _ _ => some (q, key)
  | .finished _ | .lookingUp _ _ | .committing _ | .emitting _ => none

/-- A request that is computing goes on so or is over, and begins so after a lookup. -/
theorem computes_next {s : Call} {k : Res s → Phase} (hv : view p = .call s k) (r : Res s) :
    (k r).computes = none ∨ (k r).computes = p.computes ∨
      ∃ q key, p = .lookingUp q key ∧ k r = .totalling q key := by
  cases p with
  | finished r => cases hv
  | lookingUp q key =>
    cases hv
    rcases r with _ | cached
    · exact Or.inr (Or.inr ⟨q, key, rfl, rfl⟩)
    · exact Or.inl rfl
  | counting q key seen figures debtFrom left =>
    rcases left with _ | ⟨_ | _ | _, left⟩
    · cases hv
      exact Or.inl rfl
    · cases hv
      exact Or.inr (Or.inl rfl)
    · cases hv
      exact Or.inr (Or.inl rfl)
    · cases hv
      have hindebted : (indebted q key seen figures left r).computes = none ∨
          (indebted q key seen figures left r).computes = some (q, key) := by
        unfold indebted
        cases Money.fromString r.value with
        | error e => exact Or.inl rfl
        | ok debt => exact Or.inr rfl
      exact hindebted.imp_right Or.inl
  | committing f =>
    cases hv
    exact Or.inl rfl
  | emitting n =>
    cases hv
    exact Or.inl rfl
  | _ =>
    cases hv
    exact Or.inr (Or.inl rfl)

/-- The request `i` has looked the cache up, on `w`, and not arrived anew since. `before` is what
was before the lookup. -/
def Looked (i : ℕ) (q : SummaryCall) (key : String) (w : Process) (before tr : List SummaryEvent) :
    Prop :=
  ∃ later, tr = later ++ .called i (.lookingUp q key) w :: before ∧ ∀ q', .arrived i q' ∉ later

theorem Looked.cons {q : SummaryCall} {key : String} {w : Process} {before : List SummaryEvent}
    (h : Looked i q key w before tr) (he : ∀ q', e ≠ .arrived i q') :
    Looked i q key w before (e :: tr) := by
  obtain ⟨later, rfl, hlater⟩ := h
  refine ⟨e :: later, rfl, fun q' hq' => ?_⟩
  rcases List.mem_cons.mp hq' with heq | hmem
  · exact he q' heq.symm
  · exact hlater q' hmem

/-- How the request began stays so while it does not arrive anew. -/
theorem Looked.began {q : SummaryCall} {key : String} {w : Process} {before : List SummaryEvent}
    (h : Looked i q key w before tr) : began i tr = began i before := by
  obtain ⟨later, rfl, hlater⟩ := h
  induction later with
  | nil => rfl
  | cons e later ih =>
    have hrest := ih fun q' hq' => hlater q' (List.mem_cons_of_mem _ hq')
    cases e with
    | arrived j q' =>
      have hne : j ≠ i := by
        rintro rfl
        exact hlater q' (List.mem_cons_self ..)
      exact (if_neg hne).trans hrest
    | _ => exact hrest

/-- **What is known of a run**, in time or not. -/
structure Known (tr : List SummaryEvent) (c : SummaryConfig) : Prop where
  sound : ∀ i p, c.threads i = some p → Sound c.db p
  asked : ∀ i p q, c.threads i = some p → p.call = some q →
    ∃ earlier, began i tr = some (.summary q, earlier)
  /-- what is being computed has no figures from before the lookup -/
  looked : ∀ i p q key, c.threads i = some p → p.computes = some (q, key) →
    ∃ w before, Looked i q key w before tr ∧ w.version ≤ c.db.version ∧ Reads w.version p
  /-- a summary that is returned was computed so, or is what the lookup was answered -/
  replied : ∀ i s, c.threads i = some (.finished (.ok (.summary s))) →
    ∃ q key w before, Looked i q key w before tr ∧ summaryKey q.range = .ok key ∧
      (Fresh w.version q.range s c.db ∨ (exec (.get key) w).1 = some s)

theorem known_init (w : Process) : Known [] (.idle w) :=
  ⟨fun _ _ h => (nomatch h), fun _ _ _ h => (nomatch h), fun _ _ _ _ h => (nomatch h),
    fun _ _ h => (nomatch h)⟩

theorem start_computes (q : Request) : (start q).computes = none := by
  cases q with
  | summary q =>
    rw [start]
    split <;> rfl
  | change f => rfl

theorem Known.arrive (h : Known tr c) (q : Request) (hi : c.threads i = none) :
    Known (.arrived i q :: tr) (c.put c.db i (some (start q))) := by
  have hcons : ∀ {j q' key w before}, j ≠ i → Looked j q' key w before tr →
      Looked j q' key w before (.arrived i q :: tr) := fun hne hlooked =>
    hlooked.cons fun _ heq => hne (Event.arrived.inj heq).1.symm
  refine ⟨fun j p hj => ?_, fun j p q' hj hq => ?_, fun j p q' key hj hq => ?_, fun j s hj => ?_⟩
  · rcases Config.of_put hj with ⟨-, heq⟩ | ⟨-, hj⟩
    · cases heq
      exact sound_start c.db q
    · exact h.sound j p hj
  · rw [began]
    rcases Config.of_put hj with ⟨rfl, heq⟩ | ⟨hne, hj⟩
    · cases heq
      exact ⟨tr, by rw [if_pos rfl, start_call hq]⟩
    · rw [if_neg (Ne.symm hne)]
      exact h.asked j p q' hj hq
  · rcases Config.of_put hj with ⟨-, heq⟩ | ⟨hne, hj⟩
    · cases heq
      rw [start_computes] at hq
      cases hq
    · obtain ⟨w, before, hlooked, hrest⟩ := h.looked j p q' key hj hq
      exact ⟨w, before, hcons hne hlooked, hrest⟩
  · rcases Config.of_put hj with ⟨-, heq⟩ | ⟨hne, hj⟩
    · exact absurd (Option.some.inj heq) start_ne_finished
    · obtain ⟨q', key, w, before, hlooked, hrest⟩ := h.replied j s hj
      exact ⟨q', key, w, before, hcons hne hlooked, hrest⟩

/-- A step that neither calls nor begins anything. -/
theorem Known.quiet (h : Known tr c) (hbegan : ∀ i, began i (e :: tr) = began i tr)
    (he : ∀ i q, e ≠ .arrived i q) (hdb : c'.db.Extends c.db)
    (hthreads : ∀ i p, c'.threads i = some p → c.threads i = some p) : Known (e :: tr) c' := by
  refine ⟨fun i p hp => (h.sound i p (hthreads i p hp)).extend hdb, fun i p q hp hq => ?_,
    fun i p q key hp hq => ?_, fun i s hs => ?_⟩
  · rw [hbegan]
    exact h.asked i p q (hthreads i p hp) hq
  · obtain ⟨w, before, hlooked, hle, hreads⟩ := h.looked i p q key (hthreads i p hp) hq
    exact ⟨w, before, hlooked.cons (he i), hle.trans hdb.1, hreads⟩
  · obtain ⟨q, key, w, before, hlooked, hkey, hfrom⟩ := h.replied i s (hthreads i _ hs)
    exact ⟨q, key, w, before, hlooked.cons (he i), hkey, hfrom.imp_left fun hfresh =>
      hfresh.extend hdb⟩

/-- **A call**: a lookup, or a request goes on with what it has. -/
theorem Known.called (h : Known tr c) {s : Call} {k : Res s → Phase} (hi : c.threads i = some p)
    (hv : view p = .call s k) : Known (.called i p c.db :: tr)
      (c.put (exec s c.db).2 i (some (k (exec s c.db).1))) := by
  have hgoes := goes (w := c.db) hv
  have hext := exec_extends s c.db
  have hsound := h.sound i p hi
  have hcons : ∀ {j q key w before}, Looked j q key w before tr →
      Looked j q key w before (.called i p c.db :: tr) :=
    fun hlooked => hlooked.cons fun _ heq => (nomatch heq)
  refine ⟨fun j p' hj => ?_, fun j p' q hj hq => ?_, fun j p' q key hj hq => ?_, fun j s' hj => ?_⟩
  · rcases Config.of_put hj with ⟨-, heq⟩ | ⟨-, hj⟩
    · cases heq
      exact hgoes.sound hsound
    · exact (h.sound j p' hj).extend hext
  · change ∃ earlier, began j tr = some (.summary q, earlier)
    rcases Config.of_put hj with ⟨rfl, heq⟩ | ⟨-, hj⟩
    · cases heq
      rcases hgoes.call with hnone | hsame
      · rw [hnone] at hq
        cases hq
      · exact h.asked j p q hi (hsame ▸ hq)
    · exact h.asked j p' q hj hq
  · rcases Config.of_put hj with ⟨rfl, heq⟩ | ⟨-, hj⟩
    · cases heq
      rcases computes_next hv (exec s c.db).1 with hnone | hsame | ⟨q', key', rfl, hnext⟩
      · rw [hnone] at hq
        cases hq
      · obtain ⟨w, before, hlooked, hle, hreads⟩ := h.looked j p q key hi (hsame ▸ hq)
        exact ⟨w, before, hcons hlooked, hle.trans hext.1, hgoes.reads _ hle hreads⟩
      · rw [hnext] at hq ⊢
        cases hq
        exact ⟨c.db, tr, ⟨[], rfl, fun _ => List.not_mem_nil⟩, hext.1, trivial⟩
    · obtain ⟨w, before, hlooked, hle, hreads⟩ := h.looked j p' q key hj hq
      exact ⟨w, before, hcons hlooked, hle.trans hext.1, hreads⟩
  · rcases Config.of_put hj with ⟨rfl, heq⟩ | ⟨-, hj⟩
    · rcases hgoes.replied s' (Option.some.inj heq) with
        ⟨q, key, hstores⟩ | ⟨q, key, entry, rfl, -, -⟩
      · have hfresh : ∀ n, Reads n p → Fresh n q.range s' c.db :=
          fun n => fresh_stores hstores hsound
        have hkey := key_stores hstores hsound
        obtain ⟨seen, figures, debtFrom, rfl, -⟩ := stores_some hstores
        obtain ⟨w, before, hlooked, -, hreads⟩ := h.looked j _ q key hi rfl
        exact ⟨q, key, w, before, hcons hlooked, hkey, Or.inl ((hfresh _ hreads).extend hext)⟩
      · cases hv
        refine ⟨q, key, c.db, tr, ⟨[], rfl, fun _ => List.not_mem_nil⟩, hsound, Or.inr ?_⟩
        generalize (exec (.get key) c.db).1 = served at heq ⊢
        cases served with
        | none => cases heq
        | some cached =>
          cases heq
          rfl
    · obtain ⟨q, key, w, before, hlooked, hkey, hfrom⟩ := h.replied j s' hj
      exact ⟨q, key, w, before, hcons hlooked, hkey, hfrom.imp_left fun hfresh =>
        hfresh.extend hext⟩

theorem Known.step (h : Known tr c) (hs : system.Step c e c') : Known (e :: tr) c' := by
  cases hs with
  | arrive q hi => exact h.arrive q hi
  | call hi hv => exact h.called hi hv
  | leave hi hv =>
    refine h.quiet (fun _ => rfl) (fun _ _ heq => (nomatch heq)) (.refl _) fun j p' hj => ?_
    rcases Config.of_put hj with ⟨-, heq⟩ | ⟨-, hj⟩
    · cases heq
    · exact hj
  | pass n =>
    exact h.quiet (fun _ => rfl) (fun _ _ heq => (nomatch heq)) ⟨le_rfl, fun _ _ => rfl⟩
      fun _ _ hj => hj

theorem known {w : Process} {A : SummaryConfig → SummaryEvent → Prop}
    (hrun : system.Run A (.idle w) tr c) : Known tr c :=
  hrun.invariant (I := Known) (known_init w) fun h hs _ => h.step hs

/-! ### What is served -/

/-- What a lookup is answered is what is cached. -/
theorem lookup_eq_some {w : Process} (hw : w.cache = .empty)
    (hrun : system.Run (fun _ _ => True) (.idle w) tr c) {range : AnalyticsRange} {key : String}
    (hkey : summaryKey range = .ok key) {s : AnalyticsSummary} :
    (exec (.get key) c.db).1 = some s ↔ ∃ j q before, Cached key s c.db.now tr j q before := by
  rw [← remembered_iff hkey, ← cache_agrees hw hrun key c.db.now le_rfl]
  rfl

/-- A summary is cached by a request that has computed it. -/
theorem Cached.split {w : Process} {A : SummaryConfig → SummaryEvent → Prop} {key : String}
    {s : AnalyticsSummary} {now : ℤ} {j : ℕ} {q : SummaryCall} {before : List SummaryEvent}
    (h : Cached key s now tr j q before) (hrun : system.Run A (.idle w) tr c) :
    ∃ c₁ p, system.Run A (.idle w) before c₁ ∧ c.db.Extends c₁.db ∧ c₁.threads j = some p ∧
      p.stores = some (q, key, s) := by
  obtain ⟨later, p, w₂, rfl, hstores, -, -⟩ := h
  obtain ⟨c₁, c₂, hrun₁, hstep, -, hrun₂⟩ := hrun.split
  have hext := (run_extends hrun₂).trans (step_extends hstep)
  cases hstep with
  | call hj hv => exact ⟨c₁, p, hrun₁, hext, hj, hstores⟩

/-- **What is cached** is of the range of its key, and has the changes from before the lookup of the
request that computed it. -/
theorem Cached.fresh {w : Process} {A : SummaryConfig → SummaryEvent → Prop} {key : String}
    {s : AnalyticsSummary} {now : ℤ} {j : ℕ} {q : SummaryCall} {before : List SummaryEvent}
    (h : Cached key s now tr j q before) (hrun : system.Run A (.idle w) tr c) :
    summaryKey q.range = .ok key ∧ ∃ w₀ before₀, Looked j q key w₀ before₀ before ∧
      Fresh w₀.version q.range s c.db := by
  obtain ⟨c₁, p, hrun₁, hext, hj, hstores⟩ := h.split hrun
  have hknown := known hrun₁
  have hsound := hknown.sound j p hj
  have hcomputes : p.computes = some (q, key) := by
    obtain ⟨seen, figures, debtFrom, rfl, -⟩ := stores_some hstores
    rfl
  obtain ⟨w₀, before₀, hlooked, -, hreads⟩ := hknown.looked j p q key hj hcomputes
  exact ⟨key_stores hstores hsound, w₀, before₀, hlooked,
    (fresh_stores hstores hsound hreads).extend hext⟩

/-- **The cache remembers**: in every run from an empty cache, a lookup is answered the summary of
its range that was stored last, if that was less than thirty seconds ago and no change has been
announced since. -/
theorem cache_remembers {w : Process} (hw : w.cache = .empty)
    (hrun : system.Run (fun _ _ => True) (.idle w) tr c) {range : AnalyticsRange} {key : String}
    (hkey : summaryKey range = .ok key) (s : AnalyticsSummary) :
    (exec (.get key) c.db).1 = some s ↔
      ∃ j q before, q.range = range ∧ Cached key s c.db.now tr j q before := by
  rw [lookup_eq_some hw hrun hkey]
  constructor
  · rintro ⟨j, q, before, hcached⟩
    exact ⟨j, q, before, summaryKey_inj (hcached.fresh hrun).1 hkey, hcached⟩
  · rintro ⟨j, q, before, -, hcached⟩
    exact ⟨j, q, before, hcached⟩

end Runs

/-- A summary is stored; a change is committed a millisecond before it expires, and not announced
yet. -/
def lateChange : List (System.Action Request) :=
  .arrive 0 (.summary firstDay) :: List.replicate 9 (.run 0) ++
    [.pass 29999, .arrive 1 (.change endPlaying), .run 1]

theorem cache_remembers_late : ∃ tr c key s,
    system.Run (fun _ _ => True) (.idle playingProcess) tr c ∧ summaryKey firstDay.range = .ok key ∧
      c.db.version = 1 ∧ (exec (.get key) c.db).1 = some s ∧
      ∃ j q before, q.range = firstDay.range ∧ Cached key s c.db.now tr j q before := by
  obtain ⟨tr, c, hrun, hcheck, -⟩ := System.exists_run (S := system) (A := fun _ _ => True)
    (fun _ _ => true) 2 (fun _ _ _ _ => trivial) playingProcess lateChange
    (fun x => (summaryKey firstDay.range).toOption.any fun key =>
      decide (x.2.db.version = 1) && (x.2.db.cache.get key x.2.db.now).1.isSome)
    (by decide) (by decide +kernel)
  obtain ⟨key, hkey, hcheck⟩ := (Option.any_eq_true _ _).mp hcheck
  obtain ⟨hversion, hserved⟩ := Bool.and_eq_true_iff.mp hcheck
  obtain ⟨s, hs⟩ := Option.isSome_iff_exists.mp hserved
  have hkey' := ok_of_toOption hkey
  exact ⟨tr, c, key, s, hrun, hkey', of_decide_eq_true hversion, hs,
    (cache_remembers rfl hrun hkey' s).mp hs⟩

section Age

variable {tr : List SummaryEvent} {c : SummaryConfig}

/-- **The age of a summary**: one that is returned has the changes that were committed before the
request looked the cache up; or it was cached then, by a request of the same range, and has the
changes that were committed before that request looked the cache up. -/
theorem summary_age {w : Process} {earlier : List SummaryEvent} {q : SummaryCall}
    {s : AnalyticsSummary} (hw : w.cache = .empty)
    (hrun : system.Run (fun _ _ => True) (.idle w) tr c)
    (hreturned : returned tr = some (q, s, earlier)) :
    ∃ i key w₁ before, Looked i q key w₁ before tr ∧
      began i before = some (.summary q, earlier) ∧
      (Fresh w₁.version q.range s c.db ∨
        ∃ j q' before' w₀ before₀, q'.range = q.range ∧ Cached key s w₁.now before j q' before' ∧
          Looked j q' key w₀ before₀ before' ∧ Fresh w₀.version q.range s c.db) := by
  obtain ⟨i, p, tr, rfl, hbegan⟩ := returned_some hreturned
  cases hrun with
  | step hrun hs _ =>
    cases hs with
    | leave hi hv =>
      rw [view_done hv] at hi
      obtain ⟨q₁, key, w₁, before, hlooked, hkey, hfrom⟩ := (known hrun).replied i s hi
      have hbefore : began i before = some (.summary q, earlier) := hlooked.began ▸ hbegan
      have hlooked' := hlooked.cons (e := .left i p (.ok (.summary s))) fun _ heq => (nomatch heq)
      obtain ⟨later, rfl, -⟩ := hlooked
      obtain ⟨c₁, c₂, hrun₁, hstep, -, hrun₂⟩ := hrun.split
      have hext := (run_extends hrun₂).trans (step_extends hstep)
      cases hstep with
      | call hi₁ hv₁ =>
        -- the lookup is that of the request that began
        obtain ⟨earlier', hasked⟩ := (known hrun₁).asked i _ q₁ hi₁ rfl
        rw [hbefore] at hasked
        cases hasked
        refine ⟨i, key, c₁.db, before, hlooked', hbefore, hfrom.imp_right fun hserved => ?_⟩
        obtain ⟨j, q', before', hcached⟩ := (lookup_eq_some hw hrun₁ hkey).mp hserved
        obtain ⟨hkey', w₀, before₀, hcomputed, hfresh⟩ := hcached.fresh hrun₁
        have hrange := summaryKey_inj hkey' hkey
        rw [hrange] at hfresh
        exact ⟨j, q', before', w₀, before₀, hrange, hcached, hcomputed, hfresh.extend hext⟩

end Age

/-- The summary without the change is served. -/
theorem summary_age_late : ∃ tr c q s earlier,
    system.Run (fun _ _ => True) (.idle playingProcess) tr c ∧
      returned tr = some (q, s, earlier) ∧ c.db.version = 1 ∧ s.revenue = 0 ∧
      ∃ i key w₁ before, Looked i q key w₁ before tr ∧
        began i before = some (.summary q, earlier) ∧
        (Fresh w₁.version q.range s c.db ∨
          ∃ j q' before' w₀ before₀, q'.range = q.range ∧
            Cached key s w₁.now before j q' before' ∧ Looked j q' key w₀ before₀ before' ∧
            Fresh w₀.version q.range s c.db) := by
  obtain ⟨tr, c, hrun, hcheck, -⟩ := System.exists_run (S := system) (A := fun _ _ => True)
    (fun _ _ => true) 3 (fun _ _ _ _ => trivial) playingProcess
    (lateChange ++ .arrive 2 (.summary firstDay) :: List.replicate 2 (.run 2))
    (fun x => (returned x.1).any fun (_, s, _) => decide (x.2.db.version = 1 ∧ s.revenue = 0))
    (by decide) (by decide +kernel)
  obtain ⟨⟨q, s, earlier⟩, hreturned, hstale⟩ := (Option.any_eq_true _ _).mp hcheck
  obtain ⟨hversion, hrevenue⟩ := of_decide_eq_true hstale
  exact ⟨tr, c, q, s, earlier, hrun, hreturned, hversion, hrevenue, summary_age rfl hrun hreturned⟩

end GameClub.Analytics
