import GameClub.Sessions.Exclusive

/-! # The end of a session

`lockActive` lets one request at a time work on a session, and only while it is `ACTIVE`.

* `Transition`: what an extension, an end or a cancellation makes of the row, and `History` the rows
  it goes through.
* `step_row`: a step makes one transition of an active session, or leaves its row as it is.
* `replay_refused`: a request on a session that is not active is on its way to `SESSION_NOT_ACTIVE`.
* `terminal_once`: at most one end or cancellation is committed, the row is frozen from then on, and
  the extensions before it all count. -/

namespace GameClub.Sessions

open GameClub.Lib GameClub.Lib.RowLock GameClub.Common GameClub.Store GameClub.Concurrency

/-! ### Requests on a session -/

/-- The session a request extends, ends or cancels. -/
def subject : Request → Option Uuid
  | .extend id _ => some id.value
  | .endSession id _ _ _ _ => some id.value
  | .cancel id _ _ => some id.value
  | _ => none

/-- The request ends or cancels a session. -/
def closes : Request → Bool
  | .endSession _ _ _ _ _ => true
  | .cancel _ _ _ => true
  | _ => false

/-- What `lockActive` throws for a session that is not active. -/
def notActive (s : Session) : Thrown :=
  .domain (ConflictException "SESSION_NOT_ACTIVE"
    ("Session is " ++ s.status.text ++ " and cannot be modified") [])

/-- **What a request makes of the row** of its session. -/
inductive Transition (s : Session) : Request → Session → Prop
  | extended {id : UuidText} {dto : ExtendSessionDto} {p : PricingPlan}
      {plannedEndAt : Option Instant}
      (hp : Pricing.extend s ⟨dto.addMinutes, dto.newEndAt⟩ = .ok p)
      (hdate : p.plannedEndAt = plannedEndAt.map some) :
      Transition s (.extend id dto) { s with plannedEndAt, amountDue := p.plannedAmount.value }
  | ended {id : UuidText} {dto : EndSessionDto} {ctx : ActorContext} {endedAt : Instant}
      {newId : Uuid} {due paid : Money} (hdue : Pricing.finalize s endedAt = .ok due)
      (hpaid : amountPaid dto due = .ok paid) :
      Transition s (.endSession id dto ctx endedAt newId) (endedSession s dto ctx endedAt due paid)
  | cancelled {id : UuidText} {ctx : ActorContext} {now : Instant} :
      Transition s (.cancel id ctx now)
        { s with
          status := .cancelled
          endedAt := some now
          amountDue := 0
          amountPaid := 0
          endedBy := some ctx.actorId }

/-- **The rows of a session**: each request finds the row of the one before, and finds it active. -/
inductive History (s : Session) : List Request → Session → Prop
  | nil : History s [] s
  | snoc {qs : List Request} {s₁ s₂ : Session} {q : Request} (h : History s qs s₁)
      (ha : s₁.status = .active) (hq : Transition s₁ q s₂) : History s (qs ++ [q]) s₂

/-- The request a label commits on the session `id`. -/
def commitOn (id : Uuid) : Label Stmt Thrown Request Reply → Option Request
  | .commit _ q _ => if subject q = some id then some q else none
  | _ => none

/-- **The requests on a session that are committed**, in order. -/
def commitsOn (id : Uuid) (tr : Trace) : List Request := tr.filterMap (commitOn id)

theorem commitsOn_snoc (id : Uuid) (tr : Trace) (l : Label Stmt Thrown Request Reply) :
    commitsOn id (tr ++ [l]) = commitsOn id tr ++ (commitOn id l).toList := by
  rw [commitsOn, commitsOn, List.filterMap_append]
  cases hl : commitOn id l with
  | none => simp [hl]
  | some q => simp [hl]

theorem Transition.status {s s' : Session} {q : Request} (h : Transition s q s') :
    (closes q = true ∧ s'.status ≠ .active) ∨ (closes q = false ∧ s'.status = s.status) := by
  cases h with
  | extended hp hdate => exact Or.inr ⟨rfl, rfl⟩
  | ended hdue hpaid => exact Or.inl ⟨rfl, by simp [endedSession]⟩
  | cancelled => exact Or.inl ⟨rfl, by simp⟩

theorem Transition.id {s s' : Session} {q : Request} (h : Transition s q s') : s'.id = s.id := by
  cases h <;> rfl

/-! ### One step -/

section Step

variable {id : Uuid} {s : Session} {db db' : Db}

/-- What a request makes of the row of its session, and of every other. -/
theorem row_save {s₀ s' : Session} {k : Uuid} (hs : db.sessions.get? k = some s₀)
    (hid : s'.id = s₀.id) (hses : db'.sessions = db.sessions.set s')
    (hrow : db.sessions.get? id = some s) :
    db'.sessions.get? id = some (if k = id then s' else s) := by
  have hkey : s₀.id = k := Table.key_of_get? hs
  rw [hses, Table.get?_set]
  by_cases hk : k = id
  · rw [if_pos (by rw [hid, hkey, hk]), if_pos hk, hrow]
    rfl
  · rw [if_neg (by rw [hid, hkey]; exact Ne.symm hk), if_neg hk, hrow]

/-- **What a transaction run alone does to the row of a session**: it is about it, finds it active
and makes its transition, or leaves it alone. -/
theorem serves_row {q : Request} {a : Reply} (h : Serves q db a db')
    (hrow : db.sessions.get? id = some s) :
    (subject q = some id ∧ s.status = .active ∧ ∃ s', Transition s q s' ∧
        db'.sessions.get? id = some s' ∧ (a = .session s' ∨ ∃ e, a = .ended s' e)) ∨
      (subject q ≠ some id ∧ db'.sessions.get? id = some s) := by
  have hsaved : ∀ {k : UuidText} {s₀ s'}, subject q = some k.value →
      db.sessions.get? k.value = some s₀ → s₀.status = .active → Transition s₀ q s' →
      db'.sessions = db.sessions.set s' → (a = .session s' ∨ ∃ e, a = .ended s' e) →
      (subject q = some id ∧ s.status = .active ∧ ∃ s', Transition s q s' ∧
        db'.sessions.get? id = some s' ∧ (a = .session s' ∨ ∃ e, a = .ended s' e)) ∨
      (subject q ≠ some id ∧ db'.sessions.get? id = some s) := by
    intro k s₀ s' hsub hs ha htrans hses hreply
    have hget := row_save hs htrans.id hses hrow
    by_cases hk : k.value = id
    · rw [hk, hrow] at hs
      cases hs
      rw [if_pos hk] at hget
      exact Or.inl ⟨by rw [hsub, hk], ha, s', htrans, hget, hreply⟩
    · rw [if_neg hk] at hget
      exact Or.inr ⟨by rw [hsub]; exact fun heq => hk (Option.some.inj heq), hget⟩
  cases q with
  | start dto ctx startedAt randomUUID newIds =>
    obtain ⟨created, hrun, -⟩ := h
    obtain ⟨groupId, customer, -, hall⟩ := start_ok hrun
    refine Or.inr ⟨by simp [subject], ?_⟩
    refine startAll_preserves (fun d => d.sessions.get? id = some s)
      (fun _ newId _ d d' hd hone => ?_) hrow hall
    obtain ⟨computer, room, plannedEndAt, amount, -, rfl, hfree, -, -, rfl⟩ := startOne_ok.mp hone
    rw [opened_sessions, Table.get?_insert_ne, hd]
    intro heq
    have hnew : id = newId := heq
    rw [hnew, hfree] at hd
    cases hd
  | extend k dto =>
    obtain ⟨s', hrun, hreply⟩ := h
    obtain ⟨session, p, plannedEndAt, hs, ha, hp, hdate, rfl, rfl⟩ := extend_ok.mp hrun
    exact hsaved rfl hs ha (.extended hp hdate) rfl (Or.inl hreply)
  | endSession k dto ctx endedAt newId =>
    obtain ⟨s', e, hrun, hreply⟩ := h
    obtain ⟨session, due, paid, hs, ha, hdue, hpaid, rfl, hset⟩ := endSession_ok.mp hrun
    exact hsaved rfl hs ha (.ended hdue hpaid) hset.sessions (Or.inr ⟨e, hreply⟩)
  | cancel k ctx now =>
    obtain ⟨s', hrun, hreply⟩ := h
    obtain ⟨session, hs, ha, rfl, rfl⟩ := cancel_ok.mp hrun
    exact hsaved rfl hs ha .cancelled (release_sessions _ _) (Or.inl hreply)
  | recordPayment input newId =>
    obtain ⟨e, hrun, -⟩ := h
    obtain ⟨_, _, -, -, -, -, -, rfl, -, rfl⟩ := Debt.recordPayment_ok.mp hrun
    exact Or.inr ⟨by simp [subject], hrow⟩
  | correct customerId signedAmount actorId reason newId =>
    obtain ⟨e, hrun, -⟩ := h
    obtain ⟨_, -, -, rfl, -, -, rfl⟩ := Debt.correct_ok.mp hrun
    exact Or.inr ⟨by simp [subject], hrow⟩

/-- A request on a session that is not stored does not succeed. -/
theorem serves_stored {q : Request} {a : Reply} (h : Serves q db a db') (hsub : subject q = some id) :
    db.sessions.get? id ≠ none := by
  cases q with
  | extend k dto =>
    obtain ⟨s', hrun, -⟩ := h
    obtain ⟨session, -, -, hs, -⟩ := extend_ok.mp hrun
    cases hsub
    simp [hs]
  | endSession k dto ctx endedAt newId =>
    obtain ⟨s', e, hrun, -⟩ := h
    obtain ⟨session, -, -, hs, -⟩ := endSession_ok.mp hrun
    cases hsub
    simp [hs]
  | cancel k ctx now =>
    obtain ⟨s', hrun, -⟩ := h
    obtain ⟨session, hs, -⟩ := cancel_ok.mp hrun
    cases hsub
    simp [hs]
  | _ => cases hsub

end Step

section Run

variable {id : Uuid} {s : Session} {db : Db} {tr tr' : Trace} {c c' : State}
  {l : Label Stmt Thrown Request Reply}

/-- **A step makes one transition of an active session**, or leaves its row as it is. -/
theorem step_row (hrun : system.Run (Config.idle db) tr c) (hstep : system.Step c l c')
    (hrow : c.db.sessions.get? id = some s) :
    (∃ i q a s', l = .commit i q a ∧ subject q = some id ∧ s.status = .active ∧
        Transition s q s' ∧ c'.db.sessions.get? id = some s' ∧
        (a = .session s' ∨ ∃ e, a = .ended s' e)) ∨
      (commitOn id l = none ∧ c'.db.sessions.get? id = some s) := by
  have hinv := (Discipline.inv_idle (D := discipline) db).run body_guarded hrun
  cases hstep with
  | @commit i t a hi hp =>
    have hserves := body_ok (Discipline.commit_eval hinv (.commit hi hp))
    rcases serves_row hserves hrow with ⟨hsub, ha, s', htrans, hget, hreply⟩ | ⟨hsub, hget⟩
    · exact Or.inl ⟨i, t.req, a, s', rfl, hsub, ha, htrans, hget, hreply⟩
    · exact Or.inr ⟨if_neg hsub, hget⟩
  | begin hn => exact Or.inr ⟨rfl, hrow⟩
  | exec hi hs hfree hx hk => exact Or.inr ⟨rfl, hrow⟩
  | reject hi he => exact Or.inr ⟨rfl, hrow⟩
  | abort hi => exact Or.inr ⟨rfl, hrow⟩

/-- Nothing is committed on a session that is not stored. -/
theorem step_unstored (hrun : system.Run (Config.idle db) tr c) (hstep : system.Step c l c')
    (hrow : c.db.sessions.get? id = none) : commitOn id l = none := by
  have hinv := (Discipline.inv_idle (D := discipline) db).run body_guarded hrun
  cases hstep with
  | commit hi hp =>
    have hserves := body_ok (Discipline.commit_eval hinv (.commit hi hp))
    exact if_neg fun hsub => serves_stored hserves hsub hrow
  | begin hn => rfl
  | exec hi hs hfree hx hk => rfl
  | reject hi he => rfl
  | abort hi => rfl

/-- **The row of a session has gone through the requests committed on it**; by induction on the
run. -/
theorem run_history (hrun : system.Run (Config.idle db) tr c)
    (hrow : c.db.sessions.get? id = some s) (hmore : system.Run c tr' c') :
    ∃ s', c'.db.sessions.get? id = some s' ∧ History s (commitsOn id tr') s' := by
  induction hmore with
  | nil => exact ⟨s, hrow, .nil⟩
  | snoc hr hstep ih =>
    obtain ⟨s₁, hrow₁, hhist⟩ := ih
    rw [commitsOn_snoc]
    rcases step_row (hrun.trans hr) hstep hrow₁ with
      ⟨i, q, a, s', rfl, hsub, ha, htrans, hget, -⟩ | ⟨hnone, hget⟩
    · have hcommit : commitOn id (.commit i q a) = some q := if_pos hsub
      rw [hcommit]
      exact ⟨s', hget, hhist.snoc ha htrans⟩
    · rw [hnone]
      exact ⟨s₁, hget, by simpa using hhist⟩

/-- Nothing is committed on a session that is not active. -/
theorem History.frozen {qs : List Request} {s' : Session} (h : History s qs s')
    (hs : s.status ≠ .active) : qs = [] ∧ s' = s := by
  induction h with
  | nil => exact ⟨rfl, rfl⟩
  | snoc _ ha _ ih =>
    rw [ih.2] at ha
    exact absurd ha hs

/-- A session that is still active has only been extended, and only one with an end can be. -/
theorem History.extended {qs : List Request} {s' : Session} (h : History s qs s')
    (hs : s'.status = .active) (hq : qs ≠ []) : s'.type ≠ .openSession := by
  cases h with
  | nil => exact absurd rfl hq
  | snoc _ _ htrans =>
    cases htrans with
    | extended hp hdate =>
      have hne := extend_ne_open hp
      exact hne
    | ended hdue hpaid => simp [endedSession] at hs
    | cancelled => simp at hs

/-- **At most one end or cancellation is committed on a session**, and none while it is active. -/
theorem closes_once (hrun : system.Run (Config.idle db) tr c) :
    ((commitsOn id tr).filter closes).length ≤ 1 ∧
      (c.db.sessions.get? id = none → commitsOn id tr = []) ∧
      ∀ s, c.db.sessions.get? id = some s → s.status = .active →
        (commitsOn id tr).filter closes = [] := by
  induction hrun with
  | nil => exact ⟨by simp [commitsOn], fun _ => rfl, fun _ _ _ => rfl⟩
  | @snoc tr c l c' hr hstep ih =>
    obtain ⟨hle, hnone, hactive⟩ := ih
    rw [commitsOn_snoc, List.filter_append]
    cases hrow : c.db.sessions.get? id with
    | none =>
      have hl := step_unstored hr hstep hrow
      simp only [hl, hnone hrow, Option.toList_none, List.append_nil, List.filter_nil]
      exact ⟨by simp, fun _ => trivial, fun _ _ _ => trivial⟩
    | some s =>
      rcases step_row hr hstep hrow with ⟨i, q, a, s', rfl, hsub, ha, htrans, hget, -⟩ | ⟨hl, hget⟩
      · have hcommit : commitOn id (.commit i q a) = some q := if_pos hsub
        rw [hcommit, hactive s hrow ha, List.nil_append]
        refine ⟨?_, fun hn => ?_, fun s'' hget' ha' => ?_⟩
        · exact (List.length_filter_le _ _).trans (by simp)
        · rw [hget] at hn
          cases hn
        · rw [hget] at hget'
          cases hget'
          rcases htrans.status with ⟨-, hne⟩ | ⟨hfalse, -⟩
          · exact absurd ha' hne
          · simp [hfalse]
      · simp only [hl, Option.toList_none, List.append_nil, List.filter_nil]
        refine ⟨hle, fun hn => ?_, fun s'' hget' ha' => ?_⟩
        · rw [hget] at hn
          cases hn
        · rw [hget] at hget'
          cases hget'
          exact hactive s hrow ha'

end Run

/-! ### Requests on a closed session -/

/-- The program locks the session `id` first, and goes no further when it is not active. -/
def LocksFirst {β : Type} (id : Uuid) (p : Txn β) : Prop :=
  ∃ k, p = .call (.lockSession id) k ∧
    ∀ s : Session, s.status ≠ .active → k (some s) = .throw (notActive s)

theorem LocksFirst.bind {β γ : Type} {id : Uuid} {p : Txn β} (h : LocksFirst id p)
    (f : β → Txn γ) : LocksFirst id (p >>= f) := by
  obtain ⟨k, rfl, hk⟩ := h
  refine ⟨fun r => k r >>= f, rfl, fun s hs => ?_⟩
  have hthrow := hk s hs
  simp only [hthrow]
  rfl

theorem locksFirst_lockActive (id : UuidText) : LocksFirst id.value (lockActive id) := by
  refine ⟨_, rfl, fun s hs => ?_⟩
  have hthrow : (if s.status = .active then pure s else .throw (notActive s) : Txn Session) =
      .throw (notActive s) := if_neg hs
  exact hthrow

theorem body_locksFirst {q : Request} {id : Uuid} (hsub : subject q = some id) :
    LocksFirst id (body q) := by
  cases q with
  | extend k dto =>
    cases hsub
    exact ((locksFirst_lockActive k).bind _).bind _
  | endSession k dto ctx endedAt newId =>
    cases hsub
    exact ((locksFirst_lockActive k).bind _).bind _
  | cancel k ctx now =>
    cases hsub
    exact ((locksFirst_lockActive k).bind _).bind _
  | _ => cases hsub

section Closed

variable {id : Uuid} {s : Session} {db : Db} {tr tr' : Trace} {c c' : State}
  {l : Label Stmt Thrown Request Reply}

/-- **A request on a session that is not active is on its way to `SESSION_NOT_ACTIVE`**, with
nothing written; by induction on its statements so far. -/
theorem replay_refused {p₀ p : Txn Reply} {L : List (Lock RowId)} {log : List Write}
    (hlock : LocksFirst id p₀) (hrow : db.sessions.get? id = some s) (hs : s.status ≠ .active)
    (h : discipline.Replay p₀ L db p log) :
    log = [] ∧ (p = p₀ ∨ p = .throw (notActive s)) := by
  induction h with
  | start => exact ⟨rfl, Or.inl rfl⟩
  | call h hx hst hw ih =>
    obtain ⟨k, hp₀, hk⟩ := hlock
    obtain ⟨rfl, hp | hp⟩ := ih
    · rw [hp₀] at hp
      cases hp
      obtain ⟨hr, hws⟩ := Prod.mk.inj (Except.ok.inj hx)
      have hfound := hr.symm.trans hrow
      refine ⟨by simp [← hws], Or.inr ?_⟩
      rw [hfound]
      exact hk s hs
    · cases hp

/-- What such a request can throw. -/
theorem fails_refused {t : Tx Res Thrown Write RowId Request Reply} {e : Thrown}
    (hlock : LocksFirst id (body t.req)) (hrow : c.db.sessions.get? id = some s)
    (hs : s.status ≠ .active) (hlog : t.log = [])
    (hrest : t.rest = body t.req ∨ t.rest = .throw (notActive s)) :
    system.Fails (system.view c t) e t.rest ↔ e = notActive s := by
  have hview : system.view c t = c.db := by rw [System.view, hlog]; rfl
  rw [hview]
  rcases hrest with hrest | hrest
  · obtain ⟨k, hbody, hk⟩ := hlock
    rw [hrest, hbody]
    have hthrow := hk s hs
    constructor
    · rintro (hx | ⟨r, ws, hx, he⟩)
      · cases hx
      · obtain ⟨hr, -⟩ := Prod.mk.inj (Except.ok.inj hx)
        have hfound := hr.symm.trans hrow
        rw [hfound, hthrow] at he
        cases he
        rfl
    · rintro rfl
      refine Or.inr ⟨_, [], rfl, ?_⟩
      have hfound : (c.db.sessions.get? id : Res (.lockSession id)) = some s := hrow
      rw [hfound]
      exact hthrow
  · rw [hrest]
    exact eq_comm

/-- **A session that is closed for good**: its row, and what is left for the requests on it. -/
structure Closed (id : Uuid) (s : Session) (c : State) : Prop where
  row : c.db.sessions.get? id = some s
  silent : ∀ i t, c.txs i = some t → subject t.req = some id → t.log = []
  refused : ∀ i t e, c.txs i = some t → subject t.req = some id →
    (system.Fails (system.view c t) e t.rest ↔ e = notActive s)

/-- **Once a session is not active, it stays as it is** and nothing more is committed on it. -/
theorem closed_stays (hrun : system.Run (Config.idle db) tr c)
    (hrow : c.db.sessions.get? id = some s) (hs : s.status ≠ .active)
    (hmore : system.Run c tr' c') : commitsOn id tr' = [] ∧ Closed id s c' := by
  obtain ⟨s', hrow', hhist⟩ := run_history hrun hrow hmore
  obtain ⟨hnil, rfl⟩ := hhist.frozen hs
  have hinv := (Discipline.inv_idle (D := discipline) db).run body_guarded (hrun.trans hmore)
  have hreq : ∀ i t, c'.txs i = some t → subject t.req = some id →
      t.log = [] ∧ (t.rest = body t.req ∨ t.rest = .throw (notActive s')) := fun i t hi hsub =>
    replay_refused (body_locksFirst hsub) hrow' hs (hinv.replay hi)
  refine ⟨hnil, hrow', fun i t hi hsub => (hreq i t hi hsub).1, fun i t e hi hsub => ?_⟩
  obtain ⟨hlog, hrest⟩ := hreq i t hi hsub
  exact fails_refused (body_locksFirst hsub) hrow' hs hlog hrest

/-- A request on a closed session is rejected with `SESSION_NOT_ACTIVE`. -/
theorem Closed.reject (h : Closed id s c) {i : ℕ} {q : Request} {e : Thrown}
    (hsub : subject q = some id) (hstep : system.Step c (.reject i q e) c') :
    e = notActive s ∧ c'.db = c.db := by
  cases hstep with
  | reject hi he => exact ⟨(h.refused _ _ _ hi hsub).mp he, rfl⟩

/-- What an end settles: an extended session has a fixed end, so its charge is the one of the last
extension. -/
theorem settles_extended (hrun : system.Run (Config.idle db) tr c)
    (hrow : c.db.sessions.get? id = some s) {qs : List Request} {s₀ : Session}
    (hhist : History s₀ qs s) {i : ℕ} {k : UuidText} {dto : EndSessionDto} {ctx : ActorContext}
    {endedAt : Instant} {newId : Uuid} {a : Reply} (hk : k.value = id)
    (hstep : system.Step c (.commit i (.endSession k dto ctx endedAt newId) a) c') :
    ∃ due paid, Pricing.finalize s endedAt = .ok due ∧
      c'.db.sessions.get? id = some (endedSession s dto ctx endedAt due paid) ∧
      (qs ≠ [] → due.value = s.amountDue) := by
  rcases step_row hrun hstep hrow with ⟨i', q, a', s', hl, -, ha, htrans, hget, -⟩ | ⟨hnone, -⟩
  · cases hl
    cases htrans with
    | ended hdue hpaid =>
      exact ⟨_, _, hdue, hget, fun hqs => finalize_fixed (hhist.extended ha hqs) hdue⟩
  · have hcommit : commitOn id (.commit i (.endSession k dto ctx endedAt newId) a) = some _ :=
      if_pos (congrArg some hk)
    rw [hcommit] at hnone
    cases hnone

end Closed

/-- **A session is ended or cancelled once.** Under any interleaving at most one end or cancellation
of a session is committed. Its row goes through the requests committed on it, each from the row of
the one before, and an end after an extension settles the charge of the last one. Once the session
is not active its row stays as it is, every request on it writes nothing, and the only error it can
throw is `SESSION_NOT_ACTIVE`. -/
theorem terminal_once {db : Db} {tr : Trace} {c : State}
    (hrun : system.Run (Config.idle db) tr c) (id : Uuid) :
    ((commitsOn id tr).filter closes).length ≤ 1 ∧
    ∀ s, c.db.sessions.get? id = some s → ∀ tr' c', system.Run c tr' c' →
      (∃ s', c'.db.sessions.get? id = some s' ∧ History s (commitsOn id tr') s' ∧
        ∀ i k dto ctx endedAt newId a c'', k.value = id →
          system.Step c' (.commit i (.endSession k dto ctx endedAt newId) a) c'' →
          ∃ due paid, Pricing.finalize s' endedAt = .ok due ∧
            c''.db.sessions.get? id = some (endedSession s' dto ctx endedAt due paid) ∧
            (commitsOn id tr' ≠ [] → due.value = s'.amountDue)) ∧
      (s.status ≠ .active → commitsOn id tr' = [] ∧ Closed id s c' ∧
        ∀ i q e c'', subject q = some id → system.Step c' (.reject i q e) c'' →
          e = notActive s ∧ c''.db = c'.db) := by
  refine ⟨(closes_once hrun).1, fun s hrow tr' c' hmore => ⟨?_, fun hs => ?_⟩⟩
  · obtain ⟨s', hrow', hhist⟩ := run_history hrun hrow hmore
    refine ⟨s', hrow', hhist, fun i k dto ctx endedAt newId a c'' hk hstep => ?_⟩
    exact settles_extended (hrun.trans hmore) hrow' hhist hk hstep
  · obtain ⟨hnil, hclosed⟩ := closed_stays hrun hrow hs hmore
    exact ⟨hnil, hclosed, fun i q e c'' hsub hstep => hclosed.reject hsub hstep⟩

/-! ### An end and a cancellation -/

/-- A session of one hour, paid for in advance. -/
def hourDb : Db :=
  { Db.empty with
    rooms := .single ⟨2, "VIP Zone", none, 15000, true, none⟩
    computers := .single ⟨1, "PC-01", 2, .inUse, none, true, none⟩
    sessions := .single ⟨3, none, 1, 2, none, .fixedDuration, .active, 15000, .epoch,
      some ⟨3600000, hour_valid⟩, none, 15000, 0, some 9, none, none⟩ }

/-- The session is extended by half an hour, then ended; a cancellation waits for the end. -/
def endSchedule : List (Choice Request) :=
  [.begin 0 (.extend ⟨3, 0⟩ .byHalf), .run 0,
    .begin 1 (.endSession ⟨3, 0⟩ .inFull ⟨9⟩ ⟨3600000, hour_valid⟩ 60),
    .begin 2 (.cancel ⟨3, 0⟩ ⟨9⟩ .epoch), .run 0, .run 0, .run 1, .run 1]

/-- The rest of the end. -/
def endCommits : List (Choice Request) := [.run 1, .run 1, .run 1]

/-- A request that is refused. -/
def refusal : Label Stmt Thrown Request Reply → Option (ℕ × Request × Thrown)
  | .reject i q e => some (i, q, e)
  | _ => none

theorem refusal_eq {l : Label Stmt Thrown Request Reply} {r : ℕ × Request × Thrown}
    (h : refusal l = some r) : l = .reject r.1 r.2.1 r.2.2 := by
  cases l <;> cases h
  rfl

/-- The session has ended at its extended charge, and the next step refuses its cancellation. -/
def endedAndRefused (c : State) : Bool :=
  (c.db.sessions.get? 3).any (fun s => decide (s.status = .ended ∧ s.amountDue = 22500)) &&
    (system.act 3 c (.run 2)).any fun x =>
      (refusal x.1).any fun r => decide (r.1 = 2 ∧ subject r.2.1 = some 3)

/-- The session ends at its extended charge, and the cancellation is refused. -/
theorem terminal_once_ended : ∃ (tr : Trace) (c : State) (tr' : Trace) (c' : State) (s : Session)
    (q : Request) (e : Thrown) (c'' : State), system.Run (Config.idle hourDb) tr c ∧
      system.Waits c 2 1 ∧ system.Run c tr' c' ∧ c'.db.sessions.get? 3 = some s ∧
      s.status = .ended ∧ s.amountDue = 22500 ∧
      ((commitsOn 3 (tr ++ tr')).filter closes).length ≤ 1 ∧ Closed 3 s c' ∧
      system.Step c' (.reject 2 q e) c'' ∧ subject q = some 3 ∧ e = notActive s ∧
      c''.db = c'.db := by
  obtain ⟨tr, c, hrun, hbelow, hcheck⟩ := system.exists_run 3 (below_idle 3 hourDb) endSchedule
    (by decide) (fun x => system.heldUp x.2 2 1 &&
      (system.perform 3 endCommits ([], x.2)).any fun y => endedAndRefused y.2)
    (by decide +kernel)
  obtain ⟨hwaits, hmore⟩ := Bool.and_eq_true_iff.mp hcheck
  obtain ⟨tr', c', hrun', hbelow', hcheck'⟩ :=
    system.exists_run 3 hbelow endCommits (by decide) _ hmore
  obtain ⟨hrow, hact⟩ := Bool.and_eq_true_iff.mp hcheck'
  obtain ⟨s, hs, hended⟩ := (Option.any_eq_true _ _).mp hrow
  obtain ⟨hstatus, hdue⟩ := of_decide_eq_true hended
  obtain ⟨⟨l, c''⟩, hact, hrefused⟩ := (Option.any_eq_true _ _).mp hact
  obtain ⟨⟨i, q, e⟩, hl, hkind⟩ := (Option.any_eq_true _ _).mp hrefused
  obtain ⟨rfl, hsub⟩ := of_decide_eq_true hkind
  obtain rfl := refusal_eq hl
  have hstep : system.Step c' (.reject 2 q e) c'' := step_of_act hbelow' hact
  obtain ⟨honce, hrows⟩ := terminal_once (hrun.trans hrun') 3
  obtain ⟨-, hclosed, hreject⟩ := (hrows s hs [] c' .nil).2 (by simp [hstatus])
  obtain ⟨he, hdb⟩ := hreject 2 q e c'' hsub hstep
  exact ⟨tr, c, tr', c', s, q, e, c'', hrun, waits_of_heldUp hwaits, hrun', hs, hstatus, hdue, honce,
    hclosed, hstep, hsub, he, hdb⟩

end GameClub.Sessions
