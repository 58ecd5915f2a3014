import GameClub.Api.Authority
import GameClub.Services.References

/-! # References over the API

Requests run side by side, and a handler makes one call on the club at most, which takes effect at
once. So what the services keep over any sequence of calls, the API keeps.

* `clubCalls`, `world_eq`: the calls of a run on the club, and the world they lead to.
* `references_resolve`: every reference resolves, and debts add up. -/

namespace GameClub.Api

open GameClub.Lib GameClub.Lib.Interleave GameClub.Common GameClub.Store
open GameClub.Auth (AccessTokenClaims)
open GameClub.Services (World)

/-- The call on the club among the calls of a run. -/
def clubCall : Stmt × Server → Option Services.Call
  | (.club c, _) => some c
  | _ => none

/-- **The calls on the club**, the first one first. -/
def clubCalls (h : ApiPast) : List Services.Call := (h.filterMap clubCall).reverse

theorem clubCalls_cons (c : Services.Call) (w : Server) (h : ApiPast) :
    clubCalls ((.club c, w) :: h) = clubCalls h ++ [c] := List.reverse_cons

/-- The world after a run is that of its calls on the club. -/
theorem world_eq {env : Env} {w₀ : Server} {tr : List ApiEvent} {c : ApiConfig}
    (hrun : (system env).Run (fun _ _ => True) (.idle w₀) tr c) :
    c.db.world = (clubCalls (past tr)).foldl World.perform w₀.world := by
  induction hrun with
  | nil => rfl
  | @step tr c c' e _ hs _ ih =>
    cases hs with
    | arrive q hi => exact ih
    | leave hi hv => exact ih
    | pass n => exact ih
    | @call i p s k hi hv =>
      cases p with
      | pure a => cases hv
      | throw e => cases hv
      | call s' k' =>
        cases hv
        cases s with
        | club call =>
          have hpast : past (Event.called i (.call (.club call) k) c.db :: tr) =
              (.club call, c.db) :: past tr := rfl
          rw [hpast, clubCalls_cons, List.foldl_append, ← ih]
          exact callClub_world call _
        | _ => exact ih


/-- The payments of the controller name no session. -/
theorem club_plain {a : Action} {sub : Uuid} {c : Services.Call} (h : a.club sub = some c) :
    Services.Plain c := by
  cases a <;> cases h <;> trivial

/-- **Every reference in the club resolves** after every interleaved run from the empty club, also those
that the database does not check; a debt is on the customer of its session; and the outstanding total
is the sum of the balances of the customers. -/
theorem references_resolve {w₀ : Server} {tr : List ApiEvent} {c : ApiConfig}
    (hw : w₀.world = .initial)
    (hrun : (system env).Run (fun _ _ => True) (.idle w₀) tr c) :
    Services.Resolved c.db.world.db ∧ Analytics.totalOutstanding c.db.world.db =
      (c.db.world.db.customers.rows.map fun customer => c.db.world.db.balance customer.id).sum := by
  have hsends : ∀ req, (handle env req).Sends fun s => ∀ c, s = .club c → Services.Plain c := by
    have hadmits : Admits fun s => ∀ c, s = .club c → Services.Plain c :=
      ⟨fun _ _ _ h => (nomatch h), fun _ _ h => (nomatch h), fun _ _ h => (nomatch h),
        fun _ _ h => (nomatch h), fun _ _ h => (nomatch h), fun _ _ h => (nomatch h)⟩
    intro req
    refine sends_handle hadmits (fun _ _ h => (nomatch h)) (fun _ _ h => (nomatch h))
      (fun _ _ h => (nomatch h)) req ?_
    intro a sub c _ hc c' heq
    cases heq
    exact club_plain hc
  have hpast := past_of_sends rfl hsends hrun
  have hplain : ∀ c ∈ clubCalls (past tr), Services.Plain c := by
    intro c hc
    obtain ⟨⟨s, w⟩, hm, hcall⟩ := List.mem_filterMap.mp (List.mem_reverse.mp hc)
    cases s with
    | club call =>
      cases hcall
      exact hpast _ hm c rfl
    | _ => cases hcall
  have hresolved : Services.Resolved c.db.world.db := by
    rw [world_eq hrun, hw]
    exact Services.reached_resolved Services.resolved_empty hplain
  exact ⟨hresolved, Services.outstanding_by_customer hresolved⟩

def ownerClaims : AccessTokenClaims := ⟨6, "owner@club.uz", .owner⟩

/-- The token of the owner is accepted. -/
def ownerEnv : Env :=
  { plainEnv with verifyAsync := fun token _ => if token = "owner" then some ownerClaims else none }

def byOwner (a : Action) : Request :=
  ⟨⟨some "Bearer owner", []⟩, .object [], [], none, none, none, .epoch, a.handler, .ok a,
    fun a' h => by cases h; rfl⟩

/-- A session of an hour is ended, and a part of it is paid. -/
def ownerDay : List Action :=
  [.createRoom ⟨"VIP-1", none, 18000, by decide, noText_length, by decide⟩ 2,
    .createComputer ⟨"PC-02", ⟨2, 0⟩, none, by decide⟩ 1,
    .createCustomer ⟨"Nodira", none, none, by decide, noPhone, noText_length⟩ 7,
    .startSession { Sessions.StartSessionDto.openOn ⟨1, 0⟩ with customerId := some ⟨7, 0⟩ } .epoch 4
      fun _ => 3,
    .endSession ⟨3, 0⟩ .inPart ⟨3600000, hour_valid⟩ 5]

/-- The requests one after another. -/
def ownerSchedule : List (System.Action Request) :=
  ownerDay.zipIdx.flatMap fun x => .arrive x.2 (byOwner x.1) :: List.replicate 4 (.run x.2)

theorem references_resolve_day : ∃ (tr : List ApiEvent) (c : ApiConfig),
    (system ownerEnv).Run (fun _ _ => True) (.idle oneCashier) tr c ∧
      c.db.world.db.debtTransactions.rows.map (fun e => (e.customerId, e.sessionId, e.signedAmount)) =
        [(7, some 3, 13000)] ∧
      Services.Resolved c.db.world.db ∧ Analytics.totalOutstanding c.db.world.db =
        (c.db.world.db.customers.rows.map fun customer =>
          c.db.world.db.balance customer.id).sum := by
  obtain ⟨tr, c, hrun, hrows, -⟩ := System.exists_run (S := system ownerEnv)
    (A := fun _ _ => True) (fun _ _ => true) 5 (fun _ _ _ _ => trivial) oneCashier ownerSchedule
    (fun x => decide (x.2.db.world.db.debtTransactions.rows.map
      (fun e => (e.customerId, e.sessionId, e.signedAmount)) = [(7, some 3, 13000)]))
    (by decide) (by decide +kernel)
  obtain ⟨hresolved, hsum⟩ := references_resolve rfl hrun
  exact ⟨tr, c, hrun, of_decide_eq_true hrows, hresolved, hsum⟩

end GameClub.Api
