import GameClub.Concurrency.Locking
import GameClub.Lib.Deadlock

/-! # The order of the locks

The order in which each request takes its row locks.

* `Generates`: the rows whose ids the database generates for a request.
* `Ordered`: what a request holds when it sends a statement.
* `body_ordered`: every request keeps to it. -/

namespace GameClub.Concurrency

open GameClub.Lib GameClub.Lib.RowLock GameClub.Common GameClub.Store GameClub.Sessions

/-- The rows whose ids are generated for a request. -/
def Generates : Request → RowId → Prop
  | .start _ _ _ _ newIds, .session n => ∃ k, newIds k = n
  | .endSession _ _ _ _ newId, .debt n => newId = n
  | .recordPayment _ newId, .debt n => newId = n
  | .correct _ _ _ _ newId, .debt n => newId = n
  | _, _ => False

/-! ### The order of the locks -/

/-- The computers a request names, in its order. -/
def computerIds : Request → List Uuid
  | .start dto _ _ _ _ => dto.computerIds.map UuidText.value
  | _ => []

/-- **The order of the locks of request `q`**: what it holds when it sends `s`. -/
structure Ordered (q : Request) (s : Stmt) (L : List (Lock RowId)) : Prop where
  /-- new rows have generated ids -/
  session : ∀ row, s = .insertSession row → Generates q (.session row.id)
  debt : ∀ row, s = .insertDebt row → Generates q (.debt row.id)
  /-- a session or a customer is locked first -/
  first : (∃ id, s = .lockSession id) ∨ (∃ id, s = .lockCustomer id) → L = []
  /-- the computers locked so far come before the next one in the request -/
  computer : ∀ id, s = .lockComputer id → ∀ l ∈ L, ∀ n, l.row = .computer n →
    ∃ pre post, computerIds q = pre ++ id :: post ∧ n ∈ pre
  /-- under the lock of a customer only its own ledger is read and written -/
  customer : ∀ c, ⟨.customer c, .update⟩ ∈ L →
    (∃ c', s = .sumDebt c') ∨ ∃ row, s = .insertDebt row ∧ row.customerId = c

/-- The locks `L` are on computers among `pre`, and on no customer for an update. -/
structure Within (pre : List Uuid) (L : List (Lock RowId)) : Prop where
  computer : ∀ l ∈ L, ∀ n, l.row = .computer n → n ∈ pre
  customer : ∀ c, ⟨.customer c, .update⟩ ∉ L

theorem Within.nil (pre : List Uuid) : Within pre [] := ⟨by simp, by simp⟩

theorem Within.append {pre : List Uuid} {L ls : List (Lock RowId)} (h : Within pre L)
    (hs : Within pre ls) : Within pre (L ++ ls) := by
  refine ⟨fun l hl n hn => ?_, fun c hc => ?_⟩
  · rcases List.mem_append.mp hl with hl | hl
    · exact h.computer l hl n hn
    · exact hs.computer l hl n hn
  · rcases List.mem_append.mp hc with hc | hc
    · exact h.customer c hc
    · exact hs.customer c hc

theorem Within.mono {pre pre' : List Uuid} {L : List (Lock RowId)} (h : Within pre L)
    (hsub : pre ⊆ pre') : Within pre' L :=
  ⟨fun l hl n hn => hsub (h.computer l hl n hn), h.customer⟩

section Ordered

variable {q : Request} {β : Type} {pre : List Uuid} {L : List (Lock RowId)}
  {Q : β → List (Lock RowId) → Prop}

/-- Request `q` sends the statements of `p` in order. -/
abbrev Sends (q : Request) {β : Type} (p : Txn β) (L : List (Lock RowId))
    (Q : β → List (Lock RowId) → Prop) : Prop :=
  Obeys system (Ordered q) p L Q

/-- A statement that is in order whatever it follows. -/
theorem Within.ordered (h : Within pre L) {s : Stmt}
    (hsession : ∀ row, s = .insertSession row → Generates q (.session row.id))
    (hdebt : ∀ row, s = .insertDebt row → Generates q (.debt row.id))
    (hlocks : (∀ id, s ≠ .lockSession id) ∧ (∀ id, s ≠ .lockCustomer id) ∧
      ∀ id, s ≠ .lockComputer id) : Ordered q s L where
  session := hsession
  debt := hdebt
  first hs := by
    rcases hs with ⟨id, hs⟩ | ⟨id, hs⟩
    · exact absurd hs (hlocks.1 id)
    · exact absurd hs (hlocks.2.1 id)
  computer id hs := absurd hs (hlocks.2.2 id)
  customer c hc := absurd hc (h.customer c)

theorem sends_lift {α : Type} {x : Except Thrown α} {f : α → Txn β}
    (h : ∀ a, x = .ok a → Sends q (f a) L Q) : Sends q (liftM x >>= f) L Q := by
  cases x with
  | error e => trivial
  | ok a => exact h a rfl

theorem sends_findCustomer {id : Uuid} {f : Option Customer → Txn β} (hw : Within pre L)
    (h : ∀ r, Sends q (f r) L Q) : Sends q (findCustomer id >>= f) L Q := by
  refine ⟨hw.ordered (by simp) (by simp) (by simp), fun db r ws hx => Or.inr ?_⟩
  exact (List.append_nil L).symm ▸ h r

theorem sends_findRoom {id : Uuid} {f : Option Room → Txn β} (hw : Within pre L)
    (h : ∀ r, Sends q (f r) L Q) : Sends q (findRoom id >>= f) L Q := by
  refine ⟨hw.ordered (by simp) (by simp) (by simp), fun db r ws hx => Or.inr ?_⟩
  exact (List.append_nil L).symm ▸ h r

/-- The computer after those that are locked. -/
theorem sends_lockComputer {id : Uuid} {f : Option Computer → Txn β} (hw : Within pre L)
    (hnext : pre = [] ∨ ∃ post, computerIds q = pre ++ id :: post)
    (hnone : Sends q (f none) L Q)
    (hsome : ∀ c L', c.id = id → Within (pre ++ [id]) L' → Sends q (f (some c)) L' Q) :
    Sends q (lockComputer id >>= f) L Q := by
  refine ⟨⟨by simp, by simp, by simp, fun id' hid l hl n hn => ?_,
    fun c hc => absurd hc (hw.customer c)⟩, fun db r ws hx => Or.inr ?_⟩
  · cases hid
    have hmem : n ∈ pre := hw.computer l hl n hn
    rcases hnext with rfl | ⟨post, hpost⟩
    · cases hmem
    · exact ⟨pre, post, hpost, hmem⟩
  · cases hx
    cases hc : db.findComputer id with
    | none =>
      have hlocks : system.locks (Stmt.lockComputer id) db = [] := if_pos hc
      rw [hlocks, List.append_nil]
      exact hnone
    | some c =>
      have hlocks : system.locks (Stmt.lockComputer id) db = [⟨.computer id, .update⟩] :=
        if_neg (by simp [hc])
      rw [hlocks]
      have hlock : Within (pre ++ [id]) [⟨.computer id, .update⟩] := ⟨by simp, by simp⟩
      exact hsome c _ (Table.key_of_get? (Db.findComputer_eq_some.mp hc).1)
        ((hw.mono (List.subset_append_left _ _)).append hlock)

theorem sends_insertSession {row : Session} {f : Session → Txn β} (hw : Within pre L)
    (hid : Generates q (.session row.id)) (hcomputer : row.computerId ∈ pre)
    (h : ∀ L', Within pre L' → Sends q (f row) L' Q) : Sends q (insertSession row >>= f) L Q := by
  refine ⟨hw.ordered (by rintro _ ⟨⟩; exact hid) (by simp) (by simp),
    fun db r ws hx => Or.inr ?_⟩
  obtain ⟨-, -, -, -, hr⟩ := execInsertSession_ok.mp hx
  cases hr
  refine h _ (hw.append ⟨fun l hl n hn => ?_, fun c hc => ?_⟩)
  · rcases List.mem_cons.mp hl with rfl | hl
    · cases hn
    rcases List.mem_cons.mp hl with rfl | hl
    · cases hn
      exact hcomputer
    · obtain ⟨c, -, rfl⟩ := List.mem_map.mp hl
      cases hn
  · simp [system, stmtLocks] at hc

theorem sends_updateSession {row : Session} {f : Session → Txn β} (hw : Within pre L)
    (h : ∀ L', Within pre L' → Sends q (f row) L' Q) : Sends q (updateSession row >>= f) L Q := by
  refine ⟨hw.ordered (by simp) (by simp) (by simp), fun db r ws hx => Or.inr ?_⟩
  cases hx
  exact h _ (hw.append ⟨by simp [system, stmtLocks], by simp [system, stmtLocks]⟩)

theorem sends_updateComputerStatus {id : Uuid} {status : ComputerStatus} {f : Unit → Txn β}
    (hw : Within pre L) (hid : id ∈ pre) (h : ∀ L', Within pre L' → Sends q (f ()) L' Q) :
    Sends q (updateComputerStatus id status >>= f) L Q := by
  refine ⟨hw.ordered (by simp) (by simp) (by simp), fun db r ws hx => Or.inr ?_⟩
  cases hx
  exact h _ (hw.append ⟨by simpa [system, stmtLocks] using hid, by simp [system, stmtLocks]⟩)

theorem sends_insertDebt {row : DebtTransaction} {f : DebtTransaction → Txn β} (hw : Within pre L)
    (hid : Generates q (.debt row.id)) (h : ∀ L', Within pre L' → Sends q (f row) L' Q) :
    Sends q (insertDebt row >>= f) L Q := by
  refine ⟨hw.ordered (by simp) (by rintro _ ⟨⟩; exact hid) (by simp),
    fun db r ws hx => Or.inr ?_⟩
  obtain ⟨-, -, hr⟩ := execInsertDebt_ok.mp hx
  cases hr
  exact h _ (hw.append ⟨by simp [system, stmtLocks], by simp [system, stmtLocks]⟩)

theorem sends_resolveCustomer {customerId : Option UuidText} {f : Option Customer → Txn β}
    (hw : Within pre L) (h : ∀ r, Sends q (f r) L Q) :
    Sends q (resolveCustomer customerId >>= f) L Q := by
  refine Obeys.bind ?_
  cases customerId with
  | none => exact h none
  | some id =>
    refine sends_findCustomer hw fun r => ?_
    cases r with
    | none => trivial
    | some c =>
      dsimp only
      split_ifs
      · trivial
      · exact h (some c)

theorem sends_lockActive {id : UuidText} {f : Session → Txn β}
    (h : ∀ s L', Within [] L' → Sends q (f s) L' Q) : Sends q (lockActive id >>= f) [] Q := by
  refine Obeys.bind ⟨⟨by simp, by simp, fun _ => rfl, by simp, by simp⟩, fun db r ws hx => ?_⟩
  cases hx
  cases hs : db.sessions.get? id.value with
  | none => exact Or.inl rfl
  | some s =>
    have hlocks : system.locks (Stmt.lockSession id.value) db = [⟨.session id.value, .update⟩] :=
      if_neg (by simp [hs])
    rw [hlocks]
    right
    show Obeys system (Ordered q) (if s.status = .active then _ else _) _ _
    split_ifs
    · exact h s _ ⟨by simp, by simp⟩
    · trivial

theorem sends_releaseComputer {computerId : Uuid} {f : Unit → Txn β} (hw : Within [] L)
    (h : ∀ L', Sends q (f ()) L' Q) : Sends q (releaseComputer computerId >>= f) L Q := by
  refine Obeys.bind (sends_lockComputer hw (Or.inl rfl) (h L) fun c L' hc hw' => ?_)
  dsimp only
  split_ifs
  · exact sends_updateComputerStatus (f := pure) hw' (by simp [hc]) fun L'' _ => h L''
  · exact h L'

theorem sends_addDebt {input : Debt.LedgerEntryInput} {newId : Uuid} {f : DebtTransaction → Txn β}
    (hw : Within pre L) (hid : Generates q (.debt newId))
    (h : ∀ e L', Within pre L' → Sends q (f e) L' Q) :
    Sends q (Debt.addDebt input newId >>= f) L Q := by
  refine Obeys.bind (sends_lift fun magnitude _ => ?_)
  split_ifs
  · trivial
  · exact sends_insertDebt (f := pure) hw hid fun L' hw' => h _ L' hw'

theorem sends_startOne {dto : StartSessionDto} {ctx : ActorContext} {startedAt : Instant}
    {groupId : Option Uuid} {customer : Option Customer} {computerId : UuidText} {newId : Uuid}
    {f : Session → Txn β} (hw : Within pre L) (hid : Generates q (.session newId))
    (hnext : ∃ post, computerIds q = pre ++ computerId.value :: post)
    (h : ∀ s L', Within (pre ++ [computerId.value]) L' → Sends q (f s) L' Q) :
    Sends q (startOne dto ctx startedAt groupId customer computerId newId >>= f) L Q := by
  refine Obeys.bind (sends_lockComputer hw (Or.inr hnext) trivial fun computer L₁ hc hw₁ => ?_)
  have hmem : computer.id ∈ pre ++ [computerId.value] := by simp [hc]
  dsimp only
  split_ifs
  · trivial
  · refine sends_findRoom hw₁ fun r => ?_
    split
    · trivial
    · refine sends_lift fun plan _ => sends_lift fun plannedEndAt _ => ?_
      refine sends_insertSession hw₁ hid hmem fun L₂ hw₂ => ?_
      exact sends_updateComputerStatus hw₂ hmem fun L₃ hw₃ => h _ L₃ hw₃

/-- By induction on the computers still to be locked. -/
theorem sends_startAll {dto : StartSessionDto} {ctx : ActorContext} {startedAt : Instant}
    {groupId : Option Uuid} {customer : Option Customer} {ids : List (UuidText × Uuid)}
    {Q : List Session → List (Lock RowId) → Prop} (hw : Within pre L)
    (hids : computerIds q = pre ++ ids.map fun x => x.1.value)
    (hnew : ∀ x ∈ ids, Generates q (.session x.2)) (h : ∀ ss L', Q ss L') :
    Sends q (startAll dto ctx startedAt groupId customer ids) L Q := by
  induction ids generalizing pre L Q with
  | nil => exact h [] L
  | cons x rest ih =>
    refine sends_startOne hw (hnew x (by simp)) ⟨_, hids⟩ fun s L' hw' => ?_
    refine Obeys.bind (ih hw' ?_ (fun y hy => hnew y (by simp [hy])) fun ss L'' => h _ L'')
    rw [hids, List.map_cons, List.append_assoc]
    rfl

theorem sends_settle {session : Session} {dto : EndSessionDto} {ctx : ActorContext}
    {endedAt : Instant} {newId : Uuid} {due paid : Money}
    {Q : Session × Option DebtTransaction → List (Lock RowId) → Prop} (hw : Within [] L)
    (hid : Generates q (.debt newId)) (h : ∀ r L', Q r L') :
    Sends q (settle session dto ctx endedAt newId due paid) L Q := by
  unfold settle
  split_ifs
  · trivial
  · refine sends_lift fun shortfall _ => ?_
    split_ifs
    · trivial
    · refine sends_updateSession hw fun L₁ hw₁ => ?_
      split
      · refine sends_addDebt hw₁ hid fun debt L₂ hw₂ => ?_
        exact sends_releaseComputer hw₂ fun L₃ => h _ L₃
      · exact sends_releaseComputer hw₁ fun L₂ => h _ L₂

/-- The row of the customer is locked before its ledger is read. -/
theorem sends_recordPayment {input : Debt.LedgerEntryInput} {newId : Uuid}
    {Q : DebtTransaction → List (Lock RowId) → Prop} (hid : Generates q (.debt newId))
    (h : ∀ e L', Q e L') : Sends q (Debt.recordPayment input newId) [] Q := by
  refine sends_lift fun magnitude _ => ?_
  split_ifs
  · trivial
  · refine ⟨⟨by simp, by simp, fun _ => rfl, by simp, by simp⟩, fun db r ws hx => ?_⟩
    cases hx
    cases hc : db.findCustomer input.customerId with
    | none => exact Or.inl rfl
    | some c =>
      have hlocks : system.locks (Stmt.lockCustomer input.customerId) db =
          [⟨.customer input.customerId, .update⟩] := if_neg (by simp [hc])
      rw [hlocks]
      right
      refine Obeys.bind ⟨⟨by simp, by simp, by simp, by simp, by simp⟩,
        fun db' r' ws' hx' => Or.inr ?_⟩
      cases hx'
      have hsum : system.locks (Stmt.sumDebt input.customerId) db' = [] := rfl
      rw [hsum, List.append_nil, List.nil_append]
      refine sends_lift fun balance _ => ?_
      split_ifs
      · trivial
      · refine ⟨⟨by simp, by rintro _ ⟨⟩; exact hid, by simp, by simp, by simp⟩,
          fun db'' r'' ws'' hx'' => Or.inr (h _ _)⟩

end Ordered

/-- **Every request takes its locks in order.** -/
theorem body_ordered (q : Request) : Sends q (body q) [] fun _ _ => True := by
  cases q with
  | start dto ctx startedAt randomUUID newIds =>
    refine Obeys.bind (sends_resolveCustomer (Within.nil []) fun customer => ?_)
    refine sends_startAll (Within.nil []) ?_ (fun x hx => ?_) fun _ _ => trivial
    · exact List.ext_getElem (by simp [computerIds]) (by simp [computerIds])
    · obtain ⟨k, hk, rfl⟩ := List.mem_mapIdx.mp hx
      exact ⟨k, rfl⟩
  | extend id dto =>
    refine Obeys.bind (sends_lockActive fun session L hw => ?_)
    refine sends_lift fun plan _ => sends_lift fun plannedEndAt _ => ?_
    exact sends_updateSession (f := pure) hw fun _ _ => trivial
  | endSession id dto ctx endedAt newId =>
    refine Obeys.bind (sends_lockActive fun session L hw => ?_)
    refine sends_lift fun due _ => sends_lift fun paid _ => ?_
    exact sends_settle hw rfl fun _ _ => trivial
  | cancel id ctx now =>
    refine Obeys.bind (sends_lockActive fun session L hw => ?_)
    refine sends_updateSession hw fun L' hw' => ?_
    exact sends_releaseComputer hw' fun _ => trivial
  | recordPayment input newId =>
    exact Obeys.bind (sends_recordPayment rfl fun _ _ => trivial)
  | correct customerId signedAmount actorId reason newId =>
    refine Obeys.bind (sends_lift fun value _ => ?_)
    split_ifs
    · trivial
    · exact sends_insertDebt (f := pure) (Within.nil []) rfl fun _ _ => trivial

end GameClub.Concurrency
