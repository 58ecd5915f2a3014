import GameClub.Services.Administration
import GameClub.Services.Sessions

/-! # Runs of service calls

The calls of the sessions, debt, computers and rooms services one after another, whatever each of
them returns.

* `step_effect`: what a call leaves in the database.
* `after_invariant`: what every call keeps holds after every run. -/

namespace GameClub.Services

open GameClub.Lib GameClub.Common GameClub.Store GameClub.Sessions

/-- A service call with its arguments. -/
inductive Op
  | start (dto : StartSessionDto) (ctx : ActorContext) (startedAt : Instant) (randomUUID : Uuid)
      (newIds : ℕ → Uuid)
  | extend (id : UuidText) (dto : ExtendSessionDto)
  | endSession (id : UuidText) (dto : EndSessionDto) (ctx : ActorContext) (endedAt : Instant)
      (newId : Uuid)
  | cancel (id : UuidText) (ctx : ActorContext) (now : Instant)
  | recordPayment (input : Debt.LedgerEntryInput) (newId : Uuid)
  | correct (customerId : Uuid) (signedAmount : Number) (actorId : Uuid) (reason : String)
      (newId : Uuid)
  | createComputer (dto : CreateComputerDto) (newId : Uuid)
  | updateComputer (id : UuidText) (dto : UpdateComputerDto) (byRelation : Bool)
  | removeComputer (id : UuidText) (now : Instant)
  | updateRoom (id : UuidText) (dto : UpdateRoomDto)

namespace World

/-- The world after a call. -/
def step (w : World) : Op → World
  | .start dto ctx startedAt randomUUID newIds =>
    ((start dto ctx startedAt randomUUID newIds).call w).2
  | .extend id dto => ((extend id dto).call w).2
  | .endSession id dto ctx endedAt newId => ((endSession id dto ctx endedAt newId).call w).2
  | .cancel id ctx now => ((cancel id ctx now).call w).2
  | .recordPayment input newId => ((recordPayment input newId).call w).2
  | .correct customerId signedAmount actorId reason newId =>
    ((correct customerId signedAmount actorId reason newId).call w).2
  | .createComputer dto newId => ((Computers.create dto newId).call w).2
  | .updateComputer id dto byRelation => ((Computers.update id dto byRelation).call w).2
  | .removeComputer id now => ((Computers.remove id now).call w).2
  | .updateRoom id dto => ((Rooms.update id dto).call w).2

/-- The world after the calls `ops`. -/
def after (w : World) (ops : List Op) : World := ops.foldl step w

@[simp] theorem after_nil (w : World) : w.after [] = w := rfl

theorem after_append (w : World) (ops ops' : List Op) :
    w.after (ops ++ ops') = (w.after ops).after ops' := List.foldl_append ..

theorem after_concat (w : World) (ops : List Op) (op : Op) :
    w.after (ops ++ [op]) = (w.after ops).step op := after_append w ops [op]

end World

/-- `P` holds of every call of a run and the database it is made on. -/
def EveryCall (P : Db → Op → Prop) (w : World) (ops : List Op) : Prop :=
  ∀ before op later, ops = before ++ op :: later → P (w.after before).db op

theorem EveryCall.cons {P : Db → Op → Prop} {w : World} {op : Op} {ops : List Op} (h : P w.db op)
    (hops : EveryCall P (w.step op) ops) : EveryCall P w (op :: ops) := by
  intro before op' later heq
  cases before with
  | nil =>
    cases heq
    exact h
  | cons op'' before =>
    cases heq
    exact hops before op' later rfl

/-- **What every step keeps holds after a run** whose steps meet `P`; by induction on the last
step. -/
theorem foldl_invariant {σ α : Type} {f : σ → α → σ} {I : σ → Prop} {P : σ → α → Prop}
    (hstep : ∀ s a, I s → P s a → I (f s a)) {s : σ} (h : I s) {as : List α}
    (hP : ∀ before a later, as = before ++ a :: later → P (before.foldl f s) a) :
    I (as.foldl f s) := by
  induction as using List.reverseRecOn with
  | nil => exact h
  | append_singleton as a ih =>
    rw [List.foldl_append, List.foldl_cons, List.foldl_nil]
    refine hstep _ _ (ih fun before a' later heq => ?_) (hP as a [] rfl)
    exact hP before a' (later ++ [a]) (by rw [heq]; simp)

/-- **What every call keeps holds after every run** whose calls meet `P`. -/
theorem after_invariant {I : Db → Prop} {P : Db → Op → Prop}
    (hstep : ∀ (w : World) op, I w.db → P w.db op → I (w.step op).db) {w : World} (h : I w.db)
    {ops : List Op} (hops : EveryCall P w ops) : I (w.after ops).db :=
  foldl_invariant (f := World.step) (I := fun w : World => I w.db)
    (P := fun w op => P w.db op) hstep h hops

/-! ### What a call does to the database -/

/-- What a call of the computers or rooms service that is not rejected does. -/
inductive Administers (db : Db) : Op → Db → Prop
  | created {dto : CreateComputerDto} {newId : Uuid} (hid : db.computers.get? newId = none) :
      Administers db (.createComputer dto newId)
        { db with computers := db.computers.insert (Computers.newComputer dto newId) }
  | updated {id : UuidText} {dto : UpdateComputerDto} {byRelation : Bool} {saved : ComputerEntity}
      {row : Computer} (h : Computers.updatedRow id dto byRelation db = .ok (saved, row)) :
      Administers db (.updateComputer id dto byRelation)
        { db with computers := db.computers.set row }
  | removed {id : UuidText} {now : Instant} {stored : Computer}
      (h : db.findComputer id.value = some stored) : Administers db (.removeComputer id now)
        { db with computers := db.computers.set { stored with deletedAt := some now } }
  | roomUpdated {id : UuidText} {dto : UpdateRoomDto} {room row : Room}
      (h : db.findRoom id.value = some room) (hrow : Rooms.assign room dto = .ok row) :
      Administers db (.updateRoom id dto) { db with rooms := db.rooms.set row }

/-- **What a call leaves in the database**: nothing new, what its transaction has committed, or a
row of the administration. -/
inductive Effect (db : Db) : Op → Db → Prop
  | rejected {op : Op} : Effect db op db
  | started {dto : StartSessionDto} {ctx : ActorContext} {startedAt : Instant} {randomUUID : Uuid}
      {newIds : ℕ → Uuid} {results : List Session} {db' : Db} (h : store.eval
        (Sessions.start dto ctx startedAt randomUUID newIds) db = .ok (results, db')) :
      Effect db (.start dto ctx startedAt randomUUID newIds) db'
  | extended {id : UuidText} {dto : ExtendSessionDto} {s : Session} {db' : Db}
      (h : store.eval (Sessions.extend id dto) db = .ok (s, db')) : Effect db (.extend id dto) db'
  | ended {id : UuidText} {dto : EndSessionDto} {ctx : ActorContext} {endedAt : Instant}
      {newId : Uuid} {saved : Session} {debt : Option DebtTransaction} {db' : Db} (h : store.eval
        (Sessions.endSession id dto ctx endedAt newId) db = .ok ((saved, debt), db')) :
      Effect db (.endSession id dto ctx endedAt newId) db'
  | cancelled {id : UuidText} {ctx : ActorContext} {now : Instant} {s : Session} {db' : Db}
      (h : store.eval (Sessions.cancel id ctx now) db = .ok (s, db')) :
      Effect db (.cancel id ctx now) db'
  | paid {input : Debt.LedgerEntryInput} {newId : Uuid} {e : DebtTransaction} {db' : Db}
      (h : store.eval (Debt.recordPayment input newId) db = .ok (e, db')) :
      Effect db (.recordPayment input newId) db'
  | corrected {customerId : Uuid} {signedAmount : Number} {actorId : Uuid} {reason : String}
      {newId : Uuid} {e : DebtTransaction} {db' : Db} (h : store.eval
        (Debt.correct customerId signedAmount actorId reason newId) db = .ok (e, db')) :
      Effect db (.correct customerId signedAmount actorId reason newId) db'
  | administered {op : Op} {db' : Db} (h : Administers db op db') : Effect db op db'

/-- The effect of a transaction. -/
theorem transaction_effect {α : Type} {p : Txn α} {db : Db} {op : Op}
    (h : ∀ a db', store.eval p db = .ok (a, db') → Effect db op db') :
    Effect db op (store.transaction p db).2 :=
  Sem.transaction_preserves store (Effect db op) .rejected h

theorem step_effect (w : World) (op : Op) : Effect w.db op (w.step op).db := by
  cases op with
  | start dto ctx startedAt randomUUID newIds =>
    exact start_db .. ▸ transaction_effect fun _ _ h => .started h
  | extend id dto => exact extend_db .. ▸ transaction_effect fun _ _ h => .extended h
  | endSession id dto ctx endedAt newId =>
    exact endSession_db .. ▸ transaction_effect fun _ _ h => .ended h
  | cancel id ctx now => exact cancel_db .. ▸ transaction_effect fun _ _ h => .cancelled h
  | recordPayment input newId =>
    exact recordPayment_db .. ▸ transaction_effect fun _ _ h => .paid h
  | correct customerId signedAmount actorId reason newId =>
    exact correct_db .. ▸ transaction_effect fun _ _ h => .corrected h
  | createComputer dto newId =>
    rw [World.step]
    rcases Computers.create_call dto newId w with ⟨e, he⟩ | ⟨hid, hok⟩
    · rw [he]
      exact .rejected
    · rw [hok]
      exact .administered (.created hid)
  | updateComputer id dto byRelation =>
    rw [World.step, Computers.update_call]
    rcases h : Computers.updatedRow id dto byRelation w.db with e | ⟨saved, row⟩
    · exact .rejected
    · exact .administered (.updated h)
  | removeComputer id now =>
    rw [World.step]
    rcases Computers.remove_call id now w with ⟨e, he⟩ | ⟨stored, hstored, hok⟩
    · rw [he]
      exact .rejected
    · rw [hok]
      exact .administered (.removed hstored)
  | updateRoom id dto =>
    rw [World.step]
    rcases Rooms.update_call id dto w with ⟨e, he⟩ | ⟨room, row, hroom, hrow, -, hok⟩
    · rw [he]
      exact .rejected
    · rw [hok]
      exact .administered (.roomUpdated hroom hrow)

/-- An effect is a sequence of changes, or one of the administration. -/
theorem Effect.changes {db db' : Db} {op : Op} (h : Effect db op db') :
    Relation.ReflTransGen Change db db' ∨ Administers db op db' := by
  cases h with
  | rejected => exact Or.inl .refl
  | started h => exact Or.inl (start_changes h)
  | extended h => exact Or.inl (.single (extend_change h))
  | ended h => exact Or.inl (.single (endSession_change h))
  | cancelled h => exact Or.inl (.single (cancel_change h))
  | paid h => exact Or.inl (.single (recordPayment_change h))
  | corrected h => exact Or.inl (.single (correct_change h))
  | administered h => exact Or.inr h

theorem Administers.sessions {db db' : Db} {op : Op} (h : Administers db op db') :
    db'.sessions = db.sessions := by
  cases h <;> rfl

end GameClub.Services
