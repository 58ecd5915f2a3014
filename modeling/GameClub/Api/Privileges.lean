import GameClub.Api.Authority

/-! # Privileges

What only an owner, a manager or a cashier may change stays as it is while no account has that role,
whatever is requested: roles cannot be raised, and stale reads of the accounts do not raise them.

* `Kept`: the part of what is stored that a role protects.
* `Kept.call`: a call that is traced to a principal without the role keeps it.
* `privileges_kept`: so does every interleaved run in which no token is forged, and none that was held
  at the beginning is one of the role. -/

namespace GameClub.Api

open GameClub.Lib GameClub.Lib.Interleave GameClub.Common GameClub.Store
open GameClub.Auth (AuthDb AccessTokenClaims Role User UserEntity)
open GameClub.Services (World)

/-! ### What a role protects -/

/-- The columns of an account that only the users service changes. -/
def identity (u : User) : Uuid × String × String × Role × Bool × Option ℤ :=
  (u.id, u.email, u.fullName, u.role, u.isActive, u.deletedAt)

/-- A computer but for its status. -/
def described (c : Computer) : Computer := { c with status := .available }

def corrections (db : Db) : List DebtTransaction :=
  db.debtTransactions.rows.filter fun e => e.type = .debtCorrection

/-- Rooms and computers are as they were, and no customer of before has been removed. -/
structure Managed (db₀ db : Db) : Prop where
  rooms : db.rooms = db₀.rooms
  computers : db.computers.rows.map described = db₀.computers.rows.map described
  customers : ∀ id old, db₀.customers.get? id = some old →
    ∃ new, db.customers.get? id = some new ∧ new.deletedAt = old.deletedAt

/-- **What the role `r` protects is as it was.** -/
structure Kept (r : Role) (w₀ w : Server) : Prop where
  accounts : w.accounts.users.rows.map identity = w₀.accounts.users.rows.map identity
  settings : w.settings = w₀.settings
  corrections : corrections w.world.db = corrections w₀.world.db
  managed : Reaches .manager r → Managed w₀.world.db w.world.db
  club : r = .cashier → w.world = w₀.world

/-- No account has the privileges of `r`. -/
def Unreached (r : Role) (w : Server) : Prop := ∀ u ∈ w.accounts.users.rows, ¬ Reaches u.role r

/-- The role a call on the club requires. -/
def levelOf : Services.Call → Role
  | .op (.correct _ _ _ _ _) => .owner
  | .op (.createComputer _ _) | .op (.updateComputer _ _ _) | .op (.removeComputer _ _)
  | .op (.updateRoom _ _) | .createRoom _ _ | .removeRoom _ _ | .removeCustomer _ _ => .manager
  | _ => .cashier

theorem required_level (c : Services.Call) : (handlerOf c).required = [levelOf c] := by
  cases c with
  | op op => cases op <;> rfl
  | _ => rfl

theorem allows_iff {handler : Handler} {role q : Role} (h : handler.required = [q]) :
    handler.Allows role ↔ Reaches role q := by
  unfold Handler.Allows
  rw [h]
  simp

theorem reaches_cashier (role : Role) : Reaches role .cashier := by
  cases role <;> decide

theorem owner_reaches (r : Role) : Reaches .owner r := by
  cases r <;> decide

/-- A role that does not reach one below the managers is a cashier's. -/
theorem eq_cashier {q r : Role} (h : ¬ Reaches q r) (hr : Reaches .manager r) : q = .cashier := by
  revert h hr
  cases q <;> cases r <;> decide

/-! ### The club -/

theorem Managed.refl (db : Db) : Managed db db := ⟨rfl, rfl, fun _ old h => ⟨old, h, rfl⟩⟩

theorem Managed.trans {db₀ db₁ db₂ : Db} (h : Managed db₀ db₁) (h' : Managed db₁ db₂) :
    Managed db₀ db₂ := by
  refine ⟨h'.rooms.trans h.rooms, h'.computers.trans h.computers, fun id old hold => ?_⟩
  obtain ⟨mid, hmid, heq⟩ := h.customers id old hold
  obtain ⟨new, hnew, heq'⟩ := h'.customers id mid hmid
  exact ⟨new, hnew, heq'.trans heq⟩

theorem described_setStatus (db : Db) (id : Uuid) (status : ComputerStatus) :
    (db.setStatus id status).computers.rows.map described = db.computers.rows.map described := by
  rw [setStatus_computers, List.map_map]
  refine List.map_congr_left fun c _ => ?_
  simp only [Function.comp_apply]
  split_ifs <;> rfl

theorem described_release (db : Db) (id : Uuid) :
    (Sessions.release db id).computers.rows.map described = db.computers.rows.map described := by
  unfold Sessions.release
  split
  · rfl
  · split_ifs
    · exact described_setStatus _ _ _
    · rfl

/-- **No change of the sessions and debt services** touches what a manager describes. -/
theorem managed_change {db db' : Db} (h : Sessions.Change db db') : Managed db db' := by
  have hcustomers : ∀ id old, db.customers.get? id = some old →
      ∃ new, db'.customers.get? id = some new ∧ new.deletedAt = old.deletedAt := by
    rw [h.customers]
    exact fun id old hold => ⟨old, hold, rfl⟩
  refine ⟨h.rooms, ?_, hcustomers⟩
  cases h with
  | opened hstart hid => exact described_setStatus _ _ _
  | ended hs ha hdue hpaid hset => cases hset <;> exact described_release _ _
  | cancelled hs ha => exact described_release _ _
  | _ => rfl

/-- The row of an updated customer keeps its `deleted_at`. -/
theorem savedRow_deletedAt {db : Db} {customer : Services.CustomerEntity} {row : Customer}
    (h : Services.Customers.savedRow db customer = .ok row) :
    row.deletedAt = customer.stored.deletedAt := by
  obtain ⟨row', hcolumns, hcheck⟩ := bind_ok.mp h
  split_ifs at hcheck
  cases hcheck
  obtain ⟨fullName, -, hcolumns⟩ := bind_ok.mp hcolumns
  obtain ⟨isBlocked, -, hcolumns⟩ := bind_ok.mp hcolumns
  cases hcolumns
  rfl

/-- **An update saves a row with the `deleted_at` of the stored one**, or throws. -/
theorem updateCustomer_db (id : UuidText) (dto : Services.UpdateCustomerDto) (w : World) :
    (w.perform (.updateCustomer id dto)).db = w.db ∨ ∃ stored row,
      w.db.customers.get? stored.id = some stored ∧ row.id = stored.id ∧
        row.deletedAt = stored.deletedAt ∧ (w.perform (.updateCustomer id dto)).db =
          { w.db with customers := w.db.customers.set row } := by
  unfold World.perform Services.Customers.update
  dsimp only
  rw [Services.Service.call_bind, Services.call_read]
  cases hstored : w.db.findCustomer id.value with
  | none =>
    simp only [Services.Customers.findById, hstored]
    exact Or.inl trivial
  | some stored =>
    simp only [Services.Customers.findById, hstored]
    rw [Services.Service.call_bind, Services.call_read]
    rcases Services.Customers.checkPhone (dto.phone.join.filter fun phone =>
      some phone ≠ (Services.Customers.ofRow stored).phone) w.db with e | _
    · exact Or.inl rfl
    · dsimp only
      rcases hrow : Services.Customers.savedRow w.db
        (Services.Customers.assign (Services.Customers.ofRow stored) dto) with e | row
      · exact Or.inl (by simp only [Services.Service.call, Services.Customers.save, hrow])
      · refine Or.inr ⟨stored, row, (Services.Customers.get?_found hstored).2,
          Services.Customers.savedRow_ok hrow, savedRow_deletedAt hrow, ?_⟩
        simp only [Services.Service.call, Services.Customers.save, hrow]

/-- The customers of before are those of now. -/
theorem Managed.customers_only {db : Db} {customers : Table Customer.id}
    (h : ∀ id old, db.customers.get? id = some old →
      ∃ new, customers.get? id = some new ∧ new.deletedAt = old.deletedAt) :
    Managed db { db with customers } := ⟨rfl, rfl, h⟩

/-- **A call that a cashier may make** leaves what a manager protects. -/
theorem managed_perform (w : World) {c : Services.Call} (hc : levelOf c = .cashier) :
    Managed w.db (w.perform c).db := by
  have hop : ∀ op, c = .op op → (∀ {db'}, ¬ Services.Administers w.db op db') →
      Managed w.db (w.perform c).db := by
    rintro op rfl hnone
    rcases (Services.step_effect w op).changes with hchanges | hadmin
    · exact Sessions.changes_preserve (fun d => Managed w.db d)
        (fun hchange hd => hd.trans (managed_change hchange)) hchanges (.refl _)
    · exact absurd hadmin hnone
  cases c with
  | op op =>
    refine hop op rfl fun hadmin => ?_
    cases hadmin <;> cases hc
  | createRoom dto newId => cases hc
  | removeRoom id now => cases hc
  | removeCustomer id now => cases hc
  | createCustomer dto newId =>
    rw [World.perform]
    rcases Services.Customers.create_call dto newId w with ⟨e, he⟩ | ⟨hnew, hok⟩
    · rw [he]
      exact .refl _
    · rw [hok]
      refine .customers_only fun id old hold => ⟨old, ?_, rfl⟩
      have hne : id ≠ newId := by
        rintro rfl
        rw [hnew] at hold
        cases hold
      rw [Table.get?_insert_ne hne]
      exact hold
  | updateCustomer id dto =>
    rcases updateCustomer_db id dto w with hsame | ⟨stored, row, hstored, hid, hdeleted, hdb⟩
    · rw [hsame]
      exact .refl _
    · rw [hdb]
      refine .customers_only fun k old hold => ?_
      by_cases hk : k = row.id
      · subst hk
        rw [hid, hstored] at hold
        cases hold
        exact ⟨row, Table.get?_set_self (by rw [hid, hstored]; simp), hdeleted⟩
      · exact ⟨old, by rw [Table.get?_set_ne hk]; exact hold, rfl⟩

theorem corrections_insert {db : Db} {e : DebtTransaction}
    (hid : db.debtTransactions.get? e.id = none) (htype : e.type ≠ .debtCorrection) (db' : Db)
    (h : db'.debtTransactions = db.debtTransactions.insert e) : corrections db' = corrections db := by
  unfold corrections
  rw [h, Table.rows_insert hid, List.filter_append]
  simp [htype]

/-- **A call that is no correction** leaves the corrections. -/
theorem corrections_perform (w : World) {c : Services.Call} (hc : levelOf c ≠ .owner) :
    corrections (w.perform c).db = corrections w.db := by
  have hledger : ∀ {db'}, db'.debtTransactions = w.db.debtTransactions →
      corrections db' = corrections w.db := fun h => by rw [corrections, h, corrections]
  have hperforms := Services.perform_performs w c
  generalize (w.perform c).db = db' at hperforms ⊢
  cases hperforms with
  | op heffect =>
    cases heffect with
    | rejected => rfl
    | started h => exact hledger (Sessions.start_ledger h)
    | extended h =>
      obtain ⟨_, _, _, -, -, -, -, -, rfl⟩ := Sessions.extend_ok.mp h
      rfl
    | ended h =>
      obtain ⟨_, _, _, -, -, -, -, -, hset⟩ := Sessions.endSession_ok.mp h
      rcases hset.ledger with hsame | ⟨customerId, -, hid, hinsert⟩
      · exact hledger hsame
      · exact corrections_insert hid (by simp [Sessions.shortfallRow]) _ hinsert
    | cancelled h =>
      obtain ⟨_, -, -, -, rfl⟩ := Sessions.cancel_ok.mp h
      exact hledger (Sessions.release_debtTransactions _ _)
    | paid h =>
      obtain ⟨_, _, -, -, -, -, -, rfl, hid, rfl⟩ := Debt.recordPayment_ok.mp h
      exact corrections_insert hid (by simp) _ rfl
    | corrected h => exact absurd rfl hc
    | administered h => cases h <;> rfl
  | _ => rfl

/-! ### The accounts -/

/-- What `save` writes over an account it restores. -/
theorem identity_savedUser {db : AuthDb} {entity : UserEntity} {row user : User}
    (h : db.savedUser entity = .ok row) (hsame : Auth.KeepsAccount entity user) :
    identity row = identity user := by
  unfold AuthDb.savedUser at h
  simp only [hsame.fullName, hsame.role, hsame.isActive, Option.getD_some] at h
  obtain ⟨fullName, hfullName, h⟩ := bind_ok.mp h
  obtain ⟨role, hrole, h⟩ := bind_ok.mp h
  obtain ⟨isActive, hisActive, h⟩ := bind_ok.mp h
  obtain ⟨passwordHash, -, h⟩ := bind_ok.mp h
  cases h
  have hname := notNull_ok.mp hfullName
  have hrole := notNull_ok.mp hrole
  have hactive := notNull_ok.mp hisActive
  simp only [Option.some.injEq] at hname hrole hactive
  simp [identity, hsame.id, hsame.email, hsame.deletedAt, hname, hrole, hactive]

/-- **An account that is saved as it was** leaves the accounts as they are. -/
theorem identities_saveUser {db : AuthDb} {entity : UserEntity} {user stored : User}
    (hsame : Auth.KeepsAccount entity user) (hstored : stored ∈ db.users.rows)
    (heq : identity stored = identity user) :
    (db.execSaveUser entity).2.users.rows.map identity = db.users.rows.map identity := by
  unfold AuthDb.execSaveUser
  cases hrow : db.savedUser entity with
  | error e => rfl
  | ok row =>
    have hrow : identity row = identity stored := (identity_savedUser hrow hsame).trans heq.symm
    exact Table.map_put hstored (congrArg Prod.fst hrow) hrow

/-- The other calls on the accounts. -/
theorem exec_users {env : Auth.Env} {s : Auth.Stmt} (hs : ∀ entity, s ≠ .saveUser entity)
    (db : AuthDb) : (Auth.exec env s db).2.users = db.users := by
  cases s with
  | saveUser entity => exact absurd rfl (hs entity)
  | insertToken record =>
    simp only [Auth.exec, AuthDb.execInsertToken]
    split_ifs <;> rfl
  | _ => rfl

/-! ### Runs -/

section Runs

variable {env : Env} {held : String → Prop} {req : Request} {r : Role} {w₀ w : Server} {h : ApiPast}

theorem Kept.refl (r : Role) (w : Server) : Kept r w w :=
  ⟨rfl, rfl, rfl, fun _ => .refl _, fun _ => rfl⟩

/-- A call that touches the accounts only. -/
theorem Kept.accounts_only (hk : Kept r w₀ w) {accounts : AuthDb}
    (hu : accounts.users.rows.map identity = w.accounts.users.rows.map identity) :
    Kept r w₀ { w with accounts } :=
  ⟨hu.trans hk.accounts, hk.settings, hk.corrections, hk.managed, hk.club⟩

/-- An account that is kept is still there. -/
theorem Kept.exists_identity (hk : Kept r w₀ w) {user : User} (hu : user ∈ w.accounts.users.rows) :
    ∃ stored ∈ w₀.accounts.users.rows, identity stored = identity user := by
  have hmem : identity user ∈ w₀.accounts.users.rows.map identity :=
    hk.accounts ▸ List.mem_map_of_mem hu
  exact List.mem_map.mp hmem

/-- An account that was seen at an earlier call is one of the beginning. -/
theorem seen_identity (hpast : ∀ m ∈ h, Kept r w₀ m.2) {user : User}
    (hu : Auth.Seen (accountsPast h) user) :
    ∃ stored ∈ w₀.accounts.users.rows, identity stored = identity user := by
  obtain ⟨m, hm, hfound⟩ := hu
  obtain ⟨⟨s, w'⟩, hm', hmoment⟩ := List.mem_filterMap.mp hm
  have haccounts : w'.accounts = m.2 := by
    cases s with
    | account s =>
      cases hmoment
      rfl
    | _ => cases hmoment
  have hget := (AuthDb.findUser_eq_some.mp hfound).1
  rw [← haccounts] at hget
  exact (hpast _ hm').exists_identity (Table.mem_of_get? hget).1

/-- **Nobody with the role has been seen.** -/
theorem not_reaches_of_vouched (hnone : Unreached r w₀) (hpast : ∀ m ∈ h, Kept r w₀ m.2)
    {claims : AccessTokenClaims} (hv : Auth.Vouched (accountsPast h) claims) :
    ¬ Reaches claims.role r := by
  obtain ⟨user, hu, -, rfl⟩ := hv
  obtain ⟨stored, hstored, heq⟩ := seen_identity hpast hu
  have hrole : stored.role = user.role := congrArg (fun i => i.2.2.2.1) heq
  have hnot : ¬ Reaches user.role r := hrole ▸ hnone stored hstored
  exact hnot

/-- No token held at the beginning is one of the role. -/
def Powerless (env : Env) (held : String → Prop) (r : Role) : Prop :=
  ∀ token time claims, held token → env.verifyAsync token time = some claims →
    ¬ Reaches claims.role r

/-- **No principal has the role.** -/
theorem not_reaches_of_principal (hnone : Unreached r w₀) (hheld : Powerless env held r)
    (hpast : ∀ m ∈ h, Kept r w₀ m.2) {claims : AccessTokenClaims}
    (hp : Principal env held req h claims) : ¬ Reaches claims.role r := by
  obtain ⟨token, w, verified, -, hm, hv, hheldOr⟩ := hp
  rcases hheldOr with htoken | ⟨w', signed, hsigned, -, hvouched⟩
  · exact hheld token _ claims htoken hv
  · refine not_reaches_of_vouched hnone (fun m hm' => hpast m ?_) hvouched
    have hsuffix : signed <:+ h :=
      (((List.suffix_cons ..).trans hsigned).trans (List.suffix_cons ..)).trans hm
    exact hsuffix.subset hm'

/-- **A call that is traced** to a principal without the role keeps what the role protects. -/
theorem Kept.call (hnone : Unreached r w₀) (hheld : Powerless env held r)
    (hpast : ∀ m ∈ h, Kept r w₀ m.2) (hk : Kept r w₀ w) {s : Stmt}
    (hs : Traced env held req h s) : Kept r w₀ (exec env s w).2 := by
  -- a call that requires a role is made for a principal who does not reach `r`
  have hlevel : ∀ {handler q}, s.handler = some handler → handler.required = [q] →
      ¬ Reaches q r := by
    intro handler q hhandler hrequired hq
    obtain ⟨-, claims, hp, hallows, -⟩ := hs.privileged handler hhandler
    exact not_reaches_of_principal hnone hheld hpast hp
      (reaches_trans ((allows_iff hrequired).mp hallows) hq)
  have howner : ∀ {handler}, s.handler = some handler → handler.required = [.owner] → False :=
    fun hhandler hrequired => hlevel hhandler hrequired (owner_reaches r)
  cases s with
  | verifyAsync token => exact hk
  | findSetting key => exact hk
  | other handler => exact hk
  | record entry => exact hk.accounts_only rfl
  | insertUser user => exact (howner rfl rfl).elim
  | softRemoveUser id => exact (howner rfl rfl).elim
  | saveSetting row => exact (howner rfl rfl).elim
  | account s =>
    by_cases hsave : ∃ entity, s = .saveUser entity
    · obtain ⟨entity, rfl⟩ := hsave
      rcases hs.saved entity rfl with ⟨user, hu, hsame⟩ | ⟨-, claims, hp, hallows⟩
      · obtain ⟨stored₀, hstored₀, heq₀⟩ := seen_identity hpast hu
        have hmem : identity stored₀ ∈ w.accounts.users.rows.map identity :=
          hk.accounts ▸ List.mem_map_of_mem hstored₀
        obtain ⟨stored, hstored, heq⟩ := List.mem_map.mp hmem
        exact hk.accounts_only (identities_saveUser hsame hstored (heq.trans heq₀))
      · have hreach : Reaches claims.role .owner := (allows_iff rfl).mp hallows
        exact (not_reaches_of_principal hnone hheld hpast hp
          (reaches_trans hreach (owner_reaches r))).elim
    · exact hk.accounts_only (congrArg (fun t => t.rows.map identity)
        (exec_users (not_exists.mp hsave) _))
  | club c =>
    have hq : ¬ Reaches (levelOf c) r := hlevel rfl (required_level c)
    have hworld : (exec env (.club c) w).2.world = w.world.perform c := callClub_world c w.world
    refine ⟨hk.accounts, hk.settings, ?_, fun hr => ?_, fun hr => ?_⟩
    · rw [hworld, ← hk.corrections]
      refine corrections_perform w.world fun heq => hq ?_
      rw [heq]
      exact owner_reaches r
    · rw [hworld]
      exact (hk.managed hr).trans (managed_perform w.world (eq_cashier hq hr))
    · exact absurd (hr ▸ reaches_cashier _) hq

theorem Unforged.of_cons {m : Stmt × Server} (hun : Unforged env held (m :: h)) :
    Unforged env held h :=
  fun later token w earlier heq => hun (m :: later) token w earlier (by rw [heq]; rfl)

/-- **Privileges do not arise**: from a store in which no account has the privileges of `r`, and in a
run in which no token is forged and none that was held at the beginning is one of `r`, what `r` protects
stays as it is, and so no account has them ever: without an owner, the staff, the settings and the
corrections; without a manager, also the rooms, the computers but for their status, and the customers
that are not removed; without any account, everything in the club. -/
theorem privileges_kept (hnone : Unreached r w₀) (hheld : Powerless env held r)
    {tr : List ApiEvent} {c : ApiConfig}
    (hrun : (system env).Run (fun _ _ => True) (.idle w₀) tr c) (hun : Unforged env held (past tr)) :
    Kept r w₀ c.db ∧ Unreached r c.db := by
  have hkept : Kept r w₀ c.db ∧ ∀ m ∈ past tr, Kept r w₀ m.2 := by
    induction hrun with
    | nil => exact ⟨.refl r w₀, fun m hm => nomatch hm⟩
    | @step tr c c' e hrun hs ha ih =>
      have hall := hrun.step hs ha
      cases hs with
      | arrive q hi => exact ih hun
      | leave hi hv => exact ih hun
      | pass n =>
        obtain ⟨hk, hpast⟩ := ih hun
        exact ⟨hk.accounts_only rfl, hpast⟩
      | @call i p s k hi hv =>
        cases p with
        | pure a => cases hv
        | throw err => cases hv
        | call s' k' =>
          cases hv
          have hnow : past (Event.called i (.call s k) c.db :: tr) = (s, c.db) :: past tr := rfl
          obtain ⟨hk, hpast⟩ := ih (hnow ▸ hun).of_cons
          have hcalled : CalledAfter (Event.called i (.call s k) c.db :: tr) tr i s :=
            ⟨[], k, c.db, rfl⟩
          obtain ⟨q, -, htraced⟩ := traced hall hun hcalled
          rw [hnow]
          refine ⟨hk.call hnone hheld hpast htraced, fun m hm => ?_⟩
          rcases List.mem_cons.mp hm with rfl | hm
          · exact hk
          · exact hpast m hm
  refine ⟨hkept.1, fun user hu => ?_⟩
  obtain ⟨stored, hstored, heq⟩ := hkept.1.exists_identity hu
  have hrole : stored.role = user.role := congrArg (fun i => i.2.2.2.1) heq
  exact hrole ▸ hnone stored hstored

end Runs

/-- A shift without an owner or a manager, with the token of another day. -/
theorem privileges_kept_shift : ∃ c : ApiConfig, Kept .manager oneCashier c.db ∧
    c.db.world.db.customers.rows.map Customer.id = [7, 8] := by
  obtain ⟨tr, c, hrun, hun, hrows, -⟩ := exists_shift
  have hnone : Unreached .manager oneCashier := by
    intro u hu
    rw [List.mem_singleton.mp hu]
    decide
  have hheld : Powerless plainEnv heldOver .manager := by
    rintro token time claims rfl hverified
    cases hverified
    decide
  exact ⟨c, (privileges_kept hnone hheld hrun hun).1, hrows⟩

end GameClub.Api
