import GameClub.Auth.Store
import GameClub.Lib.Past
import GameClub.Realtime.Handshake
import GameClub.Services.Feed
import GameClub.Sessions.Settlement

/-! # The gateway

A client is in the namespace as soon as it has connected, and its handshake is looked at after that.
Every event is sent to all clients in the namespace at that time; so Socket.IO sends what is emitted
on the server. An event about money has a second listener, which emits `analytics.updated` within.

* `handleConnection`: what happens to a client that has connected; `Gateway.emit`: to an event.
* `Since`: what has been told since a client connected; `Delivered`: what a client has received.
* `connected_informed`: in every interleaved run a client has received what was sent while it was
  connected, no more and no less; and when no request is in flight, every client that is still
  connected has a principal, whose token was in its own handshake and was verified. -/

namespace GameClub.Realtime

open GameClub.Lib GameClub.Lib.Interleave GameClub.Common GameClub.Store
open GameClub.Auth (AccessTokenClaims)
open GameClub.Services (World DomainEvent shown lastSession)

/-! ### Clients -/

/-- What is sent to a client: an event, the `analytics.updated` that follows from it, or an error. -/
inductive Message
  | event (event : DomainEvent)
  | analyticsUpdated
  | error (message : String)
deriving DecidableEq

/-- The two listeners of the events that the gateway forwards. -/
inductive Listener
  | gateway
  | analytics

/-- The events of `onFinancialChange`. -/
def Financial : DomainEvent → Bool
  | .sessionEnded _ | .debtCreated _ | .debtUpdated _ => true
  | _ => false

/-- A client; the last message it has received first. -/
structure Client where
  handshake : Handshake
  user : Option AccessTokenClaims
  connected : Bool
  received : List Message

/-- The club, the clock and the clients, in the order of their connections. -/
structure Gateway where
  world : World
  clock : ℤ
  clients : List Client

def Client.emit (message : Message) (client : Client) : Client :=
  if client.connected then { client with received := message :: client.received } else client

def Client.disconnect (client : Client) : Client := { client with connected := false }

/-- `broadcast(envelope)` -/
def Gateway.broadcast (g : Gateway) (message : Message) : Gateway :=
  { g with clients := g.clients.map (Client.emit message) }

/-- The listeners of an event are called one after the other. `onFinancialChange` emits
`analytics.updated`, which the gateway forwards before it returns. -/
def Gateway.emit (g : Gateway) (first : Listener) (event : DomainEvent) : Gateway :=
  if Financial event then
    match first with
    | .gateway => (g.broadcast (.event event)).broadcast .analyticsUpdated
    | .analytics => (g.broadcast .analyticsUpdated).broadcast (.event event)
  else g.broadcast (.event event)

/-- What a call has emitted, the last event first. -/
def emitted (w w' : World) : List DomainEvent :=
  w'.events.take (w'.events.length - w.events.length)

/-- What a request awaits. -/
inductive Stmt
  | accept (handshake : Handshake)
  | verifyAsync (token : String)
  | join (id : ℕ) (payload : AccessTokenClaims)
  | refuse (id : ℕ)
  | disconnect (id : ℕ)
  | call (c : Services.Call)

abbrev Res : Stmt → Type
  | .accept _ => ℕ
  | .verifyAsync _ => Except Thrown AccessTokenClaims
  | _ => Unit

/-- **What is not of this repository**: the verification of a token at a time, and which listener of
an event is called first. -/
structure Env where
  verify : String → ℤ → Except Thrown AccessTokenClaims
  first : Listener

/-- What a call does; a call of a service is one step, with the events it emits. -/
def exec (env : Env) : (s : Stmt) → Gateway → Res s × Gateway
  | .accept handshake, g =>
    (g.clients.length, { g with clients := g.clients ++ [⟨handshake, none, true, []⟩] })
  | .verifyAsync token, g => (env.verify token g.clock, g)
  | .join id payload, g =>
    ((), { g with clients := g.clients.modify id fun client => { client with user := some payload } })
  | .refuse id, g => ((), { g with
    clients := g.clients.modify id fun client => (client.emit (.error "Unauthorized")).disconnect })
  | .disconnect id, g => ((), { g with clients := g.clients.modify id Client.disconnect })
  | .call c, g =>
    let world := g.world.perform c
    ((), (emitted g.world world).foldr (fun event g => g.emit env.first event) { g with world })

abbrev Async (α : Type) := Prog Res Thrown α

def handleConnection (client : ℕ) (handshake : Handshake) : Async Unit :=
  Prog.tryCatch
    (do
      let token ← (liftM (RealtimeGateway.extractToken handshake) : Async String)
      .call (.verifyAsync token) fun payload => do
        let payload ← (liftM (payload : Except Thrown AccessTokenClaims) : Async AccessTokenClaims)
        .call (.join client payload) .pure)
    fun _ => .call (.refuse client) .pure

/-- What happens: a client connects or goes away, or a service is called. -/
inductive Request
  | connect (handshake : Handshake)
  | disconnect (id : ℕ)
  | call (c : Services.Call)

def start : Request → Async Unit
  | .connect handshake => .call (.accept handshake) fun client => handleConnection client handshake
  | .disconnect id => .call (.disconnect id) .pure
  | .call c => .call (.call c) .pure

def system (env : Env) :
    System Res Gateway Request (Except Thrown Unit) (Async Unit) where
  exec := exec env
  start := start
  view := progView
  pass n g := { g with clock := g.clock + n }

/-! ### What is told -/

/-- **What has been told since** the club was `w₀`: the events, and with them the sessions. -/
structure Since (w₀ w : World) (news : List DomainEvent) : Prop where
  events : w.events = news ++ w₀.events
  sessions : ∀ id, shown w.db id = (lastSession news id).or (shown w₀.db id)

theorem Since.refl (w : World) : Since w w [] := ⟨rfl, fun _ => rfl⟩

theorem Since.perform {w₀ w : World} {news : List DomainEvent} (h : Since w₀ w news)
    (c : Services.Call) : Since w₀ (w.perform c) (emitted w (w.perform c) ++ news) := by
  obtain ⟨more, hevents, htold⟩ := Services.perform_tells w c
  have hemitted : emitted w (w.perform c) = more := by
    simp [emitted, hevents]
  rw [hemitted]
  refine ⟨by rw [hevents, h.events, List.append_assoc], fun id => ?_⟩
  rw [htold.sessions id, h.sessions id, Services.lastSession_append, Option.or_assoc]

theorem events_suffix (w : World) (c : Services.Call) : w.events <:+ (w.perform c).events := by
  obtain ⟨more, hevents, -⟩ := Services.perform_tells w c
  exact ⟨more, hevents.symm⟩

/-- **What is sent for an event**, the last message first. -/
def messages (first : Listener) (event : DomainEvent) : List Message :=
  if Financial event then
    match first with
    | .gateway => [.analyticsUpdated, .event event]
    | .analytics => [.event event, .analyticsUpdated]
  else [.event event]

/-- What is sent for the events, the last message first. -/
def forwarded (first : Listener) (news : List DomainEvent) : List Message :=
  news.flatMap (messages first)

/-- **What a client has received**, that connected when the club was `w₀`: what has been told since,
as long as it is connected; what had been told when it left, if it is gone; and an error after that if
it was refused. -/
inductive Delivered (first : Listener) (w₀ w : World) : Client → Prop
  | connected {handshake : Handshake} {user : Option AccessTokenClaims} {news : List DomainEvent}
      (h : Since w₀ w news) : Delivered first w₀ w ⟨handshake, user, true, forwarded first news⟩
  | gone {handshake : Handshake} {user : Option AccessTokenClaims} {w' : World}
      {news : List DomainEvent} (h : Since w₀ w' news) (hpast : w'.events <:+ w.events) :
      Delivered first w₀ w ⟨handshake, user, false, forwarded first news⟩
  | refused {handshake : Handshake} {user : Option AccessTokenClaims} {w' : World}
      {news : List DomainEvent} (h : Since w₀ w' news) (hpast : w'.events <:+ w.events) :
      Delivered first w₀ w
        ⟨handshake, user, false, .error "Unauthorized" :: forwarded first news⟩

section Delivered

variable {first : Listener} {w₀ w : World} {client : Client}

theorem Delivered.join (h : Delivered first w₀ w client) (payload : AccessTokenClaims) :
    Delivered first w₀ w { client with user := some payload } := by
  cases h with
  | connected h => exact .connected h
  | gone h hpast => exact .gone h hpast
  | refused h hpast => exact .refused h hpast

theorem Delivered.disconnect (h : Delivered first w₀ w client) :
    Delivered first w₀ w client.disconnect := by
  cases h with
  | connected h => exact .gone h (List.suffix_refl _)
  | gone h hpast => exact .gone h hpast
  | refused h hpast => exact .refused h hpast

theorem Delivered.refuse (h : Delivered first w₀ w client) :
    Delivered first w₀ w (client.emit (.error "Unauthorized")).disconnect := by
  cases h with
  | connected h => exact .refused h (List.suffix_refl _)
  | gone h hpast => exact .gone h hpast
  | refused h hpast => exact .refused h hpast

/-- Messages are sent to a client. -/
def Client.receive (sent : List Message) (client : Client) : Client :=
  if client.connected then { client with received := sent ++ client.received } else client

theorem Delivered.call (h : Delivered first w₀ w client) (c : Services.Call) :
    Delivered first w₀ (w.perform c)
      (client.receive (forwarded first (emitted w (w.perform c)))) := by
  cases h with
  | @connected handshake user news h =>
    have happend : forwarded first (emitted w (w.perform c)) ++ forwarded first news =
        forwarded first (emitted w (w.perform c) ++ news) := List.flatMap_append.symm
    have hconnected : Delivered first w₀ (w.perform c)
        ⟨handshake, user, true, forwarded first (emitted w (w.perform c) ++ news)⟩ :=
      .connected (h.perform c)
    rw [← happend] at hconnected
    exact hconnected
  | gone h hpast => exact .gone h (hpast.trans (events_suffix w c))
  | refused h hpast => exact .refused h (hpast.trans (events_suffix w c))

end Delivered

theorem receive_nil (client : Client) : client.receive [] = client := by
  unfold Client.receive
  split_ifs <;> rfl

/-- Messages that are sent after others. -/
theorem receive_append (later sent : List Message) (client : Client) :
    (client.receive sent).receive later = client.receive (later ++ sent) := by
  unfold Client.receive
  split_ifs <;> simp

theorem broadcast_eq (g : Gateway) (message : Message) :
    g.broadcast message = { g with clients := g.clients.map (Client.receive [message]) } := rfl

/-- The messages for an event reach all clients that are connected. -/
theorem emit_eq (g : Gateway) (first : Listener) (event : DomainEvent) : g.emit first event =
    { g with clients := g.clients.map (Client.receive (messages first event)) } := by
  have htwo : ∀ m m' : Message,
      (g.clients.map (Client.receive [m])).map (Client.receive [m']) =
        g.clients.map (Client.receive [m', m]) := fun m m' => by
    rw [List.map_map]
    exact List.map_congr_left fun client _ => receive_append [m'] [m] client
  unfold Gateway.emit messages
  simp only [broadcast_eq]
  split_ifs
  · cases first <;> simp only [htwo]
  · rfl

/-- The messages for all events do. -/
theorem emit_all (first : Listener) (news : List DomainEvent) (g : Gateway) :
    news.foldr (fun event g => g.emit first event) g =
      { g with clients := g.clients.map (Client.receive (forwarded first news)) } := by
  induction news with
  | nil =>
    have hsame : g.clients.map (Client.receive (forwarded first [])) = g.clients :=
      (List.map_congr_left fun client _ => receive_nil client).trans (List.map_id _)
    rw [List.foldr_nil, hsame]
  | cons event news ih =>
    rw [List.foldr_cons, ih, emit_eq, List.map_map]
    have hcons : Client.receive (messages first event) ∘ Client.receive (forwarded first news) =
        Client.receive (forwarded first (event :: news)) :=
      funext fun client => receive_append _ _ client
    rw [hcons]

/-! ### One call and one client -/

/-- The club after a call. -/
def worldAfter (w : World) : Stmt → World
  | .call c => w.perform c
  | _ => w

/-- A client after a call, if it is the client `id`. -/
def Client.after (first : Listener) (w : World) (id : ℕ) (s : Stmt) (client : Client) : Client :=
  match s with
  | .join id' payload => if id' = id then { client with user := some payload } else client
  | .refuse id' => if id' = id then (client.emit (.error "Unauthorized")).disconnect else client
  | .disconnect id' => if id' = id then client.disconnect else client
  | .call c => client.receive (forwarded first (emitted w (w.perform c)))
  | _ => client

variable {env : Env} {g : Gateway} {s : Stmt} {id : ℕ} {w₀ : World} {client : Client}

theorem exec_world : (exec env s g).2.world = worldAfter g.world s := by
  cases s with
  | call c =>
    dsimp only [exec]
    rw [emit_all]
    rfl
  | _ => rfl

/-- **What a call does to the clients** that are there: it changes each on its own. -/
theorem exec_kept (h : g.clients[id]? = some client) :
    (exec env s g).2.clients[id]? = some (client.after env.first g.world id s) := by
  have hmodify : ∀ (f : Client → Client) (id' : ℕ), (g.clients.modify id' f)[id]? =
      some (if id' = id then f client else client) := fun f id' => by
    rw [List.getElem?_modify, h]
    rfl
  cases s with
  | accept handshake =>
    exact (List.getElem?_append_left (List.getElem?_eq_some_iff.mp h).1).trans h
  | verifyAsync token => exact h
  | join id' payload => exact hmodify _ id'
  | refuse id' => exact hmodify _ id'
  | disconnect id' => exact hmodify _ id'
  | call c =>
    dsimp only [exec]
    rw [emit_all, List.getElem?_map, h]
    rfl

/-- **A client after a call** was there before, or is new. -/
theorem of_exec {client' : Client} (h : (exec env s g).2.clients[id]? = some client') :
    (∃ client, g.clients[id]? = some client ∧ client' = client.after env.first g.world id s) ∨
      ∃ handshake, s = .accept handshake ∧ id = g.clients.length ∧
        client' = ⟨handshake, none, true, []⟩ := by
  cases hold : g.clients[id]? with
  | some client =>
    rw [exec_kept hold] at h
    exact Or.inl ⟨client, rfl, (Option.some.inj h).symm⟩
  | none =>
    have hlength : g.clients.length ≤ id := List.getElem?_eq_none_iff.mp hold
    have hid : id < (exec env s g).2.clients.length := (List.getElem?_eq_some_iff.mp h).1
    cases s with
    | accept handshake =>
      have heq : id = g.clients.length := by
        have hone : (exec env (.accept handshake) g).2.clients.length = g.clients.length + 1 :=
          List.length_append
        omega
      refine Or.inr ⟨handshake, rfl, heq, ?_⟩
      subst heq
      exact (Option.some.inj (List.getElem?_concat_length.symm.trans h)).symm
    | verifyAsync token => exact absurd hid hlength.not_gt
    | join id' payload =>
      exact absurd (hid.trans_eq (List.length_modify ..)) hlength.not_gt
    | refuse id' => exact absurd (hid.trans_eq (List.length_modify ..)) hlength.not_gt
    | disconnect id' => exact absurd (hid.trans_eq (List.length_modify ..)) hlength.not_gt
    | call c =>
      dsimp only [exec] at hid
      rw [emit_all, List.length_map] at hid
      exact absurd hid hlength.not_gt

theorem Client.receive_handshake (sent : List Message) :
    (client.receive sent).handshake = client.handshake := by
  unfold Client.receive
  split_ifs <;> rfl

/-- A client keeps its handshake. -/
theorem after_handshake : (client.after env.first g.world id s).handshake = client.handshake := by
  cases s with
  | join id' payload => exact apply_ite Client.handshake _ _ _ |>.trans (ite_self _)
  | refuse id' =>
    have hemit : ((client.emit (.error "Unauthorized")).disconnect).handshake = client.handshake := by
      unfold Client.emit
      split_ifs <;> rfl
    exact (apply_ite Client.handshake _ _ _).trans (by rw [hemit, ite_self])
  | disconnect id' => exact apply_ite Client.handshake _ _ _ |>.trans (ite_self _)
  | call c => exact client.receive_handshake _
  | _ => rfl

theorem Delivered.after (h : Delivered env.first w₀ g.world client) :
    Delivered env.first w₀ (worldAfter g.world s) (client.after env.first g.world id s) := by
  cases s with
  | accept handshake => exact h
  | verifyAsync token => exact h
  | join id' payload =>
    dsimp only [Client.after]
    split_ifs
    · exact h.join payload
    · exact h
  | refuse id' =>
    dsimp only [Client.after]
    split_ifs
    · exact h.refuse
    · exact h
  | disconnect id' =>
    dsimp only [Client.after]
    split_ifs
    · exact h.disconnect
    · exact h
  | call c => exact h.call c

/-! ### Handshakes -/

/-- The call that took the client `id` into the namespace, and when. -/
structure AcceptedAs (h : Past Stmt Gateway) (id : ℕ) (handshake : Handshake) (g : Gateway) :
    Prop where
  mem : (.accept handshake, g) ∈ h
  next : g.clients.length = id

/-- **The principal of a handshake**: the claims of a token in it that was verified. -/
def Verified (env : Env) (h : Past Stmt Gateway) (handshake : Handshake)
    (claims : AccessTokenClaims) : Prop :=
  ∃ token g, RealtimeGateway.extractToken handshake = .ok token ∧
    (.verifyAsync token, g) ∈ h ∧ env.verify token g.clock = .ok claims

/-- A principal is that of the client's own handshake. -/
def gatewayLaw (env : Env) : Law Res Gateway where
  exec := exec env
  needs h s := ∀ id payload, s = .join id payload →
    ∃ handshake g, AcceptedAs h id handshake g ∧ Verified env h handshake payload

variable {h h' : Past Stmt Gateway} {handshake : Handshake} {claims : AccessTokenClaims}

theorem AcceptedAs.later (ha : AcceptedAs h id handshake g) (hlater : h <:+ h') :
    AcceptedAs h' id handshake g := ⟨hlater.subset ha.mem, ha.next⟩

theorem Verified.later (hv : Verified env h handshake claims) (hlater : h <:+ h') :
    Verified env h' handshake claims := by
  obtain ⟨token, g, htoken, hmem, hverified⟩ := hv
  exact ⟨token, g, htoken, hlater.subset hmem, hverified⟩

theorem heeds_handleConnection (ha : AcceptedAs h id handshake g) :
    (gatewayLaw env).Heeds (handleConnection id handshake) (fun _ _ => True) h := by
  refine Law.heeds_tryCatch ?_ fun e h' h'' w _ => ⟨fun _ _ heq => (nomatch heq), trivial⟩
  refine Law.heeds_bind (Law.heeds_lift fun token htoken => ?_)
  intro h' w hlater
  refine ⟨fun _ _ heq => (nomatch heq), ?_⟩
  refine Law.heeds_bind (Law.heeds_lift fun payload hpayload => ?_)
  intro h'' w' hlater'
  refine ⟨fun id' payload' heq => ?_, trivial⟩
  cases heq
  have hverified : Verified env ((.verifyAsync token, w) :: h') handshake payload :=
    ⟨token, w, htoken, List.mem_cons_self .., hpayload⟩
  exact ⟨handshake, g, (ha.later hlater).later ((List.suffix_cons ..).trans hlater'),
    hverified.later hlater'⟩

theorem gateway_governs (env : Env) : Law.Governs (fun _ => gatewayLaw env) (system env) where
  exec _ := rfl
  view := rfl
  start q h := by
    cases q with
    | connect handshake =>
      exact fun h' w _ => ⟨fun _ _ heq => (nomatch heq),
        heeds_handleConnection ⟨List.mem_cons_self .., rfl⟩⟩
    | disconnect id => exact fun h' w _ => ⟨fun _ _ heq => (nomatch heq), trivial⟩
    | call c => exact fun h' w _ => ⟨fun _ _ heq => (nomatch heq), trivial⟩

/-! ### Clients that are not settled -/

/-- **The program settles the client**: it makes it a principal, or disconnects it. -/
def Settles (id : ℕ) : Async Unit → Prop
  | .call (.join id' _) _ | .call (.refuse id') _ | .call (.disconnect id') _ => id' = id
  | .call (.verifyAsync _) k => ∀ r, Settles id (k r)
  | _ => False

/-- Every client that the program takes in, it settles. -/
def Welcomes : Async Unit → Prop
  | .call (.accept _) k => ∀ id, Settles id (k id) ∧ Welcomes (k id)
  | .call _ k => ∀ r, Welcomes (k r)
  | _ => True

theorem settles_handleConnection (id : ℕ) (handshake : Handshake) :
    Settles id (handleConnection id handshake) ∧ Welcomes (handleConnection id handshake) := by
  unfold handleConnection
  cases RealtimeGateway.extractToken handshake with
  | error e => exact ⟨rfl, fun _ => trivial⟩
  | ok token =>
    refine ⟨fun r => ?_, fun r => ?_⟩
    · cases r with
      | error e => exact rfl
      | ok payload => exact rfl
    · cases r with
      | error e => exact fun _ => trivial
      | ok payload => exact fun _ => trivial

theorem welcomes_start (q : Request) : Welcomes (start q) := by
  cases q with
  | connect handshake => exact fun id => settles_handleConnection id handshake
  | disconnect id => exact fun _ => trivial
  | call c => exact fun _ => trivial

theorem Welcomes.call {k : Res s → Async Unit} (hp : Welcomes (.call s k)) (r : Res s) :
    Welcomes (k r) := by
  cases s with
  | accept handshake => exact (hp r).2
  | _ => exact hp r

theorem Client.after_connected (hc : (client.after env.first g.world id s).connected = true) :
    client.connected = true := by
  by_contra hnot
  rw [Bool.not_eq_true] at hnot
  have hemit : client.emit (.error "Unauthorized") = client := if_neg (by simp [hnot])
  have hgone : ∀ sent, client.receive sent = client := fun news => if_neg (by simp [hnot])
  cases s <;> simp [Client.after, hemit, hgone, Client.disconnect, hnot, apply_ite] at hc

/-- **A call that settles a client** makes it a principal, or disconnects it. -/
theorem settled_after {k : Res s → Async Unit} (hs : Settles id (.call s k))
    (hc : (client.after env.first g.world id s).connected = true)
    (hu : (client.after env.first g.world id s).user = none) (r : Res s) : Settles id (k r) := by
  cases s with
  | verifyAsync token => exact hs r
  | join id' payload =>
    have hid : id' = id := hs
    rw [Client.after, if_pos hid] at hu
    cases hu
  | refuse id' =>
    have hid : id' = id := hs
    rw [Client.after, if_pos hid] at hc
    cases hc
  | disconnect id' =>
    have hid : id' = id := hs
    rw [Client.after, if_pos hid] at hc
    cases hc
  | accept handshake => exact hs.elim
  | call c => exact hs.elim

/-- A client keeps its principal, but for the call that makes it one. -/
theorem Client.after_user (client : Client) (first : Listener) (w : World) (id : ℕ) (s : Stmt) :
    (client.after first w id s).user = client.user ∨
      ∃ payload, s = .join id payload ∧ (client.after first w id s).user = some payload := by
  have hemit : ∀ message, (client.emit message).user = client.user := fun message => by
    unfold Client.emit
    split_ifs <;> rfl
  have hreceive : ∀ sent, (client.receive sent).user = client.user := fun sent => by
    unfold Client.receive
    split_ifs <;> rfl
  cases s with
  | join id' payload =>
    by_cases hid : id' = id
    · subst hid
      exact Or.inr ⟨payload, rfl, by rw [Client.after, if_pos rfl]⟩
    · exact Or.inl (by rw [Client.after, if_neg hid])
  | refuse id' =>
    rw [Client.after]
    split_ifs
    · exact Or.inl (hemit _)
    · exact Or.inl rfl
  | disconnect id' =>
    rw [Client.after]
    split_ifs <;> exact Or.inl rfl
  | call c => exact Or.inl (hreceive _)
  | _ => exact Or.inl rfl

/-! ### Runs -/

abbrev GatewayEvent := Event Gateway Request (Except Thrown Unit) (Async Unit)

abbrev GatewayConfig := Config Gateway (Async Unit)

/-- **What is known of a client**: what it has received, and who its principal is. -/
structure Informed (env : Env) (h : Past Stmt Gateway) (g : Gateway) (id : ℕ)
    (client : Client) : Prop where
  delivered : ∃ g₀, AcceptedAs h id client.handshake g₀ ∧ Delivered env.first g₀.world g.world client
  verified : ∀ claims, client.user = some claims → Verified env h client.handshake claims

structure GatewayInv (env : Env) (h : Past Stmt Gateway) (c : GatewayConfig) : Prop where
  informed : ∀ id client, c.db.clients[id]? = some client → Informed env h c.db id client
  accepted : ∀ id handshake g, AcceptedAs h id handshake g →
    ∃ client, c.db.clients[id]? = some client ∧ client.handshake = handshake
  settling : ∀ id client, c.db.clients[id]? = some client → client.connected = true →
    client.user = none → c.InFlight (Settles id)
  threads : ∀ i p, c.threads i = some p → Welcomes p

variable {c c' : GatewayConfig} {tr : List GatewayEvent} {e : GatewayEvent} {i : ℕ}

/-- **A client is informed after a call** of its own request or of another. -/
theorem Informed.after (h₁ : Informed env h g id client)
    (hneeds : (gatewayLaw env).needs h s)
    (hown : ∀ handshake g', AcceptedAs h id handshake g' → client.handshake = handshake) :
    Informed env ((s, g) :: h) (exec env s g).2 id (client.after env.first g.world id s) := by
  obtain ⟨⟨g₀, haccepted, hdelivered⟩, hverified⟩ := h₁
  have hlater : h <:+ (s, g) :: h := List.suffix_cons ..
  refine ⟨⟨g₀, ?_, ?_⟩, fun claims hu => ?_⟩
  · rw [after_handshake]
    exact haccepted.later hlater
  · rw [exec_world]
    exact hdelivered.after
  · rw [after_handshake]
    rcases client.after_user env.first g.world id s with hsame | ⟨payload, rfl, hnew⟩
    · exact (hverified claims (hsame.symm.trans hu)).later hlater
    · obtain ⟨handshake, g', hthis, hpayload⟩ := hneeds id payload rfl
      rw [hown handshake g' hthis]
      cases hnew.symm.trans hu
      exact hpayload.later hlater

/-- A client that has just connected. -/
theorem informed_accept (handshake : Handshake) :
    Informed env ((.accept handshake, g) :: h) (exec env (.accept handshake) g).2
      g.clients.length ⟨handshake, none, true, []⟩ :=
  ⟨⟨g, ⟨List.mem_cons_self .., rfl⟩, .connected (.refl _)⟩, fun _ hu => (nomatch hu)⟩

/-- The calls are those the law allows. -/
theorem GatewayInv.call (hinv : GatewayInv env h c) (hneeds : (gatewayLaw env).needs h s)
    {k : Res s → Async Unit} (hi : c.threads i = some (.call s k)) :
    GatewayInv env ((s, c.db) :: h)
      (c.put (exec env s c.db).2 i (some (k (exec env s c.db).1))) := by
  have hwelcomes : Welcomes (.call s k) := hinv.threads i _ hi
  refine ⟨fun id client' hclient' => ?_, fun id handshake g ha => ?_, ?_, fun j p hj => ?_⟩
  · rcases of_exec hclient' with ⟨client, hclient, rfl⟩ | ⟨handshake, rfl, rfl, rfl⟩
    · refine (hinv.informed id client hclient).after hneeds fun handshake g ha => ?_
      obtain ⟨client₂, hclient₂, hhandshake⟩ := hinv.accepted id handshake g ha
      cases hclient.symm.trans hclient₂
      exact hhandshake
    · exact informed_accept handshake
  · obtain ⟨hmem, hnext⟩ := ha
    rcases List.mem_cons.mp hmem with hnew | hold
    · cases hnew
      exact ⟨_, by rw [← hnext]; exact List.getElem?_concat_length, rfl⟩
    · obtain ⟨client, hclient, hhandshake⟩ := hinv.accepted id handshake g ⟨hold, hnext⟩
      exact ⟨_, exec_kept hclient, after_handshake.trans hhandshake⟩
  · intro id client' hclient' hconnected huser
    rcases of_exec hclient' with ⟨client, hclient, rfl⟩ | ⟨handshake, rfl, rfl, rfl⟩
    · have huser' : client.user = none := by
        rcases client.after_user env.first c.db.world id s with hsame | ⟨payload, -, hnew⟩
        · exact hsame.symm.trans huser
        · cases huser.symm.trans hnew
      have hsettling := hinv.settling id client hclient (Client.after_connected hconnected) huser'
      exact Config.inFlight_of_put hi hsettling fun hs => settled_after hs hconnected huser _
    · exact Config.inFlight_put.mpr (Or.inl (hwelcomes _).1)
  · rcases Config.of_put hj with ⟨-, heq⟩ | ⟨-, hold⟩
    · cases heq
      exact hwelcomes.call _
    · exact hinv.threads j p hold

/-- A request that settles a client is not over. -/
theorem Settles.not_done {p : Async Unit} {r : Except Thrown Unit} (hs : Settles id p) :
    progView p ≠ .done r := by
  cases p with
  | pure a => exact hs.elim
  | throw e => exact hs.elim
  | call s k => exact fun heq => nomatch heq

theorem GatewayInv.step (hinv : GatewayInv env (past tr) c) (hs : (system env).Step c e c')
    (hneeds : ∀ i s k, e = .called i (.call s k) c.db → (gatewayLaw env).needs (past tr) s) :
    GatewayInv env (past (e :: tr)) c' := by
  have hother : (∀ i p db, e ≠ .called i p db) → past (e :: tr) = past tr → c'.db.clients =
      c.db.clients → c'.db.world = c.db.world → GatewayInv env (past (e :: tr)) c' := by
    intro hcalled hpast hclients hworld
    obtain ⟨hback, hforth⟩ := hs.of_ne_called hcalled
    rw [hpast]
    refine ⟨fun id client hclient => ?_, fun id handshake g ha => ?_,
      fun id client hclient hconnected huser => ?_, fun j p hj => ?_⟩
    · rw [hclients] at hclient
      obtain ⟨⟨g₀, haccepted, hdelivered⟩, hverified⟩ := hinv.informed id client hclient
      rw [← hworld] at hdelivered
      exact ⟨⟨g₀, haccepted, hdelivered⟩, hverified⟩
    · rw [hclients]
      exact hinv.accepted id handshake g ha
    · rw [hclients] at hclient
      obtain ⟨j, p, hj, hsettles⟩ := hinv.settling id client hclient hconnected huser
      rcases hforth j p hj with hstill | ⟨r, hdone⟩
      · exact ⟨j, p, hstill, hsettles⟩
      · exact absurd hdone hsettles.not_done
    · rcases hback j p hj with hold | ⟨q, rfl⟩
      · exact hinv.threads j p hold
      · exact welcomes_start q
  cases hs with
  | arrive q hi => exact hother (fun _ _ _ heq => (nomatch heq)) rfl rfl rfl
  | @call i p s k hi hv =>
    cases p with
    | pure a => cases hv
    | throw err => cases hv
    | call s' k' =>
      cases hv
      exact hinv.call (hneeds i s k rfl) hi
  | leave hi hv => exact hother (fun _ _ _ heq => (nomatch heq)) rfl rfl rfl
  | pass n => exact hother (fun _ _ _ heq => (nomatch heq)) rfl rfl rfl

/-- **Clients are told what happens, and only principals stay.** In every interleaved run of clients
that come and go and of calls of the services, each of them one step, a client has received what is
sent for the events since it connected, in their order and nothing else, up to now or up to when it
left: each event, and the `analytics.updated` that follows from one about money, after it or before it
by the order of the listeners; so it knows the sessions as they were then. Its principal, if any, is
from a token of its own handshake that was verified; and when no request is in flight, every client
that is still connected has one. -/
theorem connected_informed {w : World} {clock : ℤ}
    (hrun : (system env).Run (fun _ _ => True) (.idle ⟨w, clock, []⟩) tr c) :
    (∀ id client, c.db.clients[id]? = some client → Informed env (past tr) c.db id client) ∧
      (c.Quiet → ∀ client ∈ c.db.clients, client.connected = true →
        ∃ claims, client.user = some claims ∧ Verified env (past tr) client.handshake claims) := by
  have hgoverns := gateway_governs env
  have hinv : GatewayInv env (past tr) c := by
    induction hrun with
    | nil =>
      exact ⟨fun id client hclient => (nomatch hclient), fun id handshake g ha => (nomatch ha.mem),
        fun id client hclient => (nomatch hclient), fun i p hi => (nomatch hi)⟩
    | @step tr c c' e hrun hs ha ih =>
      refine ih.step hs fun i s k heq => ?_
      have hcalled : CalledAfter (e :: tr) tr i s := ⟨[], k, c.db, by rw [heq]; rfl⟩
      obtain ⟨-, -, hneeds⟩ := (Law.run hgoverns (hrun.step hs ha)).needs tr i s hcalled
      exact hneeds
  refine ⟨hinv.informed, fun hq client hmem hconnected => ?_⟩
  obtain ⟨id, hclient⟩ := List.mem_iff_getElem?.mp hmem
  cases huser : client.user with
  | none =>
    obtain ⟨j, p, hj, -⟩ := hinv.settling id client hclient hconnected huser
    rw [hq j] at hj
    cases hj
  | some claims => exact ⟨claims, rfl, (hinv.informed id client hclient).verified claims huser⟩

/-! ### Two clients -/

/-- The claims of a cashier. -/
def cashierClaims : AccessTokenClaims := ⟨7, "cashier@club.uz", .cashier⟩

/-- One token is accepted, and the analytics are told first. -/
def oneToken : Env where
  verify token _ := if token = "t" then .ok cashierClaims else .error (.error "jwt malformed")
  first := .analytics

def noToken : Handshake := ⟨none, none, none⟩

/-- One client has connected without a token and another with one when a session is started; it is
ended, with a shortfall, when the first one is gone. -/
def opening : List (System.Action Request) :=
  [.arrive 0 (.connect noToken), .run 0, .arrive 1 (.connect ⟨some "Bearer t", none, none⟩), .run 1,
    .arrive 2 (.call (.op (.start { Sessions.StartSessionDto.openOn ⟨1, 0⟩ with
      customerId := some ⟨4, 0⟩ } ⟨9⟩ .epoch 50 fun k => 10 + k))), .run 2, .run 2,
    .run 0, .run 0, .run 1, .run 1,
    .arrive 2 (.call (.op (.endSession ⟨10, 0⟩ .inPart ⟨9⟩ ⟨3600000, hour_valid⟩ 60))), .run 2,
    .run 2, .run 1]

/-- What a message is about. -/
def Message.name : Message → String
  | .event (.computerCreated _) => "computer.created"
  | .event (.computerUpdated _) => "computer.updated"
  | .event (.sessionStarted _) => "session.started"
  | .event (.sessionExtended _) => "session.extended"
  | .event (.sessionEnded _) => "session.ended"
  | .event (.debtCreated _) => "debt.created"
  | .event (.debtUpdated _) => "debt.updated"
  | .analyticsUpdated => "analytics.updated"
  | .error _ => "error"

/-- What a client has received, and what is known of it. -/
def Client.summary (client : Client) : List String × Bool × Bool :=
  (client.received.reverse.map Message.name, client.connected, client.user.isSome)

def openingSummary : List (List String × Bool × Bool) :=
  [(["session.started", "error"], false, false),
    (["session.started", "analytics.updated", "session.ended", "analytics.updated", "debt.created"],
      true, true)]

/-- **Both clients have received the start**, and the one with a token what came after it. -/
theorem connected_informed_opening : ∃ (tr : List GatewayEvent) (c : GatewayConfig),
    (system oneToken).Run (fun _ _ => True) (.idle ⟨⟨Sessions.openClub, []⟩, 0, []⟩) tr c ∧
      c.db.clients.map Client.summary = openingSummary ∧ c.Quiet ∧
      (∀ id client, c.db.clients[id]? = some client → Informed oneToken (past tr) c.db id client) ∧
      ∀ client ∈ c.db.clients, client.connected = true → ∃ claims, client.user = some claims ∧
        Verified oneToken (past tr) client.handshake claims := by
  obtain ⟨tr, c, hrun, hcheck, hthreads⟩ := System.exists_run (S := system oneToken)
    (A := fun _ _ => True) (fun _ _ => true) 3 (fun _ _ _ _ => trivial)
    ⟨⟨Sessions.openClub, []⟩, 0, []⟩ opening
    (fun x => decide (x.2.db.clients.map Client.summary = openingSummary) && x.2.allOver 3)
    (by decide) (by decide +kernel)
  obtain ⟨hsummary, hover⟩ := Bool.and_eq_true_iff.mp hcheck
  have hquiet := Config.quiet_of_allOver hover hthreads
  obtain ⟨hinformed, hsettled⟩ := connected_informed hrun
  exact ⟨tr, c, hrun, of_decide_eq_true hsummary, hquiet, hinformed, hsettled hquiet⟩

end GameClub.Realtime
