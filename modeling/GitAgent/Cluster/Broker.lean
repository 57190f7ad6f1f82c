import GitAgent.Library.Exchange
import GitAgent.Library.Guard
import GitAgent.Hub.Outbox

/-!
# The broker between the hub and the runners

The hub publishes the events on a durable topic exchange (`Publisher` in
`internal/hub/adapters/rabbitmq/publisher.go`, over `pkg/rabbitmq`), one at a time; before the first
publication over a connection it declares the exchange and a queue. The runners declare the exchange and
a queue of their own, and consume that one together (`infra/rabbit.py`). Every call to the broker may
fail, with its effect or without, and every connection may be lost at any time.
-/

namespace Cluster.Broker

open Transition (System)
open Hub.OutboxService (Reply)

variable {α : Type}

/-! ### The calls -/

/-- The exchange of the events (`_exchangeName`, `EXCHANGE`). -/
def exchangeName : String := "events"

/-- The queue that the hub declares (`_queueName`). -/
def queueName : String := "events.all"

/-- `_bindingKey`. -/
def bindingKey : String := "#"

/-- The queue of the runners (`QUEUE`). -/
def runnersQueue : String := "events.runners"

/-- `_retryTimes`. -/
def retryTimes : ℕ := 5

/-- A call over a connection; `dial` opens it, and is repeated a number of times if it fails. -/
inductive Call (α : Type)
  | dial (retries : ℕ)
  | channel
  | exchangeDeclare (exchange : String)
  | queueDeclare (queue : String)
  | queueBind (queue key exchange : String)
  | qos
  | close
  | confirm
  | publish (exchange key : String) (body : α)
  | consume (queue : String)
  deriving DecidableEq, Repr

/-- What a call asks of the broker. -/
def Call.request : Call α → Exchange.Request α
  | .exchangeDeclare exchange => .declareExchange exchange
  | .queueDeclare queue => .declareQueue queue
  | .queueBind queue key exchange => .bind queue key exchange
  | .publish exchange key body => .publish exchange key body
  | .dial _ | .channel | .qos | .close | .confirm | .consume _ => .session

/-- The message that a call publishes. -/
def Call.bodies : Call α → List α
  | .publish _ _ body => [body]
  | _ => []

/-- The call that is made again if it fails. -/
def Call.again : Call α → Option (Call α)
  | .dial (retries + 1) => some (.dial retries)
  | _ => none

/-- `createChannel`. -/
def createChannel : List (Call α) :=
  [.channel, .exchangeDeclare exchangeName, .queueDeclare queueName,
    .queueBind queueName bindingKey exchangeName, .qos]

/-- `DeclareTopology`. -/
def declareTopology : List (Call α) :=
  createChannel ++ [.close]

/-- `NewPublisher`. -/
def newPublisher : List (Call α) :=
  [.channel, .confirm, .exchangeDeclare exchangeName]

/-- What `ensure` does over the connection that it opened. -/
def topology : List (Call α) :=
  declareTopology ++ newPublisher

/-- `ensure`, where there is no open connection. -/
def ensure : List (Call α) :=
  .dial retryTimes :: topology

/-- `consume_events`, up to the loop over the messages. -/
def consumeEvents : List (Call α) :=
  [.dial 0, .channel, .exchangeDeclare exchangeName, .queueDeclare runnersQueue,
    .queueBind runnersQueue "#" exchangeName, .consume runnersQueue]

/-! ### The system -/

/-- A call of `Publish` that holds the lock, with the calls to the broker that are left. -/
structure Publishing (α : Type) where
  routingKey : String
  body : α
  calls : List (Call α)

/-- Where a runner is in `consume_events`. -/
inductive Consumer (α : Type)
  | declaring (calls : List (Call α))
  | consuming

/-- The broker, the publisher of the hub and the consumers of the runners. What the broker routed, what
was confirmed to the hub, and which runner was handed which message, is kept as an account. -/
structure State (α : Type) where
  broker : Exchange α := {}
  connected : Bool := false
  publishing : Option (Publishing α) := none
  runners : ℕ → Option (Consumer α) := fun _ => none
  routed : List α := []
  confirmed : List α := []
  handed : List (ℕ × α) := []

/-- The hub publishes, its next call to the broker ends, or it loses its connection; a runner starts to
consume, its next call ends, it is handed a message, or it stops or loses its connection. -/
inductive Action (α : Type)
  | publish (routingKey : String) (body : α)
  | call (reply : Reply)
  | disconnect
  | start (R : ℕ)
  | declare (R : ℕ) (reply : Reply)
  | deliver (R : ℕ)
  | stop (R : ℕ)

namespace State

variable (s : State α)

/-- The effect of a call, unless the broker refuses it. -/
def perform (c : Call α) : Option (State α) :=
  (s.broker.handle c.request).map fun broker => { s with broker, routed := s.routed ++ c.bodies }

/-- The state after a call that failed. -/
def fail (c : Call α) (effect : Bool) : State α :=
  if effect then (s.perform c).getD s else s

/-- A runner is somewhere else. -/
def setRunner (R : ℕ) (r : Option (Consumer α)) : State α :=
  { s with runners := Function.update s.runners R r }

/-- The calls of `Publish`, which opens a connection if there is none. -/
def publishCalls (routingKey : String) (body : α) : List (Call α) :=
  (if s.connected then [] else ensure) ++ [.publish exchangeName routingKey body]

/-- The publisher after its next call. `NewRabbitMQConn` dials again as long as it may; after any other
error the connection is closed, and the publication has failed. -/
def call (p : Publishing α) (c : Call α) (rest : List (Call α)) : Reply → Option (State α)
  | .ok =>
      (s.perform c).map fun s =>
        if rest.isEmpty then
          { s with connected := true, publishing := none, confirmed := s.confirmed ++ [p.body] }
        else { s with publishing := some { p with calls := rest } }
  | .failed effect =>
      match c.again with
      | some c => some { s with publishing := some { p with calls := c :: rest } }
      | none => some { s.fail c effect with connected := false, publishing := none }

/-- A runner after its next call; after an error it is gone. -/
def declare (R : ℕ) (c : Call α) (rest : List (Call α)) : Reply → Option (State α)
  | .ok =>
      (s.perform c).map fun s =>
        s.setRunner R (some (if rest.isEmpty then .consuming else .declaring rest))
  | .failed effect => some ((s.fail c effect).setRunner R none)

/-- One step. -/
def step : Action α → Option (State α)
  | .publish routingKey body =>
      if s.publishing.isNone then
        some { s with publishing := some ⟨routingKey, body, s.publishCalls routingKey body⟩ }
      else none
  | .call reply =>
      match s.publishing with
      | some ⟨routingKey, body, c :: rest⟩ => s.call ⟨routingKey, body, c :: rest⟩ c rest reply
      | _ => none
  | .disconnect => if s.publishing.isNone then some { s with connected := false } else none
  | .start R =>
      match s.runners R with
      | none => some (s.setRunner R (some (.declaring consumeEvents)))
      | some _ => none
  | .declare R reply =>
      match s.runners R with
      | some (.declaring (c :: rest)) => s.declare R c rest reply
      | _ => none
  | .deliver R =>
      match s.runners R with
      | some .consuming =>
          (s.broker.take runnersQueue).map fun (m, broker) =>
            { s with broker, handed := s.handed ++ [(R, m)] }
      | _ => none
  | .stop R => some (s.setRunner R none)

/-- What the runners were handed, and what waits for them. -/
def reached : List α :=
  s.handed.map Prod.snd ++ s.broker.messages runnersQueue

/-- What is routed by a step. -/
def routes : Action α → List α
  | .call reply =>
      match s.publishing with
      | some ⟨_, _, c :: _⟩ => if reply.effect then c.bodies else []
      | _ => []
  | _ => []

end State

/-- The broker, the hub and the runners, at first with nothing declared. -/
def system : System (State α) (Action α) where
  init s := s = {}
  step := State.step

/-! ### What a call does -/

variable {s s' : State α} {c : Call α}

/-- The calls that only declare: they publish nothing, and bind the queue of the runners to receive
every event, if they bind it. -/
structure Call.Declares (c : Call α) : Prop where
  bodies : c.bodies = []
  request : ∀ e k m, c.request ≠ .publish e k m
  bind : ∀ p e, c.request = .bind runnersQueue p e → p = "#" ∧ e = exchangeName

theorem declares_dial (n : ℕ) :
  (Call.dial n : Call α).Declares
  := ⟨rfl, by simp [Call.request], by simp [Call.request]⟩

theorem declares_of_mem_topology (h : c ∈ (topology : List (Call α))) :
  c.Declares
  := by
  simp only [topology, declareTopology, createChannel, newPublisher, List.cons_append,
    List.nil_append, List.mem_cons, List.not_mem_nil, or_false] at h
  rcases h with rfl | rfl | rfl | rfl | rfl | rfl | rfl | rfl | rfl <;>
    exact ⟨rfl, by simp [Call.request], by simp [Call.request, queueName, runnersQueue]⟩

theorem declares_of_mem_consumeEvents (h : c ∈ (consumeEvents : List (Call α))) :
  c.Declares
  := by
  simp only [consumeEvents, List.mem_cons, List.not_mem_nil, or_false] at h
  rcases h with rfl | rfl | rfl | rfl | rfl | rfl <;>
    exact ⟨rfl, by simp [Call.request], by simp +contextual [Call.request]⟩

/-- What a step leaves of the account: what was routed is in the queue of the hub, and has reached the
runners if their queue was bound. -/
structure Accounts (s s' : State α) (routes : List α) : Prop where
  grows : s.broker.Grows s'.broker
  routed : s'.routed = s.routed ++ routes
  all : s'.broker.messages queueName = s.broker.messages queueName ++ routes
  reached : s'.reached =
    s.reached ++ (if s.broker.Bound runnersQueue exchangeName then routes else [])
  unbound : s.broker.Unbound runnersQueue →
    s'.broker.Bound runnersQueue exchangeName ∨ s'.broker.Unbound runnersQueue

/-- A step that leaves the broker and the account as they are. -/
theorem Accounts.of_eq (hb : s'.broker = s.broker) (hr : s'.routed = s.routed)
    (hh : s'.handed = s.handed) :
  Accounts s s' []
  := by
  constructor
  · rw [hb]
    apply Exchange.Grows.refl
  · rw [hr, List.append_nil]
  · rw [hb, List.append_nil]
  · rw [State.reached, State.reached, hb, hh, ite_self, List.append_nil]
  · rw [hb]
    exact Or.inr

/-- The account of a state is that of one with the same broker. -/
theorem Accounts.congr {s'' : State α} {routes : List α} (h : Accounts s s' routes)
    (hb : s''.broker = s'.broker) (hr : s''.routed = s'.routed) (hh : s''.handed = s'.handed) :
  Accounts s s'' routes
  := by
  obtain ⟨hgrows, hrouted, hall, hreached, hunbound⟩ := h
  rw [State.reached] at hreached
  constructor
  · rw [hb]
    apply hgrows
  · rw [hr, hrouted]
  · rw [hb, hall]
  · rw [State.reached, hb, hh, hreached]
  · rw [hb]
    apply hunbound

theorem perform_eq_some (h : s.perform c = some s') :
  ∃ broker, s.broker.handle c.request = some broker ∧
    s' = { s with broker, routed := s.routed ++ c.bodies }
  := by
  obtain ⟨broker, hb, rfl⟩ := Option.map_eq_some_iff.mp h
  exact ⟨broker, hb, rfl⟩

/-- A declaration. -/
theorem accounts_declare (hc : c.Declares) (h : s.perform c = some s') :
  Accounts s s' []
  := by
  obtain ⟨broker, hb, rfl⟩ := perform_eq_some h
  have hmessages := Exchange.messages_handle hc.request hb
  constructor
  · apply Exchange.grows_handle hb
  · dsimp only
    rw [hc.bodies]
  · rw [List.append_nil, ← hmessages]
  · rw [State.reached, State.reached, hmessages, ite_self, List.append_nil]
  · intro hunbound
    by_cases hbind : ∃ p e, c.request = .bind runnersQueue p e
    · obtain ⟨p, e, hbind⟩ := hbind
      obtain ⟨rfl, rfl⟩ := hc.bind p e hbind
      left
      rw [Exchange.Bound, ← hbind]
      apply Exchange.holds_handle hb
    · right
      apply hunbound.handle _ hb
      intro p e hr
      apply hbind ⟨p, e, hr⟩

/-- A publication, when the hub's queue is bound. -/
theorem accounts_publish {key : String} {body : α} (hall : s.broker.Bound queueName exchangeName)
    (htied : s.broker.Bound runnersQueue exchangeName ∨ s.broker.Unbound runnersQueue)
    (h : s.perform (.publish exchangeName key body) = some s') :
  Accounts s s' [body]
  := by
  obtain ⟨broker, hb, rfl⟩ := perform_eq_some h
  have hgrows := Exchange.grows_handle hb
  have hkept := fun hunbound : s.broker.Unbound runnersQueue => hunbound.handle (by simp [Call.request]) hb
  rw [Call.request, Exchange.handle, Option.ite_none_right_eq_some] at hb
  obtain rfl := Option.some.inj hb.2
  constructor
  · apply hgrows
  · rfl
  · apply Exchange.messages_route_of_bound hall
  · rw [State.reached, State.reached]
    split_ifs with hbound
    · rw [Exchange.messages_route_of_bound hbound, List.append_assoc]
    · rw [Exchange.messages_route_of_unbound (htied.resolve_left hbound), List.append_nil]
  · exact fun hunbound => .inr (hkept hunbound)

/-! ### Every run -/

/-- What calls asked for is there. -/
def Declared (broker : Exchange α) (calls : List (Call α)) : Prop :=
  ∀ c ∈ calls, broker.Holds c.request

theorem Declared.grows {broker broker' : Exchange α} {calls : List (Call α)}
    (h : Declared broker calls) (hg : broker.Grows broker') :
  Declared broker' calls
  := fun c hc => hg.holds (h c hc)

/-- The calls that are left are the last of those to be made, and what the others asked for is there. -/
def Left (broker : Exchange α) (all calls : List (Call α)) : Prop :=
  ∃ made, made ++ calls = all ∧ Declared broker made

theorem Left.grows {broker broker' : Exchange α} {all calls : List (Call α)}
    (h : Left broker all calls) (hg : broker.Grows broker') :
  Left broker' all calls
  := by
  obtain ⟨made, hmade, hd⟩ := h
  exact ⟨made, hmade, hd.grows hg⟩

/-- After one call, the rest is left. -/
theorem Left.rest {broker broker' : Exchange α} {all rest : List (Call α)}
    (h : Left broker all (c :: rest)) (hg : broker.Grows broker') (hc : broker'.Holds c.request) :
  Left broker' all rest
  := by
  obtain ⟨made, hmade, hd⟩ := h
  refine ⟨made ++ [c], by rw [List.append_assoc, List.singleton_append, hmade], ?_⟩
  intro c' hc'
  rcases List.mem_append.mp hc' with hc' | hc'
  · apply hd.grows hg c' hc'
  · rw [List.mem_singleton.mp hc']
    apply hc

theorem Left.mem {broker : Exchange α} {all rest : List (Call α)} (h : Left broker all (c :: rest)) :
  c ∈ all
  := by
  obtain ⟨made, rfl, -⟩ := h
  apply List.mem_append_right _ List.mem_cons_self

/-- Calls each of which needs only what those before it asked for, or what is given. -/
def Ordered : List (Exchange.Request α) → List (Call α) → Prop
  | _, [] => True
  | given, c :: calls => c.request.needs ⊆ given ∧ Ordered (c.request :: given) calls

theorem Ordered.needs {given : List (Exchange.Request α)} {made rest : List (Call α)}
    (h : Ordered given (made ++ c :: rest)) {r : Exchange.Request α} (hr : r ∈ c.request.needs) :
  r ∈ given ∨ ∃ d ∈ made, d.request = r
  := by
  induction made generalizing given with
  | nil => exact .inl (h.1 hr)
  | cons d made ih =>
      rcases ih h.2 with hgiven | ⟨d', hd', hreq⟩
      · rcases List.mem_cons.mp hgiven with rfl | hgiven
        · exact .inr ⟨d, List.mem_cons_self, rfl⟩
        · exact .inl hgiven
      · exact .inr ⟨d', List.mem_cons_of_mem _ hd', hreq⟩

/-- The next of ordered calls is not refused. -/
theorem Left.isSome_perform {all rest : List (Call α)} (h : Left s.broker all (c :: rest))
    (ho : Ordered [] all) :
  (s.perform c).isSome = true
  := by
  obtain ⟨made, rfl, hd⟩ := h
  rw [State.perform, Option.isSome_map]
  apply Exchange.isSome_handle
  intro r hr
  rcases ho.needs hr with hnone | ⟨d, hd', rfl⟩
  · contradiction
  · apply hd d hd'

/-- The calls of a publication, after the connection was dialled some times. -/
def publication (retries : ℕ) (key : String) (body : α) : List (Call α) :=
  .dial retries :: (topology ++ [.publish exchangeName key body])

theorem ordered_publication (n : ℕ) (key : String) (body : α) :
  Ordered [] (publication n key body)
  := by
  simp [publication, topology, declareTopology, createChannel, newPublisher, Ordered, Call.request,
    Exchange.Request.needs]

theorem ordered_consumeEvents :
  Ordered [] (consumeEvents : List (Call α))
  := by
  simp [consumeEvents, Ordered, Call.request, Exchange.Request.needs]

/-- The last call of a publication publishes, when all is declared; the others declare. -/
theorem Left.publication {broker : Exchange α} {n : ℕ} {key : String} {body : α}
    {rest : List (Call α)} (h : Left broker (publication n key body) (c :: rest)) :
  rest ≠ [] ∧ c.Declares ∨
    rest = [] ∧ c = .publish exchangeName key body ∧ Declared broker topology
  := by
  obtain ⟨made, hmade, hd⟩ := h
  rw [Broker.publication, ← List.cons_append] at hmade
  rcases rest.eq_nil_or_concat with rfl | ⟨rest, d, rfl⟩
  · obtain ⟨rfl, hc⟩ := List.append_inj' hmade rfl
    refine .inr ⟨rfl, (List.cons.inj hc).1, fun c' hc' => ?_⟩
    apply hd c' (List.mem_cons_of_mem _ hc')
  · refine .inl ⟨by simp, ?_⟩
    rw [List.concat_eq_append, ← List.cons_append, ← List.append_assoc] at hmade
    have hmem : c ∈ (.dial n :: topology : List (Call α)) := by
      rw [← (List.append_inj' hmade rfl).1]
      apply List.mem_append_right _ List.mem_cons_self
    rcases List.mem_cons.mp hmem with rfl | hmem
    · apply declares_dial
    · apply declares_of_mem_topology hmem

/-- The hub's queue is bound when the hub has declared it. -/
theorem Declared.bound {broker : Exchange α} (h : Declared broker (topology : List (Call α))) :
  broker.Bound queueName exchangeName
  := by
  apply h (.queueBind queueName bindingKey exchangeName)
  simp [topology, declareTopology, createChannel]

/-- What holds in every state of a run. -/
structure Sound (s : State α) : Prop where
  connected : s.connected = true → Declared s.broker topology
  publishing : ∀ p, s.publishing = some p →
    ∃ n, Left s.broker (publication n p.routingKey p.body) p.calls
  runners : ∀ R calls, s.runners R = some (.declaring calls) → Left s.broker consumeEvents calls
  all : s.broker.messages queueName = s.routed
  reached : ∃ missed, s.routed = missed ++ s.reached
  tied : s.broker.Bound runnersQueue exchangeName ∨
    s.broker.Unbound runnersQueue ∧ s.reached = []
  confirmed : s.confirmed.Sublist s.routed

theorem Sound.tied' (h : Sound s) :
  s.broker.Bound runnersQueue exchangeName ∨ s.broker.Unbound runnersQueue
  := h.tied.imp_right And.left

/-- The account stays true under a step that keeps it. -/
structure Kept (s s' : State α) (routes : List α) : Prop extends Accounts s s' routes where
  confirmed : s'.confirmed = s.confirmed ∨ s'.confirmed = s.confirmed ++ routes
  connected : s'.connected = true → Declared s'.broker topology
  publishing : ∀ p, s'.publishing = some p →
    ∃ n, Left s'.broker (publication n p.routingKey p.body) p.calls
  runners : ∀ R calls, s'.runners R = some (.declaring calls) → Left s'.broker consumeEvents calls

theorem Kept.sound {routes : List α} (h : Kept s s' routes) (hs : Sound s) :
  Sound s'
  := by
  constructor
  · apply h.connected
  · apply h.publishing
  · apply h.runners
  · rw [h.all, hs.all, h.routed]
  · obtain ⟨missed, hmissed⟩ := hs.reached
    rw [h.routed, h.reached]
    rcases hs.tied with hbound | ⟨hunbound, hnone⟩
    · rw [if_pos hbound, hmissed]
      exact ⟨missed, by rw [List.append_assoc]⟩
    · by_cases hbound : s.broker.Bound runnersQueue exchangeName
      · rw [if_pos hbound, hmissed]
        exact ⟨missed, by rw [List.append_assoc]⟩
      · rw [if_neg hbound, hnone]
        exact ⟨s.routed ++ routes, by rw [List.append_nil, List.append_nil]⟩
  · rcases hs.tied with hbound | ⟨hunbound, hnone⟩
    · exact .inl (h.grows.holds hbound)
    · by_cases hbound : s.broker.Bound runnersQueue exchangeName
      · exact .inl (h.grows.holds hbound)
      · refine (h.unbound hunbound).imp_right fun hu => ⟨hu, ?_⟩
        rw [h.reached, if_neg hbound, hnone, List.append_nil]
  · rw [h.routed]
    rcases h.confirmed with hc | hc
    · rw [hc]
      apply hs.confirmed.trans (List.sublist_append_left ..)
    · rw [hc]
      apply hs.confirmed.append (List.Sublist.refl _)

/-! ### One step -/

/-- The next call of a publication. -/
theorem accounts_call {n : ℕ} {key : String} {body : α} {rest : List (Call α)} (hs : Sound s)
    (hl : Left s.broker (publication n key body) (c :: rest)) (h : s.perform c = some s') :
  Accounts s s' c.bodies
  := by
  rcases hl.publication with ⟨-, hc⟩ | ⟨-, rfl, hd⟩
  · rw [hc.bodies]
    apply accounts_declare hc h
  · apply accounts_publish hd.bound hs.tied' h

/-- A call that failed, with its effect or without. -/
theorem accounts_fail {all rest : List (Call α)} (ho : Ordered [] all)
    (hl : Left s.broker all (c :: rest))
    (h : ∀ s', s.perform c = some s' → Accounts s s' c.bodies) (effect : Bool) :
  Accounts s (s.fail c effect) (if effect then c.bodies else [])
  := by
  cases effect with
  | false => apply Accounts.of_eq rfl rfl rfl
  | true =>
      obtain ⟨t, ht⟩ := Option.isSome_iff_exists.mp (hl.isSome_perform ho)
      rw [State.fail, if_pos rfl, if_pos rfl, ht]
      apply h t ht

/-- A call changes neither where the others are nor what was confirmed. -/
theorem fail_fields (effect : Bool) :
  (s.fail c effect).runners = s.runners ∧ (s.fail c effect).connected = s.connected ∧
    (s.fail c effect).publishing = s.publishing ∧ (s.fail c effect).confirmed = s.confirmed
  := by
  rw [State.fail]
  split_ifs
  · cases h : s.perform c with
    | none => exact ⟨rfl, rfl, rfl, rfl⟩
    | some t =>
        obtain ⟨broker, -, rfl⟩ := perform_eq_some h
        exact ⟨rfl, rfl, rfl, rfl⟩
  · exact ⟨rfl, rfl, rfl, rfl⟩

/-- What the parties know of the broker stays true when it grows. -/
theorem Sound.grows (h : Sound s) (hg : s.broker.Grows s'.broker) :
  (s.connected = true → Declared s'.broker topology) ∧
    (∀ p, s.publishing = some p → ∃ n, Left s'.broker (publication n p.routingKey p.body) p.calls) ∧
    (∀ R calls, s.runners R = some (.declaring calls) → Left s'.broker consumeEvents calls)
  := by
  refine ⟨fun hc => (h.connected hc).grows hg, fun p hp => ?_, fun R calls hR => ?_⟩
  · obtain ⟨n, hl⟩ := h.publishing p hp
    exact ⟨n, hl.grows hg⟩
  · apply (h.runners R calls hR).grows hg

/-- A runner that is somewhere else. -/
theorem runners_setRunner {broker : Exchange α} {R : ℕ} {r : Option (Consumer α)}
    (h : ∀ R calls, s.runners R = some (.declaring calls) → Left broker consumeEvents calls)
    (hr : ∀ calls, r = some (.declaring calls) → Left broker consumeEvents calls) :
  ∀ R' calls, (s.setRunner R r).runners R' = some (.declaring calls) →
    Left broker consumeEvents calls
  := by
  intro R' calls h'
  rw [show (s.setRunner R r).runners R' = if R' = R then r else s.runners R' from
    Function.update_apply ..] at h'
  split_ifs at h'
  · apply hr calls h'
  · apply h R' calls h'

/-- What becomes of a publication whose next call failed. -/
theorem call_failed {p : Publishing α} {rest : List (Call α)} {effect : Bool}
    (h : s.call p c rest (.failed effect) = some s') :
  (∃ k, c = .dial (k + 1) ∧
    s' = { s with publishing := some { p with calls := .dial k :: rest } }) ∨
    s' = { s.fail c effect with connected := false, publishing := none }
  := by
  rw [State.call] at h
  cases hagain : c.again with
  | none =>
      simp only [hagain] at h
      exact .inr (Option.some.inj h).symm
  | some c' =>
      simp only [hagain] at h
      left
      unfold Call.again at hagain
      split at hagain
      · obtain rfl := Option.some.inj hagain
        exact ⟨_, rfl, (Option.some.inj h).symm⟩
      · contradiction

/-- Dialling again. -/
theorem left_dial {broker : Exchange α} {n k : ℕ} {key : String} {body : α} {rest : List (Call α)}
    (h : Left broker (publication n key body) (.dial k :: rest)) (m : ℕ) :
  Left broker (publication m key body) (.dial m :: rest)
  := by
  obtain ⟨made, hmade, -⟩ := h
  cases made with
  | nil =>
      refine ⟨[], ?_, fun _ hc => absurd hc List.not_mem_nil⟩
      rw [List.nil_append, publication, (List.cons.inj hmade).2]
  | cons d made =>
      have hmem : Call.dial k ∈ topology ++ [.publish exchangeName key body] := by
        rw [← (List.cons.inj hmade).2]
        apply List.mem_append_right _ List.mem_cons_self
      simp [topology, declareTopology, createChannel, newPublisher] at hmem

/-- `Publish` is called. -/
theorem kept_publish {key : String} {body : α} (hs : Sound s)
    (h : s.step (.publish key body) = some s') :
  Kept s s' []
  := by
  rw [State.step, Option.ite_none_right_eq_some] at h
  obtain rfl := Option.some.inj h.2
  refine ⟨.of_eq rfl rfl rfl, .inl rfl, hs.connected, fun p hp => ?_, hs.runners⟩
  obtain rfl := Option.some.inj hp
  refine ⟨retryTimes, ?_⟩
  rw [State.publishCalls]
  split_ifs with hc
  · refine ⟨ensure, rfl, fun c hc' => ?_⟩
    rcases List.mem_cons.mp hc' with rfl | hc'
    · trivial
    · apply hs.connected hc c hc'
  · exact ⟨[], rfl, fun _ hc => absurd hc List.not_mem_nil⟩

/-- A call of the publisher ends. -/
theorem kept_call {reply : Reply} (hs : Sound s) (h : s.step (.call reply) = some s') :
  Kept s s' (s.routes (.call reply))
  := by
  rw [State.step] at h
  rw [State.routes]
  cases hp : s.publishing with
  | none =>
      rw [hp] at h
      contradiction
  | some p =>
      obtain ⟨key, body, calls⟩ := p
      cases calls with
      | nil =>
          rw [hp] at h
          contradiction
      | cons c rest =>
          simp only [hp] at h ⊢
          obtain ⟨n, hl⟩ := hs.publishing _ hp
          dsimp only at hl
          have hcall : ∀ t, s.perform c = some t → Accounts s t c.bodies :=
            fun t ht => accounts_call hs hl ht
          cases reply with
          | ok =>
              obtain ⟨t, ht, rfl⟩ := Option.map_eq_some_iff.mp h
              have ha := hcall t ht
              obtain ⟨hconnected, -, hrunners⟩ := hs.grows ha.grows
              obtain ⟨broker, hb, rfl⟩ := perform_eq_some ht
              have hrest := hl.rest ha.grows (Exchange.holds_handle hb)
              rw [Reply.effect, if_pos rfl]
              rcases hl.publication with ⟨hne, hc⟩ | ⟨rfl, rfl, hd⟩
              · rw [if_neg (by rwa [List.isEmpty_iff])]
                refine ⟨ha.congr rfl rfl rfl, .inl rfl, hconnected, fun p hp' => ?_, hrunners⟩
                obtain rfl := Option.some.inj hp'
                exact ⟨n, hrest⟩
              · refine ⟨ha.congr rfl rfl rfl, .inr rfl, fun _ => hd.grows ha.grows, ?_, hrunners⟩
                intro p hp'
                contradiction
          | failed effect =>
              rcases call_failed h with ⟨k, rfl, rfl⟩ | rfl
              · rw [(declares_dial _).bodies, ite_self]
                refine ⟨.of_eq rfl rfl rfl, .inl rfl, hs.connected, fun p hp' => ?_, hs.runners⟩
                obtain rfl := Option.some.inj hp'
                exact ⟨k, left_dial hl k⟩
              · have ha := accounts_fail (ordered_publication ..) hl hcall effect
                obtain ⟨hrunners, -, -, hconfirmed⟩ := fail_fields (s := s) (c := c) effect
                refine ⟨ha.congr rfl rfl rfl, .inl hconfirmed, fun _ => by contradiction,
                  fun p hp' => by contradiction, ?_⟩
                dsimp only
                rw [hrunners]
                apply (hs.grows ha.grows).2.2

/-- A call of a runner ends. -/
theorem kept_declare {R : ℕ} {reply : Reply} (hs : Sound s)
    (h : s.step (.declare R reply) = some s') :
  Kept s s' []
  := by
  rw [State.step] at h
  split at h
  · rename_i c rest hR
    have hl := hs.runners R _ hR
    have hc := declares_of_mem_consumeEvents hl.mem
    have hdeclare : ∀ t, s.perform c = some t → Accounts s t c.bodies := by
      intro t ht
      rw [hc.bodies]
      apply accounts_declare hc ht
    cases reply with
    | ok =>
        obtain ⟨t, ht, rfl⟩ := Option.map_eq_some_iff.mp h
        have ha := accounts_declare hc ht
        obtain ⟨hconnected, hpublishing, hrunners⟩ := hs.grows ha.grows
        obtain ⟨broker, hb, rfl⟩ := perform_eq_some ht
        have hrest := hl.rest ha.grows (Exchange.holds_handle hb)
        refine ⟨ha.congr rfl rfl rfl, .inl rfl, hconnected, hpublishing, ?_⟩
        apply runners_setRunner hrunners
        intro calls hcalls
        split_ifs at hcalls
        · cases Option.some.inj hcalls
        · obtain rfl := Consumer.declaring.inj (Option.some.inj hcalls)
          apply hrest
    | failed effect =>
        obtain rfl := Option.some.inj h
        have ha := accounts_fail ordered_consumeEvents hl hdeclare effect
        rw [hc.bodies, ite_self] at ha
        obtain ⟨hconnected, hpublishing, hrunners⟩ := hs.grows ha.grows
        obtain ⟨hR', hc', hp', hconfirmed⟩ := fail_fields (s := s) (c := c) effect
        refine ⟨ha.congr rfl rfl rfl, .inl hconfirmed, ?_, ?_, ?_⟩
        · rw [show ((s.fail c effect).setRunner R none).connected = s.connected from hc']
          apply hconnected
        · rw [show ((s.fail c effect).setRunner R none).publishing = s.publishing from hp']
          apply hpublishing
        · apply runners_setRunner
          · rw [hR']
            apply hrunners
          · intro calls hcalls
            contradiction
  · contradiction

/-- A runner is handed a message. -/
theorem kept_deliver {R : ℕ} (hs : Sound s) (h : s.step (.deliver R) = some s') :
  Kept s s' []
  := by
  rw [State.step] at h
  split at h
  · obtain ⟨⟨m, broker⟩, ht, rfl⟩ := Option.map_eq_some_iff.mp h
    obtain ⟨hfirst, hothers, hgrows⟩ := Exchange.take_eq_some ht
    obtain ⟨hconnected, hpublishing, hrunners⟩ :=
      @Sound.grows α s { s with broker, handed := s.handed ++ [(R, m)] } hs hgrows
    refine ⟨⟨hgrows, ?_, ?_, ?_, fun hunbound => ?_⟩, .inl rfl, hconnected, hpublishing, hrunners⟩
    · rw [List.append_nil]
    · rw [List.append_nil]
      apply hothers
      decide
    · rw [ite_self, List.append_nil, State.reached, State.reached, hfirst, List.map_append,
        List.append_assoc]
      rfl
    · -- the queue of the runners is bound, since there was a message in it
      left
      rcases hs.tied with hbound | ⟨-, hnone⟩
      · apply hgrows.holds hbound
      · rw [State.reached, hfirst] at hnone
        simp at hnone
  · contradiction

/-- What one step does to the account. -/
theorem kept_step {a : Action α} (hs : Sound s) (h : s.step a = some s') :
  Kept s s' (s.routes a)
  := by
  cases a with
  | publish key body => apply kept_publish hs h
  | call reply => apply kept_call hs h
  | disconnect =>
      rw [State.step, Option.ite_none_right_eq_some] at h
      obtain rfl := Option.some.inj h.2
      exact ⟨.of_eq rfl rfl rfl, .inl rfl, fun _ => by contradiction, hs.publishing, hs.runners⟩
  | start R =>
      rw [State.step] at h
      split at h
      · obtain rfl := Option.some.inj h
        refine ⟨.of_eq rfl rfl rfl, .inl rfl, hs.connected, hs.publishing, ?_⟩
        apply runners_setRunner hs.runners
        intro calls hcalls
        obtain rfl := Consumer.declaring.inj (Option.some.inj hcalls)
        exact ⟨[], rfl, fun _ hc => absurd hc List.not_mem_nil⟩
      · contradiction
  | declare R reply => apply kept_declare hs h
  | deliver R => apply kept_deliver hs h
  | stop R =>
      obtain rfl := Option.some.inj h
      refine ⟨.of_eq rfl rfl rfl, .inl rfl, hs.connected, hs.publishing, ?_⟩
      apply runners_setRunner hs.runners
      intro calls hcalls
      contradiction

/-! ### What reaches the runners -/

/-- A step is on time if it routes nothing, or the queue of the runners is bound. -/
def OnTime (s : State α) (a : Action α) : Prop :=
  s.routes a = [] ∨ s.broker.Bound runnersQueue exchangeName

instance (s : State α) (a : Action α) : Decidable (OnTime s a) :=
  decidable_of_iff ((s.routes a).isEmpty = true ∨ s.broker.Bound runnersQueue exchangeName) <| by
    rw [OnTime, List.isEmpty_iff]

theorem sound_init :
  Sound ({} : State α)
  := by
  refine ⟨fun _ => by contradiction, fun p hp => by contradiction, fun R calls hR => by contradiction, rfl,
    ⟨[], rfl⟩, .inr ⟨fun Q hQ => ?_, rfl⟩, List.Sublist.refl _⟩
  contradiction

/-- What is routed reaches the runners as long as every step is on time. -/
theorem exact_onTime :
  (system : System (State α) (Action α)).Exact OnTime Sound (fun s => s.routed = s.reached)
    (fun s => s.routed = s.reached)
  := by
  constructor
  · intro s a s' hs h
    apply (kept_step hs h).sound hs
  · intro s a s' hs hreached ha h
    have hk := kept_step hs h
    rw [hk.routed, hk.reached, hreached]
    rcases ha with hnone | hbound
    · rw [hnone, ite_self]
    · rw [if_pos hbound]
  · exact fun s h => h
  · intro s a s' hs ha h heq
    rw [OnTime, not_or] at ha
    have hk := kept_step hs h
    obtain ⟨missed, hmissed⟩ := hs.reached
    rw [hk.routed, hk.reached, if_neg ha.2, List.append_nil, hmissed, List.append_assoc] at heq
    have hlength := congrArg List.length heq
    rw [List.length_append, List.length_append] at hlength
    have hpos := List.length_pos_iff.mpr ha.1
    omega

/-- A message is published before the first runner consumes, and one after it. -/
def lateRun : List (Action String) :=
  [.publish "github.1.push" "a"] ++ List.replicate 11 (.call .ok) ++
    [.start 0] ++ List.replicate 6 (.declare 0 .ok) ++
    [.publish "github.1.push" "b", .call .ok, .deliver 0]

end Cluster.Broker
