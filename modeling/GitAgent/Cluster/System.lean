import GitAgent.Hub.Request
import GitAgent.Runner.Locks

/-!
# The hub and its runners

The system of the hub, the queue, and the processes of the runners, over one database. A
process is a service that was started under a name; a process that crashes leaves its rows
behind. The messages of the outbox are published to the queue, a message is acknowledged when
a process takes it, and the calls between the parties may be lost.
-/

namespace Cluster

open Hub (EventId InstanceId RunnerId BuildId UserId Db Message Repository)
open Runner (Service TaskId Call Label Reply parseEvent)

abbrev NodeId := ℕ

/-- A process of a runner, with the name and the address of its registration. -/
structure Node where
  name : String
  address : String
  crashed : Bool
  service : Service

/-- The service of a process that has not crashed. -/
def Node.live (node : Node) : Option Service :=
  if node.crashed then none else some node.service

/-- The database; the processes; the requests of the users; the queue; the rows of the outbox
whose publication was confirmed and is not marked yet; and the events that a task of a process
has forwarded, with the task of the process that received them. -/
structure State where
  db : Db
  nodes : List Node
  requests : List (UserId × Hub.Await)
  queue : List Message
  confirmed : List ℕ
  forwards : List ((NodeId × TaskId) × (NodeId × TaskId))

/-- The steps: the hub ingests an event, publishes a row of the outbox and marks it, looks for
stale runners, and handles the request `h`; the process `n` starts, crashes, sends its
heartbeat, takes a message from the queue, runs a step of its service, executes a statement,
and forwards the event of its task `t` to the process `n'`; time passes. -/
inductive Action
  | ingest (repo : Repository) (e : Hub.Event) (payload : String) (buildIds : List BuildId)
  | publish (id : ℕ)
  | markPublished (id : ℕ)
  | requeueStale (timeout : ℕ)
  | request (userId : UserId) (r : Hub.Request)
  | query (h : ℕ) (within : ℕ) (R : RunnerId)
  | provisioned (h : ℕ)
  | send (h : ℕ) (n : NodeId)
  | answered (h : ℕ)
  | failed (h : ℕ)
  | start (name address : String) (slots idleTimeout : ℕ)
  | crash (n : NodeId)
  | heartbeat (n : NodeId)
  | consume (n : NodeId)
  | step (n : NodeId) (ℓ : Label)
  | stmt (n : NodeId) (t : TaskId)
  | forward (n : NodeId) (t : TaskId) (n' : NodeId)
  | tick (k : ℕ)
  deriving DecidableEq, Repr

namespace State

/-- The service of the process `n`, if it has not crashed. -/
def live (s : State) (n : NodeId) : Option Service :=
  Pool.attr Node.live s.nodes n

/-- The service of the process `n` goes on as `service`. -/
def put (s : State) (n : NodeId) (service : Service) : State :=
  { s with nodes := s.nodes.modify n fun node => { node with service } }

/-- A call reaches the process `n`. -/
def call (s : State) (n : NodeId) (service : Service) (c : Call) : State :=
  s.put n (service.spawn (.called c))

/-- The request `h` is suspended at `p`. -/
def await (s : State) (h : ℕ) (userId : UserId) (p : Hub.Await) : State :=
  { s with requests := s.requests.set h (userId, p) }

/-- The result of the task `t` of the process `n`, if it has ended. -/
def result (s : State) (n : NodeId) (t : TaskId) : Option Runner.Result :=
  match s.nodes[n]?.bind fun node => node.service.tasks[t]? with
  | some (.done result) => some result
  | _ => none

/-- The answer to a call of `raise_instance` or `stop_instance`. -/
def answer : Runner.Result → Hub.Answer
  | .status .running => .running
  | .status .queued => .queued
  | _ => .refused

/-- The publication of the row `id` of the outbox, if it is still to be published. -/
def publish (s : State) (id : ℕ) : Option State :=
  match s.db.outbox.find id with
  | some o =>
      if o.publishedAt = none then
        some { s with queue := s.queue ++ [o.payload], confirmed := id :: s.confirmed }
      else none
  | none => none

/-- The statement that the request `h` awaits. -/
def query (s : State) (h within : ℕ) (R : RunnerId) : Option State := do
  let (userId, p) ← s.requests[h]?
  let (db, q) ← p.stmt s.db within userId R
  return { s.await h userId q with db }

/-- The call of the request `h` reaches the process `n` at its address. -/
def send (s : State) (h : ℕ) (n : NodeId) : Option State := do
  let (userId, p) ← s.requests[h]?
  let node ← s.nodes[n]?
  let service ← s.live n
  match p with
  | .raise g id R address =>
      if node.address = address then
        some ((s.await h userId (.raising g id R address n service.tasks.length)).call n service
          (.raiseInstance id))
      else none
  | .chat id message address =>
      if node.address = address then
        some ((s.await h userId (.done true)).call n service (.chatEndpoint id message))
      else none
  | .stop id address =>
      if node.address = address then
        some ((s.await h userId (.stopping id n service.tasks.length)).call n service
          (.stopInstance id))
      else none
  | _ => none

/-- The answer to the call of the request `h` is there. -/
def answered (s : State) (h : ℕ) : Option State := do
  let (userId, p) ← s.requests[h]?
  let (n, t) ← p.callee
  let result ← s.result n t
  let q ← p.answered (answer result)
  return s.await h userId q

/-- The request `h` goes on to the await point that `f` gives. -/
def advance (s : State) (h : ℕ) (f : Hub.Await → Option Hub.Await) : Option State := do
  let (userId, p) ← s.requests[h]?
  let q ← f p
  return s.await h userId q

/-- A process starts, and registers under its name. -/
def start (s : State) (name address : String) (slots idleTimeout : ℕ) : State :=
  let (db, R) := s.db.upsertRunner name address slots
  { s with
    db
    nodes := s.nodes ++ [⟨name, address, false, .start R slots idleTimeout 0⟩] }

/-- A process crashes. -/
def crash (s : State) (n : NodeId) : State :=
  { s with nodes := s.nodes.modify n fun node => { node with crashed := true } }

/-- The process `n` takes the next message, which is no longer in the queue then. -/
def consume (s : State) (n : NodeId) : Option State := do
  let service ← s.live n
  match s.queue with
  | m :: queue => some ({ s with queue }.call n service (.handleEvent (parseEvent m)))
  | [] => none

/-- Whether the event that the task `t` of the process `n` forwarded was handled. -/
def handled (s : State) (n : NodeId) (t : TaskId) : Bool :=
  s.forwards.any fun (source, n', t') =>
    source = (n, t) && (s.result n' t').any fun result =>
      match result with
      | .outcome _ => true
      | _ => false

/-- Whether a step of the service of the process `n` is its own: an event comes only from the
queue or from another process, which answers only what it received. -/
def owns (s : State) (n : NodeId) : Label → Bool
  | .call (.handleEvent _) => false
  | .forwarded t true => s.handled n t
  | _ => true

/-- A step of the service of the process `n`. -/
def step (s : State) (n : NodeId) (ℓ : Label) : Option State := do
  let service ← s.live n
  let service' ← service.step ℓ
  if s.owns n ℓ then some (s.put n service') else none

/-- The statement that the task `t` of the process `n` awaits. -/
def stmt (s : State) (n : NodeId) (t : TaskId) : Option State := do
  let service ← s.live n
  let p ← service.tasks[t]?
  let (db, q) ← p.stmt s.db service.runnerId
  return { s.put n (service.await t q) with db }

/-- The event that the task `t` of the process `n` forwards reaches the process `n'` at its
address. -/
def forward (s : State) (n : NodeId) (t : TaskId) (n' : NodeId) : Option State := do
  let service ← s.live n
  let p ← service.tasks[t]?
  let node ← s.nodes[n']?
  let service' ← s.live n'
  match p with
  | .forward e address =>
      if node.address = address then
        some { s.call n' service' (.handleEvent e) with
               forwards := ((n, t), (n', service'.tasks.length)) :: s.forwards }
      else none
  | _ => none

/-- The state after an action, if it is enabled. -/
def act (storable : Hub.Event → String → Bool) (s : State) : Action → Option State
  | .ingest repo e payload buildIds =>
      (s.db.ingest storable repo e payload buildIds).map fun (db, _) => { s with db }
  | .publish id => s.publish id
  | .markPublished id =>
      if id ∈ s.confirmed then some { s with db := s.db.markPublished id } else none
  | .requeueStale timeout => some { s with db := (s.db.requeueStale timeout).1 }
  | .request userId r => some { s with requests := s.requests ++ [(userId, r.start)] }
  | .query h within R => s.query h within R
  | .provisioned h => s.advance h Hub.Await.provisioned
  | .send h n => s.send h n
  | .answered h => s.answered h
  | .failed h => s.advance h Hub.Await.failed
  | .start name address slots idleTimeout => some (s.start name address slots idleTimeout)
  | .crash n => some (s.crash n)
  | .heartbeat n =>
      (s.live n).map fun service => { s with db := s.db.heartbeatRunner service.runnerId }
  | .consume n => s.consume n
  | .step n ℓ => s.step n ℓ
  | .stmt n t => s.stmt n t
  | .forward n t n' => s.forward n t n'
  | .tick k => some { s with db := { s.db with now := s.db.now + k } }

/-- What an action does. A call reaches a process by `call`, and only `write` and the
statements change the row of an instance. -/
inductive Acts (s : State) : Action → State → Prop
  | ingest {storable : Hub.Event → String → Bool} {repo : Repository} {e : Hub.Event}
      {payload : String} {buildIds : List BuildId} {db : Db} {duplicate : Bool}
      {ids : List InstanceId}
      (h : s.db.ingest storable repo e payload buildIds = some (db, duplicate, ids)) :
      Acts s (.ingest repo e payload buildIds) { s with db }
  | publish {id : ℕ} {o : Hub.OutboxRow} (ho : s.db.outbox.find id = some o)
      (hp : o.publishedAt = none) :
      Acts s (.publish id)
        { s with queue := s.queue ++ [o.payload], confirmed := id :: s.confirmed }
  | markPublished {id : ℕ} (h : id ∈ s.confirmed) :
      Acts s (.markPublished id) { s with db := s.db.markPublished id }
  | requeueStale {timeout : ℕ} :
      Acts s (.requeueStale timeout) { s with db := (s.db.requeueStale timeout).1 }
  | query {h within : ℕ} {R : RunnerId} {userId : UserId} {p q : Hub.Await} {db : Db}
      (hp : s.requests[h]? = some (userId, p)) (hs : p.stmt s.db within userId R = some (db, q)) :
      Acts s (.query h within R) { s.await h userId q with db }
  | requests {a : Action} (requests : List (UserId × Hub.Await)) :
      Acts s a { s with requests }
  | call {a : Action} {n : NodeId} {service : Service} {c : Call}
      (requests : List (UserId × Hub.Await)) (hn : s.live n = some service)
      (hc : ∀ e, c ≠ .handleEvent e) :
      Acts s a ({ s with requests }.call n service c)
  | start {name address : String} {slots idleTimeout : ℕ} :
      Acts s (.start name address slots idleTimeout) (s.start name address slots idleTimeout)
  | crash {n : NodeId} : Acts s (.crash n) (s.crash n)
  | heartbeat {n : NodeId} {service : Service} (hn : s.live n = some service) :
      Acts s (.heartbeat n) { s with db := s.db.heartbeatRunner service.runnerId }
  | consume {n : NodeId} {service : Service} {m : Message} {queue : List Message}
      (hn : s.live n = some service) (hq : s.queue = m :: queue) :
      Acts s (.consume n) ({ s with queue }.call n service (.handleEvent (parseEvent m)))
  | step {n : NodeId} {ℓ : Label} {service service' : Service} (hn : s.live n = some service)
      (hℓ : ∀ e, ℓ ≠ .call (.handleEvent e)) (h : service.Steps ℓ service') :
      Acts s (.step n ℓ) (s.put n service')
  | stmt {n : NodeId} {t : TaskId} {service : Service} {p q : Runner.Await} {db : Db}
      (hn : s.live n = some service) (ht : service.tasks[t]? = some p)
      (h : Reply s.db service.runnerId p db q) :
      Acts s (.stmt n t) { s.put n (service.await t q) with db }
  | forward {n n' : NodeId} {t : TaskId} {service service' : Service} {e : Runner.Event}
      {address : String} {forwards : List ((NodeId × TaskId) × (NodeId × TaskId))}
      (hn : s.live n = some service) (ht : service.tasks[t]? = some (.forward e address))
      (hn' : s.live n' = some service') :
      Acts s (.forward n t n') { s.call n' service' (.handleEvent e) with forwards }
  | tick {k : ℕ} : Acts s (.tick k) { s with db := { s.db with now := s.db.now + k } }

variable {s s' : State} {a : Action} {storable : Hub.Event → String → Bool}

/-- An action does one of the things listed. -/
theorem act_cases (h : s.act storable a = some s') :
  s.Acts a s'
  := by
  cases a with
  | ingest repo e payload buildIds =>
      obtain ⟨⟨db, duplicate, ids⟩, hi, rfl⟩ := Option.map_eq_some_iff.mp h
      apply Acts.ingest hi
  | publish id =>
      rw [act, publish] at h
      split at h
      · rename_i o ho
        split at h
        · rename_i hp
          obtain rfl := Option.some.inj h
          apply Acts.publish ho hp
        · contradiction
      · contradiction
  | markPublished id =>
      rw [act] at h
      split at h
      · rename_i hc
        obtain rfl := Option.some.inj h
        apply Acts.markPublished hc
      · contradiction
  | requeueStale timeout =>
      obtain rfl := Option.some.inj h
      apply Acts.requeueStale
  | request userId r =>
      obtain rfl := Option.some.inj h
      apply Acts.requests
  | query h within R =>
      obtain ⟨⟨userId, p⟩, hp, h⟩ := Option.bind_eq_some_iff.mp h
      obtain ⟨⟨db, q⟩, hq, h⟩ := Option.bind_eq_some_iff.mp h
      obtain rfl := Option.some.inj h
      apply Acts.query hp hq
  | provisioned h =>
      obtain ⟨⟨userId, p⟩, hp, h⟩ := Option.bind_eq_some_iff.mp h
      obtain ⟨q, hq, h⟩ := Option.bind_eq_some_iff.mp h
      obtain rfl := Option.some.inj h
      apply Acts.requests
  | send h n =>
      obtain ⟨⟨userId, p⟩, hp, h⟩ := Option.bind_eq_some_iff.mp h
      obtain ⟨node, hn, h⟩ := Option.bind_eq_some_iff.mp h
      obtain ⟨service, hs, h⟩ := Option.bind_eq_some_iff.mp h
      split at h
      · split at h
        · obtain rfl := Option.some.inj h
          apply Acts.call _ hs fun _ => Call.noConfusion
        · contradiction
      · split at h
        · obtain rfl := Option.some.inj h
          apply Acts.call _ hs fun _ => Call.noConfusion
        · contradiction
      · split at h
        · obtain rfl := Option.some.inj h
          apply Acts.call _ hs fun _ => Call.noConfusion
        · contradiction
      · contradiction
  | answered h =>
      obtain ⟨⟨userId, p⟩, hp, h⟩ := Option.bind_eq_some_iff.mp h
      obtain ⟨⟨n, t⟩, -, h⟩ := Option.bind_eq_some_iff.mp h
      obtain ⟨result, -, h⟩ := Option.bind_eq_some_iff.mp h
      obtain ⟨q, -, h⟩ := Option.bind_eq_some_iff.mp h
      obtain rfl := Option.some.inj h
      apply Acts.requests
  | failed h =>
      obtain ⟨⟨userId, p⟩, hp, h⟩ := Option.bind_eq_some_iff.mp h
      obtain ⟨q, hq, h⟩ := Option.bind_eq_some_iff.mp h
      obtain rfl := Option.some.inj h
      apply Acts.requests
  | start name address slots idleTimeout =>
      obtain rfl := Option.some.inj h
      apply Acts.start
  | crash n =>
      obtain rfl := Option.some.inj h
      apply Acts.crash
  | heartbeat n =>
      obtain ⟨service, hn, rfl⟩ := Option.map_eq_some_iff.mp h
      apply Acts.heartbeat hn
  | consume n =>
      obtain ⟨service, hn, h⟩ := Option.bind_eq_some_iff.mp h
      split at h
      · rename_i hq
        obtain rfl := Option.some.inj h
        apply Acts.consume hn hq
      · contradiction
  | step n ℓ =>
      obtain ⟨service, hn, h⟩ := Option.bind_eq_some_iff.mp h
      obtain ⟨service', hs, h⟩ := Option.bind_eq_some_iff.mp h
      split at h
      · rename_i ho
        obtain rfl := Option.some.inj h
        apply Acts.step hn _ (Service.step_cases hs)
        rintro e rfl
        contradiction
      · contradiction
  | stmt n t =>
      obtain ⟨service, hn, h⟩ := Option.bind_eq_some_iff.mp h
      obtain ⟨p, ht, h⟩ := Option.bind_eq_some_iff.mp h
      obtain ⟨⟨db, q⟩, hq, h⟩ := Option.bind_eq_some_iff.mp h
      obtain rfl := Option.some.inj h
      apply Acts.stmt hn ht (Runner.reply_of_stmt hq)
  | forward n t n' =>
      obtain ⟨service, hn, h⟩ := Option.bind_eq_some_iff.mp h
      obtain ⟨p, ht, h⟩ := Option.bind_eq_some_iff.mp h
      obtain ⟨node, hnode, h⟩ := Option.bind_eq_some_iff.mp h
      obtain ⟨service', hn', h⟩ := Option.bind_eq_some_iff.mp h
      split at h
      · split at h
        · obtain rfl := Option.some.inj h
          apply Acts.forward hn ht hn'
        · contradiction
      · contradiction
  | tick k =>
      obtain rfl := Option.some.inj h
      apply Acts.tick

/-! ### The services over an action -/

/-- A service after the update of one is the new one, or that of another process. -/
theorem live_update_cases {live : NodeId → Option Service} {n m : NodeId}
    {service service' : Service} (h : Function.update live n (some service') m = some service) :
  m = n ∧ service = service' ∨ m ≠ n ∧ live m = some service
  := by
  rw [Function.update_apply] at h
  split at h
  · rename_i e
    exact .inl ⟨e, (Option.some.inj h).symm⟩
  · rename_i e
    exact .inr ⟨e, h⟩

/-- No two live services are those of one runner. -/
def Apart (live : NodeId → Option Service) : Prop :=
  ∀ n n' service service', live n = some service → live n' = some service' →
    service.runnerId = service'.runnerId → n = n'

/-- They stay apart when one goes on. -/
theorem Apart.update {live : NodeId → Option Service} {n : NodeId} {service service' : Service}
    (h : Apart live) (hn : live n = some service) (hid : service'.runnerId = service.runnerId) :
  Apart (Function.update live n (some service'))
  := by
  intro m m' σ σ' hm hm' he
  rcases live_update_cases hm with ⟨e, eσ⟩ | ⟨-, hm⟩ <;>
    rcases live_update_cases hm' with ⟨e', eσ'⟩ | ⟨-, hm'⟩
  · rw [e, e']
  · rw [eσ, hid] at he
    rw [e]
    apply h _ _ _ _ hn hm' he
  · rw [eσ', hid] at he
    rw [e']
    apply h _ _ _ _ hm hn he
  · apply h _ _ _ _ hm hm' he

/-- Putting a service updates the service of that process. -/
theorem live_put {n : NodeId} {service : Service} (hn : s.live n = some service)
    (service' : Service) :
  (s.put n service').live = Function.update s.live n (some service')
  := by
  obtain ⟨node, hnode, hl⟩ := Pool.exists_of_attr hn
  funext m
  rw [live, put, Pool.attr_modify_apply, Function.update_apply]
  split
  · rw [hnode, Option.bind_some]
    rw [Node.live] at hl ⊢
    split at hl
    · contradiction
    · rename_i hc
      rw [if_neg hc]
  · rfl

/-- A process that crashes has no service any more. -/
theorem live_crash (s : State) (n m : NodeId) :
  (s.crash n).live m = if m = n then none else s.live m
  := by
  rw [live, crash, Pool.attr_modify_apply]
  split
  · cases s.nodes[n]? <;> rfl
  · rfl

/-- A process that starts has a service without instances. -/
theorem live_start (s : State) (name address : String) (slots idleTimeout : ℕ) (n : NodeId) :
  (s.start name address slots idleTimeout).live n =
    if n = s.nodes.length then
      some (.start (s.db.upsertRunner name address slots).2 slots idleTimeout 0)
    else s.live n
  := Pool.attr_concat n

end State

/-- The hub and the runners, before any process of a runner starts, with a database that
satisfies `P`. -/
def system (storable : Hub.Event → String → Bool) (P : Db → Prop) :
    Transition.System State Action where
  init s := P s.db ∧ s.nodes = [] ∧ s.requests = [] ∧ s.queue = [] ∧ s.confirmed = [] ∧
    s.forwards = []
  step := State.act storable

end Cluster
