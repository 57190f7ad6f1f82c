import GitAgent.Runner.Store

/-!
# The await points of a runner

The tasks of the event loop of a runner (`core/runner/service.py`). A task is described by
the `await` at which it is suspended, together with the values that its code still uses. Two
emissions of activity that follow one another count as one await point.
-/

namespace Runner

open Hub (InstanceId EventId RunnerId)

abbrev TaskId := ℕ

/-- The identity of a `LocalInstance` object. -/
abbrev Ref := ℕ

/-- A turn of an instance: the execution of an event, or of a message of the chat. -/
inductive Turn
  | event (e : Event)
  | chat (id : InstanceId) (message : String)
  deriving DecidableEq, Repr

/-- The operations that are called from outside. The two endpoints first call
`raise_instance`, and then `chat` or `terminal`. -/
inductive Call
  | handleEvent (e : Event)
  | chat (id : InstanceId) (message : String)
  | terminal (id : InstanceId) (command : String)
  | raiseInstance (id : InstanceId)
  | chatEndpoint (id : InstanceId) (message : String)
  | terminalEndpoint (id : InstanceId) (command : String)
  | stopInstance (id : InstanceId)
  | reapIdle
  | shutdown
  deriving DecidableEq, Repr

/-- Whoever awaits `_raise`: the task that `raise_instance` creates, a turn, or a command of
the terminal. -/
inductive Caller
  | task (id : InstanceId)
  | turn (k : Turn)
  | terminal (id : InstanceId) (command : String)
  deriving DecidableEq, Repr

/-- Whoever awaits `raise_instance`. -/
inductive Opener
  | caller (id : InstanceId)
  | chat (id : InstanceId) (message : String)
  | terminal (id : InstanceId) (command : String)
  deriving DecidableEq, Repr

/-- Whoever awaits `stop_instance`: its caller, a pass of `reap_idle` that began at `now`, or
`shutdown`, with the part of the snapshot that is still ahead. -/
inductive Stopper
  | caller
  | reap (now : ℕ) (rest : List (InstanceId × Ref))
  | shutdown (rest : List InstanceId)
  deriving DecidableEq, Repr

/-- The progress of the statements of `claim_instance`. -/
inductive ClaimQuery
  | update
  | select
  | replied (c : ClaimResult)
  deriving DecidableEq, Repr

/-- How the execution of a turn ended. -/
inductive TurnEnd
  | finished
  | notProvisioned
  | failed
  | cancelled
  deriving DecidableEq, Repr

/-- The execution of a turn: it runs, with its cancellation requested or not, it has handed
a chunk to the consumer of the chat, or it has ended. -/
inductive Exec
  | running (cancelling : Bool)
  | yielded
  | ended (how : TurnEnd)
  deriving DecidableEq, Repr

/-- The outcomes of `handle_event`. -/
inductive Outcome
  | processed
  | duplicate
  | forwarded
  | dropped
  | cancelled
  | skippedNoCommit
  deriving DecidableEq, Repr

/-- The answers of `raise_instance`. -/
inductive RaiseStatus
  | running
  | queued
  | rejected
  deriving DecidableEq, Repr

/-- How a task ended. -/
inductive Result
  | raised (r : Ref)
  | refused (c : ClaimResult)
  | status (s : RaiseStatus)
  | outcome (o : Outcome)
  | unavailable (id : InstanceId)
  | stopped (here : Bool)
  | finished
  | failed
  | cancelled
  deriving DecidableEq, Repr

/-- The await points. A database statement carries its reply, once it was executed. -/
inductive Await
  | called (c : Call)
  | raiseTask (id : InstanceId)
  | raising (a : Opener) (child : TaskId)
  | slot (c : Caller)
  | raiseLock (c : Caller)
  | claim (c : Caller) (q : ClaimQuery)
  | skipBegin (e : Event) (reply : Option Bool)
  | skipMark (e : Event) (replied : Bool)
  | peek (e : Event) (reply : Option ClaimResult)
  | forward (e : Event) (address : String)
  | begin (e : Event) (r : Ref) (reply : Option Bool)
  | turnLock (k : Turn) (r : Ref)
  | context (k : Turn) (r : Ref) (reply : Option Bool)
  | opened (k : Turn) (r : Ref)
  | turn (k : Turn) (r : Ref) (x : Exec)
  | closing (k : Turn) (r : Ref) (how : TurnEnd)
  | mark (e : Event) (r : Ref) (replied : Bool)
  | abandoned (id : InstanceId)
  | termLock (id : InstanceId) (command : String) (r : Ref)
  | termContext (id : InstanceId) (command : String) (r : Ref) (reply : Option Bool)
  | terminal (id : InstanceId) (command : String) (r : Ref)
  | scan (k : Stopper)
  | stopLock (k : Stopper) (id : InstanceId) (r : Ref)
  | release (k : Stopper) (id : InstanceId) (r : Ref) (replied : Bool)
  | done (result : Result)
  deriving DecidableEq, Repr

/-- The instance of a turn. -/
def Turn.instanceId : Turn → InstanceId
  | event e => e.instanceId
  | chat id _ => id

/-- The instance that is raised for a caller. -/
def Caller.instanceId : Caller → InstanceId
  | task id => id
  | turn k => k.instanceId
  | terminal id _ => id

/-- The instance that is raised for an opener. -/
def Opener.instanceId : Opener → InstanceId
  | caller id => id
  | chat id _ => id
  | terminal id _ => id

/-- Where an event that belongs to another runner goes: to its holder if the address is
known, and otherwise it is dropped. -/
def handOff (e : Event) (claim : ClaimResult) : Await :=
  match claim.outcome, claim.holderAddress with
  | .heldByOther, some address =>
      if address ≠ "" then .forward e address else .done (.outcome .dropped)
  | _, _ => .done (.outcome .dropped)

/-- The await point that a caller reaches once `_raise` has returned the object `r`. -/
def Caller.raised (c : Caller) (r : Ref) : Await :=
  match c with
  | task _ => .done (.raised r)
  | turn (.event e) => .begin e r none
  | turn (.chat id message) => .turnLock (.chat id message) r
  | terminal id command => .termLock id command r

/-- The await point that a caller reaches once `_raise` has returned a refusal. -/
def Caller.refused (c : Caller) (claim : ClaimResult) : Await :=
  match c with
  | task _ => .done (.refused claim)
  | turn (.event e) => handOff e claim
  | turn (.chat id _) => .done (.unavailable id)
  | terminal id _ => .done (.unavailable id)

/-- The end of a turn whose instance has no context. -/
def Turn.missing : Turn → Result
  | event _ => .outcome .dropped
  | chat id _ => .unavailable id

/-- The end of a turn whose execution ended other than by finishing. -/
def Turn.broken : Turn → TurnEnd → Result
  | event _, .notProvisioned => .outcome .dropped
  | event _, .cancelled => .outcome .cancelled
  | chat _ _, .cancelled => .cancelled
  | _, _ => .failed

/-- The await point that a stopper reaches once the instance was released. -/
def Stopper.next : Stopper → Await
  | caller => .done (.stopped true)
  | k => .scan k

/-- The effect of a request to cancel the execution of an event. -/
def Await.cancelExec : Await → Await
  | turn (.event e) r (.running _) => .turn (.event e) r (.running true)
  | p => p

end Runner
