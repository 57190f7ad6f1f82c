import GitAgent.Library.Dict
import GitAgent.Library.Pool
import GitAgent.Library.Sync
import GitAgent.Runner.Await

/-!
# The service of a runner

The state of `RunnerService` and its steps (`core/runner/service.py`). A step is the stretch
of code that one task runs from one `await` to the next. A task that reaches a lock, a
semaphore or another `await` is suspended there also when nothing stands in its way, so the
other tasks may always run in between.

The steps in this module do not touch the database: the statement that a task awaits is
executed by a step of its own, which leaves the reply with the task.
-/

namespace Runner

open Hub (InstanceId EventId RunnerId)
open Sync (Lock Semaphore)

/-- An instance that is raised in a slot of this runner. The task of an execution is named
by the `handle_event` that awaits it. -/
structure LocalInstance where
  id : InstanceId
  lock : Lock TaskId := .free
  lastActivity : ℕ
  termCwd : Option String := none
  termLock : Lock TaskId := .free
  turnTask : Option TaskId := none
  deriving DecidableEq, Repr

/-- The state of the service: its configuration, the clock, the slots, the raised instances,
the objects they stand for, the lock of the raises, and all tasks ever started. `executed`
is a history of the reactions whose execution finished. -/
structure Service where
  runnerId : RunnerId
  slots : ℕ
  idleTimeout : ℕ
  clock : ℕ
  free : Semaphore TaskId
  instances : Dict InstanceId Ref
  objects : Ref → LocalInstance
  nextRef : Ref
  raiseLock : Lock TaskId
  tasks : List Await
  executed : List Hub.Reaction

/-- The steps of the service: a call begins; the task `t` runs on; the holder to which `t`
forwards an event answers; the command of the terminal ends; `raise_instance` has waited its
second; the chat hands a chunk to its consumer; the execution of a turn ends; what `t` awaits
raises an exception; `t` is cancelled; time passes. -/
inductive Label
  | call (c : Call)
  | run (t : TaskId)
  | forwarded (t : TaskId) (ok : Bool)
  | terminalRan (t : TaskId) (cwd : Option String)
  | timeout (t : TaskId)
  | yield (t : TaskId)
  | turnEnds (t : TaskId) (how : TurnEnd)
  | fail (t : TaskId)
  | cancel (t : TaskId)
  | tick (n : ℕ)
  deriving DecidableEq, Repr

namespace Service

/-- The service after registration, without instances. -/
def start (runnerId : RunnerId) (slots idleTimeout clock : ℕ) : Service where
  runnerId
  slots
  idleTimeout
  clock
  free := .ofPermits slots
  instances := .empty
  objects := fun _ => { id := 0, lastActivity := 0 }
  nextRef := 0
  raiseLock := .free
  tasks := []
  executed := []

/-- `t` is suspended at `p`. -/
def await (s : Service) (t : TaskId) (p : Await) : Service :=
  { s with tasks := s.tasks.set t p }

/-- A new task is created. -/
def spawn (s : Service) (p : Await) : Service :=
  { s with tasks := s.tasks ++ [p] }

/-- The object `r` is modified. -/
def modify (s : Service) (r : Ref) (f : LocalInstance → LocalInstance) : Service :=
  { s with objects := Function.update s.objects r (f (s.objects r)) }

end Service

namespace LocalInstance

/-- `touch`. -/
def touch (o : LocalInstance) (clock : ℕ) : LocalInstance :=
  { o with lastActivity := clock }

/-- `t` waits for the lock of the turns. -/
def wait (o : LocalInstance) (t : TaskId) : LocalInstance :=
  { o with lock := o.lock.wait t }

/-- `t` takes the lock of the turns. -/
def enter (o : LocalInstance) (t : TaskId) : LocalInstance :=
  { o with lock := o.lock.acquire t }

/-- The lock of the turns is given up. -/
def leave (o : LocalInstance) : LocalInstance :=
  { o with lock := o.lock.release }

/-- `t` waits for the lock of the terminal. -/
def termWait (o : LocalInstance) (t : TaskId) : LocalInstance :=
  { o with termLock := o.termLock.wait t }

/-- `t` takes the lock of the terminal. -/
def termEnter (o : LocalInstance) (t : TaskId) : LocalInstance :=
  { o with termLock := o.termLock.acquire t }

/-- The lock of the terminal is given up. -/
def termLeave (o : LocalInstance) : LocalInstance :=
  { o with termLock := o.termLock.release }

end LocalInstance

/-- The queue that a caller joins once `_raise` has returned the object. -/
def Caller.queue (c : Caller) (t : TaskId) (o : LocalInstance) : LocalInstance :=
  match c with
  | turn (.chat _ _) => o.wait t
  | terminal _ _ => o.termWait t
  | _ => o

/-- The object of a turn whose execution begins. Only the task of an event is recorded. -/
def Turn.begin (k : Turn) (t : TaskId) (o : LocalInstance) : LocalInstance :=
  match k with
  | event _ => { o with turnTask := some t }
  | chat _ _ => o

/-- The object of a turn whose execution has ended. -/
def Turn.finally (k : Turn) (o : LocalInstance) : LocalInstance :=
  match k with
  | event _ => { o with turnTask := none }
  | chat _ _ => o

/-- The reaction that counts as executed once a turn has ended. -/
def Turn.executed : Turn → TurnEnd → List Hub.Reaction
  | event e, .finished => [e.reaction]
  | _, _ => []

namespace Service

/-! ### Raising -/

/-- A caller goes on with the object `r` that `_raise` returned. -/
def resume (s : Service) (t : TaskId) (c : Caller) (r : Ref) : Service :=
  (s.modify r (c.queue t)).await t (c.raised r)

/-- `_raise` up to its first suspension: the object of a raised instance is returned, else
`t` waits for a slot. -/
def raise (s : Service) (t : TaskId) (c : Caller) : Service :=
  match s.instances.get c.instanceId with
  | some r => (s.modify r (·.touch s.clock)).resume t c r
  | none => { s with free := s.free.wait t }.await t (.slot c)

/-- `_raise` with a slot and the lock of the raises: an instance that was raised meanwhile is
returned and the slot is given back, else the instance is claimed. -/
def raiseLocked (s : Service) (t : TaskId) (c : Caller) : Service :=
  match s.instances.get c.instanceId with
  | some r =>
      ({ s with raiseLock := (s.raiseLock.acquire t).release,
                free := s.free.release }.modify r (·.touch s.clock)).resume t c r
  | none => { s with raiseLock := s.raiseLock.acquire t }.await t (.claim c .update)

/-- `_raise` with the result of the claim: a claimed instance gets a new object, else the
slot is given back. -/
def claimed (s : Service) (t : TaskId) (c : Caller) (claim : ClaimResult) : Service :=
  if claim.isClaimed then
    { s with
      raiseLock := s.raiseLock.release
      objects := Function.update s.objects s.nextRef
        { id := c.instanceId, lastActivity := s.clock }
      nextRef := s.nextRef + 1
      instances := s.instances.set c.instanceId s.nextRef }.resume t c s.nextRef
  else
    { s with raiseLock := s.raiseLock.release,
             free := s.free.release }.await t (c.refused claim)

/-! ### Stopping -/

/-- The request to cancel the execution that the object `r` records. -/
def cancelTurn (s : Service) (r : Ref) : Service :=
  match (s.objects r).turnTask with
  | some t => { s with tasks := s.tasks.modify t Await.cancelExec }
  | none => s

/-- `stop_instance` of a raised instance up to its first suspension: the entry is removed,
the turn is asked to cancel, and `t` waits for the lock of the turns. -/
def stop (s : Service) (t : TaskId) (k : Stopper) (id : InstanceId) (r : Ref) : Service :=
  (({ s with instances := s.instances.erase id }.cancelTurn r).modify r
    (·.wait t)).await t (.stopLock k id r)

/-- Whether `reap_idle` passes over the object `r`. -/
def isActive (s : Service) (now : ℕ) (r : Ref) : Bool :=
  (s.objects r).lock.locked || (s.objects r).termLock.locked ||
    now - (s.objects r).lastActivity ≤ s.idleTimeout

/-- The loop of `reap_idle` up to its next suspension. -/
def reap (s : Service) (t : TaskId) (now : ℕ) : List (InstanceId × Ref) → Service
  | [] => s.await t (.done .finished)
  | (id, r) :: rest =>
      if s.isActive now r then s.reap t now rest
      else match s.instances.get id with
        | some r' => s.stop t (.reap now rest) id r'
        | none => s.reap t now rest

/-- The loop of `shutdown` up to its next suspension. -/
def shutdown (s : Service) (t : TaskId) : List InstanceId → Service
  | [] => s.await t (.done .finished)
  | id :: rest =>
      match s.instances.get id with
      | some r => s.stop t (.shutdown rest) id r
      | none => s.shutdown t rest

/-! ### The stretches of a task -/

/-- A called operation up to its first suspension. -/
def begin (s : Service) (t : TaskId) : Call → Service
  | .handleEvent e =>
      if ¬ e.hasCodeTarget then s.await t (.skipBegin e none)
      else match s.instances.get e.instanceId with
        | some _ => s.raise t (.turn (.event e))
        | none => s.await t (.peek e none)
  | .chat id message => s.raise t (.turn (.chat id message))
  | .terminal id command => s.raise t (.terminal id command)
  | .raiseInstance id =>
      (s.spawn (.raiseTask id)).await t (.raising (.caller id) s.tasks.length)
  | .chatEndpoint id message =>
      (s.spawn (.raiseTask id)).await t (.raising (.chat id message) s.tasks.length)
  | .terminalEndpoint id command =>
      (s.spawn (.raiseTask id)).await t (.raising (.terminal id command) s.tasks.length)
  | .stopInstance id =>
      match s.instances.get id with
      | some r => s.stop t .caller id r
      | none => s.await t (.done (.stopped false))
  | .reapIdle => s.reap t s.clock s.instances.items
  | .shutdown => s.shutdown t (s.instances.items.map Prod.fst)

/-- `raise_instance` has an answer that is not a refusal. -/
def raisedOrQueued (s : Service) (t : TaskId) (a : Opener) (answer : RaiseStatus) : Service :=
  match a with
  | .caller _ => s.await t (.done (.status answer))
  | .chat id message => s.raise t (.turn (.chat id message))
  | .terminal id command => s.raise t (.terminal id command)

/-- `raise_instance` was refused. -/
def rejected (s : Service) (t : TaskId) (a : Opener) : Service :=
  match a with
  | .caller _ => s.await t (.done (.status .rejected))
  | .chat id _ => s.await t (.done (.unavailable id))
  | .terminal id _ => s.await t (.done (.unavailable id))

/-- `raise_instance` once its task has ended. -/
def raiseEnded (s : Service) (t : TaskId) (a : Opener) : Result → Service
  | .raised _ => s.raisedOrQueued t a .running
  | .refused _ => s.rejected t a
  | .cancelled => s.await t (.done .cancelled)
  | _ => s.await t (.done .failed)

/-- The end of a turn: the object is no longer in use by `t`, and the lock is given up. -/
def leave (s : Service) (t : TaskId) (r : Ref) (result : Result) : Service :=
  (s.modify r (·.leave)).await t (.done result)

/-- A turn whose last frame was emitted. -/
def close (s : Service) (t : TaskId) (k : Turn) (r : Ref) (how : TurnEnd) : Service :=
  match k, how with
  | .event e, .finished => (s.modify r k.finally).await t (.mark e r false)
  | .chat _ _, .finished => (s.modify r (·.touch s.clock)).leave t r .finished
  | _, _ => (s.modify r k.finally).leave t r (k.broken how)

/-- The stretch that the task `t` runs from the await point `p`, once what it awaits is
there. -/
def run (s : Service) (t : TaskId) : Await → Option Service
  | .called c => some (s.begin t c)
  | .raiseTask id => some (s.raise t (.task id))
  | .raising a child =>
      match s.tasks[child]? with
      | some (.done result) => some (s.raiseEnded t a result)
      | _ => none
  | .slot c =>
      if s.free.Ready t then
        some ({ s with free := s.free.acquire,
                       raiseLock := s.raiseLock.wait t }.await t (.raiseLock c))
      else none
  | .raiseLock c => if s.raiseLock.Ready t then some (s.raiseLocked t c) else none
  | .claim c (.replied claim) => some (s.claimed t c claim)
  | .skipBegin e (some fresh) =>
      some (s.await t (if fresh then .skipMark e false else .done (.outcome .skippedNoCommit)))
  | .skipMark _ true => some (s.await t (.done (.outcome .skippedNoCommit)))
  | .peek e (some claim) =>
      if claim.outcome = .heldByOther ∨ claim.outcome = .missing then
        some (s.await t (handOff e claim))
      else some (s.raise t (.turn (.event e)))
  | .begin e r (some fresh) =>
      if fresh then some ((s.modify r (·.wait t)).await t (.turnLock (.event e) r))
      else some ((s.modify r (·.touch s.clock)).await t (.done (.outcome .duplicate)))
  | .turnLock k r =>
      if (s.objects r).lock.Ready t then
        some ((s.modify r fun o => (o.enter t).touch s.clock).await t (.context k r none))
      else none
  | .context k r (some found) =>
      some (if found then s.await t (.opened k r) else s.leave t r k.missing)
  | .opened k r => some ((s.modify r (k.begin t)).await t (.turn k r (.running false)))
  | .turn (.chat id message) r .yielded =>
      some (s.await t (.turn (.chat id message) r (.running false)))
  | .turn k r (.ended how) => some (s.await t (.closing k r how))
  | .closing k r how => some (s.close t k r how)
  | .mark _ r true => some ((s.modify r (·.touch s.clock)).leave t r (.outcome .processed))
  | .termLock id command r =>
      if (s.objects r).termLock.Ready t then
        some ((s.modify r fun o => (o.termEnter t).touch s.clock).await t
          (.termContext id command r none))
      else none
  | .termContext id command r (some found) =>
      some (if found then s.await t (.terminal id command r)
        else (s.modify r (·.termLeave)).await t (.done (.unavailable id)))
  | .scan (.reap now rest) => some (s.reap t now rest)
  | .scan (.shutdown rest) => some (s.shutdown t rest)
  | .stopLock k id r =>
      if (s.objects r).lock.Ready t then
        some ((s.modify r (·.enter t)).await t (.release k id r false))
      else none
  | .release k _ r true =>
      some (({ s with free := s.free.release }.modify r (·.leave)).await t k.next)
  | _ => none

/-! ### Exceptions and cancellation -/

/-- What the `finally` blocks and the context managers do when an exception leaves the code
of `t` at the await point `p`. A stop keeps its slot: only the lock is given up. -/
def unwind (s : Service) (t : TaskId) : Await → Service
  | .slot _ => { s with free := s.free.leave t }
  | .raiseLock _ => { s with raiseLock := s.raiseLock.leave t, free := s.free.release }
  | .claim _ _ => { s with raiseLock := s.raiseLock.release, free := s.free.release }
  | .turnLock _ r => s.modify r fun o => { o with lock := o.lock.leave t }
  | .context _ r _ => s.modify r (·.leave)
  | .opened _ r => s.modify r (·.leave)
  | .turn k r _ => s.modify r fun o => (k.finally o).leave
  | .closing k r _ => s.modify r fun o => (k.finally o).leave
  | .mark _ r _ => s.modify r (·.leave)
  | .termLock _ _ r => s.modify r fun o => { o with termLock := o.termLock.leave t }
  | .termContext _ _ r _ => s.modify r (·.termLeave)
  | .terminal _ _ r => s.modify r (·.termLeave)
  | .stopLock _ _ r => s.modify r fun o => { o with lock := o.lock.leave t }
  | .release _ _ r _ => s.modify r (·.leave)
  | _ => s

/-- Whether what is awaited at a point can raise an exception: a statement of the database,
the request to another runner, the command of the terminal. -/
def canFail : Await → Bool
  | .claim _ _ | .skipBegin _ _ | .skipMark _ _ | .peek _ _ | .forward _ _ | .begin _ _ _ => true
  | .context _ _ _ | .mark _ _ _ | .termContext _ _ _ _ | .terminal _ _ _ => true
  | .release _ _ _ _ => true
  | _ => false

/-- What awaits at `p` raises an exception. -/
def fail (s : Service) (t : TaskId) (p : Await) : Option Service :=
  if canFail p then some ((s.unwind t p).await t (.done .failed)) else none

/-- `t` is cancelled at `p`. The execution of a turn is asked to cancel first. A chat that is
closed at a `yield` leaves the execution behind. -/
def cancel (s : Service) (t : TaskId) : Await → Option Service
  | .turn k r (.running _) => some (s.await t (.turn k r (.running true)))
  | .turn (.event e) r (.ended .cancelled) =>
      some (s.await t (.closing (.event e) r .cancelled))
  | .turn k r .yielded =>
      some ((s.unwind t (.turn k r .yielded)).await t (.abandoned k.instanceId))
  | .abandoned _ => none
  | .done _ => none
  | p => some ((s.unwind t p).await t (.done .cancelled))

/-- The execution of a turn ends. It ends by cancellation only if that was requested. -/
def turnEnds (s : Service) (t : TaskId) (how : TurnEnd) : Await → Option Service
  | .turn k r (.running cancelling) =>
      if how = .cancelled → cancelling then
        some ({ s with
          executed := s.executed ++ k.executed how }.await t (.turn k r (.ended how)))
      else none
  | _ => none

/-- The command of the terminal ends, with the new working directory. -/
def terminalRan (s : Service) (t : TaskId) (cwd : Option String) : Await → Option Service
  | .terminal _ _ r =>
      some ((s.modify r fun o =>
        ({ o with termCwd := if Event.truthy cwd then cwd else o.termCwd }.touch
          s.clock).termLeave).await t (.done .finished))
  | _ => none

/-- The step of the service under a label, if it is enabled. -/
def step (s : Service) : Label → Option Service
  | .call c => some (s.spawn (.called c))
  | .run t => s.tasks[t]?.bind (s.run t)
  | .forwarded t ok =>
      match s.tasks[t]? with
      | some (.forward _ _) =>
          some (s.await t (.done (.outcome (if ok then .forwarded else .dropped))))
      | _ => none
  | .terminalRan t cwd => s.tasks[t]?.bind (s.terminalRan t cwd)
  | .timeout t =>
      match s.tasks[t]? with
      | some (.raising a child) =>
          match s.tasks[child]? with
          | some (.done _) => none
          | _ => some (s.raisedOrQueued t a .queued)
      | _ => none
  | .yield t =>
      match s.tasks[t]? with
      | some (.turn (.chat id message) r (.running _)) =>
          some (s.await t (.turn (.chat id message) r .yielded))
      | _ => none
  | .turnEnds t how => s.tasks[t]?.bind (s.turnEnds t how)
  | .fail t => s.tasks[t]?.bind (s.fail t)
  | .cancel t => s.tasks[t]?.bind (s.cancel t)
  | .tick n => some { s with clock := s.clock + n }

end Service

end Runner
