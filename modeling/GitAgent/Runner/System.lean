import GitAgent.Library.Transition
import GitAgent.Runner.Move

/-!
# A runner and its database

The system of one runner and the database, which nobody else writes. A step is a step of the
service, or the statement that a task awaits. The statement is executed at once, and its
reply stays with the task until the task runs on.
-/

namespace Runner

open Hub (InstanceId EventId RunnerId Db)

/-- The statement that a task awaits at a point, executed for the runner `R`, with the await
point that carries the reply. A statement that violates a constraint is not executed. -/
def Await.stmt (db : Db) (R : RunnerId) : Await → Option (Db × Await)
  | claim c .update =>
      match Store.claimInstance db c.instanceId R with
      | (db', true) => some (db', claim c (.replied ⟨.claimed, none⟩))
      | (db', false) => some (db', claim c .select)
  | claim c .select => some (db, claim c (.replied (Store.claimHolder db c.instanceId)))
  | skipBegin e none =>
      (Store.beginEvent db e).map fun (db', fresh) => (db', skipBegin e (some fresh))
  | skipMark e false => some (Store.markProcessed db e.reaction, skipMark e true)
  | peek e none => some (db, peek e (some (Store.peekHolder db e.instanceId R)))
  | begin e r none =>
      (Store.beginEvent db e).map fun (db', fresh) => (db', begin e r (some fresh))
  | context k r none => some (db, context k r (some (Store.loadContext db k.instanceId)))
  | mark e r false => some (Store.markProcessed db e.reaction, mark e r true)
  | termContext id command r none =>
      some (db, termContext id command r (some (Store.loadContext db id)))
  | release k id r false => some ((Store.releaseInstance db id R).1, release k id r true)
  | _ => none

/-- `Reply db R p db' q`: the statement awaited at `p` takes the database from `db` to `db'`,
and the task awaits its turn to run on at `q`. -/
inductive Reply (db : Db) (R : RunnerId) : Await → Db → Await → Prop
  | claimed {c : Caller} {db' : Db} (h : Store.claimInstance db c.instanceId R = (db', true)) :
      Reply db R (.claim c .update) db' (.claim c (.replied ⟨.claimed, none⟩))
  | unclaimed {c : Caller} : Reply db R (.claim c .update) db (.claim c .select)
  | select {c : Caller} :
      Reply db R (.claim c .select) db
        (.claim c (.replied (Store.claimHolder db c.instanceId)))
  | skipBegin {e : Event} {db' : Db} {fresh : Bool}
      (h : Store.beginEvent db e = some (db', fresh)) :
      Reply db R (.skipBegin e none) db' (.skipBegin e (some fresh))
  | skipMark {e : Event} :
      Reply db R (.skipMark e false) (Store.markProcessed db e.reaction) (.skipMark e true)
  | peek {e : Event} :
      Reply db R (.peek e none) db (.peek e (some (Store.peekHolder db e.instanceId R)))
  | begin {e : Event} {r : Ref} {db' : Db} {fresh : Bool}
      (h : Store.beginEvent db e = some (db', fresh)) :
      Reply db R (.begin e r none) db' (.begin e r (some fresh))
  | context {k : Turn} {r : Ref} :
      Reply db R (.context k r none) db
        (.context k r (some (Store.loadContext db k.instanceId)))
  | mark {e : Event} {r : Ref} :
      Reply db R (.mark e r false) (Store.markProcessed db e.reaction) (.mark e r true)
  | termContext {id : InstanceId} {command : String} {r : Ref} :
      Reply db R (.termContext id command r none) db
        (.termContext id command r (some (Store.loadContext db id)))
  | release {k : Stopper} {id : InstanceId} {r : Ref} :
      Reply db R (.release k id r false) (Store.releaseInstance db id R).1
        (.release k id r true)

variable {db db' : Db} {R : RunnerId} {p q : Await}

/-- Every statement is one of those listed. -/
theorem reply_of_stmt (h : p.stmt db R = some (db', q)) :
  Reply db R p db' q
  := by
  unfold Await.stmt at h
  split at h
  · split at h
    · rename_i hc
      obtain ⟨rfl, rfl⟩ := Prod.mk.inj (Option.some.inj h)
      apply Reply.claimed hc
    · rename_i hc
      obtain ⟨rfl, rfl⟩ := Prod.mk.inj (Option.some.inj h)
      rw [Store.claimInstance_miss hc]
      apply Reply.unclaimed
  · obtain ⟨rfl, rfl⟩ := Prod.mk.inj (Option.some.inj h)
    apply Reply.select
  · obtain ⟨⟨db', fresh⟩, hb, h⟩ := Option.map_eq_some_iff.mp h
    obtain ⟨rfl, rfl⟩ := Prod.mk.inj h
    apply Reply.skipBegin hb
  · obtain ⟨rfl, rfl⟩ := Prod.mk.inj (Option.some.inj h)
    apply Reply.skipMark
  · obtain ⟨rfl, rfl⟩ := Prod.mk.inj (Option.some.inj h)
    apply Reply.peek
  · obtain ⟨⟨db', fresh⟩, hb, h⟩ := Option.map_eq_some_iff.mp h
    obtain ⟨rfl, rfl⟩ := Prod.mk.inj h
    apply Reply.begin hb
  · obtain ⟨rfl, rfl⟩ := Prod.mk.inj (Option.some.inj h)
    apply Reply.context
  · obtain ⟨rfl, rfl⟩ := Prod.mk.inj (Option.some.inj h)
    apply Reply.mark
  · obtain ⟨rfl, rfl⟩ := Prod.mk.inj (Option.some.inj h)
    apply Reply.termContext
  · obtain ⟨rfl, rfl⟩ := Prod.mk.inj (Option.some.inj h)
    apply Reply.release
  · contradiction

/-- A task keeps its slots, its lock and what it uses while a statement is executed. -/
theorem Reply.keeps (h : Reply db R p db' q) :
  q.permits = p.permits ∧ q.holds = p.holds ∧ q.inside = p.inside ∧ q.uses = p.uses ∧
    q.claiming = p.claiming ∧ q.raises = p.raises ∧ q.executing = p.executing
  := by
  cases h <;> exact ⟨rfl, rfl, rfl, rfl, rfl, rfl, rfl⟩

/-! ### The system -/

/-- The state of the database and the service. -/
structure State where
  db : Db
  service : Service

/-- A step of the service, or the statement that the task `t` awaits. -/
inductive Action
  | step (ℓ : Label)
  | stmt (t : TaskId)
  deriving DecidableEq, Repr

namespace State

/-- The state after the statement that the task `t` awaits. -/
def stmt (s : State) (t : TaskId) : Option State := do
  let p ← s.service.tasks[t]?
  let (db, q) ← p.stmt s.db s.service.runnerId
  return ⟨db, s.service.await t q⟩

/-- The state after an action, if it is enabled. -/
def act (s : State) : Action → Option State
  | .step ℓ => (s.service.step ℓ).map fun service => ⟨s.db, service⟩
  | .stmt t => s.stmt t

/-- What an action does. -/
inductive Acts (s : State) : Action → State → Prop
  | step {ℓ : Label} {service : Service} (h : s.service.Steps ℓ service) :
      Acts s (.step ℓ) ⟨s.db, service⟩
  | stmt {t : TaskId} {p q : Await} {db : Db} (ht : s.service.tasks[t]? = some p)
      (h : Reply s.db s.service.runnerId p db q) :
      Acts s (.stmt t) ⟨db, s.service.await t q⟩

/-- An action is a step of the service or a statement. -/
theorem act_cases {s s' : State} {a : Action} (h : s.act a = some s') :
  s.Acts a s'
  := by
  cases a with
  | step ℓ =>
      obtain ⟨service, hs, rfl⟩ := Option.map_eq_some_iff.mp h
      apply Acts.step (Service.step_cases hs)
  | stmt t =>
      obtain ⟨p, ht, h⟩ := Option.bind_eq_some_iff.mp h
      obtain ⟨⟨db, q⟩, hq, h⟩ := Option.bind_eq_some_iff.mp h
      obtain rfl := Option.some.inj h
      apply Acts.stmt ht (reply_of_stmt hq)

end State

/-- The runner `R` with `slots` slots, from its registration on, over a database that
satisfies `P`. -/
def system (R : RunnerId) (slots : ℕ) (P : Db → Prop) :
    Transition.System State Action where
  init s := P s.db ∧ ∃ idleTimeout clock, s.service = .start R slots idleTimeout clock
  step := State.act

end Runner
