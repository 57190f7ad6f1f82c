import GitAgent.Hub.Runners

/-!
# Requests to the instances

The operations by which users raise, chat with and stop an instance
(`app/instance.go`). A request is described by the statement or the call of a runner that it
awaits. The hub writes the row of an instance by what it read of it several awaits before.
-/

namespace Hub

/-- The operations. `raiseForRepository` raises the instances of the builds in turn. -/
inductive Request
  | chat (id : InstanceId) (message : String)
  | raise (id : InstanceId)
  | raiseForRepository (repositoryId : RepositoryId) (buildIds : List BuildId)
  | stop (id : InstanceId)
  deriving DecidableEq, Repr

/-- Whoever calls `ensureRunning`. -/
inductive Purpose
  | chat (message : String)
  | raise
  | raiseForRepository (repositoryId : RepositoryId) (rest : List BuildId)
  deriving DecidableEq, Repr

/-- The answers of a runner to a call. -/
inductive Answer
  | running
  | queued
  | refused
  deriving DecidableEq, Repr

/-- The await points of a request. A call that reached a runner awaits the task `t` of the
process `n`. -/
inductive Await
  | upsert (repositoryId : RepositoryId) (buildId : BuildId) (rest : List BuildId)
  | find (g : Purpose) (id : InstanceId)
  | holder (g : Purpose) (id : InstanceId) (R : RunnerId)
  | sandbox (g : Purpose) (id : InstanceId)
  | alive (g : Purpose) (id : InstanceId)
  | raise (g : Purpose) (id : InstanceId) (R : RunnerId) (address : String)
  | raising (g : Purpose) (id : InstanceId) (R : RunnerId) (address : String) (n t : ℕ)
  | setRunning (g : Purpose) (id : InstanceId) (R : RunnerId) (address : String)
  | chat (id : InstanceId) (message : String) (address : String)
  | findStop (id : InstanceId)
  | holderStop (id : InstanceId) (R : RunnerId)
  | stop (id : InstanceId) (address : String)
  | stopping (id : InstanceId) (n t : ℕ)
  | setDown (id : InstanceId)
  | done (ok : Bool)
  deriving DecidableEq, Repr

namespace Db

/-- The query `Instance`: the row of an instance in a repository of the user. -/
def instance? (db : Db) (id : InstanceId) (userId : UserId) : Option InstanceRow :=
  (db.instances.find id).filter fun r =>
    (db.repositories.find r.repositoryId).any fun repo => repo.userId = userId

/-- The runners whose last heartbeat is less than `within` ago. -/
def aliveRunners (db : Db) (within : ℕ) : List RunnerRow :=
  db.runners.rows.filter fun r => db.now < r.lastHeartbeatAt + within

/-- The query `AliveRunner` may return a row: no runner had its heartbeat later. -/
def isAliveRunner (db : Db) (within : ℕ) (r : RunnerRow) : Bool :=
  r ∈ db.aliveRunners within &&
    (db.aliveRunners within).all fun r' => r'.lastHeartbeatAt ≤ r.lastHeartbeatAt

end Db

/-- The instances of the builds that `RaiseForRepository` has still to raise. -/
def raiseRest (repositoryId : RepositoryId) : List BuildId → Await
  | [] => .done true
  | buildId :: rest => .upsert repositoryId buildId rest

/-- The first await point of a request. -/
def Request.start : Request → Await
  | chat id message => .find (.chat message) id
  | raise id => .find .raise id
  | raiseForRepository repositoryId buildIds => raiseRest repositoryId buildIds
  | stop id => .findStop id

/-- How a caller of `ensureRunning` goes on with the runner at `address`. -/
def Purpose.next (g : Purpose) (id : InstanceId) (address : String) : Await :=
  match g with
  | chat message => .chat id message address
  | raise => .done true
  | raiseForRepository repositoryId rest => raiseRest repositoryId rest

namespace Await

/-- The statement awaited at a point, executed for the user `userId`. Runners count as alive
for `within` after their heartbeat, and `R` is the runner that `AliveRunner` returns, which
is any of those with the last heartbeat. -/
def stmt (db : Db) (within : ℕ) (userId : UserId) (R : RunnerId) :
    Await → Option (Db × Await)
  | upsert repositoryId buildId rest =>
      match db.upsertInstance buildId repositoryId with
      | some (db', id, _) => some (db', find (.raiseForRepository repositoryId rest) id)
      | none => some (db, done false)
  | find g id =>
      match db.instance? id userId with
      | some r =>
          match r.holder with
          | some R => some (db, holder g id R)
          | none => some (db, sandbox g id)
      | none => some (db, done false)
  | holder g id R =>
      match db.runners.find R with
      | some r => some (db, g.next id r.address)
      | none => some (db, sandbox g id)
  | alive g id =>
      if db.aliveRunners within = [] then some (db, done false)
      else match db.runners.find R with
        | some r => if db.isAliveRunner within r then some (db, raise g id R r.address) else none
        | none => none
  | setRunning g id R address => some (db.runInstance id R, g.next id address)
  | findStop id =>
      match db.instance? id userId with
      | some r =>
          match r.holder with
          | some R => some (db, holderStop id R)
          | none => some (db, done true)
      | none => some (db, done false)
  | holderStop id R =>
      match db.runners.find R with
      | some r => some (db, stop id r.address)
      | none => some (db, setDown id)
  | setDown id => some (db.downInstance id, done true)
  | _ => none

/-- The instance has a living sandbox. -/
def provisioned : Await → Option Await
  | sandbox g id => some (alive g id)
  | _ => none

/-- The process and the task whose answer is awaited. -/
def callee : Await → Option (ℕ × ℕ)
  | raising _ _ _ _ n t => some (n, t)
  | stopping _ n t => some (n, t)
  | _ => none

/-- The request goes on after the answer of the runner. The hub marks an instance as down also
when the runner did not stop it. -/
def answered (answer : Answer) : Await → Option Await
  | raising g id R address _ _ =>
      match answer with
      | .running => some (setRunning g id R address)
      | .queued => some (g.next id address)
      | .refused => some (done false)
  | stopping id _ _ => some (setDown id)
  | _ => none

/-- The request goes on after an error: a statement or a call fails, or the context is
cancelled. -/
def failed : Await → Option Await
  | holderStop id _ | stop id _ | stopping id _ _ => some (setDown id)
  | done _ => none
  | _ => some (done false)

/-- What a statement of a request does to the row of an instance: nothing, or it writes the
row by what was read of it before. -/
inductive Row (db : Db) (p : Await) (db' : Db) : Prop
  | same (hh : db'.holder = db.holder)
  | running (g : Purpose) (id : InstanceId) (R : RunnerId) (address : String)
      (hp : p = .setRunning g id R address) (hd : db' = db.runInstance id R)
  | down (id : InstanceId) (hp : p = .setDown id) (hd : db' = db.downInstance id)

variable {db db' : Db} {within : ℕ} {userId : UserId} {R : RunnerId} {p q : Await}

/-- What the statements write. The journal, the outbox and the events are not among it. -/
theorem stmt_spec (h : p.stmt db within userId R = some (db', q)) :
  Row db p db' ∧ ∃ instances, db' = { db with instances }
  := by
  cases p with
  | upsert repositoryId buildId rest =>
      rw [stmt] at h
      split at h
      · rename_i db₁ id threadId hu
        obtain ⟨rfl, -⟩ := Prod.mk.inj (Option.some.inj h)
        obtain ⟨hd, -, -, hh⟩ := Db.upsertInstance_spec hu
        exact ⟨.same hh, hd⟩
      · obtain ⟨rfl, -⟩ := Prod.mk.inj (Option.some.inj h)
        exact ⟨.same rfl, _, rfl⟩
  | setRunning g id R address =>
      obtain ⟨rfl, -⟩ := Prod.mk.inj (Option.some.inj h)
      exact ⟨.running g id R address rfl rfl, _, rfl⟩
  | setDown id =>
      obtain ⟨rfl, -⟩ := Prod.mk.inj (Option.some.inj h)
      exact ⟨.down id rfl rfl, _, rfl⟩
  | find g id =>
      rw [stmt] at h
      split at h
      · split at h <;> obtain ⟨rfl, -⟩ := Prod.mk.inj (Option.some.inj h) <;>
          exact ⟨.same rfl, _, rfl⟩
      · obtain ⟨rfl, -⟩ := Prod.mk.inj (Option.some.inj h)
        exact ⟨.same rfl, _, rfl⟩
  | findStop id =>
      rw [stmt] at h
      split at h
      · split at h <;> obtain ⟨rfl, -⟩ := Prod.mk.inj (Option.some.inj h) <;>
          exact ⟨.same rfl, _, rfl⟩
      · obtain ⟨rfl, -⟩ := Prod.mk.inj (Option.some.inj h)
        exact ⟨.same rfl, _, rfl⟩
  | holder g id R =>
      rw [stmt] at h
      split at h <;> obtain ⟨rfl, -⟩ := Prod.mk.inj (Option.some.inj h) <;>
        exact ⟨.same rfl, _, rfl⟩
  | holderStop id R =>
      rw [stmt] at h
      split at h <;> obtain ⟨rfl, -⟩ := Prod.mk.inj (Option.some.inj h) <;>
        exact ⟨.same rfl, _, rfl⟩
  | alive g id =>
      rw [stmt] at h
      split at h
      · obtain ⟨rfl, -⟩ := Prod.mk.inj (Option.some.inj h)
        exact ⟨.same rfl, _, rfl⟩
      · split at h
        · split at h
          · obtain ⟨rfl, -⟩ := Prod.mk.inj (Option.some.inj h)
            exact ⟨.same rfl, _, rfl⟩
          · contradiction
        · contradiction
  | _ => contradiction

end Await

end Hub
