import Mathlib.Logic.Function.Basic
import GitAgent.Library.Table
import GitAgent.Hub.Event

/-!
# The schema of the hub

The tables of the database that the hub and the runners share. `Db.holder` is the runner
under which an instance is running; the statements on the row of an instance are described
by their effect on it.
-/

namespace Hub

/-- The two values of `agent_instances.status`. -/
inductive InstanceStatus
  | down
  | running
  deriving DecidableEq, Repr

/-- A row of `hub.agent_builds`, as far as its owner. -/
structure BuildRow where
  id : BuildId
  userId : UserId
  deriving DecidableEq, Repr

/-- A row of `hub.events`. -/
structure EventRow where
  id : EventId
  provider : String
  deliveryId : String
  repositoryId : RepositoryId
  action : String
  commitSha : Option String
  ref : Option String
  payload : String
  traceId : String
  beforeSha : Option String
  baseSha : Option String
  headSha : Option String
  prNumber : Option ℤ
  prTitle : Option String
  prBody : Option String
  changedFiles : Option (List String)
  deriving DecidableEq, Repr

/-- A row of `hub.outbox`. -/
structure OutboxRow where
  id : ℕ
  eventId : EventId
  routingKey : String
  payload : Message
  publishedAt : Option ℕ
  deriving DecidableEq, Repr

/-- A row of `hub.runners`. -/
structure RunnerRow where
  id : RunnerId
  name : String
  address : String
  slots : ℕ
  lastHeartbeatAt : ℕ
  deriving DecidableEq, Repr

/-- A row of `hub.agent_instances`. A running instance has a runner. -/
structure InstanceRow where
  id : InstanceId
  buildId : BuildId
  repositoryId : RepositoryId
  threadId : String
  status : InstanceStatus
  runnerId : Option RunnerId
  updatedAt : ℕ
  check : status = .down ∨ runnerId.isSome
  deriving DecidableEq, Repr

/-- A row of `hub.instance_events`, the journal of the reactions of an instance. -/
structure JournalRow where
  instanceId : InstanceId
  eventId : EventId
  dedupKey : String
  processedAt : Option ℕ
  deriving DecidableEq, Repr

/-- A row of `hub.build_subscriptions`. -/
structure SubscriptionRow where
  id : ℕ
  buildId : BuildId
  repositoryId : RepositoryId
  actions : List String
  refMask : Option String
  deriving DecidableEq, Repr

/-- A reaction: the instance and the key under which it reacts once. -/
abbrev Reaction := InstanceId × String

/-- The primary key of the journal. -/
def JournalRow.key (r : JournalRow) : Reaction :=
  (r.instanceId, r.dedupKey)

/-- The row after it was marked as processed. -/
def JournalRow.mark (r : JournalRow) (now : ℕ) : JournalRow :=
  { r with processedAt := some now }

theorem JournalRow.key_mark (r : JournalRow) (now : ℕ) :
  (r.mark now).key = r.key
  := rfl

/-- The database, and its clock. -/
structure Db where
  now : ℕ
  builds : Serial BuildRow BuildRow.id
  repositories : Serial Repository Repository.id
  events : Serial EventRow EventRow.id
  outbox : Serial OutboxRow OutboxRow.id
  runners : Serial RunnerRow RunnerRow.id
  instances : Serial InstanceRow InstanceRow.id
  journal : Table JournalRow JournalRow.key
  subscriptions : Serial SubscriptionRow SubscriptionRow.id

/-- The database without rows. -/
def Db.empty : Db where
  now := 0
  builds := .empty
  repositories := .empty
  events := .empty
  outbox := .empty
  runners := .empty
  instances := .empty
  journal := .empty
  subscriptions := .empty

/-- The database with one build, one repository, one event, and one instance, which is
down. -/
def Db.single : Db :=
  { Db.empty with
    builds := Serial.empty.insert (fun n => ⟨n, 1⟩) fun _ => rfl
    repositories := Serial.empty.insert (fun n => { id := n, userId := 1, provider := "github" })
      fun _ => rfl
    events := Serial.empty.insert (fun n =>
      ⟨n, "github", "delivery", 1, "push", some "c", none, "", "", none, none, none, none,
        none, none, none⟩) fun _ => rfl
    instances := Serial.empty.insert (fun n =>
      ⟨n, 1, 1, threadId 1 1, .down, none, 0, .inl rfl⟩) fun _ => rfl }

/-! ### The row of an instance -/

namespace InstanceRow

/-- A row that is down needs no runner. -/
theorem check_down :
  InstanceStatus.down = .down ∨ (none : Option RunnerId).isSome = true
  := .inl rfl

/-- The runner under which the instance is running. -/
def holder (r : InstanceRow) : Option RunnerId :=
  match r.status with
  | .running => r.runnerId
  | .down => none

/-- The row after an update to `running` under `runnerId`. -/
def run (r : InstanceRow) (runnerId : RunnerId) (now : ℕ) : InstanceRow :=
  { r with status := .running, runnerId := some runnerId, updatedAt := now,
           check := .inr rfl }

/-- The row after an update to `down`. -/
def lower (r : InstanceRow) (now : ℕ) : InstanceRow :=
  { r with status := .down, runnerId := none, updatedAt := now, check := .inl rfl }

theorem id_run (r : InstanceRow) (R : RunnerId) (now : ℕ) :
  (r.run R now).id = r.id
  := rfl

theorem id_lower (r : InstanceRow) (now : ℕ) :
  (r.lower now).id = r.id
  := rfl

@[simp]
theorem holder_run (r : InstanceRow) (R : RunnerId) (now : ℕ) :
  (r.run R now).holder = some R
  := rfl

@[simp]
theorem holder_lower (r : InstanceRow) (now : ℕ) :
  (r.lower now).holder = none
  := rfl

/-- The condition under which a runner claims a row: nobody else holds the instance. -/
theorem claimable_iff {r : InstanceRow} {R : RunnerId} :
  r.status = .down ∨ r.runnerId = some R ↔ r.holder = none ∨ r.holder = some R
  := by
  obtain ⟨_, _, _, _, status, runnerId, _, check⟩ := r
  cases status with
  | down => simp [holder]
  | running =>
      cases runnerId with
      | none => simp at check
      | some R' => simp [holder]

end InstanceRow

namespace Db

/-- The runner under which the instance `id` is running. -/
def holder (db : Db) (id : InstanceId) : Option RunnerId :=
  (db.instances.find id).bind InstanceRow.holder

/-- The address of a runner. -/
def address (db : Db) (R : RunnerId) : Option String :=
  (db.runners.find R).map RunnerRow.address

/-- Rewriting the row of the instance `id`. -/
def updateInstance (db : Db) (id : InstanceId) (f : InstanceRow → InstanceRow)
    (hf : ∀ r, (f r).id = r.id) : Db :=
  { db with instances := db.instances.update (fun r => r.id = id) f hf }

theorem find_updateInstance (db : Db) (id : InstanceId) (f : InstanceRow → InstanceRow)
    (hf : ∀ r, (f r).id = r.id) (id' : InstanceId) :
  (db.updateInstance id f hf).instances.find id' =
    if id' = id then (db.instances.find id).map f else db.instances.find id'
  := by
  rw [updateInstance, Serial.find_update]
  cases h : db.instances.find id' with
  | none =>
      split
      · rename_i e
        rw [← e, h]
        rfl
      · rfl
  | some r =>
      obtain rfl : r.id = id' := Table.key_of_find h
      by_cases e : r.id = id
      · subst e
        simp [h]
      · simp [e]

/-- Rewriting the row of `id` to one with the holder `h` updates the holder of `id`. -/
theorem holder_updateInstance {db : Db} {id : InstanceId} {f : InstanceRow → InstanceRow}
    {hf : ∀ r, (f r).id = r.id} {h : Option RunnerId} (hh : ∀ r, (f r).holder = h)
    (hr : db.instances.find id ≠ none) :
  (db.updateInstance id f hf).holder = Function.update db.holder id h
  := by
  obtain ⟨r, hr⟩ := Option.ne_none_iff_exists'.mp hr
  funext id'
  rw [holder, find_updateInstance, Function.update_apply]
  split
  · rw [hr]
    apply hh
  · rfl

/-- The update of the row of `id` to `running` under the runner `R`. -/
def runInstance (db : Db) (id : InstanceId) (R : RunnerId) : Db :=
  db.updateInstance id (fun r => r.run R db.now) fun r => r.id_run R db.now

/-- The update of the row of `id` to `down`. -/
def downInstance (db : Db) (id : InstanceId) : Db :=
  db.updateInstance id (fun r => r.lower db.now) fun r => r.id_lower db.now

theorem holder_runInstance {db : Db} {id : InstanceId} {R : RunnerId}
    (hr : db.instances.find id ≠ none) :
  (db.runInstance id R).holder = Function.update db.holder id (some R)
  := holder_updateInstance (fun r => r.holder_run R db.now) hr

/-- The update of a row that does not exist changes no holder. -/
theorem holder_runInstance_cases (db : Db) (id : InstanceId) (R : RunnerId) :
  (db.runInstance id R).holder = db.holder ∨
    (db.runInstance id R).holder = Function.update db.holder id (some R)
  := by
  by_cases hr : db.instances.find id = none
  · left
    funext id'
    rw [holder, holder, runInstance, find_updateInstance]
    split
    · rename_i e
      rw [e, hr]
      rfl
    · rfl
  · exact .inr (holder_runInstance hr)

theorem holder_downInstance (db : Db) (id : InstanceId) :
  (db.downInstance id).holder = Function.update db.holder id none
  := by
  cases hr : db.instances.find id with
  | some r =>
      apply holder_updateInstance (fun r => r.holder_lower db.now)
      rw [hr]
      apply Option.some_ne_none
  | none =>
      funext id'
      rw [holder, downInstance, find_updateInstance, Function.update_apply]
      split
      · rw [hr]
        rfl
      · rfl

/-- Nobody holds the instance of `Db.single`. -/
theorem holder_single (id : InstanceId) :
  Db.single.holder id = none
  := by
  rw [holder, single, Serial.find_insert]
  split <;> rfl

/-- The time at which a reaction was marked as processed. -/
def processedAt (db : Db) (k : Reaction) : Option ℕ :=
  (db.journal.find k).bind JournalRow.processedAt

end Db

end Hub
