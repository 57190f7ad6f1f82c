import GitAgent.Hub.Ingest

/-!
# Runners and republication

The registration and the heartbeat of the runners, and the republication of the events that
an instance has not processed, when its runner is stale (`RequeueStale`) or its user resumes
it (`RequeueInstance`).
-/

namespace Hub

/-! ### Runners -/

/-- The row of a runner after it registered again. -/
def RunnerRow.register (r : RunnerRow) (address : String) (slots : ℕ) (now : ℕ) : RunnerRow :=
  { r with address, slots, lastHeartbeatAt := now }

theorem RunnerRow.id_register (r : RunnerRow) (address : String) (slots now : ℕ) :
  (r.register address slots now).id = r.id
  := rfl

/-- The row of a runner after its heartbeat. -/
def RunnerRow.beat (r : RunnerRow) (now : ℕ) : RunnerRow :=
  { r with lastHeartbeatAt := now }

theorem RunnerRow.id_beat (r : RunnerRow) (now : ℕ) :
  (r.beat now).id = r.id
  := rfl

/-- The row of a runner that registers for the first time. -/
def RunnerRow.fresh (name address : String) (slots now : ℕ) (id : RunnerId) : RunnerRow :=
  ⟨id, name, address, slots, now⟩

theorem RunnerRow.id_fresh (name address : String) (slots now : ℕ) (id : RunnerId) :
  (RunnerRow.fresh name address slots now id).id = id
  := rfl

/-- Whether the last heartbeat of a runner is longer ago than `timeout`. -/
def RunnerRow.stale (r : RunnerRow) (timeout now : ℕ) : Bool :=
  r.lastHeartbeatAt + timeout < now

namespace Db

/-- The runner that is registered under a name. -/
def runnerNamed (db : Db) (name : String) : Option RunnerRow :=
  db.runners.rows.find? fun r => r.name = name

/-- `UpsertRunner`, and `register_runner` of the runners. -/
def upsertRunner (db : Db) (name address : String) (slots : ℕ) : Db × RunnerId :=
  match db.runnerNamed name with
  | some r =>
      ({ db with
          runners := db.runners.update (fun r' => r'.id = r.id)
            (fun r => r.register address slots db.now)
            fun r => r.id_register address slots db.now }, r.id)
  | none =>
      ({ db with
          runners := db.runners.insert (RunnerRow.fresh name address slots db.now)
            (RunnerRow.id_fresh name address slots db.now) }, db.runners.next)

/-- `HeartbeatRunner`, and `heartbeat_runner` of the runners. -/
def heartbeatRunner (db : Db) (R : RunnerId) : Db :=
  { db with
    runners := db.runners.update (fun r => r.id = R) (fun r => r.beat db.now)
      fun r => r.id_beat db.now }

/-- Whether the runner `R` is stale. -/
def staleRunner (db : Db) (timeout : ℕ) (R : RunnerId) : Bool :=
  (db.runners.find R).any fun r => r.stale timeout db.now

/-! ### Publication -/

/-- `MarkPublished`. -/
def markPublished (db : Db) (id : ℕ) : Db :=
  { db with
    outbox := db.outbox.update (fun o => o.id = id)
      (fun o => { o with publishedAt := some db.now }) fun _ => rfl }

/-- The first message about an event for an instance. -/
def firstPublication (db : Db) (eventId : EventId) (id : InstanceId) : Option OutboxRow :=
  db.outbox.rows.find? fun o => o.eventId = eventId ∧ o.payload.instanceId = id

/-- The reactions of the instances in `targets` that are not processed, each with the first
message about it. A reaction without a message is left out. -/
def requeued (db : Db) (targets : InstanceId → Bool) : List (JournalRow × OutboxRow) :=
  (db.journal.rows.filter fun j => targets j.instanceId && j.processedAt.isNone).filterMap
    fun j => (db.firstPublication j.eventId j.instanceId).map fun o => (j, o)

/-- The message that is published again. -/
def republication (p : JournalRow × OutboxRow) (id : ℕ) : OutboxRow :=
  .fresh p.1.eventId p.2.routingKey p.2.payload id

theorem id_republication (p : JournalRow × OutboxRow) (id : ℕ) :
  (republication p id).id = id
  := rfl

/-- The insertion of a message for each of the reactions. -/
def republish (db : Db) (rows : List (JournalRow × OutboxRow)) : Db :=
  { db with outbox := db.outbox.insertAll republication id_republication rows }

/-- `RequeueInstance`: what an instance has not processed is published again. Returns the
events. -/
def requeueInstance (db : Db) (id : InstanceId) : Db × List EventId :=
  let rows := db.requeued fun id' => id' = id
  (db.republish rows, rows.map fun p => p.1.eventId)

/-- Whether a row is that of an instance that is running on a stale runner. -/
def stranded (db : Db) (timeout : ℕ) (r : InstanceRow) : Bool :=
  r.status = .running && r.runnerId.any (db.staleRunner timeout)

/-- Whether an instance is running on a stale runner. -/
def strandedInstance (db : Db) (timeout : ℕ) (id : InstanceId) : Bool :=
  (db.instances.find id).any (db.stranded timeout)

theorem id_lower_now (db : Db) (r : InstanceRow) :
  (r.lower db.now).id = r.id
  := r.id_lower db.now

/-- The update of the instances that are running on stale runners to `down`. -/
def downStranded (db : Db) (timeout : ℕ) : Db :=
  { db with
    instances := db.instances.update (db.stranded timeout) (fun r => r.lower db.now)
      db.id_lower_now }

/-- `RequeueStale`: the instances that are running on stale runners go down, and what they
have not processed is published again. Returns the number of these instances and the traces
of the messages. -/
def requeueStale (db : Db) (timeout : ℕ) : Db × ℕ × List String :=
  let rows := db.requeued (db.strandedInstance timeout)
  ((db.downStranded timeout).republish rows,
    (db.instances.rows.filter (db.stranded timeout)).length,
    rows.map fun p => p.2.payload.traceId)

/-! ### What a republication writes -/

/-- The rows that a republication appends, one for each of the reactions. -/
theorem rows_republish (db : Db) (rows : List (JournalRow × OutboxRow)) :
  ∃ news, (db.republish rows).outbox.rows = db.outbox.rows ++ news ∧
    List.Forall₂ (fun p o => ∃ n, o = republication p n) rows news
  := Serial.rows_insertAll _ _ _ _

/-- The first message about an event for an instance is one of its messages, and the one
with the least number. -/
theorem firstPublication_spec {db : Db} {eventId : EventId} {id : InstanceId} {o : OutboxRow}
    (h : db.firstPublication eventId id = some o) :
  o ∈ db.outbox.rows ∧ o.eventId = eventId ∧ o.payload.instanceId = id ∧
    ∀ o' ∈ db.outbox.rows, o'.eventId = eventId → o'.payload.instanceId = id → o.id ≤ o'.id
  := by
  obtain ⟨he, hi⟩ : o.eventId = eventId ∧ o.payload.instanceId = id := by
    simpa using List.find?_some h
  refine ⟨List.mem_of_find?_eq_some h, he, hi, ?_⟩
  intro o' ho' he' hi'
  obtain ⟨-, rows, rows', hr, hn⟩ := List.find?_eq_some_iff_append.mp h
  have hs := db.outbox.sorted
  rw [hr] at hs ho'
  rcases List.mem_append.mp ho' with ho' | ho'
  · have := hn o' ho'
    simp [he', hi'] at this
  · rcases List.mem_cons.mp ho' with rfl | ho'
    · rfl
    · apply (List.rel_of_pairwise_cons (List.pairwise_append.mp hs).2.1 ho').le

/-- Where every reaction to be published again has a message, none is left out. -/
theorem requeued_forall₂ {db : Db} {targets : InstanceId → Bool}
    (h : ∀ j ∈ db.journal.rows, (db.firstPublication j.eventId j.instanceId).isSome) :
  List.Forall₂ (fun j p => p.1 = j ∧ db.firstPublication j.eventId j.instanceId = some p.2)
    (db.journal.rows.filter fun j => targets j.instanceId && j.processedAt.isNone)
    (db.requeued targets)
  := by
  rw [requeued]
  have hf : ∀ j ∈ db.journal.rows.filter fun j => targets j.instanceId && j.processedAt.isNone,
      (db.firstPublication j.eventId j.instanceId).isSome :=
    fun j hj => h j (List.mem_of_mem_filter hj)
  generalize (db.journal.rows.filter fun j => targets j.instanceId && j.processedAt.isNone) =
    rows at hf
  induction rows with
  | nil => exact .nil
  | cons j rows ih =>
      obtain ⟨o, ho⟩ := Option.isSome_iff_exists.mp (hf j (List.mem_cons_self ..))
      rw [List.filterMap_cons_some (b := (j, o)) (by rw [ho]; rfl)]
      exact .cons ⟨rfl, ho⟩ (ih fun j' hj' => hf j' (List.mem_cons_of_mem _ hj'))

/-! ### The holders of the instances -/

/-- A registration writes nothing but the runners. -/
theorem upsertRunner_frame (db : Db) (name address : String) (slots : ℕ) :
  ∃ runners, (db.upsertRunner name address slots).1 = { db with runners }
  := by
  rw [upsertRunner]
  split <;> exact ⟨_, rfl⟩

/-- The registration of a runner is none of the instances' rows. -/
theorem holder_upsertRunner (db : Db) (name address : String) (slots : ℕ) :
  (db.upsertRunner name address slots).1.holder = db.holder
  := by
  rw [upsertRunner]
  split <;> rfl

/-- An instance is running on a stale runner if its holder is stale. -/
theorem strandedInstance_eq (db : Db) (timeout : ℕ) (id : InstanceId) :
  db.strandedInstance timeout id = (db.holder id).any (db.staleRunner timeout)
  := by
  rw [strandedInstance, holder]
  cases db.instances.find id with
  | none => rfl
  | some r =>
      simp only [Option.any_some, Option.bind_some, stranded, InstanceRow.holder]
      cases r.status <;> simp

/-- The instances that are running on stale runners go down, and the others stay. -/
theorem holder_requeueStale (db : Db) (timeout : ℕ) (id : InstanceId) :
  (db.requeueStale timeout).1.holder id =
    if (db.holder id).any (db.staleRunner timeout) then none else db.holder id
  := by
  rw [← strandedInstance_eq, strandedInstance]
  have hf : (db.requeueStale timeout).1.instances.find id =
      (db.instances.find id).map fun r => if db.stranded timeout r then r.lower db.now else r :=
    Serial.find_update _ _ _ _ _
  rw [holder, hf, holder]
  cases db.instances.find id with
  | none => rfl
  | some r =>
      simp only [Option.map_some, Option.bind_some, Option.any_some]
      split <;> rfl

end Db

end Hub
