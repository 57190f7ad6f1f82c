import GitAgent.Hub.Schema

/-!
# Ingest of events

The transaction in which the hub records an event (`Store.Ingest`): the row of the event,
unless an event with the same provider and delivery was recorded before, and for each of the
builds its instance, the row of the journal, and the message in the outbox.
-/

namespace Hub

/-- The row of an event. -/
def EventRow.of (repo : Repository) (e : Event) (payload : String) (id : EventId) :
    EventRow where
  id
  provider := repo.provider
  deliveryId := e.deliveryId
  repositoryId := repo.id
  action := e.action
  commitSha := filled e.commitSha
  ref := filled e.ref
  payload
  traceId := e.traceId
  beforeSha := filled e.beforeSha
  baseSha := filled e.baseSha
  headSha := filled e.headSha
  prNumber := if e.prNumber = 0 then none else some e.prNumber
  prTitle := filled e.prTitle
  prBody := filled e.prBody
  changedFiles := if e.changedFiles = [] then none else some e.changedFiles

theorem EventRow.id_of (repo : Repository) (e : Event) (payload : String) (id : EventId) :
  (EventRow.of repo e payload id).id = id
  := rfl

/-- The row of a new instance. -/
def InstanceRow.fresh (buildId : BuildId) (repositoryId : RepositoryId) (now : ℕ)
    (id : InstanceId) : InstanceRow :=
  ⟨id, buildId, repositoryId, Hub.threadId buildId repositoryId, .down, none, now,
    InstanceRow.check_down⟩

theorem InstanceRow.id_fresh (buildId : BuildId) (repositoryId : RepositoryId) (now : ℕ)
    (id : InstanceId) :
  (InstanceRow.fresh buildId repositoryId now id).id = id
  := rfl

/-- The row of an instance after it was met by an upsert. -/
def InstanceRow.touch (r : InstanceRow) (now : ℕ) : InstanceRow :=
  { r with updatedAt := now }

theorem InstanceRow.id_touch (r : InstanceRow) (now : ℕ) :
  (r.touch now).id = r.id
  := rfl

/-- The row of a message that is to be published. -/
def OutboxRow.fresh (eventId : EventId) (routingKey : String) (payload : Message) (id : ℕ) :
    OutboxRow :=
  ⟨id, eventId, routingKey, payload, none⟩

theorem OutboxRow.id_fresh (eventId : EventId) (routingKey : String) (payload : Message)
    (id : ℕ) :
  (OutboxRow.fresh eventId routingKey payload id).id = id
  := rfl

namespace Db

/-- The event recorded for a delivery. -/
def delivered (db : Db) (provider deliveryId : String) : Option EventRow :=
  db.events.rows.find? fun r => r.provider = provider ∧ r.deliveryId = deliveryId

/-- `InsertEvent`, of a delivery that was not recorded before. -/
def insertEvent (db : Db) (repo : Repository) (e : Event) (payload : String) : Db :=
  { db with
    events := db.events.insert (EventRow.of repo e payload) (EventRow.id_of repo e payload) }

/-- The instance of a build in a repository. -/
def instanceOf (db : Db) (buildId : BuildId) (repositoryId : RepositoryId) :
    Option InstanceRow :=
  db.instances.rows.find? fun r => r.buildId = buildId ∧ r.repositoryId = repositoryId

/-- The insertion of the instance of a build in a repository. -/
def insertInstance (db : Db) (buildId : BuildId) (repositoryId : RepositoryId) : Db :=
  { db with
    instances := db.instances.insert (InstanceRow.fresh buildId repositoryId db.now)
      (InstanceRow.id_fresh buildId repositoryId db.now) }

/-- The update of an instance that exists already. -/
def touchInstance (db : Db) (id : InstanceId) : Db :=
  db.updateInstance id (fun r => r.touch db.now) fun r => r.id_touch db.now

/-- `UpsertInstance`: the instance of a build in a repository, which is inserted where there
is none. The insertion fails when the build or the repository does not exist. Returns the
instance and its thread. -/
def upsertInstance (db : Db) (buildId : BuildId) (repositoryId : RepositoryId) :
    Option (Db × InstanceId × String) :=
  match db.instanceOf buildId repositoryId with
  | some r => some (db.touchInstance r.id, r.id, r.threadId)
  | none =>
      if (db.builds.find buildId).isSome ∧ (db.repositories.find repositoryId).isSome then
        some (db.insertInstance buildId repositoryId, db.instances.next,
          threadId buildId repositoryId)
      else none

/-- `InsertInstanceEvent`: a reaction that is recorded already stays as it is. -/
def insertInstanceEvent (db : Db) (instanceId : InstanceId) (eventId : EventId)
    (dedupKey : String) : Db :=
  match h : db.journal.find (JournalRow.key ⟨instanceId, eventId, dedupKey, none⟩) with
  | some _ => db
  | none =>
      { db with journal := db.journal.insert ⟨instanceId, eventId, dedupKey, none⟩ h }

/-- `InsertOutbox`. -/
def insertOutbox (db : Db) (eventId : EventId) (routingKey : String) (payload : Message) : Db :=
  { db with
    outbox := db.outbox.insert (OutboxRow.fresh eventId routingKey payload)
      (OutboxRow.id_fresh eventId routingKey payload) }

/-- The part of `Ingest` for one build. Returns the instance. -/
def ingestBuild (db : Db) (eventId : EventId) (repo : Repository) (e : Event)
    (buildId : BuildId) : Option (Db × InstanceId) := do
  let (db, id, threadId) ← db.upsertInstance buildId repo.id
  let db := db.insertInstanceEvent id eventId (dedupKey eventId e)
  let db := db.insertOutbox eventId (routingKey repo.provider repo.id e.action)
    (eventMessage eventId id threadId repo e)
  return (db, id)

/-- The part of `Ingest` for each of the builds in turn. Returns the instances. -/
def ingestBuilds (db : Db) (eventId : EventId) (repo : Repository) (e : Event) :
    List BuildId → Option (Db × List InstanceId)
  | [] => some (db, [])
  | buildId :: buildIds => do
      let (db, id) ← db.ingestBuild eventId repo e buildId
      let (db, ids) ← db.ingestBuilds eventId repo e buildIds
      return (db, id :: ids)

/-- `Ingest`: whether the delivery is a duplicate, and the instances that receive the event.
It fails, and changes nothing, when a statement violates a constraint. The parameter
`storable` says which values the columns of `hub.events` can hold. -/
def ingest (storable : Event → String → Bool) (db : Db) (repo : Repository) (e : Event)
    (payload : String) (buildIds : List BuildId) : Option (Db × Bool × List InstanceId) :=
  if ¬ storable e payload then none
  else if (db.delivered repo.provider e.deliveryId).isSome then some (db, true, [])
  else if (db.repositories.find repo.id).isNone then none
  else do
    let (db, ids) ← (db.insertEvent repo e payload).ingestBuilds db.events.next repo e buildIds
    return (db, false, ids)

/-! ### What a transaction writes -/

/-- The build, the repository and the thread of an instance, which never change. -/
def origin (db : Db) (id : InstanceId) : Option (BuildId × RepositoryId × String) :=
  (db.instances.find id).map fun r => (r.buildId, r.repositoryId, r.threadId)

/-- What `Ingest` writes after the row of the event `eventId`: for each of the builds a
message for its instance, and at most one row of the journal for each of the messages. -/
structure Ingested (db : Db) (eventId : EventId) (repo : Repository) (e : Event)
    (buildIds : List BuildId) (db' : Db) (ids : List InstanceId) : Prop where
  frame : ∃ instances journal outbox, db' = { db with instances, journal, outbox }
  outbox : ∃ rows, db'.outbox.rows = db.outbox.rows ++ rows ∧
    ids = rows.map (fun o => o.payload.instanceId) ∧
    List.Forall₂ (fun buildId o => ∃ n id threadId,
      db'.origin id = some (buildId, repo.id, threadId) ∧
      o = .fresh eventId (routingKey repo.provider repo.id e.action)
        (eventMessage eventId id threadId repo e) n) buildIds rows
  journal : ∀ j ∈ db'.journal.rows, j ∈ db.journal.rows ∨
    j.instanceId ∈ ids ∧ j.eventId = eventId ∧ j.dedupKey = dedupKey eventId e
  recorded : ∀ k r, db.journal.find k = some r → db'.journal.find k = some r
  origin : ∀ id o, db.origin id = some o → db'.origin id = some o
  holder : db'.holder = db.holder

theorem origin_touchInstance (db : Db) (id : InstanceId) :
  (db.touchInstance id).origin = db.origin
  := by
  funext id'
  rw [Db.origin, touchInstance, find_updateInstance, Db.origin]
  split
  · rename_i e
    rw [e, Option.map_map]
    rfl
  · rfl

/-- What an upsert of an instance writes. -/
theorem upsertInstance_spec {db db' : Db} {buildId : BuildId} {repositoryId : RepositoryId}
    {id : InstanceId} {threadId : String}
    (h : db.upsertInstance buildId repositoryId = some (db', id, threadId)) :
  (∃ instances, db' = { db with instances }) ∧
    db'.origin id = some (buildId, repositoryId, threadId) ∧
    (∀ id' o, db.origin id' = some o → db'.origin id' = some o) ∧ db'.holder = db.holder
  := by
  rw [upsertInstance] at h
  split at h
  · rename_i r hr
    obtain ⟨rfl, hp⟩ := Prod.mk.inj (Option.some.inj h)
    obtain ⟨rfl, rfl⟩ := Prod.mk.inj hp
    have hf : db.instances.find r.id = some r := Table.find_of_mem (List.mem_of_find?_eq_some hr)
    obtain ⟨rfl, rfl⟩ : r.buildId = buildId ∧ r.repositoryId = repositoryId := by
      simpa using List.find?_some hr
    have ho := db.origin_touchInstance r.id
    refine ⟨⟨_, rfl⟩, ?_, fun id' o h => (congrFun ho id').trans h, ?_⟩
    · rw [ho, Db.origin, hf]
      rfl
    · funext id
      rw [Db.holder, touchInstance, find_updateInstance]
      split
      · rename_i e
        rw [e, Db.holder, hf]
        rfl
      · rfl
  · split at h
    · obtain ⟨rfl, hp⟩ := Prod.mk.inj (Option.some.inj h)
      obtain ⟨rfl, rfl⟩ := Prod.mk.inj hp
      refine ⟨⟨_, rfl⟩, ?_, ?_, ?_⟩
      · rw [Db.origin, insertInstance, Serial.find_insert, if_pos rfl]
        rfl
      · intro id' o h
        rw [Db.origin, insertInstance, Serial.find_insert, if_neg]
        · apply h
        · rintro rfl
          rw [Db.origin, Serial.find_next] at h
          contradiction
      · funext id
        rw [Db.holder, insertInstance, Serial.find_insert]
        split
        · rename_i e
          rw [e, Db.holder, Serial.find_next]
          rfl
        · rfl
    · contradiction

/-- What the insertion of a reaction writes. -/
theorem insertInstanceEvent_spec (db : Db) (id : InstanceId) (eventId : EventId)
    (dedupKey : String) :
  (∃ journal, db.insertInstanceEvent id eventId dedupKey = { db with journal }) ∧
    (∀ j ∈ (db.insertInstanceEvent id eventId dedupKey).journal.rows,
      j ∈ db.journal.rows ∨ j = ⟨id, eventId, dedupKey, none⟩) ∧
    ∀ k r, db.journal.find k = some r →
      (db.insertInstanceEvent id eventId dedupKey).journal.find k = some r
  := by
  rw [insertInstanceEvent]
  split
  · exact ⟨⟨_, rfl⟩, fun j hj => .inl hj, fun k r h => h⟩
  · rename_i hn
    refine ⟨⟨_, rfl⟩, ?_, ?_⟩
    · intro j hj
      apply (List.mem_append.mp hj).imp_right List.mem_singleton.mp
    · intro k r h
      rw [Table.find_insert, if_neg]
      · apply h
      · rintro rfl
        rw [hn] at h
        contradiction

namespace Ingested

variable {db db₁ db₂ : Db} {eventId : EventId} {repo : Repository} {e : Event}
  {buildIds buildIds' : List BuildId} {ids ids' : List InstanceId}

theorem nil (db : Db) (eventId : EventId) (repo : Repository) (e : Event) :
  Ingested db eventId repo e [] db []
  := ⟨⟨_, _, _, rfl⟩, ⟨[], (List.append_nil _).symm, rfl, .nil⟩, fun _ hj => .inl hj,
      fun _ _ h => h, fun _ _ h => h, rfl⟩

/-- What is written for some builds and then for others is written for all of them. -/
theorem append (h₁ : Ingested db eventId repo e buildIds db₁ ids)
    (h₂ : Ingested db₁ eventId repo e buildIds' db₂ ids') :
  Ingested db eventId repo e (buildIds ++ buildIds') db₂ (ids ++ ids')
  := by
  constructor
  · obtain ⟨_, _, _, rfl⟩ := h₁.frame
    obtain ⟨_, _, _, rfl⟩ := h₂.frame
    exact ⟨_, _, _, rfl⟩
  · obtain ⟨rows, hr, rfl, hf⟩ := h₁.outbox
    obtain ⟨rows', hr', rfl, hf'⟩ := h₂.outbox
    refine ⟨rows ++ rows', ?_, (List.map_append ..).symm, ?_⟩
    · rw [hr', hr, List.append_assoc]
    · apply List.rel_append _ hf'
      apply hf.imp
      rintro buildId o ⟨n, id, threadId, ho, rfl⟩
      exact ⟨n, id, threadId, h₂.origin _ _ ho, rfl⟩
  · intro j hj
    rcases h₂.journal j hj with hj | ⟨hi, hj⟩
    · rcases h₁.journal j hj with hj | ⟨hi, hj⟩
      · exact .inl hj
      · exact .inr ⟨List.mem_append_left _ hi, hj⟩
    · exact .inr ⟨List.mem_append_right _ hi, hj⟩
  · exact fun k r h => h₂.recorded k r (h₁.recorded k r h)
  · exact fun id o h => h₂.origin id o (h₁.origin id o h)
  · apply h₂.holder.trans h₁.holder

end Ingested

variable {db db' : Db} {eventId : EventId} {repo : Repository} {e : Event}

/-- What is written for one build. -/
theorem ingested_build {buildId : BuildId} {id : InstanceId}
    (h : db.ingestBuild eventId repo e buildId = some (db', id)) :
  Ingested db eventId repo e [buildId] db' [id]
  := by
  obtain ⟨⟨db₁, id, threadId⟩, hu, h⟩ := Option.bind_eq_some_iff.mp h
  obtain ⟨rfl, rfl⟩ := Prod.mk.inj (Option.some.inj h)
  obtain ⟨⟨instances, rfl⟩, hid, ho, hh⟩ := upsertInstance_spec hu
  obtain ⟨⟨journal, hj⟩, hjournal, hrec⟩ := insertInstanceEvent_spec
    { db with instances } id eventId (dedupKey eventId e)
  rw [hj] at hjournal hrec ⊢
  constructor
  · exact ⟨_, _, _, rfl⟩
  · exact ⟨_, rfl, rfl, .cons ⟨_, id, threadId, hid, rfl⟩ .nil⟩
  · intro j hj
    rcases hjournal j hj with hj | rfl
    · exact .inl hj
    · exact .inr ⟨List.mem_singleton_self _, rfl, rfl⟩
  · apply hrec
  · apply ho
  · apply hh

/-- What is written for the builds. -/
theorem ingested_builds {buildIds : List BuildId} {ids : List InstanceId}
    (h : db.ingestBuilds eventId repo e buildIds = some (db', ids)) :
  Ingested db eventId repo e buildIds db' ids
  := by
  induction buildIds generalizing db ids with
  | nil =>
      obtain ⟨rfl, rfl⟩ := Prod.mk.inj (Option.some.inj h)
      apply Ingested.nil
  | cons buildId buildIds ih =>
      obtain ⟨⟨db₁, id⟩, hb, h⟩ := Option.bind_eq_some_iff.mp h
      obtain ⟨⟨db₂, ids⟩, hbs, h⟩ := Option.bind_eq_some_iff.mp h
      obtain ⟨rfl, rfl⟩ := Prod.mk.inj (Option.some.inj h)
      apply (ingested_build hb).append (ih hbs)

/-- A transaction records a duplicate nowhere, and a new delivery for each of the builds. -/
theorem ingestBuilds_of_ingest {storable : Event → String → Bool} {payload : String}
    {buildIds : List BuildId} {duplicate : Bool} {ids : List InstanceId}
    (h : db.ingest storable repo e payload buildIds = some (db', duplicate, ids)) :
  (db.delivered repo.provider e.deliveryId).isSome ∧ db' = db ∧ duplicate = true ∧ ids = [] ∨
    db.delivered repo.provider e.deliveryId = none ∧ duplicate = false ∧
      (db.insertEvent repo e payload).ingestBuilds db.events.next repo e buildIds = some (db', ids)
  := by
  rw [ingest] at h
  split at h
  · contradiction
  split at h
  · rename_i hd
    obtain ⟨rfl, hp⟩ := Prod.mk.inj (Option.some.inj h)
    obtain ⟨rfl, rfl⟩ := Prod.mk.inj hp
    exact .inl ⟨hd, rfl, rfl, rfl⟩
  split at h
  · contradiction
  · rename_i hd _
    obtain ⟨⟨db', ids⟩, hb, h⟩ := Option.bind_eq_some_iff.mp h
    obtain ⟨rfl, hp⟩ := Prod.mk.inj (Option.some.inj h)
    obtain ⟨rfl, rfl⟩ := Prod.mk.inj hp
    right
    exact ⟨by simpa using hd, rfl, hb⟩

/-- A transaction records a duplicate nowhere, and a new delivery with all its messages. -/
theorem ingest_cases {storable : Event → String → Bool} {payload : String}
    {buildIds : List BuildId} {duplicate : Bool} {ids : List InstanceId}
    (h : db.ingest storable repo e payload buildIds = some (db', duplicate, ids)) :
  (db.delivered repo.provider e.deliveryId).isSome ∧ db' = db ∧ duplicate = true ∧ ids = [] ∨
    db.delivered repo.provider e.deliveryId = none ∧ duplicate = false ∧
      Ingested (db.insertEvent repo e payload) db.events.next repo e buildIds db' ids
  := by
  rcases ingestBuilds_of_ingest h with hd | ⟨hd, hduplicate, hb⟩
  · exact .inl hd
  · exact .inr ⟨hd, hduplicate, ingested_builds hb⟩

/-- An event changes the holder of no instance. -/
theorem holder_ingest {storable : Event → String → Bool} {payload : String}
    {buildIds : List BuildId} {duplicate : Bool} {ids : List InstanceId}
    (h : db.ingest storable repo e payload buildIds = some (db', duplicate, ids)) :
  db'.holder = db.holder
  := by
  rcases ingest_cases h with ⟨-, rfl, -⟩ | ⟨-, -, hi⟩
  · rfl
  · apply hi.holder

end Db

end Hub
