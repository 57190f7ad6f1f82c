import GitAgent.Hub.Cascade
import GitAgent.Hub.Runners
import GitAgent.Runner.Handler

/-!
# Publications and the journal

The journal of the reactions is written by the hub, when it ingests an event, and by the
runners, when they begin one; the messages are written by the hub alone. They agree: every
recorded reaction has a message in the outbox, and the messages about an event for an instance
are all the same (`Agrees`). What a runner received is in the outbox as long as its event
exists (`Published`). So a republication publishes every reaction again that is not processed,
with the message by which it was first published, and nothing else.
-/

namespace Cluster

open Hub (EventId InstanceId RunnerId RepositoryId BuildId UserId Db Message JournalRow
  OutboxRow Repository)
open Runner (parseEvent)
open Runner.Store (beginEvent markProcessed claimInstance releaseInstance)

/-! ### Agreement -/

/-- A reaction that the journal records, with its event. -/
def Records (db : Db) (id : InstanceId) (eventId : EventId) (dedupKey : String) : Prop :=
  ∃ j ∈ db.journal.rows, j.instanceId = id ∧ j.eventId = eventId ∧ j.dedupKey = dedupKey

/-- A message that is in the outbox. -/
def Publishes (db : Db) (eventId : EventId) (routingKey : String) (m : Message) : Prop :=
  ∃ o ∈ db.outbox.rows, o.eventId = eventId ∧ o.routingKey = routingKey ∧ o.payload = m

/-- The journal and the outbox agree. -/
structure Agrees (db : Db) : Prop where
  records : ∀ id eventId k, Records db id eventId k →
    ∃ key m, Publishes db eventId key m ∧ m.instanceId = id ∧ m.dedupKey = k
  publishes : ∀ eventId key m, Publishes db eventId key m →
    m.eventId = eventId ∧ (db.events.find eventId).isSome
  unique : ∀ eventId key key' m m', Publishes db eventId key m → Publishes db eventId key' m' →
    m.instanceId = m'.instanceId → key = key' ∧ m = m'

/-- A message that was published is in the outbox as long as its event exists. -/
def Published (db : Db) (m : Message) : Prop :=
  m.eventId < db.events.next ∧
    ((db.events.find m.eventId).isSome → ∃ key, Publishes db m.eventId key m)

variable {db db' : Db} {m : Message}

/-- A message of the outbox is one that was published. -/
theorem Agrees.published (h : Agrees db) {eventId : EventId} {key : String}
    (hm : Publishes db eventId key m) :
  Published db m
  := by
  obtain ⟨rfl, he⟩ := h.publishes _ _ _ hm
  constructor
  · obtain ⟨r, hr⟩ := Option.isSome_iff_exists.mp he
    rw [← Table.key_of_find hr]
    apply db.events.lt_next r (Table.mem_of_find hr)
  · exact fun _ => ⟨key, hm⟩

/-- A journal and an outbox without rows. -/
theorem Agrees.of_empty (hj : db.journal.rows = []) (ho : db.outbox.rows = []) :
  Agrees db
  := by
  constructor
  · rintro id eventId k ⟨j, hm, -⟩
    rw [hj] at hm
    contradiction
  · rintro eventId key m ⟨o, hm, -⟩
    rw [ho] at hm
    contradiction
  · rintro eventId key key' m m' ⟨o, hm, -⟩
    rw [ho] at hm
    contradiction

/-! ### Writes that neither record nor publish -/

/-- The same events, the same messages, and no reactions but the old ones. -/
structure Follows (db db' : Db) : Prop where
  records : ∀ {id eventId k}, Records db' id eventId k → Records db id eventId k
  publishes : ∀ {eventId key m}, Publishes db' eventId key m ↔ Publishes db eventId key m
  events : db'.events = db.events

/-- Where nothing is recorded and published, the journal and the outbox still agree. -/
theorem Agrees.follow (h : Agrees db) (hf : Follows db db') :
  Agrees db'
  := by
  constructor
  · intro id eventId k hr
    obtain ⟨key, m, hm, hk⟩ := h.records id eventId k (hf.records hr)
    exact ⟨key, m, hf.publishes.mpr hm, hk⟩
  · intro eventId key m hm
    rw [hf.events]
    apply h.publishes eventId key m (hf.publishes.mp hm)
  · intro eventId key key' m m' hm hm'
    apply h.unique eventId key key' m m' (hf.publishes.mp hm) (hf.publishes.mp hm')

theorem Published.follow (h : Published db m) (hf : Follows db db') :
  Published db' m
  := by
  rw [Published, hf.events]
  refine ⟨h.1, ?_⟩
  intro he
  obtain ⟨key, hm⟩ := h.2 he
  exact ⟨key, hf.publishes.mpr hm⟩

theorem Follows.trans {db'' : Db} (h : Follows db db') (h' : Follows db' db'') :
  Follows db db''
  := ⟨fun hr => h.records (h'.records hr), h'.publishes.trans h.publishes,
      h'.events.trans h.events⟩

/-- A write to other tables. -/
theorem follows_of_eq (hj : db'.journal = db.journal) (ho : db'.outbox = db.outbox)
    (he : db'.events = db.events) :
  Follows db db'
  := by
  constructor
  · intro id eventId k h
    rw [Records, hj] at h
    apply h
  · intro eventId key m
    rw [Publishes, ho]
    rfl
  · apply he

theorem follows_markPublished (db : Db) (id : ℕ) :
  Follows db (db.markPublished id)
  := by
  refine ⟨fun h => h, ?_, rfl⟩
  intro eventId key m
  constructor
  · rintro ⟨o, ho, h⟩
    obtain ⟨o', ho', rfl⟩ := List.mem_map.mp ho
    refine ⟨o', ho', ?_⟩
    split at h <;> exact h
  · rintro ⟨o, ho, h⟩
    refine ⟨_, List.mem_map.mpr ⟨o, ho, rfl⟩, ?_⟩
    split <;> exact h

theorem follows_markProcessed (db : Db) (k : Hub.Reaction) :
  Follows db (markProcessed db k)
  := by
  refine ⟨?_, Iff.rfl, rfl⟩
  rintro id eventId dedupKey ⟨j, hj, h⟩
  obtain ⟨j', hj', rfl⟩ := List.mem_map.mp hj
  refine ⟨j', hj', ?_⟩
  split at h <;> exact h

/-- A republication publishes no message that is not in the outbox already. -/
theorem follows_republish (db : Db) {rows : List (JournalRow × OutboxRow)}
    (h : ∀ p ∈ rows, p.2 ∈ db.outbox.rows ∧ p.2.eventId = p.1.eventId) :
  Follows db (db.republish rows)
  := by
  obtain ⟨news, hr, hf⟩ := db.rows_republish rows
  refine ⟨fun h => h, ?_, rfl⟩
  intro eventId key m
  constructor
  · rintro ⟨o, ho, hm⟩
    rw [hr] at ho
    rcases List.mem_append.mp ho with ho | ho
    · exact ⟨o, ho, hm⟩
    · obtain ⟨p, hp, n, rfl⟩ := hf.exists_of_mem ho
      obtain ⟨hp, he⟩ := h p hp
      exact ⟨p.2, hp, he.trans hm.1, hm.2⟩
  · rintro ⟨o, ho, hm⟩
    refine ⟨o, ?_, hm⟩
    rw [hr]
    apply List.mem_append_left _ ho

/-! ### Writes that record and publish -/

/-- An event that is ingested is recorded only with its messages. -/
theorem Agrees.ingested {eventId : EventId} {repo : Repository} {e : Hub.Event}
    {buildIds : List BuildId} {ids : List InstanceId} (h : Agrees db)
    (hn : ∀ key m, ¬ Publishes db eventId key m)
    (hi : Db.Ingested db eventId repo e buildIds db' ids)
    (he : (db.events.find eventId).isSome) :
  Agrees db'
  := by
  obtain ⟨rows, ho, rfl, hf⟩ := hi.outbox
  have hevents : db'.events = db.events := by
    obtain ⟨_, _, _, rfl⟩ := hi.frame
    rfl
  -- A message is an old one, or one of those about the event.
  have hpub : ∀ {eventId' key m}, Publishes db' eventId' key m →
      Publishes db eventId' key m ∨
        eventId' = eventId ∧ key = Hub.routingKey repo.provider repo.id e.action ∧
          ∃ buildId id threadId, db'.origin id = some (buildId, repo.id, threadId) ∧
            m = Hub.eventMessage eventId id threadId repo e := by
    rintro eventId' key m ⟨o, hm, h⟩
    rw [ho] at hm
    rcases List.mem_append.mp hm with hm | hm
    · exact .inl ⟨o, hm, h⟩
    · obtain ⟨buildId, -, n, id, threadId, hid, rfl⟩ := hf.exists_of_mem hm
      obtain ⟨rfl, rfl, rfl⟩ := h
      exact .inr ⟨rfl, rfl, buildId, id, threadId, hid, rfl⟩
  have hold : ∀ {eventId' key m}, Publishes db eventId' key m → Publishes db' eventId' key m := by
    rintro eventId' key m ⟨o, hm, h⟩
    refine ⟨o, ?_, h⟩
    rw [ho]
    apply List.mem_append_left _ hm
  constructor
  · rintro id eventId' k ⟨j, hj, rfl, rfl, rfl⟩
    rcases hi.journal j hj with hj | ⟨hid, heq, hk⟩
    · obtain ⟨key, m, hm, hk⟩ := h.records _ _ _ ⟨j, hj, rfl, rfl, rfl⟩
      exact ⟨key, m, hold hm, hk⟩
    · obtain ⟨o, hm, hid⟩ := List.mem_map.mp hid
      obtain ⟨buildId, -, n, id, threadId, -, rfl⟩ := hf.exists_of_mem hm
      refine ⟨_, _, ⟨_, ?_, heq.symm, rfl, rfl⟩, hid, hk.symm⟩
      rw [ho]
      apply List.mem_append_right _ hm
  · intro eventId' key m hm
    rw [hevents]
    rcases hpub hm with hm | ⟨rfl, -, buildId, id, threadId, -, rfl⟩
    · apply h.publishes _ _ _ hm
    · exact ⟨rfl, he⟩
  · intro eventId' key key' m m' hm hm' hid
    rcases hpub hm with hm | ⟨rfl, rfl, buildId, id, threadId, ho, rfl⟩
    · rcases hpub hm' with hm' | ⟨rfl, -⟩
      · apply h.unique _ _ _ _ _ hm hm' hid
      · apply absurd hm (hn _ _)
    · rcases hpub hm' with hm' | ⟨-, rfl, buildId', id', threadId', ho', rfl⟩
      · apply absurd hm' (hn _ _)
      · obtain rfl : id = id' := hid
        rw [ho] at ho'
        obtain ⟨rfl, hp⟩ := Prod.mk.inj (Option.some.inj ho')
        obtain ⟨-, rfl⟩ := Prod.mk.inj hp
        exact ⟨rfl, rfl⟩

/-- The row of a new event. -/
theorem find_insertEvent (db : Db) (repo : Repository) (e : Hub.Event) (payload : String)
    (eventId : EventId) :
  (db.insertEvent repo e payload).events.find eventId =
    if eventId = db.events.next then some (.of repo e payload eventId)
    else db.events.find eventId
  := by
  rw [Db.insertEvent, Serial.find_insert]
  split
  · rename_i h
    rw [h]
  · rfl

/-- A message about an event that does not exist yet. -/
theorem Agrees.not_publishes_next (h : Agrees db) (key : String) (m : Message) :
  ¬ Publishes db db.events.next key m
  := by
  intro hm
  have := (h.publishes _ _ _ hm).2
  rw [Serial.find_next] at this
  contradiction

section

variable {storable : Hub.Event → String → Bool} {repo : Repository} {e : Hub.Event}
  {payload : String} {buildIds : List BuildId} {duplicate : Bool} {ids : List InstanceId}

theorem Agrees.ingest (h : Agrees db)
    (hi : db.ingest storable repo e payload buildIds = some (db', duplicate, ids)) :
  Agrees db'
  := by
  rcases Db.ingest_cases hi with ⟨-, rfl, -⟩ | ⟨-, -, hi⟩
  · apply h
  · have hnew : Agrees (db.insertEvent repo e payload) := by
      refine ⟨h.records, ?_, h.unique⟩
      intro eventId key m hm
      refine ⟨(h.publishes _ _ _ hm).1, ?_⟩
      rw [find_insertEvent]
      split
      · rfl
      · apply (h.publishes _ _ _ hm).2
    apply hnew.ingested h.not_publishes_next hi
    rw [find_insertEvent, if_pos rfl]
    rfl

theorem Published.ingest (h : Published db m)
    (hi : db.ingest storable repo e payload buildIds = some (db', duplicate, ids)) :
  Published db' m
  := by
  rcases Db.ingest_cases hi with ⟨-, rfl, -⟩ | ⟨-, -, hi⟩
  · apply h
  · obtain ⟨rows, ho, -⟩ := hi.outbox
    obtain ⟨_, _, _, rfl⟩ := hi.frame
    refine ⟨Nat.lt_succ_of_lt h.1, ?_⟩
    intro he
    rw [find_insertEvent, if_neg h.1.ne] at he
    obtain ⟨key, o, hm, hk⟩ := h.2 he
    refine ⟨key, o, ?_, hk⟩
    rw [ho]
    apply List.mem_append_left _ hm

end

section

variable {fresh : Bool}

/-- A runner records a reaction only to a message that was published. -/
theorem Agrees.beginEvent (h : Agrees db) (hm : Published db m)
    (hb : Runner.Store.beginEvent db (parseEvent m) = some (db', fresh)) :
  Agrees db'
  := by
  rcases Runner.Store.beginEvent_cases hb with ⟨_, _, _, rfl⟩ | ⟨hn, he, -, rfl⟩
  · apply h
  · refine ⟨?_, h.publishes, h.unique⟩
    rintro id eventId k ⟨j, hj, hk⟩
    rcases List.mem_append.mp hj with hj | hj
    · apply h.records _ _ _ ⟨j, hj, hk⟩
    · obtain rfl := List.mem_singleton.mp hj
      obtain ⟨rfl, rfl, rfl⟩ := hk
      obtain ⟨key, hp⟩ := hm.2 he
      exact ⟨key, m, hp, rfl, rfl⟩

theorem Published.beginEvent {e : Runner.Event} (h : Published db m)
    (hb : Runner.Store.beginEvent db e = some (db', fresh)) :
  Published db' m
  := by
  obtain ⟨⟨_, rfl⟩, -⟩ := Runner.Store.beginEvent_frame hb
  apply h

end

/-- An event that a runner received is that of a message that was published. -/
def Received (db : Db) (e : Runner.Event) : Prop :=
  ∃ m, parseEvent m = e ∧ Published db m

section

variable {R : RunnerId} {p q : Runner.Await}

/-- A statement of a runner neither records nor publishes, or records what its task has
received. -/
theorem Reply.follows (h : Runner.Reply db R p db' q) :
  Follows db db' ∨ ∃ e fresh, p.handles = some e ∧ beginEvent db e = some (db', fresh)
  := by
  cases h with
  | skipBegin hb => exact .inr ⟨_, _, rfl, hb⟩
  | begin hb => exact .inr ⟨_, _, rfl, hb⟩
  | skipMark => exact .inl (follows_markProcessed _ _)
  | mark => exact .inl (follows_markProcessed _ _)
  | claimed hc =>
      obtain ⟨rfl, -⟩ := Runner.Store.claimInstance_hit hc
      exact .inl (follows_of_eq rfl rfl rfl)
  | release =>
      rw [Runner.Store.releaseInstance_eq]
      split <;> exact .inl (follows_of_eq rfl rfl rfl)
  | _ => exact .inl (follows_of_eq rfl rfl rfl)

/-- A statement of a task that handles a received event keeps the agreement. -/
theorem Agrees.reply (h : Agrees db) (he : ∀ e, p.handles = some e → Received db e)
    (hr : Runner.Reply db R p db' q) :
  Agrees db'
  := by
  rcases Reply.follows hr with hf | ⟨e, fresh, hp, hb⟩
  · apply h.follow hf
  · obtain ⟨m, rfl, hm⟩ := he e hp
    apply h.beginEvent hm hb

theorem Published.reply (h : Published db m) (hr : Runner.Reply db R p db' q) :
  Published db' m
  := by
  rcases Reply.follows hr with hf | ⟨e, fresh, -, hb⟩
  · apply h.follow hf
  · apply h.beginEvent hb

end

/-! ### Deletion -/

/-- The cascade leaves only messages of events that exist. -/
theorem publishes_cascade {eventId : EventId} {key : String} :
  Publishes db.cascade eventId key m ↔
    Publishes db eventId key m ∧ (db.cascade.events.find eventId).isSome
  := by
  constructor
  · rintro ⟨o, ho, rfl, h⟩
    obtain ⟨ho, he⟩ := List.mem_filter.mp ho
    refine ⟨⟨o, ho, rfl, h⟩, ?_⟩
    simpa [Db.cascade] using he
  · rintro ⟨⟨o, ho, rfl, h⟩, he⟩
    refine ⟨o, ?_, rfl, h⟩
    apply List.mem_filter.mpr ⟨ho, _⟩
    simpa [Db.cascade] using he

theorem isSome_find_cascade {eventId : EventId}
    (h : (db.cascade.events.find eventId).isSome) :
  (db.events.find eventId).isSome
  := by
  rw [Db.cascade] at h
  simp only [Serial.delete, Table.find_delete] at h
  cases he : db.events.find eventId with
  | none =>
      rw [he] at h
      contradiction
  | some r => rfl

theorem Agrees.cascade (h : Agrees db) :
  Agrees db.cascade
  := by
  constructor
  · rintro id eventId k ⟨j, hj, hk⟩
    obtain ⟨hj, he⟩ := List.mem_filter.mp hj
    obtain ⟨key, m, hm, hm'⟩ := h.records id eventId k ⟨j, hj, hk⟩
    refine ⟨key, m, publishes_cascade.mpr ⟨hm, ?_⟩, hm'⟩
    rw [← hk.2.1]
    simp only [Bool.not_or, Bool.and_eq_true] at he
    simpa [Db.cascade] using he.1
  · intro eventId key m hm
    obtain ⟨hm, he⟩ := publishes_cascade.mp hm
    exact ⟨(h.publishes _ _ _ hm).1, he⟩
  · intro eventId key key' m m' hm hm'
    apply h.unique _ _ _ _ _ (publishes_cascade.mp hm).1 (publishes_cascade.mp hm').1

theorem Published.cascade (h : Published db m) :
  Published db.cascade m
  := by
  refine ⟨h.1, ?_⟩
  intro he
  obtain ⟨key, hm⟩ := h.2 (isSome_find_cascade he)
  exact ⟨key, publishes_cascade.mpr ⟨hm, he⟩⟩

end Cluster
