import GitAgent.Library.Transition
import GitAgent.Cluster.Publications

/-!
# The outbox over a run

The runs of the hub and the runners as far as they write the journal and the outbox. The
messages that were published may reach a runner at any later time, in any order and more than
once. In every state of a run the journal and the outbox agree, and a republication is exact.
-/

namespace Cluster.Outbox

open Hub (EventId InstanceId RunnerId RepositoryId BuildId UserId Db Message JournalRow
  OutboxRow Repository)
open Runner (parseEvent)

/-- The database, and the messages that were published so far. -/
structure State where
  db : Db
  sent : List Message

/-- A transaction of the hub or a statement of a runner. The number `n` of `tick` is the time
that passes. -/
inductive Action
  | ingest (repo : Repository) (e : Hub.Event) (payload : String) (buildIds : List BuildId)
  | publish (id : ℕ)
  | markPublished (id : ℕ)
  | beginEvent (m : Message)
  | markProcessed (m : Message)
  | requeueStale (timeout : ℕ)
  | requeueInstance (id : InstanceId)
  | deleteRepository (id : RepositoryId)
  | deleteBuild (id : BuildId) (userId : UserId)
  | deleteUser (userId : UserId)
  | claimInstance (id : InstanceId) (R : RunnerId)
  | releaseInstance (id : InstanceId) (R : RunnerId)
  | setInstanceRunning (id : InstanceId) (R : RunnerId)
  | setInstanceDown (id : InstanceId)
  | upsertInstance (buildId : BuildId) (repositoryId : RepositoryId)
  | upsertRunner (name address : String) (slots : ℕ)
  | heartbeatRunner (R : RunnerId)
  | tick (n : ℕ)
  deriving DecidableEq, Repr

namespace State

/-- The messages after the row `id` of the outbox was published, if it is still to be. -/
def publish (s : State) (id : ℕ) : Option State :=
  match s.db.outbox.find id with
  | some o => if o.publishedAt = none then some { s with sent := s.sent ++ [o.payload] } else none
  | none => none

/-- The state after an action, if it is enabled. -/
def act (storable : Hub.Event → String → Bool) (s : State) : Action → Option State
  | .ingest repo e payload buildIds =>
      (s.db.ingest storable repo e payload buildIds).map fun (db, _) => { s with db }
  | .publish id => s.publish id
  | .markPublished id => some { s with db := s.db.markPublished id }
  | .beginEvent m =>
      if m ∈ s.sent then
        (Runner.Store.beginEvent s.db (parseEvent m)).map fun (db, _) => { s with db }
      else none
  | .markProcessed m =>
      if m ∈ s.sent then
        some { s with db := Runner.Store.markProcessed s.db (parseEvent m).reaction }
      else none
  | .requeueStale timeout => some { s with db := (s.db.requeueStale timeout).1 }
  | .requeueInstance id => some { s with db := (s.db.requeueInstance id).1 }
  | .deleteRepository id => some { s with db := s.db.deleteRepository id }
  | .deleteBuild id userId => (s.db.deleteBuild id userId).map fun db => { s with db }
  | .deleteUser userId => (s.db.deleteUser userId).map fun db => { s with db }
  | .claimInstance id R => some { s with db := (Runner.Store.claimInstance s.db id R).1 }
  | .releaseInstance id R => some { s with db := (Runner.Store.releaseInstance s.db id R).1 }
  | .setInstanceRunning id R => some { s with db := s.db.runInstance id R }
  | .setInstanceDown id => some { s with db := s.db.downInstance id }
  | .upsertInstance buildId repositoryId =>
      (s.db.upsertInstance buildId repositoryId).map fun (db, _) => { s with db }
  | .upsertRunner name address slots =>
      some { s with db := (s.db.upsertRunner name address slots).1 }
  | .heartbeatRunner R => some { s with db := s.db.heartbeatRunner R }
  | .tick n => some { s with db := { s.db with now := s.db.now + n } }

end State

/-- The hub and the runners, from a database without reactions and messages on. -/
def system (storable : Hub.Event → String → Bool) : Transition.System State Action where
  init s := s.db.journal.rows = [] ∧ s.db.outbox.rows = [] ∧ s.sent = []
  step := State.act storable

/-! ### The invariant -/

/-- A republication of reactions with their first messages publishes nothing new. -/
theorem follows_requeued {db db' : Db} (hf : Follows db db') (ho : db'.outbox = db.outbox)
    (targets : InstanceId → Bool) :
  Follows db (db'.republish (db.requeued targets))
  := by
  apply hf.trans (follows_republish _ _)
  intro p hp
  obtain ⟨j, -, hj⟩ := List.mem_filterMap.mp hp
  obtain ⟨o, h, rfl⟩ := Option.map_eq_some_iff.mp hj
  obtain ⟨hm, he, -⟩ := Db.firstPublication_spec h
  rw [ho]
  exact ⟨hm, he⟩

theorem follows_requeueStale (db : Db) (timeout : ℕ) :
  Follows db (db.requeueStale timeout).1
  := by
  have hf : Follows db (db.downStranded timeout) := follows_of_eq rfl rfl rfl
  apply follows_requeued hf rfl _

theorem follows_requeueInstance (db : Db) (id : InstanceId) :
  Follows db (db.requeueInstance id).1
  := by
  have hf : Follows db db := follows_of_eq rfl rfl rfl
  apply follows_requeued hf rfl _

/-- The journal and the outbox agree, and what was sent was published. -/
structure Consistent (s : State) : Prop where
  agrees : Agrees s.db
  published : ∀ m ∈ s.sent, Published s.db m

namespace Consistent

variable {s : State} {db : Db}

/-- A write that keeps the agreement and what was published keeps the invariant. -/
theorem write (hs : Consistent s) (ha : Agrees db)
    (hp : ∀ {m}, Published s.db m → Published db m) :
  Consistent { s with db }
  := ⟨ha, fun m hm => hp (hs.published m hm)⟩

theorem follow (hs : Consistent s) (hf : Follows s.db db) :
  Consistent { s with db }
  := hs.write (hs.agrees.follow hf) fun hm => hm.follow hf

theorem cascade (hs : Consistent s) (hf : Follows s.db db) :
  Consistent { s with db := db.cascade }
  := hs.write (hs.agrees.follow hf).cascade fun hm => (hm.follow hf).cascade

/-- Every action keeps the invariant. -/
theorem act {storable : Hub.Event → String → Bool} {s' : State} {a : Action}
    (hs : Consistent s) (h : s.act storable a = some s') :
  Consistent s'
  := by
  cases a with
  | ingest repo e payload buildIds =>
      obtain ⟨⟨db, duplicate, ids⟩, hi, rfl⟩ := Option.map_eq_some_iff.mp h
      apply hs.write (hs.agrees.ingest hi) fun hm => hm.ingest hi
  | publish id =>
      rw [State.act, State.publish] at h
      split at h
      · rename_i o ho
        split at h
        · obtain rfl := Option.some.inj h
          refine ⟨hs.agrees, ?_⟩
          intro m hm
          rcases List.mem_append.mp hm with hm | hm
          · apply hs.published m hm
          · obtain rfl := List.mem_singleton.mp hm
            apply hs.agrees.published ⟨o, Table.mem_of_find ho, rfl, rfl, rfl⟩
        · contradiction
      · contradiction
  | markPublished id =>
      obtain rfl := Option.some.inj h
      apply hs.follow (follows_markPublished _ _)
  | beginEvent m =>
      rw [State.act] at h
      split at h
      · rename_i hm
        obtain ⟨⟨db, fresh⟩, hb, rfl⟩ := Option.map_eq_some_iff.mp h
        apply hs.write (hs.agrees.beginEvent (hs.published m hm) hb) fun hm => hm.beginEvent hb
      · contradiction
  | markProcessed m =>
      rw [State.act] at h
      split at h
      · obtain rfl := Option.some.inj h
        apply hs.follow (follows_markProcessed _ _)
      · contradiction
  | requeueStale timeout =>
      obtain rfl := Option.some.inj h
      apply hs.follow (follows_requeueStale _ _)
  | requeueInstance id =>
      obtain rfl := Option.some.inj h
      apply hs.follow (follows_requeueInstance _ _)
  | deleteRepository id =>
      obtain rfl := Option.some.inj h
      exact hs.cascade (follows_of_eq rfl rfl rfl)
  | deleteBuild id userId =>
      obtain ⟨db, hd, rfl⟩ := Option.map_eq_some_iff.mp h
      rw [Db.deleteBuild] at hd
      split at hd
      · contradiction
      · obtain rfl := Option.some.inj hd
        exact hs.cascade (follows_of_eq rfl rfl rfl)
  | deleteUser userId =>
      obtain ⟨db, hd, rfl⟩ := Option.map_eq_some_iff.mp h
      rw [Db.deleteUser] at hd
      split at hd
      · contradiction
      · obtain rfl := Option.some.inj hd
        exact hs.cascade (follows_of_eq rfl rfl rfl)
  | claimInstance id R =>
      obtain rfl := Option.some.inj h
      apply hs.follow
      cases hc : Runner.Store.claimInstance s.db id R with
      | mk db hit =>
          cases hit with
          | true =>
              obtain ⟨rfl, -⟩ := Runner.Store.claimInstance_hit hc
              exact follows_of_eq rfl rfl rfl
          | false =>
              obtain rfl := Runner.Store.claimInstance_miss hc
              apply follows_of_eq rfl rfl rfl
  | releaseInstance id R =>
      obtain rfl := Option.some.inj h
      apply hs.follow
      rw [Runner.Store.releaseInstance_eq]
      split <;> exact follows_of_eq rfl rfl rfl
  | setInstanceRunning id R =>
      obtain rfl := Option.some.inj h
      exact hs.follow (follows_of_eq rfl rfl rfl)
  | setInstanceDown id =>
      obtain rfl := Option.some.inj h
      exact hs.follow (follows_of_eq rfl rfl rfl)
  | upsertInstance buildId repositoryId =>
      obtain ⟨⟨db, id, threadId⟩, hu, rfl⟩ := Option.map_eq_some_iff.mp h
      obtain ⟨⟨instances, rfl⟩, -⟩ := Db.upsertInstance_spec hu
      exact hs.follow (follows_of_eq rfl rfl rfl)
  | upsertRunner name address slots =>
      obtain rfl := Option.some.inj h
      apply hs.follow
      rw [Db.upsertRunner]
      split <;> exact follows_of_eq rfl rfl rfl
  | heartbeatRunner R =>
      obtain rfl := Option.some.inj h
      exact hs.follow (follows_of_eq rfl rfl rfl)
  | tick n =>
      obtain rfl := Option.some.inj h
      exact hs.follow (follows_of_eq rfl rfl rfl)

end Consistent

/-! ### Exact republication -/

/-- The row `o` is a new publication of the reaction `j`, with the routing key and the message
of the first one. -/
structure Repeats (db : Db) (j : JournalRow) (o : OutboxRow) : Prop where
  event : o.eventId = j.eventId
  unpublished : o.publishedAt = none
  first : ∃ first ∈ db.outbox.rows,
    first.eventId = j.eventId ∧ first.payload.instanceId = j.instanceId ∧
      (∀ o' ∈ db.outbox.rows, o'.eventId = j.eventId → o'.payload.instanceId = j.instanceId →
        first.id ≤ o'.id) ∧
      o.routingKey = first.routingKey ∧ o.payload = first.payload

/-- From `db` to `db'` the outbox gets exactly one row for each of the reactions of the
instances in `targets` that are not processed, which repeats its first publication. -/
def Requeues (db : Db) (targets : InstanceId → Bool) (db' : Db) : Prop :=
  ∃ news, db'.outbox.rows = db.outbox.rows ++ news ∧
    List.Forall₂ (Repeats db)
      (db.journal.rows.filter fun j => targets j.instanceId && j.processedAt.isNone) news

/-- Where the journal and the outbox agree, a republication is exact. -/
theorem requeues_republish {db db' : Db} (h : Agrees db) (ho : db'.outbox = db.outbox)
    (targets : InstanceId → Bool) :
  Requeues db targets (db'.republish (db.requeued targets))
  := by
  obtain ⟨news, hr, hf⟩ := db'.rows_republish (db.requeued targets)
  rw [ho] at hr
  refine ⟨news, hr, ?_⟩
  have hq : List.Forall₂ (fun j p => p.1 = j ∧
      db.firstPublication j.eventId j.instanceId = some p.2)
      (db.journal.rows.filter fun j => targets j.instanceId && j.processedAt.isNone)
      (db.requeued targets) := by
    apply Db.requeued_forall₂
    intro j hj
    obtain ⟨key, m, ⟨o, hm, he, -, rfl⟩, hi, -⟩ := h.records _ _ _ ⟨j, hj, rfl, rfl, rfl⟩
    rw [Db.firstPublication, List.find?_isSome]
    use o, hm
    simp [he, hi]
  apply (hq.comp hf).imp
  rintro j o ⟨p, ⟨rfl, hp⟩, n, rfl⟩
  obtain ⟨hm, he, hi, hle⟩ := Db.firstPublication_spec hp
  exact ⟨rfl, rfl, p.2, hm, he, hi, hle, rfl, rfl⟩

section

variable {storable : Hub.Event → String → Bool} {s : State}

/-- The invariant holds in every run. -/
theorem consistent_of_reachable (h : (system storable).Reachable s) :
  Consistent s
  := by
  apply h.invariant
  · rintro ⟨db, sent⟩ ⟨hj, ho, rfl⟩
    refine ⟨.of_empty hj ho, ?_⟩
    intro m hm
    contradiction
  · exact fun s a s' hs _ ha => hs.act ha

/-- **The outbox, the journal and the republications agree**: every reaction that the journal
records has a message in the outbox, and both republications publish exactly the reactions
that are not processed again, each with its first message. -/
theorem requeues_of_reachable (h : (system storable).Reachable s) :
  (∀ j ∈ s.db.journal.rows, ∃ o ∈ s.db.outbox.rows,
    o.eventId = j.eventId ∧ o.payload.instanceId = j.instanceId) ∧
  (∀ id, Requeues s.db (fun id' => id' = id) (s.db.requeueInstance id).1) ∧
  ∀ timeout, Requeues s.db (s.db.strandedInstance timeout) (s.db.requeueStale timeout).1
  := by
  have ha := (consistent_of_reachable h).agrees
  refine ⟨?_, ?_, ?_⟩
  · intro j hj
    obtain ⟨key, m, ⟨o, ho, he, -, rfl⟩, hi, -⟩ := ha.records _ _ _ ⟨j, hj, rfl, rfl, rfl⟩
    exact ⟨o, ho, he, hi⟩
  · exact fun id => requeues_republish ha rfl _
  · exact fun timeout => requeues_republish ha rfl _

end

/-- An event is ingested, published, and begun by a runner, and its republication is the event
again. -/
theorem requeues_of_reachable_single :
  ∃ s, (system fun _ _ => true).Reachable s ∧ (s.db.requeueInstance 1).2 = [1] ∧
    Requeues s.db (fun id => id = 1) (s.db.requeueInstance 1).1
  := by
  obtain ⟨s, hs, hp⟩ := Transition.exists_reach_of_run (T := system fun _ _ => true)
    (G := fun _ _ => True) (s := ⟨{ Db.single with events := Serial.empty }, []⟩)
    ⟨rfl, rfl, rfl⟩
    [.ingest { id := 1, userId := 1, provider := "github" }
        { deliveryId := "delivery", action := "push", commitSha := "c" } "{}" [1],
      .publish 1, .markPublished 1, .claimInstance 1 1,
      .beginEvent (Hub.eventMessage 1 1 "hub-1-1" { id := 1, userId := 1, provider := "github" }
        { deliveryId := "delivery", action := "push", commitSha := "c" })]
    (fun s => (s.db.requeueInstance 1).2 = [1]) (by decide)
  exact ⟨s, hs, of_decide_eq_true hp, (requeues_of_reachable hs).2.1 1⟩

end Cluster.Outbox
