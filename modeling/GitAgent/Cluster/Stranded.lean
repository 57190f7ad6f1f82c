import GitAgent.Cluster.Outbox
import GitAgent.Cluster.System
import GitAgent.Runner.Handler
import GitAgent.Runner.Row

/-!
# The ways of a reaction to be processed

A reaction that is not processed is on its way as long as its message is still to be
published, is in the queue, or is handled by a process, or its instance is running under a
runner without a process, so that the hub will publish the message again. A message leaves the
queue before it is handled, and the hub republishes only what belongs to an instance that is
running under a stale runner; so an event is stranded when its handling ends before it is
processed, when a process crashes that handles it without holding its instance, and when the
row of the instance of a crashed runner changes hands.
-/

namespace Hub

/-- The reaction that a message asks for. -/
def Message.reaction (m : Message) : Reaction :=
  (m.instanceId, m.dedupKey)

end Hub

namespace Cluster

open Hub (EventId InstanceId RunnerId Db Message Reaction JournalRow OutboxRow)
open Runner (Service Await Reply Row parseEvent)
open Runner.Store (Unprocessed)
open State (live_put live_crash live_start live_update_cases)

/-- A way of the reaction `k` to be processed. A row of the outbox counts unless it is one of
`confirmed`. -/
inductive Way (s : State) (confirmed : List ℕ) (k : Reaction) : Prop
  | outbox (o : OutboxRow) (ho : o ∈ s.db.outbox.rows) (hp : o.publishedAt = none)
      (hc : o.id ∉ confirmed) (hk : o.payload.reaction = k)
  | queue (m : Message) (hm : m ∈ s.queue) (hk : m.reaction = k)
  | handled (n : NodeId) (service : Service) (t : Runner.TaskId) (e : Runner.Event)
      (hn : s.live n = some service) (ht : Pool.attr Await.handles service.tasks t = some e)
      (hk : e.reaction = k)
  | crashed (R : RunnerId) (hR : s.db.holder k.1 = some R)
      (hc : ∀ n service, s.live n = some service → service.runnerId ≠ R)

namespace State

/-- Every reaction that is not processed has a way to be processed. -/
def NotStranded (s : State) : Prop :=
  ∀ k, Unprocessed s.db k → Way s [] k

/-- Some process is a live one of the runner `R`. -/
def LiveRunner (s : State) (R : RunnerId) : Prop :=
  ∃ node ∈ s.nodes, node.live.any fun service => service.runnerId = R

/-- The runner of the instance `id`, if it is running, is live, unless no reaction of the
instance waits to be processed. -/
def Guarded (s : State) (id : InstanceId) : Prop :=
  ∀ j ∈ s.db.journal.rows, j.instanceId = id → j.processedAt = none →
    ∀ R ∈ s.db.holder id, s.LiveRunner R

/-- The step ends the handling of no event whose reaction is not processed. -/
def GoesOn (db : Db) (service : Service) (ℓ : Runner.Label) : Prop :=
  ∀ t < service.tasks.length, ∀ p ∈ service.tasks[t]?, ∀ e ∈ p.handles,
    Unprocessed db e.reaction → ℓ.ends t p = false

/-- The action strands no event: the handling of an event ends only once its reaction is
processed; a process that crashes holds the instances of the events that it handles; a process
starts for a runner that has none, and under which no instance is running that has something
to process; and the hub takes no such instance from a runner without a process. -/
def KeepsEvents (s : State) : Action → Prop
  | .step n ℓ => ∀ service ∈ s.live n, GoesOn s.db service ℓ
  | .crash n =>
      ∀ service ∈ s.live n, ∀ p ∈ service.tasks, ∀ e ∈ p.handles,
        Unprocessed s.db e.reaction → s.db.holder e.instanceId = some service.runnerId
  | .start name address slots _ =>
      ¬ s.LiveRunner (s.db.upsertRunner name address slots).2 ∧
        ∀ j ∈ s.db.journal.rows, j.processedAt = none →
          s.db.holder j.instanceId ≠ some (s.db.upsertRunner name address slots).2
  | .query h _ _ =>
      match s.requests[h]? with
      | some (_, .setRunning _ id R _) => s.LiveRunner R → s.Guarded id
      | some (_, .setDown id) => s.Guarded id
      | _ => True
  | _ => True

/-- The actions that are no user's stop of an instance, and no end of a turn for want of a
sandbox. -/
def Unattended (_ : State) : Action → Prop
  | .request _ (.stop _) => False
  | .step _ (.call (.stopInstance _)) => False
  | .step _ (.turnEnds _ .notProvisioned) => False
  | _ => True

instance (s : State) (R : RunnerId) : Decidable (s.LiveRunner R) :=
  inferInstanceAs (Decidable (∃ node ∈ s.nodes, _))

theorem liveRunner_iff {s : State} {R : RunnerId} :
  s.LiveRunner R ↔ ∃ n service, s.live n = some service ∧ service.runnerId = R
  := by
  simp only [LiveRunner, Option.any_eq_true, decide_eq_true_eq]
  constructor
  · rintro ⟨node, hnode, service, hs, hid⟩
    obtain ⟨n, hn⟩ := List.mem_iff_getElem?.mp hnode
    refine ⟨n, service, ?_, hid⟩
    rw [live, Pool.attr_of_getElem? hn, hs]
  · rintro ⟨n, service, hn, hid⟩
    obtain ⟨node, hnode, hs⟩ := Pool.exists_of_attr hn
    exact ⟨node, List.mem_of_getElem? hnode, service, hs, hid⟩

instance (s : State) (id : InstanceId) : Decidable (s.Guarded id) :=
  inferInstanceAs (Decidable (∀ j ∈ s.db.journal.rows, _ → _ → _))

instance (db : Db) (service : Service) (ℓ : Runner.Label) : Decidable (GoesOn db service ℓ) :=
  inferInstanceAs (Decidable (∀ t < service.tasks.length, _))

instance (s : State) (a : Action) : Decidable (s.KeepsEvents a) := by
  delta KeepsEvents
  rcases a
  case query h within R =>
    dsimp only
    generalize s.requests[h]? = o
    rcases o with _ | ⟨userId, p⟩
    · exact instDecidableTrue
    · rcases p <;> dsimp only <;> infer_instance
  all_goals
    dsimp only
    infer_instance

instance (s : State) (a : Action) : Decidable (s.Unattended a) := by
  delta Unattended
  rcases a
  case request userId r => rcases r <;> dsimp only <;> infer_instance
  case step n ℓ =>
    rcases ℓ
    case call c => rcases c <;> dsimp only <;> infer_instance
    case turnEnds t how => rcases how <;> dsimp only <;> infer_instance
    all_goals
      dsimp only
      infer_instance
  all_goals
    dsimp only
    infer_instance

end State

/-! ### The ways over an action -/

section

variable {s s' : State} {c c' : List ℕ} {k : Reaction}

/-- A way stays where its message, its task and its crashed runner stay. -/
theorem Way.keep (h : Way s c k)
    (ho : ∀ o ∈ s.db.outbox.rows, o.publishedAt = none → o.id ∉ c →
      o ∈ s'.db.outbox.rows ∧ o.id ∉ c')
    (hq : ∀ m ∈ s.queue, m ∈ s'.queue)
    (hh : ∀ n service t e, s.live n = some service →
      Pool.attr Await.handles service.tasks t = some e → e.reaction = k →
      ∃ service', s'.live n = some service' ∧ Pool.attr Await.handles service'.tasks t = some e)
    (hR : ∀ R, s.db.holder k.1 = some R →
      (∀ n service, s.live n = some service → service.runnerId ≠ R) →
      ∃ R', s'.db.holder k.1 = some R' ∧
        ∀ n service, s'.live n = some service → service.runnerId ≠ R') :
  Way s' c' k
  := by
  cases h with
  | outbox o hm hp hc hk =>
      obtain ⟨hm, hc⟩ := ho o hm hp hc
      exact .outbox o hm hp hc hk
  | queue m hm hk => exact .queue m (hq m hm) hk
  | handled n service t e hn ht hk =>
      obtain ⟨service', hn, ht⟩ := hh n service t e hn ht hk
      exact .handled n service' t e hn ht hk
  | crashed R h hc =>
      obtain ⟨R', h, hc⟩ := hR R h hc
      exact .crashed R' h hc

/-- The same messages, services and holders. -/
theorem Way.frame (h : Way s c k) (ho : s'.db.outbox = s.db.outbox) (hq : s'.queue = s.queue)
    (hl : s'.live = s.live) (hh : s'.db.holder = s.db.holder) :
  Way s' c k
  := by
  apply h.keep
  · exact fun o hm _ hc => ⟨ho ▸ hm, hc⟩
  · exact fun m hm => hq ▸ hm
  · exact fun n service t e hn ht _ => ⟨service, hl ▸ hn, ht⟩
  · exact fun R hR hc => ⟨R, hh ▸ hR, hl ▸ hc⟩

variable {n : NodeId} {service service' : Service}

/-- One service goes on, handling what it handled, and the holders of crashed runners stay. -/
theorem Way.update (h : Way s c k) (hn : s.live n = some service)
    (hl : s'.live = Function.update s.live n (some service'))
    (hid : service'.runnerId = service.runnerId)
    (ho : s'.db.outbox = s.db.outbox)
    (hq : ∀ m ∈ s.queue, m ∈ s'.queue ∨
      ∃ t, Pool.attr Await.handles service'.tasks t = some (parseEvent m))
    (hh : ∀ R, R ≠ service.runnerId → s.db.holder k.1 = some R → s'.db.holder k.1 = some R)
    (ht : ∀ t e, Pool.attr Await.handles service.tasks t = some e → e.reaction = k →
      Pool.attr Await.handles service'.tasks t = some e) :
  Way s' c k
  := by
  have hnew : s'.live n = some service' := by rw [hl, Function.update_self]
  cases h with
  | outbox o hm hp hc hk => exact .outbox o (ho ▸ hm) hp hc hk
  | queue m hm hk =>
      rcases hq m hm with hm | ⟨t, ht⟩
      · exact .queue m hm hk
      · exact .handled n service' t _ hnew ht hk
  | handled m σ t e hm he hk =>
      by_cases e' : m = n
      · rw [e', hn] at hm
        obtain rfl := Option.some.inj hm
        exact .handled n service' t e hnew (ht t e he hk) hk
      · refine .handled m σ t e ?_ he hk
        rw [hl, Function.update_of_ne e', hm]
  | crashed R hR hc =>
      refine .crashed R (hh R (hc n service hn).symm hR) ?_
      intro m σ hm
      rw [hl] at hm
      rcases live_update_cases hm with ⟨-, rfl⟩ | ⟨-, hm⟩
      · rw [hid]
        apply hc n service hn
      · apply hc m σ hm

end

/-! ### The invariant -/

/-- The journal and the outbox agree, every event on its way was published, no two processes
are those of one runner, and every reaction that is not processed has a way to be processed
other than a message whose publication was confirmed. -/
structure Kept (s : State) : Prop where
  agrees : Agrees s.db
  queue : ∀ m ∈ s.queue, Published s.db m
  received : ∀ n service t e, s.live n = some service →
    Pool.attr Await.handles service.tasks t = some e → Received s.db e
  confirmed : ∀ id ∈ s.confirmed, ∃ o ∈ s.db.outbox.rows, o.id = id
  apart : State.Apart s.live
  way : ∀ k, Unprocessed s.db k → Way s s.confirmed k

namespace Kept

variable {s s' : State} {db : Db}

/-- A write that keeps the agreement and what was published, deletes no message, and leaves
every reaction that is not processed a way. -/
theorem write (hs : Kept s) (ha : Agrees db)
    (hp : ∀ {m}, Published s.db m → Published db m)
    (hc : ∀ o ∈ s.db.outbox.rows, ∃ o' ∈ db.outbox.rows, o'.id = o.id)
    (hw : ∀ k, Unprocessed db k → Way { s with db } s.confirmed k) :
  Kept { s with db }
  := by
  refine ⟨ha, fun m hm => hp (hs.queue m hm), ?_, ?_, hs.apart, hw⟩
  · intro n service t e hn ht
    obtain ⟨m, he, hm⟩ := hs.received n service t e hn ht
    exact ⟨m, he, hp hm⟩
  · intro id hid
    obtain ⟨o, ho, rfl⟩ := hs.confirmed id hid
    apply hc o ho

/-- A write to the clock, the runners, or columns of the instances that nothing here reads. -/
theorem other (hs : Kept s) (hj : db.journal = s.db.journal) (ho : db.outbox = s.db.outbox)
    (he : db.events = s.db.events) (hh : db.holder = s.db.holder) :
  Kept { s with db }
  := by
  have hf := follows_of_eq hj ho he
  apply hs.write (hs.agrees.follow hf) (fun hm => hm.follow hf)
  · exact fun o hm => ⟨o, ho ▸ hm, rfl⟩
  · intro k hk
    rw [Unprocessed, hj] at hk
    exact (hs.way k hk).frame ho rfl rfl hh

/-- New messages are none of those whose publication was confirmed. -/
theorem not_confirmed (hs : Kept s) {news : List OutboxRow}
    (hr : db.outbox.rows = s.db.outbox.rows ++ news) {o : OutboxRow} (ho : o ∈ news) :
  o.id ∉ s.confirmed
  := by
  intro hc
  obtain ⟨o', ho', he⟩ := hs.confirmed _ hc
  apply Serial.key_ne_of_append hr ho' ho he

/-- Messages that are appended leave every way as it is. -/
theorem way_append (hs : Kept s) {news : List OutboxRow}
    (hr : db.outbox.rows = s.db.outbox.rows ++ news) (hh : db.holder = s.db.holder)
    {k : Reaction} (hk : Unprocessed s.db k) :
  Way { s with db } s.confirmed k
  := by
  apply (hs.way k hk).keep
  · intro o ho _ hc
    refine ⟨?_, hc⟩
    rw [hr]
    apply List.mem_append_left _ ho
  · exact fun m hm => hm
  · exact fun n service t e hn ht _ => ⟨service, hn, ht⟩
  · exact fun R hR hc => ⟨R, hh ▸ hR, hc⟩

/-- An event that is ingested has its messages in the outbox. -/
theorem ingest (hs : Kept s) {storable : Hub.Event → String → Bool} {repo : Hub.Repository}
    {e : Hub.Event} {payload : String} {buildIds : List Hub.BuildId} {duplicate : Bool}
    {ids : List InstanceId}
    (h : s.db.ingest storable repo e payload buildIds = some (db, duplicate, ids)) :
  Kept { s with db }
  := by
  have ha := hs.agrees.ingest h
  have hp : ∀ {m}, Published s.db m → Published db m := fun hm => hm.ingest h
  have hh := Db.holder_ingest h
  rcases Db.ingest_cases h with ⟨-, rfl, -⟩ | ⟨-, -, hi⟩
  · apply hs
  · obtain ⟨rows, hr, hids, hf⟩ := hi.outbox
    apply hs.write ha hp
    · intro o ho
      refine ⟨o, ?_, rfl⟩
      rw [hr]
      apply List.mem_append_left _ ho
    · rintro k ⟨j, hj, hjp⟩
      have hjk := Table.key_of_find hj
      rcases hi.journal j (Table.mem_of_find hj) with hold | ⟨hid, he, hd⟩
      · apply hs.way_append hr hh
        exact ⟨j, hjk ▸ Table.find_of_mem hold, hjp⟩
      · -- The reaction was recorded together with its message.
        rw [hids] at hid
        obtain ⟨o, ho, hid⟩ := List.mem_map.mp hid
        obtain ⟨buildId, -, n, id, threadId, -, rfl⟩ := hf.exists_of_mem ho
        refine .outbox _ ?_ rfl (hs.not_confirmed hr ho) ?_
        · simp only [hr]
          apply List.mem_append_right _ ho
        · rw [← hjk, JournalRow.key, hd, ← hid]
          rfl

/-- A message that is published is in the queue. -/
theorem publish (hs : Kept s) {id : ℕ} {o : OutboxRow} (ho : s.db.outbox.find id = some o) :
  Kept { s with queue := s.queue ++ [o.payload], confirmed := id :: s.confirmed }
  := by
  have hm := Table.mem_of_find ho
  refine ⟨hs.agrees, ?_, hs.received, ?_, hs.apart, ?_⟩
  · intro m hm'
    rcases List.mem_append.mp hm' with hm' | hm'
    · apply hs.queue m hm'
    · obtain rfl := List.mem_singleton.mp hm'
      apply hs.agrees.published ⟨o, hm, rfl, rfl, rfl⟩
  · intro id' hid
    rcases List.mem_cons.mp hid with rfl | hid
    · exact ⟨o, hm, Table.key_of_find ho⟩
    · apply hs.confirmed id' hid
  · intro k hk
    cases hs.way k hk with
    | outbox o' hm' hp hc hk =>
        by_cases e : o'.id = id
        · have := Table.find_of_mem hm'
          rw [e, ho] at this
          obtain rfl := Option.some.inj this
          exact .queue _ (List.mem_append_right _ (List.mem_singleton_self _)) hk
        · refine .outbox o' hm' hp ?_ hk
          intro hc'
          rcases List.mem_cons.mp hc' with hc' | hc'
          · apply e hc'
          · apply hc hc'
    | queue m hm hk => exact .queue m (List.mem_append_left _ hm) hk
    | handled n service t e hn ht hk => exact .handled n service t e hn ht hk
    | crashed R hR hc => exact .crashed R hR hc

/-- Only a message whose publication was confirmed is marked. -/
theorem markPublished (hs : Kept s) {id : ℕ} (hid : id ∈ s.confirmed) :
  Kept { s with db := s.db.markPublished id }
  := by
  have hf := follows_markPublished s.db id
  apply hs.write (hs.agrees.follow hf) (fun hm => hm.follow hf)
  · intro o ho
    refine ⟨_, List.mem_map.mpr ⟨o, ho, rfl⟩, ?_⟩
    split <;> rfl
  · intro k hk
    apply (hs.way k hk).keep
    · intro o ho _ hc
      have ho' : decide (o.id = id) ≠ true := by
        intro e
        apply hc
        rw [of_decide_eq_true e]
        apply hid
      exact ⟨List.mem_map.mpr ⟨o, ho, if_neg ho'⟩, hc⟩
    · exact fun m hm => hm
    · exact fun n service t e hn ht _ => ⟨service, hn, ht⟩
    · exact fun R hR hc => ⟨R, hR, hc⟩

/-- What an instance has still to process when its runner is found stale is in the outbox
again. -/
theorem requeueStale (hs : Kept s) (timeout : ℕ) :
  Kept { s with db := (s.db.requeueStale timeout).1 }
  := by
  have hf := Outbox.follows_requeueStale s.db timeout
  obtain ⟨news, hr, hnews⟩ :
      Outbox.Requeues s.db (s.db.strandedInstance timeout) (s.db.requeueStale timeout).1 :=
    Outbox.requeues_republish hs.agrees rfl _
  apply hs.write (hs.agrees.follow hf) (fun hm => hm.follow hf)
  · intro o ho
    refine ⟨o, ?_, rfl⟩
    rw [hr]
    apply List.mem_append_left _ ho
  · rintro k ⟨j, hj, hjp⟩
    have hjk := Table.key_of_find hj
    by_cases ht : s.db.strandedInstance timeout j.instanceId = true
    · have hmem : j ∈ s.db.journal.rows.filter fun j =>
          s.db.strandedInstance timeout j.instanceId && j.processedAt.isNone := by
        apply List.mem_filter.mpr ⟨Table.mem_of_find hj, _⟩
        rw [ht, hjp]
        rfl
      obtain ⟨o, ho, hrep⟩ := hnews.exists_of_mem_left hmem
      obtain ⟨first, hfm, hfe, hfi, -, -, hpay⟩ := hrep.first
      refine .outbox o ?_ hrep.unpublished (hs.not_confirmed hr ho) ?_
      · simp only [hr]
        apply List.mem_append_right _ ho
      · obtain ⟨key, m, hm, hmi, hmk⟩ := hs.agrees.records _ _ _
          ⟨j, Table.mem_of_find hj, rfl, rfl, rfl⟩
        have := (hs.agrees.unique _ _ _ _ _ hm ⟨first, hfm, hfe, rfl, rfl⟩ (hmi.trans hfi.symm)).2
        rw [hpay, ← this, ← hjk, Message.reaction, hmi, hmk]
        rfl
    · apply (hs.way k ⟨j, hj, hjp⟩).keep
      · intro o ho _ hc
        refine ⟨?_, hc⟩
        simp only [hr]
        apply List.mem_append_left _ ho
      · exact fun m hm => hm
      · exact fun n service t e hn ht _ => ⟨service, hn, ht⟩
      · intro R hR hc
        refine ⟨R, ?_, hc⟩
        rw [Db.strandedInstance_eq] at ht
        simp only [Db.holder_requeueStale]
        have hk : k.1 = j.instanceId := by rw [← hjk]; rfl
        rw [hk] at hR ⊢
        rw [if_neg ht, hR]

/-- The requests of the users have no part in it. -/
theorem requests (hs : Kept s) (requests : List (Hub.UserId × Hub.Await)) :
  Kept { s with requests }
  := ⟨hs.agrees, hs.queue, hs.received, hs.confirmed, hs.apart,
      fun k hk => (hs.way k hk).frame rfl rfl rfl rfl⟩

/-- A process takes a step that ends the handling of no event whose reaction is not processed.
What it is called with was received, and a message that leaves the queue is taken by it. -/
theorem steps {n : NodeId} {service service' : Service} {ℓ : Runner.Label}
    {queue : List Message} {forwards : List ((NodeId × Runner.TaskId) × (NodeId × Runner.TaskId))}
    (hs : Kept s) (hn : s.live n = some service) (h : service.Steps ℓ service')
    (hG : State.GoesOn s.db service ℓ)
    (hc : ∀ e, ℓ = .call (.handleEvent e) → Received s.db e)
    (hq : ∀ m ∈ queue, m ∈ s.queue)
    (hm : ∀ m ∈ s.queue, m ∈ queue ∨ ℓ = .call (.handleEvent (parseEvent m))) :
  Kept { s.put n service' with queue, forwards }
  := by
  have hl : ∀ {m σ}, (s.put n service').live m = some σ →
      m = n ∧ σ = service' ∨ m ≠ n ∧ s.live m = some σ := by
    intro m σ h
    rw [live_put hn] at h
    apply live_update_cases h
  refine ⟨hs.agrees, fun m h => hs.queue m (hq m h), ?_, hs.confirmed,
    live_put hn service' ▸ hs.apart.update hn h.config.2, ?_⟩
  · intro m σ t e hσ he
    rcases hl hσ with ⟨-, rfl⟩ | ⟨-, hσ⟩
    · rcases h.handles he with he | hℓ
      · apply hs.received n service t e hn he
      · apply hc e hℓ
    · apply hs.received m σ t e hσ he
  · intro k hk
    refine (hs.way k hk).update hn (live_put hn service') h.config.2 rfl ?_ ?_ ?_
    · intro m hm'
      rcases hm m hm' with hm' | rfl
      · exact .inl hm'
      · exact .inr ⟨_, h.handles_called⟩
    · exact fun _ _ hR => hR
    · intro t e he hek
      apply h.goesOn he
      intro p hp
      rw [Pool.attr_of_getElem? hp] at he
      apply hG t (List.getElem?_eq_some_iff.mp hp).1 p hp e he (hek ▸ hk)

/-- A process executes a statement. -/
theorem reply {n : NodeId} {service : Service} {t : Runner.TaskId} {p q : Await}
    (hs : Kept s) (hn : s.live n = some service) (ht : service.tasks[t]? = some p)
    (h : Reply s.db service.runnerId p db q) :
  Kept { s.put n (service.await t q) with db }
  := by
  have hattr : Pool.attr Await.handles (service.await t q).tasks =
      Pool.attr Await.handles service.tasks := Pool.attr_set_of_eq ht h.handles
  have hp : ∀ {m}, Published s.db m → Published db m := fun hm => hm.reply h
  have hr : ∀ {t e}, Pool.attr Await.handles service.tasks t = some e → Received s.db e :=
    fun he => hs.received n service _ _ hn he
  have hl : ∀ {m σ}, (s.put n (service.await t q)).live m = some σ →
      m = n ∧ σ = service.await t q ∨ m ≠ n ∧ s.live m = some σ := by
    intro m σ h
    rw [live_put hn] at h
    apply live_update_cases h
  refine ⟨?_, fun m hm => hp (hs.queue m hm), ?_, ?_,
    live_put hn (service.await t q) ▸ hs.apart.update hn rfl, ?_⟩
  · apply hs.agrees.reply _ h
    intro e he
    apply hr (t := t)
    rw [Pool.attr_of_getElem? ht, he]
  · intro m σ t' e hσ he
    have hold : Received s.db e := by
      rcases hl hσ with ⟨-, rfl⟩ | ⟨-, hσ⟩
      · rw [hattr] at he
        apply hr he
      · apply hs.received m σ t' e hσ he
    obtain ⟨m', he, hm⟩ := hold
    exact ⟨m', he, hp hm⟩
  · have ho := h.outbox
    intro id hid
    simp only [ho]
    apply hs.confirmed id hid
  · intro k hk
    rcases h.unprocessed hk with hk | hk
    · refine (hs.way k hk).update hn (live_put hn _) rfl h.outbox (fun m hm => .inl hm) ?_ ?_
      · exact fun R hR hh => h.holder_keep hR hh
      · intro t' e he _
        rw [hattr]
        apply he
    · obtain ⟨e, he, hek⟩ := Option.map_eq_some_iff.mp hk
      refine .handled n (service.await t q) t e ?_ ?_ hek
      · apply (congrFun (live_put hn _) n).trans (Function.update_self ..)
      · rw [hattr, Pool.attr_of_getElem? ht, he]

/-- A statement of a request takes the row of an instance that has something to process from
no runner without a process. -/
theorem query {h within : ℕ} {R : RunnerId} {userId : Hub.UserId} {p q : Hub.Await}
    (hs : Kept s) (hp : s.requests[h]? = some (userId, p))
    (hq : p.stmt s.db within userId R = some (db, q)) (hG : s.KeepsEvents (.query h within R)) :
  Kept { s with db }
  := by
  obtain ⟨hw, instances, rfl⟩ := Hub.Await.stmt_spec hq
  have hf : Follows s.db { s.db with instances } := follows_of_eq rfl rfl rfl
  apply hs.write (hs.agrees.follow hf) (fun hm => hm.follow hf) fun o ho => ⟨o, ho, rfl⟩
  intro k hk
  have hk : Unprocessed s.db k := hk
  rw [State.KeepsEvents, hp] at hG
  -- A row that is written is that of an instance whose runner has a process, or it goes to a
  -- runner without one.
  have hstay : ∀ {id}, s.Guarded id → ∀ R, s.db.holder k.1 = some R →
      (∀ n service, s.live n = some service → service.runnerId ≠ R) → k.1 ≠ id := by
    rintro _ hg R hR hc rfl
    obtain ⟨j, hj, hjp⟩ := hk
    have hjk : j.instanceId = k.1 := congrArg Prod.fst (Table.key_of_find hj)
    obtain ⟨n, service, hn, hid⟩ :=
      State.liveRunner_iff.mp (hg j (Table.mem_of_find hj) hjk hjp R hR)
    apply hc n service hn hid
  refine (hs.way k hk).keep (fun o ho _ hc => ⟨ho, hc⟩) (fun m hm => hm)
    (fun n service t e hn ht _ => ⟨service, hn, ht⟩) ?_
  intro R₀ hR hc
  cases hw with
  | same hh => exact ⟨R₀, by simp only [hh, hR], hc⟩
  | running g id R' address hpr hd =>
      simp only [hpr] at hG
      simp only [hd]
      rcases Db.holder_runInstance_cases s.db id R' with hh | hh
      · exact ⟨R₀, by rw [hh, hR], hc⟩
      · rw [hh]
        by_cases hR' : s.LiveRunner R'
        · refine ⟨R₀, ?_, hc⟩
          rw [Function.update_of_ne (hstay (hG hR') R₀ hR hc), hR]
        · rw [Function.update_apply]
          split
          · refine ⟨R', rfl, ?_⟩
            intro n service hn e
            apply hR' (State.liveRunner_iff.mpr ⟨n, service, hn, e⟩)
          · exact ⟨R₀, hR, hc⟩
  | down id hpd hd =>
      simp only [hpd] at hG
      refine ⟨R₀, ?_, hc⟩
      simp only [hd]
      rw [Db.holder_downInstance, Function.update_of_ne (hstay hG R₀ hR hc), hR]

/-- A process starts for a runner that has none, and under which nothing is to be
processed. -/
theorem start {name address : String} {slots idleTimeout : ℕ} (hs : Kept s)
    (hG : s.KeepsEvents (.start name address slots idleTimeout)) :
  Kept (s.start name address slots idleTimeout)
  := by
  obtain ⟨hfree, hnone⟩ := hG
  have hnew : ∀ {m σ}, s.live m = some σ →
      σ.runnerId ≠ (s.db.upsertRunner name address slots).2 :=
    fun hm e => hfree (State.liveRunner_iff.mpr ⟨_, _, hm, e⟩)
  have hl : ∀ {m σ}, (s.start name address slots idleTimeout).live m = some σ →
      m = s.nodes.length ∧
        σ = .start (s.db.upsertRunner name address slots).2 slots idleTimeout 0 ∨
      s.live m = some σ := by
    intro m σ hm
    rw [live_start] at hm
    split at hm
    · rename_i e
      exact .inl ⟨e, (Option.some.inj hm).symm⟩
    · exact .inr hm
  have hdb : ∃ runners, (s.start name address slots idleTimeout).db = { s.db with runners } :=
    Db.upsertRunner_frame s.db name address slots
  have hh : (s.start name address slots idleTimeout).db.holder = s.db.holder :=
    Db.holder_upsertRunner _ _ _ _
  obtain ⟨runners, hdb⟩ := hdb
  have hf : Follows s.db (s.start name address slots idleTimeout).db := by
    rw [hdb]
    exact follows_of_eq rfl rfl rfl
  refine ⟨hs.agrees.follow hf, fun m hm => (hs.queue m hm).follow hf, ?_, ?_, ?_, ?_⟩
  · intro m σ t e hm he
    rcases hl hm with ⟨-, rfl⟩ | hm
    · contradiction
    · obtain ⟨m', he, hm⟩ := hs.received m σ t e hm he
      exact ⟨m', he, hm.follow hf⟩
  · rw [hdb]
    apply hs.confirmed
  · intro m m' σ σ' hm hm' e
    rcases hl hm with ⟨em, rfl⟩ | hm <;> rcases hl hm' with ⟨em', rfl⟩ | hm'
    · rw [em, em']
    · apply absurd e.symm (hnew hm')
    · apply absurd e (hnew hm)
    · apply hs.apart m m' σ σ' hm hm' e
  · intro k hk
    rw [hdb] at hk
    have hk : Unprocessed s.db k := hk
    apply (hs.way k hk).keep
    · rw [hdb]
      exact fun o ho _ hc => ⟨ho, hc⟩
    · exact fun m hm => hm
    · intro m σ t e hm he _
      refine ⟨σ, ?_, he⟩
      rw [live_start, if_neg, hm]
      rintro rfl
      obtain ⟨node, hnode, -⟩ := Pool.exists_of_attr hm
      apply (List.getElem?_eq_some_iff.mp hnode).1.ne rfl
    · intro R hR hc
      refine ⟨R, hh ▸ hR, ?_⟩
      intro m σ hm
      rcases hl hm with ⟨-, rfl⟩ | hm
      · rintro rfl
        obtain ⟨j, hj, hjp⟩ := hk
        apply hnone j (Table.mem_of_find hj) hjp
        rw [← Table.key_of_find hj] at hR
        apply hR
      · apply hc m σ hm

/-- A process crashes that holds the instances of the events that it handles. -/
theorem crash {n : NodeId} (hs : Kept s) (hG : s.KeepsEvents (.crash n)) :
  Kept (s.crash n)
  := by
  have hl : ∀ {m σ}, (s.crash n).live m = some σ → m ≠ n ∧ s.live m = some σ := by
    intro m σ hm
    rw [live_crash] at hm
    split at hm
    · contradiction
    · rename_i e
      exact ⟨e, hm⟩
  refine ⟨hs.agrees, hs.queue, fun m σ t e hm => hs.received m σ t e (hl hm).2, hs.confirmed,
    fun m m' σ σ' hm hm' => hs.apart m m' σ σ' (hl hm).2 (hl hm').2, ?_⟩
  intro k hk
  cases hs.way k hk with
  | outbox o ho hp hc hk => exact .outbox o ho hp hc hk
  | queue m hm hk => exact .queue m hm hk
  | handled m σ t e hm he hek =>
      by_cases em : m = n
      · subst em
        obtain ⟨p, hp, hpe⟩ := Pool.exists_of_attr he
        refine .crashed σ.runnerId ?_ ?_
        · rw [← hek]
          apply hG σ hm p (List.mem_of_getElem? hp) e hpe
          rw [hek]
          apply hk
        · intro m' σ' hm' e'
          apply (hl hm').1 (hs.apart _ _ _ _ (hl hm').2 hm e')
      · refine .handled m σ t e ?_ he hek
        rw [live_crash, if_neg em, hm]
  | crashed R hR hc => exact .crashed R hR fun m σ hm => hc m σ (hl hm).2

end Kept

/-- Every action that strands no event keeps the invariant. -/
theorem State.Acts.kept {s s' : State} {a : Action} (h : s.Acts a s') (hs : Kept s)
    (hG : s.KeepsEvents a) :
  Kept s'
  := by
  have hcall : ∀ {service : Service} {c : Runner.Call}, GoesOn s.db service (.call c) :=
    fun _ _ _ _ _ _ _ => rfl
  cases h with
  | ingest hi => apply hs.ingest hi
  | publish ho hp => apply hs.publish ho
  | markPublished hc => apply hs.markPublished hc
  | requeueStale => apply hs.requeueStale
  | query hp hq => apply (hs.query hp hq hG).requests _
  | requests requests => apply hs.requests
  | call requests hn hc =>
      apply ((hs.steps hn (.call _ rfl) hcall (fun e he => absurd (Runner.Label.call.inj he) (hc e))
        (fun m hm => hm) fun m hm => .inl hm).requests requests)
  | start => apply hs.start hG
  | crash => apply hs.crash hG
  | heartbeat hn => exact hs.other rfl rfl rfl rfl
  | @consume n service m queue hn hq =>
      apply hs.steps hn (.call _ rfl) hcall
      · intro e he
        obtain rfl := Runner.Call.handleEvent.inj (Runner.Label.call.inj he)
        exact ⟨m, rfl, hs.queue m (hq ▸ List.mem_cons_self ..)⟩
      · exact fun m' hm => hq ▸ List.mem_cons_of_mem _ hm
      · intro m' hm
        rw [hq] at hm
        rcases List.mem_cons.mp hm with rfl | hm
        · exact .inr rfl
        · exact .inl hm
  | @step n ℓ service service' hn hℓ h =>
      apply hs.steps hn h (hG service hn) (fun e he => absurd he (hℓ e)) (fun m hm => hm)
        fun m hm => .inl hm
  | stmt hn ht h => apply hs.reply hn ht h
  | @forward n n' t service service' e address forwards hn ht hn' =>
      apply hs.steps hn' (.call _ rfl) hcall
      · intro e' he
        obtain rfl := Runner.Call.handleEvent.inj (Runner.Label.call.inj he)
        apply hs.received n service t e hn
        rw [Pool.attr_of_getElem? ht]
        rfl
      · exact fun m hm => hm
      · exact fun m hm => .inl hm
  | tick => exact hs.other rfl rfl rfl rfl

section

variable {storable : Hub.Event → String → Bool} {P : Db → Prop} {s : State}

/-- The invariant holds in the runs that strand no event. -/
theorem kept_of_reach (hP : ∀ db, P db → db.journal.rows = [] ∧ db.outbox.rows = [])
    (h : (system storable P).Reach State.KeepsEvents s) :
  Kept s
  := by
  apply h.invariant
  · rintro s ⟨hs, hn, -, hq, hc, -⟩
    obtain ⟨hj, ho⟩ := hP _ hs
    have hl : ∀ {n service}, s.live n ≠ some service := by
      intro n service hn'
      rw [State.live, Pool.attr, hn] at hn'
      contradiction
    refine ⟨.of_empty hj ho, ?_, fun n service t e hn => absurd hn hl, ?_,
      fun n n' service service' hn => absurd hn hl, ?_⟩
    · rw [hq]
      intro m hm
      contradiction
    · rw [hc]
      intro id hid
      contradiction
    · rintro k ⟨j, hj', -⟩
      have := Table.mem_of_find hj'
      rw [hj] at this
      contradiction
  · exact fun s a s' hs hG ha => (State.act_cases ha).kept hs hG

/-- **No stranded event**: in a run in which no handling of an event ends before its reaction
is processed, no process crashes that handles an event without holding its instance, no
process takes over the registration of a crashed one that holds an instance with something to
process, and the hub takes no such instance from it, every reaction that is not processed has
a way to be processed. -/
theorem notStranded_of_keepsEvents
    (hP : ∀ db, P db → db.journal.rows = [] ∧ db.outbox.rows = [])
    (h : (system storable P).Reach State.KeepsEvents s) :
  s.NotStranded
  := by
  intro k hk
  cases (kept_of_reach hP h).way k hk with
  | outbox o ho hp hc hk => exact .outbox o ho hp List.not_mem_nil hk
  | queue m hm hk => exact .queue m hm hk
  | handled n service t e hn ht hk => exact .handled n service t e hn ht hk
  | crashed R hR hc => exact .crashed R hR hc

end

/-- A runner crashes in the middle of a turn, and the hub publishes the event again. -/
theorem notStranded_of_keepsEvents_crash :
  ∃ s, (system (fun _ _ => true) (· = { Db.single with events := Serial.empty })).Reach
      State.KeepsEvents s ∧
    Unprocessed s.db (1, "c") ∧ s.db.holder 1 = none ∧ s.NotStranded
  := by
  obtain ⟨s, hs, hp⟩ := Transition.exists_reach_of_run
    (T := system (fun _ _ => true) (· = { Db.single with events := Serial.empty }))
    (G := State.KeepsEvents)
    (s := ⟨{ Db.single with events := Serial.empty }, [], [], [], [], []⟩)
    ⟨rfl, rfl, rfl, rfl, rfl, rfl⟩
    [.ingest { id := 1, userId := 1, provider := "github" }
        { deliveryId := "delivery", action := "push", commitSha := "c" } "{}" [1],
      .start "a" "http://a" 1 10, .publish 1, .markPublished 1, .consume 0, .step 0 (.run 0),
      .stmt 0 0, .step 0 (.run 0), .step 0 (.run 0), .step 0 (.run 0), .stmt 0 0,
      .step 0 (.run 0), .stmt 0 0, .step 0 (.run 0), .step 0 (.run 0), .stmt 0 0,
      .step 0 (.run 0), .step 0 (.run 0), .crash 0, .tick 100, .requeueStale 30]
    (fun s => Unprocessed s.db (1, "c") ∧ s.db.holder 1 = none) (by decide)
  obtain ⟨hk, hh⟩ := of_decide_eq_true hp
  refine ⟨s, hs, hk, hh, notStranded_of_keepsEvents ?_ hs⟩
  rintro _ rfl
  exact ⟨rfl, rfl⟩

/-- The turn of an event fails: the runner lives on and has the instance, and nobody will
handle the event again. -/
theorem not_notStranded_reachable :
  ∃ s, (system (fun _ _ => true) (· = { Db.single with events := Serial.empty })).Reach
      State.Unattended s ∧ ¬ s.NotStranded
  := by
  obtain ⟨s, hs, hp⟩ := Transition.exists_reach_of_run
    (T := system (fun _ _ => true) (· = { Db.single with events := Serial.empty }))
    (G := State.Unattended)
    (s := ⟨{ Db.single with events := Serial.empty }, [], [], [], [], []⟩)
    ⟨rfl, rfl, rfl, rfl, rfl, rfl⟩
    [.ingest { id := 1, userId := 1, provider := "github" }
        { deliveryId := "delivery", action := "push", commitSha := "c" } "{}" [1],
      .start "a" "http://a" 1 10, .publish 1, .markPublished 1, .consume 0, .step 0 (.run 0),
      .stmt 0 0, .step 0 (.run 0), .step 0 (.run 0), .step 0 (.run 0), .stmt 0 0,
      .step 0 (.run 0), .stmt 0 0, .step 0 (.run 0), .step 0 (.run 0), .stmt 0 0,
      .step 0 (.run 0), .step 0 (.run 0), .step 0 (.turnEnds 0 .failed), .step 0 (.run 0),
      .step 0 (.run 0)]
    (fun s => Unprocessed s.db (1, "c") ∧ (∀ o ∈ s.db.outbox.rows, o.publishedAt ≠ none) ∧
      s.queue = [] ∧
      (∀ node ∈ s.nodes, ∀ service ∈ node.live, ∀ p ∈ service.tasks, p.handles = none) ∧
      ∀ R ∈ s.db.holder 1, s.LiveRunner R) (by decide)
  obtain ⟨hk, ho, hq, ht, hl⟩ := of_decide_eq_true hp
  refine ⟨s, hs, ?_⟩
  intro h
  cases h _ hk with
  | outbox o hm hp => apply ho o hm hp
  | queue m hm =>
      rw [hq] at hm
      contradiction
  | handled n service t e hn he =>
      obtain ⟨node, hnode, hlive⟩ := Pool.exists_of_attr hn
      obtain ⟨p, hp, hpe⟩ := Pool.exists_of_attr he
      rw [ht node (List.mem_of_getElem? hnode) service hlive p (List.mem_of_getElem? hp)] at hpe
      contradiction
  | crashed R hR hc =>
      obtain ⟨n, service, hn, hid⟩ := State.liveRunner_iff.mp (hl R hR)
      apply hc n service hn hid

end Cluster
