import GitAgent.Hub.Webhook

/-!
# Deliveries and what they depend on

A delivery of a webhook or a manual trigger, as one step of the hub. What it does depends on
the repositories, the builds, the subscriptions, the threads of the instances and the commits
that were processed, none of which a delivery changes (`Db.Alike`), and on the deliveries that
were recorded before.
-/

namespace Hub

/-- A delivery, with the trace of its request. -/
inductive Delivery
  | webhook (provider : String) (repositoryId : RepositoryId) (header : Header) (body : String)
      (json : Option Json) (traceId : String)
  | trigger (r : TriggerRequest) (traceId : String)

/-- The repository that a delivery is about. -/
def Delivery.repositoryId : Delivery → RepositoryId
  | webhook _ repositoryId _ _ _ _ => repositoryId
  | trigger r _ => r.id

def Delivery.traceId : Delivery → String
  | webhook _ _ _ _ _ traceId => traceId
  | trigger _ traceId => traceId

/-- What `FanOut` did: whether the delivery is a duplicate, and otherwise the messages in the
outbox, each with the build, the repository and the thread of its instance. -/
structure Fanned where
  duplicate : Bool
  messages : List (Option (BuildId × RepositoryId × String) × OutboxRow)

namespace Db

/-- A delivery as far as `FanOut`: the repository, the event and the payload, if it comes so
far. A trigger provisions the sandboxes first. -/
def prepare (config : Config) (db : Db) : Delivery → Db × Option (Repository × Event × String)
  | .webhook provider repositoryId header body json _ =>
      (db, (db.webhook config provider repositoryId header body json).map
        fun (repo, e) => (repo, e, body))
  | .trigger r _ =>
      match db.trigger r with
      | .error _ => (db, none)
      | .ok (repo, e, payload) =>
          let (db, ok) := db.provisionSandboxes config repo e r.ensured
          (db, if ok then some (repo, e, payload) else none)

/-- A delivery. A statement that fails leaves nothing behind. -/
def deliver (config : Config) (db : Db) (a : Delivery) : Db × Option Fanned :=
  match db.prepare config a with
  | (db, none) => (db, none)
  | (db, some (repo, e, payload)) =>
      match db.fanOut config repo e payload a.traceId with
      | none => (db, none)
      | some (db', duplicate, _) =>
          (db', some ⟨duplicate, (db'.outbox.rows.drop db.outbox.rows.length).map
            fun o => (db'.origin o.payload.instanceId, o)⟩)

/-- The thread that the instance of a build in a repository has or will have. -/
def thread (db : Db) (buildId : BuildId) (repositoryId : RepositoryId) : String :=
  ((db.instanceOf buildId repositoryId).map InstanceRow.threadId).getD
    (threadId buildId repositoryId)

/-- The foreign keys that the deliveries rely on: the builds of the subscriptions exist, and so
do the events of the reactions that were processed. -/
structure Sound (db : Db) : Prop where
  subscriptions : ∀ s ∈ db.subscriptions.rows, (db.builds.find s.buildId).isSome
  journal : ∀ j ∈ db.journal.rows, j.processedAt ≠ none → (db.events.find j.eventId).isSome

/-- What deliveries read, except the deliveries that were recorded. -/
structure Alike (db db' : Db) : Prop where
  builds : db'.builds = db.builds
  repositories : db'.repositories = db.repositories
  subscriptions : db'.subscriptions = db.subscriptions
  thread : db'.thread = db.thread
  processed : db'.processedCommits = db.processedCommits

namespace Alike

variable {db db' db'' : Db}

theorem refl (db : Db) : Alike db db :=
  ⟨rfl, rfl, rfl, rfl, rfl⟩

theorem symm (h : Alike db db') : Alike db' db :=
  ⟨h.builds.symm, h.repositories.symm, h.subscriptions.symm, h.thread.symm, h.processed.symm⟩

theorem trans (h : Alike db db') (h' : Alike db' db'') : Alike db db'' :=
  ⟨h'.builds.trans h.builds, h'.repositories.trans h.repositories,
    h'.subscriptions.trans h.subscriptions, h'.thread.trans h.thread,
    h'.processed.trans h.processed⟩

end Alike

variable {db db' : Db}

/-! ### Instances -/

theorem instanceOf_touchInstance {α : Type} {f : InstanceRow → α}
    (hf : ∀ r now, f (r.touch now) = f r) (db : Db) (id : InstanceId) (buildId : BuildId)
    (repositoryId : RepositoryId) :
  ((db.touchInstance id).instanceOf buildId repositoryId).map f =
    (db.instanceOf buildId repositoryId).map f
  := by
  have hp : ((fun r : InstanceRow => decide (r.buildId = buildId ∧ r.repositoryId = repositoryId)) ∘
      fun r => if decide (r.id = id) then r.touch db.now else r) =
      fun r => decide (r.buildId = buildId ∧ r.repositoryId = repositoryId) := by
    funext r
    simp only [Function.comp_apply]
    split <;> rfl
  have hrows : (db.touchInstance id).instances.rows =
      db.instances.rows.map fun r => if decide (r.id = id) then r.touch db.now else r := rfl
  rw [instanceOf, instanceOf, hrows, List.find?_map, hp, Option.map_map]
  congr 1
  funext r
  simp only [Function.comp_apply]
  split
  · apply hf
  · rfl

/-- A new instance is that of its build in the repository if there was none. -/
theorem instanceOf_insertInstance (db : Db) (buildId b : BuildId) (repositoryId R : RepositoryId) :
  (db.insertInstance buildId repositoryId).instanceOf b R =
    (db.instanceOf b R).or (if buildId = b ∧ repositoryId = R then
      some (.fresh buildId repositoryId db.now db.instances.next) else none)
  := by
  have hrows : (db.insertInstance buildId repositoryId).instances.rows =
      db.instances.rows ++
        [InstanceRow.fresh buildId repositoryId db.now db.instances.next] := rfl
  rw [instanceOf, hrows, List.find?_append, ← instanceOf]
  congr 1
  by_cases e : buildId = b ∧ repositoryId = R
  · rw [if_pos e, List.find?_cons_of_pos]
    exact decide_eq_true e
  · rw [if_neg e, List.find?_cons_of_neg, List.find?_nil]
    exact fun h => e (of_decide_eq_true h)

/-- An upsert finds or makes the instance of the thread, and changes no thread. -/
theorem thread_upsertInstance {buildId : BuildId} {repositoryId : RepositoryId}
    {id : InstanceId} {threadId : String}
    (h : db.upsertInstance buildId repositoryId = some (db', id, threadId)) :
  threadId = db.thread buildId repositoryId ∧ db'.thread = db.thread
  := by
  rw [upsertInstance] at h
  split at h
  · rename_i r hr
    obtain ⟨rfl, hp⟩ := Prod.mk.inj (Option.some.inj h)
    obtain ⟨rfl, rfl⟩ := Prod.mk.inj hp
    constructor
    · rw [thread, hr]
      rfl
    · funext b R
      rw [thread, instanceOf_touchInstance fun _ _ => rfl, thread]
  · rename_i hn
    split at h
    · obtain ⟨rfl, hp⟩ := Prod.mk.inj (Option.some.inj h)
      obtain ⟨rfl, rfl⟩ := Prod.mk.inj hp
      constructor
      · rw [thread, hn]
        rfl
      · funext b R
        rw [thread, instanceOf_insertInstance, thread]
        cases db.instanceOf b R with
        | some r => rfl
        | none =>
            by_cases e : buildId = b ∧ repositoryId = R
            · obtain ⟨rfl, rfl⟩ := e
              simp [InstanceRow.fresh]
            · rw [if_neg e]
              rfl
    · contradiction

/-- An upsert finds or makes the instance of the build, and leaves those of others. -/
theorem instanceOf_upsertInstance {buildId : BuildId} {repositoryId : RepositoryId}
    {id : InstanceId} {threadId : String}
    (h : db.upsertInstance buildId repositoryId = some (db', id, threadId)) :
  (db'.instanceOf buildId repositoryId).map InstanceRow.id = some id ∧
    ∀ b R i, (db.instanceOf b R).map InstanceRow.id = some i →
      (db'.instanceOf b R).map InstanceRow.id = some i
  := by
  rw [upsertInstance] at h
  split at h
  · rename_i r hr
    obtain ⟨rfl, hp⟩ := Prod.mk.inj (Option.some.inj h)
    obtain ⟨rfl, rfl⟩ := Prod.mk.inj hp
    have hsame := instanceOf_touchInstance (f := InstanceRow.id) InstanceRow.id_touch db r.id
    constructor
    · rw [hsame, hr]
      rfl
    · intro b R i hi
      rw [hsame, hi]
  · rename_i hn
    split at h
    · obtain ⟨rfl, hp⟩ := Prod.mk.inj (Option.some.inj h)
      obtain ⟨rfl, rfl⟩ := Prod.mk.inj hp
      constructor
      · rw [instanceOf_insertInstance, hn, if_pos ⟨rfl, rfl⟩]
        rfl
      · intro b R i hi
        obtain ⟨r, hr, rfl⟩ := Option.map_eq_some_iff.mp hi
        rw [instanceOf_insertInstance, hr]
        rfl
    · contradiction

/-- The instances that receive an event are those of the builds. -/
theorem instanceOf_ingestBuilds {eventId : EventId} {repo : Repository} {e : Event}
    {buildIds : List BuildId} {ids : List InstanceId}
    (h : db.ingestBuilds eventId repo e buildIds = some (db', ids)) :
  List.Forall₂ (fun b i => (db'.instanceOf b repo.id).map InstanceRow.id = some i) buildIds ids ∧
    ∀ b R i, (db.instanceOf b R).map InstanceRow.id = some i →
      (db'.instanceOf b R).map InstanceRow.id = some i
  := by
  induction buildIds generalizing db ids with
  | nil =>
      obtain ⟨rfl, rfl⟩ := Prod.mk.inj (Option.some.inj h)
      exact ⟨.nil, fun _ _ _ h => h⟩
  | cons buildId buildIds ih =>
      obtain ⟨⟨db₁, id⟩, hb, h⟩ := Option.bind_eq_some_iff.mp h
      obtain ⟨⟨db₂, ids⟩, hbs, h⟩ := Option.bind_eq_some_iff.mp h
      obtain ⟨rfl, rfl⟩ := Prod.mk.inj (Option.some.inj h)
      obtain ⟨⟨db₃, id', threadId⟩, hu, hb⟩ := Option.bind_eq_some_iff.mp hb
      obtain ⟨rfl, rfl⟩ := Prod.mk.inj (Option.some.inj hb)
      obtain ⟨hid, hkeeps⟩ := instanceOf_upsertInstance hu
      obtain ⟨hrest, hkeeps'⟩ := ih hbs
      obtain ⟨⟨journal, hj⟩, -⟩ := insertInstanceEvent_spec db₃ id' eventId (dedupKey eventId e)
      rw [hj] at hkeeps'
      exact ⟨.cons (hkeeps' _ _ _ hid) hrest, fun b R i hi => hkeeps' b R i (hkeeps b R i hi)⟩

/-- An upsert succeeds where the build and the repository exist. -/
theorem upsertInstance_isSome {buildId : BuildId} {repositoryId : RepositoryId}
    (hb : (db.builds.find buildId).isSome) (hr : (db.repositories.find repositoryId).isSome) :
  (db.upsertInstance buildId repositoryId).isSome
  := by
  rw [upsertInstance]
  split
  · rfl
  · rw [if_pos ⟨hb, hr⟩]
    rfl

/-- A write of instances that changes no thread. -/
theorem alike_instances {instances : Serial InstanceRow InstanceRow.id}
    (h : ({ db with instances } : Db).thread = db.thread) :
  Alike db { db with instances }
  := ⟨rfl, rfl, rfl, h, rfl⟩

/-! ### Provisioning -/

/-- The builds of the subscriptions exist, and so the instances are all inserted, up to the first
whose sandbox is not up. -/
theorem provisionBuilds_spec {repo : Repository} (ensured : List BuildId)
    (hr : (db.repositories.find repo.id).isSome) {buildIds : List BuildId}
    (hb : ∀ buildId ∈ buildIds, (db.builds.find buildId).isSome) :
  (∃ instances, (db.provisionBuilds repo ensured buildIds).1 = { db with instances }) ∧
    (db.provisionBuilds repo ensured buildIds).1.thread = db.thread ∧
    (db.provisionBuilds repo ensured buildIds).2 = buildIds.all (· ∈ ensured)
  := by
  induction buildIds generalizing db with
  | nil => exact ⟨⟨_, rfl⟩, rfl, rfl⟩
  | cons buildId buildIds ih =>
      obtain ⟨⟨db', id, threadId⟩, hu⟩ := Option.isSome_iff_exists.mp
        (upsertInstance_isSome (hb buildId (List.mem_cons_self ..)) hr)
      obtain ⟨⟨instances, rfl⟩, -⟩ := upsertInstance_spec hu
      have ht := (thread_upsertInstance hu).2
      rw [provisionBuilds, hu]
      simp only
      by_cases he : buildId ∈ ensured
      · have hr' : (({ db with instances } : Db).repositories.find repo.id).isSome := hr
        obtain ⟨⟨instances', hi⟩, ht', hok⟩ := ih hr'
          fun b hb' => hb b (List.mem_cons_of_mem _ hb')
        rw [if_pos he]
        refine ⟨⟨instances', hi⟩, ht'.trans ht, ?_⟩
        rw [hok, List.all_cons, decide_eq_true he, Bool.true_and]
      · rw [if_neg he]
        refine ⟨⟨instances, rfl⟩, ht, ?_⟩
        rw [List.all_cons, decide_eq_false he, Bool.false_and]

theorem Sound.matchedBuilds (hs : db.Sound) {repositoryId : RepositoryId} {action ref : String}
    {buildId : BuildId}
    (h : buildId ∈ Hub.matchedBuilds (db.subscriptionsByRepo repositoryId) action ref) :
  (db.builds.find buildId).isSome
  := by
  obtain ⟨s, hm, rfl⟩ := exists_of_mem_matchedBuilds h
  apply hs.subscriptions s (List.mem_of_mem_filter hm)

/-- Provisioning writes instances, and changes no thread. Its answer depends on the
subscriptions only. -/
theorem provisionSandboxes_spec (config : Config) (hs : db.Sound) {repo : Repository}
    (hr : (db.repositories.find repo.id).isSome) (e : Event) (ensured : List BuildId) :
  (∃ instances, (db.provisionSandboxes config repo e ensured).1 = { db with instances }) ∧
    (db.provisionSandboxes config repo e ensured).1.thread = db.thread ∧
    (db.provisionSandboxes config repo e ensured).2 = (!config.sandboxes ||
      (Hub.matchedBuilds (db.subscriptionsByRepo repo.id) e.action e.ref).all (· ∈ ensured))
  := by
  rw [provisionSandboxes]
  split
  · rename_i h
    rw [h]
    apply provisionBuilds_spec ensured hr
    exact fun buildId hb => hs.matchedBuilds hb
  · rename_i h
    refine ⟨⟨_, rfl⟩, rfl, ?_⟩
    simp [h]

/-! ### What comes as far as `FanOut` -/

/-- The repository of a webhook. -/
theorem find_of_webhook {config : Config} {provider : String} {repositoryId : RepositoryId}
    {header : Header} {body : String} {json : Option Json} {repo : Repository} {e : Event}
    (h : db.webhook config provider repositoryId header body json = some (repo, e)) :
  repo.id = repositoryId ∧ (db.repositories.find repo.id).isSome
  := by
  obtain ⟨e', -, h⟩ := Option.bind_eq_some_iff.mp h
  obtain ⟨repo', hh, h⟩ := Option.bind_eq_some_iff.mp h
  obtain ⟨rfl, -⟩ := Prod.mk.inj (Option.some.inj h)
  obtain ⟨repo'', hf, hh⟩ := Option.bind_eq_some_iff.mp hh
  obtain ⟨secret, -, hh⟩ := Option.bind_eq_some_iff.mp hh
  split at hh
  · obtain rfl := Option.some.inj hh
    obtain ⟨r, hr, rfl⟩ := Option.map_eq_some_iff.mp hf
    obtain ⟨hr, -⟩ := Option.filter_eq_some_iff.mp hr
    have hid : r.id = repositoryId := Table.key_of_find hr
    refine ⟨hid, ?_⟩
    simp only [hid, hr, Option.isSome_some]
  · contradiction

/-- The repository of a trigger. -/
theorem find_of_trigger {r : TriggerRequest} {repo : Repository} {e : Event} {payload : String}
    (h : db.trigger r = .ok (repo, e, payload)) :
  repo.id = r.id ∧ (db.repositories.find repo.id).isSome
  := by
  rw [trigger] at h
  split at h
  · contradiction
  · rename_i repo' hr
    obtain ⟨hr, -⟩ := Option.filter_eq_some_iff.mp hr
    have hid : repo'.id = r.id := Table.key_of_find hr
    cases hres : resolve repo' r with
    | error err =>
        rw [hres] at h
        contradiction
    | ok p =>
        rw [hres] at h
        obtain ⟨rfl, -⟩ := Prod.mk.inj (Except.ok.inj h)
        exact ⟨hid, by rw [hid, hr]; rfl⟩

/-- What is prepared is about the repository of the delivery. -/
theorem find_of_prepare {config : Config} {a : Delivery} {repo : Repository} {e : Event}
    {payload : String} (h : (db.prepare config a).2 = some (repo, e, payload)) :
  repo.id = a.repositoryId ∧ (db.repositories.find repo.id).isSome
  := by
  cases a with
  | webhook provider repositoryId header body json traceId =>
      obtain ⟨⟨repo', e'⟩, hw, h⟩ := Option.map_eq_some_iff.mp h
      obtain ⟨rfl, -⟩ := Prod.mk.inj h
      apply find_of_webhook hw
  | trigger r traceId =>
      rw [prepare] at h
      split at h
      · contradiction
      · rename_i repo' e' payload' ht
        cases hok : (db.provisionSandboxes config repo' e' r.ensured).2 with
        | true =>
            simp only [hok, if_true] at h
            obtain ⟨rfl, -⟩ := Prod.mk.inj (Option.some.inj h)
            apply find_of_trigger ht
        | false =>
            simp [hok] at h

/-- Preparing a delivery writes instances, and changes no thread. -/
theorem prepare_spec (config : Config) (hs : db.Sound) (a : Delivery) :
  (∃ instances, (db.prepare config a).1 = { db with instances }) ∧
    (db.prepare config a).1.thread = db.thread
  := by
  cases a with
  | webhook provider repositoryId header body json traceId => exact ⟨⟨_, rfl⟩, rfl⟩
  | trigger r traceId =>
      rw [prepare]
      split
      · exact ⟨⟨_, rfl⟩, rfl⟩
      · rename_i repo e payload ht
        obtain ⟨hi, ht, -⟩ := provisionSandboxes_spec config hs (find_of_trigger ht).2 e r.ensured
        exact ⟨hi, ht⟩

/-- Alike databases prepare the same. -/
theorem Alike.prepare (h : Alike db db') (config : Config) (hs : db.Sound) (hs' : db'.Sound)
    (a : Delivery) :
  (db'.prepare config a).2 = (db.prepare config a).2
  := by
  cases a with
  | webhook provider repositoryId header body json traceId =>
      simp only [Db.prepare, Db.webhook, Db.handle, Db.findRepository, h.repositories]
  | trigger r traceId =>
      have ht : db'.trigger r = db.trigger r := by
        simp only [Db.trigger, Db.repository?, h.repositories, Db.lastProcessedCommit, h.processed]
      rw [Db.prepare, Db.prepare, ht]
      split
      · rfl
      · rename_i repo e payload ht
        have hr := (find_of_trigger ht).2
        obtain ⟨-, -, hok⟩ := provisionSandboxes_spec config hs hr e r.ensured
        obtain ⟨-, -, hok'⟩ := provisionSandboxes_spec config hs'
          (h.repositories ▸ hr : (db'.repositories.find repo.id).isSome) e r.ensured
        simp only [hok, hok', Db.subscriptionsByRepo, h.subscriptions]

/-! ### What `FanOut` writes -/

/-- The transaction writes no row that is processed, and changes no thread. -/
structure Quiet (db db' : Db) : Prop where
  thread : db'.thread = db.thread
  journal : ∃ rows, db'.journal.rows = db.journal.rows ++ rows ∧ ∀ j ∈ rows, j.processedAt = none

namespace Quiet

theorem refl (db : Db) : Quiet db db :=
  ⟨rfl, [], (List.append_nil _).symm, nofun⟩

theorem trans {db'' : Db} (h : Quiet db db') (h' : Quiet db' db'') :
  Quiet db db''
  := by
  obtain ⟨rows, hr, hn⟩ := h.journal
  obtain ⟨rows', hr', hn'⟩ := h'.journal
  refine ⟨h'.thread.trans h.thread, rows ++ rows', ?_, ?_⟩
  · rw [hr', hr, List.append_assoc]
  · intro j hj
    apply (List.mem_append.mp hj).elim (hn j) (hn' j)

end Quiet

/-- The insertion of a reaction is quiet. -/
theorem quiet_insertInstanceEvent (db : Db) (id : InstanceId) (eventId : EventId)
    (dedupKey : String) :
  Quiet db (db.insertInstanceEvent id eventId dedupKey)
  := by
  rw [insertInstanceEvent]
  split
  · apply Quiet.refl
  · exact ⟨rfl, [_], rfl, fun j hj => by rw [List.mem_singleton.mp hj]⟩

variable {eventId : EventId} {repo : Repository} {e : Event}

/-- The part for one build is quiet, and its message is on the thread of the instance. -/
theorem ingestBuild_spec {buildId : BuildId} {id : InstanceId}
    (h : db.ingestBuild eventId repo e buildId = some (db', id)) :
  Quiet db db' ∧ db'.origin id = some (buildId, repo.id, db.thread buildId repo.id) ∧
    ∃ n, db'.outbox.rows = db.outbox.rows ++ [.fresh eventId
      (routingKey repo.provider repo.id e.action)
      (eventMessage eventId id (db.thread buildId repo.id) repo e) n]
  := by
  obtain ⟨⟨db₁, id, threadId⟩, hu, h⟩ := Option.bind_eq_some_iff.mp h
  obtain ⟨rfl, rfl⟩ := Prod.mk.inj (Option.some.inj h)
  obtain ⟨rfl, ht⟩ := thread_upsertInstance hu
  obtain ⟨⟨instances, rfl⟩, ho, -⟩ := upsertInstance_spec hu
  have hq := quiet_insertInstanceEvent { db with instances } id eventId (dedupKey eventId e)
  obtain ⟨⟨journal, hj⟩, -⟩ := insertInstanceEvent_spec
    { db with instances } id eventId (dedupKey eventId e)
  rw [hj] at hq ⊢
  have hq : Quiet db ({ db with instances, journal } : Db) := ⟨hq.thread.trans ht, hq.journal⟩
  exact ⟨⟨hq.thread, hq.journal⟩, ho, _, rfl⟩

/-- The part for the builds is quiet, and the messages are on the threads of the instances. -/
theorem ingestBuilds_spec {buildIds : List BuildId} {ids : List InstanceId}
    (h : db.ingestBuilds eventId repo e buildIds = some (db', ids)) :
  Quiet db db' ∧ ∃ rows, db'.outbox.rows = db.outbox.rows ++ rows ∧
    List.Forall₂ (fun buildId o => ∃ id n,
      db'.origin id = some (buildId, repo.id, db.thread buildId repo.id) ∧
      o = .fresh eventId (routingKey repo.provider repo.id e.action)
        (eventMessage eventId id (db.thread buildId repo.id) repo e) n) buildIds rows
  := by
  induction buildIds generalizing db ids with
  | nil =>
      obtain ⟨rfl, rfl⟩ := Prod.mk.inj (Option.some.inj h)
      exact ⟨Quiet.refl _, [], (List.append_nil _).symm, .nil⟩
  | cons buildId buildIds ih =>
      obtain ⟨⟨db₁, id⟩, hb, h⟩ := Option.bind_eq_some_iff.mp h
      obtain ⟨⟨db₂, ids⟩, hbs, h⟩ := Option.bind_eq_some_iff.mp h
      obtain ⟨rfl, rfl⟩ := Prod.mk.inj (Option.some.inj h)
      obtain ⟨hq, ho, n, hr⟩ := ingestBuild_spec hb
      obtain ⟨hq', rows, hr', hf⟩ := ih hbs
      refine ⟨hq.trans hq', _ :: rows, ?_, .cons ⟨id, n, ?_, rfl⟩ ?_⟩
      · rw [hr', hr, List.append_assoc]
        rfl
      · apply (ingested_builds hbs).origin _ _ ho
      · rwa [hq.thread] at hf

/-- The part for builds that exist succeeds. -/
theorem ingestBuilds_isSome {buildIds : List BuildId}
    (hb : ∀ buildId ∈ buildIds, (db.builds.find buildId).isSome)
    (hr : (db.repositories.find repo.id).isSome) :
  (db.ingestBuilds eventId repo e buildIds).isSome
  := by
  induction buildIds generalizing db with
  | nil => rfl
  | cons buildId buildIds ih =>
      obtain ⟨p, hu⟩ := Option.isSome_iff_exists.mp
        (upsertInstance_isSome (hb buildId (List.mem_cons_self ..)) hr)
      obtain ⟨⟨db', id⟩, hi⟩ : ∃ q, db.ingestBuild eventId repo e buildId = some q := by
        simp [ingestBuild, hu]
      obtain ⟨instances, journal, outbox, hdb⟩ := (ingested_build hi).frame
      have hb' : ∀ b ∈ buildIds, (db'.builds.find b).isSome := by
        rw [hdb]
        exact fun b h => hb b (List.mem_cons_of_mem _ h)
      have hr' : (db'.repositories.find repo.id).isSome := by
        rw [hdb]
        apply hr
      obtain ⟨q, hq⟩ := Option.isSome_iff_exists.mp (ih hb' hr')
      simp [ingestBuilds, hi, hq]

/-- Rows that are not processed, and events that no processed row is about, change nothing in
what was processed. -/
theorem Sound.processedCommits (hs : db.Sound) {rows : List JournalRow}
    (hj : db'.journal.rows = db.journal.rows ++ rows) (hn : ∀ j ∈ rows, j.processedAt = none)
    (hf : ∀ id, (db.events.find id).isSome → db'.events.find id = db.events.find id) :
  db'.processedCommits = db.processedCommits
  := by
  funext repositoryId
  rw [Db.processedCommits, hj, List.filterMap_append, Db.processedCommits]
  have hrows : rows.filterMap (fun j => do
      let time ← j.processedAt
      let e ← db'.events.find j.eventId
      let commit ← e.commitSha
      if e.repositoryId = repositoryId then some (time, commit) else none) = [] := by
    apply List.filterMap_eq_nil_iff.mpr
    intro j hj
    rw [hn j hj]
    rfl
  rw [hrows, List.append_nil]
  apply List.filterMap_congr
  intro j hj
  cases hp : j.processedAt with
  | none => rfl
  | some time =>
      rw [hf j.eventId (hs.journal j hj (by rw [hp]; apply Option.some_ne_none))]

/-! ### One delivery -/

/-- The event of a delivery that comes as far as the journal. -/
def offered (config : Config) (db : Db) (a : Delivery) : Option (Repository × Event × String) :=
  ((db.prepare config a).2.map fun (repo, e, payload) =>
    (repo, { e with traceId := a.traceId }, payload)).filter fun (_, e, payload) =>
      config.storable e payload

theorem Alike.offered (h : Alike db db') (config : Config) (hs : db.Sound) (hs' : db'.Sound)
    (a : Delivery) :
  db'.offered config a = db.offered config a
  := by rw [Db.offered, h.prepare config hs hs' a, Db.offered]

/-- What is offered is about the repository of the delivery. -/
theorem find_of_offered {config : Config} {a : Delivery} {payload : String}
    (h : db.offered config a = some (repo, e, payload)) :
  repo.id = a.repositoryId ∧ (db.repositories.find repo.id).isSome
  := by
  obtain ⟨h, -⟩ := Option.filter_eq_some_iff.mp h
  obtain ⟨⟨repo', e', payload'⟩, hp, h⟩ := Option.map_eq_some_iff.mp h
  obtain ⟨rfl, -⟩ := Prod.mk.inj h
  apply find_of_prepare hp

/-- What a delivery does to what was offered. A duplicate changes nothing; a new delivery is
recorded, and every instance gets its message. -/
inductive Takes (db : Db) (repo : Repository) (e : Event) (payload : String) (db' : Db) :
    Fanned → Prop
  | duplicate {r} : db.delivered repo.provider e.deliveryId = some r → db'.events = db.events →
      Takes db repo e payload db' ⟨true, []⟩
  | fresh {messages} : db.delivered repo.provider e.deliveryId = none →
      db'.events = (db.insertEvent repo e payload).events →
      List.Forall₂ (fun buildId m => ∃ id n,
        m = (some (buildId, repo.id, db.thread buildId repo.id),
          .fresh db.events.next (routingKey repo.provider repo.id e.action)
            (eventMessage db.events.next id (db.thread buildId repo.id) repo e) n))
        (db.fanOutBuilds repo e) messages →
      Takes db repo e payload db' ⟨false, messages⟩

/-- The rows of the instances matter only as far as the threads. -/
theorem Takes.of_instances {payload : String} {instances : Serial InstanceRow InstanceRow.id}
    {f : Fanned} (ht : ({ db with instances } : Db).thread = db.thread)
    (h : Takes { db with instances } repo e payload db' f) :
  Takes db repo e payload db' f
  := by
  cases h with
  | duplicate hd he => exact .duplicate hd he
  | fresh hd he hf =>
      rw [ht] at hf
      exact .fresh hd he hf

/-- The insertion of an event leaves the events that were recorded. -/
theorem find_insertEvent_of_isSome {payload : String} {id : EventId}
    (h : (db.events.find id).isSome) :
  (db.insertEvent repo e payload).events.find id = db.events.find id
  := by
  rw [insertEvent, Serial.find_insert, if_neg]
  rintro rfl
  rw [Serial.find_next] at h
  contradiction

/-- The transaction for what was offered succeeds, and leaves what deliveries read. -/
theorem ingest_spec {storable : Event → String → Bool} {payload : String} (hs : db.Sound)
    (hstore : storable e payload) (hr : (db.repositories.find repo.id).isSome) :
  ∃ db' duplicate ids, db.ingest storable repo e payload (db.fanOutBuilds repo e) =
      some (db', duplicate, ids) ∧ Alike db db' ∧ db'.Sound ∧
    Takes db repo e payload db' ⟨duplicate, (db'.outbox.rows.drop db.outbox.rows.length).map
      fun o => (db'.origin o.payload.instanceId, o)⟩
  := by
  rw [ingest, if_neg (by simpa using hstore)]
  cases hd : db.delivered repo.provider e.deliveryId with
  | some r =>
      refine ⟨db, true, [], by simp, Alike.refl db, hs, ?_⟩
      rw [List.drop_length]
      exact .duplicate hd rfl
  | none =>
      have hb : ∀ buildId ∈ db.fanOutBuilds repo e, (db.builds.find buildId).isSome := by
        intro buildId h
        rw [fanOutBuilds] at h
        split at h
        · apply hs.matchedBuilds h
        · contradiction
      have hsome : ((db.insertEvent repo e payload).ingestBuilds db.events.next repo e
          (db.fanOutBuilds repo e)).isSome := ingestBuilds_isSome hb hr
      obtain ⟨⟨db', ids⟩, hi⟩ := Option.isSome_iff_exists.mp hsome
      obtain ⟨hq, rows, ho, hf⟩ := ingestBuilds_spec hi
      obtain ⟨jrows, hj, hn⟩ := hq.journal
      obtain ⟨instances, journal, outbox, hdb⟩ := (ingested_builds hi).frame
      have hevents : db'.events = (db.insertEvent repo e payload).events := by rw [hdb]
      have hfind : ∀ id, (db.events.find id).isSome → db'.events.find id = db.events.find id := by
        intro id h
        rw [hevents]
        apply find_insertEvent_of_isSome h
      have hal : Alike db db' := by
        refine ⟨?_, ?_, ?_, hq.thread, hs.processedCommits hj hn hfind⟩ <;> rw [hdb] <;> rfl
      have hs' : db'.Sound := by
        constructor
        · rw [hal.subscriptions, hal.builds]
          apply hs.subscriptions
        · intro j hj' hp
          rw [hj] at hj'
          rcases List.mem_append.mp hj' with hj' | hj'
          · rw [hfind _ (hs.journal j hj' hp)]
            apply hs.journal j hj' hp
          · apply absurd (hn j hj') hp
      refine ⟨db', false, ids, ?_, hal, hs', .fresh hd hevents ?_⟩
      · rw [if_neg (by simp), if_neg (by simpa using Option.isSome_iff_ne_none.mp hr), hi]
        rfl
      · rw [ho, insertEvent, List.drop_left, List.forall₂_map_right_iff]
        apply hf.imp
        rintro buildId o ⟨id, n, horigin, rfl⟩
        exact ⟨id, n, Prod.ext horigin rfl⟩

/-- A delivery leaves what deliveries read, and takes what it offers. -/
theorem deliver_spec (config : Config) (hs : db.Sound) (a : Delivery) :
  Alike db (db.deliver config a).1 ∧ (db.deliver config a).1.Sound ∧
    (db.offered config a = none ∧ (db.deliver config a).1.events = db.events ∧
      (db.deliver config a).2 = none ∨
    ∃ repo e payload f, db.offered config a = some (repo, e, payload) ∧
      (db.deliver config a).2 = some f ∧ Takes db repo e payload (db.deliver config a).1 f)
  := by
  obtain ⟨⟨instances, hi⟩, ht⟩ := prepare_spec config hs a
  have ht : ({ db with instances } : Db).thread = db.thread := hi ▸ ht
  have hal : Alike db { db with instances } := alike_instances ht
  have hs₁ : ({ db with instances } : Db).Sound := ⟨hs.subscriptions, hs.journal⟩
  cases hp : db.prepare config a with
  | mk db₁ o =>
  rw [hp] at hi
  simp only at hi
  subst hi
  cases o with
  | none =>
      have hd : db.deliver config a = ({ db with instances }, none) := by rw [deliver, hp]
      rw [hd]
      refine ⟨hal, hs₁, .inl ⟨?_, rfl, rfl⟩⟩
      rw [offered, hp]
      rfl
  | some p =>
      obtain ⟨repo, e, payload⟩ := p
      have hr := (find_of_prepare (by rw [hp] : (db.prepare config a).2 = _)).2
      cases hstore : config.storable { e with traceId := a.traceId } payload with
      | false =>
          have hd : db.deliver config a = ({ db with instances }, none) := by
            simp [deliver, hp, fanOut, ingest, hstore]
          rw [hd]
          refine ⟨hal, hs₁, .inl ⟨?_, rfl, rfl⟩⟩
          simp [offered, hp, hstore, Option.filter]
      | true =>
          obtain ⟨db', duplicate, ids, hg, hal', hs', hT⟩ := ingest_spec hs₁ hstore hr
          have hd : db.deliver config a = (db', some ⟨duplicate,
              (db'.outbox.rows.drop db.outbox.rows.length).map
                fun o => (db'.origin o.payload.instanceId, o)⟩) := by
            rw [deliver, hp]
            simp only [fanOut]
            rw [show Db.ingest _ _ _ _ _ _ = _ from hg]
          rw [hd]
          refine ⟨hal.trans hal', hs', .inr ⟨repo, _, payload, _, ?_, rfl, hT.of_instances ht⟩⟩
          simp [offered, hp, hstore, Option.filter]

end Db

end Hub
