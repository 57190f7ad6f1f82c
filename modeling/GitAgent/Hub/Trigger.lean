import GitAgent.Hub.Deliveries
import GitAgent.Hub.Sandbox
import GitAgent.Library.Fault

/-!
# The manual trigger

`Trigger` (`app/repository.go`) publishes an event only after each of the instances that are to
receive it has a sandbox: the builds of the matching subscriptions are provisioned one by one
(`provisionSandboxes`, `Ensure`), and only if all of this succeeds the event is recorded and its
messages are written (`FanOut`), for the builds that match then. Any of the statements may fail, and
so may the provider of sandboxes.
-/

namespace Hub.Trigger

open Sandbox (Row AgentInstance Coordinates)

/-- The tables, and the sandboxes with the instances that they are linked to. -/
structure State where
  db : Db
  linkOf : InstanceId → Option ℕ
  sandboxes : Serial Row Row.id

namespace State

variable (s : State)

/-! ### Statements -/

/-- Instances were inserted, which have no sandbox. -/
def insertInstances (db : Db) : State :=
  { s with db, linkOf := fun id => if (s.db.instances.find id).isSome then s.linkOf id else none }

/-- `UpsertInstance`. -/
def upsertInstance (buildId : BuildId) (repositoryId : RepositoryId) :
    Option (State × InstanceId) :=
  (s.db.upsertInstance buildId repositoryId).map fun (db, id, _) => (s.insertInstances db, id)

/-- The query `Instance`: an instance in a repository of the user, with its sandbox. -/
def instance? (id : InstanceId) (userId : UserId) : Option AgentInstance :=
  ((s.db.instances.find id).filter fun r =>
    (s.db.repositories.find r.repositoryId).any fun repo => repo.userId = userId).map fun r =>
      { id := r.id
        buildId := r.buildId
        sandboxInstanceId := s.linkOf r.id
        sandboxStatus := (s.linkOf r.id).bind fun id => (s.sandboxes.find id).map Row.status }

/-- `CreateSandboxInstance`. -/
def createSandboxInstance (externalId : String) (sandboxConnectionId : ℕ) : State × ℕ :=
  ({ s with
    sandboxes :=
      s.sandboxes.insert (fun id => { id, externalId, sandboxConnectionId })
        fun id => (rfl : id = id) },
    s.sandboxes.next)

/-- `LinkInstanceSandbox`, if there are such an instance of the user and such a sandbox. -/
def linkInstanceSandbox (id : InstanceId) (sandboxInstanceId : ℕ) (userId : UserId) :
    Option State :=
  if (s.instance? id userId).isSome ∧ (s.sandboxes.find sandboxInstanceId).isSome then
    some { s with
      db := s.db.touchInstance id
      linkOf := Function.update s.linkOf id (some sandboxInstanceId) }
  else none

/-- The builds whose subscriptions match an event. -/
def matched (repo : Repository) (e : Event) : List BuildId :=
  matchedBuilds (s.db.subscriptionsByRepo repo.id) e.action e.ref

/-- The instance of a build in a repository. -/
def instanceOf (buildId : BuildId) (repositoryId : RepositoryId) : Option InstanceId :=
  (s.db.instanceOf buildId repositoryId).map InstanceRow.id

/-- The instance has a linked sandbox that is alive. -/
def Alive (id : InstanceId) : Prop :=
  ∃ sandboxInstanceId, s.linkOf id = some sandboxInstanceId ∧
    ∃ row, s.sandboxes.find sandboxInstanceId = some row ∧ row.status = .alive

end State

/-- The statements of a trigger: those of the provisioning at the place of a build among the
matching ones. -/
inductive Statement
  | repository
  | lastProcessedCommit
  | matchedBuilds
  | upsert (k : ℕ)
  | instance (k : ℕ)
  | build (k : ℕ)
  | connection (k : ℕ)
  | insert (k : ℕ)
  | select (k : ℕ)
  | link (k : ℕ)
  | fanOut
  | ingest
  deriving DecidableEq, Repr

/-- Why a trigger fails. -/
inductive Failure
  | trigger (e : TriggerError)
  | statement (st : Statement)
  | refused (st : Statement)
  | vanished (id : InstanceId)
  | gone (buildId : BuildId)
  | coordinates (connectionId : ℕ)
  | createSandbox (k : ℕ)
  | notFound
  deriving DecidableEq, Repr

/-- `TriggerResult`. -/
structure TriggerResult where
  commitSha : String
  duplicate : Bool
  instanceIds : List InstanceId
  deriving DecidableEq, Repr

/-- What the hub is built with, and the connections of the builds to providers of sandboxes. -/
structure Config extends Hub.Config where
  service : Sandbox.Config
  connectionOf : BuildId → ℕ

/-- What happens during a trigger: the statements that fail, and whether they were done all the
same; the ids that the provider gives to the sandboxes; and the trace of the request. -/
structure Environment where
  fault : Statement → Option Bool
  createSandbox : ℕ → Coordinates → Option String
  traceId : String

namespace Environment

variable (config : Config) (E : Environment)

/-- A statement that the tables accept with the result `next`, or refuse. -/
def attempt {α : Type} (st : Statement) (s : State) (next : Option (State × α)) :
    State × Except Failure α :=
  Fault.attempt ((E.fault st).map fun effect => (effect, .statement st)) (.refused st) s next

/-- `Create`: the sandbox of a connection, with its row. -/
def create (k : ℕ) (connectionId : ℕ) (s : State) : State × Except Failure ℕ :=
  match E.fault (.connection k) with
  | some _ => (s, .error (.statement (.connection k)))
  | none =>
      match config.service.coordinates connectionId with
      | none => (s, .error (.coordinates connectionId))
      | some c =>
          match E.createSandbox k c with
          | none => (s, .error (.createSandbox k))
          | some externalId =>
              match E.attempt (.insert k) s
                (some (s.createSandboxInstance externalId c.connectionId)) with
              | (s, .error f) => (s, .error f)
              | (s, .ok id) =>
                  match E.fault (.select k) with
                  | some _ => (s, .error (.statement (.select k)))
                  | none =>
                      match s.sandboxes.find id with
                      | none => (s, .error .notFound)
                      | some row => (s, .ok row.id)

/-- `Ensure`: an instance that was read gets a sandbox, unless it has a living one. -/
def ensure (k : ℕ) (inst : AgentInstance) (userId : UserId) (s : State) :
    State × Except Failure Unit :=
  if inst.provisioned then (s, .ok ())
  else
    match E.fault (.build k) with
    | some _ => (s, .error (.statement (.build k)))
    | none =>
        match s.db.builds.find inst.buildId with
        | none => (s, .error (.gone inst.buildId))
        | some build =>
            match E.create config k (config.connectionOf build.id) s with
            | (s, .error f) => (s, .error f)
            | (s, .ok sandboxInstanceId) =>
                E.attempt (.link k) s
                  ((s.linkInstanceSandbox inst.id sandboxInstanceId userId).map fun s => (s, ()))

/-- One turn of the loop of `provisionSandboxes`, for the build at the place `k`. -/
def provisionBuild (repo : Repository) (k : ℕ) (buildId : BuildId) (s : State) :
    State × Except Failure Unit :=
  match E.attempt (.upsert k) s (s.upsertInstance buildId repo.id) with
  | (s, .error f) => (s, .error f)
  | (s, .ok id) =>
      match E.fault (.instance k) with
      | some _ => (s, .error (.statement (.instance k)))
      | none =>
          match s.instance? id repo.userId with
          | none => (s, .error (.vanished id))
          | some inst => E.ensure config k inst repo.userId s

/-- The loop of `provisionSandboxes`, from the place `k` on. -/
def provisionBuilds (repo : Repository) (k : ℕ) :
    List BuildId → State → State × Except Failure Unit
  | [], s => (s, .ok ())
  | buildId :: buildIds, s =>
      match E.provisionBuild config repo k buildId s with
      | (s, .error f) => (s, .error f)
      | (s, .ok ()) => provisionBuilds repo (k + 1) buildIds s

/-- `provisionSandboxes`. Without a service of sandboxes it is off. -/
def provisionSandboxes (repo : Repository) (e : Event) (s : State) :
    State × Except Failure Unit :=
  if config.sandboxes then
    match E.fault .matchedBuilds with
    | some _ => (s, .error (.statement .matchedBuilds))
    | none => E.provisionBuilds config repo 0 (s.matched repo e) s
  else (s, .ok ())

/-- `FanOut`: whether the event is a duplicate, and the instances that receive it. -/
def fanOut (repo : Repository) (e : Event) (payload : String) (s : State) :
    State × Except Failure (Bool × List InstanceId) :=
  match E.fault .fanOut with
  | some _ => (s, .error (.statement .fanOut))
  | none =>
      E.attempt .ingest s ((s.db.fanOut config.toConfig repo e payload E.traceId).map
        fun (db, duplicate, ids) => (s.insertInstances db, duplicate, ids))

/-- `Trigger`, as far as `provisionSandboxes`: the repository, the event and the payload. -/
def prepare (r : TriggerRequest) (s : State) : Except Failure (Repository × Event × String) :=
  match E.fault .repository, s.db.trigger r with
  | some _, _ => .error (.statement .repository)
  | none, .error e => .error (.trigger e)
  | none, .ok (repo, e, payload) =>
      if e.action = "manual" ∧ (E.fault .lastProcessedCommit).isSome then
        .error (.statement .lastProcessedCommit)
      else .ok (repo, e, payload)

/-- `Trigger`. -/
def trigger (r : TriggerRequest) (s : State) : State × Except Failure TriggerResult :=
  match E.prepare r s with
  | .error f => (s, .error f)
  | .ok (repo, e, payload) =>
      match E.provisionSandboxes config repo e s with
      | (s, .error f) => (s, .error f)
      | (s, .ok ()) =>
          match E.fanOut config repo e payload s with
          | (s, .error f) => (s, .error f)
          | (s, .ok (duplicate, instanceIds)) =>
              (s, .ok { commitSha := e.commitSha, duplicate, instanceIds })

end Environment

/-! ### What is shown -/

/-- No event is recorded, no reaction and no message is written. -/
structure Unpublished (s s' : State) : Prop where
  events : s'.db.events = s.db.events
  journal : s'.db.journal = s.db.journal
  outbox : s'.db.outbox = s.db.outbox

/-- A step of the provisioning fails: the builds are not read, or, after those before it were
provisioned, the build at some place is not. -/
inductive Fails (config : Config) (E : Environment) (repo : Repository) (e : Event) (s : State) :
    State → Failure → Prop
  | matchedBuilds (hs : config.sandboxes = true) (h : E.fault .matchedBuilds ≠ none) :
      Fails config E repo e s s (.statement .matchedBuilds)
  | build {k : ℕ} {buildId : BuildId} {s₁ s₂ : State} {f : Failure}
      (hs : config.sandboxes = true) (h : E.fault .matchedBuilds = none)
      (hk : (s.matched repo e)[k]? = some buildId)
      (hbefore : E.provisionBuilds config repo 0 ((s.matched repo e).take k) s = (s₁, .ok ()))
      (hbuild : E.provisionBuild config repo k buildId s₁ = (s₂, .error f)) :
      Fails config E repo e s s₂ f

/-- The messages of an event go to the instances of the matching builds, and if it carries no code,
to none. -/
structure Published (s : State) (repo : Repository) (e : Event) (instanceIds : List InstanceId)
    (s' : State) : Prop where
  outbox : ∃ rows, s'.db.outbox.rows = s.db.outbox.rows ++ rows ∧
    rows.map (fun o => o.payload.instanceId) = instanceIds
  instances : List.Forall₂ (fun buildId id => s'.instanceOf buildId repo.id = some id)
    (if e.carriesCode then s.matched repo e else []) instanceIds

/-- If a step of the provisioning fails, nothing is published. -/
def Withholds (config : Config) (E : Environment) (r : TriggerRequest) (s : State) : Prop :=
  ∀ repo e payload, E.prepare r s = .ok (repo, e, payload) →
    ∀ s' f, Fails config E repo e s s' f →
      E.trigger config r s = (s', .error f) ∧ Unpublished s s'

/-- A trigger that succeeds and is not a duplicate publishes its event. -/
def Publishes (config : Config) (E : Environment) (r : TriggerRequest) (s : State) : Prop :=
  ∀ s' result, E.trigger config r s = (s', .ok result) → result.duplicate = false →
    ∃ repo e payload, E.prepare r s = .ok (repo, e, payload) ∧
      Published s repo e result.instanceIds s'

/-- When the event is recorded, the instances that receive it have living sandboxes. -/
def Living (config : Config) (E : Environment) (r : TriggerRequest) (s : State) : Prop :=
  ∀ s' result, E.trigger config r s = (s', .ok result) → result.duplicate = false →
    ∀ id ∈ result.instanceIds, s'.Alive id

/-! ### The statements -/

/-- No instance is forgotten, and none loses a living sandbox; nothing but instances and sandboxes
is written. -/
structure Extends (s s' : State) : Prop where
  frame : ∃ instances, s'.db = { s.db with instances }
  origin : ∀ id o, s.db.origin id = some o → s'.db.origin id = some o
  instanceOf : ∀ b R id, s.instanceOf b R = some id → s'.instanceOf b R = some id
  alive : ∀ id, (s.db.origin id).isSome → s.Alive id → s'.Alive id

namespace Extends

variable {s s' s'' : State}

theorem refl (s : State) :
  Extends s s
  := ⟨⟨_, rfl⟩, fun _ _ h => h, fun _ _ _ h => h, fun _ _ h => h⟩

theorem trans (h : Extends s s') (h' : Extends s' s'') :
  Extends s s''
  := by
  constructor
  · obtain ⟨instances, hs⟩ := h.frame
    obtain ⟨instances', hs'⟩ := h'.frame
    rw [hs', hs]
    exact ⟨instances', rfl⟩
  · exact fun id o ho => h'.origin id o (h.origin id o ho)
  · exact fun b R id hi => h'.instanceOf b R id (h.instanceOf b R id hi)
  · intro id ho ha
    obtain ⟨o, ho⟩ := Option.isSome_iff_exists.mp ho
    apply h'.alive id _ (h.alive id (Option.isSome_of_eq_some ho) ha)
    exact Option.isSome_of_eq_some (h.origin id o ho)

theorem unpublished (h : Extends s s') :
  Unpublished s s'
  := by
  obtain ⟨instances, hs⟩ := h.frame
  constructor <;> rw [hs]

theorem matched (h : Extends s s') (repo : Repository) (e : Event) :
  s'.matched repo e = s.matched repo e
  := by
  obtain ⟨instances, hs⟩ := h.frame
  rw [State.matched, hs]
  rfl

end Extends

namespace State

variable {s s' : State}

/-- An instance that is there keeps its sandbox when others are inserted. -/
theorem alive_insertInstances {db : Db} {id : InstanceId} (ho : (s.db.origin id).isSome)
    (h : s.Alive id) :
  (s.insertInstances db).Alive id
  := by
  obtain ⟨sandboxInstanceId, hlink, hrow⟩ := h
  refine ⟨sandboxInstanceId, ?_, hrow⟩
  rw [Db.origin, Option.isSome_map] at ho
  rw [insertInstances]
  dsimp only
  rw [if_pos ho, hlink]

/-- An upsert gives the instance of the build. -/
theorem extends_upsertInstance {buildId : BuildId} {repositoryId : RepositoryId} {id : InstanceId}
    (h : s.upsertInstance buildId repositoryId = some (s', id)) :
  Extends s s' ∧ s'.instanceOf buildId repositoryId = some id
  := by
  obtain ⟨⟨db, id', threadId⟩, hu, heq⟩ := Option.map_eq_some_iff.mp h
  obtain ⟨rfl, rfl⟩ := Prod.mk.inj heq
  obtain ⟨hframe, -, horigin, -⟩ := Db.upsertInstance_spec hu
  obtain ⟨hid, hothers⟩ := Db.instanceOf_upsertInstance hu
  refine ⟨⟨hframe, horigin, hothers, ?_⟩, hid⟩
  exact fun _ => alive_insertInstances

theorem extends_createSandboxInstance (s : State) (externalId : String)
    (sandboxConnectionId : ℕ) :
  Extends s (s.createSandboxInstance externalId sandboxConnectionId).1
  := by
  refine ⟨⟨_, rfl⟩, fun _ _ h => h, fun _ _ _ h => h, ?_⟩
  rintro id - ⟨sandboxInstanceId, hlink, row, hrow, hstatus⟩
  refine ⟨sandboxInstanceId, hlink, row, ?_, hstatus⟩
  rw [createSandboxInstance]
  dsimp only
  rw [Serial.find_insert, if_neg, hrow]
  rintro rfl
  rw [Serial.find_next] at hrow
  contradiction

/-- A living sandbox is linked to an instance. -/
theorem extends_linkInstanceSandbox {id : InstanceId} {sandboxInstanceId : ℕ} {userId : UserId}
    {row : Row} (h : s.linkInstanceSandbox id sandboxInstanceId userId = some s')
    (hrow : s.sandboxes.find sandboxInstanceId = some row) (hstatus : row.status = .alive) :
  Extends s s' ∧ s'.Alive id
  := by
  rw [linkInstanceSandbox] at h
  split at h
  · obtain rfl := Option.some.inj h
    have halive : State.Alive { s with
        db := s.db.touchInstance id
        linkOf := Function.update s.linkOf id (some sandboxInstanceId) } id :=
      ⟨sandboxInstanceId, Function.update_self .., row, hrow, hstatus⟩
    refine ⟨⟨⟨_, rfl⟩, ?_, ?_, ?_⟩, halive⟩
    · intro id' o ho
      rw [← ho]
      exact congrFun (s.db.origin_touchInstance id) id'
    · intro b R id' hi
      rw [← hi]
      exact Db.instanceOf_touchInstance InstanceRow.id_touch s.db id b R
    · rintro id' - hid'
      by_cases e : id' = id
      · rw [e]
        exact halive
      · obtain ⟨sandboxInstanceId', hlink, hrow'⟩ := hid'
        refine ⟨sandboxInstanceId', ?_, hrow'⟩
        exact (Function.update_of_ne e ..).trans hlink
  · contradiction

/-- An instance that was read with a living sandbox has one. -/
theorem alive_of_provisioned {id : InstanceId} {userId : UserId} {inst : AgentInstance}
    (h : s.instance? id userId = some inst) (hp : inst.provisioned = true) :
  s.Alive inst.id
  := by
  obtain ⟨r, -, rfl⟩ := Option.map_eq_some_iff.mp h
  rw [AgentInstance.provisioned, Bool.and_eq_true] at hp
  obtain ⟨sandboxInstanceId, hlink, hrow⟩ := Option.bind_eq_some_iff.mp (of_decide_eq_true hp.2)
  obtain ⟨row, hrow, hstatus⟩ := Option.map_eq_some_iff.mp hrow
  exact ⟨sandboxInstanceId, hlink, row, hrow, hstatus⟩

/-- The instance of a build is there. -/
theorem isSome_origin_of_instanceOf {buildId : BuildId} {repositoryId : RepositoryId}
    {id : InstanceId} (h : s.instanceOf buildId repositoryId = some id) :
  (s.db.origin id).isSome
  := by
  obtain ⟨r, hr, rfl⟩ := Option.map_eq_some_iff.mp h
  rw [Db.origin, Option.isSome_map]
  exact Option.isSome_of_eq_some (Table.find_of_mem (List.mem_of_find?_eq_some hr))

theorem id_of_instance? {id : InstanceId} {userId : UserId} {inst : AgentInstance}
    (h : s.instance? id userId = some inst) :
  inst.id = id
  := by
  obtain ⟨r, hr, rfl⟩ := Option.map_eq_some_iff.mp h
  have hid : r.id = id := Table.key_of_find (Option.filter_eq_some_iff.mp hr).1
  exact hid

end State

namespace Environment

variable {config : Config} {E : Environment} {s s' : State}

/-! ### The provisioning -/

/-- A sandbox that was made is alive. -/
theorem create_spec {k connectionId : ℕ} {r : Except Failure ℕ}
    (h : E.create config k connectionId s = (s', r)) :
  Extends s s' ∧ ∀ id, r = .ok id →
    ∃ row, s'.sandboxes.find id = some row ∧ row.status = .alive
  := by
  rw [create] at h
  split at h
  · obtain ⟨rfl, rfl⟩ := Prod.mk.inj h
    exact ⟨.refl _, nofun⟩
  split at h
  · obtain ⟨rfl, rfl⟩ := Prod.mk.inj h
    exact ⟨.refl _, nofun⟩
  split at h
  · obtain ⟨rfl, rfl⟩ := Prod.mk.inj h
    exact ⟨.refl _, nofun⟩
  rename_i c _ _ externalId _
  have hcreated := s.extends_createSandboxInstance externalId c.connectionId
  split at h
  · rename_i s₁ f hinsert
    obtain ⟨rfl, rfl⟩ := Prod.mk.inj h
    rcases Fault.attempt_cases hinsert with ⟨rfl, -⟩ | ⟨id, hid, -⟩
    · exact ⟨.refl _, nofun⟩
    · rw [Option.some.inj hid] at hcreated
      exact ⟨hcreated, nofun⟩
  · rename_i s₁ id hinsert
    rcases Fault.attempt_cases hinsert with ⟨-, hne⟩ | ⟨id', hid, hok⟩
    · exact absurd rfl (hne id)
    · obtain rfl := hok id rfl
      obtain ⟨rfl, rfl⟩ := Prod.mk.inj (Option.some.inj hid)
      have hrow : (s.createSandboxInstance externalId c.connectionId).1.sandboxes.find
          s.sandboxes.next = some ⟨s.sandboxes.next, externalId, c.connectionId, .alive⟩ := by
        rw [State.createSandboxInstance, Serial.find_insert, if_pos rfl]
      split at h
      · obtain ⟨rfl, rfl⟩ := Prod.mk.inj h
        exact ⟨hcreated, nofun⟩
      split at h
      · obtain ⟨rfl, rfl⟩ := Prod.mk.inj h
        exact ⟨hcreated, nofun⟩
      · rename_i row hfind
        obtain ⟨rfl, rfl⟩ := Prod.mk.inj h
        refine ⟨hcreated, ?_⟩
        intro id hid
        rw [← Except.ok.inj hid]
        obtain rfl := Option.some.inj (hrow.symm.trans hfind)
        exact ⟨_, hrow, rfl⟩

/-- An instance has a living sandbox once it was ensured. -/
theorem ensure_spec {k : ℕ} {id : InstanceId} {inst : AgentInstance} {userId : UserId}
    {r : Except Failure Unit} (hinst : s.instance? id userId = some inst)
    (h : E.ensure config k inst userId s = (s', r)) :
  Extends s s' ∧ (r = .ok () → s'.Alive id)
  := by
  obtain rfl := State.id_of_instance? hinst
  rw [ensure] at h
  split at h
  · rename_i hp
    obtain ⟨rfl, rfl⟩ := Prod.mk.inj h
    exact ⟨.refl _, fun _ => State.alive_of_provisioned hinst hp⟩
  split at h
  · obtain ⟨rfl, rfl⟩ := Prod.mk.inj h
    exact ⟨.refl _, nofun⟩
  split at h
  · obtain ⟨rfl, rfl⟩ := Prod.mk.inj h
    exact ⟨.refl _, nofun⟩
  split at h
  · rename_i s₁ f hcreate
    obtain ⟨rfl, rfl⟩ := Prod.mk.inj h
    exact ⟨(create_spec hcreate).1, nofun⟩
  · rename_i s₁ sandboxInstanceId hcreate
    obtain ⟨hcreated, hrow⟩ := create_spec hcreate
    obtain ⟨row, hrow, hstatus⟩ := hrow sandboxInstanceId rfl
    rcases Fault.attempt_cases h with ⟨rfl, hne⟩ | ⟨_, hlink, -⟩
    · exact ⟨hcreated, fun hr => absurd hr (hne _)⟩
    · obtain ⟨s₂, hs₂, heq⟩ := Option.map_eq_some_iff.mp hlink
      obtain ⟨rfl, -⟩ := Prod.mk.inj heq
      obtain ⟨hlinked, halive⟩ := State.extends_linkInstanceSandbox hs₂ hrow hstatus
      exact ⟨hcreated.trans hlinked, fun _ => halive⟩

/-- The instance of a build has a living sandbox once the build was provisioned. -/
theorem provisionBuild_spec {repo : Repository} {k : ℕ} {buildId : BuildId}
    {r : Except Failure Unit} (h : E.provisionBuild config repo k buildId s = (s', r)) :
  Extends s s' ∧ (r = .ok () → ∃ id, s'.instanceOf buildId repo.id = some id ∧ s'.Alive id)
  := by
  rw [provisionBuild] at h
  split at h
  · rename_i s₁ f hupsert
    obtain ⟨rfl, rfl⟩ := Prod.mk.inj h
    rcases Fault.attempt_cases hupsert with ⟨rfl, -⟩ | ⟨id, hid, -⟩
    · exact ⟨.refl _, nofun⟩
    · exact ⟨(State.extends_upsertInstance hid).1, nofun⟩
  · rename_i s₁ id hupsert
    obtain ⟨hupserted, hid⟩ : Extends s s₁ ∧ s₁.instanceOf buildId repo.id = some id := by
      rcases Fault.attempt_cases hupsert with ⟨-, hne⟩ | ⟨id', hid, hok⟩
      · exact absurd rfl (hne id)
      · obtain rfl := hok id rfl
        apply State.extends_upsertInstance hid
    split at h
    · obtain ⟨rfl, rfl⟩ := Prod.mk.inj h
      exact ⟨hupserted, nofun⟩
    split at h
    · obtain ⟨rfl, rfl⟩ := Prod.mk.inj h
      exact ⟨hupserted, nofun⟩
    · rename_i inst hinst
      obtain ⟨hensured, halive⟩ := ensure_spec hinst h
      refine ⟨hupserted.trans hensured, fun hr => ⟨id, ?_, halive hr⟩⟩
      apply hensured.instanceOf _ _ _ hid

/-- The instances of the builds have living sandboxes once all the builds were provisioned. -/
theorem provisionBuilds_spec {repo : Repository} {k : ℕ} {buildIds : List BuildId}
    {r : Except Failure Unit} (h : E.provisionBuilds config repo k buildIds s = (s', r)) :
  Extends s s' ∧ (r = .ok () → ∀ buildId ∈ buildIds,
    ∃ id, s'.instanceOf buildId repo.id = some id ∧ s'.Alive id)
  := by
  induction buildIds generalizing k s with
  | nil =>
      obtain ⟨rfl, rfl⟩ := Prod.mk.inj h
      exact ⟨.refl _, nofun⟩
  | cons buildId buildIds ih =>
      rw [provisionBuilds] at h
      split at h
      · rename_i s₁ f hbuild
        obtain ⟨rfl, rfl⟩ := Prod.mk.inj h
        exact ⟨(provisionBuild_spec hbuild).1, nofun⟩
      · rename_i s₁ hbuild
        obtain ⟨hhead, hid⟩ := provisionBuild_spec hbuild
        obtain ⟨htail, hids⟩ := ih h
        refine ⟨hhead.trans htail, fun hr => List.forall_mem_cons.mpr ⟨?_, hids hr⟩⟩
        -- the sandbox of the first build is still alive after the others were provisioned
        obtain ⟨id, hid, halive⟩ := hid rfl
        refine ⟨id, htail.instanceOf _ _ _ hid, htail.alive id ?_ halive⟩
        apply State.isSome_origin_of_instanceOf hid

/-- Builds are provisioned after those before them. -/
theorem provisionBuilds_append (repo : Repository) (k : ℕ) (buildIds buildIds' : List BuildId)
    (s : State) :
  E.provisionBuilds config repo k (buildIds ++ buildIds') s =
    match E.provisionBuilds config repo k buildIds s with
    | (s, .error f) => (s, .error f)
    | (s, .ok ()) => E.provisionBuilds config repo (k + buildIds.length) buildIds' s
  := by
  induction buildIds generalizing k s with
  | nil => rfl
  | cons buildId buildIds ih =>
      rw [List.cons_append, provisionBuilds, provisionBuilds]
      split
      · rfl
      · rw [ih, List.length_cons, Nat.add_right_comm, Nat.add_assoc]

/-- A step of the provisioning that fails is the last one. -/
theorem provisionSandboxes_of_fails {repo : Repository} {e : Event} {s₂ : State} {f : Failure}
    (h : Fails config E repo e s s₂ f) :
  E.provisionSandboxes config repo e s = (s₂, .error f)
  := by
  cases h with
  | matchedBuilds hs h =>
      obtain ⟨effect, h⟩ := Option.ne_none_iff_exists'.mp h
      rw [provisionSandboxes, if_pos hs, h]
  | @build k buildId s₁ _ _ hs h hk hbefore hbuild =>
      obtain ⟨hlt, hget⟩ := List.getElem?_eq_some_iff.mp hk
      have hsplit : s.matched repo e =
          (s.matched repo e).take k ++ buildId :: (s.matched repo e).drop (k + 1) := by
        rw [← hget, ← List.drop_eq_getElem_cons hlt, List.take_append_drop]
      have hlength : ((s.matched repo e).take k).length = k := by
        rw [List.length_take]
        omega
      rw [provisionSandboxes, if_pos hs, h]
      dsimp only
      rw [hsplit, provisionBuilds_append, hbefore]
      dsimp only
      rw [hlength, Nat.zero_add, provisionBuilds, hbuild]

theorem provisionSandboxes_spec {repo : Repository} {e : Event} {r : Except Failure Unit}
    (h : E.provisionSandboxes config repo e s = (s', r)) :
  Extends s s' ∧ (r = .ok () → config.sandboxes = true → ∀ buildId ∈ s.matched repo e,
    ∃ id, s'.instanceOf buildId repo.id = some id ∧ s'.Alive id)
  := by
  rw [provisionSandboxes] at h
  split at h
  · split at h
    · obtain ⟨rfl, rfl⟩ := Prod.mk.inj h
      exact ⟨.refl _, nofun⟩
    · obtain ⟨hextends, hids⟩ := provisionBuilds_spec h
      exact ⟨hextends, fun hr _ => hids hr⟩
  · rename_i hs
    obtain ⟨rfl, rfl⟩ := Prod.mk.inj h
    exact ⟨.refl _, fun _ hs' => absurd hs' hs⟩

/-! ### The publication -/

/-- An event that is recorded goes to the instances of the builds that match, and no instance loses
its sandbox. -/
theorem fanOut_spec {repo : Repository} {e : Event} {payload : String} {ids : List InstanceId}
    (h : E.fanOut config repo e payload s = (s', .ok (false, ids))) :
  Published s repo e ids s' ∧
    (∀ b R id, s.instanceOf b R = some id → s'.instanceOf b R = some id) ∧
    ∀ id, (s.db.origin id).isSome → s.Alive id → s'.Alive id
  := by
  rw [fanOut] at h
  split at h
  · cases h
  rcases Fault.attempt_cases h with ⟨-, hne⟩ | ⟨a, hnext, hok⟩
  · exact absurd rfl (hne _)
  obtain rfl := hok _ rfl
  obtain ⟨⟨db, duplicate, ids'⟩, hfan, hresult⟩ := Option.map_eq_some_iff.mp hnext
  obtain ⟨rfl, hids⟩ := Prod.mk.inj hresult
  obtain ⟨rfl, rfl⟩ := Prod.mk.inj hids
  obtain ⟨-, -, hduplicate, -⟩ | ⟨-, -, hbuilds⟩ := Db.ingestBuilds_of_ingest hfan
  · contradiction
  obtain ⟨hforall, hkeeps⟩ := Db.instanceOf_ingestBuilds hbuilds
  obtain ⟨rows, hrows, hids, -⟩ := (Db.ingested_builds hbuilds).outbox
  exact ⟨⟨⟨rows, hrows, hids.symm⟩, hforall⟩, hkeeps, fun _ => State.alive_insertInstances⟩

/-- A trigger that publishes provisions the builds before. -/
theorem trigger_cases {r : TriggerRequest} {result : TriggerResult}
    (h : E.trigger config r s = (s', .ok result)) (hduplicate : result.duplicate = false) :
  ∃ repo e payload s₁, E.prepare r s = .ok (repo, e, payload) ∧
    E.provisionSandboxes config repo e s = (s₁, .ok ()) ∧
    E.fanOut config repo e payload s₁ = (s', .ok (false, result.instanceIds))
  := by
  rw [trigger] at h
  split at h
  · cases h
  rename_i repo e payload hprepare
  split at h
  · cases h
  rename_i s₁ hprovision
  split at h
  · cases h
  rename_i s₂ duplicate instanceIds hfan
  obtain ⟨rfl, hresult⟩ := Prod.mk.inj h
  obtain rfl := Except.ok.inj hresult
  obtain rfl : duplicate = false := hduplicate
  exact ⟨repo, e, payload, s₁, hprepare, hprovision, hfan⟩

/-- Nothing is published where a step of the provisioning fails. -/
theorem withholds_trigger (config : Config) (E : Environment) (r : TriggerRequest) (s : State) :
  Withholds config E r s
  := by
  intro repo e payload hprepare s' f hfails
  have hprovision := provisionSandboxes_of_fails hfails
  constructor
  · rw [trigger, hprepare]
    dsimp only
    rw [hprovision]
  · exact (provisionSandboxes_spec hprovision).1.unpublished

/-- The builds match as before when the event is recorded. -/
theorem publishes_trigger (config : Config) (E : Environment) (r : TriggerRequest) (s : State) :
  Publishes config E r s
  := by
  intro s' result h hduplicate
  obtain ⟨repo, e, payload, s₁, hprepare, hprovision, hfan⟩ := trigger_cases h hduplicate
  have hextends := (provisionSandboxes_spec hprovision).1
  obtain ⟨⟨⟨rows, hrows, hids⟩, hinstances⟩, -⟩ := fanOut_spec hfan
  refine ⟨repo, e, payload, hprepare, ⟨rows, ?_, hids⟩, ?_⟩
  · rw [hrows, hextends.unpublished.outbox]
  · rw [← hextends.matched repo e]
    exact hinstances

/-- The instances that receive an event are those that were provisioned for it. -/
theorem living_trigger (hs : config.sandboxes = true) (E : Environment) (r : TriggerRequest)
    (s : State) :
  Living config E r s
  := by
  intro s' result h hduplicate id hid
  obtain ⟨repo, e, payload, s₁, -, hprovision, hfan⟩ := trigger_cases h hduplicate
  obtain ⟨hextends, hprovisioned⟩ := provisionSandboxes_spec hprovision
  obtain ⟨⟨-, hinstances⟩, hkeeps, halive⟩ := fanOut_spec hfan
  obtain ⟨buildId, hbuildId, hinstance⟩ := hinstances.exists_of_mem hid
  have hmatched : buildId ∈ s.matched repo e := by
    rw [← hextends.matched repo e]
    split at hbuildId
    · exact hbuildId
    · contradiction
  obtain ⟨id', hid', halive'⟩ := hprovisioned rfl hs buildId hmatched
  -- the instance that was provisioned is the one that receives the event
  obtain rfl := Option.some.inj ((hkeeps _ _ _ hid').symm.trans hinstance)
  exact halive id' (State.isSome_origin_of_instanceOf hid') halive'

end Environment

/-- **An event is published only after every sandbox is alive**: if a step of the provisioning
fails, for the build at any place, no event is recorded and no message is written; a trigger that
succeeds and is not a duplicate writes a message for the instance of each of the builds that match, and for
no other, or none if the event carries no code; and where there is a service of sandboxes, each of
these instances has a linked sandbox that is alive when the event is recorded. -/
theorem trigger_publishes (config : Config) (E : Environment) (r : TriggerRequest) (s : State) :
  Withholds config E r s ∧ Publishes config E r s ∧
    (config.sandboxes = true → Living config E r s)
  := ⟨E.withholds_trigger config r s, E.publishes_trigger config r s,
      fun hs => E.living_trigger hs r s⟩

/-- A repository with one build that is subscribed to all events. -/
def sampleState : State where
  db := { Db.empty with
    builds := Serial.empty.insert (fun id => ⟨id, 1⟩) fun id => (rfl : id = id)
    repositories := Serial.empty.insert
      (fun id => { id, userId := 1, provider := "github", defaultBranch := some "main" })
      fun id => (rfl : id = id)
    subscriptions := Serial.empty.insert (fun id => ⟨id, 1, 1, [], none⟩)
      fun id => (rfl : id = id) }
  linkOf := fun _ => none
  sandboxes := .empty

/-- The hub, with or without a service of sandboxes. -/
def sampleConfig (sandboxes : Bool) : Config where
  storable := fun _ _ => true
  decrypt := fun _ => none
  hmac := fun _ _ => []
  lower := id
  sandboxes
  service := ⟨[⟨1, "sandboxes", none, some "image"⟩], fun _ => 1, "", "", fun _ => none⟩
  connectionOf := fun _ => 1

/-- Nothing fails. -/
def sampleEnvironment : Environment where
  fault := fun _ => none
  createSandbox := fun _ _ => some "sandbox"
  traceId := "trace"

/-- A trigger at a commit. -/
def sampleRequest : TriggerRequest where
  userId := 1
  id := 1
  ref := ""
  commitSha := "c"
  mode := ""
  branchHead := none
  ensured := []
  nanos := 0

example : (sampleEnvironment.trigger (sampleConfig true) sampleRequest sampleState).2 =
    .ok { commitSha := "c", duplicate := false, instanceIds := [1] } := by
  decide

/-- Without a service of sandboxes the event is published all the same. -/
theorem not_living_off :
  ¬ ∀ (config : Config) (E : Environment) (r : TriggerRequest) (s : State),
    Withholds config E r s ∧ Publishes config E r s ∧ Living config E r s
  := by
  intro h
  have hliving := (h (sampleConfig false) sampleEnvironment sampleRequest sampleState).2.2
  obtain ⟨sandboxInstanceId, hlink, -⟩ := hliving _ ⟨"c", false, [1]⟩ rfl rfl 1
    (List.mem_singleton_self 1)
  contradiction

end Hub.Trigger
