import GitAgent.Library.Table
import GitAgent.Library.Transition
import GitAgent.Hub.Event

/-!
# The accounts of the hub

What the users of the hub have: identities at providers, connections to models, builds, repositories
with the subscriptions of builds, and the instances of builds on repositories. The requests of the
users (`internal/hub/adapters/httpapi`) are read as the statements that they issue
(`internal/hub/adapters/postgres`), in any order: a handler that has looked a row up for its user
may write by its id later. Connections to sandboxes and sandboxes belong to nobody.
-/

namespace Hub.Accounts

/-! ### The tables -/

/-- A row of `hub.identities`. -/
structure IdentityRow where
  id : ℕ
  userId : UserId
  provider : String
  providerUserId : String
  username : String
  deriving DecidableEq, Repr

/-- A row of `hub.llm_connections`. -/
structure LlmConnection where
  id : ℕ
  userId : UserId
  name : String
  apiBase : String
  apiKeyEnc : List UInt8
  model : String
  params : String
  deriving DecidableEq, Repr

/-- A row of `hub.sandbox_connections`. -/
structure SandboxConnection where
  id : ℕ
  name : String
  domain : String
  apiKeyEnc : Option (List UInt8)
  image : Option String
  deriving DecidableEq, Repr

/-- What a build is made of. -/
structure BuildInput where
  name : String
  llmConnectionId : ℕ
  sandboxConnectionId : ℕ
  prompt : Option String
  memoryPreset : Option String
  limits : String
  deriving DecidableEq, Repr

/-- A row of `hub.agent_builds`. -/
structure AgentBuild extends BuildInput where
  id : BuildId
  userId : UserId
  deriving DecidableEq, Repr

/-- What a repository is connected with. -/
structure RepositoryInput where
  identityId : Option ℕ
  mode : String
  provider : String
  externalId : String
  owner : String
  name : String
  defaultBranch : Option String
  deriving DecidableEq, Repr

/-- A row of `hub.repositories`. -/
structure RepositoryRow extends RepositoryInput where
  id : RepositoryId
  userId : UserId
  webhookProviderId : Option String := none
  deriving DecidableEq, Repr

/-- A row of `hub.build_subscriptions`. -/
structure BuildSubscription where
  id : ℕ
  buildId : BuildId
  repositoryId : RepositoryId
  actions : List String
  refMask : Option String
  deriving DecidableEq, Repr

/-- A row of `hub.sandbox_instances`. -/
structure SandboxInstance where
  id : ℕ
  externalId : String
  sandboxConnectionId : ℕ
  alive : Bool := true
  deriving DecidableEq, Repr

/-- A row of `hub.agent_instances`. -/
structure AgentInstance where
  id : InstanceId
  buildId : BuildId
  repositoryId : RepositoryId
  sandboxInstanceId : Option ℕ := none
  running : Bool := false
  runnerId : Option RunnerId := none
  deriving DecidableEq, Repr

/-- A row of `hub.events`. -/
structure EventRecord where
  id : EventId
  repositoryId : RepositoryId
  content : String
  deriving DecidableEq, Repr

/-- The tables of what instances put out. -/
inductive OutputTable
  | reports
  | findings
  | activity
  deriving DecidableEq, Repr

/-- A row of one of these tables. -/
structure OutputRow where
  id : ℕ
  table : OutputTable
  instanceId : InstanceId
  content : String
  deriving DecidableEq, Repr

/-- What a look-up has found for the user of a request: a repository, an instance or an identity of
the user, or a build that is subscribed to a repository of the user. -/
inductive Found
  | repository (id : RepositoryId)
  | instance (id : InstanceId)
  | identity (id : ℕ)
  | matched (repositoryId : RepositoryId) (buildId : BuildId)
  deriving DecidableEq, Repr

/-- The tables, and what the handlers of the requests have found so far. -/
structure State where
  identities : Serial IdentityRow IdentityRow.id := .empty
  llmConnections : Serial LlmConnection LlmConnection.id := .empty
  sandboxConnections : Serial SandboxConnection SandboxConnection.id := .empty
  builds : Serial AgentBuild AgentBuild.id := .empty
  repositories : Serial RepositoryRow RepositoryRow.id := .empty
  subscriptions : Serial BuildSubscription BuildSubscription.id := .empty
  sandboxes : Serial SandboxInstance SandboxInstance.id := .empty
  instances : Serial AgentInstance AgentInstance.id := .empty
  events : Serial EventRecord EventRecord.id := .empty
  outputs : Serial OutputRow OutputRow.id := .empty
  found : List (UserId × Found) := []

namespace State

variable (s : State)

/-- The user that a repository belongs to. -/
def owner (id : RepositoryId) : Option UserId :=
  (s.repositories.find id).map RepositoryRow.userId

/-- The user that an instance belongs to, as the owner of its repository. -/
def instanceOwner (id : InstanceId) : Option UserId :=
  (s.instances.find id).bind fun i => s.owner i.repositoryId

/-- The user that an identity belongs to. -/
def identityOwner (id : ℕ) : Option UserId :=
  (s.identities.find id).map IdentityRow.userId

/-! ### What is read -/

/-- The requests that read what a user has. -/
inductive Query
  | identities
  | builds
  | llmConnections
  | repositories
  | subscriptions (id : RepositoryId)
  | events (id : RepositoryId)
  | instances (id : Option RepositoryId)
  | instance (id : InstanceId)
  | outputs (table : OutputTable) (id : InstanceId)
  | repositoryOutputs (table : OutputTable) (id : RepositoryId)

/-- A repository, with the build that is subscribed to it first. -/
abbrev RepositoryView := RepositoryRow × Option BuildId

/-- An instance, with the external id of its sandbox and whether this is alive. -/
abbrev InstanceView := AgentInstance × Option (String × Bool)

/-- What is answered. -/
inductive Reading
  | identities (rows : List IdentityRow)
  | builds (rows : List AgentBuild)
  | llmConnections (rows : List LlmConnection)
  | repositories (rows : List RepositoryView)
  | subscriptions (rows : List BuildSubscription)
  | events (rows : List EventRecord)
  | instances (rows : List InstanceView)
  | outputs (rows : List OutputRow)
  | notFound
  deriving DecidableEq

/-- The query `Repositories`. -/
def repositoriesOf (u : UserId) : List RepositoryView :=
  (s.repositories.rows.filter fun r => r.userId = u).map fun r =>
    (r, (s.subscriptions.rows.find? fun b => b.repositoryId = r.id).map BuildSubscription.buildId)

/-- The sandbox of an instance, as it is joined to it. -/
def sandboxOf (i : AgentInstance) : Option (String × Bool) :=
  (i.sandboxInstanceId.bind s.sandboxes.find).map fun b => (b.externalId, b.alive)

/-- The query `Instances`. -/
def instancesOf (u : UserId) (id : Option RepositoryId) : List InstanceView :=
  (s.instances.rows.filter fun i =>
    s.owner i.repositoryId = some u && id.all fun id => i.repositoryId = id).map fun i =>
      (i, s.sandboxOf i)

/-- The answer to a user. -/
def read (u : UserId) : Query → Reading
  | .identities => .identities (s.identities.rows.filter fun r => r.userId = u)
  | .builds => .builds (s.builds.rows.filter fun r => r.userId = u)
  | .llmConnections => .llmConnections (s.llmConnections.rows.filter fun r => r.userId = u)
  | .repositories => .repositories (s.repositoriesOf u)
  | .subscriptions id =>
      if s.owner id = some u then
        .subscriptions (s.subscriptions.rows.filter fun r => r.repositoryId = id)
      else .notFound
  | .events id =>
      if s.owner id = some u then
        .events ((s.events.rows.filter fun r => r.repositoryId = id).reverse.take 100)
      else .notFound
  | .instances id => .instances (s.instancesOf u id)
  | .instance id =>
      match (s.instancesOf u none).find? fun i => i.1.id = id with
      | some i => .instances [i]
      | none => .notFound
  | .outputs table id =>
      if s.instanceOwner id = some u then
        .outputs (s.outputs.rows.filter fun r => r.table = table && r.instanceId = id).reverse
      else .notFound
  | .repositoryOutputs table id =>
      if s.owner id = some u then
        .outputs (s.outputs.rows.filter fun r =>
          r.table = table && (s.instances.find r.instanceId).any fun i => i.repositoryId = id).reverse
      else .notFound

end State

/-! ### What is written -/

/-- The statements that look something up for the user of a request and that write for this user,
those of the hub and of the runners about an instance or a repository, and the changes of an
identity when its user signs in. -/
inductive Action
  | addIdentity (v : UserId) (provider providerUserId username : String)
  | updateIdentity (id : ℕ) (username : String)
  | deleteIdentity (v : UserId) (id : ℕ)
  | find (v : UserId) (f : Found)
  | createRepository (v : UserId) (input : RepositoryInput)
  | setWebhook (v : UserId) (id : RepositoryId) (hookId : String)
  | deleteRepository (v : UserId) (id : RepositoryId)
  | upsertSubscription (v : UserId) (id : RepositoryId) (buildId : BuildId) (actions : List String)
      (refMask : Option String)
  | deleteSubscription (v : UserId) (id : ℕ)
  | createBuild (v : UserId) (input : BuildInput)
  | updateBuild (v : UserId) (id : BuildId) (input : BuildInput)
  | deleteBuild (v : UserId) (id : BuildId)
  | createLlmConnection (v : UserId) (name apiBase : String) (apiKeyEnc : List UInt8)
      (model params : String)
  | updateLlmConnection (v : UserId) (id : ℕ) (name apiBase : String)
      (apiKeyEnc : Option (List UInt8)) (model params : String)
  | deleteLlmConnection (v : UserId) (id : ℕ)
  | createSandboxConnection (v : UserId) (name domain : String) (apiKeyEnc : Option (List UInt8))
      (image : Option String)
  | deleteSandboxConnection (v : UserId) (id : ℕ)
  | createSandbox (v : UserId) (externalId : String) (connectionId : ℕ)
  | killSandbox (v : UserId) (id : ℕ)
  | linkSandbox (v : UserId) (id : InstanceId) (sandboxId : ℕ)
  | upsertInstance (v : UserId) (id : RepositoryId) (buildId : BuildId)
  | setRunning (v : UserId) (id : InstanceId) (runnerId : RunnerId)
  | setDown (v : UserId) (id : InstanceId)
  | ingest (id : RepositoryId) (content : String)
  | runner (id : InstanceId) (runnerId : Option RunnerId)
  | output (table : OutputTable) (id : InstanceId) (content : String)
  deriving DecidableEq

namespace State

variable (s : State)

/-- Whether a look-up finds something for a user. -/
def finds (v : UserId) : Found → Bool
  | .repository id => s.owner id = some v
  | .instance id => s.instanceOwner id = some v
  | .identity id => s.identityOwner id = some v
  | .matched id buildId =>
      (v, .repository id) ∈ s.found &&
        s.subscriptions.rows.any fun r => r.repositoryId = id && r.buildId = buildId

/-- Whether the connections of a build exist. -/
def connected (input : BuildInput) : Bool :=
  (s.llmConnections.find input.llmConnectionId).isSome &&
    (s.sandboxConnections.find input.sandboxConnectionId).isSome

/-- Whether a user has no other build with a name. -/
def nameFree (v : UserId) (id : Option BuildId) (name : String) : Bool :=
  s.builds.rows.all fun r => r.userId ≠ v || r.name ≠ name || some r.id = id

/-- The deletion of a repository, with what is deleted with it. -/
def dropRepository (id : RepositoryId) : State :=
  { s with
    repositories := s.repositories.delete fun r => r.id = id
    subscriptions := s.subscriptions.delete fun r => r.repositoryId = id
    events := s.events.delete fun r => r.repositoryId = id
    instances := s.instances.delete fun r => r.repositoryId = id
    outputs := s.outputs.delete fun r =>
      (s.instances.find r.instanceId).any fun i => i.repositoryId = id }

/-- A subscription is added, or takes the actions and the mask. -/
def subscribe (id : RepositoryId) (buildId : BuildId) (actions : List String)
    (refMask : Option String) : State :=
  { s with
    subscriptions :=
      if s.subscriptions.rows.any fun r => r.buildId = buildId && r.repositoryId = id then
        s.subscriptions.update (fun r => r.buildId = buildId && r.repositoryId = id)
          (fun r => { r with actions, refMask }) fun _ => rfl
      else s.subscriptions.insert (fun n => ⟨n, buildId, id, actions, refMask⟩) fun _ => rfl }

/-- The row of an instance is rewritten. -/
def setInstance (id : InstanceId) (f : AgentInstance → AgentInstance) (hf : ∀ i, (f i).id = i.id) :
    State :=
  { s with instances := s.instances.update (fun i => i.id = id) f hf }

/-- The state after a statement. One that fails, or that finds no row, has no effect. -/
def act : Action → Option State
  | .addIdentity v provider providerUserId username =>
      if s.identities.rows.all fun r => r.provider ≠ provider || r.providerUserId ≠ providerUserId then
        some { s with
          identities :=
            s.identities.insert (fun n => ⟨n, v, provider, providerUserId, username⟩) fun _ => rfl }
      else none
  | .updateIdentity id username =>
      if (s.identities.find id).isSome then
        some { s with
          identities := s.identities.update (fun r => r.id = id) (fun r => { r with username })
            fun _ => rfl }
      else none
  | .deleteIdentity v id =>
      if s.identityOwner id = some v ∧ s.repositories.rows.all fun r => r.identityId ≠ some id then
        some { s with identities := s.identities.delete fun r => r.id = id }
      else none
  | .find v f => if s.finds v f then some { s with found := (v, f) :: s.found } else none
  | .createRepository v input =>
      if (input.identityId.all fun id =>
            (v, .identity id) ∈ s.found && (s.identities.find id).isSome) ∧
          s.repositories.rows.all fun r =>
            r.userId ≠ v || r.provider ≠ input.provider || r.externalId ≠ input.externalId then
        some { s with
          repositories := s.repositories.insert (fun n => { input with id := n, userId := v })
            fun _ => rfl
          found := (v, .repository s.repositories.next) :: s.found }
      else none
  | .setWebhook v id hookId =>
      if (v, .repository id) ∈ s.found then
        some { s with
          repositories := s.repositories.update (fun r => r.id = id)
            (fun r => { r with webhookProviderId := some hookId }) fun _ => rfl }
      else none
  | .deleteRepository v id =>
      if (v, .repository id) ∈ s.found then some (s.dropRepository id) else none
  | .upsertSubscription v id buildId actions refMask =>
      if (v, .repository id) ∈ s.found ∧ (s.owner id).isSome ∧ (s.builds.find buildId).isSome then
        some (s.subscribe id buildId actions refMask)
      else none
  | .deleteSubscription v id =>
      if (s.subscriptions.find id).any fun r => s.owner r.repositoryId = some v then
        some { s with subscriptions := s.subscriptions.delete fun r => r.id = id }
      else none
  | .createBuild v input =>
      if s.connected input ∧ s.nameFree v none input.name then
        some { s with
          builds := s.builds.insert (fun n => { input with id := n, userId := v }) fun _ => rfl }
      else none
  | .updateBuild v id input =>
      if ((s.builds.find id).any fun r => r.userId = v) ∧ s.connected input ∧
          s.nameFree v (some id) input.name then
        some { s with
          builds := s.builds.update (fun r => r.id = id)
            (fun r => { input with id := r.id, userId := r.userId }) fun _ => rfl }
      else none
  | .deleteBuild v id =>
      if ((s.builds.find id).any fun r => r.userId = v) ∧
          s.instances.rows.all fun i => i.buildId ≠ id then
        some { s with
          builds := s.builds.delete fun r => r.id = id
          subscriptions := s.subscriptions.delete fun r => r.buildId = id }
      else none
  | .createLlmConnection v name apiBase apiKeyEnc model params =>
      some { s with
        llmConnections := s.llmConnections.insert
          (fun n => ⟨n, v, name, apiBase, apiKeyEnc, model, params⟩) fun _ => rfl }
  | .updateLlmConnection v id name apiBase apiKeyEnc model params =>
      if (s.llmConnections.find id).any fun r => r.userId = v then
        some { s with
          llmConnections := s.llmConnections.update (fun r => r.id = id)
            (fun r => { r with
              name, apiBase, model, params, apiKeyEnc := apiKeyEnc.getD r.apiKeyEnc }) fun _ => rfl }
      else none
  | .deleteLlmConnection v id =>
      if ((s.llmConnections.find id).any fun r => r.userId = v) ∧
          s.builds.rows.all fun r => r.llmConnectionId ≠ id then
        some { s with llmConnections := s.llmConnections.delete fun r => r.id = id }
      else none
  | .createSandboxConnection _ name domain apiKeyEnc image =>
      if s.sandboxConnections.rows.all fun r => r.name ≠ name then
        some { s with
          sandboxConnections :=
            s.sandboxConnections.insert (fun n => ⟨n, name, domain, apiKeyEnc, image⟩) fun _ => rfl }
      else none
  | .deleteSandboxConnection _ id =>
      if (s.sandboxConnections.find id).isSome ∧
          (s.builds.rows.all fun r => r.sandboxConnectionId ≠ id) ∧
          s.sandboxes.rows.all fun r => r.sandboxConnectionId ≠ id then
        some { s with sandboxConnections := s.sandboxConnections.delete fun r => r.id = id }
      else none
  | .createSandbox _ externalId connectionId =>
      if (s.sandboxConnections.find connectionId).isSome then
        some { s with
          sandboxes := s.sandboxes.insert
            (fun n => { id := n, externalId, sandboxConnectionId := connectionId }) fun _ => rfl }
      else none
  | .killSandbox _ id =>
      some { s with
        sandboxes := s.sandboxes.update (fun r => r.id = id) (fun r => { r with alive := false })
          fun _ => rfl }
  | .linkSandbox v id sandboxId =>
      if s.instanceOwner id = some v ∧ (s.sandboxes.find sandboxId).isSome then
        some (s.setInstance id (fun i => { i with sandboxInstanceId := some sandboxId }) fun _ => rfl)
      else none
  | .upsertInstance v id buildId =>
      if (v, .matched id buildId) ∈ s.found ∧ (s.owner id).isSome ∧ (s.builds.find buildId).isSome then
        if s.instances.rows.any fun i => i.buildId = buildId && i.repositoryId = id then some s
        else
          some { s with
            instances := s.instances.insert (fun n => { id := n, buildId, repositoryId := id })
              fun _ => rfl }
      else none
  | .setRunning v id runnerId =>
      if (v, .instance id) ∈ s.found then
        some (s.setInstance id (fun i => { i with running := true, runnerId := some runnerId })
          fun _ => rfl)
      else none
  | .setDown v id =>
      if (v, .instance id) ∈ s.found then
        some (s.setInstance id (fun i => { i with running := false, runnerId := none }) fun _ => rfl)
      else none
  | .ingest id content =>
      if (s.owner id).isSome then
        some { s with events := s.events.insert (fun n => ⟨n, id, content⟩) fun _ => rfl }
      else none
  | .runner id runnerId =>
      if (s.instances.find id).isSome then
        some (s.setInstance id (fun i => { i with running := runnerId.isSome, runnerId })
          fun _ => rfl)
      else none
  | .output table id content =>
      if (s.instances.find id).isSome then
        some { s with outputs := s.outputs.insert (fun n => ⟨n, table, id, content⟩) fun _ => rfl }
      else none

/-- The user that a statement is issued for: that of the request, or the owner of what it is
about. -/
def actor : Action → Option UserId
  | .addIdentity v .. | .deleteIdentity v .. | .find v .. | .createRepository v .. | .setWebhook v ..
  | .deleteRepository v .. | .upsertSubscription v .. | .deleteSubscription v .. | .createBuild v ..
  | .updateBuild v .. | .deleteBuild v .. | .createLlmConnection v .. | .updateLlmConnection v ..
  | .deleteLlmConnection v .. | .createSandboxConnection v .. | .deleteSandboxConnection v ..
  | .createSandbox v .. | .killSandbox v .. | .linkSandbox v .. | .upsertInstance v ..
  | .setRunning v .. | .setDown v .. => some v
  | .updateIdentity id _ => s.identityOwner id
  | .ingest id _ => s.owner id
  | .runner id _ | .output _ id _ => s.instanceOwner id

end State

/-- The accounts, from empty tables on. -/
def system : Transition.System State Action where
  init s := s = {}
  step := State.act

end Hub.Accounts
