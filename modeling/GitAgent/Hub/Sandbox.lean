import Mathlib.Logic.Function.Basic
import GitAgent.Library.Transition
import GitAgent.Library.Table
import GitAgent.Hub.Event

/-!
# Sandboxes

The service of the sandboxes (`app/sandbox.go`). `Create` makes a sandbox at the provider and writes
its row; `Ensure` does so for an instance whose row, read earlier, has no living sandbox, and links
the two; `Kill` destroys a sandbox. A call is suspended at a statement or at a request to the
provider, each of which may fail, and the calls make their steps in any order.
-/

namespace Hub.Sandbox

/-! ### Rows -/

/-- A row of `hub.sandbox_connections`. -/
structure Connection where
  id : ℕ
  domain : String
  apiKeyEnc : Option String
  image : Option String
  deriving DecidableEq, Repr

/-- The two values of `sandbox_instances.status`. -/
inductive Status
  | alive
  | dead
  deriving DecidableEq, Repr

/-- A row of `hub.sandbox_instances`. -/
structure Row where
  id : ℕ
  externalId : String
  sandboxConnectionId : ℕ
  status : Status := .alive
  deriving DecidableEq, Repr

/-- A row of `hub.agent_instances`, as far as its sandbox. -/
structure Instance where
  id : InstanceId
  buildId : BuildId
  repositoryId : RepositoryId
  sandboxInstanceId : Option ℕ := none
  deriving DecidableEq, Repr

/-- `AgentInstance`: what was read of an instance, as far as its sandbox. -/
structure AgentInstance where
  id : InstanceId
  buildId : BuildId
  sandboxInstanceId : Option ℕ
  sandboxStatus : Option Status
  deriving DecidableEq, Repr

/-- Whether the instance that was read has a living sandbox. -/
def AgentInstance.provisioned (inst : AgentInstance) : Bool :=
  inst.sandboxInstanceId.isSome && inst.sandboxStatus = some .alive

/-- The connections, the owners of the repositories, the defaults of the environment, and the box of
the secrets. -/
structure Config where
  connections : List Connection
  owner : RepositoryId → UserId
  sandboxDomain : String
  sandboxImage : String
  decrypt : String → Option String

/-! ### Coordinates -/

/-- What the provider is asked for. -/
structure Coordinates where
  connectionId : ℕ
  domain : String
  apiKey : String
  image : String
  deriving DecidableEq, Repr

/-- `ApplyDefaults`. -/
def Connection.applyDefaults (T : Config) (c : Connection) : Connection :=
  { c with
    domain := if c.domain = "" then T.sandboxDomain else c.domain
    image :=
      if (c.image = none ∨ c.image = some "") ∧ T.sandboxImage ≠ "" then some T.sandboxImage
      else c.image }

namespace Config

variable (T : Config)

/-- The query `SandboxConnection`. -/
def connection (id : ℕ) : Option Connection :=
  T.connections.find? fun c => c.id = id

/-- `apiKey`. -/
def apiKey (c : Connection) : Option String :=
  match c.apiKeyEnc with
  | none => some ""
  | some key => T.decrypt key

/-- What `Create` asks the provider for, if the connection is there, has an image and a key. -/
def coordinates (connectionId : ℕ) : Option Coordinates := do
  let conn ← T.connection connectionId
  let conn := conn.applyDefaults T
  let image ← conn.image.filter (· ≠ "")
  let apiKey ← T.apiKey conn
  return { connectionId := conn.id, domain := conn.domain, apiKey, image }

/-- The coordinates of a connection are its own. -/
theorem connectionId_of_coordinates {connectionId : ℕ} {k : Coordinates}
    (h : T.coordinates connectionId = some k) :
  k.connectionId = connectionId
  := by
  obtain ⟨conn, hconn, h⟩ := Option.bind_eq_some_iff.mp h
  obtain ⟨image, -, h⟩ := Option.bind_eq_some_iff.mp h
  obtain ⟨apiKey, -, h⟩ := Option.bind_eq_some_iff.mp h
  rw [connection] at hconn
  have hid := List.find?_some hconn
  rw [← Option.some.inj h]
  apply of_decide_eq_true hid

end Config

/-- `baseURL`. -/
def baseURL (domain : String) : String :=
  (if "http://".toList.isPrefixOf domain.toList ∨ "https://".toList.isPrefixOf domain.toList then
    domain
  else "http://" ++ domain) ++ "/v1"

/-! ### Calls -/

/-- The await points of the calls, with what they have read. -/
inductive Await
  | ensure (inst : AgentInstance)
  | build (id : BuildId)
  | connection (id : ℕ)
  | create (k : Coordinates)
  | insert (connectionId : ℕ) (externalId : String)
  | select (id : ℕ)
  | link (id : ℕ)
  | find (id : ℕ)
  | delete (id : ℕ) (domain apiKey externalId : String)
  | mark (id : ℕ)
  | ended (ok : Bool)
  deriving DecidableEq, Repr

/-- A call, with the instance and the user for whom `Ensure` was called. -/
structure Call where
  target : Option (InstanceId × UserId)
  await : Await
  deriving DecidableEq, Repr

/-- The number of a call. -/
abbrev CallId := ℕ

/-- A sandbox that the provider has made, with the call that asked for it and the instance it is
for. -/
structure Provided where
  created : Coordinates
  externalId : String
  call : CallId
  instanceId : Option InstanceId
  deriving DecidableEq, Repr

/-- The provider of a sandbox. -/
def Provided.host (s : Provided) : String :=
  baseURL s.created.domain

/-- The state of the tables, of the providers and of the calls. -/
structure World where
  builds : BuildId → Option ℕ
  instances : Serial Instance Instance.id
  sandboxes : Serial Row Row.id
  provided : List Provided
  destroyed : List (String × String)
  calls : CallId → Option Call

namespace World

variable (T : Config) (w : World)

/-! ### Statements -/

/-- The query `Instance`: the row of an instance in a repository of the user. -/
def instance? (id : InstanceId) (userId : UserId) : Option AgentInstance :=
  ((w.instances.find id).filter fun r => T.owner r.repositoryId = userId).map fun r =>
    { id := r.id
      buildId := r.buildId
      sandboxInstanceId := r.sandboxInstanceId
      sandboxStatus :=
        r.sandboxInstanceId.bind fun id => (w.sandboxes.find id).map Row.status }

/-- `UpsertInstance`. -/
def upsertInstance (buildId : BuildId) (repositoryId : RepositoryId) : World :=
  if w.instances.rows.any fun r => r.buildId = buildId ∧ r.repositoryId = repositoryId then w
  else
    { w with
      instances := w.instances.insert (fun id => { id, buildId, repositoryId }) fun _ => rfl }

/-- `LinkInstanceSandbox`. -/
def linkInstanceSandbox (id : InstanceId) (sandboxInstanceId : ℕ) (userId : UserId) : World :=
  { w with
    instances := w.instances.update
      (fun r => r.id = id ∧ T.owner r.repositoryId = userId)
      (fun r => { r with sandboxInstanceId := some sandboxInstanceId })
      fun _ => rfl }

/-- `CreateSandboxInstance`. -/
def createSandboxInstance (externalId : String) (sandboxConnectionId : ℕ) : World :=
  { w with
    sandboxes :=
      w.sandboxes.insert (fun id => { id, externalId, sandboxConnectionId }) fun _ => rfl }

/-- `MarkSandboxInstanceDead`. -/
def markSandboxInstanceDead (id : ℕ) : World :=
  { w with
    sandboxes := w.sandboxes.update (fun r => r.id = id)
      (fun r => { r with status := .dead }) fun _ => rfl }

/-- `DeleteSandbox`, at the provider. -/
def deleteSandbox (host externalId : String) : World :=
  { w with destroyed := (host, externalId) :: w.destroyed }

/-- What `Kill` asks the provider for. -/
def killAwait (row : Row) : Await :=
  if row.status = .dead then .ended true
  else
    match T.connection row.sandboxConnectionId with
    | some conn => .delete row.id conn.domain ((T.apiKey conn).getD "") row.externalId
    | none => .delete row.id "" "" row.externalId

/-- The statement or the request to the provider that a call awaits, with its effect and how the
call goes on. A request to no domain is not answered. -/
def stmt (target : Option (InstanceId × UserId)) : Await → Option (World × Await)
  | .ensure inst => some (w, if inst.provisioned then .ended true else .build inst.buildId)
  | .build id =>
      match w.builds id with
      | some connectionId => some (w, .connection connectionId)
      | none => some (w, .ended false)
  | .connection id =>
      match T.coordinates id with
      | some k => some (w, .create k)
      | none => some (w, .ended false)
  | .insert connectionId externalId =>
      some (w.createSandboxInstance externalId connectionId, .select w.sandboxes.next)
  | .select id =>
      match w.sandboxes.find id with
      | some row => some (w, if target.isSome then .link row.id else .ended true)
      | none => some (w, .ended false)
  | .link id =>
      match target with
      | some (i, userId) =>
          if (w.instance? T i userId).isSome then
            some (w.linkInstanceSandbox T i id userId, .ended true)
          else some (w, .ended false)
      | none => none
  | .find id =>
      match w.sandboxes.find id with
      | some row => some (w, killAwait T row)
      | none => some (w, .ended false)
  | .delete id domain _ externalId =>
      if domain = "" then none else some (w.deleteSandbox (baseURL domain) externalId, .mark id)
  | .mark id => some (w.markSandboxInstanceDead id, .ended true)
  | .create _ => none
  | .ended _ => none

/-! ### Steps -/

/-- The call goes on, or starts, at an await point. -/
def await (c : CallId) (target : Option (InstanceId × UserId)) (p : Await) : World :=
  { w with calls := Function.update w.calls c (some ⟨target, p⟩) }

/-- The provider has not given the id before, nor destroyed a sandbox with it. -/
def Fresh (k : Coordinates) (externalId : String) : Prop :=
  externalId ≠ "" ∧ (baseURL k.domain, externalId) ∉ w.destroyed ∧
    ∀ s ∈ w.provided, s.host = baseURL k.domain → s.externalId ≠ externalId

instance (k : Coordinates) (externalId : String) : Decidable (w.Fresh k externalId) :=
  inferInstanceAs (Decidable (_ ∧ _ ∧ _))

/-- The provider makes a sandbox for a call. -/
def provide (k : Coordinates) (externalId : String) (c : CallId)
    (target : Option (InstanceId × UserId)) : World :=
  { w with provided := w.provided ++ [⟨k, externalId, c, target.map Prod.fst⟩] }

end World

/-- The steps: a row of an instance is inserted, or read for `Ensure`; a user creates or kills a
sandbox, links one to an instance, or gives a build another connection; what a call awaits is
done, the provider has made a sandbox, or made it without an answer that is understood, the call
fails, before or after what it awaits is done, or `ensureRunning` finds the runner and needs no
sandbox; a sandbox ends at the provider; and a runner takes one for dead. -/
inductive Action
  | upsert (buildId : BuildId) (repositoryId : RepositoryId)
  | ensure (c : CallId) (id : InstanceId) (userId : UserId)
  | create (c : CallId) (connectionId : ℕ)
  | kill (c : CallId) (id : ℕ)
  | link (id : InstanceId) (sandboxInstanceId : ℕ) (userId : UserId)
  | updateBuild (id : BuildId) (connectionId : ℕ)
  | stmt (c : CallId)
  | created (c : CallId) (externalId : String)
  | lost (c : CallId) (externalId : String)
  | failed (c : CallId) (effect : Bool)
  | running (c : CallId)
  | gone (host externalId : String)
  | markDead (id : ℕ)
  deriving DecidableEq, Repr

namespace World

/-- The state after an action, if it is enabled. -/
def act (T : Config) (w : World) : Action → Option World
  | .upsert buildId repositoryId => some (w.upsertInstance buildId repositoryId)
  | .ensure c id userId =>
      if w.calls c = none then
        (w.instance? T id userId).map fun inst => w.await c (some (id, userId)) (.ensure inst)
      else none
  | .create c connectionId =>
      if w.calls c = none then some (w.await c none (.connection connectionId)) else none
  | .kill c id => if w.calls c = none then some (w.await c none (.find id)) else none
  | .link id sandboxInstanceId userId =>
      if (w.sandboxes.find sandboxInstanceId).isSome then
        some (w.linkInstanceSandbox T id sandboxInstanceId userId)
      else none
  | .updateBuild id connectionId =>
      some { w with
        builds := Function.update w.builds id ((w.builds id).map fun _ => connectionId) }
  | .stmt c =>
      match w.calls c with
      | some call =>
          (w.stmt T call.target call.await).map fun (w', p) => w'.await c call.target p
      | none => none
  | .created c externalId =>
      match w.calls c with
      | some ⟨target, .create k⟩ =>
          if w.Fresh k externalId then
            some ((w.provide k externalId c target).await c target
              (.insert k.connectionId externalId))
          else none
      | _ => none
  | .lost c externalId =>
      match w.calls c with
      | some ⟨target, .create k⟩ =>
          if w.Fresh k externalId then
            some ((w.provide k externalId c target).await c target (.ended false))
          else none
      | _ => none
  | .failed c effect =>
      match w.calls c with
      | some ⟨_, .ended _⟩ => none
      | some call =>
          if effect then
            (w.stmt T call.target call.await).map fun (w', _) => w'.await c call.target (.ended false)
          else some (w.await c call.target (.ended false))
      | none => none
  | .running c =>
      match w.calls c with
      | some ⟨target, .ensure _⟩ => some (w.await c target (.ended true))
      | _ => none
  | .gone host externalId => some (w.deleteSandbox host externalId)
  | .markDead id => some (w.markSandboxInstanceDead id)

/-- No call has been made, and there is no sandbox yet. -/
structure Initial (w : World) : Prop where
  sandboxes : w.sandboxes = Serial.empty
  provided : w.provided = []
  calls : w.calls = fun _ => none
  instances : ∀ r ∈ w.instances.rows, r.sandboxInstanceId = none

end World

/-- The service of the sandboxes, the tables and the providers. -/
def system (T : Config) : Transition.System World Action where
  init := World.Initial
  step := World.act T

/-! ### What the statements do -/

namespace World

section

variable (w : World)

/-- The sandbox that is linked to an instance. -/
def linkOf (id : InstanceId) : Option ℕ :=
  (w.instances.find id).bind Instance.sandboxInstanceId

/-- Nothing is forgotten: the rows of sandboxes stay, but for their status, what is destroyed stays
destroyed, and instances stay in their repository. -/
structure Grows (w' : World) : Prop where
  rows : ∀ r ∈ w.sandboxes.rows, ∃ r' ∈ w'.sandboxes.rows, r'.id = r.id ∧
    r'.externalId = r.externalId ∧ r'.sandboxConnectionId = r.sandboxConnectionId
  destroyed : w.destroyed ⊆ w'.destroyed
  instances : ∀ id r, w.instances.find id = some r →
    ∃ r', w'.instances.find id = some r' ∧ r'.repositoryId = r.repositoryId
  provided : w'.provided = w.provided

end

variable {T : Config} {w w' : World}

theorem Grows.refl (w : World) :
  w.Grows w
  := ⟨fun r hr => ⟨r, hr, rfl, rfl, rfl⟩, List.Subset.refl _, fun _ r h => ⟨r, h, rfl⟩, rfl⟩

/-- Suspending a call changes nothing else. -/
theorem Grows.await (h : w.Grows w') (c : CallId) (target : Option (InstanceId × UserId))
    (p : Await) :
  w.Grows (w'.await c target p)
  := ⟨h.rows, h.destroyed, h.instances, h.provided⟩

/-- What a call does next at an await point where it has no sandbox. -/
inductive Early : Await → Prop
  | ensure {inst : AgentInstance} : Early (.ensure inst)
  | build {id : BuildId} : Early (.build id)
  | connection {id : ℕ} : Early (.connection id)
  | create {k : Coordinates} : Early (.create k)
  | find {id : ℕ} : Early (.find id)
  | delete {id : ℕ} {domain apiKey externalId : String} : Early (.delete id domain apiKey externalId)
  | mark {id : ℕ} : Early (.mark id)

/-- What the statement that a call awaits does: nothing about a sandbox, or it records the sandbox,
reads the row, or links it. -/
inductive Does (T : Config) (w : World) (target : Option (InstanceId × UserId)) :
    Await → World → Await → Prop
  | early {p q : Await} {w' : World} (hp : Early p) (hq : Early q ∨ ∃ ok, q = .ended ok)
      (hk : ∀ k, q = .create k → T.coordinates k.connectionId = some k) (hg : w.Grows w')
      (hi : w'.instances = w.instances) (hc : w'.calls = w.calls) : Does T w target p w' q
  | insert (connectionId : ℕ) (externalId : String) :
      Does T w target (.insert connectionId externalId)
        (w.createSandboxInstance externalId connectionId) (.select w.sandboxes.next)
  | select {id : ℕ} {row : Row} (h : w.sandboxes.find id = some row) :
      Does T w target (.select id) w (if target.isSome then .link row.id else .ended true)
  | missing {id : ℕ} (h : w.sandboxes.find id = none) :
      Does T w target (.select id) w (.ended false)
  | link {id : ℕ} {i : InstanceId} {userId : UserId} (ht : target = some (i, userId))
      (h : (w.instance? T i userId).isSome) :
      Does T w target (.link id) (w.linkInstanceSandbox T i id userId) (.ended true)
  | unlinked {id : ℕ} {i : InstanceId} {userId : UserId} (ht : target = some (i, userId))
      (h : w.instance? T i userId = none) :
      Does T w target (.link id) w (.ended false)

theorem grows_deleteSandbox (w : World) (host externalId : String) :
  w.Grows (w.deleteSandbox host externalId)
  := ⟨(Grows.refl w).rows, List.subset_cons_self _ _, (Grows.refl w).instances, rfl⟩

theorem grows_markSandboxInstanceDead (w : World) (id : ℕ) :
  w.Grows (w.markSandboxInstanceDead id)
  := by
  refine ⟨?_, List.Subset.refl _, (Grows.refl w).instances, rfl⟩
  intro r hr
  refine ⟨_, List.mem_map_of_mem hr, ?_⟩
  split <;> exact ⟨rfl, rfl, rfl⟩

theorem grows_createSandboxInstance (w : World) (externalId : String) (connectionId : ℕ) :
  w.Grows (w.createSandboxInstance externalId connectionId)
  := by
  refine ⟨?_, List.Subset.refl _, (Grows.refl w).instances, rfl⟩
  intro r hr
  exact ⟨r, List.mem_append_left _ hr, rfl, rfl, rfl⟩

theorem find_linkInstanceSandbox (w : World) (id : InstanceId) (sandboxInstanceId : ℕ)
    (userId : UserId) (i : InstanceId) :
  (w.linkInstanceSandbox T id sandboxInstanceId userId).instances.find i =
    (w.instances.find i).map fun r =>
      if r.id = id ∧ T.owner r.repositoryId = userId then
        { r with sandboxInstanceId := some sandboxInstanceId }
      else r
  := by
  rw [linkInstanceSandbox]
  dsimp only
  rw [Serial.find_update]
  simp only [decide_eq_true_eq]

theorem grows_linkInstanceSandbox (w : World) (id : InstanceId) (sandboxInstanceId : ℕ)
    (userId : UserId) :
  w.Grows (w.linkInstanceSandbox T id sandboxInstanceId userId)
  := by
  refine ⟨(Grows.refl w).rows, List.Subset.refl _, ?_, rfl⟩
  intro i r hr
  rw [find_linkInstanceSandbox, hr]
  refine ⟨_, rfl, ?_⟩
  dsimp only
  split <;> rfl

/-- An instance is found as before when one is inserted. -/
theorem find_upsertInstance (w : World) (buildId : BuildId) (repositoryId : RepositoryId)
    {id : InstanceId} {r : Instance} (hr : w.instances.find id = some r) :
  (w.upsertInstance buildId repositoryId).instances.find id = some r
  := by
  rw [upsertInstance]
  split
  · apply hr
  · rw [Serial.find_insert, if_neg, hr]
    rintro rfl
    rw [Serial.find_next] at hr
    contradiction

theorem grows_upsertInstance (w : World) (buildId : BuildId) (repositoryId : RepositoryId) :
  w.Grows (w.upsertInstance buildId repositoryId)
  := by
  have hsame : (w.upsertInstance buildId repositoryId).sandboxes = w.sandboxes ∧
      (w.upsertInstance buildId repositoryId).destroyed = w.destroyed ∧
      (w.upsertInstance buildId repositoryId).provided = w.provided := by
    rw [upsertInstance]
    split <;> exact ⟨rfl, rfl, rfl⟩
  obtain ⟨hs, hd, hp⟩ := hsame
  constructor
  · rw [hs]
    apply (Grows.refl w).rows
  · rw [hd]
    apply List.Subset.refl _
  · intro id r hr
    exact ⟨r, w.find_upsertInstance _ _ hr, rfl⟩
  · apply hp

/-- What a statement does. -/
theorem does_of_stmt {target : Option (InstanceId × UserId)} {p q : Await}
    (h : w.stmt T target p = some (w', q)) :
  Does T w target p w' q
  := by
  cases p with
  | ensure inst =>
      obtain ⟨rfl, rfl⟩ := Prod.mk.inj (Option.some.inj h)
      apply Does.early .ensure _ _ (Grows.refl w) rfl rfl
      · split
        · exact .inr ⟨_, rfl⟩
        · exact .inl .build
      · intro k hk
        split at hk <;> contradiction
  | build id =>
      rw [stmt] at h
      split at h
      · obtain ⟨rfl, rfl⟩ := Prod.mk.inj (Option.some.inj h)
        exact .early .build (.inl .connection) (by simp) (Grows.refl w) rfl rfl
      · obtain ⟨rfl, rfl⟩ := Prod.mk.inj (Option.some.inj h)
        exact .early .build (.inr ⟨_, rfl⟩) (by simp) (Grows.refl w) rfl rfl
  | connection id =>
      rw [stmt] at h
      split at h
      · rename_i k hk
        obtain ⟨rfl, rfl⟩ := Prod.mk.inj (Option.some.inj h)
        apply Does.early .connection (.inl .create) _ (Grows.refl w) rfl rfl
        rintro _ ⟨⟩
        rwa [T.connectionId_of_coordinates hk]
      · obtain ⟨rfl, rfl⟩ := Prod.mk.inj (Option.some.inj h)
        exact .early .connection (.inr ⟨_, rfl⟩) (by simp) (Grows.refl w) rfl rfl
  | create k => contradiction
  | insert connectionId externalId =>
      obtain ⟨rfl, rfl⟩ := Prod.mk.inj (Option.some.inj h)
      exact .insert connectionId externalId
  | select id =>
      rw [stmt] at h
      split at h
      · rename_i row hrow
        obtain ⟨rfl, rfl⟩ := Prod.mk.inj (Option.some.inj h)
        exact .select hrow
      · rename_i hrow
        obtain ⟨rfl, rfl⟩ := Prod.mk.inj (Option.some.inj h)
        exact .missing hrow
  | link id =>
      cases target with
      | none => contradiction
      | some target =>
          rw [stmt] at h
          split at h
          · rename_i hi
            obtain ⟨rfl, rfl⟩ := Prod.mk.inj (Option.some.inj h)
            exact .link rfl hi
          · rename_i hi
            obtain ⟨rfl, rfl⟩ := Prod.mk.inj (Option.some.inj h)
            exact .unlinked rfl (by simpa using hi)
  | find id =>
      rw [stmt] at h
      split at h
      · rename_i row hrow
        obtain ⟨rfl, rfl⟩ := Prod.mk.inj (Option.some.inj h)
        have hq : Early (killAwait T row) ∨ ∃ ok, killAwait T row = .ended ok := by
          rw [killAwait]
          split
          · exact .inr ⟨_, rfl⟩
          · split <;> exact .inl .delete
        apply Does.early .find hq _ (Grows.refl w) rfl rfl
        intro k hk
        rw [killAwait] at hk
        split at hk
        · contradiction
        · split at hk <;> contradiction
      · obtain ⟨rfl, rfl⟩ := Prod.mk.inj (Option.some.inj h)
        exact .early .find (.inr ⟨_, rfl⟩) (by simp) (Grows.refl w) rfl rfl
  | delete id domain apiKey externalId =>
      rw [stmt] at h
      split at h
      · contradiction
      · obtain ⟨rfl, rfl⟩ := Prod.mk.inj (Option.some.inj h)
        exact .early .delete (.inl .mark) (by simp) (grows_deleteSandbox w _ _) rfl rfl
  | mark id =>
      obtain ⟨rfl, rfl⟩ := Prod.mk.inj (Option.some.inj h)
      exact .early .mark (.inr ⟨_, rfl⟩) (by simp) (grows_markSandboxInstanceDead w id) rfl rfl
  | ended ok => contradiction

/-- What a step does, and when it is enabled. -/
inductive Acts (T : Config) (w : World) : Action → World → Prop
  | upsert (buildId : BuildId) (repositoryId : RepositoryId) :
      Acts T w (.upsert buildId repositoryId) (w.upsertInstance buildId repositoryId)
  | ensure {c : CallId} {r : Instance} {id : InstanceId} {userId : UserId} {inst : AgentInstance}
      (hc : w.calls c = none) (hr : w.instances.find id = some r)
      (ho : T.owner r.repositoryId = userId) (hb : inst.buildId = r.buildId) :
      Acts T w (.ensure c id userId) (w.await c (some (id, userId)) (.ensure inst))
  | create {c : CallId} (connectionId : ℕ) (hc : w.calls c = none) :
      Acts T w (.create c connectionId) (w.await c none (.connection connectionId))
  | kill {c : CallId} (id : ℕ) (hc : w.calls c = none) :
      Acts T w (.kill c id) (w.await c none (.find id))
  | link {row : Row} (id : InstanceId) (sandboxInstanceId : ℕ) (userId : UserId)
      (hrow : w.sandboxes.find sandboxInstanceId = some row) :
      Acts T w (.link id sandboxInstanceId userId)
        (w.linkInstanceSandbox T id sandboxInstanceId userId)
  | updateBuild (id : BuildId) (connectionId : ℕ) :
      Acts T w (.updateBuild id connectionId)
        { w with builds := Function.update w.builds id ((w.builds id).map fun _ => connectionId) }
  | stmt {c : CallId} {call : Call} {w' : World} {p : Await} (hcall : w.calls c = some call)
      (hs : w.stmt T call.target call.await = some (w', p)) :
      Acts T w (.stmt c) (w'.await c call.target p)
  | created {c : CallId} {externalId : String} {target : Option (InstanceId × UserId)}
      {k : Coordinates} (hcall : w.calls c = some ⟨target, .create k⟩)
      (hfresh : w.Fresh k externalId) :
      Acts T w (.created c externalId) ((w.provide k externalId c target).await c target
        (.insert k.connectionId externalId))
  | lost {c : CallId} {externalId : String} {target : Option (InstanceId × UserId)}
      {k : Coordinates} (hcall : w.calls c = some ⟨target, .create k⟩)
      (hfresh : w.Fresh k externalId) :
      Acts T w (.lost c externalId)
        ((w.provide k externalId c target).await c target (.ended false))
  | failed {c : CallId} {call : Call} (hcall : w.calls c = some call)
      (he : ∀ ok, call.await ≠ .ended ok) :
      Acts T w (.failed c false) (w.await c call.target (.ended false))
  | failedAfter {c : CallId} {call : Call} {w' : World} {p : Await}
      (hcall : w.calls c = some call) (hs : w.stmt T call.target call.await = some (w', p)) :
      Acts T w (.failed c true) (w'.await c call.target (.ended false))
  | running {c : CallId} {target : Option (InstanceId × UserId)} {inst : AgentInstance}
      (hcall : w.calls c = some ⟨target, .ensure inst⟩) :
      Acts T w (.running c) (w.await c target (.ended true))
  | gone (host externalId : String) :
      Acts T w (.gone host externalId) (w.deleteSandbox host externalId)
  | markDead (id : ℕ) : Acts T w (.markDead id) (w.markSandboxInstanceDead id)

theorem acts_of_act {a : Action} (h : w.act T a = some w') :
  Acts T w a w'
  := by
  cases a with
  | upsert buildId repositoryId =>
      obtain rfl := Option.some.inj h
      apply Acts.upsert
  | ensure c id userId =>
      rw [act] at h
      split at h
      · rename_i hc
        obtain ⟨inst, hinst, rfl⟩ := Option.map_eq_some_iff.mp h
        obtain ⟨r, hr, rfl⟩ := Option.map_eq_some_iff.mp hinst
        obtain ⟨hr, ho⟩ := Option.filter_eq_some_iff.mp hr
        apply Acts.ensure hc hr (of_decide_eq_true ho) rfl
      · contradiction
  | create c connectionId =>
      rw [act] at h
      split at h
      · rename_i hc
        obtain rfl := Option.some.inj h
        apply Acts.create connectionId hc
      · contradiction
  | kill c id =>
      rw [act] at h
      split at h
      · rename_i hc
        obtain rfl := Option.some.inj h
        apply Acts.kill id hc
      · contradiction
  | link id sandboxInstanceId userId =>
      rw [act] at h
      split at h
      · rename_i hrow
        obtain rfl := Option.some.inj h
        obtain ⟨row, hrow⟩ := Option.isSome_iff_exists.mp hrow
        apply Acts.link id sandboxInstanceId userId hrow
      · contradiction
  | updateBuild id connectionId =>
      obtain rfl := Option.some.inj h
      apply Acts.updateBuild
  | stmt c =>
      rw [act] at h
      split at h
      · rename_i call hcall
        obtain ⟨⟨w₁, p⟩, hs, rfl⟩ := Option.map_eq_some_iff.mp h
        apply Acts.stmt hcall hs
      · contradiction
  | created c externalId =>
      rw [act] at h
      split at h
      · rename_i target k hcall
        split at h
        · rename_i hfresh
          obtain rfl := Option.some.inj h
          apply Acts.created hcall hfresh
        · contradiction
      · contradiction
  | lost c externalId =>
      rw [act] at h
      split at h
      · rename_i target k hcall
        split at h
        · rename_i hfresh
          obtain rfl := Option.some.inj h
          apply Acts.lost hcall hfresh
        · contradiction
      · contradiction
  | failed c effect =>
      rw [act] at h
      split at h
      · contradiction
      · rename_i call hne hcall
        cases effect with
        | true =>
            obtain ⟨⟨w₁, p⟩, hs, rfl⟩ := Option.map_eq_some_iff.mp h
            apply Acts.failedAfter hcall hs
        | false =>
            obtain rfl := Option.some.inj h
            apply Acts.failed hcall
            intro ok he
            obtain ⟨target, p⟩ := call
            obtain rfl : p = .ended ok := he
            apply hne target ok rfl
      · contradiction
  | running c =>
      rw [act] at h
      split at h
      · rename_i target inst hcall
        obtain rfl := Option.some.inj h
        apply Acts.running hcall
      · contradiction
  | gone host externalId =>
      obtain rfl := Option.some.inj h
      apply Acts.gone
  | markDead id =>
      obtain rfl := Option.some.inj h
      apply Acts.markDead

/-- A sandbox is linked to an instance after the statement has linked its row, if the instance is
there. -/
theorem linkOf_linkInstanceSandbox (w : World) {id : InstanceId} {sandboxInstanceId : ℕ}
    {userId : UserId} {r : Instance} (hr : w.instances.find id = some r)
    (ho : T.owner r.repositoryId = userId) :
  (w.linkInstanceSandbox T id sandboxInstanceId userId).linkOf id = some sandboxInstanceId
  := by
  rw [linkOf, find_linkInstanceSandbox, hr, Option.map_some, if_pos ⟨Table.key_of_find hr, ho⟩]
  rfl

/-- Other instances keep their link. -/
theorem linkOf_linkInstanceSandbox_of_ne (w : World) {id i : InstanceId} {sandboxInstanceId : ℕ}
    {userId : UserId} (hne : i ≠ id) :
  (w.linkInstanceSandbox T id sandboxInstanceId userId).linkOf i = w.linkOf i
  := by
  rw [linkOf, linkOf, find_linkInstanceSandbox]
  cases hr : w.instances.find i with
  | none => rfl
  | some r =>
      have hid : r.id ≠ id := by
        rw [show r.id = i from Table.key_of_find hr]
        apply hne
      rw [Option.map_some, if_neg fun h => hid h.1]

/-- Another user links nothing. -/
theorem linkOf_linkInstanceSandbox_or (w : World) (id : InstanceId) (sandboxInstanceId : ℕ)
    (userId : UserId) (i : InstanceId) :
  (w.linkInstanceSandbox T id sandboxInstanceId userId).linkOf i = w.linkOf i ∨
    i = id ∧ (w.linkInstanceSandbox T id sandboxInstanceId userId).linkOf i = some sandboxInstanceId
  := by
  by_cases hne : i = id
  · subst hne
    cases hr : w.instances.find i with
    | none =>
        left
        rw [linkOf, linkOf, find_linkInstanceSandbox, hr]
        rfl
    | some r =>
        by_cases ho : T.owner r.repositoryId = userId
        · exact .inr ⟨rfl, w.linkOf_linkInstanceSandbox hr ho⟩
        · left
          rw [linkOf, linkOf, find_linkInstanceSandbox, hr, Option.map_some, if_neg fun h => ho h.2]
  · exact .inl (w.linkOf_linkInstanceSandbox_of_ne hne)

end World

end Hub.Sandbox
