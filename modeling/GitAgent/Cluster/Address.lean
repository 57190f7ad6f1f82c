import GitAgent.Hub.Provision

/-!
# The address of a sandbox

The hub kills a sandbox at the connection on which its row says it was created. The runner connects
to the sandbox of an instance (`connect_hub_sandbox`) at the connection of the instance's build
(`_CONTEXT_SQL`), and takes a sandbox to which it cannot connect for dead. The two connections have
the same address in every run in which no build moves to another address under a living sandbox or
under a call that provides one, and in which no sandbox of another address is linked by hand.
-/

namespace Cluster.Address

open Hub (InstanceId BuildId UserId)
open Hub.Sandbox (Config Connection World Row Status Instance AgentInstance Await Call CallId)

/-! ### The runner -/

/-- A row of the query `_CONTEXT_SQL`, as far as the sandbox. -/
structure Context where
  id : InstanceId
  sandboxInstanceId : Option ℕ
  sandboxDomain : String
  sandboxApiKeyEnc : Option String
  sandboxExternalId : Option String
  sandboxStatus : Option Status
  deriving DecidableEq, Repr

/-- `load_context`: the connection is that of the build, and the sandbox that of the instance. -/
def loadContext (T : Config) (w : World) (id : InstanceId) : Option Context := do
  let i ← w.instances.find id
  let sandboxConnectionId ← w.builds i.buildId
  let sc ← T.connection sandboxConnectionId
  let si := i.sandboxInstanceId.bind w.sandboxes.find
  return {
    id := i.id
    sandboxInstanceId := i.sandboxInstanceId
    sandboxDomain := sc.domain
    sandboxApiKeyEnc := sc.apiKeyEnc
    sandboxExternalId := si.map Row.externalId
    sandboxStatus := si.map Row.status }

/-- What `connect_sandbox` is called with. -/
structure Dial where
  externalId : String
  domain : String
  apiKey : Option String
  deriving DecidableEq, Repr

/-- The await points of `connect_hub_sandbox`. -/
inductive Connecting
  | connect (d : Dial)
  | mark (sandboxInstanceId : ℕ)
  | ended (ok : Bool)
  deriving DecidableEq, Repr

/-- `decrypt`, which raises where a key is not decrypted. -/
def decrypt (T : Config) : Option String → Option (Option String)
  | none => some none
  | some key => (T.decrypt key).map some

namespace Context

variable (ctx : Context)

/-- Whether the instance has a living sandbox. -/
def provisioned : Bool :=
  ctx.sandboxExternalId.any (· ≠ "") && ctx.sandboxStatus = some .alive

/-- The sandbox, and the domain and the key with which the runner connects to it. -/
def dial (T : Config) : Option Dial := do
  let externalId ← ctx.sandboxExternalId
  let apiKey ← decrypt T ctx.sandboxApiKeyEnc
  return { externalId, domain := ctx.sandboxDomain, apiKey }

/-- How `connect_hub_sandbox` goes on when the connection fails. -/
def failed : Connecting :=
  match ctx.sandboxInstanceId with
  | some id => if id = 0 then .ended false else .mark id
  | none => .ended false

/-- How `connect_hub_sandbox` begins. -/
def connectHubSandbox (T : Config) : Connecting :=
  if ctx.provisioned then
    match ctx.dial T with
    | some d => .connect d
    | none => ctx.failed
  else .ended false

end Context

/-! ### Steps -/

/-- The hub with its tables, and the calls of `connect_hub_sandbox`, each with the context that it
was given. -/
structure State where
  world : World
  connects : ℕ → Option (Context × Connecting)

/-- The steps: one of the hub, other than that a runner takes a sandbox for dead; a runner reads the
context of an instance and begins to connect; the sandbox answers, or connecting fails; and the
statement that marks the sandbox dead is done, or fails. -/
inductive Action
  | hub (a : Hub.Sandbox.Action)
  | begin (t : ℕ) (id : InstanceId)
  | answer (t : ℕ) (ok : Bool)
  | mark (t : ℕ) (ok : Bool)
  deriving DecidableEq, Repr

namespace State

variable (T : Config) (s : State)

/-- The call goes on, or starts, at an await point. -/
def await (t : ℕ) (ctx : Context) (p : Connecting) : State :=
  { s with connects := Function.update s.connects t (some (ctx, p)) }

/-- The state after an action, if it is enabled. -/
def act : Action → Option State
  | .hub (.markDead _) => none
  | .hub a => (s.world.act T a).map fun w => { s with world := w }
  | .begin t id =>
      if s.connects t = none then
        (loadContext T s.world id).map fun ctx => s.await t ctx (ctx.connectHubSandbox T)
      else none
  | .answer t ok =>
      match s.connects t with
      | some (ctx, .connect _) => some (s.await t ctx (if ok then .ended true else ctx.failed))
      | _ => none
  | .mark t ok =>
      match s.connects t with
      | some (ctx, .mark id) =>
          let w := if ok then s.world.markSandboxInstanceDead id else s.world
          some (State.await { s with world := w } t ctx (.ended false))
      | _ => none

end State

/-- The hub, the providers and the runners that connect to sandboxes. -/
def system (T : Config) : Transition.System State Action where
  init s := s.world.Initial ∧ s.connects = fun _ => none
  step := State.act T

/-! ### What is shown -/

/-- The domain and the key of a connection, if there is one and its key is decrypted. -/
def pair (T : Config) (connectionId : ℕ) : Option (String × String) :=
  (T.connection connectionId).bind fun c => (T.apiKey c).map fun key => (c.domain, key)

/-- The sandbox is dialled at the connection on which it was created. -/
def Dial.IsOwn (T : Config) (d : Dial) (row : Row) : Prop :=
  d.externalId = row.externalId ∧
    pair T row.sandboxConnectionId = some (d.domain, d.apiKey.getD "")

/-- Hub and runner address a sandbox the same way: the runner dials the living sandbox of an
instance at the connection on which it was created, with the domain and the key that `Kill` uses;
and what a runner has dialled, and what it is about to mark dead, was dialled there. -/
structure Agree (T : Config) (s : State) : Prop where
  linked : ∀ id ctx, loadContext T s.world id = some ctx → ctx.provisioned = true →
    ∃ d row, ctx.connectHubSandbox T = .connect d ∧
      s.world.sandboxes.find row.id = some row ∧ ctx.sandboxInstanceId = some row.id ∧
      d.IsOwn T row ∧
      World.killAwait T row = .delete row.id d.domain (d.apiKey.getD "") d.externalId
  dialled : ∀ t ctx d, s.connects t = some (ctx, .connect d) →
    ∃ row, s.world.sandboxes.find row.id = some row ∧ ctx.sandboxInstanceId = some row.id ∧
      d.IsOwn T row
  marked : ∀ t ctx id, s.connects t = some (ctx, .mark id) →
    ∃ d row, ctx.dial T = some d ∧ s.world.sandboxes.find id = some row ∧ d.IsOwn T row

/-! ### The condition -/

section

variable (T : Config) (w : World)

/-- The connection of the sandbox that a call is about to make or to link. -/
def connectionOf : Await → Option ℕ
  | .connection id => some id
  | .create k => some k.connectionId
  | .insert connectionId _ => some connectionId
  | .select id | .link id => (w.sandboxes.find id).map Row.sandboxConnectionId
  | _ => none

/-- No build moves to another address under a living sandbox that is linked to one of its
instances, nor under a call that provides one; and a living sandbox that is linked by hand has the
address of the build. -/
def KeepsAddress : Hub.Sandbox.Action → Prop
  | .updateBuild id connectionId =>
      (∀ r ∈ w.instances.rows, r.buildId = id → ∀ row ∈ w.sandboxes.rows,
        r.sandboxInstanceId = some row.id → row.status = .alive →
          pair T connectionId = pair T row.sandboxConnectionId) ∧
      ∀ c, ∀ call ∈ w.calls c, ∀ target ∈ call.target, ∀ r ∈ w.instances.find target.1,
        r.buildId = id → ∀ k ∈ connectionOf w call.await, pair T connectionId = pair T k
  | .link id sandboxInstanceId _ =>
      ∀ r ∈ w.instances.find id, ∀ connectionId ∈ w.builds r.buildId,
        ∀ row ∈ w.sandboxes.find sandboxInstanceId, row.status = .alive →
          pair T connectionId = pair T row.sandboxConnectionId
  | _ => True

end

/-- The steps of the users keep the addresses; the others are free. -/
def Keeps (T : Config) (s : State) : Action → Prop
  | .hub a => KeepsAddress T s.world a
  | _ => True

/-! ### The invariant -/

section

variable (T : Config) (w : World)

/-- What a call that provides a sandbox is at, seen from the build of the instance. -/
def OnBuild (id : BuildId) : Await → Prop
  | .ensure inst => inst.buildId = id
  | .build b => b = id
  | p => ∀ k ∈ connectionOf w p, ∀ connectionId ∈ w.builds id, pair T connectionId = pair T k

/-- The connection on which a sandbox is made has an address, and the row of a sandbox is there. -/
def Sited : Await → Prop
  | .create k => (pair T k.connectionId).isSome
  | .insert connectionId _ => (pair T connectionId).isSome
  | .select id | .link id => (w.sandboxes.find id).isSome
  | _ => True

/-- What is known of a call. -/
structure Flying (call : Call) : Prop where
  sited : Sited T w call.await
  onBuild : ∀ target ∈ call.target, ∃ r, w.instances.find target.1 = some r ∧
    OnBuild T w r.buildId call.await

/-- The invariant of the hub. -/
structure Inv : Prop where
  pairs : ∀ row ∈ w.sandboxes.rows, (pair T row.sandboxConnectionId).isSome
  linked : ∀ r ∈ w.instances.rows, ∀ id ∈ r.sandboxInstanceId, ∃ row,
    w.sandboxes.find id = some row ∧ (row.status = .alive →
      ∀ k ∈ w.builds r.buildId, pair T k = pair T row.sandboxConnectionId)
  flying : ∀ c, ∀ call ∈ w.calls c, Flying T w call

/-- What is known of a call of the runner. -/
def Told (ctx : Context) : Connecting → Prop
  | .connect d => ctx.dial T = some d ∧ ∃ row, w.sandboxes.find row.id = some row ∧
      ctx.sandboxInstanceId = some row.id ∧ d.IsOwn T row
  | .mark id => ∃ d row, ctx.dial T = some d ∧ w.sandboxes.find id = some row ∧ d.IsOwn T row
  | .ended _ => True

/-- The rows of sandboxes stay, but for their status. -/
def Kept (w' : World) : Prop :=
  ∀ id row, w.sandboxes.find id = some row → ∃ row', w'.sandboxes.find id = some row' ∧
    row'.id = row.id ∧ row'.externalId = row.externalId ∧
    row'.sandboxConnectionId = row.sandboxConnectionId

/-- The rows of sandboxes and of instances stay, but for the status of the one and the link of the
other. -/
structure Onward (w' : World) : Prop where
  sandboxes : Kept w w'
  instances : ∀ id r, w.instances.find id = some r →
    ∃ r', w'.instances.find id = some r' ∧ r'.buildId = r.buildId

end

variable {T : Config} {w w' : World}

/-- What `Create` asks for is at a connection that has an address. -/
theorem pair_of_coordinates {connectionId : ℕ} {k : Hub.Sandbox.Coordinates}
    (h : T.coordinates connectionId = some k) :
  (pair T connectionId).isSome
  := by
  obtain ⟨conn, hconn, h⟩ := Option.bind_eq_some_iff.mp h
  obtain ⟨image, -, h⟩ := Option.bind_eq_some_iff.mp h
  obtain ⟨apiKey, hkey, -⟩ := Option.bind_eq_some_iff.mp h
  have hkey : T.apiKey conn = some apiKey := hkey
  rw [pair, hconn, Option.bind_some, hkey]
  rfl

/-- The key that the runner decrypts is the one that the hub decrypts. -/
theorem decrypt_getD (c : Connection) :
  (decrypt T c.apiKeyEnc).map (·.getD "") = T.apiKey c
  := by
  rw [Config.apiKey]
  cases c.apiKeyEnc with
  | none => rfl
  | some key =>
      rw [decrypt, Option.map_map]
      apply Option.map_id'

/-- `Kill` asks for a living sandbox where the runner dials it. -/
theorem killAwait_of_isOwn {d : Dial} {row : Row} (h : d.IsOwn T row)
    (ha : row.status = .alive) :
  World.killAwait T row = .delete row.id d.domain (d.apiKey.getD "") d.externalId
  := by
  obtain ⟨hext, hpair⟩ := h
  obtain ⟨c, hc, hpair⟩ := Option.bind_eq_some_iff.mp hpair
  obtain ⟨key, hkey, hpair⟩ := Option.map_eq_some_iff.mp hpair
  obtain ⟨hdomain, hkey'⟩ := Prod.mk.inj hpair
  rw [World.killAwait, if_neg (by rw [ha]; decide), hc]
  dsimp only
  rw [hkey, Option.getD_some, hdomain, hkey', hext]

namespace Onward

theorem refl (w : World) :
  Onward w w
  := ⟨fun _ row h => ⟨row, h, rfl, rfl, rfl⟩, fun _ r h => ⟨r, h, rfl⟩⟩

theorem createSandboxInstance (w : World) (externalId : String) (connectionId : ℕ) :
  Onward w (w.createSandboxInstance externalId connectionId)
  := by
  refine ⟨?_, (refl w).instances⟩
  intro id row hrow
  refine ⟨row, ?_, rfl, rfl, rfl⟩
  rw [World.createSandboxInstance, Serial.find_insert, if_neg, hrow]
  rintro rfl
  rw [Serial.find_next] at hrow
  contradiction

theorem markSandboxInstanceDead (w : World) (id : ℕ) :
  Onward w (w.markSandboxInstanceDead id)
  := by
  refine ⟨?_, (refl w).instances⟩
  intro id' row hrow
  rw [World.markSandboxInstanceDead, Serial.find_update, hrow]
  refine ⟨_, rfl, ?_⟩
  dsimp only
  split <;> exact ⟨rfl, rfl, rfl⟩

theorem linkInstanceSandbox (w : World) (id : InstanceId) (sandboxInstanceId : ℕ)
    (userId : UserId) :
  Onward w (w.linkInstanceSandbox T id sandboxInstanceId userId)
  := by
  refine ⟨(refl w).sandboxes, ?_⟩
  intro i r hr
  rw [World.find_linkInstanceSandbox, hr]
  refine ⟨_, rfl, ?_⟩
  dsimp only
  split <;> rfl

theorem sandboxes_upsertInstance (w : World) (buildId : BuildId)
    (repositoryId : Hub.RepositoryId) :
  (w.upsertInstance buildId repositoryId).sandboxes = w.sandboxes
  := by
  rw [World.upsertInstance]
  split <;> rfl

theorem upsertInstance (w : World) (buildId : BuildId) (repositoryId : Hub.RepositoryId) :
  Onward w (w.upsertInstance buildId repositoryId)
  := by
  constructor
  · rw [Kept, sandboxes_upsertInstance]
    apply (refl w).sandboxes
  · intro id r hr
    exact ⟨r, w.find_upsertInstance _ _ hr, rfl⟩

/-- The connection of a call's sandbox stays. -/
theorem connectionOf_eq (h : Onward w w') {p : Await} (hp : Sited T w p) :
  connectionOf w' p = connectionOf w p
  := by
  have hfind : ∀ id, (w.sandboxes.find id).isSome →
      (w'.sandboxes.find id).map Row.sandboxConnectionId =
        (w.sandboxes.find id).map Row.sandboxConnectionId := by
    intro id hid
    obtain ⟨row, hrow⟩ := Option.isSome_iff_exists.mp hid
    obtain ⟨row', hrow', -, -, hconn⟩ := h.sandboxes id row hrow
    rw [hrow, hrow', Option.map_some, Option.map_some, hconn]
  cases p with
  | select id => apply hfind id hp
  | link id => apply hfind id hp
  | _ => rfl

theorem sited (h : Onward w w') {p : Await} (hp : Sited T w p) :
  Sited T w' p
  := by
  have hfind : ∀ id, (w.sandboxes.find id).isSome → (w'.sandboxes.find id).isSome := by
    intro id hid
    obtain ⟨row, hrow⟩ := Option.isSome_iff_exists.mp hid
    obtain ⟨row', hrow', -⟩ := h.sandboxes id row hrow
    rw [hrow']
    rfl
  cases p with
  | select id => apply hfind id hp
  | link id => apply hfind id hp
  | _ => apply hp

theorem onBuild (h : Onward w w') (hb : w'.builds = w.builds) {p : Await} (hs : Sited T w p)
    {id : BuildId} (hp : OnBuild T w id p) :
  OnBuild T w' id p
  := by
  have hc := h.connectionOf_eq hs
  cases p with
  | ensure inst => apply hp
  | build b => apply hp
  | _ =>
      intro k hk connectionId hconn
      rw [hc] at hk
      rw [hb] at hconn
      apply hp k hk connectionId hconn

theorem flying (h : Onward w w') (hb : w'.builds = w.builds) {call : Call}
    (hc : Flying T w call) :
  Flying T w' call
  := by
  constructor
  · apply h.sited hc.sited
  · intro target ht
    obtain ⟨r, hr, hp⟩ := hc.onBuild target ht
    obtain ⟨r', hr', hbuild⟩ := h.instances target.1 r hr
    refine ⟨r', hr', ?_⟩
    rw [hbuild]
    apply h.onBuild hb hc.sited hp

end Onward

/-- What is known of a call of the runner stays known. -/
theorem Kept.told (h : Kept w w') {ctx : Context} {p : Connecting} (hp : Told T w ctx p) :
  Told T w' ctx p
  := by
  have hown : ∀ (d : Dial) (row row' : Row), row'.externalId = row.externalId →
      row'.sandboxConnectionId = row.sandboxConnectionId → d.IsOwn T row → d.IsOwn T row' := by
    intro d row row' hext hconn hd
    rw [Dial.IsOwn, hext, hconn]
    apply hd
  cases p with
  | connect d =>
      obtain ⟨hdial, row, hrow, hid, hd⟩ := hp
      obtain ⟨row', hrow', hid', hext, hconn⟩ := h row.id row hrow
      refine ⟨hdial, row', ?_, ?_, hown d row row' hext hconn hd⟩
      · rw [hid', hrow']
      · rw [hid', hid]
  | mark id =>
      obtain ⟨d, row, hdial, hrow, hd⟩ := hp
      obtain ⟨row', hrow', -, hext, hconn⟩ := h id row hrow
      exact ⟨d, row', hdial, hrow', hown d row row' hext hconn hd⟩
  | ended ok => trivial

/-! ### The statements of the hub -/

namespace Inv

/-- A call goes on, or starts. -/
theorem await (h : Inv T w) {c : CallId} {target : Option (InstanceId × UserId)} {p : Await}
    (hp : Flying T w ⟨target, p⟩) :
  Inv T (w.await c target p)
  := by
  refine ⟨h.pairs, h.linked, ?_⟩
  intro c' call hcall
  have hsame : Onward w (w.await c target p) := ⟨(Onward.refl w).sandboxes, (Onward.refl w).instances⟩
  apply hsame.flying rfl
  rw [World.await] at hcall
  dsimp only at hcall
  by_cases hc : c' = c
  · rw [hc, Function.update_self] at hcall
    rwa [← Option.some.inj hcall]
  · rw [Function.update_of_ne hc] at hcall
    apply h.flying c' call hcall

/-- What the providers do is not seen in the tables. -/
theorem provider (h : Inv T w) (hs : w'.sandboxes = w.sandboxes)
    (hi : w'.instances = w.instances) (hb : w'.builds = w.builds) (hc : w'.calls = w.calls) :
  Inv T w'
  := by
  constructor
  · rw [hs]
    apply h.pairs
  · rw [hs, hi, hb]
    apply h.linked
  · intro c call hcall
    rw [hc] at hcall
    have hsame : Onward w w' := by
      constructor
      · rw [Kept, hs]
        apply (Onward.refl w).sandboxes
      · rw [hi]
        apply (Onward.refl w).instances
    apply hsame.flying hb (h.flying c call hcall)

/-- A sandbox is marked dead. -/
theorem markSandboxInstanceDead (h : Inv T w) (id : ℕ) :
  Inv T (w.markSandboxInstanceDead id)
  := by
  constructor
  · intro row hrow
    obtain ⟨row₀, hrow₀, rfl⟩ := List.mem_map.mp hrow
    split <;> apply h.pairs row₀ hrow₀
  · intro r hr id' hid
    obtain ⟨row, hrow, hpair⟩ := h.linked r hr id' hid
    rw [World.markSandboxInstanceDead]
    dsimp only
    rw [Serial.find_update, hrow]
    refine ⟨_, rfl, ?_⟩
    dsimp only
    split
    · rintro ⟨⟩
    · apply hpair
  · intro c call hcall
    apply (Onward.markSandboxInstanceDead w id).flying rfl (h.flying c call hcall)

/-- The row of a sandbox is written. -/
theorem createSandboxInstance (h : Inv T w) {externalId : String} {connectionId : ℕ}
    (hp : (pair T connectionId).isSome) :
  Inv T (w.createSandboxInstance externalId connectionId)
  := by
  have hon := Onward.createSandboxInstance w externalId connectionId
  constructor
  · intro row hrow
    rcases List.mem_append.mp hrow with hrow | hrow
    · apply h.pairs row hrow
    · rw [List.mem_singleton.mp hrow]
      apply hp
  · intro r hr id hid
    obtain ⟨row, hrow, hpair⟩ := h.linked r hr id hid
    refine ⟨row, ?_, hpair⟩
    rw [World.createSandboxInstance, Serial.find_insert, if_neg, hrow]
    rintro rfl
    rw [Serial.find_next] at hrow
    contradiction
  · intro c call hcall
    apply hon.flying rfl (h.flying c call hcall)

/-- A sandbox is linked to an instance, whose build has its address. -/
theorem linkInstanceSandbox (h : Inv T w) {id : InstanceId} {sandboxInstanceId : ℕ}
    {userId : UserId} {row : Row} (hrow : w.sandboxes.find sandboxInstanceId = some row)
    (hp : ∀ r, w.instances.find id = some r → row.status = .alive →
      ∀ k ∈ w.builds r.buildId, pair T k = pair T row.sandboxConnectionId) :
  Inv T (w.linkInstanceSandbox T id sandboxInstanceId userId)
  := by
  refine ⟨h.pairs, ?_, ?_⟩
  · intro r hr id' hid
    obtain ⟨r₀, hr₀, rfl⟩ := List.mem_map.mp hr
    split at hid
    · rename_i heq
      obtain rfl := Option.some.inj hid
      obtain ⟨rfl, -⟩ := of_decide_eq_true heq
      rw [if_pos heq]
      exact ⟨row, hrow, hp r₀ (Table.find_of_mem hr₀)⟩
    · rename_i heq
      rw [if_neg heq]
      apply h.linked r₀ hr₀ id' hid
  · intro c call hcall
    apply (Onward.linkInstanceSandbox w id sandboxInstanceId userId).flying rfl
      (h.flying c call hcall)

/-- An instance is inserted, without a sandbox. -/
theorem upsertInstance (h : Inv T w) (buildId : BuildId) (repositoryId : Hub.RepositoryId) :
  Inv T (w.upsertInstance buildId repositoryId)
  := by
  have hon := Onward.upsertInstance w buildId repositoryId
  rw [World.upsertInstance] at hon ⊢
  split at hon
  · rename_i hany
    rw [if_pos hany]
    apply h
  · rename_i hany
    rw [if_neg hany]
    refine ⟨h.pairs, ?_, fun c call hcall => hon.flying rfl (h.flying c call hcall)⟩
    intro r hr id hid
    rcases List.mem_append.mp hr with hr | hr
    · apply h.linked r hr id hid
    · rw [List.mem_singleton.mp hr] at hid
      contradiction

/-- A build is given another connection. -/
theorem updateBuild (h : Inv T w) {id : BuildId} {connectionId : ℕ}
    (hG : KeepsAddress T w (.updateBuild id connectionId)) :
  Inv T { w with builds := Function.update w.builds id ((w.builds id).map fun _ => connectionId) }
  := by
  obtain ⟨hrows, hcalls⟩ := hG
  -- what is shown of a build's connection holds of the old one, or of the new one by the condition
  have hbuild : ∀ (b : BuildId) (p : Option (String × String)),
      (b = id → pair T connectionId = p) → (∀ k ∈ w.builds b, pair T k = p) →
      ∀ k ∈ Function.update w.builds id ((w.builds id).map fun _ => connectionId) b,
        pair T k = p := by
    intro b p hnew hold k hk
    by_cases hb : b = id
    · rw [hb, Function.update_self] at hk
      obtain ⟨-, -, rfl⟩ := Option.map_eq_some_iff.mp hk
      apply hnew hb
    · rw [Function.update_of_ne hb] at hk
      apply hold k hk
  refine ⟨h.pairs, ?_, ?_⟩
  · intro r hr id' hid
    obtain ⟨row, hrow, hpair⟩ := h.linked r hr id' hid
    refine ⟨row, hrow, ?_⟩
    intro ha
    apply hbuild _ _ _ (hpair ha)
    intro hb
    apply hrows r hr hb row (Table.mem_of_find hrow) _ ha
    rw [Table.key_of_find hrow]
    apply hid
  · intro c call hcall
    obtain ⟨hsited, hon⟩ := h.flying c call hcall
    refine ⟨hsited, ?_⟩
    intro target ht
    obtain ⟨r, hr, hp⟩ := hon target ht
    refine ⟨r, hr, ?_⟩
    have hconn := fun hb => hcalls c call hcall target ht r hr hb
    obtain ⟨target', p⟩ := call
    cases p with
    | ensure inst => apply hp
    | build b => apply hp
    | _ =>
        intro k hk
        apply hbuild _ _ (fun hb => hconn hb k hk) (hp k hk)

/-- What is known of a call when it goes on. -/
theorem next {target : Option (InstanceId × UserId)} {p q : Await}
    (h : Flying T w ⟨target, p⟩) (hq : Sited T w' q)
    (hi : w'.instances = w.instances) (hon : ∀ id, OnBuild T w id p → OnBuild T w' id q) :
  Flying T w' ⟨target, q⟩
  := by
  refine ⟨hq, ?_⟩
  intro t ht
  obtain ⟨r, hr, hp⟩ := h.onBuild t ht
  exact ⟨r, by rwa [hi], hon r.buildId hp⟩

/-- A call has ended, or has no sandbox to make. -/
theorem ended_of {target : Option (InstanceId × UserId)} {p q : Await}
    (h : Flying T w ⟨target, p⟩) (hq : Sited T w q) (hn : ∀ id, OnBuild T w id q) :
  Flying T w ⟨target, q⟩
  := next h hq rfl fun id _ => hn id

/-- What a call awaits keeps the invariant, and what is known of the call stays known. -/
theorem stmt (h : Inv T w) {target : Option (InstanceId × UserId)} {p q : Await}
    (hf : Flying T w ⟨target, p⟩) (hs : w.stmt T target p = some (w', q)) :
  Inv T w' ∧ Flying T w' ⟨target, q⟩
  := by
  have hnone : ∀ id ok, OnBuild T w id (.ended ok) := by
    intro id ok k hk
    contradiction
  have hend : ∀ ok, Flying T w ⟨target, .ended ok⟩ := fun ok => ended_of hf trivial fun id => hnone id ok
  cases p with
  | ensure inst =>
      obtain ⟨rfl, rfl⟩ := Prod.mk.inj (Option.some.inj hs)
      refine ⟨h, ?_⟩
      split
      · apply hend
      · apply next (q := .build inst.buildId) hf trivial rfl
        intro b hp
        apply hp
  | build id =>
      rw [World.stmt] at hs
      split at hs
      · rename_i connectionId hbuild
        obtain ⟨rfl, rfl⟩ := Prod.mk.inj (Option.some.inj hs)
        refine ⟨h, next hf trivial rfl ?_⟩
        rintro _ rfl k hk k' hk'
        obtain rfl := Option.some.inj (hbuild.symm.trans hk')
        rw [← Option.some.inj hk]
      · obtain ⟨rfl, rfl⟩ := Prod.mk.inj (Option.some.inj hs)
        exact ⟨h, hend _⟩
  | connection id =>
      rw [World.stmt] at hs
      split at hs
      · rename_i k hk
        obtain ⟨rfl, rfl⟩ := Prod.mk.inj (Option.some.inj hs)
        have hid := T.connectionId_of_coordinates hk
        refine ⟨h, next hf ?_ rfl ?_⟩
        · rw [Sited, hid]
          apply pair_of_coordinates hk
        · intro b hp k' hk'
          apply hp k'
          rw [connectionOf, ← hid]
          apply hk'
      · obtain ⟨rfl, rfl⟩ := Prod.mk.inj (Option.some.inj hs)
        exact ⟨h, hend _⟩
  | create k => contradiction
  | insert connectionId externalId =>
      obtain ⟨rfl, rfl⟩ := Prod.mk.inj (Option.some.inj hs)
      have hfind : (w.createSandboxInstance externalId connectionId).sandboxes.find
          w.sandboxes.next = some ⟨w.sandboxes.next, externalId, connectionId, .alive⟩ := by
        rw [World.createSandboxInstance, Serial.find_insert, if_pos rfl]
      refine ⟨h.createSandboxInstance hf.sited, next hf ?_ rfl ?_⟩
      · rw [Sited, hfind]
        rfl
      · intro b hp k' hk'
        apply hp k'
        rw [connectionOf, hfind] at hk'
        apply hk'
  | select id =>
      rw [World.stmt] at hs
      split at hs
      · rename_i row hrow
        obtain ⟨rfl, rfl⟩ := Prod.mk.inj (Option.some.inj hs)
        have hid : row.id = id := Table.key_of_find hrow
        refine ⟨h, ?_⟩
        split
        · rw [hid]
          apply next (q := .link id) hf hf.sited rfl
          intro b hp
          apply hp
        · apply hend
      · obtain ⟨rfl, rfl⟩ := Prod.mk.inj (Option.some.inj hs)
        exact ⟨h, hend _⟩
  | link id =>
      cases target with
      | none => contradiction
      | some target =>
          rw [World.stmt] at hs
          split at hs
          · obtain ⟨rfl, rfl⟩ := Prod.mk.inj (Option.some.inj hs)
            obtain ⟨row, hrow⟩ := Option.isSome_iff_exists.mp hf.sited
            obtain ⟨r, hr, hp⟩ := hf.onBuild target rfl
            have hon := Onward.linkInstanceSandbox (T := T) w target.1 id target.2
            refine ⟨h.linkInstanceSandbox hrow ?_, hon.flying rfl (hend _)⟩
            intro r' hr' _ k hk
            obtain rfl := Option.some.inj (hr.symm.trans hr')
            apply hp row.sandboxConnectionId _ k hk
            rw [connectionOf, hrow]
            rfl
          · obtain ⟨rfl, rfl⟩ := Prod.mk.inj (Option.some.inj hs)
            exact ⟨h, hend _⟩
  | find id =>
      rw [World.stmt] at hs
      split at hs
      · obtain ⟨rfl, rfl⟩ := Prod.mk.inj (Option.some.inj hs)
        refine ⟨h, ?_⟩
        rw [World.killAwait]
        split
        · apply hend
        · split <;>
          · apply ended_of hf
            · trivial
            · intro _ k hk
              contradiction
      · obtain ⟨rfl, rfl⟩ := Prod.mk.inj (Option.some.inj hs)
        exact ⟨h, hend _⟩
  | delete id domain apiKey externalId =>
      rw [World.stmt] at hs
      split at hs
      · contradiction
      · obtain ⟨rfl, rfl⟩ := Prod.mk.inj (Option.some.inj hs)
        refine ⟨h.provider rfl rfl rfl rfl, next hf trivial rfl ?_⟩
        intro _ _ k hk
        contradiction
  | mark id =>
      obtain ⟨rfl, rfl⟩ := Prod.mk.inj (Option.some.inj hs)
      refine ⟨h.markSandboxInstanceDead id, next hf trivial rfl ?_⟩
      intro _ _ k hk
      contradiction
  | ended ok => contradiction

/-- What is known of a call that has no sandbox to make. -/
theorem flying_of_none {p : Await} (hp : Sited T w p) :
  Flying T w ⟨none, p⟩
  := ⟨hp, fun _ ht => by contradiction⟩

/-- A call has ended. -/
theorem ended {call : Call} (h : Flying T w call) (ok : Bool) :
  Flying T w ⟨call.target, .ended ok⟩
  := by
  apply ended_of h
  · trivial
  · intro _ k hk
    contradiction

/-- A provider makes a sandbox. -/
theorem provide (h : Inv T w) (k : Hub.Sandbox.Coordinates) (externalId : String) (c : CallId)
    (target : Option (InstanceId × UserId)) :
  Inv T (w.provide k externalId c target)
  := h.provider rfl rfl rfl rfl

/-- A step of the hub that keeps the addresses keeps the invariant. -/
theorem act (h : Inv T w) {a : Hub.Sandbox.Action} (hG : KeepsAddress T w a)
    (ha : w.act T a = some w') :
  Inv T w'
  := by
  cases World.acts_of_act ha with
  | upsert buildId repositoryId => apply h.upsertInstance
  | ensure hc hr ho hb =>
      apply h.await
      constructor
      · trivial
      · rintro _ ⟨⟩
        exact ⟨_, hr, hb⟩
  | create connectionId hc =>
      apply h.await (flying_of_none _)
      trivial
  | kill id hc =>
      apply h.await (flying_of_none _)
      trivial
  | link id sandboxInstanceId userId hrow =>
      apply h.linkInstanceSandbox hrow
      intro r hr halive k hk
      apply hG r hr k hk _ hrow halive
  | updateBuild id connectionId => apply h.updateBuild hG
  | stmt hcall hs =>
      obtain ⟨hinv, hf⟩ := h.stmt (h.flying _ _ hcall) hs
      apply hinv.await hf
  | @created c externalId target k hcall hfresh =>
      have hprovided := h.provide k externalId c target
      apply hprovided.await
      have hf := hprovided.flying c _ hcall
      apply next (q := .insert k.connectionId externalId) hf hf.sited rfl
      exact fun _ hp => hp
  | @lost c externalId target k hcall hfresh =>
      have hprovided := h.provide k externalId c target
      apply hprovided.await
      apply ended (hprovided.flying c _ hcall)
  | failed hcall he => apply h.await (ended (h.flying _ _ hcall) false)
  | failedAfter hcall hs =>
      obtain ⟨hinv, hf⟩ := h.stmt (h.flying _ _ hcall) hs
      apply hinv.await (ended hf false)
  | running hcall => apply h.await (ended (h.flying _ _ hcall) true)
  | gone host externalId => exact h.provider rfl rfl rfl rfl
  | markDead id => apply h.markSandboxInstanceDead

theorem init (h : w.Initial) :
  Inv T w
  := by
  constructor
  · rw [h.sandboxes]
    intro row hrow
    contradiction
  · intro r hr id hid
    rw [h.instances r hr] at hid
    contradiction
  · rw [h.calls]
    intro c call hcall
    contradiction

end Inv

/-! ### Runs -/

/-- A statement forgets no sandbox. -/
theorem kept_of_grows (h : w.Grows w') :
  Kept w w'
  := by
  intro id row hrow
  obtain ⟨row', hrow', hid, hext, hconn⟩ := h.rows row (Table.mem_of_find hrow)
  refine ⟨row', ?_, hid, hext, hconn⟩
  rw [← show row'.id = id from hid.trans (Table.key_of_find hrow)]
  apply Table.find_of_mem hrow'

theorem kept_stmt {target : Option (InstanceId × UserId)} {p q : Await}
    (hs : w.stmt T target p = some (w', q)) :
  Kept w w'
  := by
  cases World.does_of_stmt hs with
  | early _ _ _ hg => apply kept_of_grows hg
  | insert connectionId externalId =>
      apply kept_of_grows (World.grows_createSandboxInstance w externalId connectionId)
  | link ht h => apply kept_of_grows (World.grows_linkInstanceSandbox w ..)
  | _ => apply kept_of_grows (World.Grows.refl w)

/-- A step of the hub forgets no sandbox. -/
theorem kept_act {a : Hub.Sandbox.Action} (ha : w.act T a = some w') :
  Kept w w'
  := by
  cases World.acts_of_act ha with
  | upsert buildId repositoryId => apply kept_of_grows (World.grows_upsertInstance w ..)
  | link id sandboxInstanceId userId hrow => apply kept_of_grows (World.grows_linkInstanceSandbox w ..)
  | stmt hcall hs => apply kept_stmt hs
  | failedAfter hcall hs => apply kept_stmt hs
  | markDead id => apply kept_of_grows (World.grows_markSandboxInstanceDead w id)
  | _ => apply kept_of_grows (World.Grows.refl w)

/-- The runner dials the living sandbox of an instance at its own connection. -/
theorem Inv.dial (h : Inv T w) {id : InstanceId} {ctx : Context}
    (hctx : loadContext T w id = some ctx) (hp : ctx.provisioned = true) :
  ∃ d row, ctx.dial T = some d ∧ w.sandboxes.find row.id = some row ∧
    ctx.sandboxInstanceId = some row.id ∧ row.status = .alive ∧ d.IsOwn T row
  := by
  obtain ⟨i, hi, hctx⟩ := Option.bind_eq_some_iff.mp hctx
  obtain ⟨k, hk, hctx⟩ := Option.bind_eq_some_iff.mp hctx
  obtain ⟨sc, hsc, hctx⟩ := Option.bind_eq_some_iff.mp hctx
  obtain rfl := Option.some.inj hctx
  obtain ⟨hext, hstatus⟩ := Bool.and_eq_true_iff.mp hp
  obtain ⟨row, hrow, halive⟩ := Option.map_eq_some_iff.mp (of_decide_eq_true hstatus)
  obtain ⟨rowId, hlink, hfind⟩ := Option.bind_eq_some_iff.mp hrow
  obtain ⟨row', hrow', hpair⟩ := h.linked i (Table.mem_of_find hi) rowId hlink
  obtain rfl := Option.some.inj (hfind.symm.trans hrow')
  have hid : row.id = rowId := Table.key_of_find hfind
  obtain ⟨⟨domain, key⟩, hown⟩ :=
    Option.isSome_iff_exists.mp (h.pairs row (Table.mem_of_find hfind))
  have hbuild := (hpair halive k hk).trans hown
  rw [pair, hsc, Option.bind_some, ← decrypt_getD, Option.map_map] at hbuild
  obtain ⟨apiKey, hkey, hbuild⟩ := Option.map_eq_some_iff.mp hbuild
  refine ⟨⟨row.externalId, sc.domain, apiKey⟩, row, ?_, ?_, ?_, halive, rfl, ?_⟩
  · rw [Context.dial]
    dsimp only
    rw [hrow, hkey]
    rfl
  · rw [hid, hfind]
  · rw [hid]
    apply hlink
  · rw [hown, ← hbuild]
    rfl

/-- The invariant of the hub and the runners. -/
structure Invariant (T : Config) (s : State) : Prop where
  hub : Inv T s.world
  told : ∀ t ctx p, s.connects t = some (ctx, p) → Told T s.world ctx p

/-- A sandbox is dialled. -/
theorem told_connectHubSandbox (h : Inv T w) {id : InstanceId} {ctx : Context}
    (hctx : loadContext T w id = some ctx) :
  Told T w ctx (ctx.connectHubSandbox T)
  := by
  rw [Context.connectHubSandbox]
  split
  · rename_i hp
    obtain ⟨d, row, hdial, hrow, hid, -, hown⟩ := h.dial hctx hp
    rw [hdial]
    exact ⟨hdial, row, hrow, hid, hown⟩
  · trivial

/-- A call that could not connect has dialled the sandbox at its own connection. -/
theorem told_failed {ctx : Context} {d : Dial} (h : Told T w ctx (.connect d)) :
  Told T w ctx ctx.failed
  := by
  obtain ⟨hdial, row, hrow, hid, hown⟩ := h
  rw [Context.failed, hid]
  dsimp only
  split
  · trivial
  · exact ⟨d, row, hdial, hrow, hown⟩

namespace Invariant

variable {s s' : State}

/-- A call of a runner goes on, or starts. -/
theorem await (h : Invariant T s) {t : ℕ} {ctx : Context} {p : Connecting}
    (hp : Told T s.world ctx p) :
  Invariant T (s.await t ctx p)
  := by
  refine ⟨h.hub, ?_⟩
  intro t' ctx' p' hc
  rw [State.await] at hc
  dsimp only at hc
  by_cases ht : t' = t
  · rw [ht, Function.update_self] at hc
    obtain ⟨rfl, rfl⟩ := Prod.mk.inj (Option.some.inj hc)
    apply hp
  · rw [Function.update_of_ne ht] at hc
    apply h.told t' ctx' p' hc

/-- A step of the hub. -/
theorem hubAct (h : Invariant T s) {a : Hub.Sandbox.Action} (hG : KeepsAddress T s.world a)
    (ha : s.world.act T a = some w') :
  Invariant T { s with world := w' }
  := by
  constructor
  · apply h.hub.act hG ha
  · intro t ctx p hc
    apply (kept_act ha).told (h.told t ctx p hc)

/-- A step that keeps the addresses keeps the invariant. -/
theorem act (h : Invariant T s) {a : Action} (hG : Keeps T s a) (ha : s.act T a = some s') :
  Invariant T s'
  := by
  cases a with
  | hub a =>
      rw [State.act.eq_def] at ha
      dsimp only at ha
      split at ha
      · contradiction
      · rename_i heq
        cases heq
        obtain ⟨w', hw', rfl⟩ := Option.map_eq_some_iff.mp ha
        apply h.hubAct hG hw'
      all_goals contradiction
  | begin t id =>
      rw [State.act] at ha
      split at ha
      · obtain ⟨ctx, hctx, rfl⟩ := Option.map_eq_some_iff.mp ha
        apply h.await (told_connectHubSandbox h.hub hctx)
      · contradiction
  | answer t ok =>
      rw [State.act] at ha
      split at ha
      · rename_i ctx d hc
        obtain rfl := Option.some.inj ha
        apply h.await
        split
        · trivial
        · apply told_failed (h.told t ctx _ hc)
      · contradiction
  | mark t ok =>
      rw [State.act] at ha
      split at ha
      · rename_i ctx id hc
        obtain rfl := Option.some.inj ha
        have hw : Invariant T { s with
            world := if ok then s.world.markSandboxInstanceDead id else s.world } := by
          split
          · constructor
            · apply h.hub.markSandboxInstanceDead
            · intro t ctx p hc
              apply (Onward.markSandboxInstanceDead s.world id).sandboxes.told (h.told t ctx p hc)
          · apply h
        apply hw.await
        trivial
      · contradiction

theorem agree (h : Invariant T s) :
  Agree T s
  := by
  constructor
  · intro id ctx hctx hp
    obtain ⟨d, row, hdial, hrow, hid, halive, hown⟩ := h.hub.dial hctx hp
    refine ⟨d, row, ?_, hrow, hid, hown, killAwait_of_isOwn hown halive⟩
    rw [Context.connectHubSandbox, if_pos hp, hdial]
  · intro t ctx d hc
    obtain ⟨-, row, hrow, hid, hown⟩ := h.told t ctx _ hc
    exact ⟨row, hrow, hid, hown⟩
  · intro t ctx id hc
    apply h.told t ctx _ hc

end Invariant

/-- **Hub and runner address a sandbox the same way** in every run in which no build moves to
another address under a living sandbox or under a call that provides one, and in which no living
sandbox of another address is linked by hand. -/
theorem agree_of_keeps (T : Config) {s : State} (h : (system T).Reach (Keeps T) s) :
  Agree T s
  := by
  have hinv : Invariant T s := by
    apply h.invariant
    · rintro s ⟨hw, hc⟩
      constructor
      · apply Inv.init hw
      · intro t ctx p ht
        rw [hc] at ht
        contradiction
    · exact fun s a s' hs hG ha => hs.act hG ha
  apply hinv.agree

/-- Two connections, without keys. -/
def twoConnections : Config where
  connections := [⟨1, "one:8090", none, some "sandbox:latest"⟩,
    ⟨2, "two:8090", none, some "sandbox:latest"⟩]
  owner := fun _ => 7
  sandboxDomain := ""
  sandboxImage := ""
  decrypt := fun _ => none

/-- The tables before the first instance, whose build has the first connection. -/
def State.sample : State where
  world := World.sample
  connects := fun _ => none

theorem init_sample :
  (system twoConnections).init State.sample
  := ⟨Hub.Sandbox.initial_sample, rfl⟩

/-- No build moves, and what is linked by hand has the address of the build. -/
def KeepsBuilds (s : State) : Action → Prop
  | .hub (.updateBuild _ _) => False
  | .hub (.link id sandboxInstanceId userId) =>
      KeepsAddress twoConnections s.world (.link id sandboxInstanceId userId)
  | _ => True

instance (s : State) (a : Action) : Decidable (KeepsBuilds s a) := by
  rw [KeepsBuilds.eq_def]
  split
  · infer_instance
  · rw [KeepsAddress]
    infer_instance
  · infer_instance

theorem keeps_of_keepsBuilds (s : State) (a : Action) (h : KeepsBuilds s a) :
  Keeps twoConnections s a
  := by
  cases a with
  | hub a =>
      cases a with
      | updateBuild id connectionId => apply h.elim
      | link id sandboxInstanceId userId => apply h
      | _ => trivial
  | _ => trivial

/-- A runner dials the sandbox that a user has created and linked in the place of one that was
killed. -/
theorem agree_of_keeps_linked :
  ∃ s ctx, (system twoConnections).Reach (Keeps twoConnections) s ∧
    s.connects 0 = some (ctx, .connect ⟨"b", "one:8090", none⟩) ∧ Agree twoConnections s
  := by
  obtain ⟨s, hs, hp⟩ := Transition.exists_reach_of_run
    (T := system twoConnections) (G := KeepsBuilds) init_sample
    [.hub (.upsert 1 1), .hub (.ensure 0 1 7), .hub (.stmt 0), .hub (.stmt 0), .hub (.stmt 0),
      .hub (.created 0 "a"), .hub (.stmt 0), .hub (.stmt 0), .hub (.stmt 0), .hub (.kill 1 1),
      .hub (.stmt 1), .hub (.stmt 1), .hub (.stmt 1), .hub (.create 2 1), .hub (.stmt 2),
      .hub (.created 2 "b"), .hub (.stmt 2), .hub (.stmt 2), .hub (.link 1 2 7), .begin 0 1]
    (fun s => ∃ c ∈ s.connects 0, c.2 = .connect ⟨"b", "one:8090", none⟩)
    (by decide +kernel)
  obtain ⟨⟨ctx, p⟩, hc, rfl⟩ := of_decide_eq_true hp
  have hk := hs.mono keeps_of_keepsBuilds
  exact ⟨s, ctx, hk, hc, agree_of_keeps twoConnections hk⟩

/-- A build is given another connection while an instance of it has a living sandbox. The runner
dials the sandbox at the new connection, does not find it, and takes it for dead. -/
theorem not_agree_reachable :
  ∃ s, (system twoConnections).Reachable s ∧ ¬ Agree twoConnections s
  := by
  obtain ⟨s, hs, hp⟩ := Transition.exists_reach_of_run
    (T := system twoConnections) (G := fun _ _ => True) init_sample
    [.hub (.upsert 1 1), .hub (.ensure 0 1 7), .hub (.stmt 0), .hub (.stmt 0), .hub (.stmt 0),
      .hub (.created 0 "a"), .hub (.stmt 0), .hub (.stmt 0), .hub (.stmt 0),
      .hub (.updateBuild 1 2), .begin 0 1, .answer 0 false]
    (fun s => s.world.sandboxes.find 1 = some ⟨1, "a", 1, .alive⟩ ∧
      ("http://one:8090/v1", "a") ∉ s.world.destroyed ∧
      ∃ c ∈ s.connects 0, c.2 = .mark 1 ∧ c.1.dial twoConnections = some ⟨"a", "two:8090", none⟩)
    (by decide +kernel)
  obtain ⟨hrow, -, ⟨ctx, p⟩, hc, rfl, hdial⟩ := of_decide_eq_true hp
  refine ⟨s, hs, ?_⟩
  intro h
  obtain ⟨d, row, hdial', hrow', -, hpair⟩ := h.marked 0 ctx 1 hc
  obtain rfl := Option.some.inj (hdial.symm.trans hdial')
  obtain rfl := Option.some.inj (hrow.symm.trans hrow')
  apply absurd hpair (by decide)

end Cluster.Address
