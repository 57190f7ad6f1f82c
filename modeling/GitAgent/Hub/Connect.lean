import GitAgent.Hub.Refresh
import GitAgent.Hub.Schema
import GitAgent.Library.Decimal
import GitAgent.Library.Fault

/-!
# Connecting a repository

A repository is connected by writes to two systems (`app/repository.go`, `Connect`): its row and the
subscription of a build are inserted, a hook is created at the provider, and the id of the hook is
stored in the row. After a failure of the subscription or of the hook the row is deleted again, but
after one of the last statement nothing is undone. `Disconnect` removes the hook that the row names,
and the row.
-/

namespace Hub.Connect

open Auth (Identity Refreshing CallError Fn Called callWithToken)

/-! ### Rows and hooks -/

/-- A row of `hub.repositories`. -/
structure RepositoryRow where
  id : RepositoryId
  userId : UserId
  identityId : Option ℕ
  mode : String
  provider : String
  externalId : String
  owner : String
  name : String
  defaultBranch : Option String
  webhookProviderId : Option String := none
  webhookSecretEnc : Option String
  deriving DecidableEq, Repr

/-- `ProviderRepo`, as far as a connection needs it. -/
structure ProviderRepo where
  externalId : String
  owner : String
  name : String
  defaultBranch : Option String
  deriving DecidableEq, Repr

/-- A hook at the provider, under the path of its repository. -/
structure Hook where
  path : List String
  id : String
  url : String
  secret : String
  deriving DecidableEq, Repr

/-- The hooks at the providers, and the number of calls that asked for one. -/
structure Provider where
  hooks : List Hook
  calls : ℕ := 0

/-- The path of the hooks of a repository. -/
def hooksPath (provider owner name externalId : String) : Option (List String) :=
  match provider with
  | "github" => some ["repos", owner, name, "hooks"]
  | "gitlab" => some ["projects", externalId, "hooks"]
  | _ => none

/-- The URL of the hook of a repository. -/
def hookURL (base provider : String) (id : RepositoryId) : String :=
  base ++ "/hooks/" ++ provider ++ "/" ++ toString id

/-- The hook points to the repository. -/
def Hook.PointsTo (base : String) (h : Hook) (id : RepositoryId) : Prop :=
  ∃ provider, h.url = hookURL base provider id

/-- The tables, and the providers. -/
structure World where
  auth : Auth.Store
  builds : List BuildId
  repositories : Serial RepositoryRow RepositoryRow.id
  subscriptions : Serial SubscriptionRow SubscriptionRow.id
  provider : Provider

namespace World

variable (w : World)

/-- `Identity`: an identity of a user. -/
def identity (id : ℕ) (userId : UserId) : Option Identity :=
  (w.auth.identities.find id).filter fun i => i.userId = userId

/-- The row meets the references and the constraints of `hub.repositories`. -/
def Accepts (r : RepositoryRow) : Prop :=
  (w.auth.users.find r.userId).isSome ∧
    (∀ id ∈ r.identityId, (w.auth.identities.find id).isSome) ∧
    (r.provider = "github" ∨ r.provider = "gitlab") ∧ (r.mode = "hook" ∨ r.mode = "watch") ∧
    ∀ r' ∈ w.repositories.rows,
      (r'.userId, r'.provider, r'.externalId) ≠ (r.userId, r.provider, r.externalId)

instance (r : RepositoryRow) : Decidable (w.Accepts r) :=
  inferInstanceAs (Decidable (_ ∧ _ ∧ _ ∧ _ ∧ _))

/-- `CreateRepository`: the row gets the next id. -/
def createRepository (r : RepositoryRow) : Option (World × RepositoryId) :=
  if w.Accepts r then
    some ({ w with
      repositories := w.repositories.insert (fun id => { r with id }) fun _ => rfl },
      w.repositories.next)
  else none

/-- `UpsertSubscription`, to all events. -/
def upsertSubscription (buildId : BuildId) (repositoryId : RepositoryId) : Option World :=
  if buildId ∈ w.builds ∧ (w.repositories.find repositoryId).isSome then
    if w.subscriptions.rows.any fun s => s.buildId = buildId ∧ s.repositoryId = repositoryId then
      some { w with
        subscriptions := w.subscriptions.update
          (fun s => s.buildId = buildId ∧ s.repositoryId = repositoryId)
          (fun s => { s with actions := [], refMask := none }) fun _ => rfl }
    else
      some { w with
        subscriptions := w.subscriptions.insert
          (fun id => { id, buildId, repositoryId, actions := [], refMask := none }) fun _ => rfl }
  else none

/-- `SetWebhook`. -/
def setWebhook (id : RepositoryId) (hookId : String) : World :=
  { w with
    repositories := w.repositories.update (fun r => r.id = id)
      (fun r => { r with webhookProviderId := some hookId }) fun _ => rfl }

/-- `DeleteRepository`, with the subscriptions. -/
def deleteRepository (id : RepositoryId) : World :=
  { w with
    repositories := w.repositories.delete fun r => r.id = id
    subscriptions := w.subscriptions.delete fun s => s.repositoryId = id }

end World

/-! ### Connecting -/

/-- The statements of a connection that are not undone. -/
inductive Statement
  | identity
  | create
  | subscribe
  | webhook
  deriving DecidableEq, Repr

/-- How the provider answers when it is asked for a hook: there is one with the id, or the token is
not taken, or there is an error, which may come after there is one all the same. -/
inductive Answer
  | created (id : String)
  | unauthorized (text : String)
  | failed (done : Option String) (text : String)

/-- What happens during a connection: the two calls with tokens, the answers of the provider, the
secret and its encryption, and the statements that fail, with their text and whether they were done
all the same. -/
structure Environment where
  repoCall : Refreshing
  repo : String → String → String → Except CallError ProviderRepo
  secret : Except String String
  encrypt : String → Except String String
  hookCall : Refreshing
  answer : ℕ → String → Answer
  fault : Statement → Option (Bool × String)
  refusal : Statement → String

/-- The arguments of `Connect`. -/
structure Args where
  userId : UserId
  identityId : ℕ
  externalId : String
  buildId : Option BuildId := none
  deriving DecidableEq, Repr

/-- What is known before the first statement that writes. -/
structure Prepared where
  ident : Identity
  repo : ProviderRepo
  secret : String
  secretEnc : String

/-- The row of the repository. -/
def Prepared.row (p : Prepared) (a : Args) : RepositoryRow where
  id := 0
  userId := a.userId
  identityId := some a.identityId
  mode := "hook"
  provider := p.ident.provider
  externalId := p.repo.externalId
  owner := p.repo.owner
  name := p.repo.name
  defaultBranch := p.repo.defaultBranch
  webhookSecretEnc := some p.secretEnc

namespace Environment

variable (base : String) (E : Environment)

/-- A statement that the tables accept with the result `next`, or refuse. -/
def attempt {α : Type} (st : Statement) (w : World) (next : Option (World × α)) :
    World × Except String α :=
  Fault.attempt (E.fault st) (E.refusal st) w next

/-- The call of `Repo`, with the repository that it found. -/
def repoFn (provider externalId : String) : Fn ProviderRepo :=
  fun token pr =>
    match E.repo provider token externalId with
    | .ok pr => (pr, none)
    | .error e => (pr, some e)

/-- What `Connect` does before it writes the row: the tables of identities, and what is known. -/
def prepare (w : World) (a : Args) : Auth.Store × Except String Prepared :=
  match E.fault .identity with
  | some (_, e) => (w.auth, .error e)
  | none =>
      match w.identity a.identityId a.userId with
      | none =>
          (w.auth, .error ("identity " ++ toString a.identityId ++ " is not connected: not found"))
      | some ident =>
          let c := callWithToken E.repoCall (E.repoFn ident.provider a.externalId) w.auth ident
            ⟨"", "", "", none⟩
          match c.error with
          | some e => (c.store, .error e.text)
          | none =>
              match E.secret with
              | .error e => (c.store, .error e)
              | .ok secret =>
                  match E.encrypt secret with
                  | .error e => (c.store, .error e)
                  | .ok secretEnc =>
                      (c.store, .ok { ident := c.ident, repo := c.world, secret, secretEnc })

/-- The subscription of the build, if there is one. After a failure the row is deleted. -/
def subscribe (w : World) (a : Args) (id : RepositoryId) : World × Except String Unit :=
  match a.buildId with
  | none => (w, .ok ())
  | some buildId =>
      match E.attempt .subscribe w ((w.upsertSubscription buildId id).map fun w => (w, ())) with
      | (w, .error e) => (w.deleteRepository id, .error e)
      | (w, .ok ()) => (w, .ok ())

/-- The call of `CreateHook`, with the id of the hook. -/
def hookFn (p : Prepared) (id : RepositoryId) : Fn (Provider × String) :=
  fun token (s, _) =>
    match hooksPath p.ident.provider p.repo.owner p.repo.name p.repo.externalId with
    | none => ((s, ""), some ⟨"unknown provider \"" ++ p.ident.provider ++ "\"", false⟩)
    | some path =>
        let hook (id' : String) : Hook :=
          { path, id := id', url := hookURL base p.ident.provider id, secret := p.secret }
        let calls := s.calls + 1
        match E.answer s.calls token with
        | .created id' => (({ hooks := s.hooks ++ [hook id'], calls }, id'), none)
        | .unauthorized e => (({ s with calls }, ""), some ⟨e, true⟩)
        | .failed none e => (({ s with calls }, ""), some ⟨e, false⟩)
        | .failed (some id') e => (({ hooks := s.hooks ++ [hook id'], calls }, ""), some ⟨e, false⟩)

/-- The call of `CreateHook` with the token of the identity. -/
def hookCalled (s : Auth.Store) (provider : Provider) (p : Prepared) (id : RepositoryId) :
    Called (Provider × String) :=
  callWithToken E.hookCall (E.hookFn base p id) s p.ident (provider, "")

/-- The hook, with its id. After a failure the row is deleted. -/
def createHook (w : World) (p : Prepared) (id : RepositoryId) : World × Except String String :=
  let c := E.hookCalled base w.auth w.provider p id
  let w := { w with auth := c.store, provider := c.world.1 }
  match c.error with
  | some e => (w.deleteRepository id, .error ("create provider hook: " ++ e.text))
  | none => (w, .ok c.world.2)

/-- The id of the hook is stored. After a failure nothing is undone. -/
def storeHook (w : World) (a : Args) (p : Prepared) (id : RepositoryId) (hookId : String) :
    World × Except String (RepositoryRow × Option BuildId) :=
  match E.attempt .webhook w (some (w.setWebhook id hookId, ())) with
  | (w, .error e) => (w, .error e)
  | (w, .ok ()) => (w, .ok ({ p.row a with id, webhookProviderId := some hookId }, a.buildId))

/-- `Connect`: the row of the repository, with the build of the request, or an error. -/
def connect (w : World) (a : Args) : World × Except String (RepositoryRow × Option BuildId) :=
  let w₀ := { w with auth := (E.prepare w a).1 }
  match (E.prepare w a).2 with
  | .error e => (w₀, .error e)
  | .ok p =>
      match E.attempt .create w₀ (w₀.createRepository (p.row a)) with
      | (w, .error e) => (w, .error e)
      | (w, .ok id) =>
          match E.subscribe w a id with
          | (w, .error e) => (w, .error e)
          | (w, .ok ()) =>
              match E.createHook base w p id with
              | (w, .error e) => (w, .error e)
              | (w, .ok hookId) => E.storeHook w a p id hookId

end Environment

/-! ### Disconnecting -/

/-- What happens during `Disconnect`: the statements that fail, the call with a token, and the
errors of the provider, which has removed the hook if there is none. -/
structure Disconnecting where
  readRepository : Option String
  readIdentity : Option String
  call : Refreshing
  deleteHook : String → Option CallError
  delete : Option (Bool × String)

namespace Disconnecting

variable (D : Disconnecting)

/-- The call of `DeleteHook`. -/
def deleteFn (r : RepositoryRow) (hookId : String) : Fn Provider :=
  fun token s =>
    match D.deleteHook token, hooksPath r.provider r.owner r.name r.externalId with
    | none, some path =>
        ({ s with hooks := s.hooks.filter fun h => ¬ (h.path = path ∧ h.id = hookId) }, none)
    | none, none => (s, some ⟨"unknown provider \"" ++ r.provider ++ "\"", false⟩)
    | some e, _ => (s, some e)

/-- The hook that the row names is removed, if its identity is still there. Errors are logged. -/
def removeHook (w : World) (r : RepositoryRow) (userId : UserId) : World :=
  match r.webhookProviderId, r.identityId, D.readIdentity with
  | some hookId, some identityId, none =>
      match w.identity identityId userId with
      | none => w
      | some ident =>
          let c := callWithToken D.call (D.deleteFn r hookId) w.auth ident w.provider
          { w with auth := c.store, provider := c.world }
  | _, _, _ => w

/-- `Disconnect`. -/
def disconnect (w : World) (id : RepositoryId) (userId : UserId) : World × Except String Unit :=
  match D.readRepository with
  | some e => (w, .error e)
  | none =>
      match (w.repositories.find id).filter fun r => r.userId = userId with
      | none => (w, .error "not found")
      | some r =>
          let w := D.removeHook w r userId
          match D.delete with
          | none => (w.deleteRepository id, .ok ())
          | some (true, e) => (w.deleteRepository id, .error e)
          | some (false, e) => (w, .error e)

/-- Nothing fails: no statement, no decryption, and no call of the provider. -/
structure Works : Prop where
  readRepository : D.readRepository = none
  readIdentity : D.readIdentity = none
  decrypt : ∀ enc, ∃ token, D.call.decrypt enc = .ok token
  deleteHook : ∀ token, D.deleteHook token = none
  delete : D.delete = none

end Disconnecting

/-! ### What is shown -/

/-- No hook points to a repository whose id is not yet given. -/
def World.Unclaimed (base : String) (w : World) : Prop :=
  ∀ h ∈ w.provider.hooks, ∀ id, w.repositories.next ≤ id → ¬ h.PointsTo base id

/-- After an error there is no new row, and no hook that points to the id that was to be given. -/
structure LeavesNothing (base : String) (w w' : World) : Prop where
  rows : w'.repositories.rows = w.repositories.rows
  hooks : ∀ h ∈ w'.provider.hooks, ¬ h.PointsTo base w.repositories.next

/-- There is exactly one hook for the repository, its id is stored in the row, and `Disconnect`
removes both if nothing fails. -/
structure Hooked (base : String) (w : World) (userId : UserId) (r : RepositoryRow) : Prop where
  row : w.repositories.find r.id = some r
  hook : ∃ hooks h, w.provider.hooks = hooks ++ [h] ∧ h.PointsTo base r.id ∧
    r.webhookProviderId = some h.id ∧ ∀ h' ∈ hooks, ¬ h'.PointsTo base r.id
  removed : ∀ D : Disconnecting, D.Works →
    (D.disconnect w r.id userId).1.repositories.find r.id = none ∧
      ∀ h ∈ (D.disconnect w r.id userId).1.provider.hooks, ¬ h.PointsTo base r.id

/-- There is nothing left after an error, and a repository with its hook after a success. -/
def Leaves (base : String) (w : World) (userId : UserId) :
    World × Except String (RepositoryRow × Option BuildId) → Prop
  | (w', .error _) => LeavesNothing base w w'
  | (w', .ok (r, _)) => Hooked base w' userId r

/-- A connection leaves nothing behind, or a repository with its hook. -/
def Atomic (base : String) (E : Environment) (w : World) (a : Args) : Prop :=
  Leaves base w a.userId (E.connect base w a)

namespace Environment

variable (base : String) (E : Environment)

/-- The subscription of the build does not fail. -/
def Subscribes (w : World) (a : Args) : Prop :=
  ∀ b ∈ a.buildId, b ∈ w.builds ∧ E.fault .subscribe = none

/-- No answer is lost after the provider created a hook for one of the tokens. -/
def Told (calls : ℕ) (tokens : List String) : Prop :=
  ∀ (i : ℕ) (token : String), tokens[i]? = some token →
    ∀ id e, E.answer (calls + i) token ≠ .failed (some id) e

/-- Nothing fails once the row was inserted that is not undone: the answer of the statement that
inserts it is not lost, nor is that of the provider that creates the hook, and the id of
the hook is stored. -/
def Settles (w : World) (a : Args) : Prop :=
  ∀ p, (E.prepare w a).2 = .ok p → { w with auth := (E.prepare w a).1 }.Accepts (p.row a) →
    (∀ e, E.fault .create ≠ some (true, e)) ∧
      (E.fault .create = none → E.Subscribes w a →
        let c := E.hookCalled base (E.prepare w a).1 w.provider p w.repositories.next
        E.Told w.provider.calls c.tokens ∧ (c.error = none → E.fault .webhook = none))

end Environment

/-! ### The URLs of hooks -/

/-- The last part of a path, read backwards. -/
theorem takeWhile_slash {digits : List Char} (start : List Char) (h : '/' ∉ digits) :
  (digits ++ '/' :: start).takeWhile (fun c => c ≠ '/') = digits
  := by
  rw [List.takeWhile_append_of_pos, List.takeWhile_cons_of_neg, List.append_nil]
  · simp
  · intro c hc
    exact decide_eq_true fun e => h (e ▸ hc)

/-- The URL, read backwards, begins with the id of the repository. -/
theorem reverse_hookURL (base provider : String) (id : RepositoryId) :
  (hookURL base provider id).toList.reverse.takeWhile (fun c => c ≠ '/') =
    (Nat.toDigits 10 id).reverse
  := by
  have hdigits : '/' ∉ (Nat.toDigits 10 id).reverse :=
    fun h => Decimal.not_mem rfl (List.mem_reverse.mp h)
  rw [hookURL, String.toList_append, String.toList_append, List.append_assoc,
    Decimal.toList_toString, List.reverse_append, List.reverse_append,
    show "/".toList.reverse = ['/'] from rfl, List.append_assoc, List.singleton_append,
    takeWhile_slash _ hdigits]

/-- A hook points to at most one repository. -/
theorem id_of_hookURL {base provider provider' : String} {id id' : RepositoryId}
    (h : hookURL base provider id = hookURL base provider' id') :
  id = id'
  := by
  have hd := reverse_hookURL base provider id
  rw [h, reverse_hookURL] at hd
  have hn := congrArg (fun digits => Nat.ofDigitChars 10 digits 0) (List.reverse_injective hd)
  simpa using hn.symm

/-! ### The rows of a repository -/

namespace World

variable {w w' : World}

/-- Deleting the row that was inserted last leaves the rows of before. -/
theorem rows_deleteRepository {T : Serial RepositoryRow RepositoryRow.id} {row : RepositoryRow}
    (h : w.repositories.rows = T.rows ++ [row]) (hid : row.id = T.next) :
  (w.deleteRepository T.next).repositories.rows = T.rows
  := by
  have hold : T.rows.filter (fun r => !decide (r.id = T.next)) = T.rows := by
    apply List.filter_eq_self.mpr
    intro r hr
    simpa using (T.lt_next r hr).ne
  change w.repositories.rows.filter (fun r => !decide (r.id = T.next)) = T.rows
  rw [h, List.filter_append, hold]
  simp [hid]

/-- An identity of a user stays one of the user. -/
theorem isSome_identity_of_same {id : ℕ} {userId : UserId} (h : w.auth.Same w'.auth)
    (hi : (w.identity id userId).isSome) :
  (w'.identity id userId).isSome
  := by
  obtain ⟨i, hi⟩ := Option.isSome_iff_exists.mp hi
  obtain ⟨hfind, huser⟩ := Option.filter_eq_some_iff.mp hi
  have hmem : i.fixed ∈ w'.auth.identities.rows.map Identity.fixed := by
    rw [h.identities]
    exact List.mem_map_of_mem (Table.mem_of_find hfind)
  obtain ⟨i', hi', hfixed⟩ := List.mem_map.mp hmem
  simp only [Identity.fixed, Prod.mk.injEq] at hfixed
  have hid : i'.id = id := hfixed.1.trans (Table.key_of_find hfind)
  have hfind' := Table.find_of_mem hi'
  rw [hid] at hfind'
  rw [identity, hfind', Option.filter_some, hfixed.2.1, if_pos huser]
  rfl

end World

/-! ### The steps of a connection -/

namespace Environment

variable {base : String} {E : Environment} {w : World} {a : Args} {p : Prepared}

/-- What is done before the first statement that writes changes no more than tokens. -/
theorem same_prepare (E : Environment) (w : World) (a : Args) :
  w.auth.Same (E.prepare w a).1
  := by
  rw [prepare]
  split
  · apply Auth.Store.Same.refl
  · split
    · apply Auth.Store.Same.refl
    · rename_i ident _
      have hsame := Auth.same_callWithToken E.repoCall (E.repoFn ident.provider a.externalId) w.auth
        ident ⟨"", "", "", none⟩
      dsimp only
      split
      · apply hsame
      · split
        · apply hsame
        · split <;> apply hsame

/-- A connection is prepared for an identity of the user. -/
theorem isSome_identity_of_prepare (h : (E.prepare w a).2 = .ok p) :
  (w.identity a.identityId a.userId).isSome
  := by
  rw [prepare] at h
  split at h
  · contradiction
  · cases hi : w.identity a.identityId a.userId with
    | none =>
        rw [hi] at h
        contradiction
    | some ident => rfl

/-- A subscription adds none but its own row, or the row of the repository is deleted. -/
theorem subscribe_cases {id : RepositoryId} (hid : (w.repositories.find id).isSome) :
  (E.Subscribes w a ∧ ∃ w' : World, E.subscribe w a id = (w', .ok ()) ∧ w'.auth = w.auth ∧
      w'.repositories = w.repositories ∧ w'.provider = w.provider) ∨
    ¬ E.Subscribes w a ∧ ∃ (w' : World) (e : String),
      E.subscribe w a id = (w'.deleteRepository id, .error e) ∧
        w'.repositories = w.repositories ∧ w'.provider = w.provider
  := by
  rw [subscribe]
  cases hb : a.buildId with
  | none =>
      left
      refine ⟨?_, w, rfl, rfl, rfl, rfl⟩
      rw [Subscribes, hb]
      rintro _ ⟨⟩
  | some b =>
      have hsub : E.Subscribes w a ↔ b ∈ w.builds ∧ E.fault .subscribe = none := by
        rw [Subscribes, hb]
        simp
      rw [hsub]
      by_cases hbuild : b ∈ w.builds
      · have hup : ∃ w', w.upsertSubscription b id = some w' ∧ w'.auth = w.auth ∧
            w'.repositories = w.repositories ∧ w'.provider = w.provider := by
          rw [World.upsertSubscription, if_pos ⟨hbuild, hid⟩]
          split
          · exact ⟨_, rfl, rfl, rfl, rfl⟩
          · exact ⟨_, rfl, rfl, rfl, rfl⟩
        obtain ⟨w', hw', hauth, hrepos, hprovider⟩ := hup
        dsimp only
        rw [hw', Option.map_some, attempt]
        cases hf : E.fault .subscribe with
        | none =>
            rw [Fault.attempt_ok]
            exact .inl ⟨⟨hbuild, rfl⟩, w', rfl, hauth, hrepos, hprovider⟩
        | some fault =>
            obtain ⟨effect, e⟩ := fault
            right
            cases effect with
            | true =>
                rw [Fault.attempt_lost]
                exact ⟨fun h => Option.some_ne_none _ h.2, w', e, rfl, hrepos, hprovider⟩
            | false =>
                rw [Fault.attempt_failed]
                exact ⟨fun h => Option.some_ne_none _ h.2, w, e, rfl, rfl, rfl⟩
      · have hup : w.upsertSubscription b id = none := by
          rw [World.upsertSubscription, if_neg fun h => hbuild h.1]
        obtain ⟨e, he⟩ := Fault.attempt_refused (α := Unit) (E.fault .subscribe)
          (E.refusal .subscribe) w
        right
        dsimp only
        rw [hup, Option.map_none, attempt, he]
        exact ⟨fun h => hbuild h.1, w, e, rfl, rfl, rfl⟩

/-! ### The hook -/

theorem told_cons {calls : ℕ} {token : String} {tokens : List String} :
  E.Told calls (token :: tokens) ↔
    (∀ id e, E.answer calls token ≠ .failed (some id) e) ∧ E.Told (calls + 1) tokens
  := by
  constructor
  · intro h
    constructor
    · exact h 0 token rfl
    · intro i token' ht
      rw [show calls + 1 + i = calls + (i + 1) by omega]
      exact h (i + 1) token' ht
  · rintro ⟨hhead, htail⟩ i token' ht
    cases i with
    | zero =>
        obtain rfl := Option.some.inj ht
        exact hhead
    | succ i =>
        rw [show calls + (i + 1) = calls + 1 + i by omega]
        exact htail i token' ht

theorem told_nil (calls : ℕ) :
  E.Told calls []
  := nofun

section

variable {path : List String} {id : RepositoryId}

/-- The hook of a repository, with the id that the provider gives. -/
def hookOf (base : String) (p : Prepared) (path : List String) (id : RepositoryId)
    (hookId : String) : Hook where
  path := path
  id := hookId
  url := hookURL base p.ident.provider id
  secret := p.secret

variable (hpath : hooksPath p.ident.provider p.repo.owner p.repo.name p.repo.externalId = some path)

include hpath

/-- One call that asks for a hook. -/
theorem hookFn_eq (base : String) (E : Environment) (id : RepositoryId) (token : String)
    (s : Provider) (x : String) :
  E.hookFn base p id token (s, x) =
    match E.answer s.calls token with
    | .created id' => ((⟨s.hooks ++ [hookOf base p path id id'], s.calls + 1⟩, id'), none)
    | .unauthorized e => ((⟨s.hooks, s.calls + 1⟩, ""), some ⟨e, true⟩)
    | .failed none e => ((⟨s.hooks, s.calls + 1⟩, ""), some ⟨e, false⟩)
    | .failed (some id') e =>
        ((⟨s.hooks ++ [hookOf base p path id id'], s.calls + 1⟩, ""), some ⟨e, false⟩)
  := by
  rw [hookFn]
  dsimp only
  rw [hpath]
  cases E.answer s.calls token with
  | created id' => rfl
  | unauthorized e => rfl
  | failed done e => cases done <;> rfl

/-- A call that asks for a hook makes one and tells its id, or makes none, or makes one without an
answer. -/
theorem hookFn_cases (base : String) (E : Environment) (id : RepositoryId) (token : String)
    (s : Provider) (x : String) :
  (∃ id', E.answer s.calls token = .created id' ∧
      E.hookFn base p id token (s, x) =
        ((⟨s.hooks ++ [hookOf base p path id id'], s.calls + 1⟩, id'), none)) ∨
    (∃ e, (∀ id' e', E.answer s.calls token ≠ .failed (some id') e') ∧
      E.hookFn base p id token (s, x) = ((⟨s.hooks, s.calls + 1⟩, ""), some e)) ∨
    ∃ id' e e', E.answer s.calls token = .failed (some id') e' ∧ e.unauthorized = false ∧
      E.hookFn base p id token (s, x) =
        ((⟨s.hooks ++ [hookOf base p path id id'], s.calls + 1⟩, ""), some e)
  := by
  rw [hookFn_eq hpath base E id]
  cases ha : E.answer s.calls token with
  | created id' => exact .inl ⟨id', rfl, rfl⟩
  | unauthorized e => exact .inr (.inl ⟨_, nofun, rfl⟩)
  | failed done e =>
      cases done with
      | none => exact .inr (.inl ⟨_, nofun, rfl⟩)
      | some id' => exact .inr (.inr ⟨id', _, e, rfl, rfl, rfl⟩)

/-- The call that asks for a hook ends with one whose id is known, or with none, or with one whose
answer was lost. -/
theorem hookCalled_cases (base : String) (E : Environment) (id : RepositoryId) (s : Auth.Store)
    (provider : Provider) :
  let c := E.hookCalled base s provider p id
  (∃ id', c.error = none ∧ c.world.1.hooks = provider.hooks ++ [hookOf base p path id id'] ∧
      c.world.2 = id' ∧ E.Told provider.calls c.tokens) ∨
    (∃ e, c.error = some e ∧ c.world.1.hooks = provider.hooks ∧
      E.Told provider.calls c.tokens) ∨
    ∃ e id', c.error = some e ∧
      c.world.1.hooks = provider.hooks ++ [hookOf base p path id id'] ∧
        ¬ E.Told provider.calls c.tokens
  := by
  have hran := Auth.ran_callWithToken E.hookCall (E.hookFn base p id) s p.ident (provider, "")
  dsimp only [hookCalled]
  generalize callWithToken E.hookCall (E.hookFn base p id) s p.ident (provider, "") = c at hran ⊢
  cases hran with
  | @none s ident e => exact .inr (.inl ⟨e, rfl, rfl, told_nil _⟩)
  | @once s ident token err hiff =>
      rcases hookFn_cases hpath base E id token provider "" with
        ⟨id', ha, hfn⟩ | ⟨e, ha, hfn⟩ | ⟨id', e, e', ha, -, hfn⟩
      · left
        rw [hfn] at hiff ⊢
        refine ⟨id', hiff.mpr rfl, rfl, rfl, told_cons.mpr ⟨?_, told_nil _⟩⟩
        rw [ha]
        nofun
      · rw [hfn] at hiff ⊢
        obtain ⟨e', rfl⟩ := Option.ne_none_iff_exists'.mp fun h => nomatch hiff.mp h
        exact .inr (.inl ⟨e', rfl, rfl, told_cons.mpr ⟨ha, told_nil _⟩⟩)
      · rw [hfn] at hiff ⊢
        obtain ⟨e'', rfl⟩ := Option.ne_none_iff_exists'.mp fun h => nomatch hiff.mp h
        exact .inr (.inr ⟨e'', id', rfl, rfl, fun h => (told_cons.mp h).1 id' e' ha⟩)
  | @twice s ident token token' hu =>
      -- the provider did not take the first token, so there is no hook before the second call
      rcases hookFn_cases hpath base E id token provider "" with
        ⟨id', ha, hfn⟩ | ⟨e, ha, hfn⟩ | ⟨id', e, e', ha, hnot, hfn⟩
      · rw [hfn] at hu
        contradiction
      · rw [hfn]
        rcases hookFn_cases hpath base E id token'
          ⟨provider.hooks, provider.calls + 1⟩ "" with
          ⟨id', ha', hfn'⟩ | ⟨e', ha', hfn'⟩ | ⟨id', e', e'', ha', -, hfn'⟩
        · left
          rw [hfn']
          refine ⟨id', rfl, rfl, rfl, told_cons.mpr ⟨ha, told_cons.mpr ⟨?_, told_nil _⟩⟩⟩
          change E.answer (provider.calls + 1) token' = _ at ha'
          rw [ha']
          nofun
        · rw [hfn']
          exact .inr (.inl ⟨e', rfl, rfl, told_cons.mpr ⟨ha, told_cons.mpr ⟨ha', told_nil _⟩⟩⟩)
        · rw [hfn']
          refine .inr (.inr ⟨e', id', rfl, rfl, fun h => ?_⟩)
          exact (told_cons.mp (told_cons.mp h).2).1 id' e'' ha'
      · rw [hfn] at hu
        simp [hnot] at hu

end

end Environment

/-! ### The removal of a hook -/

/-- The providers of repositories have hooks. -/
theorem exists_hooksPath {provider : String} (h : provider = "github" ∨ provider = "gitlab")
    (owner name externalId : String) :
  ∃ path, hooksPath provider owner name externalId = some path
  := by
  rcases h with rfl | rfl
  · exact ⟨_, rfl⟩
  · exact ⟨_, rfl⟩

namespace Disconnecting

variable {D : Disconnecting} {w : World} {r : RepositoryRow} {userId : UserId} {hookId : String}
  {identityId : ℕ} {path : List String}

/-- If nothing fails, the hook that the row names is removed. -/
theorem hooks_removeHook (hD : D.Works) (hhook : r.webhookProviderId = some hookId)
    (hident : r.identityId = some identityId) (hi : (w.identity identityId userId).isSome)
    (hpath : hooksPath r.provider r.owner r.name r.externalId = some path) :
  (D.removeHook w r userId).provider.hooks =
    w.provider.hooks.filter fun h => ¬ (h.path = path ∧ h.id = hookId)
  := by
  obtain ⟨ident, hi⟩ := Option.isSome_iff_exists.mp hi
  obtain ⟨token, htoken⟩ := hD.decrypt ident.accessTokenEnc
  have hfn : ∀ token, D.deleteFn r hookId token w.provider =
      ({ w.provider with
        hooks := w.provider.hooks.filter fun h => ¬ (h.path = path ∧ h.id = hookId) }, none) := by
    intro token
    rw [deleteFn, hD.deleteHook, hpath]
  rw [removeHook, hhook, hident, hD.readIdentity]
  dsimp only
  rw [hi]
  dsimp only
  rw [callWithToken, htoken]
  dsimp only
  rw [hfn]
  rfl

/-- If nothing fails, a repository is removed with the hook that its row names. -/
theorem Works.disconnect (hD : D.Works) (hfind : w.repositories.find r.id = some r)
    (huser : r.userId = userId) (hhook : r.webhookProviderId = some hookId)
    (hident : r.identityId = some identityId) (hi : (w.identity identityId userId).isSome)
    (hpath : hooksPath r.provider r.owner r.name r.externalId = some path) :
  (D.disconnect w r.id userId).1.repositories.find r.id = none ∧
    (D.disconnect w r.id userId).1.provider.hooks =
      w.provider.hooks.filter fun h => ¬ (h.path = path ∧ h.id = hookId)
  := by
  have hdisconnect : D.disconnect w r.id userId =
      ((D.removeHook w r userId).deleteRepository r.id, .ok ()) := by
    rw [Disconnecting.disconnect, hD.readRepository]
    dsimp only
    rw [hfind, Option.filter_some, if_pos (decide_eq_true huser)]
    dsimp only
    rw [hD.delete]
  rw [hdisconnect]
  constructor
  · change Table.find (Table.delete _ _) _ = none
    rw [Table.find_delete]
    cases h : Table.find (D.removeHook w r userId).repositories.toTable r.id with
    | none => rfl
    | some r' =>
        rw [Option.filter_some, if_neg]
        simp [Table.key_of_find h]
  · apply hooks_removeHook hD hhook hident hi hpath

end Disconnecting

end Hub.Connect
