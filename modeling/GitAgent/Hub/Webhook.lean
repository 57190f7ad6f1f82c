import GitAgent.Hub.Ingest
import GitAgent.Hub.Payload
import GitAgent.Hub.Subscription

/-!
# Webhooks and manual triggers

The two ways by which an event reaches the journal (`app/webhook.go`, and `Trigger` of
`app/repository.go`): the delivery of a webhook that shows the secret of its repository, and
the trigger of the owner of a repository. Both end in `fanOut`.
-/

namespace Hub

/-! ### The secret of a repository -/

/-- The value of a hexadecimal digit. -/
def hexDigit (c : Char) : Option ℕ :=
  if '0' ≤ c ∧ c ≤ '9' then some (c.toNat - '0'.toNat)
  else if 'a' ≤ c ∧ c ≤ 'f' then some (c.toNat - 'a'.toNat + 10)
  else if 'A' ≤ c ∧ c ≤ 'F' then some (c.toNat - 'A'.toNat + 10)
  else none

/-- The bytes that a hexadecimal text stands for. -/
def decodeHex : List Char → Option (List ℕ)
  | [] => some []
  | hi :: lo :: rest => do
      let hi ← hexDigit hi
      let lo ← hexDigit lo
      let bytes ← decodeHex rest
      return (16 * hi + lo) :: bytes
  | [_] => none

/-- `verifyGitHub`: the header is the code of the body under the secret. -/
def verifyGitHub (hmac : String → String → List ℕ) (body secret sigHeader : String) : Bool :=
  let start := "sha256=".toList
  start.isPrefixOf sigHeader.toList &&
    (decodeHex (sigHeader.toList.drop start.length)).any fun sig => sig = hmac secret body

/-- `verifyGitLab`: the header is the secret. -/
def verifyGitLab (secret tokenHeader : String) : Bool :=
  tokenHeader ≠ "" && secret = tokenHeader

/-- `VerifyWebhook`. -/
def verifyWebhook (hmac : String → String → List ℕ) (provider secret body : String)
    (header : Header) : Bool :=
  match provider with
  | "github" => verifyGitHub hmac body secret header.hubSignature256
  | "gitlab" => verifyGitLab secret header.gitlabToken
  | _ => false

/-! ### Fan out -/

/-- What the hub is built with: the values that the columns of `hub.events` can hold, the
decryption of secrets, the code of a body under a secret, the lower case of a character, and
whether there is a service of sandboxes. -/
structure Config where
  storable : Event → String → Bool
  decrypt : String → Option String
  hmac : String → String → List ℕ
  lower : Char → Char
  sandboxes : Bool

/-- Whether `FanOut` keeps the builds of an event: it carries code. -/
def Event.carriesCode (e : Event) : Bool :=
  e.commitSha ≠ "" || e.headSha ≠ "" || e.action = "full_scan"

namespace Db

/-- The builds that receive an event. -/
def fanOutBuilds (db : Db) (repo : Repository) (e : Event) : List BuildId :=
  if e.carriesCode then matchedBuilds (db.subscriptionsByRepo repo.id) e.action e.ref else []

/-- `FanOut`, in a request with the trace `traceId`. -/
def fanOut (config : Config) (db : Db) (repo : Repository) (e : Event) (payload traceId : String) :
    Option (Db × Bool × List InstanceId) :=
  let e := { e with traceId }
  db.ingest config.storable repo e payload (db.fanOutBuilds repo e)

/-! ### The delivery of a webhook -/

/-- `Find`: the repository of a webhook. -/
def findRepository (db : Db) (id : RepositoryId) (provider : String) : Option Repository :=
  ((db.repositories.find id).filter fun repo => repo.provider = provider).map
    fun repo => { repo with defaultBranch := none }

/-- `Handle`, as far as `FanOut`: the repository of a delivery that shows its secret. -/
def handle (config : Config) (db : Db) (provider : String) (repositoryId : RepositoryId)
    (header : Header) (body : String) : Option Repository := do
  let repo ← db.findRepository repositoryId provider
  let secret ← config.decrypt repo.webhookSecretEnc
  if verifyWebhook config.hmac provider secret body header then some repo else none

/-- `webhook`, as far as `FanOut`: the repository and the event of a delivery. The body is
given as it is, and as the JSON value that it may stand for. -/
def webhook (config : Config) (db : Db) (provider : String) (repositoryId : RepositoryId)
    (header : Header) (body : String) (json : Option Json) : Option (Repository × Event) := do
  let e ← parseEvent config.lower provider header json
  let repo ← db.handle config provider repositoryId header body
  return (repo, e)

/-! ### The manual trigger -/

/-- The query `Repository`: a repository of a user. -/
def repository? (db : Db) (id : RepositoryId) (userId : UserId) : Option Repository :=
  (db.repositories.find id).filter fun repo => repo.userId = userId

/-- The reactions to events of a repository that were processed, with the time and the
commit. -/
def processedCommits (db : Db) (repositoryId : RepositoryId) : List (ℕ × String) :=
  db.journal.rows.filterMap fun j => do
    let time ← j.processedAt
    let e ← db.events.find j.eventId
    let commit ← e.commitSha
    if e.repositoryId = repositoryId then some (time, commit) else none

/-- The first of the pairs with the latest time. -/
def latest : List (ℕ × String) → Option (ℕ × String)
  | [] => none
  | p :: rows =>
      match latest rows with
      | some q => if p.1 < q.1 then some q else some p
      | none => some p

/-- The query `LastProcessedCommit`. Of several reactions that were processed at the same time
it takes the first. -/
def lastProcessedCommit (db : Db) (repositoryId : RepositoryId) : String :=
  ((latest (db.processedCommits repositoryId)).map Prod.snd).getD ""

end Db

/-- Why a trigger ends without an event. -/
inductive TriggerError
  | notFound
  | refRequired
  | branchHead
  | provision
  | ingest
  deriving DecidableEq, Repr

/-- What a user asks for, and what the provider, the sandboxes and the clock answer: the head
of the branch, the builds whose sandbox is up, and the time. -/
structure TriggerRequest where
  userId : UserId
  id : RepositoryId
  ref : String
  commitSha : String
  mode : String
  branchHead : Option String
  ensured : List BuildId
  nanos : ℕ
  deriving DecidableEq, Repr

/-- The event of a trigger at the commit `commitSha`, with the commit `before` that was
processed last. -/
def triggerEvent (repo : Repository) (ref commitSha mode before : String) (nanos : ℕ) : Event :=
  if mode = "full" then
    { deliveryId := "full-" ++ toString repo.id ++ "-" ++ commitSha ++ "-" ++ toString nanos
      action := "full_scan"
      commitSha
      ref }
  else
    { deliveryId := "manual-" ++ toString repo.id ++ "-" ++ commitSha
      action := "manual"
      commitSha
      ref
      beforeSha := if before ≠ commitSha then before else "" }

/-- A text as a JSON text. -/
def quote (s : String) : String :=
  let hex (n : ℕ) : Char := (Nat.toDigits 16 n).headD '0'
  let escape (c : Char) : List Char :=
    if c = '"' ∨ c = '\\' then ['\\', c]
    else if c = '\n' then ['\\', 'n']
    else if c = '\r' then ['\\', 'r']
    else if c = '\t' then ['\\', 't']
    else if c = '\x08' then ['\\', 'b']
    else if c = '\x0c' then ['\\', 'f']
    else if c.toNat < 32 ∨ c ∈ ['<', '>', '&', '\u2028', '\u2029'] then
      ['\\', 'u', hex (c.toNat / 4096), hex (c.toNat / 256 % 16), hex (c.toNat / 16 % 16),
        hex (c.toNat % 16)]
    else [c]
  "\"" ++ String.ofList (s.toList.flatMap escape) ++ "\""

/-- The payload of a trigger, for the journal. -/
def triggerPayload (userId : UserId) (e : Event) : String :=
  "\x7b\"action\":" ++ quote e.action ++ ",\"beforeSha\":" ++ quote e.beforeSha ++
    ",\"commitSha\":" ++ quote e.commitSha ++ ",\"ref\":" ++ quote e.ref ++
    ",\"userId\":" ++ toString userId ++ "\x7d"

namespace Db

/-- The ref of a trigger, and its commit: the given one or the head of the branch. -/
def resolve (repo : Repository) (r : TriggerRequest) : Except TriggerError (String × String) :=
  let ref := if r.ref = "" then repo.defaultBranch.getD "" else r.ref
  if r.commitSha ≠ "" then .ok (ref, r.commitSha)
  else if ref = "" then .error .refRequired
  else match r.branchHead with
    | some head => .ok (ref, head)
    | none => .error .branchHead

/-- `provisionSandboxes`: the instances of the builds are inserted, and the sandbox of each of
them is up. Returns whether this succeeded for all of them. -/
def provisionBuilds (db : Db) (repo : Repository) (ensured : List BuildId) :
    List BuildId → Db × Bool
  | [] => (db, true)
  | buildId :: rest =>
      match db.upsertInstance buildId repo.id with
      | some (db, _, _) =>
          if buildId ∈ ensured then db.provisionBuilds repo ensured rest else (db, false)
      | none => (db, false)

def provisionSandboxes (config : Config) (db : Db) (repo : Repository) (e : Event)
    (ensured : List BuildId) : Db × Bool :=
  if config.sandboxes then
    db.provisionBuilds repo ensured (matchedBuilds (db.subscriptionsByRepo repo.id) e.action e.ref)
  else (db, true)

/-- `Trigger`, as far as `FanOut`: the repository, the event and the payload. -/
def trigger (db : Db) (r : TriggerRequest) :
    Except TriggerError (Repository × Event × String) :=
  match db.repository? r.id r.userId with
  | none => .error .notFound
  | some repo => do
      let (ref, commitSha) ← resolve repo r
      let e := triggerEvent repo ref commitSha r.mode (db.lastProcessedCommit repo.id) r.nanos
      return (repo, e, triggerPayload r.userId e)

end Db

end Hub
