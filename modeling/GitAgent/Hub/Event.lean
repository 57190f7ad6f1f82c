import Mathlib.Data.Int.Notation
import Mathlib.Data.Nat.Notation

/-!
# Events of the hub

The thin fact that a webhook or a manual trigger reports about a repository
(`domain/event.go`), the key by which its reactions are deduplicated, and the message that
is published for each of the instances that receive it.
-/

namespace Hub

abbrev UserId := ℕ
abbrev RepositoryId := ℕ
abbrev BuildId := ℕ
abbrev EventId := ℕ
abbrev InstanceId := ℕ
abbrev RunnerId := ℕ

/-- An event before it is written to the journal. An empty text is an unknown value. -/
structure Event where
  deliveryId : String
  action : String
  commitSha : String := ""
  ref : String := ""
  traceId : String := ""
  beforeSha : String := ""
  baseSha : String := ""
  headSha : String := ""
  prNumber : ℤ := 0
  prTitle : String := ""
  prBody : String := ""
  changedFiles : List String := []
  deriving DecidableEq, Repr

/-- A connected repository, as far as webhooks and triggers read it. -/
structure Repository where
  id : RepositoryId
  userId : UserId
  provider : String
  defaultBranch : Option String := none
  webhookSecretEnc : String := ""
  deriving DecidableEq, Repr

/-- The lower case of a character. Outside ASCII only the two upper case letters whose lower
case is an ASCII letter matter to `routingKey`. -/
def lower (c : Char) : Char :=
  if c = '\u0130' then 'i' else if c = '\u212A' then 'k' else c.toLower

/-- Whether a character of an action is kept in the routing key. -/
def isSafe (c : Char) : Bool :=
  'a' ≤ c && c ≤ 'z' || '0' ≤ c && c ≤ '9' || c = '_' || c = '-'

/-- The routing key `provider.repository.action` of the messages about an event. -/
def routingKey (provider : String) (repositoryId : RepositoryId) (action : String) : String :=
  let safe := String.ofList (action.toList.map fun c =>
    if isSafe (lower c) then lower c else '_')
  provider ++ "." ++ toString repositoryId ++ "." ++ safe

/-- The key that identifies a reaction to the event `id`: the commit where there is one,
and the event itself otherwise. A full scan is never tied to its commit. -/
def dedupKey (id : EventId) (e : Event) : String :=
  if e.action = "full_scan" then "full-" ++ toString id
  else if e.commitSha ≠ "" then e.commitSha
  else toString id

/-- The thread of the checkpoints of the instance of a build in a repository. -/
def threadId (buildId : BuildId) (repositoryId : RepositoryId) : String :=
  "hub-" ++ toString buildId ++ "-" ++ toString repositoryId

/-- The message about an event for one instance, a JSON object. The fields from `beforeSha`
on are present only where they are filled in. -/
structure Message where
  eventId : EventId
  instanceId : InstanceId
  threadId : String
  repositoryId : RepositoryId
  provider : String
  action : String
  commitSha : String
  ref : String
  dedupKey : String
  traceId : String
  beforeSha : Option String
  baseSha : Option String
  headSha : Option String
  prNumber : Option ℤ
  prTitle : Option String
  prBody : Option String
  changedFiles : Option (List String)
  deriving DecidableEq, Repr

/-- A text that is left out when it is empty. -/
def filled (s : String) : Option String :=
  if s = "" then none else some s

/-- The message about the event `eventId` for the instance `instanceId`. -/
def eventMessage (eventId : EventId) (instanceId : InstanceId) (threadId : String)
    (repo : Repository) (e : Event) : Message where
  eventId
  instanceId
  threadId
  repositoryId := repo.id
  provider := repo.provider
  action := e.action
  commitSha := e.commitSha
  ref := e.ref
  dedupKey := dedupKey eventId e
  traceId := e.traceId
  beforeSha := filled e.beforeSha
  baseSha := filled e.baseSha
  headSha := filled e.headSha
  prNumber := if e.prNumber = 0 then none else some e.prNumber
  prTitle := filled e.prTitle
  prBody := filled e.prBody
  changedFiles := if e.changedFiles = [] then none else some e.changedFiles

end Hub
