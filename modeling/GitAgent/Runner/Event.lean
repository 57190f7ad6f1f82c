import GitAgent.Hub.Event

/-!
# Events of a runner

The event as a runner receives it (`core/runner/events.py`), read from the message that the
hub published.
-/

namespace Runner

open Hub (EventId InstanceId RepositoryId Message)

/-- An event for one instance. -/
structure Event where
  eventId : EventId
  instanceId : InstanceId
  threadId : String := ""
  repositoryId : RepositoryId := 0
  provider : String := ""
  action : String
  dedupKey : String
  commitSha : Option String := none
  ref : Option String := none
  traceId : String := ""
  beforeSha : Option String := none
  baseSha : Option String := none
  headSha : Option String := none
  prNumber : Option ℤ := none
  prTitle : Option String := none
  prBody : Option String := none
  changedFiles : List String := []
  deriving DecidableEq, Repr

/-- The actions for which a turn makes sense without a commit. -/
def actionsWithoutCommit : List String :=
  ["full_scan", "manual"]

namespace Event

/-- Whether an optional text is there and not empty. -/
def truthy (s : Option String) : Bool :=
  s.any fun s => s ≠ ""

/-- Whether there is something to audit. -/
def hasCodeTarget (e : Event) : Bool :=
  truthy e.commitSha || truthy e.headSha || e.action ∈ actionsWithoutCommit

/-- The reaction that the event asks for. -/
def reaction (e : Event) : InstanceId × String :=
  (e.instanceId, e.dedupKey)

end Event

/-- A text that counts as absent when it is empty. -/
def optStr (value : Option String) : Option String :=
  value.filter fun s => s ≠ ""

/-- A commit that counts as absent when it is empty or written in zeros only. -/
def optSha (value : Option String) : Option String :=
  (optStr value).filter fun s => ¬ s.toList.all (· = '0')

/-- The event that a message describes. -/
def parseEvent (m : Message) : Event where
  eventId := m.eventId
  instanceId := m.instanceId
  threadId := m.threadId
  repositoryId := m.repositoryId
  provider := m.provider
  action := m.action
  dedupKey := m.dedupKey
  commitSha := optSha (some m.commitSha)
  ref := optStr (some m.ref)
  traceId := m.traceId
  beforeSha := optSha m.beforeSha
  baseSha := optSha m.baseSha
  headSha := optSha m.headSha
  prNumber := m.prNumber
  prTitle := optStr m.prTitle
  prBody := optStr m.prBody
  changedFiles := m.changedFiles.getD []

/-- The message about the push of `Hub.Db.single`, as its instance receives it. -/
def Event.single : Event where
  eventId := 1
  instanceId := 1
  repositoryId := 1
  threadId := "hub-1-1"
  provider := "github"
  action := "push"
  dedupKey := "c"
  commitSha := some "c"

end Runner
