import GitAgent.Hub.Event
import GitAgent.Library.Json

/-!
# The wire format of events

The JSON object by which the hub publishes an event for an instance (`EventMessage` of
`domain/event.go`).
-/

namespace Hub

/-- `DedupKey`, for any number of the event. -/
def dedupKeyInt (id : ℤ) (e : Event) : String :=
  if e.action = "full_scan" then "full-" ++ toString id
  else if e.commitSha ≠ "" then e.commitSha
  else toString id

theorem dedupKeyInt_natCast (id : EventId) (e : Event) :
  dedupKeyInt id e = dedupKey id e
  := rfl

/-- `EventMessage`: the object that describes the event `eventId` for the instance
`instanceId`. -/
def eventFields (eventId instanceId : ℤ) (threadId : String) (repositoryId : ℤ)
    (provider : String) (e : Event) : Json.Fields :=
  [("eventId", .int eventId), ("instanceId", .int instanceId), ("threadId", .str threadId),
    ("repositoryId", .int repositoryId), ("provider", .str provider), ("action", .str e.action),
    ("commitSha", .str e.commitSha), ("ref", .str e.ref),
    ("dedupKey", .str (dedupKeyInt eventId e)), ("traceId", .str e.traceId)] ++
  (Json.field "beforeSha" ((filled e.beforeSha).map .str) ++
  (Json.field "baseSha" ((filled e.baseSha).map .str) ++
  (Json.field "headSha" ((filled e.headSha).map .str) ++
  (Json.field "prTitle" ((filled e.prTitle).map .str) ++
  (Json.field "prBody" ((filled e.prBody).map .str) ++
  (Json.field "prNumber" (if e.prNumber ≠ 0 then some (.int e.prNumber) else none) ++
  (Json.field "changedFiles"
    (if e.changedFiles.length > 0 then some (.arr (e.changedFiles.map .str)) else none))))))))

end Hub
