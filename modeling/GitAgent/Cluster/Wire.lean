import GitAgent.Hub.Wire
import GitAgent.Runner.Wire

/-!
# The wire format of events, end to end

What a runner decodes is what the hub encoded, field by field, and what it encodes again when
it forwards the event is decoded to the same event.
-/

namespace Cluster

open Hub (Event EventId InstanceId Repository filled eventFields dedupKeyInt)
open Runner (Builtins WireEvent decode optSha optStr)

/-- A commit, unless it is empty or written in zeros only. -/
def presentSha (sha : String) : Option String :=
  if sha.toList.all (· = '0') then none else some sha

theorem optStr_filled (s : String) :
  optStr (filled s) = filled s
  := by
  rw [filled]
  split
  · rfl
  · rename_i h
    simp [optStr, h]

theorem optStr_some (s : String) :
  optStr (some s) = filled s
  := by
  rw [filled]
  split
  · rename_i h
    rw [h]
    rfl
  · rename_i h
    simp [optStr, h]

theorem optSha_some (sha : String) :
  optSha (some sha) = presentSha sha
  := by
  rw [optSha, optStr_some, filled, presentSha]
  split
  · rename_i h
    subst h
    rfl
  · rw [Option.filter_some]
    cases sha.toList.all (· = '0') <;> rfl

theorem optSha_filled (sha : String) :
  optSha (filled sha) = presentSha sha
  := by rw [← optSha_some, ← optStr_some, Runner.optSha_optStr]

/-- The event that the hub describes, as the runner has it. -/
def received (eventId instanceId : ℤ) (threadId : String) (repositoryId : ℤ) (provider : String)
    (e : Event) : WireEvent where
  eventId
  instanceId
  threadId
  repositoryId
  provider
  action := e.action
  dedupKey := dedupKeyInt eventId e
  commitSha := presentSha e.commitSha
  ref := filled e.ref
  traceId := e.traceId
  beforeSha := presentSha e.beforeSha
  baseSha := presentSha e.baseSha
  headSha := presentSha e.headSha
  prNumber := if e.prNumber ≠ 0 then some e.prNumber else none
  prTitle := filled e.prTitle
  prBody := filled e.prBody
  changedFiles := e.changedFiles

variable (B : Builtins)

/-- What the hub encodes is decoded field by field. -/
theorem decode_eventFields (eventId instanceId : ℤ) (threadId : String) (repositoryId : ℤ)
    (provider : String) (e : Event) :
  decode B (eventFields eventId instanceId threadId repositoryId provider e) =
    some (received eventId instanceId threadId repositoryId provider e)
  := by
  have hsha : ∀ {d : Json.Fields} {key : String} {sha : String},
      Json.get d key = (filled sha).map .str →
      Runner.optShaField B d key = presentSha sha := by
    intro d key sha h
    rw [Runner.optShaField, Runner.optField_eq B h, Runner.optSha_optStr, optSha_filled]
  have hstr : ∀ {d : Json.Fields} {key : String} {s : String},
      Json.get d key = (filled s).map .str → Runner.optField B d key = filled s := by
    intro d key s h
    rw [Runner.optField_eq B h, optStr_filled]
  have hsome : ∀ {d : Json.Fields} {key : String} {s : String},
      Json.get d key = some (.str s) → Runner.optField B d key = filled s := by
    intro d key s h
    rw [Runner.optField_eq B (s := some s) h, optStr_some]
  apply Runner.decode_eq
  case hcommitSha =>
      rw [Runner.optShaField, hsome (s := e.commitSha) (by simp [eventFields]), optSha_filled]
      rfl
  case href =>
      apply hsome
      simp [eventFields]
  case hbeforeSha =>
      apply hsha
      simp [eventFields]
  case hbaseSha =>
      apply hsha
      simp [eventFields]
  case hheadSha =>
      apply hsha
      simp [eventFields]
  case hprTitle =>
      apply hstr
      simp [eventFields]
  case hprBody =>
      apply hstr
      simp [eventFields]
  case hchangedFiles =>
      cases h : e.changedFiles <;> simp [eventFields, received, h]
  case hprNumber =>
      simp only [received]
      split <;> simp [eventFields, *]
  all_goals simp [eventFields, received]

/-- The event that a runner decodes from a published message is the one that the rest of the
runner is about. -/
theorem received_eq (eventId : EventId) (instanceId : InstanceId) (threadId : String)
    (repo : Repository) (e : Event) :
  received eventId instanceId threadId repo.id repo.provider e =
    let r := Runner.parseEvent (Hub.eventMessage eventId instanceId threadId repo e)
    { eventId := r.eventId
      instanceId := r.instanceId
      threadId := r.threadId
      repositoryId := r.repositoryId
      provider := r.provider
      action := r.action
      dedupKey := r.dedupKey
      commitSha := r.commitSha
      ref := r.ref
      traceId := r.traceId
      beforeSha := r.beforeSha
      baseSha := r.baseSha
      headSha := r.headSha
      prNumber := r.prNumber
      prTitle := r.prTitle
      prBody := r.prBody
      changedFiles := r.changedFiles }
  := by
  have hfiles : (if e.changedFiles = [] then none else some e.changedFiles).getD [] =
      e.changedFiles := by
    split
    · rename_i h
      rw [h]
      rfl
    · rfl
  simp only [received, Runner.parseEvent, Hub.eventMessage, optSha_some, optSha_filled,
    optStr_some, optStr_filled, Hub.dedupKeyInt_natCast, ite_not, hfiles]

/-- **The wire format**: what the hub encodes is decoded field by field, where only an empty
text, a commit written in zeros, a number zero and an empty list of files become absent, and
what was decoded from any object is decoded again from its encoding. -/
theorem wire_format :
  (∀ eventId instanceId threadId repositoryId provider e,
    decode B (eventFields eventId instanceId threadId repositoryId provider e) =
      some (received eventId instanceId threadId repositoryId provider e)) ∧
  ∀ d, ((decode B d).bind fun e => decode B e.toWire) = decode B d
  := ⟨decode_eventFields B, Runner.decode_toWire_decode B⟩

end Cluster
