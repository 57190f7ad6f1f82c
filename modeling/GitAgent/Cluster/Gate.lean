import GitAgent.Hub.Webhook
import GitAgent.Runner.Event

/-!
# The gates for events without code

The hub keeps the builds of an event that carries code, and a runner skips an event that has
no code target. The two conditions read the same fields, but only the runner takes a commit
that is written in zeros for none, and only the runner lets a manual event pass without a
commit.
-/

namespace Hub

/-- A commit that is written in zeros only. -/
def isZeros (sha : String) : Bool :=
  sha.toList.all (· = '0')

namespace Event

/-- What the condition of the hub and that of the runner are the same for: a manual event has a
commit, and another event that has a commit has one that is not written in zeros, unless it is
a full scan. -/
def GatesAgree (e : Event) : Prop :=
  (e.action = "manual" → e.commitSha ≠ "" ∨ e.headSha ≠ "") ∧
    (e.action ≠ "manual" → e.action ≠ "full_scan" → e.commitSha ≠ "" ∨ e.headSha ≠ "" →
      ¬ isZeros e.commitSha ∨ ¬ isZeros e.headSha)

instance (e : Event) : Decidable e.GatesAgree :=
  inferInstanceAs (Decidable (_ ∧ _))

end Event

end Hub

namespace Cluster

open Hub (Event EventId InstanceId Repository isZeros)
open Runner (parseEvent optSha)

/-! ### What is left of a commit -/

/-- A commit is present unless it is empty or written in zeros. The empty text is both. -/
theorem truthy_optSha (sha : String) :
  Runner.Event.truthy (optSha (some sha)) = true ↔ ¬ isZeros sha
  := by
  rw [optSha, Runner.optStr, isZeros]
  by_cases h : sha = ""
  · subst h
    simp [Runner.Event.truthy]
  · by_cases h0 : sha.toList.all (· = '0') <;> simp [Option.filter, Runner.Event.truthy, h, h0]

theorem truthy_optSha_filled (sha : String) :
  Runner.Event.truthy (optSha (Hub.filled sha)) = true ↔ ¬ isZeros sha
  := by
  rw [← truthy_optSha, Hub.filled]
  split
  · rename_i h
    subst h
    rfl
  · rfl

/-- What is written in zeros and not empty is not empty. -/
theorem ne_empty_of_not_isZeros {sha : String} (h : ¬ isZeros sha) :
  sha ≠ ""
  := by
  rintro rfl
  apply h
  rfl

variable (eventId : EventId) (instanceId : InstanceId) (threadId : String) (repo : Repository)

/-- What the runner asks of the message about an event. -/
theorem hasCodeTarget_iff (e : Event) :
  (parseEvent (Hub.eventMessage eventId instanceId threadId repo e)).hasCodeTarget ↔
    ¬ isZeros e.commitSha ∨ ¬ isZeros e.headSha ∨ e.action = "full_scan" ∨ e.action = "manual"
  := by
  rw [Runner.Event.hasCodeTarget, Bool.or_eq_true, Bool.or_eq_true, or_assoc]
  apply or_congr
  · apply truthy_optSha
  · apply or_congr
    · apply truthy_optSha_filled
    · rw [decide_eq_true_eq]
      apply List.mem_cons.trans (or_congr_right List.mem_singleton)

/-- **The gates agree** on an event exactly where no manual event is without a commit, and no
other event but a full scan has only commits that are written in zeros. -/
theorem carriesCode_iff_hasCodeTarget_iff (e : Event) :
  (e.carriesCode ↔
    (parseEvent (Hub.eventMessage eventId instanceId threadId repo e)).hasCodeTarget) ↔
  e.GatesAgree
  := by
  rw [hasCodeTarget_iff]
  have hhub : e.carriesCode ↔ e.commitSha ≠ "" ∨ e.headSha ≠ "" ∨ e.action = "full_scan" := by
    simp [Hub.Event.carriesCode, or_assoc]
  have hc : ¬ isZeros e.commitSha → e.commitSha ≠ "" := ne_empty_of_not_isZeros
  have hh : ¬ isZeros e.headSha → e.headSha ≠ "" := ne_empty_of_not_isZeros
  rw [hhub, Hub.Event.GatesAgree]
  by_cases hm : e.action = "manual"
  · simp [hm]
  by_cases hf : e.action = "full_scan"
  · simp [hf]
  constructor
  · refine fun h => ⟨fun h' => absurd h' hm, fun _ _ hc => ?_⟩
    rcases h.mp (by rwa [← or_assoc, or_iff_left hf]) with h | h | h | h
    · exact .inl h
    · exact .inr h
    · apply absurd h hf
    · apply absurd h hm
  · rintro ⟨-, h⟩
    constructor
    · rw [← or_assoc, or_iff_left hf]
      exact fun hc => (h hm hf hc).elim .inl fun h => .inr (.inl h)
    · rintro (h | h | h | h)
      · exact .inl (hc h)
      · exact .inr (.inl (hh h))
      · apply absurd h hf
      · apply absurd h hm

/-- The deletion of a branch is a push whose commit is written in zeros: the hub keeps the
builds of an event that the runner skips. -/
theorem not_carriesCode_iff_hasCodeTarget :
  ∃ e, Hub.parseEvent Char.toLower "github" { githubDelivery := "d", githubEvent := "push" }
      (some (.obj [("after", .str "0000000000000000000000000000000000000000"),
        ("ref", .str "refs/heads/main"), ("deleted", .bool true)])) = some e ∧
    ¬ (e.carriesCode ↔
      (parseEvent (Hub.eventMessage 1 1 "hub-1-1" { id := 1, userId := 1, provider := "github" }
        e)).hasCodeTarget)
  := by
  refine ⟨{ deliveryId := "d", action := "push", ref := "refs/heads/main"
            commitSha := "0000000000000000000000000000000000000000" }, by decide, ?_⟩
  rw [hasCodeTarget_iff]
  decide

end Cluster
