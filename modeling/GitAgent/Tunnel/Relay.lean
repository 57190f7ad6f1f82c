import GitAgent.Library.Handout
import GitAgent.Library.Transition
import Mathlib.Logic.Function.Basic
import Mathlib.Data.List.Infix

/-!
# The relay

The public entry for webhooks (`cmd/relay/main.go` of the tunnel) keeps records in a queue, and hands
them to those who pull. A puller that finds nothing waits for a channel with room for one token, into
which each push puts a token after its record, if there is none. No record is left in the queue
without somebody who knows of it, and each is handed to at most one puller.
-/

namespace Tunnel

open Transition (System)

/-- `maxQueue`. -/
def maxQueue : ℕ :=
  1000

/-- Where a call of `push` is. -/
inductive Pusher
  | idle
  | appended
  | signalled
  deriving DecidableEq, Repr

/-- Where a handler of `GET /pull` is. It has drained nothing and waits, or has received a token; it
answers with the records it drained last, or has gone without an answer. -/
inductive Puller (α : Type)
  | idle
  | waiting
  | woken
  | answered (recs : List α)
  | gone
  deriving DecidableEq, Repr

/-- The records of an answer. -/
def Puller.recs {α : Type} : Puller α → List α
  | answered recs => recs
  | _ => []

/-- The queue with its channel, and where the calls are. What was pushed, what each puller drained,
and what was dropped, with what was left in the queue then, is kept as an account. -/
structure Relay (α : Type) where
  recs : List α := []
  token : Bool := false
  pushers : ℕ → Pusher := fun _ => .idle
  pullers : ℕ → Puller α := fun _ => .idle
  pushed : List α := []
  drains : List (ℕ × List α) := []
  evictions : List (α × List α) := []

/-- A step of a call: a pusher appends its record under the lock, or signals; a puller drains under
the lock, with or without a time to wait, receives the token, comes to the end of its time, is
cancelled, or drains again. -/
inductive Action (α : Type)
  | append (i : ℕ) (r : α)
  | signal (i : ℕ)
  | drain (i : ℕ) (wait : Bool)
  | receive (i : ℕ)
  | timeout (i : ℕ)
  | cancel (i : ℕ)
  | redrain (i : ℕ)
  deriving DecidableEq, Repr

namespace Relay

variable {α : Type}

/-- `push`, up to the end of the lock: more than `maxQueue` records are not kept. -/
def append (s : Relay α) (i : ℕ) (r : α) : Relay α :=
  let recs := s.recs ++ [r]
  let n := recs.length - maxQueue
  { s with
    recs := recs.drop n
    pushers := Function.update s.pushers i .appended
    pushed := s.pushed ++ [r]
    evictions := s.evictions ++ (recs.take n).map fun e => (e, recs.drop n) }

/-- The end of `push`. A token that is there stays the only one. -/
def signal (s : Relay α) (i : ℕ) : Relay α :=
  { s with token := true, pushers := Function.update s.pushers i .signalled }

/-- `drain`, after which the puller is where it is told. -/
def drain (s : Relay α) (i : ℕ) (puller : Puller α) : Relay α :=
  { s with
    recs := []
    pullers := Function.update s.pullers i puller
    drains := s.drains ++ [(i, s.recs)] }

/-- A puller is somewhere else. -/
def setPuller (s : Relay α) (i : ℕ) (puller : Puller α) : Relay α :=
  { s with pullers := Function.update s.pullers i puller }

/-- One step of one call. -/
def step (s : Relay α) : Action α → Option (Relay α)
  | .append i r => if s.pushers i = .idle then some (s.append i r) else none
  | .signal i => if s.pushers i = .appended then some (s.signal i) else none
  | .drain i wait =>
      match s.pullers i with
      | .idle => some (s.drain i (if s.recs.length = 0 && wait then .waiting else .answered s.recs))
      | _ => none
  | .receive i =>
      match s.pullers i, s.token with
      | .waiting, true => some { s.setPuller i .woken with token := false }
      | _, _ => none
  | .timeout i =>
      match s.pullers i with
      | .waiting => some (s.setPuller i (.answered []))
      | _ => none
  | .cancel i =>
      match s.pullers i with
      | .waiting => some (s.setPuller i .gone)
      | _ => none
  | .redrain i =>
      match s.pullers i with
      | .woken => some (s.drain i (.answered s.recs))
      | _ => none

/-- The relay from its start, with any number of calls. -/
def system (α : Type) : System (Relay α) (Action α) where
  init s := s = {}
  step := step

/-! ### What holds of the relay -/

/-- Somebody knows of the queue: the token is in the channel, or a pusher will put one there, or a
puller has taken it and will drain. -/
def Known (s : Relay α) : Prop :=
  s.token = true ∨ (∃ i, s.pushers i = .appended) ∨ ∃ i, s.pullers i = .woken

/-- What holds of the relay: somebody knows of a queue that is not empty, no more records are kept
than may be, each record that was pushed is dropped or drained by one puller or still there, those
that are dropped were the oldest of too many, and pullers answer with what they drained. -/
structure Sound (s : Relay α) : Prop where
  known : s.recs ≠ [] → s.Known
  bounded : s.recs.length ≤ maxQueue
  account : Handout.Account s.pushed (s.evictions.map Prod.fst) s.drains s.recs
  evicted : ∀ e ∈ s.evictions, e.2.length = maxQueue ∧ e.1 :: e.2 <:+: s.pushed
  answers : ∀ i, (s.drains.filter fun d => d.1 = i).flatMap Prod.snd = (s.pullers i).recs

theorem Sound.start :
  Sound ({} : Relay α)
  := by
  constructor
  · intro h
    contradiction
  · change ([] : List α).length ≤ maxQueue
    rw [List.length_nil]
    omega
  · apply Handout.Account.start
  · intro e he
    contradiction
  · intro i
    rfl

variable {s s' : Relay α} {i : ℕ}

/-- A record is appended, and the oldest one is dropped if there are too many. -/
theorem Sound.append (h : Sound s) (i : ℕ) (r : α) :
  Sound (s.append i r)
  := by
  have hbounded := h.bounded
  have hlength : (s.recs ++ [r]).length = s.recs.length + 1 := by simp
  have hput := h.account.put_one r
  constructor
  · intro _
    right
    left
    exact ⟨i, Function.update_self i _ _⟩
  · simp only [Relay.append]
    rw [List.length_drop]
    omega
  · have hdrop := hput.drop ((s.recs ++ [r]).length - maxQueue)
    rw [Relay.append, List.map_append, List.map_map]
    simpa [Function.comp_def] using hdrop
  · intro e he
    rcases List.mem_append.mp he with he | he
    · obtain ⟨hlen, hinfix⟩ := h.evicted e he
      exact ⟨hlen, hinfix.trans (List.prefix_append _ _).isInfix⟩
    · obtain ⟨a, ha, rfl⟩ := List.mem_map.mp he
      -- At most one record is too many.
      have hone : (s.recs ++ [r]).length - maxQueue = 1 := by
        have hpos := List.length_pos_of_mem ha
        rw [List.length_take] at hpos
        omega
      rw [hone] at ha ⊢
      obtain ⟨b, rest, hrecs⟩ := List.exists_cons_of_ne_nil (List.append_ne_nil_of_right_ne_nil
        s.recs (List.cons_ne_nil r []))
      rw [hrecs] at ha hone ⊢
      obtain rfl := List.mem_singleton.mp ha
      constructor
      · rw [List.length_cons] at hone
        change rest.length = maxQueue
        omega
      · change a :: rest <:+: s.pushed ++ [r]
        rw [← hrecs]
        apply hput.suffix.isInfix
  · simp only [Relay.append]
    exact h.answers

/-- A puller drains that has drained nothing before, and has what it drained. -/
theorem Sound.drain (h : Sound s) {puller : Puller α} (hnone : (s.pullers i).recs = [])
    (hrecs : puller.recs = s.recs) :
  Sound (s.drain i puller)
  := by
  constructor
  · intro hne
    contradiction
  · change ([] : List α).length ≤ maxQueue
    rw [List.length_nil]
    omega
  · apply h.account.hand
  · exact h.evicted
  · intro j
    change ((s.drains ++ [(i, s.recs)]).filter _).flatMap Prod.snd =
      (Function.update s.pullers i puller j).recs
    rw [List.filter_append, List.flatMap_append, h.answers]
    by_cases hij : i = j
    · subst hij
      rw [Function.update_self, hnone, hrecs]
      simp
    · rw [Function.update_of_ne (Ne.symm hij)]
      simp [hij]

/-- A puller goes elsewhere without a record, and somebody still knows of the queue. -/
theorem Sound.setPuller (h : Sound s) {puller : Puller α} (hnone : (s.pullers i).recs = [])
    (hrecs : puller.recs = []) (token : Bool)
    (hknown : s.recs ≠ [] → Known { s.setPuller i puller with token := token }) :
  Sound { s.setPuller i puller with token := token }
  := by
  constructor
  · exact hknown
  · exact h.bounded
  · exact h.account
  · exact h.evicted
  · intro j
    change (s.drains.filter fun d => d.1 = j).flatMap Prod.snd =
      (Function.update s.pullers i puller j).recs
    rw [h.answers]
    by_cases hij : i = j
    · subst hij
      rw [Function.update_self, hnone, hrecs]
    · rw [Function.update_of_ne (Ne.symm hij)]

/-- Whoever leaves without a token leaves the others to know of the queue. -/
theorem Known.leave (h : s.Known) (hwoken : s.pullers i ≠ .woken) (puller : Puller α) :
  Known (s.setPuller i puller)
  := by
  rcases h with htoken | ⟨j, hj⟩ | ⟨j, hj⟩
  · exact .inl htoken
  · exact .inr (.inl ⟨j, hj⟩)
  · right
    right
    refine ⟨j, ?_⟩
    have hne : j ≠ i := by
      rintro rfl
      exact hwoken hj
    change Function.update s.pullers i puller j = .woken
    rw [Function.update_of_ne hne, hj]

/-- **One step of one call.** -/
theorem Sound.step (h : Sound s) {a : Action α} (hs : s.step a = some s') :
  Sound s'
  := by
  cases a with
  | append i r =>
      rw [Relay.step] at hs
      split at hs
      · obtain rfl := Option.some.inj hs
        apply h.append
      · contradiction
  | signal i =>
      rw [Relay.step] at hs
      split at hs
      · obtain rfl := Option.some.inj hs
        exact ⟨fun _ => .inl rfl, h.bounded, h.account, h.evicted, h.answers⟩
      · contradiction
  | drain i wait =>
      rw [Relay.step] at hs
      split at hs
      · rename_i hidle
        obtain rfl := Option.some.inj hs
        apply h.drain (by rw [hidle]; rfl)
        split
        · rename_i hempty
          rw [Bool.and_eq_true, decide_eq_true_eq, List.length_eq_zero_iff] at hempty
          rw [hempty.1]
          rfl
        · rfl
      · contradiction
  | receive i =>
      rw [Relay.step] at hs
      split at hs
      · rename_i hwaiting _
        obtain rfl := Option.some.inj hs
        apply h.setPuller (by rw [hwaiting]; rfl) rfl
        intro _
        exact .inr (.inr ⟨i, Function.update_self i _ _⟩)
      · contradiction
  | timeout i =>
      rw [Relay.step] at hs
      split at hs
      · rename_i hwaiting
        obtain rfl := Option.some.inj hs
        apply h.setPuller (by rw [hwaiting]; rfl) rfl s.token
        intro hne
        apply (h.known hne).leave (by rw [hwaiting]; exact nofun)
      · contradiction
  | cancel i =>
      rw [Relay.step] at hs
      split at hs
      · rename_i hwaiting
        obtain rfl := Option.some.inj hs
        apply h.setPuller (by rw [hwaiting]; rfl) rfl s.token
        intro hne
        apply (h.known hne).leave (by rw [hwaiting]; exact nofun)
      · contradiction
  | redrain i =>
      rw [Relay.step] at hs
      split at hs
      · rename_i hwoken
        obtain rfl := Option.some.inj hs
        apply h.drain (by rw [hwoken]; rfl) rfl
      · contradiction

/-- **What holds of every run.** -/
theorem sound_of_reachable (h : (system α).Reachable s) :
  Sound s
  := by
  apply h.invariant
  · rintro s rfl
    apply Sound.start
  · intro s a s' hsound _ hs
    apply hsound.step hs

/-- **The relay loses no wake-up and no record.** Whatever the calls do, somebody knows of records in
the queue, so that no puller waits for them when all others are idle, and each record is drained by
one puller at most, in the order in which it was pushed, or was dropped as the oldest of too many. -/
theorem relay_loses_nothing (h : (system α).Reachable s) :
  Sound s ∧ (s.drains.flatMap Prod.snd ++ s.recs).Sublist s.pushed ∧
    ∀ i, s.pullers i = .waiting → s.recs ≠ [] → (∀ j, s.pushers j ≠ .appended) →
      (∀ j, s.pullers j ≠ .woken) →
      ∃ s' s'', s.step (.receive i) = some s' ∧ s'.step (.redrain i) = some s'' ∧
        s''.pullers i = .answered s.recs
  := by
  have hsound := sound_of_reachable h
  refine ⟨hsound, hsound.account.sublist, ?_⟩
  intro i hwaiting hne hpushers hpullers
  have htoken : s.token = true := by
    rcases hsound.known hne with htoken | ⟨j, hj⟩ | ⟨j, hj⟩
    · exact htoken
    · exact absurd hj (hpushers j)
    · exact absurd hj (hpullers j)
  have hwoken : (s.setPuller i .woken).pullers i = .woken := Function.update_self i _ _
  let s' : Relay α := { s.setPuller i .woken with token := false }
  refine ⟨s', s'.drain i (.answered s.recs), ?_, ?_, Function.update_self i _ _⟩
  · rw [Relay.step, hwaiting, htoken]
  · rw [Relay.step]
    dsimp only [s']
    rw [hwoken]
    rfl

/-- A puller waits, and a record is pushed. -/
def sampleRelay : Relay ℕ :=
  ((({} : Relay ℕ).drain 0 .waiting).append 0 7).signal 0

theorem reachable_sampleRelay :
  (system ℕ).Reachable sampleRelay
  := by
  have hdrain : (system ℕ).Reachable (({} : Relay ℕ).drain 0 .waiting) :=
    .step (a := .drain 0 true) (.start rfl) trivial rfl
  have happend : (system ℕ).Reachable ((({} : Relay ℕ).drain 0 .waiting).append 0 7) :=
    .step (a := .append 0 7) hdrain trivial rfl
  exact .step (a := .signal 0) happend trivial rfl

theorem relay_loses_nothing_sampleRelay :
  Sound sampleRelay ∧ ∃ s' s'', sampleRelay.step (.receive 0) = some s' ∧
    s'.step (.redrain 0) = some s'' ∧ s''.pullers 0 = .answered [7]
  := by
  obtain ⟨hsound, -, hawake⟩ := relay_loses_nothing reachable_sampleRelay
  refine ⟨hsound, hawake 0 rfl (by decide) ?_ ?_⟩
  · intro j
    cases j with
    | zero => decide
    | succ j =>
        change Pusher.idle ≠ .appended
        decide
  · intro j
    cases j with
    | zero => decide
    | succ j =>
        change (Puller.idle : Puller ℕ) ≠ .woken
        decide

end Relay

end Tunnel
