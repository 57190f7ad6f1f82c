import Mathlib.Data.List.TakeWhile
import GitAgent.Runner.History

/-!
# Threads over many turns

The thread of an instance over its turns, each of which may be cut off at any point, with the repair
before a turn and after a failed one (`_repaired_thread` in `core/runner/executor.py`). What the
repair stores is always the thread that `repaired_messages` computes, without truncated calls and
with nothing left to repair; but each call is answered right after its reply only if no call without
an answer has the id of a call that is answered elsewhere in the thread.
-/

namespace Runner.History

open Agent (Texts)
open Transition

variable {T : Texts}

/-! ### Stored threads -/

@[simp]
theorem calls_withId (id : String) (m : Message) :
  (m.withId id).calls = m.calls
  := by cases m <;> rfl

@[simp]
theorem answer_withId (id : String) (m : Message) :
  (m.withId id).answer? = m.answer?
  := by cases m <;> rfl

@[simp]
theorem id_withId (id : String) (m : Message) :
  (m.withId id).id? = some id
  := by cases m <;> rfl

@[simp]
theorem truncations_withId (id : String) (m : Message) :
  truncations (m.withId id) = truncations m
  := by cases m <;> rfl

theorem block_cons (m : Message) (messages : List Message) :
  block (m :: messages) = (m.answer?.map (· :: block messages)).getD []
  := by cases m <;> rfl

namespace Stored

variable {messages stored : List Message}

theorem refl (messages : List Message) :
  Stored messages messages
  := List.forall₂_same.mpr fun _ _ => .inl rfl

theorem answers (h : Stored messages stored) :
  History.answers stored = History.answers messages
  := by
  induction h with
  | nil => rfl
  | cons hm _ ih =>
      rw [History.answers, History.answers, List.filterMap_cons, List.filterMap_cons]
      obtain rfl | ⟨-, id, rfl⟩ := hm
      · rw [← History.answers, ih, ← History.answers]
      · rw [answer_withId, ← History.answers, ih, ← History.answers]

theorem block (h : Stored messages stored) :
  History.block stored = History.block messages
  := by
  induction h with
  | nil => rfl
  | cons hm _ ih =>
      rw [block_cons, block_cons, ih]
      obtain rfl | ⟨-, id, rfl⟩ := hm
      · rfl
      · rw [answer_withId]

theorem calls (h : Stored messages stored) :
  stored.flatMap Message.calls = messages.flatMap Message.calls
  := by
  induction h with
  | nil => rfl
  | cons hm _ ih =>
      rw [List.flatMap_cons, List.flatMap_cons, ih]
      obtain rfl | ⟨-, id, rfl⟩ := hm
      · rfl
      · rw [calls_withId]

theorem eachReply {P : List Call → List String → Prop} (h : Stored messages stored) :
  EachReply P stored ↔ EachReply P messages
  := by
  induction h with
  | nil => rfl
  | cons hm ht ih =>
      rw [EachReply, EachReply, ih, Stored.block ht]
      obtain rfl | ⟨-, id, rfl⟩ := hm
      · rfl
      · rw [calls_withId]

/-- What is changed and added by a repair is the same with and without ids. -/
theorem changes (h : Stored messages stored) (answered : List String) :
  (stored.map (History.changes answered)).sum = (messages.map (History.changes answered)).sum
  := by
  induction h with
  | nil => rfl
  | cons hm _ ih =>
      rw [List.map_cons, List.map_cons, List.sum_cons, List.sum_cons, ih]
      obtain rfl | ⟨-, id, rfl⟩ := hm
      · rfl
      · rw [History.changes, History.changes, truncations_withId, pending, pending, calls_withId]

end Stored

/-! ### What `add_messages` stores -/

/-- Every message has an id, as `add_messages` sees to. -/
def Identified (messages : List Message) : Prop :=
  ∀ m ∈ messages, m.id? ≠ none

/-- Ids that are all different, and that no message of the thread has. -/
structure Drawn (uuid : ℕ → String) (messages : List Message) : Prop where
  distinct : uuid.Injective
  unused : ∀ i, ∀ m ∈ messages, m.id? ≠ some (uuid i)

theorem assigned_cons (uuid : ℕ → String) (m : Message) (messages : List Message) :
  assigned uuid (m :: messages) =
    (if m.id? = none then m.withId (uuid 0) else m) :: assigned (fun i => uuid (i + 1)) messages
  := by rw [assigned, List.mapIdx_cons, assigned]

theorem stored_assigned (uuid : ℕ → String) (messages : List Message) :
  Stored messages (assigned uuid messages)
  := by
  induction messages generalizing uuid with
  | nil => apply List.Forall₂.nil
  | cons m messages ih =>
      rw [assigned_cons]
      apply List.Forall₂.cons _ (ih _)
      split
      · rename_i h
        exact .inr ⟨h, _, rfl⟩
      · exact .inl rfl

theorem identified_assigned (uuid : ℕ → String) (messages : List Message) :
  Identified (assigned uuid messages)
  := by
  induction messages generalizing uuid with
  | nil =>
      intro m h
      contradiction
  | cons m messages ih =>
      rw [assigned_cons]
      apply List.forall_mem_cons.mpr ⟨_, ih _⟩
      split
      · rw [id_withId]
        apply Option.some_ne_none
      · assumption

theorem merged_unused {messages : List Message} {m : Message} (h : ∀ n ∈ messages, n.id? ≠ m.id?) :
  merged messages m = messages ++ [m]
  := by
  rw [merged, if_neg]
  simpa using h

/-- Messages without ids are appended. -/
theorem foldl_merged {added : List Message} (ha : ∀ m ∈ added, m.id? = none) {uuid : ℕ → String}
    {messages : List Message} (hu : Drawn uuid messages) :
  (assigned uuid added).foldl merged messages = messages ++ assigned uuid added
  := by
  induction added generalizing uuid messages with
  | nil =>
      rw [assigned, List.mapIdx_nil, List.append_nil]
      rfl
  | cons m added ih =>
      rw [assigned_cons, if_pos (ha m List.mem_cons_self), List.foldl_cons, merged_unused,
        ih fun m' hm' => ha m' (List.mem_cons_of_mem _ hm'), List.append_assoc,
        List.singleton_append]
      · constructor
        · intro i j h
          apply Nat.succ.inj (hu.distinct h)
        · intro i m' hm'
          obtain hm' | hm' := List.mem_append.mp hm'
          · apply hu.unused _ _ hm'
          · rw [List.mem_singleton.mp hm', id_withId]
            intro h
            apply absurd (hu.distinct (Option.some.inj h))
            omega
      · intro n hn
        rw [id_withId]
        apply hu.unused 0 n hn

/-- Only the answers that are added have no ids. -/
theorem countP_repairedWith (T : Texts) (answered : List String) (messages : List Message) :
  (repairedWith T answered messages).countP (·.id?.isSome) = messages.countP (·.id?.isSome)
  := by
  induction messages with
  | nil => rfl
  | cons m messages ih =>
      have hpending : (pending answered m).countP (·.id?.isSome) = 0 := by
        apply List.countP_eq_zero.mpr
        intro m' hm'
        obtain ⟨call, -, rfl⟩ := List.mem_map.mp hm'
        apply Bool.false_ne_true
      rw [repairedWith, List.flatMap_cons, ← repairedWith, List.countP_append, ih,
        List.countP_cons, List.countP_cons, hpending, id_repaired]
      omega

/-- What is appended by a repair has no ids. -/
theorem added_of_take {answered : List String} {messages : List Message} (h : Identified messages)
    (ht : (repairedWith T answered messages).take messages.length = messages) :
  ∀ m ∈ (repairedWith T answered messages).drop messages.length, m.id? = none
  := by
  have hall : messages.countP (·.id?.isSome) = messages.length := by
    apply List.countP_eq_length.mpr
    intro m hm
    apply Option.isSome_iff_ne_none.mpr (h m hm)
  have hcount := countP_repairedWith T answered messages
  rw [← List.take_append_drop messages.length (repairedWith T answered messages),
    List.countP_append, ht] at hcount
  have hzero := Nat.add_eq_left.mp hcount
  intro m hm
  simpa using List.countP_eq_zero.mp hzero m hm

theorem repairUpdate_eq (T : Texts) (messages : List Message) :
  repairUpdate T messages =
    if messages = [] then none
    else if (repairedMessages T messages).2 = 0 then none
    else if (repairedMessages T messages).1.take messages.length = messages then
      some (.append ((repairedMessages T messages).1.drop messages.length))
    else some (.rewrite (repairedMessages T messages).1)
  := rfl

/-- **Both ways of writing store the thread that `repaired_messages` computes.** -/
theorem stored_repairDanglingToolCalls (T : Texts) {uuid : ℕ → String} {messages : List Message}
    (h : Identified messages) (hu : Drawn uuid messages) :
  Stored (repairedMessages T messages).1 (repairDanglingToolCalls T uuid messages)
  := by
  rw [repairDanglingToolCalls, repairUpdate_eq]
  by_cases hnil : messages = []
  · rw [if_pos hnil, hnil]
    apply List.Forall₂.nil
  · rw [if_neg hnil]
    by_cases hadded : (repairedMessages T messages).2 = 0
    · rw [if_pos hadded, (repairedMessages_count T messages).mp hadded]
      apply Stored.refl
    · rw [if_neg hadded]
      split_ifs with ht
      · rw [repairedMessages_eq] at ht ⊢
        dsimp only at ht ⊢
        rw [addMessages, foldl_merged (added_of_take h ht) hu]
        nth_rewrite 1 [← List.take_append_drop messages.length (repairedWith T _ messages)]
        rw [ht]
        apply List.rel_append (Stored.refl messages)
        apply stored_assigned
      · apply stored_assigned

theorem identified_repairDanglingToolCalls (T : Texts) {uuid : ℕ → String} {messages : List Message}
    (h : Identified messages) (hu : Drawn uuid messages) :
  Identified (repairDanglingToolCalls T uuid messages)
  := by
  rw [repairDanglingToolCalls, repairUpdate_eq]
  split_ifs with hnil hadded ht
  · apply h
  · apply h
  · rw [repairedMessages_eq] at ht ⊢
    dsimp only at ht ⊢
    rw [addMessages, foldl_merged (added_of_take h ht) hu]
    apply List.forall_mem_append.mpr ⟨h, identified_assigned uuid _⟩
  · apply identified_assigned

/-! ### What a repair leaves -/

/-- There is nothing to change or add in what was stored. -/
theorem sum_changes_stored (T : Texts) {messages stored : List Message}
    (h : Stored (repairedMessages T messages).1 stored) :
  (stored.map (changes (answers stored))).sum = 0
  := by
  rw [h.answers, h.changes, repairedMessages_eq]
  apply sum_changes_eq_zero_iff.mpr
  apply clean_repairedWith

theorem untruncated_stored (T : Texts) {messages stored : List Message}
    (h : Stored (repairedMessages T messages).1 stored) :
  Untruncated stored
  := by
  intro m hm
  apply (sum_changes_eq_zero_iff.mp (sum_changes_stored T h) _ hm).1 m rfl

theorem repairUpdate_stored (T : Texts) {messages stored : List Message}
    (h : Stored (repairedMessages T messages).1 stored) :
  repairUpdate T stored = none
  := by
  have hcount : (repairedMessages T stored).2 = 0 := by
    rw [repairedMessages_eq]
    apply sum_changes_stored T h
  rw [repairUpdate_eq, if_pos hcount, ite_self]

theorem answered_stored (T : Texts) {messages stored : List Message}
    (h : Stored (repairedMessages T messages).1 stored) :
  Answered stored ↔ Settled messages
  := by rw [Answered, h.eachReply, ← Answered, answered_iff_settled]

/-! ### The system -/

/-- What happens to a thread. -/
inductive Act
  | human (content : Json) (id : String)
  | reply (m : AIMessage)
  | result (m : ToolMessage)
  | repair (uuid : ℕ → String)

/-- The messages after the last message that is not an answer, and that message. -/
def lastStep (messages : List Message) : List Call × List String :=
  (((messages.reverse.dropWhile (·.answer?.isSome)).head?.map Message.calls).getD [],
    (messages.reverse.takeWhile (·.answer?.isSome)).filterMap Message.answer?)

/-- A message with an id that is new is appended by `add_messages`. -/
def appended (messages : List Message) (m : Message) : Option (List Message) :=
  if m.id? ≠ none ∧ ∀ n ∈ messages, n.id? ≠ m.id? then some (messages ++ [m]) else none

/-- What an act makes of a thread. A human may speak, the model may reply and the thread may be
repaired at any time, since a turn may be cut off at any point; and the calls of the last reply may
be answered in any order, each once, while nothing else follows it. -/
def act (T : Texts) (messages : List Message) : Act → Option (List Message)
  | .human content id => appended messages (.other "human" content (some id))
  | .reply m => if (m.toolCalls.map Call.id).Nodup then appended messages (.ai m) else none
  | .result m =>
      if m.toolCallId ∈ (lastStep messages).1.map Call.id ∧ m.toolCallId ∉ (lastStep messages).2
      then appended messages (.tool m) else none
  | .repair uuid => some (repairDanglingToolCalls T uuid messages)

/-- The thread of an instance. -/
def thread (T : Texts) : System (List Message) Act where
  init messages := messages = []
  step := act T

/-- The ids that `add_messages` draws in a repair are new. -/
def Draws (messages : List Message) : Act → Prop
  | .repair uuid => Drawn uuid messages
  | _ => True

/-- What an act other than a repair does. -/
theorem act_appended {messages messages' : List Message} {a : Act}
    (h : act T messages a = some messages') :
  (∃ uuid, a = .repair uuid ∧ messages' = repairDanglingToolCalls T uuid messages) ∨
    ∃ m, m.id? ≠ none ∧ messages' = messages ++ [m] ∧
      ((∃ content id, a = .human content id ∧ m = .other "human" content id) ∨
        (∃ reply, a = .reply reply ∧ m = .ai reply ∧ (reply.toolCalls.map Call.id).Nodup) ∨
        ∃ result, a = .result result ∧ m = .tool result ∧
          result.toolCallId ∈ (lastStep messages).1.map Call.id)
  := by
  have happended : ∀ {m}, appended messages m = some messages' →
      m.id? ≠ none ∧ messages' = messages ++ [m] := by
    intro m h
    rw [appended] at h
    split at h
    · rename_i hid
      exact ⟨hid.1, (Option.some.inj h).symm⟩
    · contradiction
  cases a with
  | human content id =>
      obtain ⟨hid, h⟩ := happended h
      exact .inr ⟨_, hid, h, .inl ⟨_, _, rfl, rfl⟩⟩
  | reply reply =>
      rw [act] at h
      split at h
      · rename_i hcalls
        obtain ⟨hid, h⟩ := happended h
        exact .inr ⟨_, hid, h, .inr (.inl ⟨_, rfl, rfl, hcalls⟩)⟩
      · contradiction
  | result result =>
      rw [act] at h
      split at h
      · rename_i hcall
        obtain ⟨hid, h⟩ := happended h
        exact .inr ⟨_, hid, h, .inr (.inr ⟨_, rfl, rfl, hcall.1⟩)⟩
      · contradiction
  | repair uuid => exact .inl ⟨uuid, rfl, (Option.some.inj h).symm⟩

/-- Every message of a thread has an id. -/
theorem identified_of_reach {messages : List Message} (h : (thread T).Reach Draws messages) :
  Identified messages
  := by
  induction h with
  | start h =>
      rw [h]
      intro m hm
      contradiction
  | step _ hdraws hs ih =>
      obtain ⟨uuid, rfl, rfl⟩ | ⟨m, hid, rfl, -⟩ := act_appended hs
      · apply identified_repairDanglingToolCalls T ih hdraws
      · apply List.forall_mem_append.mpr ⟨ih, List.forall_mem_singleton.mpr hid⟩

/-- **What a repair makes of a thread**, whatever the turns were and wherever they were cut off: it
stores the thread that `repaired_messages` computes, without truncated calls, and a second repair
writes nothing. Every call is answered right after its reply exactly if those calls are, before the
repair, whose ids are those of some answer of the thread. -/
theorem repaired_iff_settled {messages : List Message} (h : (thread T).Reach Draws messages)
    {uuid : ℕ → String} (hu : Drawn uuid messages) :
  Stored (repairedMessages T messages).1 (repairDanglingToolCalls T uuid messages) ∧
    Untruncated (repairDanglingToolCalls T uuid messages) ∧
    repairUpdate T (repairDanglingToolCalls T uuid messages) = none ∧
    (Answered (repairDanglingToolCalls T uuid messages) ↔ Settled messages)
  := by
  have hstored := stored_repairDanglingToolCalls T (identified_of_reach h) hu
  exact ⟨hstored, untruncated_stored T hstored, repairUpdate_stored T hstored,
    answered_stored T hstored⟩

/-- New ids. -/
def sampleUuid (i : ℕ) : String :=
  String.ofList (List.replicate (i + 1) 'u')

theorem drawn_sampleUuid {messages : List Message}
    (h : ∀ m ∈ messages, (m.id?.bind fun id => id.toList.head?) ≠ some 'u') :
  Drawn sampleUuid messages
  := by
  constructor
  · intro i j hij
    have hlist := congrArg (fun s => s.toList.length) hij
    simpa [sampleUuid] using hlist
  · intro i m hm hid
    apply h m hm
    rw [hid, Option.bind_some, sampleUuid, String.toList_ofList]
    rfl

/-- The thread of the sample is one that turns leave. -/
theorem reach_sample :
  (thread sampleTexts).Reach Draws sample
  := by
  have h0 : (thread sampleTexts).Reach Draws [] := .start rfl
  have h1 : (thread sampleTexts).Reach Draws (sample.take 1) :=
    h0.step (a := .human (.str "hi") "h1") trivial rfl
  have h2 : (thread sampleTexts).Reach Draws (sample.take 2) :=
    h1.step (a := .reply {
      content := .str "thinking…"
      toolCalls := [{ name := "probe", id := "c1" }, { name := "probe", id := "c2" }]
      invalidToolCalls := [⟨some "task", some "\x7b", some "c3", some "EOF"⟩]
      id := some "a1" }) trivial rfl
  have h3 : (thread sampleTexts).Reach Draws (sample.take 3) :=
    h2.step (a := .result { content := .str "ok", toolCallId := "c1", id := some "t1" }) trivial rfl
  exact h3.step (a := .human (.str "next") "h2") trivial rfl

theorem repaired_iff_settled_sample :
  Drawn sampleUuid sample ∧
    Stored (repairedMessages sampleTexts sample).1
      (repairDanglingToolCalls sampleTexts sampleUuid sample) ∧
    Answered (repairDanglingToolCalls sampleTexts sampleUuid sample)
  := by
  have hu : Drawn sampleUuid sample := drawn_sampleUuid (by decide)
  have h := repaired_iff_settled reach_sample hu
  exact ⟨hu, h.1, h.2.2.2.mpr inPlace_sample.placed⟩

/-- A thread whose second turn was cut off after a call with the id of a call of the first turn. -/
def reused : List Message :=
  [.other "human" (.str "hi") (some "h1"),
    .ai { toolCalls := [{ name := "probe", id := "call_0" }], id := some "a1" },
    .tool { content := .str "ok", toolCallId := "call_0", id := some "t1" },
    .other "human" (.str "next") (some "h2"),
    .ai { toolCalls := [{ name := "probe", id := "call_0" }], id := some "a2" }]

theorem reach_reused :
  (thread sampleTexts).Reach Draws reused
  := by
  have h0 : (thread sampleTexts).Reach Draws [] := .start rfl
  have h1 : (thread sampleTexts).Reach Draws (reused.take 1) :=
    h0.step (a := .human (.str "hi") "h1") trivial rfl
  have h2 : (thread sampleTexts).Reach Draws (reused.take 2) :=
    h1.step (a := .reply { toolCalls := [{ name := "probe", id := "call_0" }], id := some "a1" })
      trivial rfl
  have h3 : (thread sampleTexts).Reach Draws (reused.take 3) :=
    h2.step (a := .result { content := .str "ok", toolCallId := "call_0", id := some "t1" })
      trivial rfl
  have h4 : (thread sampleTexts).Reach Draws (reused.take 4) :=
    h3.step (a := .human (.str "next") "h2") trivial rfl
  exact h4.step
    (a := .reply { toolCalls := [{ name := "probe", id := "call_0" }], id := some "a2" }) trivial rfl

/-- A call that has the id of a call of an earlier reply is left without an answer. -/
theorem not_answered_reused :
  ¬ ∀ messages, (thread sampleTexts).Reach Draws messages → ∀ uuid, Drawn uuid messages →
      Answered (repairDanglingToolCalls sampleTexts uuid messages)
  := by
  intro h
  have hreused := h reused reach_reused sampleUuid (drawn_sampleUuid (by decide))
  have hrepair : repairDanglingToolCalls sampleTexts sampleUuid reused = reused := rfl
  rw [hrepair] at hreused
  have hcall := hreused.2.2.2.2.1 { name := "probe", id := "call_0" } List.mem_cons_self
  contradiction

/-! ### Runs without reused ids -/

/-- The model gives its calls ids that no call of the thread has. -/
def Unused (messages : List Message) : Act → Prop
  | .reply m => ∀ call ∈ m.toolCalls, call.id ∉ (messages.flatMap Message.calls).map Call.id
  | _ => True

theorem eachReply_iff {P : List Call → List String → Prop} {messages : List Message} :
  EachReply P messages ↔
    ∀ before m after, messages = before ++ m :: after → P m.calls (block after)
  := by
  induction messages with
  | nil => simp [EachReply]
  | cons m messages ih =>
      rw [EachReply, ih]
      constructor
      · rintro ⟨hm, hmessages⟩ (_ | ⟨_, before⟩) m' after h
        · obtain ⟨rfl, rfl⟩ := List.cons.inj h
          apply hm
        · obtain ⟨rfl, rfl⟩ := List.cons.inj h
          apply hmessages before m' after rfl
      · intro h
        constructor
        · apply h [] m messages rfl
        · intro before m' after heq
          apply h (m :: before) m' after
          rw [heq, List.cons_append]

theorem block_subset_append (messages added : List Message) :
  block messages ⊆ block (messages ++ added)
  := by
  induction messages with
  | nil => apply List.nil_subset
  | cons m messages ih =>
      cases m with
      | tool m =>
          apply List.cons_subset_cons _ ih
      | _ => apply List.nil_subset

/-- A block that nothing else follows has all the answers. -/
theorem block_eq_answers {messages : List Message} (h : ∀ m ∈ messages, m.answer?.isSome) :
  block messages = answers messages
  := by
  induction messages with
  | nil => rfl
  | cons m messages ih =>
      have hm := h m List.mem_cons_self
      cases m with
      | tool m =>
          rw [block, ih fun m' hm' => h m' (List.mem_cons_of_mem _ hm')]
          rfl
      | _ => contradiction

theorem calls_of_answer {m : Message} (h : m.answer?.isSome) :
  m.calls = []
  := by
  cases m with
  | ai m => contradiction
  | _ => rfl

/-- A call of the last step is one of a reply that only answers follow. -/
theorem exists_lastStep {messages : List Message} {id : String}
    (h : id ∈ (lastStep messages).1.map Call.id) :
  ∃ before m after, messages = before ++ m :: after ∧ id ∈ m.calls.map Call.id ∧
    ∀ m' ∈ after, m'.answer?.isSome
  := by
  have hsplit := List.takeWhile_append_dropWhile (p := (·.answer?.isSome)) (l := messages.reverse)
  rw [lastStep] at h
  cases hdrop : messages.reverse.dropWhile (·.answer?.isSome) with
  | nil =>
      rw [hdrop] at h
      contradiction
  | cons m before =>
      rw [hdrop] at h hsplit
      refine ⟨before.reverse, m, (messages.reverse.takeWhile (·.answer?.isSome)).reverse, ?_, h, ?_⟩
      · have hreverse := congrArg List.reverse hsplit
        simpa using hreverse.symm
      · intro m' hm'
        apply List.mem_takeWhile_imp (List.mem_reverse.mp hm')

/-- The calls of a thread have different ids, only calls are answered, and each right after its
reply. -/
structure Ordered (messages : List Message) : Prop where
  distinct : ((messages.flatMap Message.calls).map Call.id).Nodup
  known : answers messages ⊆ (messages.flatMap Message.calls).map Call.id
  placed : Settled messages

namespace Ordered

variable {messages : List Message}

theorem nil :
  Ordered []
  := ⟨List.nodup_nil, List.Subset.refl _, trivial⟩

/-- The calls of before are answered as before, also where a message follows. -/
theorem placed_append (h : Ordered messages) {m : Message}
    (hm : ∀ call ∈ m.calls, call.id ∉ answers (messages ++ [m]))
    (hold : ∀ before m' after, messages = before ++ m' :: after → ∀ call ∈ m'.calls,
      m.answer? = some call.id → call.id ∈ block (after ++ [m])) :
  Settled (messages ++ [m])
  := by
  apply eachReply_iff.mpr
  intro before m' after heq call hcall ha
  rcases List.eq_nil_or_concat after with rfl | ⟨after, last, rfl⟩
  · obtain ⟨-, hlast⟩ := List.append_inj' heq rfl
    obtain rfl := List.singleton_inj.mp hlast
    apply absurd ha (hm call hcall)
  · rw [List.concat_eq_append, ← List.cons_append, ← List.append_assoc] at heq
    obtain ⟨rfl, hlast⟩ := List.append_inj' heq rfl
    obtain rfl := List.singleton_inj.mp hlast
    rw [List.concat_eq_append]
    rw [answers_append, List.mem_append] at ha
    obtain ha | ha := ha
    · apply block_subset_append
      apply eachReply_iff.mp h.placed _ _ _ rfl _ hcall ha
    · obtain ⟨m', hm', hanswer⟩ := List.mem_filterMap.mp ha
      obtain rfl := List.mem_singleton.mp hm'
      apply hold _ _ _ rfl _ hcall hanswer

/-- A message that is no answer is appended, with calls that have new ids. -/
theorem append (h : Ordered messages) {m : Message} (hanswer : m.answer? = none)
    (hn : (m.calls.map Call.id).Nodup)
    (hm : ∀ call ∈ m.calls, call.id ∉ (messages.flatMap Message.calls).map Call.id) :
  Ordered (messages ++ [m])
  := by
  have hanswers : answers (messages ++ [m]) = answers messages := by
    rw [answers_append, answers, answers, List.filterMap_cons_none hanswer, List.filterMap_nil,
      List.append_nil]
  have hcalls : (messages ++ [m]).flatMap Message.calls =
      messages.flatMap Message.calls ++ m.calls := by
    rw [List.flatMap_append, List.flatMap_singleton]
  constructor
  · rw [hcalls, List.map_append]
    apply h.distinct.append hn
    intro id hid hid'
    obtain ⟨call, hcall, rfl⟩ := List.mem_map.mp hid'
    apply hm call hcall hid
  · rw [hanswers, hcalls, List.map_append]
    intro id hid
    apply List.mem_append_left _ (h.known hid)
  · apply h.placed_append
    · intro call hcall ha
      rw [hanswers] at ha
      apply hm call hcall (h.known ha)
    · intro before m' after _ call _ hid
      rw [hanswer] at hid
      contradiction

/-- A call of the last step is answered. -/
theorem answer (h : Ordered messages) {m : ToolMessage}
    (hm : m.toolCallId ∈ (lastStep messages).1.map Call.id) :
  Ordered (messages ++ [.tool m])
  := by
  obtain ⟨before, reply, after, rfl, hid, hafter⟩ := exists_lastStep hm
  have hcalls : (before ++ reply :: after ++ [Message.tool m]).flatMap Message.calls =
      (before ++ reply :: after).flatMap Message.calls := by
    rw [List.flatMap_append, List.flatMap_singleton]
    apply List.append_nil
  constructor
  · rw [hcalls]
    apply h.distinct
  · rw [hcalls, answers_append]
    apply List.append_subset.mpr ⟨h.known, _⟩
    apply List.cons_subset.mpr ⟨_, List.nil_subset _⟩
    rw [List.flatMap_append, List.flatMap_cons, List.map_append, List.map_append]
    apply List.mem_append_right _ (List.mem_append_left _ hid)
  · apply h.placed_append
    · intro call hcall
      contradiction
    · intro before' m' after' heq call hcall hanswer
      have hcallid : m.toolCallId = call.id := Option.some.inj hanswer
      have hown : call.id ∈ block (after ++ [Message.tool m]) := by
        rw [block_eq_answers, answers_append]
        · apply List.mem_append_right
          apply List.mem_filterMap.mpr ⟨_, List.mem_cons_self, hanswer⟩
        · apply List.forall_mem_append.mpr ⟨hafter, List.forall_mem_singleton.mpr rfl⟩
      rcases List.append_eq_append_iff.mp heq with ⟨between, rfl, hrest⟩ | ⟨between, rfl, hrest⟩
      · cases between with
        | nil =>
            obtain ⟨rfl, rfl⟩ := List.cons.inj hrest
            apply hown
        | cons _ between =>
            -- an answer has no calls
            obtain ⟨rfl, rfl⟩ := List.cons.inj hrest
            rw [calls_of_answer (hafter m' (by simp))] at hcall
            contradiction
      · cases between with
        | nil =>
            obtain ⟨rfl, rfl⟩ := List.cons.inj hrest
            apply hown
        | cons _ between =>
            -- the call of another reply has another id
            obtain ⟨rfl, rfl⟩ := List.cons.inj hrest
            have hdistinct := h.distinct
            rw [List.flatMap_append, List.map_append] at hdistinct
            exfalso
            apply (List.nodup_append.mp hdistinct).2.2 call.id _ m.toolCallId _ hcallid.symm
            · rw [List.flatMap_append, List.flatMap_cons, List.map_append, List.map_append]
              apply List.mem_append_right
              apply List.mem_append_left _ (List.mem_map_of_mem hcall)
            · rw [List.flatMap_cons, List.map_append]
              apply List.mem_append_left _ hid

end Ordered

/-- The repaired thread is settled, since its calls are answered. -/
theorem settled_of_answered {messages : List Message} (h : Answered messages) :
  Settled messages
  := by
  apply h.imp
  intro calls ids hcalls call hcall _
  apply hcalls call hcall

theorem calls_repairedWith (T : Texts) (answered : List String) (messages : List Message) :
  (repairedWith T answered messages).flatMap Message.calls = messages.flatMap Message.calls
  := by
  induction messages with
  | nil => rfl
  | cons m messages ih =>
      have hpending : (pending answered m).flatMap Message.calls = [] :=
        List.flatMap_eq_nil_iff.mpr fun _ => calls_pending
      rw [repairedWith, List.flatMap_cons, ← repairedWith, List.flatMap_append, ih,
        List.flatMap_cons, calls_repaired, hpending, List.append_nil, List.flatMap_cons]

theorem Ordered.repair {messages stored : List Message} (h : Ordered messages)
    (hstored : Stored (repairedMessages T messages).1 stored) :
  Ordered stored
  := by
  have hcalls : stored.flatMap Message.calls = messages.flatMap Message.calls := by
    rw [hstored.calls, repairedMessages_eq, calls_repairedWith]
  constructor
  · rw [hcalls]
    apply h.distinct
  · rw [hcalls, hstored.answers, repairedMessages_eq]
    intro id hid
    obtain ⟨m', hm', hanswer⟩ := List.mem_filterMap.mp hid
    obtain ⟨m, hm, rfl | hadded⟩ := mem_repairedWith.mp hm'
    · rw [answer_repaired] at hanswer
      apply h.known
      apply List.mem_filterMap.mpr ⟨m, hm, hanswer⟩
    · obtain ⟨call, hcall, rfl⟩ := List.mem_map.mp hadded
      obtain rfl := Option.some.inj hanswer
      apply List.mem_map_of_mem
      apply List.mem_flatMap.mpr ⟨m, hm, (List.mem_filter.mp hcall).1⟩
  · apply settled_of_answered
    apply (answered_stored T hstored).mpr h.placed

/-- **Where no reply reuses the id of a call**, every call is answered right after its reply by the
repair. -/
theorem answered_of_unused {messages : List Message}
    (h : (thread T).Reach (fun messages a => Draws messages a ∧ Unused messages a) messages)
    {uuid : ℕ → String} (hu : Drawn uuid messages) :
  Answered (repairDanglingToolCalls T uuid messages)
  := by
  have hids : ∀ {messages}, (thread T).Reach
      (fun messages a => Draws messages a ∧ Unused messages a) messages → Identified messages :=
    fun h => identified_of_reach (h.mono fun _ _ => And.left)
  have hordered : Ordered messages := by
    clear hu
    induction h with
    | start h =>
        rw [h]
        apply Ordered.nil
    | step hreach hG hs ih =>
        obtain ⟨uuid, rfl, rfl⟩ | ⟨m, -, rfl, hm⟩ := act_appended hs
        · apply ih.repair (stored_repairDanglingToolCalls T (hids hreach) hG.1)
        · obtain ⟨content, id, -, rfl⟩ | ⟨reply, rfl, rfl, hcalls⟩ | ⟨result, -, rfl, hcall⟩ := hm
          · apply ih.append (m := .other "human" content id) rfl List.nodup_nil
            intro call hcall
            contradiction
          · apply ih.append (m := .ai reply) rfl hcalls hG.2
          · apply ih.answer hcall
  apply (answered_stored T (stored_repairDanglingToolCalls T (hids h) hu)).mpr hordered.placed

end Runner.History
