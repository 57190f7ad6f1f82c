import Mathlib.Data.List.Infix
import GitAgent.Library.Transition
import GitAgent.Agent.Frames

/-!
# The repair of a thread

A turn that is cut off leaves replies in the thread whose tool calls have no answers, or were
truncated, and which the provider then rejects. Before each turn the thread is repaired
(`core/runner/history.py`): a call whose id no answer in the thread has is given one, right after
its reply, and truncated calls are dropped from the replies.
-/

namespace Runner.History

open Agent (Texts)

/-! ### Messages -/

/-- A tool call of a reply, with the id that the provider chose. -/
structure Call where
  name : String
  args : Json.Fields := []
  id : String
  deriving DecidableEq

/-- A tool call whose arguments were truncated. -/
structure InvalidToolCall where
  name : Option String
  args : Option String
  id : Option String
  error : Option String
  deriving DecidableEq

/-- A reply of the model. The fields that are only copied are `fields`. -/
structure AIMessage where
  content : Json := .str ""
  toolCalls : List Call := []
  invalidToolCalls : List InvalidToolCall := []
  id : Option String := none
  fields : Json.Fields := []
  deriving DecidableEq

/-- The answer of a tool. -/
structure ToolMessage where
  content : Json
  toolCallId : String
  name : Option String := none
  id : Option String := none
  fields : Json.Fields := []
  deriving DecidableEq

/-- A message of a thread. -/
inductive Message
  | other (type : String) (content : Json) (id : Option String)
  | ai (m : AIMessage)
  | tool (m : ToolMessage)
  deriving DecidableEq

namespace Message

/-- The id of a message. -/
def id? : Message → Option String
  | other _ _ id => id
  | ai m => m.id
  | tool m => m.id

/-- A message with an id. -/
def withId (id : String) : Message → Message
  | other type content _ => .other type content (some id)
  | ai m => .ai { m with id := some id }
  | tool m => .tool { m with id := some id }

/-- The id of the call that a message answers. -/
def answer? : Message → Option String
  | tool m => some m.toolCallId
  | _ => none

/-- The calls of a message. -/
def calls : Message → List Call
  | ai m => m.toolCalls
  | _ => []

end Message

/-! ### `repaired_messages` -/

/-- `CANCELLED_TOOL_RESULT`. -/
def cancelledToolResult : String :=
  "tool call was cancelled before it produced a result (turn interrupted); do not assume it ran"

/-- `TRUNCATED_TOOL_CALL_NOTE`. -/
def truncatedToolCallNote : String :=
  "[a tool call was truncated by the output token limit and dropped; " ++
    "re-issue it in a shorter form]"

/-- The answer that is given to a call in the place of the missing one. -/
def cancelled (call : Call) : ToolMessage where
  content := .str cancelledToolResult
  toolCallId := call.id
  name := some call.name

section

variable (T : Texts)

/-- A reply without its truncated calls, with a note in its text. -/
def AIMessage.truncated (m : AIMessage) : AIMessage :=
  { m with
    content := .str ("\n\n".intercalate
      ([Agent.strip (T.messageText m.content), truncatedToolCallNote].filter (· ≠ "")))
    invalidToolCalls := [] }

/-- A message without truncated calls. -/
def Message.repaired : Message → Message
  | .ai m => if m.invalidToolCalls ≠ [] then .ai (m.truncated T) else .ai m
  | m => m

/-- One round of the loop of `repaired_messages`: what was written so far, and how many messages
were added or changed. -/
def repairMessage (answered : List String) : List Message × ℕ → Message → List Message × ℕ
  | (out, added), .ai m =>
      let (m, added) := if m.invalidToolCalls ≠ [] then (m.truncated T, added + 1) else (m, added)
      m.toolCalls.foldl
        (fun (out, added) call =>
          if call.id ∈ answered then (out, added) else (out ++ [.tool (cancelled call)], added + 1))
        (out ++ [.ai m], added)
  | (out, added), m => (out ++ [m], added)

/-- `repaired_messages`: the thread in which each call is answered, and how many messages were added
or changed. -/
def repairedMessages (messages : List Message) : List Message × ℕ :=
  messages.foldl (repairMessage T (messages.filterMap Message.answer?)) ([], 0)

end

/-! ### `repair_dangling_tool_calls` -/

/-- What is written to a thread: messages at its end, or, after
`RemoveMessage(REMOVE_ALL_MESSAGES)`, messages in the place of all others. -/
inductive Update
  | append (messages : List Message)
  | rewrite (messages : List Message)
  deriving DecidableEq

/-- Messages are given ids where they have none. -/
def assigned (uuid : ℕ → String) (messages : List Message) : List Message :=
  messages.mapIdx fun i m => if m.id? = none then m.withId (uuid i) else m

/-- A message takes the place of the one with its id, or goes to the end. -/
def merged (messages : List Message) (m : Message) : List Message :=
  if messages.any fun n => n.id? = m.id? then messages.map fun n => if n.id? = m.id? then m else n
  else messages ++ [m]

/-- `add_messages`. -/
def addMessages (uuid : ℕ → String) (messages : List Message) : Update → List Message
  | .append update => (assigned uuid update).foldl merged messages
  | .rewrite update => assigned uuid update

/-- What `repair_dangling_tool_calls` writes to a thread, if anything. -/
def repairUpdate (T : Texts) (messages : List Message) : Option Update :=
  if messages = [] then none
  else
    let (fixed, added) := repairedMessages T messages
    if added = 0 then none
    else if fixed.take messages.length = messages then some (.append (fixed.drop messages.length))
    else some (.rewrite fixed)

/-- `repair_dangling_tool_calls`: the thread after it. -/
def repairDanglingToolCalls (T : Texts) (uuid : ℕ → String) (messages : List Message) :
    List Message :=
  match repairUpdate T messages with
  | some update => addMessages uuid messages update
  | none => messages

/-! ### What is shown -/

/-- The ids of the calls that the messages of a thread answer. -/
def answers (messages : List Message) : List String :=
  messages.filterMap Message.answer?

/-- The calls that no message of the thread answers. -/
def unanswered (answered : List String) (calls : List Call) : List Call :=
  calls.filter fun call => call.id ∉ answered

/-- The answers at the beginning of a thread, before any other message. -/
def block : List Message → List String
  | .tool m :: messages => m.toolCallId :: block messages
  | _ => []

/-- What is said of the calls of each message and the answers right after it. -/
def EachReply (P : List Call → List String → Prop) : List Message → Prop
  | [] => True
  | m :: messages => P m.calls (block messages) ∧ EachReply P messages

/-- Every call is answered right after its reply. -/
def Answered : List Message → Prop :=
  EachReply fun calls ids => ∀ call ∈ calls, call.id ∈ ids

/-- Every call is answered once right after its reply. -/
def AnsweredOnce : List Message → Prop :=
  EachReply fun calls ids => ∀ call ∈ calls, ids.count call.id = 1

/-- Every call with an id that a message of the thread answers is answered right after its reply. -/
def Settled (messages : List Message) : Prop :=
  EachReply (fun calls ids => ∀ call ∈ calls, call.id ∈ answers messages → call.id ∈ ids) messages

/-- No reply has truncated calls. -/
def Untruncated (messages : List Message) : Prop :=
  ∀ m, .ai m ∈ messages → m.invalidToolCalls = []

/-- The messages of a thread, as `add_messages` keeps them, with ids for those without. -/
def Stored (messages stored : List Message) : Prop :=
  List.Forall₂ (fun m m' => m' = m ∨ m.id? = none ∧ ∃ id, m' = m.withId id) messages stored

/-- Two lists, interleaved. -/
inductive Interleaved {α : Type} : List α → List α → List α → Prop
  | nil : Interleaved [] [] []
  | left {xs ys zs : List α} (x : α) (h : Interleaved xs ys zs) : Interleaved (x :: xs) ys (x :: zs)
  | right {xs ys zs : List α} (y : α) (h : Interleaved xs ys zs) :
      Interleaved xs (y :: ys) (y :: zs)

/-! ### What the loop writes -/

variable {T : Texts}

/-- The answers that are added after a message. -/
def pending (answered : List String) (m : Message) : List Message :=
  (unanswered answered m.calls).map fun call => .tool (cancelled call)

/-- Whether a message is changed, as a number. -/
def truncations : Message → ℕ
  | .ai m => if m.invalidToolCalls ≠ [] then 1 else 0
  | _ => 0

/-- How many messages are added after a message, and one more if it is changed. -/
def changes (answered : List String) (m : Message) : ℕ :=
  truncations m + (pending answered m).length

/-- The messages, each followed by the answers that are added after it. -/
def repairedWith (T : Texts) (answered : List String) (messages : List Message) : List Message :=
  messages.flatMap fun m => m.repaired T :: pending answered m

theorem calls_repaired (T : Texts) (m : Message) :
  (m.repaired T).calls = m.calls
  := by
  cases m with
  | ai m =>
      rw [Message.repaired]
      split <;> rfl
  | _ => rfl

theorem answer_repaired (T : Texts) (m : Message) :
  (m.repaired T).answer? = m.answer?
  := by
  cases m with
  | ai m =>
      rw [Message.repaired]
      split <;> rfl
  | _ => rfl

theorem id_repaired (T : Texts) (m : Message) :
  (m.repaired T).id? = m.id?
  := by
  cases m with
  | ai m =>
      rw [Message.repaired]
      split <;> rfl
  | _ => rfl

theorem foldl_pending (answered : List String) (calls : List Call) (out : List Message) (added : ℕ) :
  calls.foldl
      (fun (out, added) call =>
        if call.id ∈ answered then (out, added) else (out ++ [.tool (cancelled call)], added + 1))
      (out, added) =
    (out ++ (unanswered answered calls).map (fun call => .tool (cancelled call)),
      added + (unanswered answered calls).length)
  := by
  induction calls generalizing out added with
  | nil => simp [unanswered]
  | cons call calls ih =>
      rw [List.foldl_cons]
      dsimp only
      split
      · rename_i h
        rw [ih, unanswered, unanswered, List.filter_cons_of_neg (by simpa using h)]
      · rename_i h
        rw [ih, unanswered, unanswered, List.filter_cons_of_pos (by simpa using h), List.map_cons,
          List.length_cons, List.append_assoc, List.singleton_append, Nat.add_assoc,
          Nat.add_comm 1]

theorem repairMessage_eq (T : Texts) (answered : List String) (out : List Message) (added : ℕ)
    (m : Message) :
  repairMessage T answered (out, added) m =
    (out ++ m.repaired T :: pending answered m, added + changes answered m)
  := by
  cases m with
  | ai m =>
      rw [repairMessage, Message.repaired, changes, truncations, pending, List.length_map,
        ← Nat.add_assoc]
      by_cases h : m.invalidToolCalls ≠ []
      · rw [if_pos h, if_pos h, if_pos h]
        dsimp only
        rw [foldl_pending, List.append_assoc, List.singleton_append]
        rfl
      · rw [if_neg h, if_neg h, if_neg h]
        dsimp only
        rw [foldl_pending, List.append_assoc, List.singleton_append]
        rfl
  | _ => rfl

/-- What `repaired_messages` returns. -/
theorem repairedMessages_eq (T : Texts) (messages : List Message) :
  repairedMessages T messages =
    (repairedWith T (answers messages) messages,
      (messages.map (changes (answers messages))).sum)
  := by
  have hfold : ∀ (answered : List String) (messages out : List Message) (added : ℕ),
      messages.foldl (repairMessage T answered) (out, added) =
        (out ++ repairedWith T answered messages,
          added + (messages.map (changes answered)).sum) := by
    intro answered messages
    induction messages with
    | nil =>
        intro out added
        rw [repairedWith]
        simp
    | cons m messages ih =>
        intro out added
        rw [List.foldl_cons, repairMessage_eq, ih, repairedWith, repairedWith, List.flatMap_cons,
          List.map_cons, List.sum_cons, List.append_assoc, Nat.add_assoc]
  rw [repairedMessages, hfold, List.nil_append, Nat.zero_add]
  rfl

/-! ### Blocks and answers -/

theorem mem_answers {messages : List Message} {m : ToolMessage} (h : .tool m ∈ messages) :
  m.toolCallId ∈ answers messages
  := List.mem_filterMap.mpr ⟨_, h, rfl⟩

theorem answers_append (messages messages' : List Message) :
  answers (messages ++ messages') = answers messages ++ answers messages'
  := List.filterMap_append

/-- Added answers are at the beginning of a block. -/
theorem block_added (calls : List Call) (messages : List Message) :
  block (calls.map (fun call => .tool (cancelled call)) ++ messages) =
    calls.map Call.id ++ block messages
  := by
  induction calls with
  | nil => rfl
  | cons call calls ih =>
      rw [List.map_cons, List.cons_append, block, ih]
      rfl

/-- The answers right after a reply are those of before. -/
theorem block_repairedWith (T : Texts) (answered : List String) (messages : List Message) :
  block (repairedWith T answered messages) = block messages
  := by
  induction messages with
  | nil => rfl
  | cons m messages ih =>
      rw [repairedWith, List.flatMap_cons]
      cases m with
      | tool m =>
          change m.toolCallId :: block (repairedWith T answered messages) = _
          rw [ih]
          rfl
      | ai m =>
          rw [Message.repaired]
          split <;> rfl
      | other type content id => rfl

theorem block_sublist (messages : List Message) :
  (block messages).Sublist (answers messages)
  := by
  induction messages with
  | nil => apply List.Sublist.refl
  | cons m messages ih =>
      cases m with
      | tool m =>
          apply List.Sublist.cons_cons _ ih
      | _ => apply List.nil_sublist

/-! ### Replies -/

theorem EachReply.imp {P Q : List Call → List String → Prop} (hPQ : ∀ calls ids, P calls ids → Q calls ids)
    {messages : List Message} (h : EachReply P messages) :
  EachReply Q messages
  := by
  induction messages with
  | nil => trivial
  | cons m messages ih => exact ⟨hPQ _ _ h.1, ih h.2⟩

theorem eachReply_congr {P Q : List Call → List String → Prop}
    (hPQ : ∀ calls ids, P calls ids ↔ Q calls ids) {messages : List Message} :
  EachReply P messages ↔ EachReply Q messages
  := ⟨EachReply.imp fun _ _ => (hPQ _ _).mp, EachReply.imp fun _ _ => (hPQ _ _).mpr⟩

/-- Messages without calls need no answers. -/
theorem eachReply_append {P : List Call → List String → Prop} (hP : ∀ ids, P [] ids)
    {added : List Message} (h : ∀ m ∈ added, m.calls = []) (messages : List Message) :
  EachReply P (added ++ messages) ↔ EachReply P messages
  := by
  induction added with
  | nil => rfl
  | cons m added ih =>
      rw [List.cons_append, EachReply, ih fun m' hm' => h m' (List.mem_cons_of_mem _ hm'),
        h m List.mem_cons_self]
      exact ⟨fun h' => h'.2, fun h' => ⟨hP _, h'⟩⟩

theorem calls_pending {answered : List String} {m m' : Message} (h : m' ∈ pending answered m) :
  m'.calls = []
  := by
  obtain ⟨call, -, rfl⟩ := List.mem_map.mp h
  rfl

/-- In the repaired thread a reply is followed by the answers that were added, and those of before.
-/
theorem eachReply_repairedWith {P : List Call → List String → Prop} (hP : ∀ ids, P [] ids)
    (T : Texts) (answered : List String) (messages : List Message) :
  EachReply P (repairedWith T answered messages) ↔
    EachReply (fun calls ids => P calls ((unanswered answered calls).map Call.id ++ ids)) messages
  := by
  induction messages with
  | nil => rfl
  | cons m messages ih =>
      rw [repairedWith, List.flatMap_cons, List.cons_append, EachReply, EachReply,
        ← repairedWith, eachReply_append hP fun _ => calls_pending, ih, calls_repaired, pending,
        block_added, block_repairedWith]

/-- Every call of the repaired thread is answered exactly if those are that a message of the thread
answers. -/
theorem answered_iff_settled (T : Texts) (messages : List Message) :
  Answered (repairedMessages T messages).1 ↔ Settled messages
  := by
  rw [repairedMessages_eq, Answered, eachReply_repairedWith]
  · apply eachReply_congr
    intro calls ids
    apply forall₂_congr
    intro call hcall
    rw [List.mem_append]
    constructor
    · rintro (hadded | hids) ha
      · obtain ⟨call', hcall', hid⟩ := List.mem_map.mp hadded
        apply absurd ha
        rw [← hid]
        simpa using (List.mem_filter.mp hcall').2
      · apply hids
    · intro hids
      by_cases ha : call.id ∈ answers messages
      · exact .inr (hids ha)
      · left
        apply List.mem_map_of_mem
        apply List.mem_filter.mpr ⟨hcall, by simpa using ha⟩
  · intro ids call hcall
    contradiction

/-! ### Clean threads -/

/-- Nothing is changed of a message, and no answer is added. -/
def Clean (answered : List String) (m : Message) : Prop :=
  (∀ reply, m = .ai reply → reply.invalidToolCalls = []) ∧ ∀ call ∈ m.calls, call.id ∈ answered

theorem repaired_of_clean {answered : List String} {m : Message} (h : Clean answered m) :
  m.repaired T = m
  := by
  cases m with
  | ai m =>
      rw [Message.repaired, if_neg]
      rw [not_not]
      apply h.1 m rfl
  | _ => rfl

theorem unanswered_eq_nil_iff {answered : List String} {calls : List Call} :
  unanswered answered calls = [] ↔ ∀ call ∈ calls, call.id ∈ answered
  := by simp [unanswered]

theorem pending_of_clean {answered : List String} {m : Message} (h : Clean answered m) :
  pending answered m = []
  := by rw [pending, unanswered_eq_nil_iff.mpr h.2, List.map_nil]

theorem changes_eq_zero_iff {answered : List String} {m : Message} :
  changes answered m = 0 ↔ Clean answered m
  := by
  rw [changes, Nat.add_eq_zero_iff, Clean, List.length_eq_zero_iff, pending, List.map_eq_nil_iff,
    unanswered_eq_nil_iff]
  apply and_congr_left'
  cases m with
  | ai m => simp [truncations]
  | _ => simp [truncations]

/-- Nothing is written to a clean thread. -/
theorem repairedWith_of_clean {answered : List String} {messages : List Message}
    (h : ∀ m ∈ messages, Clean answered m) :
  repairedWith T answered messages = messages
  := by
  induction messages with
  | nil => rfl
  | cons m messages ih =>
      rw [repairedWith, List.flatMap_cons, ← repairedWith,
        ih fun m' hm' => h m' (List.mem_cons_of_mem _ hm'),
        repaired_of_clean (h m List.mem_cons_self), pending_of_clean (h m List.mem_cons_self)]
      rfl

theorem sum_changes_eq_zero_iff {answered : List String} {messages : List Message} :
  (messages.map (changes answered)).sum = 0 ↔ ∀ m ∈ messages, Clean answered m
  := by
  rw [List.sum_eq_zero_iff_forall_eq_nat]
  simp only [List.mem_map, forall_exists_index, and_imp, forall_apply_eq_imp_iff₂,
    changes_eq_zero_iff]

theorem repairedMessages_of_clean {messages : List Message}
    (h : ∀ m ∈ messages, Clean (answers messages) m) :
  repairedMessages T messages = (messages, 0)
  := by
  rw [repairedMessages_eq, repairedWith_of_clean h, sum_changes_eq_zero_iff.mpr h]

/-- A message of the repaired thread is one of before, repaired, or an answer that was added. -/
theorem mem_repairedWith {answered : List String} {messages : List Message} {m' : Message} :
  m' ∈ repairedWith T answered messages ↔
    ∃ m ∈ messages, m' = m.repaired T ∨ m' ∈ pending answered m
  := by
  rw [repairedWith, List.mem_flatMap]
  simp only [List.mem_cons]

theorem untruncated_repaired {m : Message} {reply : AIMessage} (h : m.repaired T = .ai reply) :
  reply.invalidToolCalls = []
  := by
  cases m with
  | ai m =>
      rw [Message.repaired] at h
      split at h
      · rw [← Message.ai.inj h]
        rfl
      · rename_i hm
        rw [← Message.ai.inj h]
        apply not_not.mp hm
  | _ => contradiction

/-- The answers of the thread are still there, and those that were missing are too. -/
theorem mem_answers_repairedWith {messages : List Message} {answered : List String} {m : Message}
    (hm : m ∈ messages) {call : Call} (hcall : call ∈ m.calls)
    (ha : ∀ id ∈ answered, id ∈ answers messages) :
  call.id ∈ answers (repairedWith T answered messages)
  := by
  by_cases hid : call.id ∈ answered
  · obtain ⟨m', hm', hanswer⟩ := List.mem_filterMap.mp (ha _ hid)
    apply List.mem_filterMap.mpr ⟨m'.repaired T, mem_repairedWith.mpr ⟨m', hm', .inl rfl⟩, _⟩
    rw [answer_repaired, hanswer]
  · have hadded : .tool (cancelled call) ∈ repairedWith T answered messages := by
      apply mem_repairedWith.mpr ⟨m, hm, .inr _⟩
      apply List.mem_map_of_mem
      apply List.mem_filter.mpr ⟨hcall, by simpa using hid⟩
    apply mem_answers hadded

/-- The repaired thread is clean. -/
theorem clean_repairedWith (T : Texts) (messages : List Message) :
  ∀ m ∈ repairedWith T (answers messages) messages,
    Clean (answers (repairedWith T (answers messages) messages)) m
  := by
  intro m' hm'
  obtain ⟨m, hm, rfl | hadded⟩ := mem_repairedWith.mp hm'
  · constructor
    · intro reply h
      apply untruncated_repaired h
    · intro call hcall
      rw [calls_repaired] at hcall
      apply mem_answers_repairedWith hm hcall fun _ => id
  · obtain ⟨call, -, rfl⟩ := List.mem_map.mp hadded
    constructor
    · intro reply h
      contradiction
    · intro call' hcall
      contradiction

/-- A second repair changes nothing. -/
theorem repairedMessages_idem (T : Texts) (messages : List Message) :
  repairedMessages T (repairedMessages T messages).1 = ((repairedMessages T messages).1, 0)
  := by
  rw [repairedMessages_eq T messages]
  apply repairedMessages_of_clean
  apply clean_repairedWith

/-- The count is `0` exactly if nothing is changed. -/
theorem repairedMessages_count (T : Texts) (messages : List Message) :
  (repairedMessages T messages).2 = 0 ↔ (repairedMessages T messages).1 = messages
  := by
  rw [repairedMessages_eq]
  dsimp only
  rw [sum_changes_eq_zero_iff]
  constructor
  · apply repairedWith_of_clean
  · intro h
    have hclean := clean_repairedWith T messages
    rwa [h] at hclean

/-! ### The transformation -/

/-- The tool calls of a thread have different ids, and a call that is answered is answered by one
message, which is in the block right after its reply. -/
structure InPlace (messages : List Message) : Prop where
  distinct : ((messages.flatMap Message.calls).map Call.id).Nodup
  placed : Settled messages
  single : ∀ call ∈ messages.flatMap Message.calls, (answers messages).count call.id ≤ 1

theorem Interleaved.append_right {xs ys zs : List Message} (h : Interleaved xs ys zs)
    (added : List Message) :
  Interleaved xs (added ++ ys) (added ++ zs)
  := by
  induction added with
  | nil => apply h
  | cons m added ih => apply Interleaved.right m ih

/-- The answers are added to the repaired messages, one for each call without an answer. -/
theorem interleaved_repairedWith (T : Texts) (answered : List String) (messages : List Message) :
  Interleaved (messages.map (Message.repaired T))
    ((unanswered answered (messages.flatMap Message.calls)).map fun call => .tool (cancelled call))
    (repairedWith T answered messages)
  := by
  induction messages with
  | nil => exact .nil
  | cons m messages ih =>
      rw [List.map_cons, List.flatMap_cons, unanswered, List.filter_append, List.map_append,
        repairedWith, List.flatMap_cons, ← repairedWith]
      exact .left _ (ih.append_right _)

/-- A call is answered once, by the answer that is added or by the one of before. -/
theorem count_unanswered {answered ids : List String} {calls : List Call}
    (hn : (calls.map Call.id).Nodup) (hids : ∀ id ∈ ids, id ∈ answered) {call : Call}
    (hcall : call ∈ calls) (hplaced : call.id ∈ answered → call.id ∈ ids)
    (hsingle : ids.count call.id ≤ 1) :
  ((unanswered answered calls).map Call.id ++ ids).count call.id = 1
  := by
  rw [List.count_append]
  by_cases ha : call.id ∈ answered
  · have hzero : ((unanswered answered calls).map Call.id).count call.id = 0 := by
      apply List.count_eq_zero.mpr
      intro hmem
      obtain ⟨call', hcall', hid⟩ := List.mem_map.mp hmem
      apply absurd ha
      rw [← hid]
      simpa using (List.mem_filter.mp hcall').2
    have hpos := List.count_pos_iff.mpr (hplaced ha)
    omega
  · have hzero : ids.count call.id = 0 := List.count_eq_zero.mpr fun hmem => ha (hids _ hmem)
    have hone : ((unanswered answered calls).map Call.id).count call.id = 1 := by
      apply List.count_eq_one_of_mem
      · apply hn.sublist (List.filter_sublist.map Call.id)
      · apply List.mem_map_of_mem
        apply List.mem_filter.mpr ⟨hcall, by simpa using ha⟩
    omega

theorem answeredOnce_repairedWith (T : Texts) {answered : List String} {messages : List Message}
    (hdistinct : ((messages.flatMap Message.calls).map Call.id).Nodup)
    (hplaced : EachReply (fun calls ids => ∀ call ∈ calls, call.id ∈ answered → call.id ∈ ids)
      messages)
    (hsingle : ∀ call ∈ messages.flatMap Message.calls, (answers messages).count call.id ≤ 1)
    (hanswers : ∀ id ∈ answers messages, id ∈ answered) :
  AnsweredOnce (repairedWith T answered messages)
  := by
  rw [AnsweredOnce, eachReply_repairedWith]
  · induction messages with
    | nil => trivial
    | cons m messages ih =>
        rw [List.flatMap_cons, List.map_append, List.nodup_append] at hdistinct
        have hsub : (answers messages).Sublist (answers (m :: messages)) :=
          (List.sublist_cons_self m messages).filterMap Message.answer?
        constructor
        · intro call hcall
          apply count_unanswered hdistinct.1 _ hcall (hplaced.1 call hcall)
          · apply ((block_sublist messages).trans hsub).count_le _ |>.trans
            apply hsingle call (List.mem_flatMap.mpr ⟨m, List.mem_cons_self, hcall⟩)
          · intro id hid
            apply hanswers id (hsub.subset ((block_sublist messages).subset hid))
        · apply ih hdistinct.2.1 hplaced.2
          · intro call hcall
            apply (hsub.count_le _).trans
            apply hsingle
            rw [List.flatMap_cons]
            apply List.mem_append_right _ hcall
          · intro id hid
            apply hanswers id (hsub.subset hid)
  · intro ids call hcall
    contradiction

/-- **What `repaired_messages` does to a thread** whose answers are in place: the messages, where a
reply with truncated calls has a note instead, stay in their order, and between them an answer is
added for each call that had none; each call is answered once right after its reply; nothing is left
for a second repair; and nothing is counted exactly if nothing is changed. -/
theorem repairedMessages_inPlace (T : Texts) {messages : List Message} (h : InPlace messages) :
  Interleaved (messages.map (Message.repaired T))
      ((unanswered (answers messages) (messages.flatMap Message.calls)).map
        fun call => .tool (cancelled call))
      (repairedMessages T messages).1 ∧
    AnsweredOnce (repairedMessages T messages).1 ∧
    repairedMessages T (repairedMessages T messages).1 = ((repairedMessages T messages).1, 0) ∧
    ((repairedMessages T messages).2 = 0 ↔ (repairedMessages T messages).1 = messages)
  := by
  refine ⟨?_, ?_, repairedMessages_idem T messages, repairedMessages_count T messages⟩
  · rw [repairedMessages_eq]
    apply interleaved_repairedWith
  · rw [repairedMessages_eq]
    apply answeredOnce_repairedWith T h.distinct h.placed h.single fun _ => id

/-- A thread with a call that is answered, one that is not, and one that was truncated. -/
def sample : List Message :=
  [.other "human" (.str "hi") (some "h1"),
    .ai {
      content := .str "thinking…"
      toolCalls := [{ name := "probe", id := "c1" }, { name := "probe", id := "c2" }]
      invalidToolCalls := [⟨some "task", some "\x7b", some "c3", some "EOF"⟩]
      id := some "a1" },
    .tool { content := .str "ok", toolCallId := "c1", id := some "t1" },
    .other "human" (.str "next") (some "h2")]

/-- Texts for the sample, which has no content but strings. -/
def sampleTexts : Texts :=
  ⟨fun _ => "", fun _ => "", fun _ => none⟩

theorem inPlace_sample :
  InPlace sample
  := by
  constructor
  · decide
  · simp [Settled, sample, EachReply, answers, block, Message.calls, Message.answer?]
  · decide

theorem repairedMessages_inPlace_sample :
  InPlace sample ∧ AnsweredOnce (repairedMessages sampleTexts sample).1
  := ⟨inPlace_sample, (repairedMessages_inPlace sampleTexts inPlace_sample).2.1⟩

end Runner.History
