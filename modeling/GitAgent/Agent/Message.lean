import GitAgent.Library.Json

/-!
# Messages of a thread

The messages that an agent exchanges with its model and its tools, as far as the middleware
reads them, and the copies of a reply from which calls of tools are removed
(`core/middleware/_common.py`).
-/

namespace Agent

/-- A call of a tool, in a reply of the model. -/
structure ToolCall where
  name : String
  args : Json.Fields := []
  id : Option String

/-- The tokens that a call of the model used. -/
structure Usage where
  inputTokens : ℤ
  outputTokens : ℤ
  totalTokens : ℤ
  deriving DecidableEq, Repr

/-- A call of a tool that could not be read. -/
structure InvalidToolCall where
  name : Option String
  args : Option String
  id : Option String
  error : Option String
  deriving DecidableEq, Repr

/-- A reply of the model. The content is a text or a list of blocks. -/
structure AIMessage where
  content : Json := .str ""
  toolCalls : List ToolCall := []
  invalidToolCalls : List InvalidToolCall := []
  name : Option String := none
  additionalKwargs : Json.Fields := []
  responseMetadata : Json.Fields := []
  id : Option String := none
  usage : Option Usage := none

/-- The answer of a tool. -/
structure ToolMessage where
  content : Json := .str ""
  name : String := ""
  toolCallId : String
  status : String := "success"
  additionalKwargs : Json.Fields := []
  id : Option String := none

/-- A message of a thread. -/
inductive Message
  | system (content : Json)
  | human (content : Json)
  | ai (m : AIMessage)
  | tool (m : ToolMessage)

/-- The reply that a message is. -/
def Message.ai? : Message → Option AIMessage
  | ai m => some m
  | _ => none

/-- The answer of a tool that a message is. -/
def Message.tool? : Message → Option ToolMessage
  | tool m => some m
  | _ => none

/-- The last message, if it is a reply. -/
def lastReply (messages : List Message) : Option AIMessage :=
  messages.getLast?.bind Message.ai?

/-- The replies among the messages of a thread. -/
def repliesOf (messages : List Message) : List AIMessage :=
  messages.filterMap Message.ai?

/-- The id of a message, as far as the middleware gives and removes ids. -/
def Message.id? : Message → Option String
  | ai m => m.id
  | tool m => m.id
  | _ => none

/-! ### The messages of a thread -/

/-- `add_messages`, for one message: it takes the place of the message with its id, or goes to
the end. -/
def addMessage (messages : List Message) (m : Message) : List Message :=
  if m.id?.isSome ∧ messages.any fun n => n.id? = m.id? then
    messages.map fun n => if n.id? = m.id? then m else n
  else messages ++ [m]

/-- `add_messages`, for a `RemoveMessage`. -/
def removeMessage (messages : List Message) (id : Option String) : List Message :=
  messages.filter fun n => n.id? ≠ id

/-- The message is in the thread, with only messages that were there before. -/
theorem mem_addMessage {messages : List Message} {m n : Message} :
  n ∈ addMessage messages m → n ∈ messages ∨ n = m
  := by
  rw [addMessage]
  split
  · rw [List.mem_map]
    rintro ⟨n', hn', rfl⟩
    split
    · exact .inr rfl
    · exact .inl hn'
  · rw [List.mem_append, List.mem_singleton]
    apply id

theorem self_mem_addMessage (messages : List Message) (m : Message) :
  m ∈ addMessage messages m
  := by
  rw [addMessage]
  split
  · rename_i h
    obtain ⟨n, hn, hid⟩ := List.any_eq_true.mp h.2
    rw [List.mem_map]
    use n, hn
    rw [if_pos (of_decide_eq_true hid)]
  · simp

/-- The last message, if it is a reply, after a reply went to the thread: the last one of before,
or the reply. -/
theorem lastReply_addMessage {messages : List Message} {m last : AIMessage}
    (h : lastReply (addMessage messages (.ai m)) = some last) :
  lastReply messages = some last ∨ last = m
  := by
  rw [addMessage] at h
  split at h
  · rw [lastReply, List.getLast?_map, Option.bind_eq_some_iff] at h
    obtain ⟨n, hn, hlast⟩ := h
    obtain ⟨n', hn', rfl⟩ := Option.map_eq_some_iff.mp hn
    split at hlast
    · exact .inr (Option.some.inj hlast).symm
    · left
      rw [lastReply, hn']
      apply hlast
  · rw [lastReply, List.getLast?_concat] at h
    exact .inr (Option.some.inj h).symm

/-- A reply with the id of the last message takes its place. -/
theorem lastReply_addMessage_of_id {messages : List Message} {m last : AIMessage}
    (h : lastReply messages = some last) (hid : last.id.isSome) (he : m.id = last.id) :
  lastReply (addMessage messages (.ai m)) = some m
  := by
  obtain ⟨n, hn, hlast⟩ := Option.bind_eq_some_iff.mp h
  have hn' : n = .ai last := by
    cases n with
    | ai n => rw [Option.some.inj hlast]
    | _ => contradiction
  subst hn'
  have hm : Message.id? (.ai last) = Message.id? (.ai m) := he.symm
  have hany : messages.any (fun n => n.id? = Message.id? (.ai m)) = true :=
    List.any_eq_true.mpr ⟨_, List.mem_of_getLast? hn, decide_eq_true hm⟩
  rw [addMessage, if_pos ⟨by rw [← hm]; exact hid, hany⟩, lastReply, List.getLast?_map, hn,
    Option.map_some, if_pos hm]
  rfl

/-! ### The text of a reply -/

/-- The text of a content: the text itself, or the text blocks one after the other. -/
def text : Json → String
  | .str s => s
  | .arr blocks => String.join (blocks.map fun
      | .str s => s
      | .obj block =>
          match Json.get block "type", Json.get block "text" with
          | some (.str "text"), some (.str s) => s
          | _, _ => ""
      | _ => "")
  | _ => ""

/-- Whether a character is a blank for `strip`. -/
def isSpace (c : Char) : Bool :=
  ('\t' ≤ c && c ≤ '\r') || ('\x1c' ≤ c && c ≤ ' ') || c = '\u0085' || c = '\u00a0' ||
    c = '\u1680' || ('\u2000' ≤ c && c ≤ '\u200a') || c = '\u2028' || c = '\u2029' ||
    c = '\u202f' || c = '\u205f' || c = '\u3000'

/-- Whether nothing is left of a text after `strip`. -/
def isBlank (s : String) : Bool :=
  s.toList.all isSpace

/-! ### Copies of a reply -/

/-- The object without the field `k`. -/
def pop (d : Json.Fields) (k : String) : Json.Fields :=
  d.filter fun f => f.1 ≠ k

/-- The object in which the field `k` has the value `v`. -/
def set (d : Json.Fields) (k : String) (v : Json) : Json.Fields :=
  if (Json.get d k).isSome then d.map fun f => if f.1 = k then (k, v) else f else d ++ [(k, v)]

/-- The field that is set has its value. -/
theorem get_set (d : Json.Fields) (k : String) (v : Json) :
  Json.get (set d k v) k = some v
  := by
  rw [set]
  split
  · rename_i h
    induction d with
    | nil => contradiction
    | cons f d ih =>
        obtain ⟨k', v'⟩ := f
        rw [List.map_cons]
        by_cases e : k' = k
        · rw [if_pos e, Json.get_cons, if_pos rfl]
        · have e' : ¬ k = k' := fun hk => e hk.symm
          rw [if_neg e, Json.get_cons, if_neg e']
          apply ih
          rwa [Json.get_cons, if_neg e'] at h
  · rename_i h
    rw [Option.not_isSome_iff_eq_none] at h
    rw [Json.get, List.lookup_append, show d.lookup k = none from h, Option.none_or]
    simp

/-- The other fields are as before when one is set. -/
theorem get_set_of_ne (d : Json.Fields) {k k' : String} (v : Json) (h : k' ≠ k) :
  Json.get (set d k v) k' = Json.get d k'
  := by
  rw [set]
  split
  · clear * - h
    induction d with
    | nil => rfl
    | cons f d ih =>
        obtain ⟨k₀, v₀⟩ := f
        rw [List.map_cons, Json.get_cons k' k₀ v₀ d, ← ih]
        by_cases e : k₀ = k
        · subst e
          rw [if_pos rfl, Json.get_cons, if_neg h, if_neg h]
        · rw [if_neg e, Json.get_cons]
  · rw [Json.get, List.lookup_append, List.lookup_cons, List.lookup_nil, beq_false_of_ne h]
    apply Option.or_none

/-- The other fields are as before when one is removed. -/
theorem get_pop (d : Json.Fields) (k k' : String) :
  Json.get (pop d k) k' = if k' = k then none else Json.get d k'
  := by
  induction d with
  | nil => simp [pop]
  | cons f d ih =>
      obtain ⟨k₀, v₀⟩ := f
      by_cases e : k₀ = k
      · subst e
        rw [pop, List.filter_cons_of_neg (by simp), Json.get_cons]
        by_cases e' : k' = k₀
        · rw [if_pos e'] at ih ⊢
          apply ih
        · rw [if_neg e'] at ih ⊢
          rw [if_neg e']
          apply ih
      · rw [pop, List.filter_cons_of_pos (by simpa using e), Json.get_cons, Json.get_cons,
          show Json.get (d.filter fun f => f.1 ≠ k) k' = _ from ih]
        by_cases e' : k' = k₀
        · subst e'
          rw [if_pos rfl, if_pos rfl, if_neg e]
        · rw [if_neg e', if_neg e']

/-- The id of a call as the provider wrote it. Only a text or no id can be among the ids. -/
def rawId (call : Json) : Option (Option String) :=
  match call with
  | .obj fields =>
      match Json.get fields "id" with
      | none | some .null => some none
      | some (.str id) => some (some id)
      | _ => none
  | _ => none

/-- `_TOTAL_LIMIT_STOP_MSG`. -/
def totalLimitStopMsg : String :=
  "\n\n[SUBAGENT LIMIT REACHED] The delegation budget for this run is exhausted; further " ++
    "\x60task\x60 calls were removed. Synthesize the final answer from the results already " ++
    "collected."

instance lawfulBEq_id : LawfulBEq (Option String) :=
  inferInstance

namespace AIMessage

/-- `clone_ai_message_with_tool_calls`: the reply with the calls whose ids are among `keptIds`.
The copy has no name, and does not say what tokens were used or what calls could not be read. -/
def cloneWithToolCalls (message : AIMessage) (keptIds : List (Option String))
    (stopNote : Option String) : AIMessage :=
  let keptCalls := message.toolCalls.filter fun c => c.id ∈ keptIds
  let kwargs :=
    match Json.get message.additionalKwargs "tool_calls" with
    | some (.arr raw) =>
        match raw.filter fun c => (rawId c).any (· ∈ keptIds) with
        | [] => pop message.additionalKwargs "tool_calls"
        | filtered => set message.additionalKwargs "tool_calls" (.arr filtered)
    | _ => message.additionalKwargs
  let metadata := message.responseMetadata
  { content :=
      match message.content with
      | .str s =>
          if keptCalls.isEmpty ∧ keptIds.dedup.length < message.toolCalls.length then
            .str (s ++ stopNote.getD totalLimitStopMsg)
          else .str s
      | content => content
    toolCalls := keptCalls
    additionalKwargs := if keptCalls.isEmpty then pop kwargs "function_call" else kwargs
    responseMetadata :=
      if keptCalls.isEmpty ∧ Json.asString (Json.get metadata "finish_reason") = "tool_calls" then
        set metadata "finish_reason" (.str "stop")
      else metadata
    id := message.id }

/-- `strip_all_tool_calls`. -/
def stripAllToolCalls (message : AIMessage) (stopNote : String) : AIMessage :=
  message.cloneWithToolCalls [] (some stopNote)

@[simp]
theorem toolCalls_cloneWithToolCalls (message : AIMessage) (keptIds : List (Option String))
    (stopNote : Option String) :
  (message.cloneWithToolCalls keptIds stopNote).toolCalls =
    message.toolCalls.filter fun c => c.id ∈ keptIds
  := rfl

@[simp]
theorem id_cloneWithToolCalls (message : AIMessage) (keptIds : List (Option String))
    (stopNote : Option String) :
  (message.cloneWithToolCalls keptIds stopNote).id = message.id
  := rfl

@[simp]
theorem usage_cloneWithToolCalls (message : AIMessage) (keptIds : List (Option String))
    (stopNote : Option String) :
  (message.cloneWithToolCalls keptIds stopNote).usage = none
  := rfl

/-- A hard stop leaves no call. -/
@[simp]
theorem toolCalls_stripAllToolCalls (message : AIMessage) (stopNote : String) :
  (message.stripAllToolCalls stopNote).toolCalls = []
  := by simp [stripAllToolCalls]

end AIMessage

end Agent
