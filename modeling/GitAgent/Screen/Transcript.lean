import GitAgent.Agent.FoldBack
import GitAgent.Agent.Executor
import GitAgent.Screen.Chat

/-!
# What a turn of the chat leaves behind

The chunks of a turn of the chat are shown live (`chat_events` in `infra/server/runner_api.py`) and
collected for the transcript (`chat` in `core/runner/service.py`). What the transcript holds of a
turn that has finished is the replies that were shown, joined by empty lines; a turn that has failed
leaves its error instead, and one that was cancelled only the message of the user.
-/

namespace Screen

open Agent (Texts Update TaskEvent ActivityCollector takeText strip)
open Hub (InstanceId EventId TranscriptDb MessageRow toChatMessageDTO textField)
open Runner (ActivityTurn ActivityFeed activitySystem)

/-- A chunk of the graph: a part of a message with the type of the message and the tags of its
model, the updates of the nodes, or an event of a subagent with the object that it was written as. -/
inductive StreamChunk
  | messages (type : String) (tags : List String) (content : Json)
  | updates (u : Update)
  | custom (e : TaskEvent) (data : Json.Fields)

/-- How a turn ends. -/
inductive Outcome
  | finished
  | failed (error : String)
  | cancelled
  deriving DecidableEq, Repr

/-- `startswith`. -/
def startsWith (start s : String) : Bool :=
  start.toList.isPrefixOf s.toList

section

variable (T : Texts)

/-- `chat_events`. -/
def chatEvents : StreamChunk → List ChatEvent
  | .messages type tags content =>
      if startsWith "ai" (Agent.lower type) ∧ ¬ tags.any (startsWith "subagent:") ∧
          T.messageText content ≠ "" then
        [⟨"token", T.messageText content⟩]
      else []
  | .updates u =>
      u.flatMap fun (node, messages) => messages.flatMap fun
        | .ai m =>
            (m.toolCalls.map fun call => ⟨"activity", node ++ ": " ++ call.name⟩) ++
              if strip (T.messageText m.content) = "" then []
              else [⟨"message", strip (T.messageText m.content)⟩]
        | _ => []
  | .custom _ data =>
      match (Json.get data "note").filter Agent.truthy with
      | some note => [⟨"activity", T.toStr note⟩]
      | none => [⟨"activity", T.dumps (.obj data)⟩]

/-- `ActivityCollector.frames`. -/
def collectorFrames (c : ActivityCollector) : StreamChunk → ActivityCollector × List Agent.Frame
  | .messages _ _ _ => (c, [])
  | .updates u => c.update T u
  | .custom e _ => c.custom T e

/-- The collector and the frames of the chunks of a turn. -/
def collect (chunks : List StreamChunk) : ActivityCollector × List Agent.Frame :=
  ActivityCollector.each (collectorFrames T) {} chunks

/-- The frames at the end of a turn. -/
def closing (c : ActivityCollector) : Outcome → List Agent.Frame
  | .finished =>
      c.chatAgent.toList ++ [{ kind := "run_finished", findingsCount := some c.findings }]
  | .failed error =>
      [{ kind := "run_failed", description := some (takeText 500 error)
         findingsCount := some c.findings }]
  | .cancelled => []

/-- `_frame`. -/
def frameFields (ts : String) (f : Agent.Frame) : Runner.Frame :=
  [("kind", .str f.kind), ("ts", .str ts)] ++
    Json.field "taskId" (f.taskId.map .str) ++
    Json.field "description" (f.description.map .str) ++
    Json.field "status" (f.status.map .str) ++
    Json.field "findingsCount" (f.findingsCount.map fun n => .int n) ++
    Json.field "text" (f.text.map .str) ++
    Json.field "tokens" (f.tokens.map fun t => .obj [("input", .int t.1), ("output", .int t.2)])

/-- `RunnerService.chat`: the frames of a turn, each with the time at which it was made. -/
def chatFrames (clock : ℕ → String) (message : String) (chunks : List StreamChunk)
    (outcome : Outcome) : List Runner.Frame :=
  let opening : List Agent.Frame :=
    [{ kind := "run_started" }, { kind := "chat_user", text := some message }]
  (opening ++ (collect T chunks).2 ++ closing (collect T chunks).1 outcome).zipIdx.map fun (f, i) =>
    frameFields (clock i) f

/-- A turn of the chat. -/
def IsChat (turn : ActivityTurn) (message : String) (chunks : List StreamChunk)
    (outcome : Outcome) : Prop :=
  turn.eventId = none ∧
    ∃ clock, turn.frames = (chatFrames T clock message chunks outcome).map turn.stamp

/-- The texts of the rows of the agent that are shown while the turn is streamed. -/
def liveTexts (chunks : List StreamChunk) : List String :=
  ((linesOf (chunks.flatMap (chatEvents T))).filter fun line => line.1 = .agent).map Prod.snd

/-- What the transcript is to hold of a turn. -/
def spoken (message : String) (chunks : List StreamChunk) (outcome : Outcome) :
    List (String × String) :=
  ("user", message) ::
    match outcome with
    | .finished =>
        if liveTexts T chunks = [] then [] else [("agent", "\n\n".intercalate (liveTexts T chunks))]
    | .failed error => [("event", takeText 500 error)]
    | .cancelled => []

end

/-- The role and the text of a row of the transcript, as it is served. -/
def served (D : TranscriptDb) (r : MessageRow) : String × String :=
  let d := toChatMessageDTO (D.chatMessage r)
  (d.role, d.text)

/-- The role and the text that a frame has in the transcript, if it is one of a turn with this
event. -/
def transcriptLine (eventId : Option EventId) (f : Runner.Frame) : Option (String × String) :=
  let kind := Json.asString (Json.get f "kind")
  if kind = "chat_user" then some ("user", textField "text" f)
  else if kind = "chat_agent" then some ("agent", textField "text" f)
  else if kind = "run_failed" ∨ (kind = "run_started" ∨ kind = "run_finished") ∧ eventId.isSome then
    some ("event", textField "description" f)
  else none

/-- What the transcript holds of a turn. -/
def transcript (turn : ActivityTurn) : List (String × String) :=
  turn.frames.filterMap (transcriptLine turn.eventId)

/-! ### The replies of a turn -/

section

variable {T : Texts}

theorem linesOf_agent (frames : List ChatEvent) :
  ((linesOf frames).filter fun line => line.1 = .agent).map Prod.snd =
    frames.flatMap fun e => if e.text ≠ "" ∧ e.kind = "message" then [e.text] else []
  := by
  induction frames with
  | nil => rfl
  | cons e frames ih =>
      rw [List.flatMap_cons, ← ih, linesOf, List.filterMap_cons, ← linesOf]
      by_cases htext : e.text = ""
      · simp [htext]
      by_cases hmessage : e.kind = "message"
      · simp [htext, hmessage]
      by_cases hactivity : e.kind = "activity"
      · simp [htext, hactivity]
      · simp [htext, hmessage, hactivity]

/-- The messages of a chunk. -/
def StreamChunk.contents : StreamChunk → List Agent.Message
  | .updates u => u.flatMap Prod.snd
  | _ => []

/-- The rows of the agent are the texts of the replies. -/
theorem liveTexts_eq (chunks : List StreamChunk) :
  liveTexts T chunks = (chunks.flatMap StreamChunk.contents).filterMap (Agent.Message.reply T)
  := by
  have hmessages : ∀ node (messages : List Agent.Message),
      (chatEvents T (.updates [(node, messages)])).flatMap (fun e =>
        if e.text ≠ "" ∧ e.kind = "message" then [e.text] else []) =
      messages.filterMap (Agent.Message.reply T) := by
    intro node messages
    rw [chatEvents, List.flatMap_singleton, List.flatMap_assoc, List.filterMap_eq_flatMap_toList]
    congr 1
    funext m
    cases m with
    | ai m =>
        rw [Agent.Message.reply, Agent.orNone, List.flatMap_append, List.flatMap_map]
        split
        · simp
        · rename_i htext
          simp [htext]
    | _ => rfl
  rw [liveTexts, linesOf_agent, List.flatMap_assoc, List.filterMap_flatMap]
  congr 1
  funext chunk
  cases chunk with
  | messages type tags content =>
      rw [chatEvents]
      split <;> simp [StreamChunk.contents]
  | custom e data =>
      rw [chatEvents]
      split <;> simp [StreamChunk.contents]
  | updates u =>
      rw [StreamChunk.contents, List.filterMap_flatMap]
      induction u with
      | nil => rfl
      | cons n u ih =>
          rw [List.flatMap_cons, ← hmessages n.1, ← ih]
          simp [chatEvents]

theorem reply_custom (c : ActivityCollector) (e : TaskEvent) :
  (c.custom T e).1.reply = c.reply
  := by
  cases e <;>
  · rw [ActivityCollector.custom]
    split_ifs <;> first | rfl | (split <;> rfl)

/-- What a chunk adds to the replies. -/
theorem reply_collectorFrames (c : ActivityCollector) (chunk : StreamChunk) :
  (collectorFrames T c chunk).1.reply =
    c.reply ++ chunk.contents.filterMap (Agent.Message.reply T)
  := by
  cases chunk with
  | messages type tags content => exact (List.append_nil _).symm
  | custom e data => exact (reply_custom c e).trans (List.append_nil _).symm
  | updates u =>
      have hadds : ActivityCollector.Adds T (u.flatMap Prod.snd) c (c.update T u) := by
        apply ActivityCollector.adds_each
        intro c n
        apply ActivityCollector.adds_updates
      apply hadds.reply

/-- The collector has the replies that are shown. -/
theorem reply_collect (chunks : List StreamChunk) :
  (collect T chunks).1.reply = liveTexts T chunks
  := by
  have heach : ∀ c, (ActivityCollector.each (collectorFrames T) c chunks).1.reply =
      c.reply ++ (chunks.flatMap StreamChunk.contents).filterMap (Agent.Message.reply T) := by
    induction chunks with
    | nil => exact fun c => (List.append_nil _).symm
    | cons chunk chunks ih =>
        intro c
        rw [ActivityCollector.each, ih, reply_collectorFrames, List.flatMap_cons,
          List.filterMap_append, List.append_assoc]
  rw [collect, heach, liveTexts_eq, List.nil_append]

/-- The frame of the answer has the replies that are shown. -/
theorem chatAgent_collect (chunks : List StreamChunk) :
  (collect T chunks).1.chatAgent =
    if liveTexts T chunks = [] then none
    else some { kind := "chat_agent", text := some ("\n\n".intercalate (liveTexts T chunks)) }
  := by
  have htrimmed : ∀ t ∈ (collect T chunks).1.reply, Agent.Trimmed t := by
    intro t ht
    rw [reply_collect, liveTexts_eq] at ht
    obtain ⟨m, -, hm⟩ := List.mem_filterMap.mp ht
    apply Agent.trimmed_reply hm
  rw [ActivityCollector.chatAgent_eq htrimmed, Agent.orNone]
  rw [reply_collect] at htrimmed ⊢
  by_cases hnil : liveTexts T chunks = []
  · rw [hnil]
    rfl
  · have hne : "\n\n".intercalate (liveTexts T chunks) ≠ "" := by
      intro hempty
      have hchars := String.toList_eq_nil_iff.mpr hempty
      rw [String.toList_intercalate] at hchars
      refine (Agent.bare_intercalate ?_).2 ?_ hchars
      · intro t ht
        obtain ⟨t', ht', rfl⟩ := List.mem_map.mp ht
        apply htrimmed t' ht'
      · simpa using hnil
    rw [if_neg hne, if_neg hnil, Option.map_some]

end

/-! ### The frames as they are written -/

section

variable {name : String} {fields fields' : Json.Fields}

theorem textField_append_of_ne (h : ∀ p ∈ fields', Hub.foldName p.1 ≠ Hub.foldName name) :
  textField name (fields ++ fields') = textField name fields
  := by
  rw [textField, List.foldl_append, ← textField]
  generalize textField name fields = text
  induction fields' with
  | nil => rfl
  | cons p fields' ih =>
      obtain ⟨hp, hfields⟩ := List.forall_mem_cons.mp h
      obtain ⟨k, v⟩ := p
      rw [List.foldl_cons]
      dsimp only
      split
      · rw [if_neg hp, ih hfields]
      · apply ih hfields

theorem textField_of_ne (h : ∀ p ∈ fields, Hub.foldName p.1 ≠ Hub.foldName name) :
  textField name fields = ""
  := by
  rw [← List.nil_append fields, textField_append_of_ne h]
  rfl

theorem textField_concat (fields : Json.Fields) (name value : String) :
  textField name (fields ++ [(name, .str value)]) = value
  := by
  rw [textField, List.foldl_append, List.foldl_cons, List.foldl_nil]
  exact if_pos rfl

/-- The field of a name is that name's text, if it is there. -/
theorem textField_append_field (value : Option String)
    (h : ∀ p ∈ fields, Hub.foldName p.1 ≠ Hub.foldName name) :
  textField name (fields ++ Json.field name (value.map .str)) = value.getD ""
  := by
  cases value with
  | none =>
      rw [Option.map_none, Json.field, List.append_nil]
      apply textField_of_ne h
  | some value => apply textField_concat

theorem mem_field {k : String} {value : Option Json} {p : String × Json}
    (h : p ∈ Json.field k value) :
  p.1 = k
  := by
  cases value with
  | none => contradiction
  | some v => rw [List.mem_singleton.mp h]

/-- The names of the fields of a frame. -/
theorem fst_mem_frameFields {ts : String} {f : Agent.Frame} {p : String × Json}
    (h : p ∈ frameFields ts f) :
  p.1 ∈ ["kind", "ts", "taskId", "description", "status", "findingsCount", "text", "tokens"]
  := by
  simp only [frameFields, List.mem_append, List.mem_cons, List.not_mem_nil, or_false] at h
  rcases h with ((((((rfl | rfl) | h) | h) | h) | h) | h) | h
  · simp
  · simp
  all_goals simp [mem_field h]

theorem textField_text (ts : String) (f : Agent.Frame) :
  textField "text" (frameFields ts f) = f.text.getD ""
  := by
  rw [frameFields, textField_append_of_ne, textField_append_field]
  · intro p hp
    simp only [List.mem_append, List.mem_cons, List.not_mem_nil, or_false] at hp
    rcases hp with ((((rfl | rfl) | hp) | hp) | hp) | hp
    · change Hub.foldName "kind" ≠ Hub.foldName "text"
      decide
    · change Hub.foldName "ts" ≠ Hub.foldName "text"
      decide
    all_goals
      rw [mem_field hp]
      decide
  · intro p hp
    rw [mem_field hp]
    decide

end

/-! ### The transcript of a turn -/

section

variable {T : Texts} {eventId : Option EventId}

/-- The role and the text of a frame in the transcript. -/
def spokenFrame (f : Agent.Frame) : Option (String × String) :=
  if f.kind = "chat_user" then some ("user", f.text.getD "")
  else if f.kind = "chat_agent" then some ("agent", f.text.getD "")
  else if f.kind = "run_failed" then some ("event", f.description.getD "")
  else none

theorem textField_description (ts : String) (f : Agent.Frame) :
  textField "description" (frameFields ts f) = f.description.getD ""
  := by
  rw [frameFields, textField_append_of_ne, textField_append_of_ne, textField_append_of_ne,
    textField_append_of_ne, textField_append_field]
  · intro p hp
    simp only [List.mem_append, List.mem_cons, List.not_mem_nil, or_false] at hp
    rcases hp with (rfl | rfl) | hp
    · change Hub.foldName "kind" ≠ Hub.foldName "description"
      decide
    · change Hub.foldName "ts" ≠ Hub.foldName "description"
      decide
    · rw [mem_field hp]
      decide
  all_goals
    intro p hp
    rw [mem_field hp]
    decide

/-- The trace is in no field that is read. -/
theorem transcriptLine_stamp (turn : ActivityTurn) (f : Runner.Frame) :
  transcriptLine eventId (turn.stamp f) = transcriptLine eventId f
  := by
  rw [ActivityTurn.stamp]
  split
  · have hkind : Json.get (f ++ [("traceId", .str turn.traceId)]) "kind" = Json.get f "kind" := by
      rw [Json.get, List.lookup_append]
      exact Option.or_none
    have htext : ∀ name, Hub.foldName "traceId" ≠ Hub.foldName name →
        textField name (f ++ [("traceId", .str turn.traceId)]) = textField name f := by
      intro name hname
      apply textField_append_of_ne
      exact List.forall_mem_singleton.mpr hname
    rw [transcriptLine, hkind, htext "text" (by decide), htext "description" (by decide),
      transcriptLine]
  · rfl

theorem transcriptLine_frameFields (ts : String) (f : Agent.Frame) :
  transcriptLine none (frameFields ts f) = spokenFrame f
  := by
  have hkind : Json.asString (Json.get (frameFields ts f) "kind") = f.kind := rfl
  rw [transcriptLine, textField_text, textField_description, hkind, spokenFrame]
  simp

/-- The frames that are collected are not in the transcript. -/
theorem spokenFrame_collect (chunks : List StreamChunk) :
  ∀ f ∈ (collect T chunks).2, spokenFrame f = none
  := by
  have hkind : ∀ f : Agent.Frame, f.isWork = true ∨ f.kind ∈ ["node", "task_report", "task_started",
      "task_finished", "task_failed"] → spokenFrame f = none := by
    intro f hf
    have hmem : f.kind ∈ ["tool_call", "tool_result", "text", "node", "task_report", "task_started",
        "task_finished", "task_failed"] := by
      rcases hf with hf | hf
      · have hwork := of_decide_eq_true hf
        simp only [List.mem_cons, List.not_mem_nil, or_false] at hwork ⊢
        tauto
      · simp only [List.mem_cons, List.not_mem_nil, or_false] at hf ⊢
        tauto
    have hnone : ∀ kind ∈ ["tool_call", "tool_result", "text", "node", "task_report",
        "task_started", "task_finished", "task_failed"],
        kind ≠ "chat_user" ∧ kind ≠ "chat_agent" ∧ kind ≠ "run_failed" := by decide
    obtain ⟨huser, hagent, hfailed⟩ := hnone _ hmem
    rw [spokenFrame, if_neg huser, if_neg hagent, if_neg hfailed]
  apply ActivityCollector.forall_each
  intro c chunk f hf
  apply hkind
  cases chunk with
  | messages type tags content => contradiction
  | updates u =>
      rcases ActivityCollector.ofLead_update c u f hf with ⟨-, hf | hf⟩ | hf
      · exact .inl hf
      · simp [hf.1]
      · simp [hf.1]
  | custom e data =>
      by_cases he : e.taskId = ""
      · rw [collectorFrames, ActivityCollector.custom_unnamed he] at hf
        contradiction
      · rcases (ActivityCollector.ofTask_custom c he f hf).2 with hf | hf
        · exact .inl hf
        · have htask := hf.1
          simp only [List.mem_cons, List.not_mem_nil, or_false] at htask ⊢
          tauto

/-- A turn of the chat leaves the message, and the replies that were shown. -/
theorem transcript_chat {turn : ActivityTurn} {message : String} {chunks : List StreamChunk}
    {outcome : Outcome} (h : IsChat T turn message chunks outcome) :
  transcript turn = spoken T message chunks outcome
  := by
  obtain ⟨hevent, clock, hframes⟩ := h
  have hline : ∀ p : Agent.Frame × ℕ,
      transcriptLine none (turn.stamp (frameFields (clock p.2) p.1)) = spokenFrame p.1 := by
    intro p
    rw [transcriptLine_stamp, transcriptLine_frameFields]
  rw [transcript, hevent, hframes, chatFrames, List.filterMap_map, List.filterMap_map]
  simp only [Function.comp_def, hline]
  rw [← Function.comp_def spokenFrame Prod.fst, ← List.filterMap_map, List.zipIdx_map_fst,
    List.filterMap_append, List.filterMap_append,
    List.filterMap_eq_nil_iff.mpr (spokenFrame_collect chunks), List.append_nil]
  unfold spoken
  cases outcome with
  | cancelled => rfl
  | failed error => rfl
  | finished =>
      rw [closing, chatAgent_collect]
      dsimp only
      split <;> rfl

end

/-! ### The transcript of an instance -/

section

variable {s : ActivityFeed} {D : TranscriptDb} {id : InstanceId}

/-- The kind of a row is that of its frame. -/
theorem kind_of_reachable (hs : activitySystem.Reachable s) :
  ∀ r ∈ s.journal.rows, r.kind = Json.asString (Json.get r.payload "kind")
  := by
  have hemit : ∀ (s : ActivityFeed) (id : InstanceId) (turn : ActivityTurn) (frame : Runner.Frame),
      (∀ r ∈ s.journal.rows, r.kind = Json.asString (Json.get r.payload "kind")) →
      ∀ r ∈ (s.emit id turn frame).journal.rows,
        r.kind = Json.asString (Json.get r.payload "kind") := by
    intro s id turn frame h r hr
    simp only [ActivityFeed.emit, Runner.ActivityJournal.addActivity, Serial.rows_insert] at hr
    rcases List.mem_append.mp hr with hr | hr
    · apply h r hr
    · rw [List.mem_singleton.mp hr]
  apply hs.invariant
  · rintro _ rfl
    exact List.forall_mem_nil _
  · intro s a s' h _ ha
    cases a with
    | start id eventId traceId ts =>
        cases hlive : s.live id with
        | some turn =>
            simp only [activitySystem, ActivityFeed.step, hlive] at ha
            contradiction
        | none =>
            simp only [activitySystem, ActivityFeed.step, hlive, Option.some.injEq] at ha
            rw [← ha]
            apply hemit _ _ _ _ h
    | emit id frame =>
        obtain ⟨turn, -, rfl⟩ := Option.map_eq_some_iff.mp ha
        apply hemit _ _ _ _ h
    | close id =>
        obtain ⟨turn, -, rfl⟩ := Option.map_eq_some_iff.mp ha
        apply h

/-- A row of the transcript is served as its frame says. -/
theorem transcriptLine_row (r : MessageRow)
    (h : r.kind = Json.asString (Json.get r.payload "kind")) :
  transcriptLine r.eventId r.payload = if r.isTranscript then some (served D r) else none
  := by
  rw [transcriptLine, ← h, MessageRow.isTranscript, served, toChatMessageDTO]
  have hkind : (D.chatMessage r).kind = r.kind := rfl
  have hpayload : (D.chatMessage r).payload = r.payload := rfl
  rw [hkind, hpayload]
  by_cases huser : r.kind = "chat_user"
  · simp [huser]
  by_cases hagent : r.kind = "chat_agent"
  · simp [hagent]
  by_cases hfailed : r.kind = "run_failed"
  · simp [hfailed]
  · simp [huser, hagent, hfailed]

/-- In every run the transcript of an instance is that of its turns, one after the other. -/
theorem served_eq (hs : activitySystem.Reachable s)
    (hD : D.activity.rows.map MessageRow.toActivityRow = s.journal.rows) :
  (D.visible id none).map (served D) = (s.turnsOf id).flatMap transcript
  := by
  have hline : ∀ r ∈ D.activity.rows,
      transcriptLine r.eventId r.payload = if r.isTranscript then some (served D r) else none := by
    intro r hr
    apply transcriptLine_row r
    apply kind_of_reachable hs r.toActivityRow
    rw [← hD]
    exact List.mem_map_of_mem hr
  have hrows : (D.visible id none).map (served D) =
      (D.activity.rows.filter fun r => r.instanceId = id).filterMap fun r =>
        transcriptLine r.eventId r.payload := by
    rw [List.filterMap_congr fun r hr => hline r (List.mem_of_mem_filter hr),
      TranscriptDb.visible, ← List.filterMap_eq_map, List.filterMap_filter, List.filterMap_filter]
    congr 1
    funext r
    rw [MessageRow.isRead]
    by_cases hid : r.instanceId = id <;> by_cases ht : r.isTranscript <;> simp [hid, ht]
  have hentries : (D.activity.rows.filter fun r => r.instanceId = id).map
      (fun r => r.toActivityRow.entry) = (s.turnsOf id).flatMap ActivityTurn.entries := by
    rw [← (ActivityFeed.recorded_of_reachable hs id).entries, Runner.ActivityJournal.ofInstance,
      ← hD, List.filter_map, List.map_map]
    rfl
  have hturn : ∀ turn : ActivityTurn,
      turn.entries.filterMap (fun e => transcriptLine e.1 e.2.2) = transcript turn := by
    intro turn
    rw [ActivityTurn.entries, List.filterMap_map, transcript]
    conv_rhs => rw [← List.zipIdx_map_fst 1 turn.frames, List.filterMap_map]
    rfl
  have hcomp : (fun r : MessageRow => transcriptLine r.eventId r.payload) =
      (fun e : Option EventId × ℕ × Runner.Frame => transcriptLine e.1 e.2.2) ∘
        fun r => r.toActivityRow.entry := rfl
  rw [hrows, hcomp, ← List.filterMap_map, hentries, List.filterMap_flatMap]
  congr 1
  funext turn
  apply hturn

end

/-! ### A turn of the chat -/

/-- Texts of which none is needed. -/
def plainTexts : Texts where
  str _ := ""
  dumps _ := ""
  loads _ := none

/-- A token and two replies. -/
def sampleChunks : List StreamChunk :=
  [.messages "AIMessageChunk" [] (.str "he"),
    .updates [("model", [.ai { content := .str "hello" }]), ("tools", [.ai { content := .str "bye" }])]]

/-- The frames of the turn. -/
def sampleFrames : List Runner.Frame :=
  chatFrames plainTexts (fun _ => "0") "hi" sampleChunks .finished

/-- The rows that the turn has written. -/
def sampleTranscript (J : Runner.ActivityJournal) : Serial MessageRow fun r => r.id where
  rows := J.rows.map fun r => ⟨r, 0⟩
  nodup := by
    rw [List.map_map]
    exact J.nodup
  next := J.next
  lt_next := by
    intro r hr
    obtain ⟨r', hr', rfl⟩ := List.mem_map.mp hr
    apply J.lt_next r' hr'
  sorted := by
    rw [List.pairwise_map]
    exact J.sorted

end Screen
