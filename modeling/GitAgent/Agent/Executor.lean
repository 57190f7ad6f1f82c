import GitAgent.Agent.Result

/-!
# The executor of a delegation

The graph of a subagent is streamed, and what it has collected is noted chunk by chunk in the result
of the executor (`core/subagents/executor.py`, `core/subagents/steps.py`). An exception of the graph
ends the delegation; a cancellation, and an exception outside the stream, leave the executor without
a result.
-/

namespace Agent

/-! ### Steps -/

/-- A call of a tool in a step, with the beginning of its arguments. -/
structure StepCall where
  name : String
  args : String
  argsTruncated : Bool
  deriving DecidableEq, Repr

/-- A step of a subagent. -/
structure Step where
  taskId : String
  messageIndex : ℕ
  kind : String
  text : String
  truncated : Bool
  usage : Option (ℤ × ℤ) := none
  toolCalls : List StepCall := []
  toolName : Option String := none
  deriving DecidableEq, Repr

/-- The first characters of a text. -/
def takeText (n : ℕ) (s : String) : String :=
  String.ofList (s.toList.take n)

/-- `_content_to_text`. -/
def contentToText (T : Texts) : Json → String
  | .str s => s
  | content => if truthy content then T.dumps content else ""

/-- `build_subagent_step`, for a reply or an answer. -/
def buildSubagentStep (T : Texts) (taskId : String) (index : ℕ) : Message → Option Step
  | .ai m =>
      let text := contentToText T m.content
      some {
        taskId
        messageIndex := index
        kind := "ai"
        text := takeText 8192 text
        truncated := 8192 < text.length
        usage := m.usage.map fun u => (u.inputTokens, u.outputTokens)
        toolCalls := m.toolCalls.map fun c =>
          let preview := T.dumps (.obj c.args)
          ⟨c.name, takeText 2000 preview, 2000 < preview.length⟩ }
  | .tool m =>
      let text := contentToText T m.content
      some {
        taskId
        messageIndex := index
        kind := "tool"
        text := takeText 8192 text
        truncated := 8192 < text.length
        toolName := some m.name }
  | _ => none

/-- What has been captured: the steps, and the ids of their messages. -/
structure Captured where
  steps : List Step := []
  seenIds : List String := []

/-- `_capture`. -/
def Captured.add (T : Texts) (taskId : String) (c : Captured) (m : Message × ℕ) : Captured :=
  match buildSubagentStep T taskId m.2 m.1 with
  | none => c
  | some step =>
      match m.1.id? with
      | some id =>
          if id ∈ c.seenIds then c
          else { steps := c.steps ++ [step], seenIds := c.seenIds ++ [id] }
      | none => if step ∈ c.steps then c else { c with steps := c.steps ++ [step] }

/-- `capture_new_step_messages`: what has been captured, and the new steps. -/
def captureNewStepMessages (T : Texts) (taskId : String) (messages : List Message) (c : Captured)
    (processedCount : ℕ) : Captured × List Step :=
  let total := messages.length
  let processedCount := if total < processedCount then 0 else processedCount
  let start := if total = processedCount then total - 1 else processedCount
  let c' := (messages.zipIdx.drop start).foldl (Captured.add T taskId) c
  (c', c'.steps.drop c.steps.length)

/-! ### The run of a subagent -/

/-- An exception, as the handlers tell them apart: a cancellation, the end of a time limit, the
refusal of a slot, the limit of turns, another error, or one that is no `Exception`. -/
inductive Exc
  | cancelled
  | timeout (text : String)
  | capacity (text : String)
  | recursion (text : String)
  | error (text : String)
  | exit
  deriving DecidableEq, Repr

/-- `str` of an exception. -/
def Exc.text : Exc → String
  | timeout text | capacity text | recursion text | error text => text
  | cancelled | exit => ""

/-- A chunk of the stream: the messages, the records of the collector by then, and the text of the
error if the findings cannot be collected. -/
structure Chunk where
  messages : List Message
  records : List UsageRecord
  failure : String := ""

/-- What the graph of a subagent does: it may fail before the stream; the stream has chunks, and
ends or fails; by then there are records; and making the result may fail. -/
structure SubagentRun where
  setup : Option Exc := none
  chunks : List Chunk
  stop : Option Exc := none
  records : List UsageRecord
  closing : Option Exc := none

/-- What the executor has noted: its result, the last chunk, what has been captured with the number
of messages, and the steps that it has told of. -/
structure Noted where
  result : SubagentResult
  finalState : Option (List Message) := none
  captured : Captured := {}
  cursor : ℕ := 0
  steps : List Step := []

/-- What is noted of one chunk, and the exception if its findings cannot be collected. -/
def Noted.chunk (T : Texts) (n : Noted) (c : Chunk) : Noted × Option Exc :=
  let (captured, newSteps) :=
    captureNewStepMessages T n.result.taskId c.messages n.captured n.cursor
  let result := (n.result.updateToolReceipts (some (extractToolReceipts c.messages)))
    |>.updateTokenUsageRecords c.records
  let noted : Noted :=
    { result := result
      finalState := some c.messages
      captured := captured
      cursor := c.messages.length
      steps := n.steps ++ newSteps }
  match T.collectFindings c.messages with
  | some findings => ({ noted with result := { result with findings } }, none)
  | none => (noted, some (.error c.failure))

/-- What is noted of the chunks, up to the first that fails. -/
def Noted.stream (T : Texts) : Noted → List Chunk → Noted × Option Exc
  | n, [] => (n, none)
  | n, c :: chunks =>
      match n.chunk T c with
      | (n, none) => stream T n chunks
      | (n, some e) => (n, some e)

/-- What the executor has noted when the stream is over, and the exception that ended it. -/
def SubagentRun.noted (T : Texts) (taskId : String) (run : SubagentRun) : Noted × Option Exc :=
  match Noted.stream T { result := { taskId, status := .running } } run.chunks with
  | (n, none) => (n, run.stop)
  | (n, some e) => (n, some e)

/-- The result with its ending, if making it does not fail. -/
def SubagentRun.close (run : SubagentRun) (n : Noted) (e : Ending) : Except Exc SubagentResult :=
  match run.closing with
  | some exc => .error exc
  | none => .ok (n.result.trySetTerminal e)

/-- `arun`: the result or the exception, and the steps that were told of. -/
def arun (T : Texts) (maxTurns : ℕ) (taskId : String) (run : SubagentRun) :
    Except Exc SubagentResult × List Step :=
  match run.setup with
  | some e => (.error e, [])
  | none =>
      let (n, stop) := run.noted T taskId
      let final := extractFinalResult (n.finalState.getD [])
      let result :=
        match stop with
        | none =>
            run.close n {
              status := .completed
              terminal := rfl
              result := some final
              toolReceipts := harvest n.finalState
              tokenUsageRecords := some run.records }
        | some (.recursion _) =>
            if final ≠ "No response generated" then
              run.close n {
                status := .completed
                terminal := rfl
                result := some final
                stopReason := some "turn_capped"
                toolReceipts := harvest n.finalState
                tokenUsageRecords := some run.records }
            else
              run.close n {
                status := .failed
                terminal := rfl
                error := some ("Reached max_turns=" ++ toString maxTurns)
                stopReason := some "turn_capped"
                toolReceipts := harvest n.finalState
                tokenUsageRecords := some run.records }
        | some .cancelled => .error .cancelled
        | some .exit => .error .exit
        | some e =>
            run.close n {
              status := .failed
              terminal := rfl
              error := some e.text
              toolReceipts := harvest n.finalState
              tokenUsageRecords := some run.records }
      (result, n.steps)

/-! ### What the executor gives -/

/-- Whether the findings of a chunk can be collected. -/
def Chunk.collects (T : Texts) (c : Chunk) : Bool :=
  (T.collectFindings c.messages).isSome

/-- The chunks that are processed to their end. -/
def SubagentRun.processed (T : Texts) (run : SubagentRun) : List Chunk :=
  run.chunks.takeWhile (Chunk.collects T)

/-- The findings of the last chunk that was processed, if any was. -/
def SubagentRun.findings (T : Texts) (run : SubagentRun) : List Finding :=
  ((run.processed T).getLast?.bind fun c => T.collectFindings c.messages).getD []

/-- The exception that ends the stream. -/
def SubagentRun.ended (T : Texts) (run : SubagentRun) : Option Exc :=
  match run.chunks.find? fun c => !c.collects T with
  | some c => some (.error c.failure)
  | none => run.stop

/-- The exception with which the executor is left. -/
def SubagentRun.left (T : Texts) (run : SubagentRun) : Option Exc :=
  match run.setup with
  | some e => some e
  | none =>
      match run.ended T with
      | some .cancelled => some .cancelled
      | some .exit => some .exit
      | _ => run.closing

/-- A result that has noted all. -/
structure Returned (T : Texts) (taskId : String) (run : SubagentRun) (r : SubagentResult) :
    Prop where
  taskId : r.taskId = taskId
  terminal : r.status.isTerminal = true
  reason : ∀ reason ∈ r.stopReason, reason = "turn_capped"
  findings : r.findings = run.findings T
  records : r.tokenUsageRecords = run.records

/-- A result of a subagent that runs. -/
structure SubagentResult.Runs (taskId : String) (r : SubagentResult) : Prop where
  taskId : r.taskId = taskId
  status : r.status = .running
  reason : r.stopReason = none

section

variable {T : Texts} {taskId : String}

/-- A chunk leaves the subagent running, with the findings of the chunk if they can be
collected. -/
theorem Noted.chunk_spec {n : Noted} (h : n.result.Runs taskId) (c : Chunk) :
  (n.chunk T c).1.result.Runs taskId ∧
    (match T.collectFindings c.messages with
      | some findings => (n.chunk T c).1.result.findings = findings ∧ (n.chunk T c).2 = none
      | none => (n.chunk T c).1.result.findings = n.result.findings ∧
          (n.chunk T c).2 = some (.error c.failure))
  := by
  have hr : ∀ r : SubagentResult, r.Runs taskId → ∀ receipts records,
      ((r.updateToolReceipts (some receipts)).updateTokenUsageRecords records).Runs taskId ∧
      ((r.updateToolReceipts (some receipts)).updateTokenUsageRecords records).findings =
        r.findings := by
    rintro r ⟨hid, hstatus, hreason⟩ receipts records
    simp only [SubagentResult.updateToolReceipts, SubagentResult.updateTokenUsageRecords, hstatus,
      SubagentStatus.isTerminal, Bool.false_eq_true, if_false]
    exact ⟨⟨hid, rfl, hreason⟩, trivial⟩
  obtain ⟨hruns, hfindings⟩ := hr n.result h (extractToolReceipts c.messages) c.records
  rw [Noted.chunk]
  dsimp only
  cases T.collectFindings c.messages with
  | some findings => exact ⟨⟨hruns.taskId, hruns.status, hruns.reason⟩, rfl, rfl⟩
  | none => exact ⟨hruns, hfindings, rfl⟩

/-- The stream leaves the subagent running, with the findings of the last chunk that was
processed. -/
theorem Noted.stream_spec {n : Noted} (h : n.result.Runs taskId) (chunks : List Chunk) :
  (n.stream T chunks).1.result.Runs taskId ∧
    (n.stream T chunks).1.result.findings =
      ((chunks.takeWhile (Chunk.collects T)).getLast?.bind fun c =>
        T.collectFindings c.messages).getD n.result.findings ∧
    (n.stream T chunks).2 =
      (chunks.find? fun c => !c.collects T).map fun c => .error c.failure
  := by
  induction chunks generalizing n with
  | nil => exact ⟨h, rfl, rfl⟩
  | cons c chunks ih =>
      obtain ⟨hruns, hc⟩ := n.chunk_spec (T := T) h c
      rw [Noted.stream]
      cases hf : T.collectFindings c.messages with
      | none =>
          rw [hf] at hc
          obtain ⟨hfindings, hstop⟩ := hc
          have hno : c.collects T = false := by rw [Chunk.collects, hf, Option.isSome_none]
          rw [List.takeWhile_cons_of_neg (by rw [hno]; exact Bool.false_ne_true),
            List.find?_cons_of_pos (by rw [hno, Bool.not_false])]
          generalize n.chunk T c = m at *
          obtain ⟨m, stop⟩ := m
          dsimp only at hruns hfindings hstop
          subst hstop
          exact ⟨hruns, hfindings, rfl⟩
      | some findings =>
          rw [hf] at hc
          obtain ⟨hfindings, hstop⟩ := hc
          have hyes : c.collects T = true := by rw [Chunk.collects, hf, Option.isSome_some]
          rw [List.takeWhile_cons_of_pos hyes,
            List.find?_cons_of_neg (by rw [hyes, Bool.not_true]; exact Bool.false_ne_true)]
          generalize n.chunk T c = m at *
          obtain ⟨m, stop⟩ := m
          dsimp only at hruns hfindings hstop
          subst hstop
          obtain ⟨h₁, h₂, h₃⟩ := ih hruns
          refine ⟨h₁, ?_, h₃⟩
          rw [h₂]
          cases hl : (chunks.takeWhile (Chunk.collects T)).getLast? with
          | none =>
              rw [List.getLast?_cons, hl, Option.getD_none, Option.bind_some, hf, hfindings]
              rfl
          | some last =>
              have hlast : last.collects T = true :=
                List.all_eq_true.mp List.all_takeWhile last (List.mem_of_getLast? hl)
              obtain ⟨findings', hl'⟩ := Option.isSome_iff_exists.mp hlast
              rw [List.getLast?_cons, hl, Option.getD_some, Option.bind_some, hl']
              rfl

/-- The exception of a chunk comes before the end of the stream. -/
theorem SubagentRun.noted_eq (run : SubagentRun) :
  run.noted T taskId =
    ((Noted.stream T { result := { taskId, status := .running } } run.chunks).1,
      (Noted.stream T { result := { taskId, status := .running } } run.chunks).2.or run.stop)
  := by
  rw [noted]
  generalize Noted.stream T _ run.chunks = m
  obtain ⟨m, _ | e⟩ := m <;> rfl

/-- When the stream is over, the result has the findings of the last chunk that was processed. -/
theorem SubagentRun.noted_spec (taskId : String) (run : SubagentRun) :
  (run.noted T taskId).1.result.Runs taskId ∧
    (run.noted T taskId).1.result.findings = run.findings T ∧
    (run.noted T taskId).2 = run.ended T
  := by
  let n : Noted := { result := { taskId, status := .running } }
  obtain ⟨hruns, hfindings, hstop⟩ := n.stream_spec (T := T) ⟨rfl, rfl, rfl⟩ run.chunks
  rw [noted_eq]
  refine ⟨hruns, hfindings, ?_⟩
  dsimp only
  rw [hstop, ended]
  cases run.chunks.find? fun c => !c.collects T <;> rfl

/-- A result that is closed has noted all. -/
theorem SubagentRun.close_spec {run : SubagentRun} {n : Noted} {e : Ending}
    (hn : n.result.Runs taskId) (hf : n.result.findings = run.findings T)
    (hr : e.tokenUsageRecords = some run.records)
    (hs : ∀ reason ∈ e.stopReason, reason = "turn_capped")
    (hc : run.closing = none) :
  ∃ r, run.close n e = .ok r ∧ Returned T taskId run r
  := by
  have ht : n.result.trySetTerminal e = { n.result with
      status := e.status
      result := e.result.or n.result.result
      error := e.error.or n.result.error
      stopReason := e.stopReason.or n.result.stopReason
      toolReceipts := e.toolReceipts.or n.result.toolReceipts
      tokenUsageRecords := e.tokenUsageRecords.getD n.result.tokenUsageRecords } := by
    rw [SubagentResult.trySetTerminal, hn.status]
    rfl
  refine ⟨n.result.trySetTerminal e, by rw [close, hc], ?_⟩
  rw [ht]
  constructor
  · apply hn.taskId
  · apply e.terminal
  · change ∀ reason ∈ e.stopReason.or n.result.stopReason, reason = _
    rwa [hn.reason, Option.or_none]
  · apply hf
  · change e.tokenUsageRecords.getD _ = _
    rw [hr, Option.getD_some]

/-- The executor is left with an exception, or gives a result that has noted all. -/
theorem arun_spec (maxTurns : ℕ) (taskId : String) (run : SubagentRun) :
  match run.left T with
  | some e => (arun T maxTurns taskId run).1 = .error e
  | none => ∃ r, (arun T maxTurns taskId run).1 = .ok r ∧ Returned T taskId run r
  := by
  obtain ⟨hn, hf, hstop⟩ := run.noted_spec (T := T) taskId
  rw [arun, SubagentRun.left]
  cases run.setup with
  | some e => rfl
  | none =>
      dsimp only
      rw [hstop]
      have hcases : ∀ e : Ending, e.tokenUsageRecords = some run.records →
          (∀ reason ∈ e.stopReason, reason = "turn_capped") →
          match run.closing with
          | some exc => run.close (run.noted T taskId).1 e = .error exc
          | none => ∃ r, run.close (run.noted T taskId).1 e = .ok r ∧ Returned T taskId run r := by
        intro e hr hs
        cases hc : run.closing with
        | some exc => rw [SubagentRun.close, hc]
        | none => apply SubagentRun.close_spec hn hf hr hs hc
      cases hended : run.ended T with
      | none => apply hcases _ rfl (by simp)
      | some e =>
          cases e with
          | cancelled => rfl
          | exit => rfl
          | recursion text =>
              dsimp only
              split_ifs
              · apply hcases _ rfl (by simp)
              · apply hcases _ rfl (by simp)
          | timeout text => apply hcases _ rfl (by simp)
          | capacity text => apply hcases _ rfl (by simp)
          | error text => apply hcases _ rfl (by simp)

end

end Agent
