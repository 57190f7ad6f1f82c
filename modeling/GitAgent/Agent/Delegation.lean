import GitAgent.Agent.Executor

/-!
# The tool that delegates

The tool `task` of the Lead (`core/tools/delegation/task.py`): it tells of the start of a
delegation, waits for a slot and, up to a time limit, for the executor, and tells of the end. What
it finalises when the executor gives no result is a result of its own, which has noted nothing.
-/

namespace Agent

/-! ### Types of subagents -/

/-- `SubagentConfig`, as far as the tool reads it. -/
structure SubagentConfig where
  name : String
  maxTurns : ℕ := 50
  deriving DecidableEq, Repr

/-- `BUILTIN_SUBAGENTS`. -/
def builtinSubagents : List SubagentConfig :=
  [{ name := "general-purpose" }]

/-- `startswith`. -/
def startsWith (s start : String) : Bool :=
  start.toList.isPrefixOf s.toList

/-- The types that a normalised name can mean; a single type is meant by every name. -/
def candidates (norm : String) : List SubagentConfig :=
  let candidates := builtinSubagents.filter fun c =>
    c.name = norm || startsWith c.name norm || startsWith norm c.name
  if candidates = [] ∧ builtinSubagents.length = 1 then builtinSubagents else candidates

/-- `resolve_subagent_config`: the type, and a note if the name is another. -/
def resolveSubagentConfig (name : String) : Option SubagentConfig × Option String :=
  match builtinSubagents.find? fun c => c.name = name with
  | some c => (some c, none)
  | none =>
      let norm := String.ofList ((lower (strip name)).toList.map fun c =>
        if c = '_' ∨ c = ' ' then '-' else c)
      match candidates norm with
      | [c] => (some c, some ("subagent_type '" ++ name ++ "' resolved to '" ++ c.name ++ "'"))
      | _ => (none, none)

/-- With one type registered every name means it. -/
theorem candidates_eq (norm : String) :
  candidates norm = builtinSubagents
  := by
  rw [candidates, builtinSubagents, List.filter_cons]
  split <;> rfl

/-- With one type registered every name is resolved to it. -/
theorem fst_resolveSubagentConfig (name : String) :
  (resolveSubagentConfig name).1 = some { name := "general-purpose" }
  := by
  rw [resolveSubagentConfig]
  split
  · rename_i c h
    have hc := List.mem_of_find?_eq_some h
    rw [List.mem_singleton.mp hc]
  · dsimp only
    rw [candidates_eq]
    rfl

/-! ### The tool -/

/-- The arguments of the tool. -/
structure TaskArgs where
  description : String
  prompt : String
  subagentType : String
  acceptanceCriteria : Option (List String)

/-- A text argument. -/
def str? : Option Json → Option String
  | some (.str s) => some s
  | _ => none

/-- The arguments that the schema of the tool accepts. -/
def parseTaskArgs (args : Json.Fields) : Option TaskArgs := do
  let description ← str? (Json.get args "description")
  let prompt ← str? (Json.get args "prompt")
  let subagentType ← str? (Json.get args "subagent_type")
  let acceptanceCriteria ←
    match Json.get args "acceptance_criteria" with
    | none | some .null => some none
    | some (.arr values) => (values.mapM fun v => str? (some v)).map some
    | _ => none
  return { description, prompt, subagentType, acceptanceCriteria }

/-- The event of an end. Its type tells the status. -/
structure TerminalEvent where
  status : SubagentStatus
  taskId : String
  subagentType : String
  stopReason : Option String
  error : Option String
  usage : Option Json.Fields
  findings : List Finding

/-- The events of a delegation. -/
inductive TaskEvent
  | started (taskId description subagentType : String)
  | running (step : Step)
  | ended (e : TerminalEvent)

/-- `_terminal_event`. -/
def terminalEvent (r : SubagentResult) (subagentType : String) (usage : Option Json.Fields) :
    TerminalEvent where
  status := r.status
  taskId := r.taskId
  subagentType := subagentType
  stopReason := r.stopReason
  error := r.error
  usage := usage
  findings := r.findings

/-- What the libraries and the lexicon give to the tool. -/
structure Environment where
  digests : Digests
  texts : Texts
  lexicon : Lexicon

/-- What becomes of a call: the slot may be refused, the time limit may run out while the executor
runs, and the subagent does something. -/
structure TaskRun where
  admission : Option Exc := none
  timer : Bool := false
  run : SubagentRun

variable (E : Environment)

/-- The slot, and the executor under the time limit, which turns a cancellation of its own into the
end of the time limit. -/
def TaskRun.await (r : TaskRun) (maxTurns : ℕ) (taskId : String) :
    Except Exc SubagentResult × List Step :=
  match r.admission with
  | some e => (.error e, [])
  | none =>
      match arun E.texts maxTurns taskId r.run with
      | (.error .cancelled, steps) => (.error (if r.timer then .timeout "" else .cancelled), steps)
      | (result, steps) => (result, steps)

/-- The answer of the tool, if its metadata are valid. -/
def taskAnswerOf (toolCallId : String) (typeNote : Option String) (r : SubagentResult) :
    Option ToolMessage :=
  let verdict := r.verdict E.lexicon
  let verdictLine := (verdict.map renderCitationVerdict).getD ""
  let content := formatSubagentResultMessage r.status r.result r.error r.stopReason ++
    (if verdictLine = "" then "" else "\n\n[" ++ verdictLine ++ "]") ++
    ((typeNote.map fun n => "\n\n[" ++ n ++ "]").getD "")
  (makeSubagentAdditionalKwargs E.digests r.status r.result r.error r.stopReason
      (cumulativeUsage r.tokenUsageRecords) r.toolReceipts verdict).map fun kwargs =>
    { content := .str content, name := "task", toolCallId, additionalKwargs := kwargs }

/-- The end of a delegation with a result: the event, and the answer. -/
def finish (toolCallId : String) (typeNote : Option String) (subagentType : String)
    (r : SubagentResult) : TerminalEvent × Except Exc ToolMessage :=
  (terminalEvent r subagentType (cumulativeUsage r.tokenUsageRecords),
    match taskAnswerOf E toolCallId typeNote r with
    | some m => .ok m
    | none => .error (.error ""))

/-- `task`: the events, and the answer or the exception. The text of the time limit is
`execTimeout`. -/
def task (execTimeout toolCallId : String) (args : TaskArgs) (r : TaskRun) :
    List TaskEvent × Except Exc ToolMessage :=
  match resolveSubagentConfig args.subagentType with
  | (none, _) =>
      let content := "Unknown subagent type '" ++ args.subagentType ++ "'. Available: " ++
        ", ".intercalate (builtinSubagents.map SubagentConfig.name)
      match makeSubagentAdditionalKwargs E.digests .failed none (some content) none none none none
        with
      | some kwargs =>
          ([], .ok {
            content := .str ("Task Failed. " ++ content)
            name := "task"
            toolCallId
            additionalKwargs := kwargs })
      | none => ([], .error (.error ""))
  | (some config, typeNote) =>
      let started := .started toolCallId args.description config.name
      let (outcome, steps) := r.await E config.maxTurns toolCallId
      let own : SubagentResult := { taskId := toolCallId }
      let result : SubagentResult ⊕ Exc :=
        match outcome with
        | .ok result => .inl result
        | .error (.capacity text) =>
            .inl (own.trySetTerminal {
              status := .failed
              terminal := (rfl : true = true)
              error := some ("Delegation not admitted: " ++ text) })
        | .error (.timeout _) =>
            .inl (own.trySetTerminal {
              status := .timedOut
              terminal := (rfl : true = true)
              error := some ("Execution timed out after " ++ execTimeout ++ "s") })
        | .error e => .inr e
      match result with
      | .inl result =>
          let (ended, answer) := finish E toolCallId typeNote config.name result
          (started :: steps.map .running ++ [.ended ended], answer)
      | .inr .cancelled =>
          let result := own.trySetTerminal {
            status := .cancelled
            terminal := (rfl : true = true)
            error := some "Cancelled" }
          (started :: steps.map .running ++ [.ended (terminalEvent result config.name none)],
            .error .cancelled)
      | .inr e => (started :: steps.map .running, .error e)

/-! ### What the tool gives -/

/-- The exception with which the slot or the executor is left. -/
def TaskRun.left (T : Texts) (r : TaskRun) : Option Exc :=
  match r.admission with
  | some e => some e
  | none => (r.run.left T).map fun e => if e = .cancelled ∧ r.timer then .timeout "" else e

/-- An answer of the tool for a result. -/
structure Answers (toolCallId : String) (r : SubagentResult) (m : ToolMessage) : Prop where
  name : m.name = "task"
  toolCallId : m.toolCallId = toolCallId
  status : Json.get m.additionalKwargs "subagent_status" = some (.str r.status.value)
  usage : Json.get m.additionalKwargs "subagent_token_usage" =
    (cumulativeUsage r.tokenUsageRecords).map .obj

/-- A result of the tool itself. -/
structure Own (toolCallId : String) (r : SubagentResult) : Prop where
  taskId : r.taskId = toolCallId
  terminal : r.status.isTerminal = true
  findings : r.findings = []
  records : r.tokenUsageRecords = []

/-- Whether the tool takes an exception for the end of a limit. -/
def Exc.limits : Exc → Bool
  | capacity _ | timeout _ => true
  | _ => false

/-- Whether an exception passes through the tool without an event. -/
def Exc.escapes : Exc → Bool
  | recursion _ | error _ | exit => true
  | _ => false

/-- The events before the end of a delegation. -/
def begun (toolCallId description name : String) (steps : List Step) : List TaskEvent :=
  .started toolCallId description name :: steps.map .running

/-- What the tool tells of and answers, by the exception with which the slot or the executor is
left. -/
inductive Told (T : Texts) (toolCallId : String) (r : TaskRun) :
    Option Exc → List TaskEvent → Except Exc ToolMessage → Prop
  | returned {description name : String} {steps : List Step} {result : SubagentResult}
      {m : ToolMessage} (hr : Returned T toolCallId r.run result)
      (ha : Answers toolCallId result m) :
      Told T toolCallId r none
        (begun toolCallId description name steps ++
          [.ended (terminalEvent result name (cumulativeUsage result.tokenUsageRecords))])
        (.ok m)
  | limited {e : Exc} {description name : String} {steps : List Step} {result : SubagentResult}
      {m : ToolMessage} (he : e.limits = true) (ho : Own toolCallId result)
      (ha : Answers toolCallId result m) :
      Told T toolCallId r (some e)
        (begun toolCallId description name steps ++
          [.ended (terminalEvent result name (cumulativeUsage result.tokenUsageRecords))])
        (.ok m)
  | cancelled {description name : String} {steps : List Step} {result : SubagentResult}
      (ho : Own toolCallId result) :
      Told T toolCallId r (some .cancelled)
        (begun toolCallId description name steps ++ [.ended (terminalEvent result name none)])
        (.error .cancelled)
  | escaped {e : Exc} {description name : String} {steps : List Step} (he : e.escapes = true) :
      Told T toolCallId r (some e) (begun toolCallId description name steps) (.error e)

section

variable {E} {toolCallId : String} {r : TaskRun}

/-- The slot or the executor is left with an exception, or the executor gives a result. -/
theorem TaskRun.await_spec (maxTurns : ℕ) (toolCallId : String) :
  match r.left E.texts with
  | some e => (r.await E maxTurns toolCallId).1 = .error e
  | none => ∃ result, (r.await E maxTurns toolCallId).1 = .ok result ∧
      Returned E.texts toolCallId r.run result
  := by
  have hr := arun_spec (T := E.texts) maxTurns toolCallId r.run
  rw [left, await]
  cases r.admission with
  | some e => rfl
  | none =>
      dsimp only
      generalize arun E.texts maxTurns toolCallId r.run = a at *
      obtain ⟨outcome, steps⟩ := a
      cases hl : r.run.left E.texts with
      | none =>
          rw [hl] at hr
          obtain ⟨result, hresult, hreturned⟩ := hr
          dsimp only at hresult
          subst hresult
          exact ⟨result, rfl, hreturned⟩
      | some e =>
          rw [hl] at hr
          dsimp only at hr
          subst hr
          rw [Option.map_some]
          cases e with
          | cancelled => by_cases ht : r.timer <;> simp [ht]
          | _ => rfl

theorem count?_int (n : ℕ) :
  count? (some (.int n)) = some n
  := by
  rw [count?, if_pos (Int.natCast_nonneg n), Int.toNat_natCast]

/-- Counts are as they should be. -/
theorem normalizeTokenUsage_counts (input output total : ℕ) :
  normalizeTokenUsage
      [("input_tokens", .int input), ("output_tokens", .int output), ("total_tokens", .int total)] =
    some [("input_tokens", .int input), ("output_tokens", .int output), ("total_tokens", .int total)]
  := by
  change ((count? (some (.int input))).bind fun i => (count? (some (.int output))).bind fun o =>
    (count? (some (.int total))).bind fun t =>
      some [("input_tokens", Json.int i), ("output_tokens", .int o), ("total_tokens", .int t)]) = _
  rw [count?_int, count?_int, count?_int]
  rfl

/-- The counts of the records are counts. -/
theorem normalizeTokenUsage_cumulativeUsage (records : List UsageRecord) :
  (cumulativeUsage records).bind normalizeTokenUsage = cumulativeUsage records
  := by
  rw [cumulativeUsage]
  split
  · rfl
  · apply normalizeTokenUsage_counts

/-- A result that has ended is answered. -/
theorem taskAnswerOf_spec (toolCallId : String) (typeNote : Option String) {result : SubagentResult}
    (ht : result.status.isTerminal = true)
    (hs : ∀ reason ∈ result.stopReason, reason = "turn_capped") :
  ∃ m, taskAnswerOf E toolCallId typeNote result = some m ∧ Answers toolCallId result m
  := by
  have hreason : (result.stopReason.any fun r => (stopReasonLabels.lookup r).isNone) = false := by
    cases hr : result.stopReason with
    | none => rfl
    | some reason =>
        rw [hs reason hr]
        rfl
  rw [taskAnswerOf, makeSubagentAdditionalKwargs, ht, hreason]
  refine ⟨_, rfl, rfl, rfl, ?_, ?_⟩
  · simp
  · simp [normalizeTokenUsage_cumulativeUsage]

/-- A result of the tool itself is answered. -/
theorem own_trySetTerminal (toolCallId : String) (typeNote : Option String) (e : Ending)
    (hs : e.stopReason = none) (hu : e.tokenUsageRecords = none) :
  Own toolCallId (({ taskId := toolCallId } : SubagentResult).trySetTerminal e) ∧
    ∃ m, taskAnswerOf E toolCallId typeNote
        (({ taskId := toolCallId } : SubagentResult).trySetTerminal e) = some m ∧
      Answers toolCallId (({ taskId := toolCallId } : SubagentResult).trySetTerminal e) m
  := by
  constructor
  · refine ⟨rfl, e.terminal, rfl, ?_⟩
    change e.tokenUsageRecords.getD [] = []
    rw [hu, Option.getD_none]
  · apply taskAnswerOf_spec toolCallId typeNote e.terminal
    change ∀ reason ∈ e.stopReason.or none, reason = _
    rw [hs]
    exact fun reason h => absurd h (by simp)

/-- What the tool tells of and answers, by how the slot and the executor are left. -/
theorem told_task (execTimeout : String) (args : TaskArgs) :
  Told E.texts toolCallId r (r.left E.texts) (task E execTimeout toolCallId args r).1
    (task E execTimeout toolCallId args r).2
  := by
  obtain ⟨note, hconfig⟩ : ∃ note, resolveSubagentConfig args.subagentType =
      (some { name := "general-purpose" }, note) :=
    ⟨_, Prod.ext (fst_resolveSubagentConfig _) rfl⟩
  have hawait := TaskRun.await_spec (E := E) (r := r) 50 toolCallId
  rw [task, hconfig]
  dsimp only
  generalize r.await E 50 toolCallId = a at *
  obtain ⟨outcome, steps⟩ := a
  cases hl : r.left E.texts with
  | none =>
      rw [hl] at hawait
      obtain ⟨result, hresult, hreturned⟩ := hawait
      dsimp only at hresult
      subst hresult
      obtain ⟨m, hm, hanswers⟩ := taskAnswerOf_spec (E := E) toolCallId note
        hreturned.terminal hreturned.reason
      dsimp only
      rw [finish, hm]
      exact .returned hreturned hanswers
  | some e =>
      rw [hl] at hawait
      dsimp only at hawait
      subst hawait
      cases e with
      | cancelled =>
          obtain ⟨ho, -⟩ := own_trySetTerminal (E := E) toolCallId note
            { status := .cancelled, terminal := rfl, error := some "Cancelled" } rfl rfl
          exact .cancelled ho
      | capacity text =>
          obtain ⟨ho, m, hm, hanswers⟩ := own_trySetTerminal (E := E) toolCallId note {
            status := .failed
            terminal := rfl
            error := some ("Delegation not admitted: " ++ text) } rfl rfl
          dsimp only
          rw [finish, hm]
          exact .limited rfl ho hanswers
      | timeout text =>
          obtain ⟨ho, m, hm, hanswers⟩ := own_trySetTerminal (E := E) toolCallId note {
            status := .timedOut
            terminal := rfl
            error := some ("Execution timed out after " ++ execTimeout ++ "s") } rfl rfl
          dsimp only
          rw [finish, hm]
          exact .limited rfl ho hanswers
      | recursion text => exact .escaped rfl
      | error text => exact .escaped rfl
      | exit => exact .escaped rfl

end

end Agent
