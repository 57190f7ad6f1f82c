import GitAgent.Agent.Citation
import GitAgent.Agent.Finding

/-!
# The result of a delegation

The holder of what a delegation has come to (`core/subagents/contract.py`), which the first status
that ends the delegation closes, and the verdict on its report (`core/tools/delegation/task.py`).
-/

namespace Agent

/-- `SubagentStatus`. -/
inductive SubagentStatus
  | pending
  | running
  | completed
  | failed
  | cancelled
  | timedOut
  deriving DecidableEq, Repr

namespace SubagentStatus

/-- The value on the wire. -/
def value : SubagentStatus → String
  | pending => "pending"
  | running => "running"
  | completed => "completed"
  | failed => "failed"
  | cancelled => "cancelled"
  | timedOut => "timed_out"

/-- Whether a delegation with the status has ended. -/
def isTerminal : SubagentStatus → Bool
  | completed | failed | cancelled | timedOut => true
  | pending | running => false

end SubagentStatus

/-- The usage of one call of the model, as `SubagentTokenCollector` records it. -/
structure UsageRecord where
  caller : String
  modelName : Option String
  inputTokens : ℕ
  outputTokens : ℕ
  totalTokens : ℕ
  deriving DecidableEq, Repr

/-- `SubagentResult`. -/
structure SubagentResult where
  taskId : String
  status : SubagentStatus := .pending
  result : Option String := none
  error : Option String := none
  stopReason : Option String := none
  tokenUsageRecords : List UsageRecord := []
  toolReceipts : Option (List ToolReceipt) := none
  findings : List Finding := []

/-- What a delegation ends with: a status of an ended one, and what is known. -/
structure Ending where
  status : SubagentStatus
  terminal : status.isTerminal = true
  result : Option String := none
  error : Option String := none
  stopReason : Option String := none
  toolReceipts : Option (List ToolReceipt) := none
  tokenUsageRecords : Option (List UsageRecord) := none

namespace SubagentResult

/-- `try_set_terminal`: the first ending counts, and what it does not know stays. -/
def trySetTerminal (r : SubagentResult) (e : Ending) : SubagentResult :=
  if r.status.isTerminal then r
  else
    { r with
      status := e.status
      result := e.result.or r.result
      error := e.error.or r.error
      stopReason := e.stopReason.or r.stopReason
      toolReceipts := e.toolReceipts.or r.toolReceipts
      tokenUsageRecords := e.tokenUsageRecords.getD r.tokenUsageRecords }

/-- `update_token_usage_records`. -/
def updateTokenUsageRecords (r : SubagentResult) (records : List UsageRecord) : SubagentResult :=
  if r.status.isTerminal then r else { r with tokenUsageRecords := records }

/-- `update_tool_receipts`. -/
def updateToolReceipts (r : SubagentResult) (receipts : Option (List ToolReceipt)) :
    SubagentResult :=
  match receipts with
  | none => r
  | some receipts => if r.status.isTerminal then r else { r with toolReceipts := some receipts }

/-- The verdict on the report of a completed delegation. -/
def verdict (L : Lexicon) (r : SubagentResult) : Option ReceiptVerdict :=
  match r.toolReceipts, r.result with
  | some receipts, some text =>
      if r.status = .completed ∧ text ≠ "" then some (L.verifyReceiptCitations text receipts)
      else none
  | _, _ => none

end SubagentResult

/-- `_extract_final_result`: the text of the last reply. -/
def extractFinalResult (messages : List Message) : String :=
  match (repliesOf messages).getLast? with
  | some m => if isBlank (text m.content) then "No response generated" else text m.content
  | none => "No response generated"

/-! ### The result on the wire -/

/-- `SUBAGENT_STOP_REASON_VALUES`, with their labels. -/
def stopReasonLabels : List (String × String) :=
  [("token_capped", "token budget"), ("turn_capped", "turn budget"),
    ("loop_capped", "loop detector")]

/-- `_truncate_head_tail`, to at most 2000 characters. -/
def truncateHeadTail (text : String) : String :=
  let cs := text.toList
  let head := 2000 * 2 / 3
  let tail := 2000 - head - 5
  if cs.length ≤ 2000 then text
  else String.ofList (cs.take head ++ "\n...\n".toList ++ cs.drop (cs.length - tail))

/-- `_cumulative_usage`. -/
def cumulativeUsage (records : List UsageRecord) : Option Json.Fields :=
  if records = [] then none
  else some [("input_tokens", .int (records.map UsageRecord.inputTokens).sum),
    ("output_tokens", .int (records.map UsageRecord.outputTokens).sum),
    ("total_tokens", .int (records.map UsageRecord.totalTokens).sum)]

/-- A count, which is an integer that is not negative. -/
def count? : Option Json → Option ℕ
  | some (.int n) => if 0 ≤ n then some n.toNat else none
  | _ => none

/-- `normalize_token_usage`. -/
def normalizeTokenUsage (value : Json.Fields) : Option Json.Fields := do
  let input ← count? (Json.get value "input_tokens")
  let output ← count? (Json.get value "output_tokens")
  let total ← count? (Json.get value "total_tokens")
  return [("input_tokens", .int input), ("output_tokens", .int output), ("total_tokens", .int total)]

/-- A verdict as an object. -/
def ReceiptVerdict.toFields (v : ReceiptVerdict) : Json.Fields :=
  [("source", .str v.source), ("requirement", .str v.requirement),
    ("citation_resolved", .bool v.citationResolved), ("cited", .arr (v.cited.map .str)),
    ("resolved", .arr (v.resolved.map .str)),
    ("failed", .arr (v.failed.map fun f => .obj [("id", .str f.id), ("reason", .str f.reason)])),
    ("unknown", .arr (v.unknown.map .str)), ("no_citation_claims", .bool v.noCitationClaims)]

/-- `make_subagent_additional_kwargs`, which fails for a delegation that has not ended, or has
stopped for an unknown reason. -/
def makeSubagentAdditionalKwargs (D : Digests) (status : SubagentStatus)
    (result error stopReason : Option String) (tokenUsage : Option Json.Fields)
    (toolReceipts : Option (List ToolReceipt)) (receiptVerdict : Option ReceiptVerdict) :
    Option Json.Fields :=
  if !status.isTerminal then none
  else if stopReason.any fun r => (stopReasonLabels.lookup r).isNone then none
  else
    let error := if status = .completed then none else error.filter (· ≠ "")
    let result := if status = .completed then result.filter (· ≠ "") else none
    some (("subagent_status", .str status.value) ::
      (Json.field "subagent_stop_reason" (stopReason.map .str) ++
      Json.field "subagent_error" (error.map fun e => .str (truncateHeadTail e)) ++
      Json.field "subagent_result_brief" (result.map fun r => .str (truncateHeadTail r)) ++
      Json.field "subagent_result_sha256" (result.map fun r => .str (D.hash r)) ++
      Json.field "subagent_token_usage" ((tokenUsage.bind normalizeTokenUsage).map .obj) ++
      Json.field "subagent_tool_receipts"
        (toolReceipts.map fun rs => .arr (rs.map fun r => .obj r.toFields)) ++
      Json.field "subagent_receipt_verdict" (receiptVerdict.map fun v => .obj v.toFields)))

/-- `rstrip`. -/
def rstrip (s : String) : String :=
  String.ofList ((s.toList.reverse.dropWhile isSpace).reverse)

/-- `format_subagent_result_message`. -/
def formatSubagentResultMessage (status : SubagentStatus)
    (result error stopReason : Option String) : String :=
  let cap := ((stopReason.bind (stopReasonLabels.lookup ·)).map fun label =>
    " (capped: " ++ label ++ ")").getD ""
  match status with
  | .completed =>
      "Task Succeeded" ++ cap ++ ". Result:\n" ++
        (result.filter (· ≠ "")).getD "No response generated"
  | .timedOut => rstrip ("Task Timed Out" ++ cap ++ ". " ++ error.getD "")
  | .cancelled => rstrip ("Task Cancelled" ++ cap ++ ". " ++ error.getD "")
  | _ => "Task Failed" ++ cap ++ ". " ++ (error.filter (· ≠ "")).getD "Unknown error"

/-- `render_citation_verdict`. -/
def renderCitationVerdict (v : ReceiptVerdict) : String :=
  let count (n : ℕ) (what : String) : List String :=
    if n = 0 then [] else [toString n ++ " " ++ what]
  if v.noCitationClaims then "citations: UNVERIFIED — action claims without receipt citations"
  else if v.cited = [] then ""
  else
    "citations: " ++ ", ".intercalate ((toString v.resolved.length ++ " resolved") ::
      (count v.failed.length "failed" ++ count v.unknown.length "unknown")) ++
      " — execution evidence only, does not validate claim correctness"

end Agent
