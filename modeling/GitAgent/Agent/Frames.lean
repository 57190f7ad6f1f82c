import GitAgent.Agent.Delegation

/-!
# Frames of activity

The frames that the chunks of a turn are turned into (`ActivityCollector` in
`core/runner/activity.py`), and the graph that the frames are folded to for the user (`foldActivity`
in `features/hub/activity.ts`), without the times.
-/

namespace Agent

/-- A frame. -/
structure Frame where
  kind : String
  taskId : Option String := none
  status : Option String := none
  description : Option String := none
  findingsCount : Option ℕ := none
  text : Option String := none
  tokens : Option (ℤ × ℤ) := none
  deriving DecidableEq, Repr

/-- `_clip`. -/
def clip (limit : ℕ) (text : String) : String :=
  let text := strip text
  if text.length ≤ limit then text else takeText limit text ++ "…"

namespace Texts

variable (T : Texts)

/-- `message_text`. -/
def messageText : Json → String
  | .str s => s
  | .arr blocks => String.join (blocks.map fun
      | .obj block =>
          match Json.get block "type" with
          | some (.str "text") => ((Json.get block "text").map T.toStr).getD ""
          | _ => ""
      | _ => "")
  | _ => ""

/-- `call_line`: the call of a tool in one line, with arguments that are an object, or a text that
may be the JSON text of one. -/
def callLine (name : String) (args : Json) : String :=
  let args :=
    match args with
    | .str s => (T.loads s).getD (.str s)
    | args => args
  let rendered :=
    match args with
    | .obj fields => ", ".intercalate (fields.map fun f => f.1 ++ "=" ++ T.dumps f.2)
    | .null | .str "" => ""
    | args => T.toStr args
  clip 400 ((if name = "" then "tool" else name) ++ "(" ++ rendered ++ ")")

/-- `_work`: the frames of a message: its text, the calls of tools, the answer of a tool, with
the tokens on the first frame. -/
def work (taskId : Option String) (text : Json) (calls : List (String × Json))
    (result : Option (Option String × Json)) (usage : Option (ℤ × ℤ)) : List Frame :=
  let text := strip (T.messageText text)
  let frames : List Frame :=
    (if text = "" then []
      else [{ kind := "text", taskId, description := some (clip 2000 text) }]) ++
    (calls.map fun c => { kind := "tool_call", taskId, description := some (T.callLine c.1 c.2) }) ++
    (result.map fun r =>
      { kind := "tool_result"
        taskId
        description := some ((((r.1.filter (· ≠ ""))).getD "tool") ++ ": " ++
          clip 800 (T.truthyText (some r.2))) : Frame }).toList
  match usage with
  | none => frames
  | some tokens =>
      match frames with
      | [] => [{ kind := "text", taskId, description := some "", tokens := some tokens }]
      | f :: frames => { f with tokens := some tokens } :: frames

end Texts

/-- `ActivityCollector`. -/
structure ActivityCollector where
  findings : ℕ := 0
  reply : List String := []
  tasks : Dict String String := .empty

/-- `_TERMINAL`: the kind and the status of the frame for an end. -/
def terminalFrame : SubagentStatus → Option (String × String)
  | .completed => some ("task_finished", "done")
  | .failed => some ("task_failed", "failed")
  | .timedOut => some ("task_failed", "timeout")
  | .cancelled => some ("task_failed", "failed")
  | .pending | .running => none

namespace ActivityCollector

variable (T : Texts) (c : ActivityCollector)

/-- `_custom`. -/
def custom : TaskEvent → ActivityCollector × List Frame
  | .started taskId description _ =>
      if taskId = "" then (c, [])
      else
        ({ c with tasks := c.tasks.set taskId "queued" },
          [{ kind := "task_started", taskId := some taskId, description := some description
             status := some "queued" }])
  | .running step =>
      if step.taskId = "" then (c, [])
      else
        let work :=
          if step.kind = "tool" then
            T.work (some step.taskId) (.str "") [] (some (step.toolName, .str step.text)) none
          else if step.kind = "ai" then
            T.work (some step.taskId) (.str step.text)
              (step.toolCalls.map fun call => (call.name, .str call.args)) none step.usage
          else []
        if c.tasks.get step.taskId = some "queued" then
          ({ c with tasks := c.tasks.set step.taskId "working" },
            { kind := "task_started", taskId := some step.taskId, status := some "working" } :: work)
        else (c, work)
  | .ended e =>
      if e.taskId = "" then (c, [])
      else
        match terminalFrame e.status with
        | none => (c, [])
        | some (kind, status) =>
            ({ c with tasks := c.tasks.set e.taskId status },
              [{ kind, taskId := some e.taskId, status := some status, description := e.error
                 findingsCount := some e.findings.length }])

/-- The frames of one message of an update. -/
def message : Message → ActivityCollector × List Frame
  | .ai m =>
      let text := strip (T.messageText m.content)
      ({ c with
          findings := c.findings + m.toolCalls.countP fun call => call.name = "report_finding"
          reply := if text = "" then c.reply else c.reply ++ [text] },
        T.work none m.content (m.toolCalls.map fun call => (call.name, .obj call.args)) none
          (m.usage.map fun u => (u.inputTokens, u.outputTokens)))
  | .tool m =>
      (c, (if m.name = "task" then [] else T.work none (.str "") [] (some (some m.name, m.content)) none) ++
        (if m.name = "task" ∧ m.toolCallId ≠ "" then
          [{ kind := "task_report", taskId := some m.toolCallId
             description := some (T.truthyText (some m.content)) }]
        else []))
  | _ => (c, [])

/-- The frames of a list, each with the collector that the ones before have left. -/
def each {α : Type} (f : ActivityCollector → α → ActivityCollector × List Frame) :
    ActivityCollector → List α → ActivityCollector × List Frame
  | c, [] => (c, [])
  | c, a :: as => ((each f (f c a).1 as).1, (f c a).2 ++ (each f (f c a).1 as).2)

/-- `_updates`, for the update of one node. -/
def updates (node : String) (messages : List Message) : ActivityCollector × List Frame :=
  let (c, frames) := each (message T) c messages
  (c, frames ++ [{ kind := "node", description := some node, status := some "done"
                   findingsCount := some c.findings }])

end ActivityCollector

/-! ### The graph -/

/-- A line of a work log. -/
structure WorkFrame where
  kind : String
  text : String
  tokens : Option (ℤ × ℤ)
  deriving DecidableEq, Repr

/-- `AgentNode`. -/
structure AgentNode where
  taskId : String
  status : String := "queued"
  description : Option String := none
  findingsCount : Option ℕ := none
  error : Option String := none
  report : Option String := none
  work : List WorkFrame := []
  tokens : ℤ × ℤ := (0, 0)
  deriving DecidableEq, Repr

/-- `TurnGraph`. -/
structure TurnGraph where
  started : Bool := false
  finished : Bool := false
  failed : Bool := false
  leadFindings : ℕ := 0
  error : Option String := none
  tasks : List AgentNode := []
  leadWork : List WorkFrame := []
  leadTokens : ℤ × ℤ := (0, 0)
  tokens : ℤ × ℤ := (0, 0)
  deriving DecidableEq, Repr

/-- `addTokens`. -/
def addTokens (t : ℤ × ℤ) (tokens : Option (ℤ × ℤ)) : ℤ × ℤ :=
  match tokens with
  | none => t
  | some x => (t.1 + x.1, t.2 + x.2)

namespace TurnGraph

/-- The change of the node of a task, which is added if there is none. -/
def node (g : TurnGraph) (taskId : String) (f : AgentNode → AgentNode) : TurnGraph :=
  { g with
    tasks :=
      if g.tasks.any fun n => n.taskId = taskId then
        g.tasks.map fun n => if n.taskId = taskId then f n else n
      else g.tasks ++ [f { taskId }] }

/-- What a frame changes in the node of its task. -/
def taskFrame (f : Frame) (n : AgentNode) : AgentNode :=
  if f.kind = "task_report" then { n with report := f.description }
  else
    let description := f.description.filter (· ≠ "")
    let started : Bool := f.kind = "task_started"
    { n with
      status := (f.status.filter (· ≠ "")).getD n.status
      description := if started then description.or n.description else n.description
      findingsCount := if started then n.findingsCount else f.findingsCount.or n.findingsCount
      error := if started then n.error else description.or n.error }

/-- The graph after one more frame. -/
def frame (g : TurnGraph) (f : Frame) : TurnGraph :=
  let g :=
    match f.findingsCount with
    | some n => if f.kind = "task_finished" ∨ f.kind = "task_failed" then g else { g with leadFindings := n }
    | none => g
  if f.kind = "run_started" then { g with started := true }
  else if f.kind = "run_finished" then { g with finished := true }
  else if f.kind = "run_failed" then
    { g with finished := true, failed := true, error := f.description }
  else if f.kind ∈ ["task_started", "task_finished", "task_failed", "task_report"] then
    match f.taskId.filter (· ≠ "") with
    | none => g
    | some taskId => g.node taskId (taskFrame f)
  else if f.kind ∈ ["tool_call", "tool_result", "text"] then
    let line : WorkFrame := ⟨f.kind, f.description.getD "", f.tokens⟩
    let g :=
      match f.taskId.filter (· ≠ "") with
      | some taskId =>
          g.node taskId fun n =>
            { n with work := n.work ++ [line], tokens := addTokens n.tokens f.tokens }
      | none =>
          { g with leadWork := g.leadWork ++ [line], leadTokens := addTokens g.leadTokens f.tokens }
    { g with tokens := addTokens g.tokens f.tokens }
  else g

end TurnGraph

/-- `foldActivity`. -/
def foldActivity (frames : List Frame) : TurnGraph :=
  frames.foldl TurnGraph.frame {}

end Agent
