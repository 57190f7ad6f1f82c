import GitAgent.Agent.Frames

/-!
# The life of a delegation

A delegation that the tool tells of has one end, and the graph shows it with the status of that
end, unless an exception passes through the tool, or the call was answered without an event. What
the subagent has collected is in the end, unless the tool ends a result of its own.
-/

namespace Agent

variable {E : Environment} {T : Texts} {execTimeout toolCallId : String} {r : TaskRun}

/-! ### What is kept -/

/-- Whether the subagent is run. -/
def TaskRun.runs (r : TaskRun) : Bool :=
  r.admission.isNone && r.run.setup.isNone

/-- The findings of the last chunk that was processed. -/
def TaskRun.findings (T : Texts) (r : TaskRun) : List Finding :=
  if r.runs then r.run.findings T else []

/-- The usage records that were collected. -/
def TaskRun.records (r : TaskRun) : List UsageRecord :=
  if r.runs then r.run.records else []

/-- Nothing that was collected is lost: the end has the findings and the usage, and so has the
answer the usage. -/
structure Kept (T : Texts) (r : TaskRun) (events : List TaskEvent)
    (answer : Except Exc ToolMessage) : Prop where
  findings : ∀ e, .ended e ∈ events → e.findings = r.findings T
  usage : ∀ e, .ended e ∈ events → e.usage = cumulativeUsage r.records
  answered : ∀ m, answer = .ok m →
    Json.get m.additionalKwargs "subagent_token_usage" = (cumulativeUsage r.records).map .obj

/-- Whether the slot or the executor is left with an exception that the tool handles: a
cancellation, or the end of a limit. -/
def TaskRun.Interrupted (T : Texts) (r : TaskRun) : Prop :=
  ∃ e ∈ r.left T, e.escapes = false

theorem Exc.escapes_of_limits {e : Exc} (h : e.limits = true) :
  e.escapes = false
  := by
  cases e <;> first | rfl | contradiction

theorem cumulativeUsage_eq_none_iff {records : List UsageRecord} :
  cumulativeUsage records = none ↔ records = []
  := by
  rw [cumulativeUsage]
  split
  · rename_i h
    exact ⟨fun _ => h, fun _ => rfl⟩
  · rename_i h
    exact ⟨fun hn => absurd hn (by simp), fun hn => absurd hn h⟩

theorem not_ended_mem_begun {description name : String} {steps : List Step} {e : TerminalEvent} :
  .ended e ∉ begun toolCallId description name steps
  := by
  simp [begun]

/-- What is kept is told by the only end among the events, which is the last. -/
theorem kept_ended_iff {description name : String} {steps : List Step} {e : TerminalEvent}
    {answer : Except Exc ToolMessage} :
  Kept T r (begun toolCallId description name steps ++ [.ended e]) answer ↔
    e.findings = r.findings T ∧ e.usage = cumulativeUsage r.records ∧
      ∀ m, answer = .ok m →
        Json.get m.additionalKwargs "subagent_token_usage" = (cumulativeUsage r.records).map .obj
  := by
  have hmem : ∀ e', .ended e' ∈ begun toolCallId description name steps ++ [.ended e] ↔ e' = e := by
    simp [begun]
  constructor
  · rintro ⟨hf, hu, ha⟩
    exact ⟨hf e ((hmem e).mpr rfl), hu e ((hmem e).mpr rfl), ha⟩
  · rintro ⟨hf, hu, ha⟩
    constructor
    · intro e' he
      rwa [(hmem e').mp he]
    · intro e' he
      rwa [(hmem e').mp he]
    · apply ha

/-- A subagent whose executor is not left with an exception is run. -/
theorem TaskRun.runs_of_left (h : r.left T = none) :
  r.runs = true
  := by
  rw [left] at h
  rw [runs]
  cases ha : r.admission with
  | some e =>
      rw [ha] at h
      contradiction
  | none =>
      rw [ha] at h
      rw [Option.map_eq_none_iff, SubagentRun.left] at h
      cases hs : r.run.setup with
      | some e =>
          rw [hs] at h
          contradiction
      | none => rfl

/-- The end of a result of the tool itself has what was collected exactly if nothing was. -/
theorem Own.kept_iff {result : SubagentResult} (h : Own toolCallId result) {name : String}
    {usage : Option Json.Fields} (hu : usage = none) :
  (terminalEvent result name usage).findings = r.findings T ∧ usage = cumulativeUsage r.records ↔
    r.findings T = [] ∧ r.records = []
  := by
  rw [show (terminalEvent result name usage).findings = [] from h.findings, hu, eq_comm,
    eq_comm (a := none), cumulativeUsage_eq_none_iff]

/-- What was collected is kept exactly if an interrupted subagent has collected nothing. -/
theorem Told.kept_iff {events : List TaskEvent} {answer : Except Exc ToolMessage}
    (h : Told T toolCallId r (r.left T) events answer) :
  Kept T r events answer ↔ (r.Interrupted T → r.findings T = [] ∧ r.records = [])
  := by
  rw [TaskRun.Interrupted]
  generalize hl : r.left T = left at h
  cases h with
  | @returned _ _ _ result m hr ha =>
      have hruns := TaskRun.runs_of_left hl
      have hrecords : r.records = result.tokenUsageRecords := by
        rw [TaskRun.records, if_pos hruns, hr.records]
      apply iff_of_true
      · rw [kept_ended_iff, TaskRun.findings, if_pos hruns, hrecords]
        refine ⟨hr.findings, rfl, ?_⟩
        rintro m ⟨⟩
        apply ha.usage
      · rintro ⟨e, he, -⟩
        contradiction
  | @limited e _ _ _ result m he ho ha =>
      have hint : ∃ e' ∈ some e, e'.escapes = false :=
        ⟨e, rfl, Exc.escapes_of_limits he⟩
      have hnone : cumulativeUsage result.tokenUsageRecords = none :=
        cumulativeUsage_eq_none_iff.mpr ho.records
      rw [kept_ended_iff, ← and_assoc, imp_iff_right hint]
      change (_ ∧ cumulativeUsage _ = _) ∧ _ ↔ _
      rw [ho.kept_iff hnone, and_iff_left_iff_imp]
      rintro ⟨-, hu⟩ m ⟨⟩
      rw [ha.usage, ho.records, hu]
  | cancelled ho =>
      have hint : ∃ e' ∈ some Exc.cancelled, e'.escapes = false := ⟨.cancelled, rfl, rfl⟩
      rw [kept_ended_iff, ← and_assoc, imp_iff_right hint]
      change (_ ∧ none = _) ∧ _ ↔ _
      rw [ho.kept_iff rfl, and_iff_left_iff_imp]
      rintro - m ⟨⟩
  | escaped he =>
      apply iff_of_true
      · constructor
        · intro e h
          apply absurd h not_ended_mem_begun
        · intro e h
          apply absurd h not_ended_mem_begun
        · rintro m ⟨⟩
      · rintro ⟨e, hm, hn⟩
        rw [← Option.some.inj hm, he] at hn
        contradiction

/-- What the texts below need of the libraries. -/
def sampleEnvironment : Environment where
  digests := { hash := fun _ => "", shortHash := fun _ => "", dumps := fun _ => "\x7b\x7d" }
  texts := { str := fun _ => "None", dumps := fun _ => "\x7b\x7d", loads := fun _ => none }
  lexicon := { isWord := Char.isAlphanum, hasActionClaims := fun _ => false }

/-- The usage of one call of the model. -/
def sampleRecord : UsageRecord :=
  ⟨"subagent:general-purpose", none, 100, 20, 120⟩

/-- A subagent that has reported a finding when the time limit runs out. -/
def lateRun : TaskRun where
  timer := true
  run := {
    chunks := [
      { messages := [.ai {
          toolCalls := [{
            name := "report_finding"
            args := [("title", .str "SQL injection"), ("severity", .str "high"),
              ("file", .str "app.py")]
            id := some "f" }] }]
        records := [sampleRecord] }]
    stop := some .cancelled
    records := [sampleRecord] }

/-- The arguments of a call. -/
def sampleArgs : TaskArgs :=
  ⟨"audit", "Audit app.py", "general-purpose", none⟩

/-- An answer that the tool node gives itself. -/
def errorAnswer (toolCallId text : String) : ToolMessage :=
  { content := .str text, name := "task", toolCallId, status := "error" }

/-- The call of the tool by the tool node: an error answers arguments that the schema rejects,
and an exception that passes through the tool. -/
def callTask (E : Environment) (execTimeout toolCallId : String) (args : Json.Fields)
    (errorText : String) (r : TaskRun) : List TaskEvent × Option ToolMessage :=
  match parseTaskArgs args with
  | none => ([], some (errorAnswer toolCallId errorText))
  | some args =>
      match task E execTimeout toolCallId args r with
      | (events, .ok m) => (events, some m)
      | (events, .error .cancelled) => (events, none)
      | (events, .error .exit) => (events, none)
      | (events, .error _) => (events, some (errorAnswer toolCallId errorText))

/-- The frames of the events and of the update with the answer. -/
def taskFrames (T : Texts) (c : ActivityCollector) (events : List TaskEvent)
    (answer : Option ToolMessage) : List Frame :=
  let (c, frames) := ActivityCollector.each (ActivityCollector.custom T) c events
  frames ++
    match answer with
    | some m => (c.updates T "tools" [.tool m]).2
    | none => []

/-- Whether an event is an end of a task. -/
def TaskEvent.ends (taskId : String) : TaskEvent → Bool
  | ended e => e.taskId = taskId && (terminalFrame e.status).isSome
  | _ => false

/-- The statuses of a task that has ended. -/
def endStatuses : List String :=
  ["done", "failed", "timeout"]

/-- A delegation has one end, with the status of the answer, and the graph shows it ended, if it
shows it. -/
structure Lifecycle (T : Texts) (c : ActivityCollector) (toolCallId : String)
    (events : List TaskEvent) (answer : Option ToolMessage) : Prop where
  ends : ∀ before after taskId description name,
    events = before ++ .started taskId description name :: after →
      after.countP (TaskEvent.ends taskId) = 1
  status : ∀ e, .ended e ∈ events → ∀ m ∈ answer,
    ∀ value ∈ Json.get m.additionalKwargs "subagent_status", value = .str e.status.value
  shown : ∀ n ∈ (foldActivity (taskFrames T c events answer)).tasks,
    n.taskId = toolCallId → n.status ∈ endStatuses

namespace TurnGraph

/-- The task is in the graph, with the status. -/
structure Settled (g : TurnGraph) (taskId status : String) : Prop where
  shown : ∃ n ∈ g.tasks, n.taskId = taskId
  status : ∀ n ∈ g.tasks, n.taskId = taskId → n.status = status

variable {g g' : TurnGraph} {taskId status : String} {f : Frame}

theorem settled_iff (h : g'.tasks = g.tasks) :
  g'.Settled taskId status ↔ g.Settled taskId status
  := by
  constructor
  · rintro ⟨hshown, hstatus⟩
    rw [h] at hshown hstatus
    exact ⟨hshown, hstatus⟩
  · rintro ⟨hshown, hstatus⟩
    rw [← h] at hshown hstatus
    exact ⟨hshown, hstatus⟩

@[simp]
theorem taskId_taskFrame (f : Frame) (n : AgentNode) :
  (taskFrame f n).taskId = n.taskId
  := by
  rw [taskFrame]
  split <;> rfl

/-- A change of the node of a task settles it if it gives the node the status. -/
theorem settled_node {change : AgentNode → AgentNode} (hid : ∀ n, (change n).taskId = n.taskId)
    (hs : ∀ n, (n ∈ g.tasks → n.taskId = taskId → (change n).status = status) ∧
      ((∀ m ∈ g.tasks, m.taskId ≠ taskId) → (change { taskId }).status = status)) :
  (g.node taskId change).Settled taskId status
  := by
  rw [node]
  split
  · rename_i h
    obtain ⟨n, hn, he⟩ := List.any_eq_true.mp h
    have he : n.taskId = taskId := of_decide_eq_true he
    constructor
    · refine ⟨change n, List.mem_map.mpr ⟨n, hn, if_pos he⟩, ?_⟩
      rw [hid, he]
    · intro m hm hmid
      obtain ⟨n', hn', rfl⟩ := List.mem_map.mp hm
      split at hmid
      · rename_i he'
        rw [if_pos he']
        apply (hs n').1 hn' he'
      · contradiction
  · rename_i h
    have hno : ∀ m ∈ g.tasks, m.taskId ≠ taskId := by simpa using h
    constructor
    · refine ⟨change { taskId }, by simp, ?_⟩
      rw [hid]
    · intro m hm hmid
      rcases List.mem_append.mp hm with hm | hm
      · apply absurd hmid (hno m hm)
      · rw [List.mem_singleton.mp hm]
        apply (hs { taskId }).2 hno

/-- The tasks after a frame of a task. -/
theorem tasks_frame (hk : f.kind ∈ ["task_started", "task_finished", "task_failed", "task_report"])
    (hid : f.taskId = some taskId) (hne : taskId ≠ "") :
  (g.frame f).tasks = (g.node taskId (taskFrame f)).tasks
  := by
  have hfilter : f.taskId.filter (· ≠ "") = some taskId := by simp [hid, hne]
  have hkind : f.kind ≠ "run_started" ∧ f.kind ≠ "run_finished" ∧ f.kind ≠ "run_failed" := by
    refine ⟨?_, ?_, ?_⟩ <;> rintro h <;> rw [h] at hk <;> revert hk <;> decide
  rw [frame]
  simp only [hkind, if_false, hk, if_true, hfilter]
  cases f.findingsCount with
  | none => rfl
  | some n => split_ifs <;> rfl

/-- A frame with a status settles the task. -/
theorem settled_frame (hk : f.kind ∈ ["task_finished", "task_failed"])
    (hid : f.taskId = some taskId) (hne : taskId ≠ "") (hs : f.status = some status)
    (hst : status ≠ "") :
  (g.frame f).Settled taskId status
  := by
  have hk' : f.kind ∈ ["task_started", "task_finished", "task_failed", "task_report"] := by
    revert hk
    simp only [List.mem_cons, List.not_mem_nil, or_false]
    tauto
  have hreport : f.kind ≠ "task_report" := by
    rintro h
    rw [h] at hk
    revert hk
    decide
  have hstatus : ∀ n, (taskFrame f n).status = status := by
    intro n
    rw [taskFrame, if_neg hreport, hs, Option.filter_some, if_pos (by simpa using hst)]
    rfl
  have hset : (g.node taskId (taskFrame f)).Settled taskId status := by
    apply settled_node (taskId_taskFrame f)
    intro n
    exact ⟨fun _ _ => hstatus n, fun _ => hstatus _⟩
  rw [settled_iff (tasks_frame hk' hid hne)]
  apply hset

/-- A report leaves a task settled. -/
theorem Settled.report (h : g.Settled taskId status) (hk : f.kind = "task_report")
    (hid : f.taskId = some taskId) (hne : taskId ≠ "") :
  (g.frame f).Settled taskId status
  := by
  obtain ⟨n, hn, he⟩ := h.shown
  have hkind : f.kind ∈ ["task_started", "task_finished", "task_failed", "task_report"] := by
    rw [hk]
    decide
  have hstatus : ∀ n, (taskFrame f n).status = n.status := by
    intro n
    rw [taskFrame, if_pos hk]
  rw [settled_iff (tasks_frame hkind hid hne)]
  apply settled_node (taskId_taskFrame f)
  intro m
  constructor
  · intro hm hmid
    rw [hstatus]
    apply h.status m hm hmid
  · intro hno
    apply absurd he (hno n hn)

/-- The end of a node of the Lead's graph changes no task. -/
theorem tasks_frame_node (hk : f.kind = "node") :
  (g.frame f).tasks = g.tasks
  := by
  rw [frame, hk]
  cases f.findingsCount <;> rfl

/-- A frame changes no task, or the node of one task that has an id. -/
theorem tasks_frame_cases (g : TurnGraph) (f : Frame) :
  (g.frame f).tasks = g.tasks ∨
    ∃ taskId change, taskId ≠ "" ∧ (∀ n, (change n).taskId = n.taskId) ∧
      (g.frame f).tasks = (g.node taskId change).tasks
  := by
  rw [frame]
  cases htask : f.taskId.filter (· ≠ "") with
  | none =>
      left
      cases f.findingsCount <;> dsimp only <;> split_ifs <;> rfl
  | some taskId =>
      have hne : taskId ≠ "" := by
        have := (Option.filter_eq_some_iff.mp htask).2
        simpa using this
      let line : AgentNode → AgentNode := fun n =>
        { n with
          work := n.work ++ [⟨f.kind, f.description.getD "", f.tokens⟩]
          tokens := addTokens n.tokens f.tokens }
      have htask := taskId_taskFrame f
      have hline : ∀ n, (line n).taskId = n.taskId := fun _ => rfl
      cases f.findingsCount <;> dsimp only <;> split_ifs <;>
        first
        | exact .inl rfl
        | exact .inr ⟨taskId, taskFrame f, hne, htask, rfl⟩
        | exact .inr ⟨taskId, line, hne, hline, rfl⟩

/-- Every task of the graph keeps an id. -/
theorem taskId_ne_frame (h : ∀ n ∈ g.tasks, n.taskId ≠ "") :
  ∀ n ∈ (g.frame f).tasks, n.taskId ≠ ""
  := by
  obtain heq | ⟨taskId, change, hne, hid, heq⟩ := g.tasks_frame_cases f
  · rwa [heq]
  · rw [heq, node]
    dsimp only
    split
    · rintro n hn
      obtain ⟨m, hm, rfl⟩ := List.mem_map.mp hn
      split
      · rw [hid]
        apply h m hm
      · apply h m hm
    · rintro n hn
      rcases List.mem_append.mp hn with hn | hn
      · apply h n hn
      · rw [List.mem_singleton.mp hn, hid]
        apply hne

end TurnGraph

/-- No task without an id is shown. -/
theorem taskId_ne_foldActivity (frames : List Frame) :
  ∀ n ∈ (foldActivity frames).tasks, n.taskId ≠ ""
  := by
  have hfold : ∀ g : TurnGraph, (∀ n ∈ g.tasks, n.taskId ≠ "") →
      ∀ n ∈ (frames.foldl TurnGraph.frame g).tasks, n.taskId ≠ "" := by
    induction frames with
    | nil => exact fun g h => h
    | cons f frames ih => exact fun g h => ih _ (TurnGraph.taskId_ne_frame h)
  apply hfold
  intro n hn
  contradiction

/-- The frames of two lists are those of the one and of the other after it. -/
theorem ActivityCollector.each_append {α : Type}
    (f : ActivityCollector → α → ActivityCollector × List Frame) (c : ActivityCollector)
    (as bs : List α) :
  each f c (as ++ bs) =
    ((each f (each f c as).1 bs).1, (each f c as).2 ++ (each f (each f c as).1 bs).2)
  := by
  induction as generalizing c with
  | nil => rfl
  | cons a as ih =>
      rw [List.cons_append, each, ih, each]
      dsimp only
      rw [List.append_assoc]

/-- An end has a frame with a status of an end. -/
theorem terminalFrame_spec {status : SubagentStatus} (h : status.isTerminal = true) :
  ∃ kind shown, terminalFrame status = some (kind, shown) ∧
    kind ∈ ["task_finished", "task_failed"] ∧ shown ∈ endStatuses
  := by
  cases status with
  | pending => contradiction
  | running => contradiction
  | completed => exact ⟨_, _, rfl, by decide, by decide⟩
  | failed => exact ⟨_, _, rfl, by decide, by decide⟩
  | cancelled => exact ⟨_, _, rfl, by decide, by decide⟩
  | timedOut => exact ⟨_, _, rfl, by decide, by decide⟩

/-- The only start among the events of a delegation is the first. -/
theorem begun_split {description name : String} {steps : List Step}
    {last before after : List TaskEvent} {taskId description' name' : String} (hlast : ∀ a b c, .started a b c ∉ last)
    (h : begun toolCallId description name steps ++ last =
      before ++ .started taskId description' name' :: after) :
  taskId = toolCallId ∧ after = steps.map .running ++ last
  := by
  rw [begun, List.cons_append] at h
  cases before with
  | nil =>
      obtain ⟨hstart, hafter⟩ := List.cons.inj h
      obtain ⟨rfl, -, -⟩ := TaskEvent.started.inj hstart
      exact ⟨rfl, hafter.symm⟩
  | cons e before =>
      have hmem : .started taskId description' name' ∈ steps.map TaskEvent.running ++ last := by
        rw [(List.cons.inj h).2]
        simp
      rcases List.mem_append.mp hmem with hm | hm
      · simp at hm
      · apply absurd hm (hlast _ _ _)

/-- No step is an end. -/
theorem countP_running (taskId : String) (steps : List Step) :
  (steps.map TaskEvent.running).countP (TaskEvent.ends taskId) = 0
  := by
  rw [List.countP_eq_zero]
  intro e he
  obtain ⟨step, -, rfl⟩ := List.mem_map.mp he
  apply Bool.false_ne_true

/-- The frames of an update with an answer of a task: its report, and the end of the node. -/
theorem updates_answer {c : ActivityCollector} {m : ToolMessage} (hn : m.name = "task")
    (hid : m.toolCallId = toolCallId) (hne : toolCallId ≠ "") :
  (c.updates T "tools" [.tool m]).2 =
    [{ kind := "task_report", taskId := some toolCallId
       description := some (T.truthyText (some m.content)) },
     { kind := "node", description := some "tools", status := some "done"
       findingsCount := some c.findings }]
  := by
  rw [ActivityCollector.updates, ActivityCollector.each, ActivityCollector.message, if_pos hn,
    if_pos ⟨hn, hid ▸ hne⟩, hid]
  rfl

/-- An answer of a task leaves the task settled. -/
theorem TurnGraph.Settled.answer {g : TurnGraph} {status : String} (h : g.Settled toolCallId status)
    {c : ActivityCollector} {m : ToolMessage} (hn : m.name = "task")
    (hid : m.toolCallId = toolCallId) (hne : toolCallId ≠ "") :
  ((c.updates T "tools" [.tool m]).2.foldl TurnGraph.frame g).Settled toolCallId status
  := by
  rw [updates_answer hn hid hne, List.foldl_cons, List.foldl_cons, List.foldl_nil,
    TurnGraph.settled_iff (TurnGraph.tasks_frame_node rfl)]
  apply h.report rfl rfl hne

/-- The graph of a delegation that has ended shows it ended, whatever the answer, if it is of the
delegation. -/
theorem shown_ended {c : ActivityCollector} {description name : String} {steps : List Step}
    {e : TerminalEvent} {answer : Option ToolMessage} (hid : e.taskId = toolCallId)
    (ht : e.status.isTerminal = true)
    (ha : ∀ m ∈ answer, m.name = "task" ∧ m.toolCallId = toolCallId) :
  ∀ n ∈ (foldActivity (taskFrames T c (begun toolCallId description name steps ++ [.ended e])
    answer)).tasks, n.taskId = toolCallId → n.status ∈ endStatuses
  := by
  by_cases hne : toolCallId = ""
  · intro n hn he
    apply absurd (he.trans hne) (taskId_ne_foldActivity _ n hn)
  obtain ⟨kind, status, hframe, hkind, hstatus⟩ := terminalFrame_spec ht
  have hst : status ≠ "" := by
    rintro rfl
    revert hstatus
    decide
  rw [taskFrames, ActivityCollector.each_append]
  generalize ActivityCollector.each (ActivityCollector.custom T) c
    (begun toolCallId description name steps) = collected
  obtain ⟨c', frames⟩ := collected
  have hcustom : (ActivityCollector.each (ActivityCollector.custom T) c' [.ended e]).2 =
      [{ kind, taskId := some toolCallId, status := some status, description := e.error
         findingsCount := some e.findings.length }] := by
    rw [ActivityCollector.each, ActivityCollector.custom, if_neg (by rwa [hid]), hframe, hid]
    rfl
  dsimp only
  rw [hcustom, foldActivity, List.foldl_append, List.foldl_append, List.foldl_cons, List.foldl_nil]
  generalize frames.foldl TurnGraph.frame {} = g
  have hsettled : (g.frame { kind, taskId := some toolCallId, status := some status
                             description := e.error
                             findingsCount := some e.findings.length }).Settled toolCallId status
      := by
    apply TurnGraph.settled_frame hkind rfl hne rfl hst
  intro n hn he
  cases answer with
  | none =>
      rw [hsettled.status n hn he]
      apply hstatus
  | some m =>
      obtain ⟨hname, hmid⟩ := ha m rfl
      rw [(hsettled.answer hname hmid hne).status n hn he]
      apply hstatus

/-! ### When a delegation closes -/

/-- Whether a call closes its delegation: if the schema accepts the arguments, no exception passes
through the tool; if it does not, the call has no id that could be shown. -/
def Closes (T : Texts) (toolCallId : String) (args : Json.Fields) (r : TaskRun) : Prop :=
  if (parseTaskArgs args).isSome then ∀ e ∈ r.left T, e.escapes = false else toolCallId = ""

/-- The end of a delegation closes it. -/
theorem lifecycle_ended {c : ActivityCollector} {description name : String} {steps : List Step}
    {e : TerminalEvent} {answer : Option ToolMessage} (hid : e.taskId = toolCallId)
    (ht : e.status.isTerminal = true)
    (ha : ∀ m ∈ answer, m.name = "task" ∧ m.toolCallId = toolCallId ∧
      Json.get m.additionalKwargs "subagent_status" = some (.str e.status.value)) :
  Lifecycle T c toolCallId (begun toolCallId description name steps ++ [.ended e]) answer
  := by
  constructor
  · rintro before after taskId description' name' h
    obtain ⟨rfl, rfl⟩ := begun_split (by simp) h
    obtain ⟨kind, status, hframe, -, -⟩ := terminalFrame_spec ht
    have hends : TaskEvent.ends taskId (.ended e) = true := by
      rw [TaskEvent.ends, hid, hframe]
      simp
    rw [List.countP_append, countP_running, List.countP_singleton, if_pos hends]
  · intro e' he m hm value hvalue
    have heq : e' = e := by simpa [begun] using he
    rw [(ha m hm).2.2] at hvalue
    rw [heq, Option.some.inj hvalue]
  · apply shown_ended hid ht
    intro m hm
    exact ⟨(ha m hm).1, (ha m hm).2.1⟩

/-- A delegation without an end does not close. -/
theorem not_lifecycle_begun {c : ActivityCollector} {description name : String} {steps : List Step}
    {answer : Option ToolMessage} :
  ¬ Lifecycle T c toolCallId (begun toolCallId description name steps) answer
  := by
  intro h
  have hends := h.ends [] (steps.map .running) toolCallId description name rfl
  rw [countP_running] at hends
  contradiction

/-- A call that is answered without an event closes exactly if it has no id. -/
theorem lifecycle_rejected {c : ActivityCollector} {text : String} :
  Lifecycle T c toolCallId [] (some (errorAnswer toolCallId text)) ↔ toolCallId = ""
  := by
  constructor
  · intro h
    by_contra hne
    have hframes := updates_answer (T := T) (c := c) (m := errorAnswer toolCallId text) rfl rfl hne
    have hkind : "task_report" ∈ ["task_started", "task_finished", "task_failed", "task_report"] := by
      decide
    have hshown : ∀ n ∈ (foldActivity (c.updates T "tools"
        [.tool (errorAnswer toolCallId text)]).2).tasks, n.taskId = toolCallId →
        n.status ∈ endStatuses := h.shown
    rw [hframes, foldActivity, List.foldl_cons, List.foldl_cons, List.foldl_nil,
      TurnGraph.tasks_frame_node rfl, TurnGraph.tasks_frame hkind rfl hne] at hshown
    have := hshown _ (List.mem_singleton_self _) (TurnGraph.taskId_taskFrame _ _)
    revert this
    change "queued" ∈ endStatuses → False
    decide
  · rintro rfl
    constructor
    · rintro (_ | _) _ _ _ _ h <;> contradiction
    · intro e he
      contradiction
    · intro n hn he
      apply absurd he (taskId_ne_foldActivity _ n hn)

/-- **A delegation has one end, and is shown with it,** exactly if no exception passes through the
tool, or the schema rejects a call that has no id. -/
theorem lifecycle_iff_closes (E : Environment) (c : ActivityCollector)
    (execTimeout toolCallId errorText : String) (args : Json.Fields) (r : TaskRun) :
  Lifecycle E.texts c toolCallId (callTask E execTimeout toolCallId args errorText r).1
      (callTask E execTimeout toolCallId args errorText r).2 ↔
    Closes E.texts toolCallId args r
  := by
  rw [callTask, Closes]
  cases parseTaskArgs args with
  | none => apply lifecycle_rejected
  | some args =>
      have htold : Told E.texts toolCallId r (r.left E.texts)
          (task E execTimeout toolCallId args r).1 (task E execTimeout toolCallId args r).2 :=
        told_task execTimeout args
      dsimp only
      generalize task E execTimeout toolCallId args r = told at *
      obtain ⟨events, answer⟩ := told
      generalize r.left E.texts = left at *
      rw [Option.isSome_some, if_pos rfl]
      cases htold with
      | returned hr ha =>
          apply iff_of_true
          · apply lifecycle_ended hr.taskId hr.terminal
            rintro m ⟨⟩
            exact ⟨ha.name, ha.toolCallId, ha.status⟩
          · rintro e ⟨⟩
      | limited he ho ha =>
          apply iff_of_true
          · apply lifecycle_ended ho.taskId ho.terminal
            rintro m ⟨⟩
            exact ⟨ha.name, ha.toolCallId, ha.status⟩
          · rintro e ⟨⟩
            apply Exc.escapes_of_limits he
      | cancelled ho =>
          apply iff_of_true
          · apply lifecycle_ended ho.taskId ho.terminal
            rintro m ⟨⟩
          · rintro e ⟨⟩
            rfl
      | @escaped e _ _ _ he =>
          apply iff_of_false
          · cases e <;> exact not_lifecycle_begun
          · intro h
            rw [h e rfl] at he
            contradiction

/-- A call without the prompt. -/
def promptlessArgs : Json.Fields :=
  [("description", .str "audit"), ("subagent_type", .str "general-purpose")]

/-- A subagent whose graph cannot be made. -/
def brokenRun : TaskRun where
  run := { setup := some (.error "no such model"), chunks := [], records := [] }

/-- A call without the prompt is shown as queued, and a subagent whose graph cannot be made has no
end. -/
theorem not_lifecycle_open :
  ¬ Lifecycle sampleEnvironment.texts {} "t"
      (callTask sampleEnvironment "600" "t" promptlessArgs "prompt: Field required" lateRun).1
      (callTask sampleEnvironment "600" "t" promptlessArgs "prompt: Field required" lateRun).2 ∧
    ¬ Lifecycle sampleEnvironment.texts {} "t"
      (callTask sampleEnvironment "600" "t" (promptlessArgs ++ [("prompt", .str "Audit app.py")])
        "" brokenRun).1
      (callTask sampleEnvironment "600" "t" (promptlessArgs ++ [("prompt", .str "Audit app.py")])
        "" brokenRun).2
  := by
  constructor
  · intro h
    have := lifecycle_rejected.mp h
    contradiction
  · apply not_lifecycle_begun

end Agent
