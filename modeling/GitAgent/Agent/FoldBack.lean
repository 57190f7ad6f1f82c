import GitAgent.Agent.Graph
import GitAgent.Library.Interleave

/-!
# Frames fold back to the run

The chunks of the Lead and of its subagents come in any order, and are turned into frames that the
graph is folded from. The graph is the same for every order: it has the work, the tokens and the
status that each agent's own chunks come to.
-/

namespace Agent

variable {T : Texts}

/-- The task of an event. -/
def TaskEvent.taskId : TaskEvent → String
  | started taskId _ _ => taskId
  | running step => step.taskId
  | ended e => e.taskId

/-- A chunk of a turn: an update of the Lead's graph, or an event of a subagent. -/
inductive TurnChunk
  | updates (u : Update)
  | custom (e : TaskEvent)

namespace TurnChunk

/-- The agent whose stream a chunk is of: the subagent of a task, or none for the Lead. -/
def agent : TurnChunk → Option String
  | updates _ => none
  | custom e => some e.taskId

/-- The event that a chunk is. -/
def event? : TurnChunk → Option TaskEvent
  | updates _ => none
  | custom e => some e

/-- The usages that a chunk tells of, of replies of the Lead and of steps that are replies. -/
def usages : TurnChunk → List (ℤ × ℤ)
  | updates u => (u.flatMap Prod.snd).filterMap Message.tokens
  | custom (.running step) => if step.kind = "ai" then step.usage.toList else []
  | custom _ => []

end TurnChunk

/-- `ActivityCollector.frames`. -/
def ActivityCollector.chunk (T : Texts) (c : ActivityCollector) :
    TurnChunk → ActivityCollector × List Frame
  | .updates u => c.update T u
  | .custom e => c.custom T e

/-- The frames of the chunks of a turn. -/
def framesOf (T : Texts) (chunks : List TurnChunk) : List Frame :=
  (ActivityCollector.each (ActivityCollector.chunk T) {} chunks).2

/-- The events of a task. -/
def eventsOf (taskId : String) (chunks : List TurnChunk) : List TaskEvent :=
  (Interleave.part TurnChunk.agent (some taskId) chunks).filterMap TurnChunk.event?

namespace TaskEvent

/-- Whether an event starts or ends its task. -/
def settles : TaskEvent → Bool
  | started _ _ _ => true
  | running _ => false
  | ended e => (terminalFrame e.status).isSome

/-- Whether an event is progress. -/
def progress : TaskEvent → Bool
  | running _ => true
  | _ => false

/-- Whether progress comes before the task starts again or ends. -/
def followed : List TaskEvent → Bool
  | [] => false
  | e :: events => e.progress || (!e.settles && followed events)

/-- How many starts are followed by progress. -/
def progressed : List TaskEvent → ℕ
  | [] => 0
  | started _ _ _ :: events => (if followed events then 1 else 0) + progressed events
  | _ :: events => progressed events

end TaskEvent

/-- Whether a frame tells that the subagent of a task works. -/
def Frame.isWorking (taskId : String) (f : Frame) : Bool :=
  f.kind = "task_started" && f.status = some "working" && f.taskId = some taskId

/-- The graph tells what the chunks come to. -/
structure FoldsBack (T : Texts) (chunks : List TurnChunk) : Prop where
  total : (foldActivity (framesOf T chunks)).tokens =
    (foldActivity (framesOf T chunks)).leadTokens +
      ((foldActivity (framesOf T chunks)).tasks.map AgentNode.tokens).sum
  usage : (foldActivity (framesOf T chunks)).tokens = (chunks.flatMap TurnChunk.usages).sum
  queued : ∀ t before taskId description name after,
    eventsOf t chunks = before ++ .started taskId description name :: after →
    (∀ e ∈ after, e.settles = false ∧ e.progress = false) →
    ((foldActivity (framesOf T chunks)).find t).map AgentNode.status = some "queued"
  working : ∀ t before taskId description name after,
    eventsOf t chunks = before ++ .started taskId description name :: after →
    (∀ e ∈ after, e.settles = false) → (∃ e ∈ after, e.progress = true) →
    ((foldActivity (framesOf T chunks)).find t).map AgentNode.status = some "working"
  ended : ∀ t before e kind status after,
    eventsOf t chunks = before ++ .ended e :: after → terminalFrame e.status = some (kind, status) →
    (∀ e' ∈ after, e'.settles = false) →
    ((foldActivity (framesOf T chunks)).find t).map AgentNode.status = some status
  once : ∀ t, (framesOf T chunks).countP (Frame.isWorking t) =
    TaskEvent.progressed (eventsOf t chunks)
  leadWork : (foldActivity (framesOf T chunks)).leadWork =
    workLines (framesOf T (Interleave.part TurnChunk.agent none chunks))
  taskWork : ∀ n ∈ (foldActivity (framesOf T chunks)).tasks,
    n.work = workLines (framesOf T (Interleave.part TurnChunk.agent (some n.taskId) chunks))

/-- Two turns are shown with the same agents, up to the order of the tasks. -/
structure ShownAlike (T : Texts) (chunks chunks' : List TurnChunk) : Prop where
  tokens : (foldActivity (framesOf T chunks)).tokens = (foldActivity (framesOf T chunks')).tokens
  leadTokens : (foldActivity (framesOf T chunks)).leadTokens =
    (foldActivity (framesOf T chunks')).leadTokens
  leadWork : (foldActivity (framesOf T chunks)).leadWork =
    (foldActivity (framesOf T chunks')).leadWork
  tasks : (foldActivity (framesOf T chunks)).tasks.Perm (foldActivity (framesOf T chunks')).tasks
  working : ∀ t, (framesOf T chunks).countP (Frame.isWorking t) =
    (framesOf T chunks').countP (Frame.isWorking t)

/-! ### The frames of a chunk -/

/-- A frame of the Lead's stream: a line of its work, the report of a task, or the end of a node. -/
def Frame.OfLead (f : Frame) : Prop :=
  f.taskId = none ∧ (f.isWork = true ∨ f.kind = "node" ∧ f.tokens = none) ∨
    f.kind = "task_report" ∧ f.tokens = none ∧ ∃ taskId, f.taskId = some taskId

/-- A frame of the stream of a task: a line of its work, or its start or end. -/
def Frame.OfTask (taskId : String) (f : Frame) : Prop :=
  f.taskId = some taskId ∧
    (f.isWork = true ∨ f.kind ∈ ["task_started", "task_finished", "task_failed"] ∧ f.tokens = none)

/-- The frames of a message are lines of work. -/
theorem isWork_work {taskId : Option String} {text : Json} {calls : List (String × Json)}
    {result : Option (Option String × Json)} {usage : Option (ℤ × ℤ)} {f : Frame}
    (h : f ∈ T.work taskId text calls result usage) :
  f.isWork = true ∧ f.taskId = taskId
  := by
  unfold Texts.work at h
  extract_lets text frames at h
  have hframes : ∀ f ∈ frames, f.isWork = true ∧ f.taskId = taskId := by
    intro f hf
    rcases List.mem_append.mp hf with hf | hf
    · rcases List.mem_append.mp hf with hf | hf
      · split at hf
        · exact absurd hf List.not_mem_nil
        · rw [List.mem_singleton.mp hf]
          exact ⟨rfl, rfl⟩
      · obtain ⟨call, -, rfl⟩ := List.mem_map.mp hf
        exact ⟨rfl, rfl⟩
    · obtain ⟨r, -, rfl⟩ := Option.map_eq_some_iff.mp (Option.mem_toList.mp hf)
      exact ⟨rfl, rfl⟩
  cases usage with
  | none => apply hframes f h
  | some tokens =>
      cases hcons : frames with
      | nil =>
          rw [hcons] at h
          rw [List.mem_singleton.mp h]
          exact ⟨rfl, rfl⟩
      | cons f' frames' =>
          rw [hcons] at h hframes
          rcases List.mem_cons.mp h with rfl | h
          · apply hframes f' List.mem_cons_self
          · apply hframes f (List.mem_cons_of_mem f' h)

namespace ActivityCollector

variable {α : Type} {f : ActivityCollector → α → ActivityCollector × List Frame}

/-- What holds of the frames of each step holds of those of a list. -/
theorem forall_each {P : Frame → Prop} (h : ∀ c a, ∀ x ∈ (f c a).2, P x) (c : ActivityCollector)
    (as : List α) :
  ∀ x ∈ (each f c as).2, P x
  := by
  induction as generalizing c with
  | nil => exact fun x hx => absurd hx List.not_mem_nil
  | cons a as ih =>
      intro x hx
      rw [each] at hx
      rcases List.mem_append.mp hx with hx | hx
      · apply h c a x hx
      · apply ih (f c a).1 x hx

/-- Frames that do not depend on the collector are those of one step after the other. -/
theorem filter_each {p : Frame → Bool} {frames : α → List Frame}
    (h : ∀ c a, (f c a).2.filter p = frames a) (c : ActivityCollector) (as : List α) :
  (each f c as).2.filter p = as.flatMap frames
  := by
  induction as generalizing c with
  | nil => rfl
  | cons a as ih => rw [each, List.filter_append, h, ih, List.flatMap_cons]

/-- The frames of a message are of the Lead. -/
theorem ofLead_message (c : ActivityCollector) (m : Message) :
  ∀ x ∈ (message T c m).2, x.OfLead
  := by
  intro x hx
  cases m with
  | ai m =>
      rw [message] at hx
      dsimp only at hx
      obtain ⟨hwork, hid⟩ := isWork_work hx
      exact .inl ⟨hid, .inl hwork⟩
  | tool m =>
      rcases List.mem_append.mp hx with hx | hx
      · split at hx
        · contradiction
        · obtain ⟨hwork, hid⟩ := isWork_work hx
          exact .inl ⟨hid, .inl hwork⟩
      · split at hx
        · rw [List.mem_singleton.mp hx]
          exact .inr ⟨rfl, rfl, _, rfl⟩
        · contradiction
  | _ => contradiction

/-- The frames of an update are of the Lead. -/
theorem ofLead_update (c : ActivityCollector) (u : Update) :
  ∀ x ∈ (update T c u).2, x.OfLead
  := by
  apply forall_each
  intro c n x hx
  rcases List.mem_append.mp hx with hx | hx
  · apply forall_each ofLead_message c n.2 x hx
  · rw [List.mem_singleton.mp hx]
    exact .inl ⟨rfl, .inr ⟨rfl, rfl⟩⟩

theorem tasks_message (c : ActivityCollector) (m : Message) :
  (message T c m).1.tasks = c.tasks
  := by cases m <;> rfl

/-- The updates of the Lead change the status of no task. -/
theorem tasks_update (c : ActivityCollector) (u : Update) :
  (update T c u).1.tasks = c.tasks
  := by
  have heach : ∀ {α : Type} {f : ActivityCollector → α → ActivityCollector × List Frame},
      (∀ c a, (f c a).1.tasks = c.tasks) → ∀ c as, (each f c as).1.tasks = c.tasks := by
    intro α f h c as
    induction as generalizing c with
    | nil => rfl
    | cons a as ih => rw [each, ih, h]
  apply heach
  intro c n
  apply heach tasks_message

end ActivityCollector

/-- The status of a task after an event. -/
def TaskEvent.next (status : Option String) : TaskEvent → Option String
  | started _ _ _ => some "queued"
  | running _ => if status = some "queued" then some "working" else status
  | ended e =>
      match terminalFrame e.status with
      | none => status
      | some (_, shown) => some shown

namespace ActivityCollector

variable {c c' : ActivityCollector} {e : TaskEvent}

/-- The lines of work of a step. -/
def stepWork (T : Texts) (step : Step) : List Frame :=
  if step.kind = "tool" then
    T.work (some step.taskId) (.str "") [] (some (step.toolName, .str step.text)) none
  else if step.kind = "ai" then
    T.work (some step.taskId) (.str step.text)
      (step.toolCalls.map fun call => (call.name, .str call.args)) none step.usage
  else []

theorem isWork_stepWork {step : Step} {f : Frame} (h : f ∈ stepWork T step) :
  f.isWork = true ∧ f.taskId = some step.taskId
  := by
  rw [stepWork] at h
  split_ifs at h
  · apply isWork_work h
  · apply isWork_work h
  · contradiction

theorem custom_running {step : Step} (h : step.taskId ≠ "") :
  custom T c (.running step) =
    if c.tasks.get step.taskId = some "queued" then
      ({ c with tasks := c.tasks.set step.taskId "working" },
        { kind := "task_started", taskId := some step.taskId, status := some "working" } ::
          stepWork T step)
    else (c, stepWork T step)
  := by
  rw [custom, if_neg h]
  rfl

theorem custom_ended {e : TerminalEvent} (h : e.taskId ≠ "") :
  custom T c (.ended e) =
    match terminalFrame e.status with
    | none => (c, [])
    | some (kind, status) =>
        ({ c with tasks := c.tasks.set e.taskId status },
          [{ kind, taskId := some e.taskId, status := some status, description := e.error
             findingsCount := some e.findings.length }])
  := if_neg h

/-- An event without a task has no frame. -/
theorem custom_unnamed (h : e.taskId = "") :
  custom T c e = (c, [])
  := by cases e <;> exact if_pos h

/-- The statuses after an event. -/
theorem get_custom (T : Texts) (c : ActivityCollector) (he : e.taskId ≠ "") (t : String) :
  (custom T c e).1.tasks.get t = if t = e.taskId then e.next (c.tasks.get t) else c.tasks.get t
  := by
  cases e with
  | started taskId description name =>
      have hne : taskId ≠ "" := he
      rw [custom, if_neg hne]
      apply Dict.get_set
  | running step =>
      rw [custom_running he]
      change _ = if t = step.taskId then (if c.tasks.get t = some "queued" then some "working"
        else c.tasks.get t) else c.tasks.get t
      by_cases hqueued : c.tasks.get step.taskId = some "queued"
      · rw [if_pos hqueued]
        change (c.tasks.set step.taskId "working").get t = _
        rw [Dict.get_set]
        by_cases ht : t = step.taskId
        · rw [if_pos ht, if_pos ht, ht, if_pos hqueued]
        · rw [if_neg ht, if_neg ht]
      · rw [if_neg hqueued]
        by_cases ht : t = step.taskId
        · rw [if_pos ht, ht, if_neg hqueued]
        · rw [if_neg ht]
  | ended e =>
      rw [custom_ended he]
      change _ = if t = e.taskId then (match terminalFrame e.status with
        | none => c.tasks.get t
        | some (_, shown) => some shown) else c.tasks.get t
      cases terminalFrame e.status with
      | none => exact (ite_self _).symm
      | some shown => apply Dict.get_set

/-- The frames of an event depend on the status of its task only. -/
theorem custom_congr (he : e.taskId ≠ "")
    (h : c.tasks.get e.taskId = c'.tasks.get e.taskId) :
  (custom T c e).2 = (custom T c' e).2
  := by
  cases e with
  | started taskId description name =>
      rw [custom, custom]
      split <;> rfl
  | running step =>
      have hget : c.tasks.get step.taskId = c'.tasks.get step.taskId := h
      rw [custom_running he, custom_running he, hget]
      split <;> rfl
  | ended e =>
      rw [custom_ended he, custom_ended he]
      split <;> rfl

/-- The frames of an event are of its task. -/
theorem ofTask_custom (c : ActivityCollector) (he : e.taskId ≠ "") :
  ∀ x ∈ (custom T c e).2, x.OfTask e.taskId
  := by
  intro x hx
  cases e with
  | started taskId description name =>
      have hne : taskId ≠ "" := he
      rw [custom, if_neg hne] at hx
      rw [List.mem_singleton.mp hx]
      exact ⟨rfl, .inr ⟨List.mem_cons_self, rfl⟩⟩
  | running step =>
      have hstep : ∀ y ∈ stepWork T step, y.OfTask step.taskId := by
        intro y hy
        obtain ⟨hwork, hid⟩ := isWork_stepWork hy
        exact ⟨hid, .inl hwork⟩
      rw [custom_running he] at hx
      split at hx
      · rcases List.mem_cons.mp hx with rfl | hx
        · exact ⟨rfl, .inr ⟨List.mem_cons_self, rfl⟩⟩
        · apply hstep x hx
      · apply hstep x hx
  | ended e =>
      rw [custom_ended he] at hx
      cases hs : terminalFrame e.status with
      | none =>
          rw [hs] at hx
          contradiction
      | some shown =>
          rw [hs] at hx
          rw [List.mem_singleton.mp hx]
          refine ⟨rfl, .inr ⟨?_, rfl⟩⟩
          have hkind : shown.1 ∈ ["task_finished", "task_failed"] := by
            cases hstatus : e.status <;> rw [hstatus] at hs <;> cases hs <;> decide
          exact List.mem_cons_of_mem _ hkind

end ActivityCollector

/-! ### The work of the agents -/

/-- Events that name their tasks. -/
def Named (chunks : List TurnChunk) : Prop :=
  ∀ e, .custom e ∈ chunks → e.taskId ≠ ""

theorem named_cons {chunk : TurnChunk} {chunks : List TurnChunk} :
  Named (chunk :: chunks) ↔ (∀ e, chunk = .custom e → e.taskId ≠ "") ∧ Named chunks
  := by
  constructor
  · intro h
    constructor
    · rintro e rfl
      apply h e List.mem_cons_self
    · intro e he
      apply h e (List.mem_cons_of_mem chunk he)
  · rintro ⟨hchunk, hchunks⟩ e he
    rcases List.mem_cons.mp he with rfl | he
    · apply hchunk e rfl
    · apply hchunks e he

namespace TurnChunk

/-- The lines of work of a chunk. -/
def work (T : Texts) : TurnChunk → List Frame
  | updates u => u.flatMap fun n => n.2.flatMap fun m =>
      (ActivityCollector.message T {} m).2.filter Frame.isWork
  | custom (.running step) => if step.taskId = "" then [] else ActivityCollector.stepWork T step
  | custom _ => []

end TurnChunk

namespace ActivityCollector

theorem filter_message (p : Frame → Bool) (c : ActivityCollector) (m : Message) :
  (message T c m).2.filter p = (message T {} m).2.filter p
  := by cases m <;> rfl

/-- The frames of an update without those of the nodes do not depend on the collector. -/
theorem filter_update {p : Frame → Bool} (hp : ∀ f : Frame, f.kind = "node" → p f = false)
    (c : ActivityCollector) (u : Update) :
  (update T c u).2.filter p =
    u.flatMap fun n => n.2.flatMap fun m => (message T {} m).2.filter p
  := by
  apply filter_each
  intro c n
  rw [updates, List.filter_append, filter_each (filter_message p), List.filter_cons_of_neg,
    List.filter_nil, List.append_nil]
  rw [hp _ rfl]
  apply Bool.false_ne_true

/-- No start and no end is a line of work. -/
theorem isWork_of_terminalFrame {status : SubagentStatus} {kind shown : String} {f : Frame}
    (h : terminalFrame status = some (kind, shown)) (hf : f.kind = kind) :
  f.isWork = false
  := by
  rw [Frame.isWork, hf]
  cases status <;> cases h <;> decide

/-- The lines of work of a chunk do not depend on the collector. -/
theorem filter_chunk (c : ActivityCollector) (chunk : TurnChunk) :
  (ActivityCollector.chunk T c chunk).2.filter Frame.isWork = chunk.work T
  := by
  cases chunk with
  | updates u =>
      apply filter_update
      intro f hf
      rw [Frame.isWork, hf]
      decide
  | custom e =>
      cases e with
      | started taskId description name =>
          rw [ActivityCollector.chunk, custom]
          split <;> rfl
      | running step =>
          have hwork : (stepWork T step).filter Frame.isWork = stepWork T step :=
            List.filter_eq_self.mpr fun f hf => (isWork_stepWork hf).1
          rw [ActivityCollector.chunk, TurnChunk.work]
          by_cases he : step.taskId = ""
          · rw [if_pos he, custom, if_pos he]
            rfl
          · rw [if_neg he, custom_running he]
            split
            · rw [List.filter_cons_of_neg Bool.false_ne_true, hwork]
            · exact hwork
      | ended e =>
          change (custom T c (.ended e)).2.filter Frame.isWork = []
          by_cases he : e.taskId = ""
          · rw [custom, if_pos he]
            rfl
          · rw [custom_ended he]
            cases hs : terminalFrame e.status with
            | none => rfl
            | some shown =>
                rw [List.filter_cons_of_neg, List.filter_nil]
                rw [isWork_of_terminalFrame hs rfl]
                apply Bool.false_ne_true

end ActivityCollector

/-- The lines of work of a turn are those of its chunks. -/
theorem filter_framesOf (T : Texts) (chunks : List TurnChunk) :
  (framesOf T chunks).filter Frame.isWork = chunks.flatMap (TurnChunk.work T)
  := ActivityCollector.filter_each ActivityCollector.filter_chunk {} chunks

/-- The lines of work of a chunk are of its agent. -/
theorem agent_of_mem_work {chunk : TurnChunk} (h : ∀ e, chunk = .custom e → e.taskId ≠ "")
    {f : Frame} (hf : f ∈ chunk.work T) :
  f.agent = chunk.agent
  := by
  cases chunk with
  | updates u =>
      obtain ⟨n, -, hf⟩ := List.mem_flatMap.mp hf
      obtain ⟨m, -, hf⟩ := List.mem_flatMap.mp hf
      obtain ⟨hf, hwork⟩ := List.mem_filter.mp hf
      rcases ActivityCollector.ofLead_message {} m f hf with ⟨hid, -⟩ | ⟨hkind, -, -⟩
      · rw [Frame.agent, hid]
        rfl
      · rw [Frame.isWork, hkind] at hwork
        contradiction
  | custom e =>
      cases e with
      | running step =>
          have he : step.taskId ≠ "" := h _ rfl
          rw [TurnChunk.work, if_neg he] at hf
          obtain ⟨-, hid⟩ := ActivityCollector.isWork_stepWork hf
          rw [Frame.agent, hid, Option.filter_some, if_pos (by simpa using he)]
          rfl
      | _ => contradiction

/-- The lines of work of an agent are those of its own stream. -/
theorem filter_agent {chunks : List TurnChunk} (h : Named chunks) (k : Option String) :
  (chunks.flatMap (TurnChunk.work T)).filter (fun f => f.agent = k) =
    (Interleave.part TurnChunk.agent k chunks).flatMap (TurnChunk.work T)
  := by
  induction chunks with
  | nil => rfl
  | cons chunk chunks ih =>
      obtain ⟨hchunk, hchunks⟩ := named_cons.mp h
      rw [List.flatMap_cons, List.filter_append, ih hchunks, Interleave.part_cons]
      split
      · rename_i hk
        rw [List.flatMap_cons, List.filter_eq_self.mpr]
        intro f hf
        rw [agent_of_mem_work hchunk hf, hk]
        apply decide_eq_true rfl
      · rename_i hk
        rw [List.filter_eq_nil_iff.mpr, List.nil_append]
        intro f hf
        rw [agent_of_mem_work hchunk hf]
        simpa using hk

theorem workLines_framesOf (T : Texts) (chunks : List TurnChunk) :
  workLines (framesOf T chunks) = (chunks.flatMap (TurnChunk.work T)).map Frame.line
  := by rw [workLines, filter_framesOf]

/-- The work of the Lead is that of its own stream. -/
theorem filter_isLeadWork {chunks : List TurnChunk} (h : Named chunks) :
  (framesOf T chunks).filter Frame.isLeadWork =
    (Interleave.part TurnChunk.agent none chunks).flatMap (TurnChunk.work T)
  := by
  rw [← filter_agent h, ← filter_framesOf, List.filter_filter]
  congr 1
  funext f
  rw [Frame.isLeadWork, Bool.and_comm]
  cases f.agent <;> rfl

theorem foldsBack_leadWork {chunks : List TurnChunk} (h : Named chunks) :
  (foldActivity (framesOf T chunks)).leadWork =
    workLines (framesOf T (Interleave.part TurnChunk.agent none chunks))
  := by rw [leadWork_foldActivity, filter_isLeadWork h, workLines_framesOf]

end Agent
