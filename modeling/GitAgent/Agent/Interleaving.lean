import GitAgent.Agent.FoldBack

/-!
# Interleavings of the streams of a turn

The node of a task is made by the frames of its own stream and by the reports of the Lead, which
commute with them. The accounts, the work and the nodes of a turn are therefore the same for every
order in which the streams of its agents come.
-/

namespace Agent

variable {T : Texts} {chunks chunks' : List TurnChunk}

/-! ### The accounts -/

/-- Frames that are left out and have no tokens. -/
theorem tokensOf_filter {p : Frame → Bool} {frames : List Frame}
    (h : ∀ f ∈ frames, p f = false → f.tokens = none) :
  tokensOf (frames.filter p) = tokensOf frames
  := by
  induction frames with
  | nil => rfl
  | cons f frames ih =>
      obtain ⟨hf, hframes⟩ := List.forall_mem_cons.mp h
      rw [← List.singleton_append, List.filter_append, ActivityCollector.tokensOf_append,
        ActivityCollector.tokensOf_append, ih hframes]
      cases hp : p f with
      | true => rw [List.filter_cons_of_pos hp, List.filter_nil]
      | false =>
          have hzero : tokensOf [f] = 0 := by
            apply tokensOf_eq_zero
            intro f' hf'
            rw [List.mem_singleton.mp hf', hf hp]
          rw [List.filter_cons_of_neg (Bool.eq_false_iff.mp hp), List.filter_nil, hzero]
          rfl

/-- The tokens of the lines of work of a chunk are its usages. -/
theorem tokensOf_work_chunk (h : Named chunks) {chunk : TurnChunk} (hmem : chunk ∈ chunks) :
  tokensOf (chunk.work T) = chunk.usages.sum
  := by
  rw [← ActivityCollector.filter_chunk {} chunk]
  cases chunk with
  | updates u =>
      have hadds : ActivityCollector.Adds T (u.flatMap Prod.snd) {}
          (ActivityCollector.update T {} u) :=
        ActivityCollector.adds_each (fun c n => ActivityCollector.adds_updates c n.1 n.2) {} u
      rw [tokensOf_filter]
      · apply hadds.tokens
      · intro f hf hwork
        rcases ActivityCollector.ofLead_update {} u f hf with ⟨-, hw | ⟨-, ht⟩⟩ | ⟨-, ht, -⟩
        · rw [hw] at hwork
          contradiction
        · apply ht
        · apply ht
  | custom e =>
      have he := h e hmem
      rw [ActivityCollector.filter_chunk]
      cases e with
      | running step =>
          have he : step.taskId ≠ "" := he
          rw [TurnChunk.work, if_neg he, ActivityCollector.stepWork, TurnChunk.usages]
          by_cases htool : step.kind = "tool"
          · rw [if_pos htool, tokensOf_work, htool]
            rfl
          · rw [if_neg htool]
            by_cases hai : step.kind = "ai"
            · rw [if_pos hai, if_pos hai, tokensOf_work]
            · rw [if_neg hai, if_neg hai]
              rfl
      | _ => rfl

/-- The tokens of the graph are the usages of the chunks. -/
theorem foldsBack_usage (h : Named chunks) :
  (foldActivity (framesOf T chunks)).tokens = (chunks.flatMap TurnChunk.usages).sum
  := by
  rw [tokens_foldActivity, filter_framesOf]
  induction chunks with
  | nil => rfl
  | cons chunk chunks ih =>
      rw [List.flatMap_cons, ActivityCollector.tokensOf_append, ih (named_cons.mp h).2,
        tokensOf_work_chunk h List.mem_cons_self, List.flatMap_cons, List.sum_append]

/-! ### The node of a task -/

/-- Whether a frame is the report of a task. -/
def Frame.isReport (f : Frame) : Bool :=
  f.kind = "task_report"

/-- A frame that is a report changes nothing but the report. -/
theorem change_of_isReport {f : Frame} (h : f.isReport = true) (n : AgentNode) :
  f.change n = { n with report := f.description }
  := by
  have hkind : f.kind = "task_report" := of_decide_eq_true h
  have hwork : ¬ f.isWork = true := by
    rw [Frame.isWork, hkind]
    decide
  rw [Frame.change, if_neg hwork, TurnGraph.taskFrame, if_pos hkind]

/-- Other frames do not depend on the report, and leave it. -/
theorem change_report {f : Frame} (h : f.isReport = false) (n : AgentNode) (report : Option String) :
  f.change { n with report } = { f.change n with report }
  := by
  have hkind : ¬ f.kind = "task_report" := of_decide_eq_false h
  rw [Frame.change, Frame.change]
  split
  · rfl
  · rw [TurnGraph.taskFrame, if_neg hkind, TurnGraph.taskFrame, if_neg hkind]

/-- Reports can be taken after the other frames of a task. -/
theorem foldl_nodeFrame (taskId : String) (frames : List Frame) (n : Option AgentNode) :
  frames.foldl (nodeFrame taskId) n =
    (frames.filter Frame.isReport).foldl (nodeFrame taskId)
      ((frames.filter fun f => !f.isReport).foldl (nodeFrame taskId) n)
  := by
  apply Interleave.foldl_filter
  intro n f f' hf hf'
  rw [nodeFrame, nodeFrame, nodeFrame, nodeFrame, Option.getD_some, Option.getD_some,
    change_of_isReport hf, change_of_isReport hf, change_report hf']

/-- Reports leave the status and the work of a node. -/
theorem foldl_reports (taskId : String) {frames : List Frame} (h : ∀ f ∈ frames, f.isReport = true)
    {n : AgentNode} :
  ∃ report, frames.foldl (nodeFrame taskId) (some n) = some { n with report }
  := by
  induction frames generalizing n with
  | nil => exact ⟨n.report, rfl⟩
  | cons f frames ih =>
      obtain ⟨hf, hframes⟩ := List.forall_mem_cons.mp h
      obtain ⟨report, hreport⟩ := ih hframes (n := { n with report := f.description })
      use report
      rw [List.foldl_cons, nodeFrame, Option.getD_some, change_of_isReport hf, hreport]

/-- The lines of work of a node are those of its frames. -/
theorem work_foldl (taskId : String) (frames : List Frame) (n : Option AgentNode) :
  ((frames.foldl (nodeFrame taskId) n).getD { taskId }).work =
    (n.getD { taskId }).work ++ workLines frames
  := by
  induction frames generalizing n with
  | nil => exact (List.append_nil _).symm
  | cons f frames ih =>
      rw [List.foldl_cons, ih, nodeFrame, Option.getD_some, workLines, workLines, List.filter_cons,
        Frame.change]
      split
      · rw [List.map_cons, List.append_assoc]
        rfl
      · congr 1
        rw [TurnGraph.taskFrame]
        split <;> rfl

/-- A node of the graph is the only one of its task. -/
theorem find_of_mem {g : TurnGraph} (h : g.Balanced) {n : AgentNode} (hn : n ∈ g.tasks) :
  g.find n.taskId = some n
  := by
  cases hf : g.find n.taskId with
  | none =>
      apply absurd (List.find?_eq_none.mp hf n hn)
      simp
  | some m =>
      have hm : m ∈ g.tasks := List.mem_of_find?_eq_some hf
      rw [List.inj_on_of_nodup_map h.nodup hm hn (TurnGraph.taskId_of_find hf)]

theorem mem_tasks_iff {g : TurnGraph} (h : g.Balanced) {n : AgentNode} :
  n ∈ g.tasks ↔ g.find n.taskId = some n
  := ⟨find_of_mem h, List.mem_of_find?_eq_some⟩

/-- The work of a task is that of its own stream. -/
theorem foldsBack_taskWork (h : Named chunks) {n : AgentNode}
    (hn : n ∈ (foldActivity (framesOf T chunks)).tasks) :
  n.work = workLines (framesOf T (Interleave.part TurnChunk.agent (some n.taskId) chunks))
  := by
  have hfind := find_of_mem (balanced_foldActivity _) hn
  have hwork := work_foldl n.taskId ((framesOf T chunks).filter (Frame.concerns n.taskId)) none
  rw [← find_foldActivity, hfind] at hwork
  change n.work = workLines _ at hwork
  rw [hwork, workLines_framesOf, ← filter_agent h, workLines, List.filter_filter,
    ← filter_framesOf, List.filter_filter]
  congr 2
  funext f
  rw [Frame.concerns]
  cases f.isWork <;> simp

/-! ### The stream of a task -/

/-- Whether a frame is of the stream of a task. -/
def Frame.isOf (taskId : String) (f : Frame) : Bool :=
  f.concerns taskId && !f.isReport

/-- No frame of the Lead is of the stream of a task. -/
theorem isOf_ofLead {taskId : String} {f : Frame} (h : f.OfLead) :
  f.isOf taskId = false
  := by
  rcases h with ⟨hid, -⟩ | ⟨hkind, -, -⟩
  · have hagent : f.agent = none := by
      rw [Frame.agent, hid]
      rfl
    rw [Frame.isOf, Frame.concerns, hagent]
    simp
  · rw [Frame.isOf, Frame.isReport, hkind]
    simp

/-- The frames of a task are of its stream, and of no other. -/
theorem isOf_ofTask {taskId taskId' : String} {f : Frame} (h : f.OfTask taskId) (hne : taskId ≠ "") :
  f.isOf taskId' = decide (taskId = taskId')
  := by
  have hagent : f.agent = some taskId := by
    rw [Frame.agent, h.1, Option.filter_some, if_pos (by simpa using hne)]
  have hreport : f.isReport = false := by
    rcases h.2 with hwork | ⟨hkind, -⟩
    · rw [Frame.isReport, decide_eq_false_iff_not]
      intro hk
      rw [Frame.isWork, hk] at hwork
      contradiction
    · rw [Frame.isReport, decide_eq_false_iff_not]
      intro hk
      rw [hk] at hkind
      revert hkind
      decide
  have htells : (f.isWork || f.isTask) = true := by
    rcases h.2 with hwork | ⟨hkind, -⟩
    · rw [hwork]
      rfl
    · have htask : f.isTask = true := by
        rw [Frame.isTask, decide_eq_true_iff]
        simp only [List.mem_cons, List.not_mem_nil, or_false] at hkind ⊢
        tauto
      rw [htask, Bool.or_true]
  rw [Frame.isOf, Frame.concerns, htells, hagent, hreport]
  simp

namespace ActivityCollector

/-- The frames of the stream of a task are those of its events, whatever comes between them. -/
theorem filter_isOf (h : Named chunks) {taskId : String} (c c' : ActivityCollector)
    (hget : c.tasks.get taskId = c'.tasks.get taskId) :
  (each (chunk T) c chunks).2.filter (Frame.isOf taskId) =
    (each (custom T) c' (eventsOf taskId chunks)).2
  := by
  induction chunks generalizing c c' with
  | nil => rfl
  | cons chunk chunks ih =>
      obtain ⟨hchunk, hchunks⟩ := named_cons.mp h
      rw [each, List.filter_append, eventsOf, Interleave.part_cons]
      cases chunk with
      | updates u =>
          have hnone : (update T c u).2.filter (Frame.isOf taskId) = [] := by
            rw [List.filter_eq_nil_iff]
            intro f hf
            rw [isOf_ofLead (ofLead_update c u f hf)]
            apply Bool.false_ne_true
          change (update T c u).2.filter _ ++ _ = _
          rw [hnone, List.nil_append, if_neg (by rintro ⟨⟩)]
          apply ih hchunks
          change (update T c u).1.tasks.get taskId = _
          rw [tasks_update, hget]
      | custom e =>
          have he := hchunk e rfl
          have hfilter : (custom T c e).2.filter (Frame.isOf taskId) =
              if e.taskId = taskId then (custom T c e).2 else [] := by
            split
            · rename_i heq
              rw [List.filter_eq_self]
              intro f hf
              rw [isOf_ofTask (ofTask_custom c he f hf) he, decide_eq_true heq]
            · rename_i hne
              rw [List.filter_eq_nil_iff]
              intro f hf
              rw [isOf_ofTask (ofTask_custom c he f hf) he, decide_eq_false hne]
              apply Bool.false_ne_true
          change (custom T c e).2.filter _ ++ _ = _
          rw [hfilter]
          by_cases heq : e.taskId = taskId
          · have hagent : (TurnChunk.custom e).agent = some taskId := by rw [← heq]; rfl
            have hget' : c.tasks.get e.taskId = c'.tasks.get e.taskId := by rw [heq, hget]
            rw [if_pos heq, if_pos hagent, custom_congr he hget', List.filterMap_cons]
            change _ = (each (custom T) c' (e :: eventsOf taskId chunks)).2
            rw [each]
            congr 1
            apply ih hchunks
            change (custom T c e).1.tasks.get taskId = _
            rw [get_custom T c he, get_custom T c' he, hget]
          · have hagent : ¬ (TurnChunk.custom e).agent = some taskId :=
              fun h => heq (Option.some.inj h)
            rw [if_neg heq, if_neg hagent, List.nil_append]
            apply ih hchunks
            change (custom T c e).1.tasks.get taskId = _
            rw [get_custom T c he, if_neg (fun h => heq h.symm), hget]

/-- The reports of a task that a chunk has. -/
def reports (T : Texts) (taskId : String) : TurnChunk → List Frame
  | .updates u => u.flatMap fun n => n.2.flatMap fun m =>
      (message T {} m).2.filter fun f => f.concerns taskId && f.isReport
  | .custom _ => []

/-- The reports of a task are in the stream of the Lead. -/
theorem filter_isReport (taskId : String) (chunks : List TurnChunk) :
  (framesOf T chunks).filter (fun f => f.concerns taskId && f.isReport) =
    (Interleave.part TurnChunk.agent none chunks).flatMap (reports T taskId)
  := by
  rw [Interleave.flatMap_part]
  · apply filter_each
    intro c chunk
    cases chunk with
    | updates u =>
        apply filter_update
        intro f hf
        rw [Frame.isReport, hf]
        simp
    | custom e =>
        apply List.filter_eq_nil_iff.mpr
        intro f hf
        by_cases he : e.taskId = ""
        · rw [chunk, custom_unnamed he] at hf
          contradiction
        · have hof : f.isOf e.taskId = decide (e.taskId = e.taskId) :=
            isOf_ofTask (ofTask_custom c he f hf) he
          rw [decide_eq_true rfl, Frame.isOf, Bool.and_eq_true] at hof
          rw [Bool.and_eq_true, not_and]
          intro _
          simpa using hof.2
  · intro chunk hne
    cases chunk with
    | updates u => exact absurd rfl hne
    | custom e => rfl

end ActivityCollector

/-- The node that the events of a task make. -/
def eventNode (T : Texts) (taskId : String) (events : List TaskEvent) : Option AgentNode :=
  (ActivityCollector.each (ActivityCollector.custom T) {} events).2.foldl (nodeFrame taskId) none

/-- The node of a task is made by its events, and then by the reports of the Lead. -/
theorem find_framesOf (h : Named chunks) (taskId : String) :
  (foldActivity (framesOf T chunks)).find taskId =
    ((Interleave.part TurnChunk.agent none chunks).flatMap
      (ActivityCollector.reports T taskId)).foldl (nodeFrame taskId)
        (eventNode T taskId (eventsOf taskId chunks))
  := by
  rw [find_foldActivity, foldl_nodeFrame, List.filter_filter, List.filter_filter, eventNode,
    ← ActivityCollector.filter_isOf (T := T) h {} {} rfl, ← ActivityCollector.filter_isReport]
  congr 1
  · congr 2
    funext f
    rw [Frame.isOf, Bool.and_comm]
  · congr 1
    funext f
    rw [Bool.and_comm]

/-! ### The status of a task -/

/-- A node shows the status that the collector knows. -/
def HasStatus (status : Option String) (n : Option AgentNode) : Prop :=
  ∀ s ∈ status, n.map AgentNode.status = some s

/-- Lines of work leave the status of a node. -/
theorem HasStatus.work {status : Option String} {n : Option AgentNode} (h : HasStatus status n)
    (taskId : String) {frames : List Frame} (hwork : ∀ f ∈ frames, f.isWork = true) :
  HasStatus status (frames.foldl (nodeFrame taskId) n)
  := by
  induction frames generalizing n with
  | nil => exact h
  | cons f frames ih =>
      obtain ⟨hf, hframes⟩ := List.forall_mem_cons.mp hwork
      rw [List.foldl_cons]
      apply ih _ hframes
      intro s hs
      have hn := h s hs
      cases n with
      | none => contradiction
      | some n =>
          rw [nodeFrame, Option.getD_some, Frame.change, if_pos hf]
          exact hn

/-- A start or an end gives its status to the node. -/
theorem hasStatus_nodeFrame {taskId shown : String} {f : Frame} (n : Option AgentNode)
    (hkind : f.kind ∈ ["task_started", "task_finished", "task_failed"])
    (hs : f.status = some shown) (hne : shown ≠ "") :
  HasStatus (some shown) (nodeFrame taskId n f)
  := by
  have hkinds : f.isWork = false ∧ ¬ f.kind = "task_report" := by
    rw [Frame.isWork]
    simp only [List.mem_cons, List.not_mem_nil, or_false] at hkind
    rcases hkind with h | h | h <;> rw [h] <;> decide
  rintro s ⟨⟩
  rw [nodeFrame, Option.map_some, Frame.change, if_neg (Bool.eq_false_iff.mp hkinds.1),
    TurnGraph.taskFrame, if_neg hkinds.2, hs, Option.filter_some, if_pos (by simpa using hne)]
  rfl

namespace ActivityCollector

variable {taskId : String}

/-- A node shows the status that an event gives. -/
theorem hasStatus_custom {c : ActivityCollector} {e : TaskEvent} {n : Option AgentNode}
    (he : e.taskId ≠ "") (h : HasStatus (c.tasks.get e.taskId) n) :
  HasStatus (e.next (c.tasks.get e.taskId)) ((custom T c e).2.foldl (nodeFrame taskId) n)
  := by
  cases e with
  | started taskId' description name =>
      have hne : taskId' ≠ "" := he
      rw [custom, if_neg hne]
      apply hasStatus_nodeFrame n List.mem_cons_self rfl (by decide)
  | running step =>
      have hwork : ∀ f ∈ stepWork T step, f.isWork = true := fun f hf => (isWork_stepWork hf).1
      rw [custom_running he, TaskEvent.next, TaskEvent.taskId]
      split
      · apply HasStatus.work _ taskId hwork
        apply hasStatus_nodeFrame n List.mem_cons_self rfl (by decide)
      · apply h.work taskId hwork
  | ended e =>
      rw [custom_ended he, TaskEvent.next, TaskEvent.taskId]
      cases hs : terminalFrame e.status with
      | none => exact h
      | some shown =>
          have hshown : shown.1 ∈ ["task_finished", "task_failed"] ∧ shown.2 ≠ "" := by
            cases hstatus : e.status <;> rw [hstatus] at hs <;> cases hs <;> decide
          apply hasStatus_nodeFrame n (List.mem_cons_of_mem _ hshown.1) rfl hshown.2

/-- A node shows the status that the events of its task give. -/
theorem hasStatus_each {events : List TaskEvent} (h : ∀ e ∈ events, e.taskId = taskId)
    (hne : taskId ≠ "") {c : ActivityCollector} {n : Option AgentNode}
    (hn : HasStatus (c.tasks.get taskId) n) :
  HasStatus (events.foldl TaskEvent.next (c.tasks.get taskId))
    ((each (custom T) c events).2.foldl (nodeFrame taskId) n)
  := by
  induction events generalizing c n with
  | nil => exact hn
  | cons e events ih =>
      obtain ⟨rfl, hevents⟩ := List.forall_mem_cons.mp h
      have hget := get_custom T c hne e.taskId
      rw [if_pos rfl] at hget
      rw [each, List.foldl_append, List.foldl_cons, ← hget]
      apply ih hevents
      rw [hget]
      apply hasStatus_custom hne hn

end ActivityCollector

/-- The status after events of which none starts or ends the task. -/
theorem foldl_next_of_settles {events : List TaskEvent} (h : ∀ e ∈ events, e.settles = false)
    (status : String) :
  events.foldl TaskEvent.next (some status) =
    some (if status = "queued" ∧ ∃ e ∈ events, e.progress = true then "working" else status)
  := by
  induction events generalizing status with
  | nil => simp
  | cons e events ih =>
      obtain ⟨he, hevents⟩ := List.forall_mem_cons.mp h
      cases e with
      | started => contradiction
      | running step =>
          rw [List.foldl_cons, TaskEvent.next]
          by_cases hq : status = "queued"
          · rw [if_pos (by rw [hq]), ih hevents, if_neg (by simp), if_pos]
            exact ⟨hq, _, List.mem_cons_self, rfl⟩
          · rw [if_neg (by simpa using hq), ih hevents, if_neg (by tauto), if_neg (by tauto)]
      | ended e =>
          have hnone : terminalFrame e.status = none := by simpa [TaskEvent.settles] using he
          have hprogress : (TaskEvent.ended e).progress = false := rfl
          rw [List.foldl_cons, TaskEvent.next, hnone, ih hevents]
          simp [hprogress]

theorem taskId_of_mem_eventsOf {taskId : String} {e : TaskEvent} (h : e ∈ eventsOf taskId chunks) :
  .custom e ∈ chunks ∧ e.taskId = taskId
  := by
  obtain ⟨chunk, hchunk, he⟩ := List.mem_filterMap.mp h
  obtain ⟨hmem, hagent⟩ := List.mem_filter.mp hchunk
  cases chunk with
  | updates u => contradiction
  | custom e' =>
      obtain rfl := Option.some.inj he
      exact ⟨hmem, Option.some.inj (of_decide_eq_true hagent)⟩

/-- The graph shows the status that the events of a task give. -/
theorem status_framesOf (h : Named chunks) {taskId shown : String}
    (hs : (eventsOf taskId chunks).foldl TaskEvent.next none = some shown) :
  ((foldActivity (framesOf T chunks)).find taskId).map AgentNode.status = some shown
  := by
  have hevents : ∀ e ∈ eventsOf taskId chunks, e.taskId = taskId :=
    fun e he => (taskId_of_mem_eventsOf he).2
  have hne : taskId ≠ "" := by
    cases hlist : eventsOf taskId chunks with
    | nil =>
        rw [hlist] at hs
        contradiction
    | cons e events =>
        have hmem : e ∈ eventsOf taskId chunks := by
          rw [hlist]
          apply List.mem_cons_self
        obtain ⟨hchunk, rfl⟩ := taskId_of_mem_eventsOf hmem
        apply h e hchunk
  have hnode := ActivityCollector.hasStatus_each (T := T) hevents hne (c := {}) (n := none)
    (by rintro s ⟨⟩) shown hs
  rw [find_framesOf h, eventNode]
  cases hn : (ActivityCollector.each (ActivityCollector.custom T) {} (eventsOf taskId chunks)).2.foldl
    (nodeFrame taskId) none with
  | none =>
      rw [hn] at hnode
      contradiction
  | some n =>
      rw [hn] at hnode
      have hreports : ∀ f ∈ (Interleave.part TurnChunk.agent none chunks).flatMap
          (ActivityCollector.reports T taskId), f.isReport = true := by
        intro f hf
        rw [← ActivityCollector.filter_isReport] at hf
        exact (Bool.and_eq_true_iff.mp (List.mem_filter.mp hf).2).2
      obtain ⟨report, hreport⟩ := foldl_reports taskId hreports (n := n)
      rw [hreport]
      exact hnode

/-! ### The frames that tell of work -/

namespace ActivityCollector

/-- The frames of an event tell of work if it is the first progress of its task. -/
theorem countP_custom {c : ActivityCollector} {e : TaskEvent} (he : e.taskId ≠ "") :
  (custom T c e).2.countP (Frame.isWorking e.taskId) =
    if c.tasks.get e.taskId = some "queued" ∧ e.progress = true then 1 else 0
  := by
  cases e with
  | started taskId description name =>
      have hne : taskId ≠ "" := he
      rw [custom, if_neg hne, if_neg (by simp [TaskEvent.progress])]
      simp [Frame.isWorking]
  | running step =>
      have hwork : (stepWork T step).countP (Frame.isWorking step.taskId) = 0 := by
        rw [List.countP_eq_zero]
        intro f hf hworking
        have hkind : f.kind = "task_started" := by
          simp only [Frame.isWorking, Bool.and_eq_true, decide_eq_true_eq] at hworking
          exact hworking.1.1
        have hwork := (isWork_stepWork hf).1
        rw [Frame.isWork, hkind] at hwork
        contradiction
      rw [custom_running he, TaskEvent.taskId]
      by_cases hqueued : c.tasks.get step.taskId = some "queued"
      · rw [if_pos hqueued, if_pos ⟨hqueued, rfl⟩, List.countP_cons, hwork]
        simp [Frame.isWorking]
      · rw [if_neg hqueued, if_neg fun h => hqueued h.1, hwork]
  | ended e =>
      rw [custom_ended he, if_neg (by simp [TaskEvent.progress])]
      cases hs : terminalFrame e.status with
      | none => rfl
      | some shown =>
          have hkind : shown.1 ≠ "task_started" := by
            cases hstatus : e.status <;> rw [hstatus] at hs <;> cases hs <;> decide
          simp [Frame.isWorking, hkind]

/-- The frames of a task tell of work once for each start that is followed by progress. -/
theorem countP_each {taskId : String} {events : List TaskEvent}
    (h : ∀ e ∈ events, e.taskId = taskId) (hne : taskId ≠ "") (c : ActivityCollector) :
  (each (custom T) c events).2.countP (Frame.isWorking taskId) =
    (if c.tasks.get taskId = some "queued" ∧ TaskEvent.followed events = true then 1 else 0) +
      TaskEvent.progressed events
  := by
  induction events generalizing c with
  | nil => simp [each, TaskEvent.followed, TaskEvent.progressed]
  | cons e events ih =>
      obtain ⟨rfl, hevents⟩ := List.forall_mem_cons.mp h
      have hget := get_custom T c hne e.taskId
      rw [if_pos rfl] at hget
      rw [each, List.countP_append, countP_custom hne, ih hevents, hget]
      cases e with
      | started taskId description name =>
          simp [TaskEvent.next, TaskEvent.followed, TaskEvent.progressed, TaskEvent.progress,
            TaskEvent.settles]
      | running step =>
          by_cases hqueued : c.tasks.get step.taskId = some "queued"
          · simp [TaskEvent.next, TaskEvent.followed, TaskEvent.progressed, TaskEvent.progress,
              TaskEvent.taskId, hqueued]
          · simp [TaskEvent.next, TaskEvent.followed, TaskEvent.progressed, TaskEvent.progress,
              TaskEvent.taskId, hqueued]
      | ended e =>
          cases hs : terminalFrame e.status with
          | none =>
              simp [TaskEvent.next, TaskEvent.followed, TaskEvent.progressed, TaskEvent.progress,
                TaskEvent.settles, hs]
          | some shown =>
              have hshown : shown.2 ≠ "queued" := by
                cases hstatus : e.status <;> rw [hstatus] at hs <;> cases hs <;> decide
              simp [TaskEvent.next, TaskEvent.followed, TaskEvent.progressed, TaskEvent.progress,
                TaskEvent.settles, hs, hshown]

end ActivityCollector

/-- A frame that tells of work is of the stream of its task. -/
theorem isOf_of_isWorking {taskId : String} (hne : taskId ≠ "") {f : Frame}
    (h : f.isWorking taskId = true) :
  f.isOf taskId = true
  := by
  simp only [Frame.isWorking, Bool.and_eq_true, decide_eq_true_eq] at h
  obtain ⟨⟨hkind, -⟩, hid⟩ := h
  have hagent : f.agent = some taskId := by
    rw [Frame.agent, hid, Option.filter_some, if_pos (by simpa using hne)]
  rw [Frame.isOf, Frame.concerns, Frame.isTask, Frame.isReport, hkind, hagent]
  simp

/-- No frame tells of the work of a task without an id. -/
theorem not_isWorking_unnamed (c : ActivityCollector) (chunk : TurnChunk) :
  ∀ f ∈ (c.chunk T chunk).2, f.isWorking "" = false
  := by
  intro f hf
  rw [Frame.isWorking, Bool.and_eq_false_iff, Bool.and_eq_false_iff, decide_eq_false_iff_not,
    decide_eq_false_iff_not, decide_eq_false_iff_not]
  cases chunk with
  | updates u =>
      rcases ActivityCollector.ofLead_update c u f hf with ⟨hid, -⟩ | ⟨hkind, -, -⟩
      · right
        rw [hid]
        rintro ⟨⟩
      · left
        left
        rw [hkind]
        decide
  | custom e =>
      by_cases he : e.taskId = ""
      · rw [ActivityCollector.chunk, ActivityCollector.custom_unnamed he] at hf
        contradiction
      · right
        rw [(ActivityCollector.ofTask_custom c he f hf).1]
        intro h
        exact he (Option.some.inj h)

/-- The frames tell of the work of a task once for each start that is followed by progress. -/
theorem foldsBack_once (h : Named chunks) (taskId : String) :
  (framesOf T chunks).countP (Frame.isWorking taskId) =
    TaskEvent.progressed (eventsOf taskId chunks)
  := by
  by_cases hne : taskId = ""
  · subst hne
    have hevents : eventsOf "" chunks = [] := by
      rw [List.eq_nil_iff_forall_not_mem]
      intro e he
      obtain ⟨hmem, hid⟩ := taskId_of_mem_eventsOf he
      apply h e hmem hid
    rw [hevents, TaskEvent.progressed, List.countP_eq_zero]
    apply ActivityCollector.forall_each
    intro c chunk f hf
    rw [not_isWorking_unnamed c chunk f hf]
    apply Bool.false_ne_true
  · have hfilter : (framesOf T chunks).countP (Frame.isWorking taskId) =
        ((framesOf T chunks).filter (Frame.isOf taskId)).countP (Frame.isWorking taskId) := by
      rw [List.countP_filter]
      apply List.countP_congr
      intro f _
      rw [Bool.and_eq_true]
      exact ⟨fun hw => ⟨hw, isOf_of_isWorking hne hw⟩, And.left⟩
    rw [hfilter, framesOf, ActivityCollector.filter_isOf h {} {} rfl,
      ActivityCollector.countP_each (fun e he => (taskId_of_mem_eventsOf he).2) hne]
    rw [if_neg, Nat.zero_add]
    rintro ⟨hq, -⟩
    contradiction

/-! ### Every order -/

/-- The chunks of every order of the streams name their tasks. -/
theorem Named.same (h : Named chunks) (hs : Interleave.Same TurnChunk.agent chunks chunks') :
  Named chunks'
  := fun e he => h e (hs.perm.mem_iff.mpr he)

/-- The graph shows the same for every order of the streams. -/
theorem shownAlike (h : Named chunks) (hs : Interleave.Same TurnChunk.agent chunks chunks') :
  ShownAlike T chunks chunks'
  := by
  have h' := h.same hs
  have hlead := hs none
  have hevents : ∀ t, eventsOf t chunks = eventsOf t chunks' := by
    intro t
    rw [eventsOf, eventsOf, hs]
  constructor
  · rw [foldsBack_usage h, foldsBack_usage h']
    exact (hs.perm.flatMap_right _).sum_eq
  · rw [leadTokens_foldActivity, leadTokens_foldActivity, filter_isLeadWork h,
      filter_isLeadWork h', hlead]
  · rw [foldsBack_leadWork h, foldsBack_leadWork h', hlead]
  · have hfind : ∀ t, (foldActivity (framesOf T chunks)).find t =
        (foldActivity (framesOf T chunks')).find t := by
      intro t
      rw [find_framesOf h, find_framesOf h', hevents, hlead]
    have hbalanced := balanced_foldActivity (framesOf T chunks)
    have hbalanced' := balanced_foldActivity (framesOf T chunks')
    rw [List.perm_ext_iff_of_nodup hbalanced.nodup.of_map hbalanced'.nodup.of_map]
    intro n
    rw [mem_tasks_iff hbalanced, mem_tasks_iff hbalanced', hfind]
  · intro t
    rw [foldsBack_once h, foldsBack_once h', hevents]

/-- The graph tells what the chunks come to. -/
theorem foldsBack (h : Named chunks) :
  FoldsBack T chunks
  where
  total := (balanced_foldActivity _).tokens
  usage := foldsBack_usage h
  queued := by
    intro t before taskId description name after hevents hquiet
    apply status_framesOf h
    rw [hevents, List.foldl_append, List.foldl_cons, TaskEvent.next,
      foldl_next_of_settles fun e he => (hquiet e he).1, if_neg]
    rintro ⟨-, e, he, hprogress⟩
    rw [(hquiet e he).2] at hprogress
    contradiction
  working := by
    intro t before taskId description name after hevents hsettles hprogress
    apply status_framesOf h
    rw [hevents, List.foldl_append, List.foldl_cons, TaskEvent.next,
      foldl_next_of_settles hsettles, if_pos ⟨rfl, hprogress⟩]
  ended := by
    intro t before e kind status after hevents hframe hsettles
    apply status_framesOf h
    have hne : status ≠ "queued" := by
      cases hstatus : e.status <;> rw [hstatus] at hframe <;> cases hframe <;> decide
    rw [hevents, List.foldl_append, List.foldl_cons, TaskEvent.next, hframe,
      foldl_next_of_settles hsettles, if_neg fun h => hne h.1]
  once := foldsBack_once h
  leadWork := foldsBack_leadWork h
  taskWork := fun _ hn => foldsBack_taskWork h hn

/-- **Frames fold back to the run:** the graph tells what the streams of the agents come to, in
every order in which they come. -/
theorem foldsBack_and_shownAlike (T : Texts) {chunks : List TurnChunk} (h : Named chunks) :
  FoldsBack T chunks ∧
    ∀ chunks', Interleave.Same TurnChunk.agent chunks chunks' → ShownAlike T chunks chunks'
  := ⟨foldsBack h, fun _ hs => shownAlike h hs⟩

/-- A step of a subagent. -/
def sampleStep : Step where
  taskId := "t"
  messageIndex := 1
  kind := "ai"
  text := "Reading."
  truncated := false
  usage := some (30, 5)

/-- A turn of the Lead and a subagent. -/
def sampleTurn : List TurnChunk :=
  [.updates [("model", [.ai { toolCalls := [{ name := "task", id := some "t" }]
                              usage := some ⟨100, 20, 120⟩ }])],
    .custom (.started "t" "audit" "general-purpose"), .custom (.running sampleStep)]

theorem named_sampleTurn :
  Named sampleTurn
  := by
  intro e he
  simp only [sampleTurn, List.mem_cons, List.not_mem_nil, or_false, reduceCtorEq, false_or,
    TurnChunk.custom.injEq] at he
  rcases he with rfl | rfl <;> decide

/-- The subagent of the turn works. -/
theorem working_sampleTurn :
  ((foldActivity (framesOf sampleEnvironment.texts sampleTurn)).find "t").map AgentNode.status = some "working"
  := (foldsBack_and_shownAlike sampleEnvironment.texts named_sampleTurn).1.working "t" [] "t" "audit"
    "general-purpose" [.running sampleStep] rfl (by simp [TaskEvent.settles])
    ⟨_, List.mem_singleton_self _, rfl⟩

end Agent
