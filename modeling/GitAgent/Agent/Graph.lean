import GitAgent.Agent.Versions

/-!
# The graph of a turn

What a frame changes in the graph, and what the frames of a turn come to: the lines and the tokens
of each agent, and the node of each task, which the frames of the task determine.
-/

namespace Agent

namespace Frame

/-- Whether a frame is a line of a work log. -/
def isWork (f : Frame) : Bool :=
  f.kind ∈ ["tool_call", "tool_result", "text"]

/-- Whether a frame tells of a task. -/
def isTask (f : Frame) : Bool :=
  f.kind ∈ ["task_started", "task_finished", "task_failed", "task_report"]

/-- The task of a frame, and none for the Lead. -/
def agent (f : Frame) : Option String :=
  f.taskId.filter (· ≠ "")

/-- The line that a frame is in a work log. -/
def line (f : Frame) : WorkFrame :=
  ⟨f.kind, f.description.getD "", f.tokens⟩

/-- What a frame of a task changes in its node. -/
def change (f : Frame) (n : AgentNode) : AgentNode :=
  if f.isWork then { n with work := n.work ++ [f.line], tokens := addTokens n.tokens f.tokens }
  else TurnGraph.taskFrame f n

@[simp]
theorem taskId_change (f : Frame) (n : AgentNode) :
  (f.change n).taskId = n.taskId
  := by
  rw [change, TurnGraph.taskFrame]
  split_ifs <;> rfl

end Frame

/-- The lines of a work log that frames are. -/
def workLines (frames : List Frame) : List WorkFrame :=
  (frames.filter Frame.isWork).map Frame.line

theorem addTokens_eq (t : ℤ × ℤ) (tokens : Option (ℤ × ℤ)) :
  addTokens t tokens = t + tokens.toList.sum
  := by
  cases tokens with
  | none => exact (add_zero t).symm
  | some x =>
      rw [Option.toList_some, List.sum_singleton]
      rfl

namespace TurnGraph

variable {g : TurnGraph} {f : Frame}

/-- The graph without what is told of the run as a whole. -/
def core (g : TurnGraph) : TurnGraph :=
  { tasks := g.tasks, leadWork := g.leadWork, leadTokens := g.leadTokens, tokens := g.tokens }

/-- What a frame changes: a line of work, or the node of a task, or nothing. -/
theorem core_frame (g : TurnGraph) (f : Frame) :
  (g.frame f).core =
    if f.isWork then
      match f.agent with
      | none =>
          { g.core with
            leadWork := g.leadWork ++ [f.line]
            leadTokens := addTokens g.leadTokens f.tokens
            tokens := addTokens g.tokens f.tokens }
      | some taskId => { g.core.node taskId f.change with tokens := addTokens g.tokens f.tokens }
    else if f.isTask then
      match f.agent with
      | none => g.core
      | some taskId => g.core.node taskId f.change
    else g.core
  := by
  unfold frame
  extract_lets g₀ line g₁
  obtain ⟨htasks, hleadWork, hleadTokens, htokens⟩ : g₀.tasks = g.tasks ∧
      g₀.leadWork = g.leadWork ∧ g₀.leadTokens = g.leadTokens ∧ g₀.tokens = g.tokens := by
    unfold g₀
    split
    · split <;> exact ⟨rfl, rfl, rfl, rfl⟩
    · exact ⟨rfl, rfl, rfl, rfl⟩
  have hcore : g₀.core = g.core := by rw [core, core, htasks, hleadWork, hleadTokens, htokens]
  clear_value g₀
  by_cases hw : f.isWork = true
  · have hkind : f.kind ≠ "run_started" ∧ f.kind ≠ "run_finished" ∧ f.kind ≠ "run_failed" ∧
        f.kind ∉ ["task_started", "task_finished", "task_failed", "task_report"] := by
      have hmem := of_decide_eq_true hw
      simp only [List.mem_cons, List.not_mem_nil, or_false] at hmem
      rcases hmem with h | h | h <;> rw [h] <;> decide
    obtain ⟨h₁, h₂, h₃, h₄⟩ := hkind
    rw [if_neg h₁, if_neg h₂, if_neg h₃, if_neg h₄, if_pos (of_decide_eq_true hw), if_pos hw]
    unfold g₁
    cases ha : f.agent with
    | none =>
        rw [show f.taskId.filter _ = none from ha]
        simp only [core, htasks, hleadWork, hleadTokens, htokens]
        rfl
    | some taskId =>
        have hchange : f.change = fun n =>
            { n with work := n.work ++ [f.line], tokens := addTokens n.tokens f.tokens } := by
          funext n
          rw [Frame.change, if_pos hw]
        rw [show f.taskId.filter _ = some taskId from ha, hchange]
        simp only [core, node, htasks, hleadWork, hleadTokens, htokens]
        rfl
  · have hwork : f.kind ∉ ["tool_call", "tool_result", "text"] := by simpa [Frame.isWork] using hw
    rw [if_neg hwork, if_neg hw]
    by_cases ht : f.isTask = true
    · have hkind : f.kind ≠ "run_started" ∧ f.kind ≠ "run_finished" ∧ f.kind ≠ "run_failed" := by
        have hmem := of_decide_eq_true ht
        simp only [List.mem_cons, List.not_mem_nil, or_false] at hmem
        rcases hmem with h | h | h | h <;> rw [h] <;> decide
      obtain ⟨h₁, h₂, h₃⟩ := hkind
      rw [if_neg h₁, if_neg h₂, if_neg h₃, if_pos (of_decide_eq_true ht), if_pos ht]
      cases ha : f.agent with
      | none => rw [show f.taskId.filter _ = none from ha, hcore]
      | some taskId =>
          have hchange : f.change = taskFrame f := by
            funext n
            rw [Frame.change, if_neg hw]
          rw [show f.taskId.filter _ = some taskId from ha, hchange, ← hcore]
          rfl
    · have htask : f.kind ∉ ["task_started", "task_finished", "task_failed", "task_report"] := by
        simpa [Frame.isTask] using ht
      rw [if_neg ht, if_neg htask]
      split_ifs <;> exact hcore

/-- The node of a task. -/
def find (g : TurnGraph) (taskId : String) : Option AgentNode :=
  g.tasks.find? fun n => n.taskId = taskId

theorem taskId_of_find {taskId : String} {n : AgentNode} (h : g.find taskId = some n) :
  n.taskId = taskId
  := by
  rw [find] at h
  simpa using List.find?_some h

/-- The node of a task after the change of one. -/
theorem find_node {change : AgentNode → AgentNode} (h : ∀ n, (change n).taskId = n.taskId)
    (taskId taskId' : String) :
  (g.node taskId change).find taskId' =
    if taskId' = taskId then some (change ((g.find taskId).getD { taskId })) else g.find taskId'
  := by
  rw [find, node]
  dsimp only
  split
  · rename_i hany
    have hp : ((fun n : AgentNode => decide (n.taskId = taskId')) ∘
        fun n => if n.taskId = taskId then change n else n) = fun n => decide (n.taskId = taskId') := by
      funext n
      dsimp only [Function.comp_apply]
      split
      · rw [h]
      · rfl
    rw [List.find?_map, hp]
    split
    · rename_i e
      subst e
      cases hf : g.find taskId' with
      | none =>
          obtain ⟨n, hn, he⟩ := List.any_eq_true.mp hany
          apply absurd he (List.find?_eq_none.mp hf n hn)
      | some n =>
          have hid : n.taskId = taskId' := taskId_of_find hf
          rw [show g.tasks.find? _ = some n from hf, Option.map_some, if_pos hid]
          rfl
    · rename_i hne
      cases hf : g.find taskId' with
      | none => rw [show g.tasks.find? _ = none from hf, Option.map_none]
      | some n =>
          have hid : n.taskId = taskId' := taskId_of_find hf
          rw [show g.tasks.find? _ = some n from hf, Option.map_some, if_neg (hid ▸ hne)]
  · rename_i hany
    have hnone : g.find taskId = none := by
      rw [find, List.find?_eq_none]
      intro n hn he
      apply hany
      rw [List.any_eq_true]
      exact ⟨n, hn, he⟩
    rw [List.find?_append, List.find?_singleton, h]
    by_cases e : taskId' = taskId
    · subst e
      rw [show g.tasks.find? _ = none from hnone, hnone, if_pos rfl, if_pos (decide_eq_true rfl)]
      rfl
    · have hne : ¬ decide (taskId = taskId') = true := fun h => e (of_decide_eq_true h).symm
      rw [if_neg hne, if_neg e, Option.or_none]
      rfl

/-! ### The accounts -/

/-- Each task has one node, and the tokens are those of the Lead and of the tasks. -/
structure Balanced (g : TurnGraph) : Prop where
  nodup : (g.tasks.map AgentNode.taskId).Nodup
  tokens : g.tokens = g.leadTokens + (g.tasks.map AgentNode.tokens).sum

/-- The change of one node adds its tokens to those of the nodes. -/
theorem sum_tokens_change {change : AgentNode → AgentNode} {tokens : ℤ × ℤ} {taskId : String}
    (htokens : ∀ n, (change n).tokens = n.tokens + tokens) {ns : List AgentNode}
    (h : (ns.map AgentNode.taskId).Nodup) (hmem : taskId ∈ ns.map AgentNode.taskId) :
  ((ns.map fun n => if n.taskId = taskId then change n else n).map AgentNode.tokens).sum =
    (ns.map AgentNode.tokens).sum + tokens
  := by
  induction ns with
  | nil => contradiction
  | cons n ns ih =>
      obtain ⟨hn, hns⟩ := List.nodup_cons.mp h
      rw [List.map_cons, List.map_cons, List.sum_cons, List.map_cons, List.sum_cons]
      by_cases e : n.taskId = taskId
      · have hrest : (ns.map fun n => if n.taskId = taskId then change n else n) = ns.map id := by
          apply List.map_congr_left
          intro m hm
          rw [if_neg]
          · rfl
          · intro em
            apply hn
            rw [e, ← em]
            apply List.mem_map_of_mem hm
        rw [if_pos e, hrest, List.map_id, htokens, add_assoc, add_comm tokens, ← add_assoc]
      · have hmem : taskId ∈ ns.map AgentNode.taskId :=
          (List.mem_cons.mp hmem).resolve_left fun h => e h.symm
        rw [if_neg e, ih hns hmem, add_assoc]

/-- The tasks that a change of one node leaves, and the tokens that it adds. -/
theorem tokens_node {change : AgentNode → AgentNode} {tokens : ℤ × ℤ}
    (hid : ∀ n, (change n).taskId = n.taskId) (htokens : ∀ n, (change n).tokens = n.tokens + tokens)
    (h : (g.tasks.map AgentNode.taskId).Nodup) (taskId : String) :
  ((g.node taskId change).tasks.map AgentNode.taskId).Nodup ∧
    ((g.node taskId change).tasks.map AgentNode.tokens).sum =
      (g.tasks.map AgentNode.tokens).sum + tokens
  := by
  rw [node]
  dsimp only
  split
  · rename_i hany
    obtain ⟨n, hn, he⟩ := List.any_eq_true.mp hany
    have hmem : taskId ∈ g.tasks.map AgentNode.taskId :=
      List.mem_map.mpr ⟨n, hn, of_decide_eq_true he⟩
    refine ⟨?_, sum_tokens_change htokens h hmem⟩
    have hids : AgentNode.taskId ∘ (fun n => if n.taskId = taskId then change n else n) =
        AgentNode.taskId := by
      funext n
      dsimp only [Function.comp_apply]
      split
      · apply hid
      · rfl
    rwa [List.map_map, hids]
  · rename_i hany
    constructor
    · rw [List.map_append, List.map_singleton, hid]
      apply h.append (List.nodup_singleton taskId)
      rintro taskId' h' hmem
      rw [List.mem_singleton.mp hmem] at h'
      obtain ⟨n, hn, he⟩ := List.mem_map.mp h'
      exact hany (List.any_eq_true.mpr ⟨n, hn, decide_eq_true he⟩)
    · rw [List.map_append, List.sum_append, List.map_singleton, List.sum_singleton, htokens]
      congr 1
      apply zero_add

theorem tokens_taskFrame (f : Frame) (n : AgentNode) :
  (taskFrame f n).tokens = n.tokens
  := by
  rw [taskFrame]
  split <;> rfl

/-- What depends on the tasks and the tokens alone holds if it does of the core. -/
theorem balanced_core :
  g.core.Balanced ↔ g.Balanced
  := ⟨fun ⟨h, h'⟩ => ⟨h, h'⟩, fun ⟨h, h'⟩ => ⟨h, h'⟩⟩

theorem balanced_frame (h : g.Balanced) (f : Frame) :
  (g.frame f).Balanced
  := by
  rw [← balanced_core, core_frame]
  split
  · rename_i hw
    have hchange : ∀ n, (f.change n).tokens = n.tokens + f.tokens.toList.sum := by
      intro n
      rw [Frame.change, if_pos hw, addTokens_eq]
    split
    · refine ⟨h.nodup, ?_⟩
      dsimp only [core]
      rw [addTokens_eq, addTokens_eq, h.tokens, add_right_comm]
    · rename_i taskId _
      obtain ⟨hnodup, htokens⟩ :=
        tokens_node (g := g.core) f.taskId_change hchange h.nodup taskId
      refine ⟨hnodup, ?_⟩
      dsimp only
      rw [htokens, addTokens_eq, h.tokens, add_assoc]
      rfl
  · rename_i hw
    have hchange : ∀ n, (f.change n).tokens = n.tokens + 0 := by
      intro n
      rw [Frame.change, if_neg hw, tokens_taskFrame, add_zero]
    split
    · split
      · exact ⟨h.nodup, h.tokens⟩
      · rename_i taskId _
        obtain ⟨hnodup, htokens⟩ :=
          tokens_node (g := g.core) f.taskId_change hchange h.nodup taskId
        refine ⟨hnodup, ?_⟩
        rw [htokens, add_zero]
        apply h.tokens
    · exact ⟨h.nodup, h.tokens⟩

end TurnGraph

/-- The accounts of a graph that frames are folded to are right. -/
theorem balanced_foldActivity (frames : List Frame) :
  (foldActivity frames).Balanced
  := by
  have hfold : ∀ g : TurnGraph, g.Balanced → (frames.foldl TurnGraph.frame g).Balanced := by
    induction frames with
    | nil => exact fun g h => h
    | cons f frames ih => exact fun g h => ih _ (TurnGraph.balanced_frame h f)
  apply hfold
  exact ⟨List.nodup_nil, rfl⟩

/-! ### What frames come to -/

/-- Whether a frame is a line of the Lead's work. -/
def Frame.isLeadWork (f : Frame) : Bool :=
  f.isWork && f.agent.isNone

/-- Whether a frame changes the node of a task. -/
def Frame.concerns (taskId : String) (f : Frame) : Bool :=
  (f.isWork || f.isTask) && f.agent = some taskId

namespace TurnGraph

theorem leadWork_frame (g : TurnGraph) (f : Frame) :
  (g.frame f).leadWork = g.leadWork ++ (if f.isLeadWork then [f.line] else [])
  := by
  have h := congrArg leadWork (g.core_frame f)
  change (g.frame f).leadWork = _ at h
  rw [h, Frame.isLeadWork]
  cases f.isWork <;> cases f.isTask <;> cases f.agent <;> first | rfl | exact (List.append_nil _).symm

theorem leadTokens_frame (g : TurnGraph) (f : Frame) :
  (g.frame f).leadTokens = g.leadTokens + (if f.isLeadWork then f.tokens.toList.sum else 0)
  := by
  have h := congrArg leadTokens (g.core_frame f)
  change (g.frame f).leadTokens = _ at h
  rw [h, Frame.isLeadWork]
  cases f.isWork <;> cases f.isTask <;> cases f.agent <;>
    first | exact addTokens_eq _ _ | exact (add_zero _).symm

theorem tokens_frame (g : TurnGraph) (f : Frame) :
  (g.frame f).tokens = g.tokens + (if f.isWork then f.tokens.toList.sum else 0)
  := by
  have h := congrArg tokens (g.core_frame f)
  change (g.frame f).tokens = _ at h
  rw [h]
  cases f.isWork <;> cases f.isTask <;> cases f.agent <;>
    first | exact addTokens_eq _ _ | exact (add_zero _).symm

theorem find_frame (g : TurnGraph) (f : Frame) (taskId : String) :
  (g.frame f).find taskId =
    if f.concerns taskId then some (f.change ((g.find taskId).getD { taskId })) else g.find taskId
  := by
  have h := congrArg (fun g : TurnGraph => g.find taskId) (g.core_frame f)
  change (g.frame f).find taskId = _ at h
  rw [h, Frame.concerns]
  have hnode : ∀ taskId', (g.core.node taskId' f.change).find taskId =
      if (some taskId' : Option String) = some taskId then
        some (f.change ((g.find taskId).getD { taskId })) else g.find taskId := by
    intro taskId'
    rw [find_node f.taskId_change]
    by_cases e : taskId = taskId'
    · subst e
      rw [if_pos rfl, if_pos rfl]
      rfl
    · rw [if_neg e, if_neg fun h => e (Option.some.inj h).symm]
      rfl
  cases f.isWork <;> cases f.isTask <;> cases f.agent <;>
    first | rfl | exact (hnode _).trans (by simp)

end TurnGraph

/-- The lines of the Lead's work are its frames of work. -/
theorem leadWork_foldActivity (frames : List Frame) :
  (foldActivity frames).leadWork = (frames.filter Frame.isLeadWork).map Frame.line
  := by
  have hfold : ∀ g : TurnGraph, (frames.foldl TurnGraph.frame g).leadWork =
      g.leadWork ++ (frames.filter Frame.isLeadWork).map Frame.line := by
    induction frames with
    | nil => exact fun g => (List.append_nil _).symm
    | cons f frames ih =>
        intro g
        rw [List.foldl_cons, ih, TurnGraph.leadWork_frame, List.append_assoc, List.filter_cons]
        split <;> rfl
  apply hfold

/-- A sum that each frame adds to. -/
theorem sum_foldActivity {measure : TurnGraph → ℤ × ℤ} {p : Frame → Bool} (hzero : measure {} = 0)
    (h : ∀ g f, measure (TurnGraph.frame g f) =
      measure g + (if p f then f.tokens.toList.sum else 0)) (frames : List Frame) :
  measure (foldActivity frames) = tokensOf (frames.filter p)
  := by
  have hfold : ∀ g : TurnGraph, measure (frames.foldl TurnGraph.frame g) =
      measure g + tokensOf (frames.filter p) := by
    induction frames with
    | nil => exact fun g => (add_zero _).symm
    | cons f frames ih =>
        intro g
        rw [List.foldl_cons, ih, h, add_assoc, List.filter_cons]
        split
        · rw [← List.singleton_append, ActivityCollector.tokensOf_append]
          congr 2
        · rw [zero_add]
  rw [foldActivity, hfold, hzero, zero_add]

theorem leadTokens_foldActivity (frames : List Frame) :
  (foldActivity frames).leadTokens = tokensOf (frames.filter Frame.isLeadWork)
  := sum_foldActivity rfl TurnGraph.leadTokens_frame frames

theorem tokens_foldActivity (frames : List Frame) :
  (foldActivity frames).tokens = tokensOf (frames.filter Frame.isWork)
  := sum_foldActivity rfl TurnGraph.tokens_frame frames

/-- A node after a frame of its task, which makes it if there is none. -/
def nodeFrame (taskId : String) (n : Option AgentNode) (f : Frame) : Option AgentNode :=
  some (f.change (n.getD { taskId }))

/-- The node of a task is what the frames of the task make of it. -/
theorem find_foldActivity (frames : List Frame) (taskId : String) :
  (foldActivity frames).find taskId =
    (frames.filter (Frame.concerns taskId)).foldl (nodeFrame taskId) none
  := by
  have hfold : ∀ g : TurnGraph, (frames.foldl TurnGraph.frame g).find taskId =
      (frames.filter (Frame.concerns taskId)).foldl (nodeFrame taskId) (g.find taskId) := by
    induction frames with
    | nil => exact fun g => rfl
    | cons f frames ih =>
        intro g
        rw [List.foldl_cons, ih, TurnGraph.find_frame, List.filter_cons]
        split <;> rfl
  apply hfold

end Agent
