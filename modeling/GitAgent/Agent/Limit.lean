import GitAgent.Agent.Message
import GitAgent.Library.Transition

/-!
# The limit of delegations

The middleware of the Lead that cuts the calls of `task` in a reply
(`core/middleware/subagent_limit.py`). It counts the delegations in the messages of the thread,
which holds those of earlier turns as well, and from which a delegation is missing when
its call was answered by an error or when it was summarized. Where the count allows what the
calls kept in this run allow, the limits hold.
-/

namespace Agent

/-- `SubagentLimitMiddleware`. -/
structure SubagentLimit where
  maxConcurrent : ℕ := 3
  maxTotalPerRun : ℕ := 6

/-- Whether a call delegates. -/
def ToolCall.isTask (c : ToolCall) : Bool :=
  c.name = "task"

/-- The calls of a reply that delegate. -/
def AIMessage.taskCalls (m : AIMessage) : List ToolCall :=
  m.toolCalls.filter ToolCall.isTask

/-- `_prior_delegations`: the answers in the thread that carry the status of a subagent. -/
def priorDelegations (messages : List Message) : ℕ :=
  messages.countP fun m =>
    m.tool?.any fun m => (Json.get m.additionalKwargs "subagent_status").isSome

namespace SubagentLimit

variable (limit : SubagentLimit)

/-- The number of delegations that are allowed to the last reply. -/
def allowed (messages : List Message) : ℕ :=
  min limit.maxConcurrent (limit.maxTotalPerRun - priorDelegations messages)

/-- The ids of the calls that are kept: of the first delegations, and of the other calls. -/
def keptIds (last : AIMessage) (allowed : ℕ) : List (Option String) :=
  let keptTaskIds := (last.taskCalls.take allowed).map ToolCall.id
  (last.toolCalls.filter fun c => !c.isTask || c.id ∈ keptTaskIds).map ToolCall.id

/-- `after_model`: the copy of the last reply, if there is something to cut. -/
def afterModel (messages : List Message) : Option AIMessage :=
  match lastReply messages with
  | none => none
  | some last =>
      if last.taskCalls = [] then none
      else if last.taskCalls.length ≤ limit.allowed messages then none
      else some (last.cloneWithToolCalls (keptIds last (limit.allowed messages)) none)

end SubagentLimit

/-- The run of the Lead: the messages of the thread, and the number of delegations that were kept
in this run. -/
structure DelegationRun where
  messages : List Message
  kept : ℕ

/-- What happens in a run: the model replies, tools answer, or the thread is summarized up to its
last messages. -/
inductive DelegationRun.Action
  | reply (m : AIMessage)
  | tools (answers : List ToolMessage)
  | compact (summary : Json) (keep : ℕ)

namespace DelegationRun

variable (limit : SubagentLimit) (s : DelegationRun)

/-- The reply that goes to the thread. -/
def cut (m : AIMessage) : AIMessage :=
  (limit.afterModel (s.messages ++ [.ai m])).getD m

/-- The run after an action. -/
def step : Action → Option DelegationRun
  | .reply m =>
      some ⟨s.messages ++ [.ai (s.cut limit m)], s.kept + (s.cut limit m).taskCalls.length⟩
  | .tools answers => some { s with messages := s.messages ++ answers.map .tool }
  | .compact summary keep =>
      some { s with
        messages := .human summary :: s.messages.drop (s.messages.length - keep) }

end DelegationRun

/-- The runs of the Lead on a thread with any history. -/
def delegations (limit : SubagentLimit) :
    Transition.System DelegationRun DelegationRun.Action where
  init s := s.kept = 0
  step := DelegationRun.step limit

namespace DelegationRun

variable {limit : SubagentLimit} {s : DelegationRun} {m : AIMessage}

/-- The limits for the reply `m`: at most `maxConcurrent` delegations are kept, in all the run
keeps at most `maxTotalPerRun`, and fewer are kept than are asked for and may run at once only
if the run has kept as many as it may. -/
structure Capped (limit : SubagentLimit) (s : DelegationRun) (m : AIMessage) : Prop where
  concurrent : (s.cut limit m).taskCalls.length ≤ limit.maxConcurrent
  total : s.kept + (s.cut limit m).taskCalls.length ≤ limit.maxTotalPerRun
  used : (s.cut limit m).taskCalls.length < min limit.maxConcurrent m.taskCalls.length →
    limit.maxTotalPerRun ≤ s.kept + (s.cut limit m).taskCalls.length

/-- No delegation beyond the first `n` has the id of a call that is kept. -/
def Distinct (m : AIMessage) (n : ℕ) : Prop :=
  ∀ c ∈ m.taskCalls.drop n, c.id ∉ SubagentLimit.keptIds m n

/-- The delegations in the thread allow the reply what those that were kept in this run
allow. -/
def Counted (limit : SubagentLimit) (s : DelegationRun) (m : AIMessage) : Prop :=
  min (min m.taskCalls.length limit.maxConcurrent)
      (limit.maxTotalPerRun - priorDelegations s.messages) =
    min (min m.taskCalls.length limit.maxConcurrent) (limit.maxTotalPerRun - s.kept)

instance (m : AIMessage) (n : ℕ) : Decidable (Distinct m n) :=
  inferInstanceAs (Decidable (∀ c ∈ m.taskCalls.drop n, c.id ∉ SubagentLimit.keptIds m n))

instance (limit : SubagentLimit) (s : DelegationRun) (m : AIMessage) :
    Decidable (s.Counted limit m) :=
  inferInstanceAs (Decidable (_ = _))

/-- The first delegations are kept. -/
theorem mem_keptIds {c : ToolCall} {n : ℕ} (h : c ∈ m.taskCalls.take n) :
  c.id ∈ SubagentLimit.keptIds m n
  := by
  apply List.mem_map_of_mem
  apply List.mem_filter.mpr
  constructor
  · apply List.mem_of_mem_filter (List.mem_of_mem_take h)
  · rw [Bool.or_eq_true, decide_eq_true_eq]
    exact .inr (List.mem_map_of_mem h)

/-- Of delegations with ids of their own exactly the first ones are kept. -/
theorem taskCalls_clone {n : ℕ} (h : Distinct m n) :
  (m.cloneWithToolCalls (SubagentLimit.keptIds m n) none).taskCalls = m.taskCalls.take n
  := by
  have hcomm : (m.cloneWithToolCalls (SubagentLimit.keptIds m n) none).taskCalls =
      m.taskCalls.filter fun c => c.id ∈ SubagentLimit.keptIds m n := by
    rw [AIMessage.taskCalls, AIMessage.toolCalls_cloneWithToolCalls, AIMessage.taskCalls,
      List.filter_filter, List.filter_filter]
    simp only [Bool.and_comm]
  have hkeep : (m.taskCalls.take n).filter (fun c => c.id ∈ SubagentLimit.keptIds m n) =
      m.taskCalls.take n :=
    List.filter_eq_self.mpr fun c hc => decide_eq_true (mem_keptIds hc)
  have hdrop : (m.taskCalls.drop n).filter (fun c => c.id ∈ SubagentLimit.keptIds m n) = [] :=
    List.filter_eq_nil_iff.mpr fun c hc => by simpa using h c hc
  calc _ = (m.taskCalls.take n ++ m.taskCalls.drop n).filter
        (fun c => c.id ∈ SubagentLimit.keptIds m n) := by rw [hcomm, List.take_append_drop]
    _ = m.taskCalls.take n := by rw [List.filter_append, hkeep, hdrop, List.append_nil]

/-- A reply delegates nothing before. -/
theorem priorDelegations_reply (messages : List Message) (m : AIMessage) :
  priorDelegations (messages ++ [.ai m]) = priorDelegations messages
  := by
  rw [priorDelegations, List.countP_append, priorDelegations]
  rfl

/-- The number of the delegations that are kept. -/
theorem length_taskCalls_cut (h : Distinct m (limit.allowed s.messages)) :
  (s.cut limit m).taskCalls.length = min m.taskCalls.length (limit.allowed s.messages)
  := by
  have hallowed : limit.allowed (s.messages ++ [.ai m]) = limit.allowed s.messages := by
    rw [SubagentLimit.allowed, priorDelegations_reply, SubagentLimit.allowed]
  have hlast : lastReply (s.messages ++ [.ai m]) = some m := by
    rw [lastReply, List.getLast?_concat]
    rfl
  rw [cut, SubagentLimit.afterModel, hlast]
  simp only [hallowed]
  split
  · rename_i hn
    rw [Option.getD_none, hn]
    rfl
  · split
    · rename_i hle
      rw [Option.getD_none, Nat.min_eq_left hle]
    · rename_i hle
      rw [Option.getD_some, taskCalls_clone h, List.length_take, Nat.min_comm]

/-- The limits hold for a reply exactly if the count of the thread allows what the count of the
run allows. -/
theorem capped_iff_counted (hd : Distinct m (limit.allowed s.messages))
    (hk : s.kept ≤ limit.maxTotalPerRun) :
  s.Capped limit m ↔ s.Counted limit m
  := by
  have hlen := length_taskCalls_cut hd
  rw [SubagentLimit.allowed] at hlen
  rw [Counted]
  constructor
  · rintro ⟨h₁, h₂, h₃⟩
    omega
  · intro h
    constructor <;> omega

end DelegationRun

/-- A reply has calls with ids of their own, and the thread counts the delegations of the run. -/
def DelegationRun.Fair (limit : SubagentLimit) (s : DelegationRun) : DelegationRun.Action → Prop
  | .reply m => DelegationRun.Distinct m (limit.allowed s.messages) ∧ s.Counted limit m
  | _ => True

instance (limit : SubagentLimit) (s : DelegationRun) (a : DelegationRun.Action) :
    Decidable (s.Fair limit a) := by
  cases a <;> unfold DelegationRun.Fair <;> infer_instance

section

variable {limit : SubagentLimit} {s : DelegationRun}

/-- In a run whose replies are all fair the run keeps at most as many delegations as it may. -/
theorem kept_le_of_fair (h : (delegations limit).Reach (DelegationRun.Fair limit) s) :
  s.kept ≤ limit.maxTotalPerRun
  := by
  apply h.invariant (I := fun s => s.kept ≤ limit.maxTotalPerRun)
  · intro s hs
    rw [show s.kept = 0 from hs]
    apply Nat.zero_le
  · intro s a s' hk hG ha
    cases a with
    | reply m =>
        obtain rfl := Option.some.inj ha
        apply ((DelegationRun.capped_iff_counted hG.1 hk).mpr hG.2).total
    | tools answers =>
        obtain rfl := Option.some.inj ha
        apply hk
    | compact summary keep =>
        obtain rfl := Option.some.inj ha
        apply hk

/-- **The delegations of a run are capped** in a run in which every reply has calls with ids of
their own, and the delegations in the thread allow what those of the run allow. -/
theorem capped_of_fair (h : (delegations limit).Reach (DelegationRun.Fair limit) s)
    {m : AIMessage} (hG : s.Fair limit (.reply m)) :
  s.Capped limit m
  := (DelegationRun.capped_iff_counted hG.1 (kept_le_of_fair h)).mpr hG.2

end

/-- A delegation with the id `id`. -/
def taskCall (id : String) : ToolCall :=
  { name := "task", id := some id }

/-- The answer to a delegation that ended. -/
def taskAnswer (id : String) : ToolMessage :=
  { toolCallId := id, name := "task", additionalKwargs := [("subagent_status", .str "completed")] }

/-- In the first turn of a thread two delegations are kept of two, and one of two. -/
theorem capped_of_fair_first :
  ∃ s, (delegations ⟨2, 3⟩).Reach (DelegationRun.Fair ⟨2, 3⟩) s ∧ s.kept = 2 ∧
    s.Capped ⟨2, 3⟩ { toolCalls := [taskCall "c", taskCall "d"] }
  := by
  obtain ⟨s, hs, hp⟩ := Transition.exists_reach_of_run (T := delegations ⟨2, 3⟩)
    (G := DelegationRun.Fair ⟨2, 3⟩) (s := ⟨[.human (.str "review")], 0⟩) rfl
    [.reply { toolCalls := [taskCall "a", taskCall "b"] },
      .tools [taskAnswer "a", taskAnswer "b"]]
    (fun s => s.kept = 2 ∧
      s.Fair ⟨2, 3⟩ (.reply { toolCalls := [taskCall "c", taskCall "d"] })) (by decide)
  obtain ⟨hk, hG⟩ := of_decide_eq_true hp
  exact ⟨s, hs, hk, capped_of_fair hs hG⟩

/-- In the second turn of a thread, of which the first has delegated six times, the first
delegation is cut. -/
theorem not_capped_reachable :
  ∃ s m, (delegations {}).Reachable s ∧ ¬ s.Capped {} m
  := by
  let answers := ["a", "b", "c", "d", "e", "f"].map fun id => Message.tool (taskAnswer id)
  refine ⟨⟨answers ++ [.human (.str "and now?")], 0⟩, { toolCalls := [taskCall "g"] }, .start rfl, ?_⟩
  intro h
  have := h.used
  revert this
  decide

end Agent
