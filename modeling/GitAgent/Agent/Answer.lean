import GitAgent.Agent.Budget
import GitAgent.Agent.Limit
import GitAgent.Agent.Loop

/-!
# The answer of a run

The hooks of the Lead after a reply of its model (`core/agents/features.py`), which run from the
last middleware to the first: an empty reply is asked for again once, and is then replaced by an
error (`core/middleware/terminal_response.py`); then the budget, the detector of loops and the limit
of delegations may take the calls from the reply. They leave a note in its text, but none where the
content is a list of blocks, so that after the guard against empty answers a reply can become one.
-/

namespace Agent

/-- What is done next in a run. -/
inductive Next
  | model
  | tools
  | finish
  deriving DecidableEq

/-- The run of the Lead: the messages of the thread, the middleware, what is done next, and how
often the model was asked again for an answer. -/
structure LeadRun (δ : Type) where
  messages : List Message
  limit : SubagentLimit
  loop : LoopDetection δ
  budget : TokenBudget
  terminal : TerminalResponse := {}
  next : Next := .model
  recoveries : ℕ := 0

/-- The last reply of a thread. -/
def lastAnswer (messages : List Message) : Option AIMessage :=
  (repliesOf messages).getLast?

/-- The ids of the calls that were answered after the last reply. -/
def answeredIds (messages : List Message) : List (Option String) :=
  ((messages.reverse.takeWhile fun m => m.ai?.isNone).filterMap Message.tool?).map
    fun m => some m.toolCallId

/-- What is done after the hooks: the calls of the last reply that are not answered go to the tools,
and without calls the run is over. -/
def route (messages : List Message) : Next :=
  match lastAnswer messages with
  | none => .finish
  | some m =>
      if m.toolCalls = [] then .finish
      else if ∀ c ∈ m.toolCalls, c.id ∈ answeredIds messages then .model
      else .tools

/-- The thread with the copy that a hook returned. -/
def withCopy (messages : List Message) (copy : Option AIMessage) : List Message :=
  (copy.map (addMessage messages ∘ Message.ai)).getD messages

namespace LeadRun

variable {δ : Type} [DecidableEq δ] (hash : String → δ) (R : Reprs) (s : LeadRun δ)

/-- What happens in a run: the model replies (`uuid` is the id of a reply without one), tools
answer, or the thread is summarized up to its last messages. -/
inductive Action
  | reply (m : AIMessage) (uuid : String)
  | tools (answers : List ToolMessage)
  | compact (summary : Json) (keep : ℕ)

/-- The run when the model has replied. -/
def called (m : AIMessage) : LeadRun δ :=
  { s with
    messages := addMessage s.messages (.ai m)
    loop := s.loop.drain
    budget := s.budget.drain
    terminal := s.terminal.drain }

/-- The hook of the budget. -/
def budgeted : LeadRun δ :=
  { s with
    budget := (s.budget.afterModel s.messages).1
    messages := withCopy s.messages (s.budget.afterModel s.messages).2 }

/-- The hook of the detector of loops. -/
def looped : LeadRun δ :=
  { s with
    loop := (s.loop.afterModel hash R s.messages).1
    messages := withCopy s.messages (s.loop.afterModel hash R s.messages).2 }

/-- The hook of the limit of delegations. -/
def limited : LeadRun δ :=
  { s with messages := withCopy s.messages (s.limit.afterModel s.messages) }

/-- The hooks that may take the calls from a reply. -/
def guarded : LeadRun δ :=
  (s.budgeted.looped hash R).limited

/-- The run goes on as its last reply says. -/
def routed : LeadRun δ :=
  { s with next := route s.messages }

/-- The hooks after the model. When the model is asked again the others are skipped. -/
def hooked : LeadRun δ :=
  match s.terminal.afterModel s.messages with
  | (t, some (.remove id)) =>
      { s with
        terminal := t
        messages := removeMessage s.messages id
        next := .model
        recoveries := s.recoveries + 1 }
  | (t, some (.replace m)) =>
      (guarded hash R { s with terminal := t, messages := addMessage s.messages (.ai m) }).routed
  | (t, none) => (guarded hash R { s with terminal := t }).routed

/-- The run after an action. -/
def step : Action → Option (LeadRun δ)
  | .reply m uuid =>
      if s.next = .model then some ((s.called (BudgetRun.named m uuid)).hooked hash R) else none
  | .tools answers =>
      if s.next = .tools ∧ answers ≠ [] then
        some { s with messages := s.messages ++ answers.map .tool, next := .model }
      else none
  | .compact summary keep =>
      if s.next = .model then
        some { s with
          messages := .human summary :: s.messages.drop (s.messages.length - keep) }
      else none

end LeadRun

/-- The runs of the Lead on a thread with any history. -/
def leadRuns {δ : Type} [DecidableEq δ] (hash : String → δ) (R : Reprs) (limit : SubagentLimit)
    (bounds : LoopBounds) (budget warnAt : ℤ) :
    Transition.System (LeadRun δ) LeadRun.Action where
  init s := s = { messages := s.messages, limit, loop := { bounds }, budget := { budget, warnAt } }
  step s := s.step hash R

/-- The last reply of the thread has a text. -/
def Visible (messages : List Message) : Prop :=
  ∃ m, lastAnswer messages = some m ∧ isBlank (text m.content) = false

/-- Whether a content is a list of blocks without a text. -/
def isSilent : Json → Bool
  | .str _ => false
  | content => isBlank (text content)

namespace LeadRun

variable {δ : Type} [DecidableEq δ] (hash : String → δ) (R : Reprs) (s : LeadRun δ)

/-- The calls of the reply are to be removed: the budget is used up, a bound on loops is reached, or
all the calls delegate and none may. -/
def Stops (m : AIMessage) : Prop :=
  s.budget.budget ≤ (s.messages.foldl TokenBudget.observe s.budget).total ∨
    s.loop.Stops hash R m.toolCalls ∨
    (∀ c ∈ m.toolCalls, c.isTask = true) ∧ s.limit.allowed s.messages = 0

/-- A reply that is empty is the last message of a thread with an answer of a tool, and one whose
calls are to be removed is no list of blocks without a text. -/
structure Answering (m : AIMessage) : Prop where
  empty : ∀ last ∈ lastAnswer (s.called m).messages, isEmptyFinal last = true →
    (lastReply (s.called m).messages).isSome ∧
      (s.called m).messages.any (fun n => n.tool?.isSome) = true
  blocks : ∀ last ∈ lastReply (s.called m).messages, last.toolCalls ≠ [] →
    (s.called m).Stops hash R last → isSilent last.content = false

/-- Each reply is one that can become an answer. -/
def Answers : Action → Prop
  | .reply m uuid => s.Answering hash R (BudgetRun.named m uuid)
  | _ => True

instance (m : AIMessage) : Decidable (s.Stops hash R m) :=
  inferInstanceAs (Decidable (_ ∨ _ ∨ _ ∧ _))

instance (m : AIMessage) : Decidable (s.Answering hash R m) :=
  decidable_of_iff (_ ∧ _) ⟨fun ⟨h₁, h₂⟩ => ⟨h₁, h₂⟩, fun h => ⟨h.empty, h.blocks⟩⟩

instance (a : Action) : Decidable (s.Answers hash R a) := by
  cases a <;> unfold Answers <;> infer_instance

end LeadRun

/-! ### The thread after a hook -/

/-- The last reply is the last message, if that is one. -/
theorem lastAnswer_of_lastReply {messages : List Message} {last : AIMessage}
    (h : lastReply messages = some last) :
  lastAnswer messages = some last
  := by
  obtain ⟨n, hn, hlast⟩ := Option.bind_eq_some_iff.mp h
  obtain ⟨init, rfl⟩ := List.getLast?_eq_some_iff.mp hn
  have hn' : repliesOf [n] = [last] := by simp [repliesOf, hlast]
  rw [lastAnswer, repliesOf, List.filterMap_append, ← repliesOf, ← repliesOf, hn',
    List.getLast?_concat]

/-- A copy of the last message takes its place. -/
theorem lastReply_addMessage_self {messages : List Message} {m last : AIMessage}
    (h : lastReply messages = some last) (he : m.id = last.id) :
  lastReply (addMessage messages (.ai m)) = some m
  := by
  by_cases hid : last.id.isSome
  · apply lastReply_addMessage_of_id h hid he
  · have hnone : ¬ (Message.id? (.ai m)).isSome := by
      rw [show Message.id? (.ai m) = m.id from rfl, he]
      apply hid
    rw [addMessage, if_neg fun hc => hnone hc.1, lastReply, List.getLast?_concat]
    rfl

/-- The last message after a hook that returned a copy of it, or nothing. -/
theorem lastReply_withCopy {messages : List Message} {last : AIMessage} {copy : Option AIMessage}
    (h : lastReply messages = some last) (hc : ∀ m ∈ copy, m.id = last.id) :
  lastReply (withCopy messages copy) = some (copy.getD last)
  := by
  cases copy with
  | none => apply h
  | some m => apply lastReply_addMessage_self h (hc m rfl)

/-- Where the last message is a reply, the run is over exactly if this has no calls. -/
theorem route_eq_finish {messages : List Message} {last : AIMessage}
    (h : lastAnswer messages = some last) :
  route messages = .finish ↔ last.toolCalls = []
  := by
  rw [route, h]
  dsimp only
  split
  · rename_i hc
    exact iff_of_true rfl hc
  · rename_i hc
    apply iff_of_false _ hc
    split <;> nofun

/-! ### The text of a copy -/

theorem isBlank_append (s t : String) :
  isBlank (s ++ t) = (isBlank s && isBlank t)
  := by rw [isBlank, String.toList_append, List.all_append, isBlank, isBlank]

/-- A reply whose calls were removed has a text, unless it is a list of blocks without one. -/
theorem isBlank_stripAllToolCalls {m : AIMessage} {note : String} (hcalls : m.toolCalls ≠ [])
    (hnote : isBlank note = false) :
  isBlank (text (m.stripAllToolCalls note).content) = isSilent m.content
  := by
  have hlen : ([] : List (Option String)).dedup.length < m.toolCalls.length :=
    List.length_pos_of_ne_nil hcalls
  have hnil : (m.toolCalls.filter fun c => c.id ∈ ([] : List (Option String))).isEmpty := by simp
  rw [AIMessage.stripAllToolCalls, AIMessage.cloneWithToolCalls]
  cases hm : m.content with
  | str s =>
      simp only [if_pos (And.intro hnil hlen)]
      rw [text, isBlank_append, Option.getD_some, hnote, Bool.and_false]
      rfl
  | _ => rfl

/-! ### The hooks on a reply -/

/-- The limit takes all calls from a reply exactly if they all delegate and none may. -/
theorem SubagentLimit.keptIds_eq_nil_iff {m : AIMessage} {n : ℕ} (hn : n < m.taskCalls.length) :
  keptIds m n = [] ↔ (∀ c ∈ m.toolCalls, c.isTask = true) ∧ n = 0
  := by
  rw [keptIds, List.map_eq_nil_iff, List.filter_eq_nil_iff]
  constructor
  · intro h
    constructor
    · intro c hc
      have := h c hc
      rw [Bool.or_eq_true, not_or] at this
      simpa using this.1
    · by_contra h0
      obtain ⟨c, cs, hcs⟩ := List.exists_cons_of_length_pos (Nat.zero_lt_of_lt hn)
      have hc : c ∈ m.taskCalls.take n := by
        rw [hcs, List.take_cons (Nat.pos_of_ne_zero h0)]
        apply List.mem_cons_self
      apply h c (List.mem_of_mem_filter (List.mem_of_mem_take hc))
      rw [Bool.or_eq_true, decide_eq_true_eq]
      exact .inr (List.mem_map_of_mem hc)
  · rintro ⟨htask, rfl⟩ c hc
    rw [htask c hc]
    simp

/-- The limit leaves the last reply, takes all its calls, or leaves it some. -/
theorem SubagentLimit.afterModel_cases (limit : SubagentLimit) {messages : List Message}
    {last : AIMessage} (h : lastReply messages = some last) (hcalls : last.toolCalls ≠ []) :
  if (∀ c ∈ last.toolCalls, c.isTask = true) ∧ limit.allowed messages = 0 then
    limit.afterModel messages = some (last.stripAllToolCalls totalLimitStopMsg)
  else ∀ m ∈ limit.afterModel messages, m.id = last.id ∧ m.toolCalls ≠ []
  := by
  have hcopy : limit.allowed messages < last.taskCalls.length →
      limit.afterModel messages =
        some (last.cloneWithToolCalls (keptIds last (limit.allowed messages)) none) := by
    intro hlt
    rw [afterModel, h]
    dsimp only
    rw [if_neg (List.ne_nil_of_length_pos (Nat.zero_lt_of_lt hlt)), if_neg (Nat.not_le_of_lt hlt)]
  split
  · rename_i hall
    have htasks : last.taskCalls = last.toolCalls := List.filter_eq_self.mpr hall.1
    have hlt : limit.allowed messages < last.taskCalls.length := by
      rw [htasks, hall.2]
      apply List.length_pos_of_ne_nil hcalls
    rw [hcopy hlt, (keptIds_eq_nil_iff hlt).mpr hall]
    rfl
  · rename_i hsome
    intro m hm
    by_cases hlt : limit.allowed messages < last.taskCalls.length
    · rw [hcopy hlt] at hm
      obtain rfl := Option.some.inj hm
      use rfl
      have hids : keptIds last (limit.allowed messages) ≠ [] :=
        fun hnil => hsome ((keptIds_eq_nil_iff hlt).mp hnil)
      obtain ⟨id, hid⟩ := List.exists_mem_of_ne_nil _ hids
      obtain ⟨c, hc, rfl⟩ := List.mem_map.mp hid
      apply List.ne_nil_of_mem (a := c)
      apply List.mem_filter.mpr ⟨List.mem_of_mem_filter hc, decide_eq_true hid⟩
    · rw [afterModel, h] at hm
      dsimp only at hm
      split at hm
      · contradiction
      · rw [if_pos (Nat.le_of_not_lt hlt)] at hm
        contradiction

namespace LeadRun

variable {δ : Type} {hash : String → δ} {R : Reprs} {s : LeadRun δ}
variable {last : AIMessage}

/-- The budget takes the calls from the last reply, or leaves the thread. -/
theorem messages_budgeted (h : lastReply s.messages = some last) :
  s.budgeted.messages = withCopy s.messages
    (if s.budget.budget ≤ (s.messages.foldl TokenBudget.observe s.budget).total ∧
        last.toolCalls ≠ [] then
      some (last.stripAllToolCalls capStopNote) else none)
  := by rw [budgeted, TokenBudget.afterModel_snd, h, Option.bind_some]

/-- A reply without calls is left by the budget. -/
theorem messages_budgeted_of_nil (h : lastReply s.messages = some last)
    (hcalls : last.toolCalls = []) :
  s.budgeted.messages = s.messages
  := by
  rw [messages_budgeted h, if_neg fun hs => hs.2 hcalls]
  rfl

/-- A reply without calls is left by the limit. -/
theorem messages_limited_of_nil (h : lastReply s.messages = some last)
    (hcalls : last.toolCalls = []) :
  s.limited.messages = s.messages
  := by
  have htasks : last.taskCalls = [] := by rw [AIMessage.taskCalls, hcalls, List.filter_nil]
  rw [limited, SubagentLimit.afterModel, h]
  dsimp only
  rw [if_pos htasks]
  rfl

/-- A hook that takes all the calls from the last reply. -/
theorem lastReply_stripped {messages : List Message} (h : lastReply messages = some last)
    (note : String) :
  lastReply (withCopy messages (some (last.stripAllToolCalls note))) =
    some (last.stripAllToolCalls note)
  := lastReply_withCopy h (by rintro _ ⟨⟩; rfl)

variable (hash R) [DecidableEq δ]

/-- The detector of loops takes the calls from the last reply, or leaves the thread. -/
theorem messages_looped (h : lastReply s.messages = some last) :
  (s.looped hash R).messages = withCopy s.messages
    (if s.loop.Stops hash R last.toolCalls then
      some (last.stripAllToolCalls loopStopNote) else none)
  := by rw [looped, LoopDetection.afterModel_snd, h, Option.bind_some]

/-- A reply without calls is left by the detector of loops. -/
theorem messages_looped_of_nil (h : lastReply s.messages = some last)
    (hcalls : last.toolCalls = []) :
  (s.looped hash R).messages = s.messages
  := by
  rw [messages_looped hash R h, if_neg fun hs => hs.1 hcalls]
  rfl

/-- The hooks leave a reply without calls. -/
theorem messages_guarded_of_nil (h : lastReply s.messages = some last)
    (hcalls : last.toolCalls = []) :
  (s.guarded hash R).messages = s.messages
  := by
  have hb := messages_budgeted_of_nil h hcalls
  have hl : (s.budgeted.looped hash R).messages = s.messages := by
    rw [messages_looped_of_nil hash R (hb ▸ h) hcalls, hb]
  rw [guarded, messages_limited_of_nil (hl ▸ h) hcalls, hl]

/-- The hooks take all the calls from a reply, with a note, or leave it some. -/
theorem lastReply_guarded (h : lastReply s.messages = some last) (hcalls : last.toolCalls ≠ []) :
  if s.Stops hash R last then
    ∃ note, isBlank note = false ∧
      lastReply (s.guarded hash R).messages = some (last.stripAllToolCalls note)
  else ∃ m, lastReply (s.guarded hash R).messages = some m ∧ m.toolCalls ≠ []
  := by
  by_cases hb : s.budget.budget ≤ (s.messages.foldl TokenBudget.observe s.budget).total
  · -- the budget takes the calls, and the later hooks find none
    rw [if_pos (.inl hb)]
    have hm := messages_budgeted h
    rw [if_pos ⟨hb, hcalls⟩] at hm
    have h₁ : lastReply s.budgeted.messages = some (last.stripAllToolCalls capStopNote) := by
      rw [hm, lastReply_stripped h]
    have hl := messages_looped_of_nil hash R h₁ (by simp)
    use capStopNote, by decide +kernel
    rw [guarded, messages_limited_of_nil (hl ▸ h₁) (by simp), hl, h₁]
  have hm : s.budgeted.messages = s.messages := by
    rw [messages_budgeted h, if_neg fun hs => hb hs.1]
    rfl
  have h₁ : lastReply s.budgeted.messages = some last := by rw [hm, h]
  by_cases hl : s.loop.Stops hash R last.toolCalls
  · -- the detector of loops takes the calls, and the limit finds none
    rw [if_pos (.inr (.inl hl))]
    have hm₂ := messages_looped hash R h₁
    rw [show s.budgeted.loop = s.loop from rfl, if_pos hl] at hm₂
    have h₂ : lastReply (s.budgeted.looped hash R).messages =
        some (last.stripAllToolCalls loopStopNote) := by
      rw [hm₂, lastReply_stripped h₁]
    use loopStopNote, by decide +kernel
    rw [guarded, messages_limited_of_nil h₂ (by simp), h₂]
  have hm₂ : (s.budgeted.looped hash R).messages = s.messages := by
    rw [messages_looped hash R h₁, show s.budgeted.loop = s.loop from rfl, if_neg hl]
    apply hm
  have hcases := s.limit.afterModel_cases h hcalls
  have hm₃ : (s.guarded hash R).messages = withCopy s.messages (s.limit.afterModel s.messages) := by
    rw [guarded, limited, hm₂]
    rfl
  by_cases ht : (∀ c ∈ last.toolCalls, c.isTask = true) ∧ s.limit.allowed s.messages = 0
  · -- the limit takes the calls
    rw [if_pos ht] at hcases
    rw [if_pos (.inr (.inr ht))]
    use totalLimitStopMsg, by decide +kernel
    rw [hm₃, hcases, lastReply_stripped h]
  · rw [if_neg ht] at hcases
    have hnone : ¬ s.Stops hash R last := by
      rintro (hs | hs | hs)
      · exact hb hs
      · exact hl hs
      · exact ht hs
    rw [if_neg hnone]
    refine ⟨_, by rw [hm₃]; exact lastReply_withCopy h fun m hc => (hcases m hc).1, ?_⟩
    cases hc : s.limit.afterModel s.messages with
    | none => apply hcalls
    | some m => apply (hcases m hc).2

/-- The hooks leave a thread whose last message is no reply. -/
theorem messages_guarded_of_none (h : lastReply s.messages = none) :
  (s.guarded hash R).messages = s.messages
  := by
  have hb : s.budgeted.messages = s.messages := by
    rw [budgeted, TokenBudget.afterModel_snd, h]
    rfl
  have hl : (s.budgeted.looped hash R).messages = s.messages := by
    rw [looped, LoopDetection.afterModel_snd, hb, h]
    rfl
  rw [guarded, limited, hl, SubagentLimit.afterModel, h]
  rfl

/-- Without an empty reply after an answer of a tool the later hooks follow. -/
theorem hooked_of_pass (h : ∀ last ∈ lastReply s.messages,
    ¬ (isEmptyFinal last = true ∧ s.messages.any (fun n => n.tool?.isSome) = true)) :
  s.hooked hash R = (s.guarded hash R).routed
  := by
  have hpass : s.terminal.afterModel s.messages = (s.terminal, none) := by
    rw [TerminalResponse.afterModel]
    cases hl : lastReply s.messages with
    | none => rfl
    | some last =>
        have := h last hl
        dsimp only
        split
        · rfl
        · rename_i he
          split
          · rfl
          · rename_i ht
            simp only [Bool.not_eq_true', Bool.not_eq_false] at he ht
            exact absurd ⟨he, ht⟩ this
  rw [hooked, hpass]

/-- The first empty reply after an answer of a tool is removed, and the model is asked again. -/
theorem hooked_of_first (h : lastReply s.messages = some last) (he : isEmptyFinal last = true)
    (ht : s.messages.any (fun n => n.tool?.isSome) = true) (hr : s.terminal.retried = false) :
  s.hooked hash R = { s with
    terminal := { retried := true, pendingRecovery := true }
    messages := removeMessage s.messages last.id
    next := .model
    recoveries := s.recoveries + 1 }
  := by
  have hafter : s.terminal.afterModel s.messages =
      ({ retried := true, pendingRecovery := true }, some (.remove last.id)) := by
    rw [TerminalResponse.afterModel, h]
    simp [he, ht, hr]
  rw [hooked, hafter]

/-- An error takes the place of the second one. -/
theorem hooked_of_second (h : lastReply s.messages = some last) (he : isEmptyFinal last = true)
    (ht : s.messages.any (fun n => n.tool?.isSome) = true) (hr : s.terminal.retried = true) :
  ∃ m : AIMessage, m.id = last.id ∧ m.toolCalls = [] ∧ m.content = .str visibleError ∧
    s.hooked hash R =
      (guarded hash R { s with messages := addMessage s.messages (.ai m) }).routed
  := by
  let m : AIMessage := {
    content := .str visibleError
    id := last.id
    additionalKwargs := set last.additionalKwargs "error_fallback" (.bool true) }
  have hafter : s.terminal.afterModel s.messages = (s.terminal, some (.replace m)) := by
    rw [TerminalResponse.afterModel, h]
    simp [he, ht, hr, m]
  use m, rfl, rfl, rfl
  rw [hooked, hafter]

/-- A run whose last message is a reply without calls is over, and its answer is visible exactly if
the reply has a text. -/
theorem finish_visible_iff {messages : List Message} (h : lastAnswer messages = some last) :
  (route messages = .finish → Visible messages) ↔
    (last.toolCalls = [] → isBlank (text last.content) = false)
  := by
  rw [route_eq_finish h, Visible, h]
  simp

/-- **A reply becomes an answer exactly if it can**: if the run is over after the hooks, its last
reply has a text, if and only if an empty reply is the last message of a thread with an answer of a
tool, and one whose calls are to be removed is no list of blocks without a text. -/
theorem visible_iff_answering (s : LeadRun δ) (m : AIMessage) :
  (((s.called m).hooked hash R).next = .finish →
      Visible ((s.called m).hooked hash R).messages) ↔
    s.Answering hash R m
  := by
  have hm : m ∈ repliesOf (s.called m).messages :=
    List.mem_filterMap.mpr ⟨_, self_mem_addMessage _ _, rfl⟩
  obtain ⟨last, hlast⟩ := Option.isSome_iff_exists.mp
    (List.getLast?_isSome.mpr (List.ne_nil_of_mem hm))
  have hempty : isEmptyFinal last = true ↔
      last.toolCalls = [] ∧ isBlank (text last.content) = true := by
    rw [isEmptyFinal, Bool.and_eq_true, List.isEmpty_iff]
  cases hl : lastReply (s.called m).messages with
  | none =>
      -- no hook sees the reply
      rw [hooked_of_pass hash R (by simp [hl]), routed, messages_guarded_of_none hash R hl,
        finish_visible_iff hlast]
      constructor
      · intro h
        constructor
        · intro last' hlast' he
          obtain rfl := Option.some.inj (hlast'.symm.trans hlast)
          have := h (hempty.mp he).1
          rw [(hempty.mp he).2] at this
          contradiction
        · rw [hl]
          nofun
      · intro h hc
        rw [← Bool.not_eq_true]
        intro hb
        have := (h.empty last hlast (hempty.mpr ⟨hc, hb⟩)).1
        rw [hl] at this
        contradiction
  | some last' =>
      obtain rfl : last' = last := Option.some.inj ((lastAnswer_of_lastReply hl).symm.trans hlast)
      have hA : (isEmptyFinal last' = true →
            (s.called m).messages.any (fun n => n.tool?.isSome) = true) →
          (last'.toolCalls ≠ [] → (s.called m).Stops hash R last' →
            isSilent last'.content = false) →
          s.Answering hash R m := by
        intro h₁ h₂
        constructor
        · intro a ha he
          obtain rfl := Option.some.inj (ha.symm.trans hlast)
          rw [hl]
          exact ⟨rfl, h₁ he⟩
        · intro a ha
          obtain rfl := Option.some.inj (ha.symm.trans hl)
          apply h₂
      by_cases he : isEmptyFinal last' = true
      · obtain ⟨hc, hb⟩ := hempty.mp he
        by_cases ht : (s.called m).messages.any (fun n => n.tool?.isSome) = true
        · -- the empty reply is asked for again, or replaced
          apply iff_of_true _ (hA (fun _ => ht) fun hn => absurd hc hn)
          cases hr : (s.called m).terminal.retried with
          | false =>
              rw [hooked_of_first hash R hl he ht hr]
              nofun
          | true =>
              obtain ⟨m', hid, hc', hcontent, hh⟩ := hooked_of_second hash R hl he ht hr
              have hl' := lastReply_addMessage_self hl hid
              intro _
              refine ⟨m', lastAnswer_of_lastReply ?_, ?_⟩
              · rw [hh, routed, messages_guarded_of_nil hash R hl' hc', hl']
              · rw [hcontent]
                decide +kernel
        · -- the empty reply is the answer
          rw [hooked_of_pass hash R fun _ _ h => ht h.2, routed,
            messages_guarded_of_nil hash R hl hc, finish_visible_iff hlast]
          apply iff_of_false
          · intro h
            have := h hc
            rw [hb] at this
            contradiction
          · intro h
            exact ht (h.empty last' hlast he).2
      · have hpass := hooked_of_pass hash R (s := s.called m) fun a ha h => by
          obtain rfl := Option.some.inj (ha.symm.trans hl)
          exact he h.1
        rw [hpass, routed]
        by_cases hc : last'.toolCalls = []
        · rw [messages_guarded_of_nil hash R hl hc, finish_visible_iff hlast]
          apply iff_of_true _ (hA (fun h => absurd h he) fun hn => absurd hc hn)
          intro _
          rw [← Bool.not_eq_true]
          exact fun hb => he (hempty.mpr ⟨hc, hb⟩)
        · have hg := lastReply_guarded hash R hl hc
          by_cases hS : (s.called m).Stops hash R last'
          · -- the calls are removed, and what is left is the answer
            rw [if_pos hS] at hg
            obtain ⟨note, hnote, hg⟩ := hg
            rw [finish_visible_iff (lastAnswer_of_lastReply hg),
              isBlank_stripAllToolCalls hc hnote]
            constructor
            · intro h
              exact hA (fun h => absurd h he) fun _ _ => h (by simp)
            · intro h _
              apply h.blocks last' hl hc hS
          · rw [if_neg hS] at hg
            obtain ⟨m', hg, hne⟩ := hg
            rw [finish_visible_iff (lastAnswer_of_lastReply hg)]
            apply iff_of_true (fun h => absurd h hne)
            exact hA (fun h => absurd h he) fun _ hS' => absurd hS' hS

/-! ### Runs -/

/-- The hooks other than the first leave what it counts. -/
theorem recoveries_hooked_of_pass (h : ∀ last ∈ lastReply s.messages,
    ¬ (isEmptyFinal last = true ∧ s.messages.any (fun n => n.tool?.isSome) = true)) :
  (s.hooked hash R).recoveries = s.recoveries ∧ (s.hooked hash R).terminal = s.terminal
  := by
  rw [hooked_of_pass hash R h]
  exact ⟨rfl, rfl⟩

/-- The model was asked again if and only if the first hook remembers it, and then once. -/
def Counted (s : LeadRun δ) : Prop :=
  s.recoveries = if s.terminal.retried then 1 else 0

theorem Counted.hooked (h : s.Counted) :
  (s.hooked hash R).Counted
  := by
  by_cases hpass : ∀ last ∈ lastReply s.messages,
      ¬ (isEmptyFinal last = true ∧ s.messages.any (fun n => n.tool?.isSome) = true)
  · obtain ⟨hr, ht⟩ := recoveries_hooked_of_pass hash R hpass
    rw [Counted, hr, ht]
    apply h
  · push Not at hpass
    obtain ⟨last, hl, he, ht⟩ := hpass
    cases hr : s.terminal.retried with
    | false =>
        have h0 : s.recoveries = 0 := by rw [h, hr]; rfl
        rw [hooked_of_first hash R hl he ht hr, Counted, h0]
        rfl
    | true =>
        obtain ⟨m, -, -, -, hh⟩ := hooked_of_second hash R hl he ht hr
        rw [hh]
        apply h

theorem Counted.step {s' : LeadRun δ} {a : Action} (h : s.Counted)
    (hs : s.step hash R a = some s') :
  s'.Counted
  := by
  cases a with
  | reply m uuid =>
      rw [LeadRun.step, Option.ite_none_right_eq_some] at hs
      obtain ⟨-, hs⟩ := hs
      obtain rfl := Option.some.inj hs
      exact Counted.hooked hash R (s := s.called _) h
  | tools answers =>
      rw [LeadRun.step, Option.ite_none_right_eq_some] at hs
      obtain ⟨-, hs⟩ := hs
      obtain rfl := Option.some.inj hs
      apply h
  | compact summary keep =>
      rw [LeadRun.step, Option.ite_none_right_eq_some] at hs
      obtain ⟨-, hs⟩ := hs
      obtain rfl := Option.some.inj hs
      apply h

/-- A run that is over has a visible answer after each action. -/
theorem visible_step {s' : LeadRun δ} {a : Action} (hG : s.Answers hash R a)
    (hs : s.step hash R a = some s') (hf : s'.next = .finish) :
  Visible s'.messages
  := by
  cases a with
  | reply m uuid =>
      rw [LeadRun.step, Option.ite_none_right_eq_some] at hs
      obtain ⟨-, hs⟩ := hs
      obtain rfl := Option.some.inj hs
      apply (visible_iff_answering hash R s _).mpr hG hf
  | tools answers =>
      rw [LeadRun.step, Option.ite_none_right_eq_some] at hs
      obtain ⟨-, hs⟩ := hs
      obtain rfl := Option.some.inj hs
      cases hf
  | compact summary keep =>
      rw [LeadRun.step, Option.ite_none_right_eq_some] at hs
      obtain ⟨hn, hs⟩ := hs
      obtain rfl := Option.some.inj hs
      rw [show s.next = .finish from hf] at hn
      cases hn

end LeadRun

section

variable {δ : Type} [DecidableEq δ] {hash : String → δ} {R : Reprs} {limit : SubagentLimit}
variable {bounds : LoopBounds} {budget warnAt : ℤ} {s : LeadRun δ}

/-- In every run the model is asked again for an answer at most once. -/
theorem counted_of_reachable (h : (leadRuns hash R limit bounds budget warnAt).Reachable s) :
  s.Counted
  := by
  apply h.invariant (I := LeadRun.Counted)
  · intro s hs
    rw [show s = _ from hs]
    rfl
  · intro s a s' hI _ hs
    apply LeadRun.Counted.step hash R hI hs

/-- **Every finished run has a visible answer** where each reply is one that can become an answer:
an empty one is the last message of a thread with an answer of a tool, and one whose calls are to be
removed is no list of blocks without a text. The model is asked again at most once. -/
theorem visible_of_answers
    (h : (leadRuns hash R limit bounds budget warnAt).Reach (LeadRun.Answers hash R) s) :
  (s.next = .finish → Visible s.messages) ∧ s.recoveries ≤ 1
  := by
  constructor
  · apply h.invariant (I := fun s => s.next = .finish → Visible s.messages)
    · intro s hs hf
      rw [show s = _ from hs] at hf
      cases hf
    · intro s a s' _ hG hs
      apply LeadRun.visible_step hash R hG hs
  · rw [counted_of_reachable h.reachable]
    split <;> decide

end

/-- A reply that reads a file, with no text. -/
def silentCall : AIMessage where
  content := .arr [.obj [("type", .str "tool_use"), ("id", .str "c")]]
  toolCalls := [{ name := "read_file", args := [("path", .str "a.py")], id := some "c" }]

/-- After two empty replies there is an error in place of the answer. -/
theorem visible_of_answers_second :
  ∃ s, (leadRuns id ⟨fun _ _ => "", id⟩ {} {} 100 80).Reach
      (LeadRun.Answers id ⟨fun _ _ => "", id⟩) s ∧
    s.next = .finish ∧ Visible s.messages ∧ s.recoveries ≤ 1
  := by
  obtain ⟨s, hs, hp⟩ := Transition.exists_reach_of_run
    (T := leadRuns id ⟨fun _ _ => "", id⟩ {} {} 100 80)
    (G := LeadRun.Answers id ⟨fun _ _ => "", id⟩)
    (s := {
      messages := [.human (.str "review")]
      limit := {}
      loop := { bounds := {} }
      budget := { budget := 100, warnAt := 80 } })
    rfl
    [.reply silentCall "a", .tools [{ toolCallId := "c" }], .reply {} "b", .reply {} "d"]
    (fun s => s.next = .finish) (by decide)
  obtain ⟨hv, hr⟩ := visible_of_answers hs
  exact ⟨s, hs, of_decide_eq_true hp, hv (of_decide_eq_true hp), hr⟩

/-- A call without a text that comes when the budget is used up ends the run without an answer. -/
theorem not_visible_reachable :
  ∃ s, (leadRuns id ⟨fun _ _ => "", id⟩ {} {} 1000000 800000).Reachable s ∧
    s.messages.any (fun m => m.tool?.isSome) ∧ s.next = .finish ∧ ¬ Visible s.messages
  := by
  obtain ⟨s, hs, hp⟩ := Transition.exists_reach_of_run
    (T := leadRuns id ⟨fun _ _ => "", id⟩ {} {} 1000000 800000) (G := fun _ _ => True)
    (s := {
      messages := [.human (.str "review"),
        .ai { silentCall with id := some "a", usage := some ⟨999000, 1000, 1000000⟩ },
        .tool { toolCallId := "c" }]
      limit := {}
      loop := { bounds := {} }
      budget := { budget := 1000000, warnAt := 800000 } })
    rfl [.reply silentCall "b"]
    (fun s => s.messages.any (fun m => m.tool?.isSome) ∧ s.next = .finish ∧
      (lastAnswer s.messages).all fun m => isBlank (text m.content)) (by decide)
  obtain ⟨ht, hf, hb⟩ := of_decide_eq_true hp
  use s, hs, ht, hf
  rintro ⟨m, hm, hv⟩
  rw [hm, Option.all_some, hv] at hb
  contradiction

end Agent
