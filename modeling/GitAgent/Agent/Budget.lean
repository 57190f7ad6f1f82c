import GitAgent.Agent.Message
import GitAgent.Library.Dict
import GitAgent.Library.Peak
import GitAgent.Library.Transition

/-!
# The budget of tokens

The middleware of the Lead that takes the calls of tools from a reply when the budget of tokens
is used up (`core/middleware/token_budget.py`), behind the one that asks again after an empty
reply (`core/middleware/terminal_response.py`). The budget adds up what the messages in the thread
used, which are those of earlier turns as well, and sees no reply that is removed before it. Where
the replies in the thread are of the run, and none that used tokens is removed, it adds up
what the replies of the run used.
-/

namespace Agent

/-- The total of tokens that a reply used. -/
def AIMessage.total (m : AIMessage) : ℤ :=
  (m.usage.map Usage.totalTokens).getD 0

/-- `_CAP_STOP_NOTE`. -/
def capStopNote : String :=
  "\n\n[TOKEN BUDGET REACHED] The token budget for this run is exhausted; further tool " ++
    "calls were removed. Provide the final answer from what you already have."

/-- `TokenBudgetMiddleware`. A pending warning is given by the tokens used and the budget. -/
structure TokenBudget where
  budget : ℤ := 1000000
  warnAt : ℤ := 800000
  seen : Dict String ℤ := .empty
  total : ℤ := 0
  warned : Bool := false
  pendingWarnings : List (ℤ × ℤ) := []
  stopReason : Option String := none

namespace TokenBudget

/-- What the budget adds up for one message. -/
def observe (b : TokenBudget) : Message → TokenBudget
  | .ai m =>
      match m.id with
      | none => b
      | some id =>
          let current := m.total
          if current ≤ 0 then b
          else
            let before := (b.seen.get id).getD 0
            { b with
              seen := b.seen.set id (max current before)
              total := b.total + max 0 (current - before) }
  | _ => b

/-- `after_model`: the budget, and the copy of the last reply if its calls are removed. -/
def afterModel (b : TokenBudget) (messages : List Message) : TokenBudget × Option AIMessage :=
  let b := messages.foldl observe b
  match lastReply messages with
  | none => (b, none)
  | some last =>
      if b.budget ≤ b.total ∧ last.toolCalls ≠ [] then
        ({ b with stopReason := some "token_capped" }, some (last.stripAllToolCalls capStopNote))
      else if b.warnAt ≤ b.total ∧ b.warned = false then
        ({ b with
            warned := true
            pendingWarnings := b.pendingWarnings ++ [(b.total, b.budget)] }, none)
      else (b, none)

/-- `_drain`: the warnings go to the model. -/
def drain (b : TokenBudget) : TokenBudget :=
  { b with pendingWarnings := [] }

end TokenBudget

/-- `TerminalResponseMiddleware`. -/
structure TerminalResponse where
  retried : Bool := false
  pendingRecovery : Bool := false

/-- `_is_empty_final`. -/
def isEmptyFinal (m : AIMessage) : Bool :=
  m.toolCalls.isEmpty && isBlank (text m.content)

/-- `_VISIBLE_ERROR`. -/
def visibleError : String :=
  "The model returned an empty response twice after tool execution. The run ended without a " ++
    "synthesized answer; see the tool results above."

namespace TerminalResponse

/-- What becomes of an empty reply: it is removed and the model is asked again, or an error
takes its place. -/
inductive Update
  | remove (id : Option String)
  | replace (m : AIMessage)

/-- `after_model`. -/
def afterModel (t : TerminalResponse) (messages : List Message) :
    TerminalResponse × Option Update :=
  match lastReply messages with
  | none => (t, none)
  | some last =>
      if !isEmptyFinal last then (t, none)
      else if !messages.any fun m => m.tool?.isSome then (t, none)
      else if !t.retried then ({ retried := true, pendingRecovery := true }, some (.remove last.id))
      else
        (t, some (.replace {
          content := .str visibleError
          id := last.id
          additionalKwargs := set last.additionalKwargs "error_fallback" (.bool true) }))

/-- `_drain`: the request to answer goes to the model. -/
def drain (t : TerminalResponse) : TerminalResponse :=
  { t with pendingRecovery := false }

end TerminalResponse

/-! ### The runs -/

/-- The run of the Lead: the messages of the thread, the middleware, and the replies of the model
in this run. -/
structure BudgetRun where
  messages : List Message
  budget : TokenBudget
  terminal : TerminalResponse := {}
  replies : List AIMessage := []

namespace BudgetRun

/-- What happens in a run: the model replies (`uuid` is the id of a reply without one), tools
answer, the thread is summarized up to its last messages, or a later middleware cuts the calls
of the last reply. -/
inductive Action
  | reply (m : AIMessage) (uuid : String)
  | tools (answers : List ToolMessage)
  | compact (summary : Json) (keep : ℕ)
  | cut (keptIds : List (Option String)) (stopNote : Option String)

/-- A reply with its id. -/
def named (m : AIMessage) (uuid : String) : AIMessage :=
  { m with id := some (m.id.getD uuid) }

variable (s : BudgetRun)

/-- The run when the model has replied. -/
def called (m : AIMessage) : BudgetRun where
  messages := addMessage s.messages (.ai m)
  budget := s.budget.drain
  terminal := s.terminal.drain
  replies := s.replies ++ [m]

/-- The hook of the budget. -/
def budgeted : BudgetRun :=
  { s with
    budget := (s.budget.afterModel s.messages).1
    messages := ((s.budget.afterModel s.messages).2.map
      (addMessage s.messages ∘ Message.ai)).getD s.messages }

/-- The hooks after the model: that of the budget is skipped when the model is asked again. -/
def hooked : BudgetRun :=
  match s.terminal.afterModel s.messages with
  | (t, some (.remove id)) => { s with terminal := t, messages := removeMessage s.messages id }
  | (t, some (.replace m)) =>
      budgeted { s with terminal := t, messages := addMessage s.messages (.ai m) }
  | (t, none) => budgeted { s with terminal := t }

/-- The run after an action. The model is asked when the last message is no reply, and tools
answer a reply with calls. -/
def step : Action → Option BudgetRun
  | .reply m uuid =>
      if (lastReply s.messages).isNone then some (s.called (named m uuid)).hooked else none
  | .tools answers =>
      if (lastReply s.messages).any (·.toolCalls ≠ []) ∧ answers ≠ [] then
        some { s with messages := s.messages ++ answers.map .tool }
      else none
  | .compact summary keep =>
      if (lastReply s.messages).isNone then
        some { s with
          messages := .human summary :: s.messages.drop (s.messages.length - keep) }
      else none
  | .cut keptIds stopNote =>
      match lastReply s.messages with
      | some last =>
          if last.toolCalls ≠ [] then
            some { s with
              messages := addMessage s.messages (.ai (last.cloneWithToolCalls keptIds stopNote)) }
          else none
      | none => none

end BudgetRun

/-- The runs of the Lead on a thread with any history. -/
def budgetRuns (budget warnAt : ℤ) : Transition.System BudgetRun BudgetRun.Action where
  init s := s.budget = { budget, warnAt } ∧ s.terminal = {} ∧ s.replies = []
  step := BudgetRun.step


/-! ### What is added up -/

/-- What the replies say that they used, by their ids. -/
def readings (replies : List AIMessage) : List (String × ℤ) :=
  replies.filterMap fun m => m.id.map fun id => (id, m.total)

/-- The sum of the highest totals of tokens of the replies. -/
def spent (replies : List AIMessage) : ℤ :=
  Peak.total (readings replies)

/-- The budget has added up what the replies used. -/
structure TokenBudget.Metered (b : TokenBudget) (replies : List AIMessage) : Prop where
  seen : ∀ id, (b.seen.get id).getD 0 = Peak.peak (readings replies) id
  total : b.total = spent replies

theorem readings_append (replies replies' : List AIMessage) :
  readings (replies ++ replies') = readings replies ++ readings replies'
  := List.filterMap_append

theorem mem_readings {replies : List AIMessage} {r : String × ℤ} :
  r ∈ readings replies ↔ ∃ m ∈ replies, m.id = some r.1 ∧ m.total = r.2
  := by
  obtain ⟨id, v⟩ := r
  rw [readings, List.mem_filterMap]
  simp only [Option.map_eq_some_iff, Prod.mk.injEq, ↓existsAndEq, true_and]

namespace TokenBudget

variable {b : TokenBudget} {replies : List AIMessage}

/-- What is added up depends on the highest totals only. -/
theorem Metered.congr {replies' : List AIMessage} (h : b.Metered replies)
    (hp : ∀ id, Peak.peak (readings replies) id = Peak.peak (readings replies') id) :
  b.Metered replies'
  := by
  constructor
  · intro id
    rw [h.seen, hp]
  · rw [h.total, spent, spent, Peak.total_congr hp]

/-- A reading that exceeds the highest one is added. -/
theorem Metered.observe_ai (h : b.Metered replies) (m : AIMessage) :
  (b.observe (.ai m)).Metered (replies ++ [m])
  := by
  cases hid : m.id with
  | none =>
      have hr : readings [m] = [] := by simp [readings, hid]
      rw [show b.observe (.ai m) = b by simp [observe, hid]]
      apply h.congr
      intro id
      rw [readings_append, hr, List.append_nil]
  | some id =>
      have hr : readings [m] = [(id, m.total)] := by simp [readings, hid]
      by_cases hpos : m.total ≤ 0
      · rw [show b.observe (.ai m) = b by simp [observe, hid, hpos]]
        apply h.congr
        intro id'
        have := Peak.peak_nonneg (readings replies) id'
        rw [readings_append, hr, Peak.peak_append, Peak.peak_singleton, max_eq_right hpos, ite_self,
          max_eq_left this]
      · have hb : b.observe (.ai m) = { b with
            seen := b.seen.set id (max m.total ((b.seen.get id).getD 0))
            total := b.total + max 0 (m.total - (b.seen.get id).getD 0) } := by
          simp [observe, hid, hpos]
        rw [hb]
        constructor
        · intro id'
          have := Peak.peak_nonneg (readings replies) id'
          rw [readings_append, hr, Peak.peak_append, Peak.peak_singleton, Dict.get_set]
          by_cases e : id = id'
          · subst e
            rw [if_pos rfl, if_pos rfl, Option.getD_some, h.seen]
            omega
          · rw [if_neg fun h => e h.symm, if_neg e, h.seen, max_eq_left this]
        · change b.total + _ = _
          rw [h.total, h.seen, spent, spent, readings_append, hr, Peak.total_concat]

/-- The budget adds up the replies among the messages. -/
theorem Metered.observes (messages : List Message) (h : b.Metered replies) :
  (messages.foldl observe b).Metered (replies ++ repliesOf messages)
  := by
  induction messages generalizing b replies with
  | nil => rwa [repliesOf, List.filterMap_nil, List.append_nil]
  | cons m messages ih =>
      rw [List.foldl_cons]
      cases m with
      | ai m =>
          rw [show repliesOf (.ai m :: messages) = m :: repliesOf messages from rfl,
            List.append_cons]
          apply ih (h.observe_ai m)
      | system content => apply ih h
      | human content => apply ih h
      | tool m => apply ih h

end TokenBudget

/-! ### Runs on replies of their own -/

/-- Whether an empty reply is removed. -/
def TerminalResponse.retries (t : TerminalResponse) (messages : List Message) : Bool :=
  match (t.afterModel messages).2 with
  | some (.remove _) => true
  | _ => false

namespace BudgetRun

/-- The hook of the budget takes the calls from the reply `m`. -/
def Strips (s : BudgetRun) (m : AIMessage) : Prop :=
  ((s.called m).budget.afterModel (s.called m).messages).2 =
    some (m.stripAllToolCalls capStopNote)

/-- The model replies `m` where the replies in the thread that say what they used are of this run;
if `m` is removed, it used nothing that is not added up; and if its calls are to be removed, it is
the last message. -/
structure OwnReply (s : BudgetRun) (m : AIMessage) : Prop where
  thread : ∀ r ∈ readings (repliesOf s.messages), r.2 ≤ Peak.peak (readings s.replies) r.1
  removed : (s.called m).terminal.retries (s.called m).messages = true →
    ∀ r ∈ readings [m], r.2 ≤ Peak.peak (readings s.replies) r.1
  last : m.toolCalls ≠ [] → s.budget.budget ≤ spent (s.replies ++ [m]) →
    (lastReply (s.called m).messages).isSome

/-- Each reply comes to a thread with replies of the run only. -/
def Own (s : BudgetRun) : Action → Prop
  | .reply m uuid => s.OwnReply (named m uuid)
  | _ => True

instance (s : BudgetRun) (m : AIMessage) : Decidable (s.OwnReply m) :=
  decidable_of_iff (_ ∧ _ ∧ _)
    ⟨fun ⟨h₁, h₂, h₃⟩ => ⟨h₁, h₂, h₃⟩, fun h => ⟨h.thread, h.removed, h.last⟩⟩

instance (s : BudgetRun) (a : Action) : Decidable (s.Own a) := by
  cases a <;> unfold Own <;> infer_instance

/-- The run is over, or what the replies of the run used is added up. -/
def Adds (s : BudgetRun) : Prop :=
  (∃ last, lastReply s.messages = some last ∧ last.toolCalls = []) ∨ s.budget.Metered s.replies

end BudgetRun

namespace TokenBudget

variable {b : TokenBudget} {replies : List AIMessage}

theorem budget_observe (b : TokenBudget) (m : Message) :
  (b.observe m).budget = b.budget
  := by
  unfold observe
  split
  · split
    · rfl
    · dsimp only
      split <;> rfl
  · rfl

theorem budget_foldl (b : TokenBudget) (messages : List Message) :
  (messages.foldl observe b).budget = b.budget
  := by
  induction messages generalizing b with
  | nil => rfl
  | cons m messages ih => rw [List.foldl_cons, ih, budget_observe]

/-- The hook changes what is added up only by the replies in the messages. -/
theorem afterModel_fst (b : TokenBudget) (messages : List Message) :
  (b.afterModel messages).1.budget = b.budget ∧
    (b.afterModel messages).1.seen = (messages.foldl observe b).seen ∧
    (b.afterModel messages).1.total = (messages.foldl observe b).total
  := by
  rw [← budget_foldl b messages, afterModel]
  split
  · exact ⟨rfl, rfl, rfl⟩
  · split
    · exact ⟨rfl, rfl, rfl⟩
    · split <;> exact ⟨rfl, rfl, rfl⟩

/-- The hook takes the calls from the last reply exactly if the budget is used up. -/
theorem afterModel_snd (b : TokenBudget) (messages : List Message) :
  (b.afterModel messages).2 = (lastReply messages).bind fun last =>
    if b.budget ≤ (messages.foldl observe b).total ∧ last.toolCalls ≠ [] then
      some (last.stripAllToolCalls capStopNote)
    else none
  := by
  rw [afterModel, ← budget_foldl b messages]
  cases lastReply messages with
  | none => rfl
  | some last =>
      simp only [Option.bind_some]
      split
      · rfl
      · split <;> rfl

theorem Metered.afterModel (h : b.Metered replies) (messages : List Message) :
  (b.afterModel messages).1.Metered (replies ++ repliesOf messages)
  := by
  obtain ⟨-, hseen, htotal⟩ := afterModel_fst b messages
  have := h.observes messages
  constructor
  · rw [hseen]
    apply this.seen
  · rw [htotal]
    apply this.total

end TokenBudget

/-! ### Calls of the hook -/

namespace TokenBudget

variable {b : TokenBudget} {replies : List AIMessage}

/-- The budget after the hook was called with each of the lists of messages in turn. -/
def afterModels (b : TokenBudget) (lists : List (List Message)) : TokenBudget :=
  lists.foldl (fun b messages => (b.afterModel messages).1) b

theorem Metered.afterModels (lists : List (List Message)) (h : b.Metered replies) :
  (b.afterModels lists).Metered (replies ++ lists.flatMap repliesOf)
  := by
  induction lists generalizing b replies with
  | nil => rwa [List.flatMap_nil, List.append_nil]
  | cons messages lists ih =>
      rw [List.flatMap_cons, ← List.append_assoc]
      apply ih (h.afterModel messages)

/-- One message adds nothing negative. -/
theorem total_le_observe (b : TokenBudget) (m : Message) :
  b.total ≤ (b.observe m).total
  := by
  unfold observe
  split
  · split
    · apply le_rfl
    · dsimp only
      split
      · apply le_rfl
      · exact le_add_of_nonneg_right (le_max_left _ _)
  · apply le_rfl

theorem total_le_foldl (b : TokenBudget) (messages : List Message) :
  b.total ≤ (messages.foldl observe b).total
  := by
  induction messages generalizing b with
  | nil => apply le_rfl
  | cons m messages ih => apply (b.total_le_observe m).trans (ih _)

/-- **The tokens are added up by message, and the sum never falls.** Whatever lists of messages the
hook was called with, the total is the sum of the highest totals that were seen for each id (a
total that is not positive is none), and the next call does not lower it. -/
theorem total_afterModels (budget warnAt : ℤ) (lists : List (List Message))
    (messages : List Message) :
  let b := afterModels { budget, warnAt } lists
  let r := readings (lists.flatMap repliesOf)
  b.total = ∑ id ∈ (r.map Prod.fst).toFinset, Peak.peak r id ∧
    b.total ≤ (b.afterModel messages).1.total
  := by
  constructor
  · have hnone : Metered { budget, warnAt } [] := ⟨fun _ => rfl, rfl⟩
    apply (hnone.afterModels lists).total
  · rw [(afterModel_fst _ messages).2.2]
    apply total_le_foldl

end TokenBudget

namespace BudgetRun

variable {s : BudgetRun} {m : AIMessage}

/-- The replies that the budget sees are those of the run. -/
theorem OwnReply.peak (h : s.OwnReply m) (id : String) :
  Peak.peak (readings (s.replies ++ repliesOf (s.called m).messages)) id =
    Peak.peak (readings (s.replies ++ [m])) id
  := by
  have hm : m ∈ repliesOf (s.called m).messages :=
    List.mem_filterMap.mpr ⟨_, self_mem_addMessage _ _, rfl⟩
  rw [readings_append, readings_append, Peak.peak_append, Peak.peak_append]
  apply le_antisymm
  · apply max_le (le_max_left _ _)
    apply Peak.peak_le_iff.mpr
    constructor
    · apply le_max_of_le_left (Peak.peak_nonneg _ _)
    · intro v hv
      obtain ⟨r, hr, hid, rfl⟩ := mem_readings.mp hv
      obtain ⟨n, hn, hnr⟩ := List.mem_filterMap.mp hr
      rcases mem_addMessage hn with hn | rfl
      · apply le_max_of_le_left
        apply h.thread (id, r.total)
        apply mem_readings.mpr ⟨r, List.mem_filterMap.mpr ⟨n, hn, hnr⟩, hid, rfl⟩
      · apply le_max_of_le_right
        apply Peak.le_peak
        obtain rfl := Option.some.inj hnr
        apply mem_readings.mpr ⟨m, List.mem_singleton_self m, hid, rfl⟩
  · apply max_le (le_max_left _ _)
    apply le_max_of_le_right
    apply Peak.peak_le_iff.mpr
    constructor
    · apply Peak.peak_nonneg
    · intro v hv
      apply Peak.le_peak
      obtain ⟨r, hr, hid, rfl⟩ := mem_readings.mp hv
      obtain rfl := List.mem_singleton.mp hr
      apply mem_readings.mpr ⟨r, hm, hid, rfl⟩

/-- The last message after a reply is the reply, if it is one. -/
theorem eq_of_lastReply_called (hs : lastReply s.messages = none) {last : AIMessage}
    (h : lastReply (s.called m).messages = some last) :
  last = m
  := by
  rcases lastReply_addMessage h with h | h
  · rw [hs] at h
    contradiction
  · apply h

/-- The calls of a reply are removed exactly if the replies of the run have used up the
budget. -/
theorem strips_iff (hs : lastReply s.messages = none) (hM : s.budget.Metered s.replies)
    (hO : s.OwnReply m) (hm : m.toolCalls ≠ []) :
  s.Strips m ↔ s.budget.budget ≤ spent (s.replies ++ [m])
  := by
  have hM' : (s.called m).budget.Metered s.replies := ⟨hM.seen, hM.total⟩
  have htotal := ((hM'.observes (s.called m).messages).congr hO.peak).total
  rw [Strips, TokenBudget.afterModel_snd, htotal]
  cases hl : lastReply (s.called m).messages with
  | none =>
      constructor
      · rintro ⟨⟩
      · intro hb
        have := hO.last hm hb
        rw [hl] at this
        contradiction
  | some last =>
      obtain rfl := eq_of_lastReply_called hs hl
      rw [Option.bind_some]
      constructor
      · intro h
        split at h
        · rename_i hb
          apply hb.1
        · contradiction
      · intro hb
        rw [if_pos ⟨hb, hm⟩]

/-- An error in place of a reply ends the run. -/
theorem over_budgeted {last : AIMessage} (h : lastReply s.messages = some last)
    (hl : last.toolCalls = []) :
  lastReply s.budgeted.messages = some last
  := by
  have hn : (s.budget.afterModel s.messages).2 = none := by
    rw [TokenBudget.afterModel_snd, h, Option.bind_some, if_neg fun hb => hb.2 hl]
  rw [budgeted, hn]
  apply h

/-- What the first hook says of the last reply. -/
theorem afterModel_replace {t t' : TerminalResponse} {messages : List Message} {m : AIMessage}
    (h : t.afterModel messages = (t', some (.replace m))) :
  ∃ last, lastReply messages = some last ∧ m.id = last.id ∧ m.toolCalls = []
  := by
  rw [TerminalResponse.afterModel] at h
  cases hl : lastReply messages with
  | none =>
      rw [hl] at h
      cases h
  | some last =>
      rw [hl] at h
      use last
      dsimp only at h
      split at h
      · cases h
      · split at h
        · cases h
        · split at h
          · cases h
          · cases h
            exact ⟨rfl, rfl, rfl⟩

/-- A reply keeps what is added up. -/
theorem Adds.reply (hs : lastReply s.messages = none) (hM : s.budget.Metered s.replies)
    (hid : m.id.isSome) (hO : s.OwnReply m) :
  (s.called m).hooked.Adds
  := by
  have hM' : (s.called m).budget.Metered s.replies := ⟨hM.seen, hM.total⟩
  rw [hooked]
  split
  · -- the reply is removed, and used nothing that is not added up
    rename_i t id ht
    right
    apply hM'.congr
    intro id
    have hr := hO.removed (by rw [TerminalResponse.retries, ht])
    change _ = Peak.peak (readings (s.replies ++ [m])) id
    rw [readings_append, Peak.peak_append, max_eq_left]
    apply Peak.peak_le_iff.mpr
    constructor
    · apply Peak.peak_nonneg
    · intro v hv
      apply hr (id, v) hv
  · -- an error takes the place of the reply
    rename_i t m' ht
    left
    obtain ⟨last, hl, he, hc⟩ := afterModel_replace ht
    obtain rfl := eq_of_lastReply_called hs hl
    use m'
    constructor
    · apply over_budgeted _ hc
      apply lastReply_addMessage_of_id hl hid he
    · apply hc
  · right
    apply (hM'.afterModel (s.called m).messages).congr hO.peak

/-- The hooks leave the limit of the budget. -/
theorem budget_hooked (s : BudgetRun) :
  s.hooked.budget.budget = s.budget.budget
  := by
  rw [hooked]
  split
  · rfl
  · apply (TokenBudget.afterModel_fst _ _).1
  · apply (TokenBudget.afterModel_fst _ _).1

/-- Every action keeps what is added up, and the limit of the budget. -/
theorem Adds.step {s' : BudgetRun} {a : Action} (h : s.Adds) (hG : s.Own a)
    (hs : s.step a = some s') :
  s'.Adds ∧ s'.budget.budget = s.budget.budget
  := by
  have metered : lastReply s.messages = none → s.budget.Metered s.replies := by
    intro hn
    rcases h with ⟨last, hl, -⟩ | h
    · rw [hn] at hl
      contradiction
    · apply h
  have calls : ∀ last, lastReply s.messages = some last → last.toolCalls ≠ [] →
      s.budget.Metered s.replies := by
    intro last hl hc
    rcases h with ⟨last', hl', hc'⟩ | h
    · rw [hl] at hl'
      obtain rfl := Option.some.inj hl'
      contradiction
    · apply h
  cases a with
  | reply m uuid =>
      rw [BudgetRun.step, Option.ite_none_right_eq_some, Option.isNone_iff_eq_none] at hs
      obtain ⟨hn, hs⟩ := hs
      obtain rfl := Option.some.inj hs
      constructor
      · apply Adds.reply hn (metered hn) rfl hG
      · apply budget_hooked
  | tools answers =>
      rw [BudgetRun.step, Option.ite_none_right_eq_some] at hs
      obtain ⟨⟨hl, -⟩, hs⟩ := hs
      obtain rfl := Option.some.inj hs
      obtain ⟨last, hl, hc⟩ := (Option.any_eq_true _ _).mp hl
      exact ⟨.inr (calls last hl (of_decide_eq_true hc)), rfl⟩
  | compact summary keep =>
      rw [BudgetRun.step, Option.ite_none_right_eq_some, Option.isNone_iff_eq_none] at hs
      obtain ⟨hn, hs⟩ := hs
      obtain rfl := Option.some.inj hs
      exact ⟨.inr (metered hn), rfl⟩
  | cut keptIds stopNote =>
      rw [BudgetRun.step] at hs
      cases hl : lastReply s.messages with
      | none =>
          rw [hl] at hs
          contradiction
      | some last =>
          rw [hl, Option.ite_none_right_eq_some] at hs
          obtain ⟨hc, hs⟩ := hs
          obtain rfl := Option.some.inj hs
          exact ⟨.inr (calls last hl hc), rfl⟩

end BudgetRun

section

variable {budget warnAt : ℤ} {s : BudgetRun}

/-- The budget adds up what the replies of the run used, until the run is over. -/
theorem adds_of_own (h : (budgetRuns budget warnAt).Reach BudgetRun.Own s) :
  s.Adds ∧ s.budget.budget = budget
  := by
  apply h.invariant (I := fun s => s.Adds ∧ s.budget.budget = budget)
  · rintro s ⟨hb, -, hr⟩
    rw [hb]
    constructor
    · right
      rw [hb, hr]
      exact ⟨fun _ => rfl, rfl⟩
    · rfl
  · rintro s a s' ⟨hA, hb⟩ hG hs
    rw [← hb]
    apply hA.step hG hs

/-- **The budget of tokens is one of the run** in a run in which every reply comes to a thread with
replies of the run only, none that used tokens is removed, and one whose calls are to be removed is
the last message: the calls of a reply are removed exactly if the replies of the run have used up
the budget. -/
theorem strips_iff_spent_of_own (h : (budgetRuns budget warnAt).Reach BudgetRun.Own s)
    {m : AIMessage} {uuid : String} (hs : lastReply s.messages = none)
    (hG : s.Own (.reply m uuid)) (hm : m.toolCalls ≠ []) :
  s.Strips (BudgetRun.named m uuid) ↔
    budget ≤ spent (s.replies ++ [BudgetRun.named m uuid])
  := by
  obtain ⟨hA, hb⟩ := adds_of_own h
  rw [← hb]
  rcases hA with ⟨last, hl, -⟩ | hM
  · rw [hs] at hl
    contradiction
  · apply BudgetRun.strips_iff hs hM hG hm

end

/-- A reply that calls a tool and used `total` tokens. -/
def costlyReply (id : String) (total : ℤ) : AIMessage :=
  { toolCalls := [{ name := "read_file", id := some "c" }]
    id := some id
    usage := some ⟨total, 0, total⟩ }

/-- With a budget of 100 tokens the second reply of 60 tokens is stopped. -/
theorem strips_iff_spent_of_own_second :
  ∃ s, (budgetRuns 100 80).Reach BudgetRun.Own s ∧ s.replies.length = 1 ∧
    (s.Strips (BudgetRun.named (costlyReply "b" 60) "") ↔
      100 ≤ spent (s.replies ++ [BudgetRun.named (costlyReply "b" 60) ""]))
  := by
  obtain ⟨s, hs, hp⟩ := Transition.exists_reach_of_run (T := budgetRuns 100 80)
    (G := BudgetRun.Own)
    (s := { messages := [.human (.str "review")], budget := { budget := 100, warnAt := 80 } })
    ⟨rfl, rfl, rfl⟩
    [.reply (costlyReply "a" 60) "", .tools [{ toolCallId := "c" }]]
    (fun s => s.replies.length = 1 ∧ (lastReply s.messages).isNone ∧
      s.Own (.reply (costlyReply "b" 60) "")) (by decide)
  obtain ⟨hk, hn, hG⟩ := of_decide_eq_true hp
  exact ⟨s, hs, hk, strips_iff_spent_of_own hs (Option.isNone_iff_eq_none.mp hn) hG (by decide)⟩

/-- On a thread whose earlier turn used the budget, the first reply of a turn is stopped. -/
theorem not_strips_iff_spent_reachable :
  ∃ s m, (budgetRuns 100 80).Reachable s ∧ lastReply s.messages = none ∧ m.toolCalls ≠ [] ∧
    ¬ (s.Strips (BudgetRun.named m "") ↔ 100 ≤ spent (s.replies ++ [BudgetRun.named m ""]))
  := by
  refine ⟨{ messages := [.ai { id := some "a", usage := some ⟨100, 0, 100⟩ },
      .human (.str "and now?")], budget := { budget := 100, warnAt := 80 } },
    costlyReply "b" 10, .start ⟨rfl, rfl, rfl⟩, rfl, by decide, ?_⟩
  intro h
  have := h.mp rfl
  revert this
  decide

end Agent
