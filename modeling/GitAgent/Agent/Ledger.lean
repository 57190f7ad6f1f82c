import GitAgent.Agent.Result
import GitAgent.Library.Transition

/-!
# The ledger from the tools to the verdict

The run of a subagent: the model replies, tools answer, and nothing is taken from the thread. The
ledger that is harvested at the end is that of the last reply that was shown some receipt. It is
that of the last reply, and the verdict is about what that reply was shown, where the last call of
the model was shown some receipt or no call was.
-/

namespace Agent

/-- The run of a subagent: the messages of the thread, and the receipts in it at each call of the
model. -/
structure ReceiptRun where
  messages : List Message
  calls : List (List ToolReceipt)

/-- What happens in a run: the model replies, or tools answer. -/
inductive ReceiptRun.Action
  | reply (m : AIMessage)
  | tools (results : List ToolResult)

/-- The run after an action. Only the middleware stamps a reply with a ledger. -/
def ReceiptRun.step (D : Digests) (s : ReceiptRun) : Action → Option ReceiptRun
  | .reply m =>
      if (Json.get m.additionalKwargs "tool_receipt_ledger").isNone then
        some {
          messages := s.messages ++ [.ai (stampResponse m (injectLedger s.messages).2)]
          calls := s.calls ++ [extractToolReceipts s.messages] }
      else none
  | .tools results =>
      some { s with messages := s.messages ++ results.map fun r => .tool (r.stamp D) }

/-- The runs of a subagent on a thread without replies and answers. -/
def receiptRuns (D : Digests) : Transition.System ReceiptRun ReceiptRun.Action where
  init s := (∀ m ∈ s.messages, m.ai? = none ∧ m.tool? = none) ∧ s.calls = []
  step := ReceiptRun.step D

/-- The result of a subagent that completed with these messages. -/
def completedResult (taskId : String) (messages : List Message) : SubagentResult :=
  ({ taskId, status := .running : SubagentResult }.updateToolReceipts
    (some (extractToolReceipts messages))).trySetTerminal {
      status := .completed
      terminal := (rfl : true = true)
      result := some (extractFinalResult messages)
      toolReceipts := harvest (some messages) }

namespace ReceiptRun

variable (L : Lexicon) (s : ReceiptRun)

/-- The receipts that the last call of the model was shown. -/
def shown : List ToolReceipt :=
  (s.calls.getLast?.map ledger).getD []

/-- The ledger that is to be harvested. -/
def expected : Option (List ToolReceipt) :=
  if s.shown ≠ [] then some s.shown
  else if extractToolReceipts s.messages = [] then some [] else none

/-- What the pipeline is to do: a call of the model shows what its reply is stamped with, which is
read back as it is; the ledger of the last reply is harvested; and the verdict on the final
text resolves the citations of what that reply was shown, and does not know the others. -/
structure Pipeline : Prop where
  shows : extractToolReceipts s.messages ≠ [] → ∃ text,
    (injectLedger s.messages).1 = s.messages.takeWhile Message.isSystem ++
      .human (.str text) :: s.messages.dropWhile Message.isSystem ∧
    Shows (extractToolReceipts s.messages) text (injectLedger s.messages).2
  hides : extractToolReceipts s.messages = [] → injectLedger s.messages = (s.messages, [])
  accepted : ∀ m : AIMessage, (injectLedger s.messages).2 ≠ [] →
    extractCitingTurnReceipts
        (s.messages ++ [.ai (stampResponse m (injectLedger s.messages).2)]) =
      some (injectLedger s.messages).2
  harvested : harvest (some s.messages) = s.expected
  resolved : ∀ taskId, ∀ v ∈ (completedResult taskId s.messages).verdict L,
    ∀ c ∈ L.parseCitations (extractFinalResult s.messages), ∀ r ∈ s.shown, r.id = c.id →
      r.status = "success" → (∀ anchor ∈ c.anchor, anchor = r.toolName) → c.id ∈ v.resolved
  unknown : ∀ taskId, ∀ v ∈ (completedResult taskId s.messages).verdict L,
    ∀ c ∈ L.parseCitations (extractFinalResult s.messages), (∀ r ∈ s.shown, r.id ≠ c.id) →
      c.id ∈ v.unknown

/-- Whether the last call of the model was shown some receipt, or no call was and the final text
cites none. -/
def Readable : Prop :=
  (∃ receipts ∈ s.calls.getLast?, Legible receipts) ∨
    (∀ receipts ∈ s.calls, ¬ Legible receipts) ∧
      ∀ c ∈ L.parseCitations (extractFinalResult s.messages),
        ∀ r ∈ extractToolReceipts s.messages, r.id ≠ c.id

end ReceiptRun

/-! ### What a call is shown -/

theorem joinLines_heading_ne_empty (lines : List String) :
  joinLines (heading ++ lines) ≠ ""
  := by
  intro h
  have := congrArg String.length h
  simp only [heading, List.cons_append, joinLines, String.length_append] at this
  have hpos : 0 < "## Tool receipts (execution record)".length := by decide +kernel
  have hzero : "".length = 0 := rfl
  omega

/-- A text that shows something is not empty. -/
theorem Shows.ne_empty {receipts snapshot : List ToolReceipt} {text : String}
    (h : Shows receipts text snapshot) :
  text ≠ ""
  := by
  rcases h.text with ⟨-, rfl⟩ | rfl
  · apply joinLines_heading_ne_empty
  · apply joinLines_heading_ne_empty

theorem injectLedger_of_empty {messages : List Message} (h : extractToolReceipts messages = []) :
  injectLedger messages = (messages, [])
  := if_pos h

theorem injectLedger_of_ne {messages : List Message} (h : extractToolReceipts messages ≠ []) :
  injectLedger messages = (messages.takeWhile Message.isSystem ++
      .human (.str (renderToolReceipts (extractToolReceipts messages) renderCharBudget).1) ::
        messages.dropWhile Message.isSystem,
    ledger (extractToolReceipts messages))
  := by
  rw [injectLedger, ledger]
  simp only
  rw [if_neg h, if_neg (shows_renderToolReceipts h).ne_empty]

/-- A call of the model is shown the ledger of the receipts in the thread. -/
theorem snd_injectLedger (messages : List Message) :
  (injectLedger messages).2 = ledger (extractToolReceipts messages)
  := by
  by_cases h : extractToolReceipts messages = []
  · rw [injectLedger_of_empty h, h]
    rfl
  · rw [injectLedger_of_ne h]

/-- A ledger is numbered. -/
theorem exists_numbered_ledger {receipts : List ToolReceipt} (h : Numbered 1 receipts) :
  ∃ n, 0 < n ∧ Numbered n (ledger receipts)
  := by
  by_cases hne : receipts = []
  · subst hne
    exact ⟨1, Nat.one_pos, trivial⟩
  · obtain ⟨l, hl⟩ := (shows_renderToolReceipts hne).suffix
    rw [← hl, numbered_append] at h
    exact ⟨1 + l.length, by omega, h.2⟩

/-! ### What is read back -/

/-- A ledger that is stamped on a reply. -/
def stampOf (snapshot : List ToolReceipt) : Option Json :=
  if snapshot = [] then none else some (.arr (snapshot.map fun r => .obj r.toFields))

/-- The stamp of a reply. -/
def stamp? (m : AIMessage) : Option Json :=
  Json.get m.additionalKwargs "tool_receipt_ledger"

theorem stamp?_stampResponse {m : AIMessage} (h : stamp? m = none)
    (snapshot : List ToolReceipt) :
  stamp? (stampResponse m snapshot) = stampOf snapshot
  := by
  rw [stampResponse, stampOf]
  split
  · apply h
  · apply get_set

/-- A numbered ledger is read as it is. -/
theorem readLedger_of_numbered {n : ℕ} (hn : 0 < n) {first : Option ℕ} {index : ℕ}
    {snapshot : List ToolReceipt} (hnum : Numbered (n + index) snapshot)
    (hfirst : first = some n ∨ first = none ∧ index = 0) :
  readLedger first index (snapshot.map fun r => .obj r.toFields) = some snapshot
  := by
  induction snapshot generalizing first index with
  | nil => rfl
  | cons r snapshot ih =>
      obtain ⟨hr, hnum⟩ := hnum
      have hpos : position r.id = some (n + index) := by
        rw [hr, position_receiptId (by omega)]
      have hget : first.getD (n + index) = n := by
        rcases hfirst with rfl | ⟨rfl, rfl⟩ <;> rfl
      rw [List.map_cons, readLedger]
      simp only [isValidReceipt_toFields, Bool.not_true, Bool.false_eq_true, if_false,
        get_id_toFields, hpos, hget]
      rw [if_neg (not_not_intro hr), ih hnum (.inl rfl), Option.map_some, copy_toFields]

/-- The search finds the first reply that is stamped. -/
theorem citingTurn_eq {messages : List Message} {ledgers : List (List ToolReceipt)}
    (h : (repliesOf messages).map stamp? = ledgers.map stampOf)
    (hn : ∀ snapshot ∈ ledgers, ∃ n, 0 < n ∧ Numbered n snapshot) :
  citingTurn messages = ledgers.find? fun snapshot => snapshot ≠ []
  := by
  induction messages generalizing ledgers with
  | nil =>
      obtain rfl : ledgers = [] := by simpa [repliesOf] using h
      rfl
  | cons m messages ih =>
      cases m with
      | ai m =>
          cases ledgers with
          | nil => contradiction
          | cons snapshot ledgers =>
              obtain ⟨hm, hrest⟩ := List.cons.inj h
              have ih := ih hrest fun l hl => hn l (List.mem_cons_of_mem _ hl)
              rw [stamp?] at hm
              rw [citingTurn, hm, stampOf]
              by_cases he : snapshot = []
              · rw [if_pos he, List.find?_cons_of_neg (by simpa using he)]
                apply ih
              · obtain ⟨n, hpos, hnum⟩ := hn snapshot List.mem_cons_self
                rw [if_neg he, List.find?_cons_of_pos (by simpa using he)]
                exact readLedger_of_numbered hpos hnum (.inr ⟨rfl, rfl⟩)
      | system content => apply ih h hn
      | human content => apply ih h hn
      | tool m => apply ih h hn

/-! ### Runs -/

/-- Each reply is stamped with the ledger of its call, and the receipts of a call stay. -/
structure ReceiptRun.Stamped (s : ReceiptRun) : Prop where
  stamps : (repliesOf s.messages).map stamp? = (s.calls.map ledger).map stampOf
  calls : ∀ receipts ∈ s.calls, receipts <+: extractToolReceipts s.messages ∧ Numbered 1 receipts

section

variable {D : Digests} {L : Lexicon} {s : ReceiptRun}

/-- Every action keeps the stamps. -/
theorem ReceiptRun.Stamped.step {s' : ReceiptRun} {a : ReceiptRun.Action} (h : s.Stamped)
    (hs : s.step D a = some s') :
  s'.Stamped
  := by
  cases a with
  | reply m =>
      rw [ReceiptRun.step, Option.ite_none_right_eq_some, Option.isNone_iff_eq_none] at hs
      obtain ⟨hm, hs⟩ := hs
      obtain rfl := Option.some.inj hs
      constructor
      · change (repliesOf (s.messages ++ _)).map _ = ((s.calls ++ _).map _).map _
        rw [repliesOf, List.filterMap_append, List.map_append, List.map_append, List.map_append,
          ← h.stamps, snd_injectLedger]
        congr 1
        change [stamp? _] = [stampOf _]
        rw [stamp?_stampResponse hm]
      · intro receipts hr
        change receipts <+: extractToolReceipts (s.messages ++ _) ∧ _
        rw [extractToolReceipts_concat rfl]
        rcases List.mem_append.mp hr with hr | hr
        · apply h.calls receipts hr
        · obtain rfl := List.mem_singleton.mp hr
          exact ⟨List.prefix_rfl, numbered_extractToolReceipts _⟩
  | tools results =>
      obtain rfl := Option.some.inj hs
      constructor
      · change (repliesOf (s.messages ++ _)).map _ = _
        have : repliesOf (results.map fun r => .tool (r.stamp D)) = [] := by
          rw [repliesOf, List.filterMap_map]
          apply List.filterMap_eq_nil_iff.mpr
          intro r _
          rfl
        rw [repliesOf, List.filterMap_append, ← repliesOf, ← repliesOf, this, List.append_nil,
          h.stamps]
      · intro receipts hr
        obtain ⟨hp, hn⟩ := h.calls receipts hr
        exact ⟨hp.trans (extractToolReceipts_append _ _), hn⟩

theorem stamped_of_reachable (h : (receiptRuns D).Reachable s) :
  s.Stamped
  := by
  apply h.invariant
  · rintro s ⟨hm, hc⟩
    constructor
    · rw [hc]
      have : repliesOf s.messages = [] :=
        List.filterMap_eq_nil_iff.mpr fun m hm' => (hm m hm').1
      rw [this]
      rfl
    · intro receipts hr
      rw [hc] at hr
      contradiction
  · intro s a s' hS _ hs
    apply hS.step hs

namespace ReceiptRun

/-- The ledger that is read back is the last one that is not empty. -/
theorem Stamped.extractCitingTurnReceipts_eq (h : s.Stamped) :
  extractCitingTurnReceipts s.messages =
    (s.calls.map ledger).reverse.find? fun snapshot => snapshot ≠ []
  := by
  apply citingTurn_eq
  · rw [repliesOf, List.filterMap_reverse, ← repliesOf, List.map_reverse, List.map_reverse,
      h.stamps]
  · intro snapshot hs
    obtain ⟨receipts, hr, rfl⟩ := List.mem_map.mp (List.mem_reverse.mp hs)
    apply exists_numbered_ledger (h.calls receipts hr).2

/-- What a call of the model is shown is accepted as it is. -/
theorem extractCitingTurnReceipts_stampResponse (messages : List Message) (m : AIMessage)
    (hne : (injectLedger messages).2 ≠ []) :
  extractCitingTurnReceipts (messages ++ [.ai (stampResponse m (injectLedger messages).2)]) =
    some (injectLedger messages).2
  := by
  rw [snd_injectLedger] at hne ⊢
  have hs : stamp? (stampResponse m (ledger (extractToolReceipts messages))) =
      stampOf (ledger (extractToolReceipts messages)) := by
    rw [stampResponse, stampOf, if_neg hne, if_neg hne]
    apply get_set
  obtain ⟨n, hn, hnum⟩ := exists_numbered_ledger (numbered_extractToolReceipts messages)
  rw [stampOf, if_neg hne, stamp?] at hs
  rw [extractCitingTurnReceipts, List.reverse_append, List.reverse_singleton,
    List.singleton_append, citingTurn, hs]
  exact readLedger_of_numbered hn hnum (.inr ⟨rfl, rfl⟩)

/-- The verdict is about the ledger that is harvested, or else about all receipts. -/
theorem verdict_completedResult (taskId : String) (messages : List Message) :
  (completedResult taskId messages).verdict L =
    some (L.verifyReceiptCitations (extractFinalResult messages)
      ((harvest (some messages)).getD (extractToolReceipts messages)))
  := by
  have ht : extractFinalResult messages ≠ "" := by
    rw [extractFinalResult]
    split
    · split
      · decide
      · rename_i hb
        intro he
        rw [he] at hb
        apply hb rfl
    · decide
  have hr : (completedResult taskId messages).toolReceipts =
      some ((harvest (some messages)).getD (extractToolReceipts messages)) := by
    change (harvest (some messages)).or (some (extractToolReceipts messages)) = _
    cases harvest (some messages) <;> rfl
  have he : (completedResult taskId messages).result = some (extractFinalResult messages) := rfl
  rw [SubagentResult.verdict, hr, he]
  apply if_pos ⟨rfl, ht⟩

/-- The last call is shown some receipt exactly if its receipts are legible. -/
theorem shown_ne_nil_iff :
  s.shown ≠ [] ↔ ∃ receipts ∈ s.calls.getLast?, Legible receipts
  := by
  rw [shown]
  cases s.calls.getLast? with
  | none => simp
  | some receipts =>
      rw [Option.map_some, Option.getD_some, ledger_ne_nil_iff]
      simp

/-- The ledger of the last call is harvested if it is not empty. -/
theorem Stamped.harvest_of_shown (h : s.Stamped) (hs : s.shown ≠ []) :
  harvest (some s.messages) = some s.shown
  := by
  have hf : extractCitingTurnReceipts s.messages = some s.shown := by
    rw [h.extractCitingTurnReceipts_eq]
    revert hs
    rw [shown, ← List.getLast?_map, ← List.head?_reverse]
    cases (s.calls.map ledger).reverse with
    | nil => exact fun hs => absurd rfl hs
    | cons snapshot ledgers =>
        intro hs
        exact List.find?_cons_of_pos (decide_eq_true hs)
  rw [harvest, Option.bind_some, hf]

/-- Where no call was shown a receipt, no ledger is harvested. -/
theorem Stamped.harvest_of_not_legible (h : s.Stamped)
    (hs : ∀ receipts ∈ s.calls, ¬ Legible receipts) :
  harvest (some s.messages) = if extractToolReceipts s.messages = [] then some [] else none
  := by
  have hf : extractCitingTurnReceipts s.messages = none := by
    rw [h.extractCitingTurnReceipts_eq, List.find?_eq_none]
    intro snapshot hm
    obtain ⟨receipts, hr, rfl⟩ := List.mem_map.mp (List.mem_reverse.mp hm)
    simpa using fun hne => hs receipts hr (ledger_ne_nil_iff.mp hne)
  rw [harvest, Option.bind_some, hf]

/-- Where some call was shown a receipt, a ledger is harvested that is not empty. -/
theorem Stamped.harvest_of_legible (h : s.Stamped) {receipts : List ToolReceipt}
    (hr : receipts ∈ s.calls) (hl : Legible receipts) :
  ∃ snapshot ≠ [], harvest (some s.messages) = some snapshot
  := by
  cases hf : extractCitingTurnReceipts s.messages with
  | none =>
      rw [h.extractCitingTurnReceipts_eq, List.find?_eq_none] at hf
      have hm : ledger receipts ∈ (s.calls.map ledger).reverse :=
        List.mem_reverse.mpr (List.mem_map_of_mem hr)
      apply absurd (decide_eq_true (ledger_ne_nil_iff.mpr hl)) (hf _ hm)
  | some snapshot =>
      use snapshot
      constructor
      · rw [h.extractCitingTurnReceipts_eq] at hf
        simpa using List.find?_some hf
      · rw [harvest, Option.bind_some, hf]

/-- What is shown is numbered. -/
theorem Stamped.numbered_shown (h : s.Stamped) :
  ∃ n, 0 < n ∧ Numbered n s.shown
  := by
  rw [shown]
  cases hc : s.calls.getLast? with
  | none => exact ⟨1, Nat.one_pos, trivial⟩
  | some receipts => apply exists_numbered_ledger (h.calls receipts (List.mem_of_getLast? hc)).2

/-- The pipeline does what it is to do if the ledger and the verdict are right. -/
theorem pipeline_of (hh : harvest (some s.messages) = s.expected)
    (hr : ∀ taskId, ∀ v ∈ (completedResult taskId s.messages).verdict L,
      ∀ c ∈ L.parseCitations (extractFinalResult s.messages), ∀ r ∈ s.shown, r.id = c.id →
        r.status = "success" → (∀ anchor ∈ c.anchor, anchor = r.toolName) → c.id ∈ v.resolved)
    (hu : ∀ taskId, ∀ v ∈ (completedResult taskId s.messages).verdict L,
      ∀ c ∈ L.parseCitations (extractFinalResult s.messages), (∀ r ∈ s.shown, r.id ≠ c.id) →
        c.id ∈ v.unknown) :
  s.Pipeline L
  where
  shows hne := by
    rw [injectLedger_of_ne hne]
    exact ⟨_, rfl, shows_renderToolReceipts hne⟩
  hides := injectLedger_of_empty
  accepted := extractCitingTurnReceipts_stampResponse s.messages
  harvested := hh
  resolved := hr
  unknown := hu

/-- Where the last call was shown some receipt, the pipeline does what it is to do. -/
theorem Stamped.pipeline_of_shown (h : s.Stamped) (hs : s.shown ≠ []) :
  s.Pipeline L
  := by
  have hh := h.harvest_of_shown hs
  obtain ⟨n, hn, hnum⟩ := h.numbered_shown
  apply pipeline_of
  · rw [hh, expected, if_pos hs]
  · intro taskId v hv c hc r hr hid hok ha
    rw [verdict_completedResult, hh] at hv
    obtain rfl := Option.some.inj hv
    apply Lexicon.mem_resolved hc
    apply Citation.check_eq_resolved _ hok ha
    rw [← hid]
    apply byId_of_mem hnum hn hr
  · intro taskId v hv c hc hr
    rw [verdict_completedResult, hh] at hv
    obtain rfl := Option.some.inj hv
    apply (Lexicon.mem_unknown_iff hc).mpr hr

/-- Where no call was shown a receipt, the pipeline does what it is to do if the final text cites
none. -/
theorem Stamped.pipeline_iff_of_not_legible (h : s.Stamped)
    (hs : ∀ receipts ∈ s.calls, ¬ Legible receipts) :
  s.Pipeline L ↔ ∀ c ∈ L.parseCitations (extractFinalResult s.messages),
    ∀ r ∈ extractToolReceipts s.messages, r.id ≠ c.id
  := by
  have hshown : s.shown = [] := by
    by_contra hne
    obtain ⟨receipts, hr, hl⟩ := shown_ne_nil_iff.mp hne
    apply hs receipts (List.mem_of_getLast? hr) hl
  have hh := h.harvest_of_not_legible hs
  have hv : ∀ taskId, (completedResult taskId s.messages).verdict L =
      some (L.verifyReceiptCitations (extractFinalResult s.messages)
        (extractToolReceipts s.messages)) := by
    intro taskId
    rw [verdict_completedResult, hh]
    congr 2
    by_cases he : extractToolReceipts s.messages = []
    · rw [if_pos he, he]
      rfl
    · rw [if_neg he]
      rfl
  have hnone : ∀ c : Citation, ∀ r ∈ s.shown, r.id ≠ c.id := by
    rw [hshown]
    exact fun c r hr => absurd hr List.not_mem_nil
  constructor
  · intro hP c hc
    apply (Lexicon.mem_unknown_iff hc).mp
    apply hP.unknown "" _ (hv "") c hc (hnone c)
  · intro hcites
    apply pipeline_of
    · rw [hh, expected, if_neg (not_not_intro hshown)]
    · intro taskId v _ c _ r hr hid
      apply absurd hid (hnone c r hr)
    · intro taskId v hv' c hc _
      rw [hv taskId] at hv'
      obtain rfl := Option.some.inj hv'
      apply (Lexicon.mem_unknown_iff hc).mpr (hcites c hc)

end ReceiptRun

/-- The pipeline does what it is to do exactly if the last call was shown some receipt, or no call
was and the final text cites none. -/
theorem ReceiptRun.Stamped.pipeline_iff (h : s.Stamped) :
  s.Pipeline L ↔ s.Readable L
  := by
  by_cases hs : s.shown = []
  · have hlast : ¬ ∃ receipts ∈ s.calls.getLast?, Legible receipts :=
      fun hl => shown_ne_nil_iff.mpr hl hs
    rw [Readable, or_iff_right hlast]
    by_cases hl : ∀ receipts ∈ s.calls, ¬ Legible receipts
    · rw [h.pipeline_iff_of_not_legible hl, and_iff_right hl]
    · constructor
      · intro hP
        push Not at hl
        obtain ⟨receipts, hr, hl⟩ := hl
        obtain ⟨snapshot, hne, hh⟩ := h.harvest_of_legible hr hl
        have he := hP.harvested
        rw [hh, expected, if_neg (not_not_intro hs)] at he
        split at he
        · apply absurd (Option.some.inj he) hne
        · contradiction
      · rintro ⟨hn, -⟩
        contradiction
  · constructor
    · intro _
      exact .inl (shown_ne_nil_iff.mp hs)
    · intro _
      apply h.pipeline_of_shown hs

/-- **The receipts go from the tools to the verdict** in exactly the runs in which the last call of
the model was shown some receipt, or no call was and the final text cites no receipt. -/
theorem pipeline_iff_readable (h : (receiptRuns D).Reachable s) :
  s.Pipeline L ↔ s.Readable L
  := (stamped_of_reachable h).pipeline_iff

theorem reachable_reply (h : (receiptRuns D).Reachable s) {m : AIMessage} (hm : stamp? m = none) :
  (receiptRuns D).Reachable ⟨s.messages ++ [.ai (stampResponse m (injectLedger s.messages).2)],
    s.calls ++ [extractToolReceipts s.messages]⟩
  := by
  apply h.step (a := .reply m) trivial
  apply if_pos
  rw [Option.isNone_iff_eq_none]
  apply hm

theorem reachable_tools (h : (receiptRuns D).Reachable s) (results : List ToolResult) :
  (receiptRuns D).Reachable
    ⟨s.messages ++ results.map fun r => .tool (r.stamp D), s.calls⟩
  := h.step (a := .tools results) trivial rfl

end

/-! ### A run -/

/-- A name that no tool has. -/
def longName : String :=
  String.ofList (List.replicate 2001 'x')

theorem length_longName :
  longName.length = 2001
  := String.length_ofList.trans List.length_replicate

/-- The digests of the answers below. -/
def sampleDigests : Digests where
  hash s :=
    if s = "I read it [r1 read_file]." then
      "e68a3b4ed7e2a8ae822101d255c4b4b10cd933aa6c1369da7f00769912b06c54"
    else "ed251864987c367e9641fbdc89c1d83e9bf0fa2e3eecef8f301c79f619bfac81"
  shortHash s :=
    if s = "\x7b\x7d" then "44136fa355b3678a"
    else if s = "" then "e3b0c44298fc1c14"
    else "c58c08ce9220ab49"
  dumps _ := "\x7b\x7d"

/-- The words of the texts below. -/
def sampleLexicon : Lexicon where
  isWord c := c.isAlphanum || c = '_'
  hasActionClaims _ := false

/-- An empty file is read. -/
def readResult : ToolResult where
  call := { name := "read_file", id := some "a" }
  message := { name := "read_file", toolCallId := "a" }
  now := "2026-01-01T00:00:00+00:00"

/-- A tool is called that there is not. -/
def invalidResult : ToolResult where
  call := { name := longName, id := some "b" }
  message := {
    content := .str ("Error: " ++ longName ++ " is not a valid tool, try one of [read_file].")
    name := longName
    toolCallId := "b"
    status := "error" }
  now := "2026-01-01T00:00:01+00:00"

/-- The receipt of the file that is read. -/
def readReceipt : ToolReceipt :=
  .copy (receiptId 1) (makeToolReceipt sampleDigests readResult)

theorem legible_readReceipt :
  Legible [readReceipt]
  := by
  have hr : readReceipt.line = "- [" ++ ("r" ++ toString 1) ++ "] " ++ "read_file" ++ " status=" ++
      "success" ++ " args_sha256=" ++ "44136fa355b3678a" ++ " output_sha256=" ++
      "e3b0c44298fc1c14" ++ " bytes=" ++ "0" := by decide
  constructor
  · simp
  · left
    rw [AllFit, List.map_singleton, hr]
    simp only [heading, renderCharBudget, List.cons_append, List.nil_append, joinLines,
      String.length_append]
    decide +kernel

/-- The thread when the task was given, and after each reply and answer. -/
def readThread : List Message :=
  [.system (.str "You review code."), .human (.str "Read the file."),
    .ai { toolCalls := [readResult.call] }] ++ [readResult].map fun r => .tool (r.stamp sampleDigests)

theorem extractToolReceipts_readThread :
  extractToolReceipts readThread = [readReceipt]
  := by decide

/-- The run in which a file is read. -/
def readRun : ReceiptRun where
  messages := readThread
  calls := [[]]

theorem reachable_readRun :
  (receiptRuns sampleDigests).Reachable readRun
  := by
  have hstart : (receiptRuns sampleDigests).Reachable
      ⟨[.system (.str "You review code."), .human (.str "Read the file.")], []⟩ := by
    apply Transition.System.Reach.start
    constructor
    · intro m hm
      rcases List.mem_pair.mp hm with rfl | rfl <;> exact ⟨rfl, rfl⟩
    · rfl
  have hreply := reachable_reply hstart (m := { toolCalls := [readResult.call] }) rfl
  apply reachable_tools hreply [readResult]

/-- After the file is read, the next reply cites it. -/
theorem pipeline_iff_readable_read :
  ∃ s, (receiptRuns sampleDigests).Reachable s ∧ s.Readable sampleLexicon ∧
    s.Pipeline sampleLexicon
  := by
  have h := reachable_reply reachable_readRun
    (m := { content := .str "I read it [r1 read_file]." }) rfl
  have hl : ∃ receipts ∈ ([[]] ++ [extractToolReceipts readThread]).getLast?, Legible receipts := by
    use [readReceipt]
    rw [extractToolReceipts_readThread]
    exact ⟨rfl, legible_readReceipt⟩
  exact ⟨_, h, .inl hl, (pipeline_iff_readable h).mpr (.inl hl)⟩

/-- When the last call comes after a call of a tool with a long name, an earlier ledger is
harvested. -/
theorem not_pipeline_reachable :
  ∃ s, (receiptRuns sampleDigests).Reachable s ∧ ¬ s.Pipeline sampleLexicon
  := by
  have hcall := reachable_reply reachable_readRun (m := { toolCalls := [invalidResult.call] }) rfl
  have h := reachable_reply (reachable_tools hcall [invalidResult])
    (m := { content := .str "Done." }) rfl
  have hname : ∀ id, renderCharBudget <
      (ToolReceipt.copy id (makeToolReceipt sampleDigests invalidResult)).toolName.length := by
    intro id
    rw [toolName_copy, show invalidResult.call.name = longName from rfl, length_longName]
    decide
  refine ⟨_, h, fun hP => ?_⟩
  rcases (stamped_of_reachable h).pipeline_iff.mp hP with ⟨receipts, hr, hl⟩ | ⟨hn, -⟩
  · -- the receipt of the long name is the last one
    rw [List.getLast?_concat] at hr
    rw [← Option.some.inj hr, List.map_singleton, extractToolReceipts_stamp] at hl
    apply not_legible_of_toolName (hname _) hl
  · apply hn [readReceipt] _ legible_readReceipt
    rw [← extractToolReceipts_readThread]
    apply List.mem_append_left
    apply List.mem_append_right
    apply List.mem_singleton_self

end Agent
