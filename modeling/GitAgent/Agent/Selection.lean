import Mathlib.Data.List.Perm.Basic
import GitAgent.Agent.Hygiene
import GitAgent.Agent.Limit

/-!
# The calls that a cut reply keeps

A reply has its calls twice: as they were read, and as the provider wrote them, in a list in which
there may also be calls that could not be read. The limit of delegations
(`core/middleware/subagent_limit.py`) is to keep the first delegations and the other calls, in both
lists. It selects by ids, and so keeps these and no more exactly if no other call has the id
of one of them.
-/

namespace Agent

/-- A call as the provider wrote it, and as it was read, if it could be read. Both have the same
id. -/
structure Entry where
  raw : Json
  call : Option ToolCall
  same : ∀ c ∈ call, rawId raw = some c.id

namespace Entry

/-- Whether the call is kept for its id. -/
def keptBy (ids : List (Option String)) (e : Entry) : Bool :=
  e.call.any fun c => c.id ∈ ids

/-- Whether what the provider wrote is kept for its id. -/
def rawKeptBy (ids : List (Option String)) (e : Entry) : Bool :=
  (rawId e.raw).any (· ∈ ids)

/-- The first `k` delegations, and the other calls, each as it was written. -/
def select : ℕ → List Entry → List Entry
  | _, [] => []
  | k, e :: es =>
      match e.call with
      | none => select k es
      | some c =>
          if c.isTask then
            match k with
            | 0 => select 0 es
            | k + 1 => e :: select k es
          else e :: select k es

/-- The delegations after the first `k`, and what could not be read. -/
def reject : ℕ → List Entry → List Entry
  | _, [] => []
  | k, e :: es =>
      match e.call with
      | none => e :: reject k es
      | some c =>
          if c.isTask then
            match k with
            | 0 => e :: reject 0 es
            | k + 1 => reject k es
          else reject k es

/-- The calls that were read. -/
def calls (es : List Entry) : List ToolCall :=
  es.filterMap Entry.call

/-- The ids of the calls that are selected. -/
def selectedIds (k : ℕ) (es : List Entry) : List (Option String) :=
  (calls (select k es)).map ToolCall.id

end Entry

namespace AIMessage

/-- The reply has the calls of the entries, and, if it has them at all, what the provider wrote. -/
structure Mirrors (m : AIMessage) (es : List Entry) : Prop where
  calls : m.toolCalls = Entry.calls es
  raw : ∀ raw ∈ m.rawCalls, raw = es.map Entry.raw

/-- The reply `m'` has of the calls of `m` the first `k` delegations and the others, and of what the
provider wrote the same. -/
structure Selected (m m' : AIMessage) (k : ℕ) (es : List Entry) : Prop where
  calls : m'.toolCalls = Entry.calls (Entry.select k es)
  raw : m.rawCalls.isSome → m'.rawCalls.getD [] = (Entry.select k es).map Entry.raw

/-- No call that is to be removed has the id of one that is to be kept: no delegation after the
first `k`, nor, where the reply has what the provider wrote, a call that could not be read. -/
structure Separate (m : AIMessage) (k : ℕ) (es : List Entry) : Prop where
  calls : ∀ e ∈ Entry.reject k es, e.keptBy (Entry.selectedIds k es) = false
  raw : m.rawCalls.isSome →
    ∀ e ∈ Entry.reject k es, e.rawKeptBy (Entry.selectedIds k es) = false

end AIMessage

/-! ### Selecting by a property -/

namespace Entry

variable {k : ℕ} {es : List Entry} {p : Entry → Bool}

/-- What is selected has a call. -/
theorem isSome_call_of_mem_select {e : Entry} (h : e ∈ select k es) :
  e.call.isSome
  := by
  fun_induction select k es with
  | case1 => contradiction
  | case2 k e' es _ ih => apply ih h
  | case3 e' es c _ _ ih => apply ih h
  | case4 e' es c hc _ k ih | case5 k e' es c hc _ ih =>
      rcases List.mem_cons.mp h with rfl | h
      · rw [hc]
        rfl
      · apply ih h

/-- The entries are those that are selected and those that are not. -/
theorem perm_select_reject (k : ℕ) (es : List Entry) :
  (select k es ++ reject k es).Perm es
  := by
  fun_induction select k es with
  | case1 => rfl
  | case2 k e es hc ih =>
      simp only [reject.eq_def k (e :: es), hc]
      apply List.perm_middle.trans (ih.cons e)
  | case3 e es c hc ht ih =>
      simp only [reject.eq_def 0 (e :: es), hc, if_pos ht]
      apply List.perm_middle.trans (ih.cons e)
  | case4 e es c hc ht k ih =>
      simp only [reject.eq_def (k + 1) (e :: es), hc, if_pos ht]
      apply ih.cons e
  | case5 k e es c hc ht ih =>
      simp only [reject.eq_def k (e :: es), hc, if_neg ht]
      apply ih.cons e

/-- What is selected is in the order of the entries. -/
theorem select_sublist (k : ℕ) (es : List Entry) :
  (select k es).Sublist es
  := by
  fun_induction select k es with
  | case1 => apply List.Sublist.refl
  | case2 _ e _ _ ih | case3 e _ _ _ _ ih => apply ih.cons e
  | case4 e _ _ _ _ _ ih | case5 _ e _ _ _ _ ih => apply ih.cons_cons e

/-- Of two properties that hold of all that is selected, the one that holds of nothing else selects
exactly this. -/
theorem filter_eq_select_iff (hp : ∀ e ∈ select k es, p e) :
  (es.filter p).length = (select k es).length ↔ ∀ e ∈ reject k es, p e = false
  := by
  have hlen := ((perm_select_reject k es).filter p).length_eq
  rw [List.filter_append, List.filter_eq_self.mpr hp, List.length_append] at hlen
  have hnone : (∀ e ∈ reject k es, p e = false) ↔ ((reject k es).filter p).length = 0 := by
    simp [List.filter_eq_nil_iff]
  rw [hnone]
  omega

/-- A property of exactly what is selected selects it. -/
theorem filter_eq_select (hp : ∀ e ∈ select k es, p e) (hr : ∀ e ∈ reject k es, p e = false) :
  es.filter p = select k es
  := by
  symm
  have hsub : (select k es).Sublist (es.filter p) := by
    rw [← List.filter_eq_self.mpr hp]
    apply (select_sublist k es).filter
  apply hsub.eq_of_length ((filter_eq_select_iff hp).mpr hr).symm

/-! ### The ids of what is selected -/

/-- The first delegations are selected of the delegations. -/
theorem filter_isTask_select (k : ℕ) (es : List Entry) :
  (calls (select k es)).filter ToolCall.isTask = ((calls es).filter ToolCall.isTask).take k
  := by
  fun_induction select k es with
  | case1 => simp [calls]
  | case2 k e es hc ih => simpa [calls, hc] using ih
  | case3 e es c hc ht ih => simpa [calls, hc, ht] using ih
  | case4 e es c hc ht k ih => simpa [calls, hc, ht] using ih
  | case5 k e es c hc ht ih => simpa [calls, hc, ht] using ih

/-- All other calls are selected. -/
theorem filter_not_isTask_select (k : ℕ) (es : List Entry) :
  (calls (select k es)).filter (fun c => !c.isTask) = (calls es).filter fun c => !c.isTask
  := by
  fun_induction select k es with
  | case1 => rfl
  | case2 k e es hc ih => simpa [calls, hc] using ih
  | case3 e es c hc ht ih => simpa [calls, hc, ht] using ih
  | case4 e es c hc ht k ih => simpa [calls, hc, ht] using ih
  | case5 k e es c hc ht ih => simpa [calls, hc, ht] using ih

/-- A call is selected exactly if it is one of the first delegations, or delegates nothing. -/
theorem mem_calls_select {c : ToolCall} :
  c ∈ calls (select k es) ↔
    c ∈ ((calls es).filter ToolCall.isTask).take k ∨ c ∈ calls es ∧ c.isTask = false
  := by
  rw [← filter_isTask_select, List.mem_filter]
  have hother : c ∈ calls (select k es) ∧ c.isTask = false ↔ c ∈ calls es ∧ c.isTask = false := by
    have := congrArg (c ∈ ·) (filter_not_isTask_select k es)
    simpa [List.mem_filter] using this
  rw [← hother, ← and_or_left]
  simp

end Entry

variable {m : AIMessage} {k : ℕ} {es : List Entry}

/-- The ids that are kept are those of the calls that are selected. -/
theorem AIMessage.Mirrors.mem_keptIds_iff (h : m.Mirrors es) {id : Option String} :
  id ∈ SubagentLimit.keptIds m k ↔ id ∈ Entry.selectedIds k es
  := by
  have htasks : m.taskCalls = (Entry.calls es).filter ToolCall.isTask := by
    rw [AIMessage.taskCalls, h.calls]
  rw [SubagentLimit.keptIds, Entry.selectedIds, h.calls, htasks, List.mem_map, List.mem_map]
  constructor
  · rintro ⟨c, hc, rfl⟩
    obtain ⟨hc, hkept⟩ := List.mem_filter.mp hc
    rcases Bool.or_eq_true_iff.mp hkept with hother | htask
    · exact ⟨c, Entry.mem_calls_select.mpr (.inr ⟨hc, by simpa using hother⟩), rfl⟩
    · -- a delegation is kept that has the id of one of the first ones
      obtain ⟨c', hc', hid⟩ := List.mem_map.mp (of_decide_eq_true htask)
      exact ⟨c', Entry.mem_calls_select.mpr (.inl hc'), hid⟩
  · rintro ⟨c, hc, rfl⟩
    refine ⟨c, List.mem_filter.mpr ?_, rfl⟩
    rcases Entry.mem_calls_select.mp hc with htask | ⟨hc, hother⟩
    · constructor
      · apply List.mem_of_mem_filter (List.mem_of_mem_take htask)
      · apply Bool.or_eq_true_iff.mpr
        exact .inr (decide_eq_true (List.mem_map_of_mem htask))
    · exact ⟨hc, by simp [hother]⟩

namespace Entry

/-- The calls with one of the ids are those of the entries that are kept by them. -/
theorem filter_calls (ids : List (Option String)) (es : List Entry) :
  (calls es).filter (fun c => c.id ∈ ids) = calls (es.filter (keptBy ids))
  := by
  induction es with
  | nil => rfl
  | cons e es ih =>
      rw [List.filter_cons]
      cases hc : e.call with
      | none => simpa [calls, hc, keptBy] using ih
      | some c =>
          by_cases hid : c.id ∈ ids
          · simpa [calls, hc, keptBy, hid] using ih
          · simpa [calls, hc, keptBy, hid] using ih

/-- What the provider wrote with one of the ids is that of the entries that are kept by them. -/
theorem filter_raw (ids : List (Option String)) (es : List Entry) :
  (es.map raw).filter (fun c => (rawId c).any (· ∈ ids)) = (es.filter (rawKeptBy ids)).map raw
  := by
  rw [List.filter_map]
  rfl

/-- Entries with calls have as many calls. -/
theorem length_calls {es : List Entry} (h : ∀ e ∈ es, e.call.isSome) :
  (calls es).length = es.length
  := by
  rw [calls, List.length_filterMap_eq_countP, List.countP_eq_length]
  apply h

/-- What is selected is kept for its id. -/
theorem keptBy_of_mem_select {e : Entry} (h : e ∈ select k es) :
  e.keptBy (selectedIds k es) = true
  := by
  obtain ⟨c, hc⟩ := Option.isSome_iff_exists.mp (isSome_call_of_mem_select h)
  have hmem : c ∈ calls (select k es) := List.mem_filterMap.mpr ⟨e, h, hc⟩
  rw [keptBy, hc]
  apply decide_eq_true (List.mem_map_of_mem hmem)

/-- What the provider wrote of a call is kept if the call is. -/
theorem rawKeptBy_of_keptBy {e : Entry} {ids : List (Option String)} (h : e.keptBy ids = true) :
  e.rawKeptBy ids = true
  := by
  rw [keptBy, Option.any_eq_true] at h
  obtain ⟨c, hc, hid⟩ := h
  rw [rawKeptBy, e.same c hc]
  apply hid

end Entry

/-- The copy of a reply has the calls that are to be kept exactly if no other call has the id of one
of them. -/
theorem AIMessage.Mirrors.selected_iff (h : m.Mirrors es) {m' : AIMessage}
    (hcalls : m'.toolCalls = m.toolCalls.filter fun c => c.id ∈ SubagentLimit.keptIds m k)
    (hraw : m'.rawCalls.getD [] = m.keptRaw (SubagentLimit.keptIds m k)) :
  m.Selected m' k es ↔ m.Separate k es
  := by
  simp only [h.mem_keptIds_iff, AIMessage.keptRaw] at hcalls hraw
  rw [h.calls, Entry.filter_calls] at hcalls
  have hselect : ∀ e ∈ Entry.select k es, e.keptBy (Entry.selectedIds k es) = true :=
    fun e he => Entry.keptBy_of_mem_select he
  have hselectRaw : ∀ e ∈ Entry.select k es, e.rawKeptBy (Entry.selectedIds k es) = true :=
    fun e he => Entry.rawKeptBy_of_keptBy (hselect e he)
  have hwritten : m.rawCalls.isSome → m'.rawCalls.getD [] =
      (es.filter (Entry.rawKeptBy (Entry.selectedIds k es))).map Entry.raw := by
    intro hsome
    obtain ⟨raw, hr⟩ := Option.isSome_iff_exists.mp hsome
    rw [hraw, hr, Option.getD_some, h.raw raw hr, Entry.filter_raw]
  constructor
  · intro hs
    constructor
    · apply (Entry.filter_eq_select_iff hselect).mp
      have hlen := congrArg List.length (hcalls.symm.trans hs.calls)
      rwa [Entry.length_calls, Entry.length_calls] at hlen
      · exact fun e he => Entry.isSome_call_of_mem_select he
      · intro e he
        have := (List.mem_filter.mp he).2
        rw [Entry.keptBy, Option.any_eq_true] at this
        obtain ⟨c, hc, -⟩ := this
        rw [hc]
        rfl
    · intro hsome
      apply (Entry.filter_eq_select_iff hselectRaw).mp
      have hlen := congrArg List.length ((hwritten hsome).symm.trans (hs.raw hsome))
      rwa [List.length_map, List.length_map] at hlen
  · intro hs
    constructor
    · rw [hcalls, Entry.filter_eq_select hselect hs.calls]
    · intro hsome
      rw [hwritten hsome, Entry.filter_eq_select hselectRaw (hs.raw hsome)]

/-- **The limit keeps the right calls exactly if the ids tell them apart**: where more delegations
are asked for than are allowed, the reply keeps the first ones and the other calls, in their order,
and of what the provider wrote the same, exactly if no call that is to be removed has the id of one
that is to be kept. -/
theorem SubagentLimit.selected_iff_separate (limit : SubagentLimit) (messages : List Message)
    (m : AIMessage) (es : List Entry) (h : m.Mirrors es) (hlast : lastReply messages = some m)
    (hk : limit.allowed messages < m.taskCalls.length) :
  ∃ m', limit.afterModel messages = some m' ∧
    (m.Selected m' (limit.allowed messages) es ↔ m.Separate (limit.allowed messages) es)
  := by
  refine ⟨m.cloneWithToolCalls (keptIds m (limit.allowed messages)) none, ?_, ?_⟩
  · have hsome : m.taskCalls ≠ [] := List.ne_nil_of_length_pos (Nat.zero_lt_of_lt hk)
    rw [afterModel, hlast]
    dsimp only
    rw [if_neg hsome, if_neg (Nat.not_le_of_lt hk)]
  · apply h.selected_iff
    · apply AIMessage.toolCalls_cloneWithToolCalls
    · apply AIMessage.rawCalls_cloneWithToolCalls

/-- A call of a tool, as the provider wrote it and as it was read. -/
def sampleEntry (name id : String) : Entry where
  raw := .obj [("id", .str id), ("type", .str "function")]
  call := some { name, id := some id }
  same := by
    rintro _ ⟨⟩
    simp [rawId]

/-- A reply with some calls. -/
def sampleReply (es : List Entry) : AIMessage where
  toolCalls := Entry.calls es
  additionalKwargs := [("tool_calls", .arr (es.map Entry.raw))]
  id := some "ai-1"

theorem mirrors_sampleReply (es : List Entry) :
  (sampleReply es).Mirrors es
  := by
  constructor
  · rfl
  · rintro _ ⟨⟩
    rfl

/-- Of three delegations and a command two delegations and the command are kept. -/
theorem SubagentLimit.selected_iff_separate_sample :
  let es := [sampleEntry "task" "a", sampleEntry "task" "b", sampleEntry "sandbox_run" "c",
    sampleEntry "task" "d"]
  ∃ m', SubagentLimit.afterModel ⟨2, 10⟩ [.ai (sampleReply es)] = some m' ∧
    (sampleReply es).Selected m' 2 es
  := by
  intro es
  obtain ⟨m', hm', hiff⟩ := SubagentLimit.selected_iff_separate ⟨2, 10⟩ [.ai (sampleReply es)]
    (sampleReply es) es (mirrors_sampleReply es) rfl (by decide)
  use m', hm'
  apply hiff.mpr
  constructor
  · decide
  · intro _
    decide

/-- Of two delegations with the same id both are kept where one is allowed. -/
theorem SubagentLimit.not_selected_shared :
  ¬ ∀ (limit : SubagentLimit) (messages : List Message) (m : AIMessage) (es : List Entry),
    m.Mirrors es → lastReply messages = some m →
    limit.allowed messages < m.taskCalls.length →
    ∃ m', limit.afterModel messages = some m' ∧ m.Selected m' (limit.allowed messages) es
  := by
  intro h
  let es := [sampleEntry "task" "a", sampleEntry "task" "a"]
  obtain ⟨m', hm', hs⟩ := h ⟨1, 10⟩ [.ai (sampleReply es)] (sampleReply es) es
    (mirrors_sampleReply es) rfl (by decide)
  have hlen := congrArg List.length hs.calls
  rw [← Option.some.inj hm'] at hlen
  revert hlen
  decide

end Agent
