import GitAgent.Agent.Message

/-!
# The copies of a reply

A copy of a reply from which calls were removed takes its place in the thread
(`core/middleware/_common.py`). It is made anew of some of the fields of the reply, so that it says
neither the name, nor the tokens that were used, nor the calls that could not be read. Where no call
is left but what the provider wrote of one, the constructor of the reply reads that again.
-/

namespace Agent.AIMessage

/-- The calls as the provider wrote them, if the reply has them. -/
def rawCalls (m : AIMessage) : Option (List Json) :=
  match Json.get m.additionalKwargs "tool_calls" with
  | some (.arr raw) => some raw
  | _ => none

/-- How the constructor of a reply reads the calls that the provider wrote: those that can be read,
and those that cannot. -/
abbrev Parser := List Json → List ToolCall × List InvalidToolCall

/-- The constructor: the calls that the provider wrote are read where the reply has no others. -/
def construct (parser : Parser) (m : AIMessage) : AIMessage :=
  if m.toolCalls = [] ∧ m.invalidToolCalls = [] then
    match m.rawCalls.getD [] with
    | [] => m
    | raw => { m with toolCalls := (parser raw).1, invalidToolCalls := (parser raw).2 }
  else m

/-- The copy of the reply, as it is constructed. -/
def clone (parser : Parser) (m : AIMessage) (keptIds : List (Option String))
    (stopNote : Option String) : AIMessage :=
  construct parser (m.cloneWithToolCalls keptIds stopNote)

/-- The raw calls with one of the ids. -/
def keptRaw (m : AIMessage) (keptIds : List (Option String)) : List Json :=
  (m.rawCalls.getD []).filter fun c => (rawId c).any (· ∈ keptIds)

/-- What is read again as calls that cannot be read, where no call is kept. -/
def reread (parser : Parser) (m : AIMessage) (keptIds : List (Option String)) :
    List InvalidToolCall :=
  if (∀ c ∈ m.toolCalls, c.id ∉ keptIds) ∧ m.keptRaw keptIds ≠ [] then
    (parser (m.keptRaw keptIds)).2
  else []

/-- The reply `m'` differs from `m` only in the calls, read and raw, in `function_call` and
`finish_reason`, and in a note after its text. -/
structure Framed (m m' : AIMessage) (note : String) : Prop where
  id : m'.id = m.id
  name : m'.name = m.name
  usage : m'.usage = m.usage
  invalidToolCalls : m'.invalidToolCalls = m.invalidToolCalls
  content : m'.content = m.content ∨ ∃ s, m.content = .str s ∧ m'.content = .str (s ++ note)
  additionalKwargs : ∀ k, k ≠ "tool_calls" → k ≠ "function_call" →
    Json.get m'.additionalKwargs k = Json.get m.additionalKwargs k
  responseMetadata : ∀ k, k ≠ "finish_reason" →
    Json.get m'.responseMetadata k = Json.get m.responseMetadata k

/-- The reply has no name, does not say what tokens were used, and has no calls that cannot be read
but those that are read again. -/
structure Bare (parser : Parser) (m : AIMessage) (keptIds : List (Option String)) : Prop where
  name : m.name = none
  usage : m.usage = none
  invalidToolCalls : m.invalidToolCalls = m.reread parser keptIds

/-! ### The fields of a copy -/

section

variable (m : AIMessage) (keptIds : List (Option String)) (stopNote : Option String)

/-- The raw calls of a copy, before `function_call` is removed. -/
def keptKwargs : Json.Fields :=
  match Json.get m.additionalKwargs "tool_calls" with
  | some (.arr raw) =>
      match raw.filter fun c => (rawId c).any (· ∈ keptIds) with
      | [] => pop m.additionalKwargs "tool_calls"
      | filtered => set m.additionalKwargs "tool_calls" (.arr filtered)
  | _ => m.additionalKwargs

theorem additionalKwargs_cloneWithToolCalls :
  (m.cloneWithToolCalls keptIds stopNote).additionalKwargs =
    if (m.toolCalls.filter fun c => c.id ∈ keptIds).isEmpty then
      pop (m.keptKwargs keptIds) "function_call"
    else m.keptKwargs keptIds
  := rfl

/-- A field other than `function_call` is as before that is removed. -/
theorem get_additionalKwargs_cloneWithToolCalls {k : String} (h : k ≠ "function_call") :
  Json.get (m.cloneWithToolCalls keptIds stopNote).additionalKwargs k =
    Json.get (m.keptKwargs keptIds) k
  := by
  rw [additionalKwargs_cloneWithToolCalls]
  split
  · rw [get_pop, if_neg h]
  · rfl

/-- A field other than `tool_calls` is as in the reply. -/
theorem get_keptKwargs {k : String} (h : k ≠ "tool_calls") :
  Json.get (m.keptKwargs keptIds) k = Json.get m.additionalKwargs k
  := by
  rw [keptKwargs]
  split
  · split
    · rw [get_pop, if_neg h]
    · rw [get_set_of_ne _ _ h]
  · rfl

/-- A copy has of the raw calls those with one of the ids. -/
theorem rawCalls_cloneWithToolCalls :
  (m.cloneWithToolCalls keptIds stopNote).rawCalls.getD [] = m.keptRaw keptIds
  := by
  rw [rawCalls, get_additionalKwargs_cloneWithToolCalls m keptIds stopNote (by decide), keptRaw,
    rawCalls, keptKwargs]
  cases hraw : Json.get m.additionalKwargs "tool_calls" with
  | none => simp [hraw]
  | some v =>
      cases v with
      | arr raw =>
          dsimp only [Option.getD_some]
          cases raw.filter fun c => (rawId c).any (· ∈ keptIds) with
          | nil =>
              dsimp only
              rw [get_pop, if_pos rfl]
              rfl
          | cons c raw =>
              dsimp only
              rw [get_set]
              rfl
      | _ => simp [hraw]

theorem content_cloneWithToolCalls :
  (m.cloneWithToolCalls keptIds stopNote).content = m.content ∨
    ∃ s, m.content = .str s ∧ (m.cloneWithToolCalls keptIds stopNote).content =
      .str (s ++ stopNote.getD totalLimitStopMsg)
  := by
  cases h : m.content with
  | str s =>
      rw [cloneWithToolCalls, h]
      dsimp only
      split
      · exact .inr ⟨s, rfl, rfl⟩
      · exact .inl rfl
  | _ =>
      left
      rw [cloneWithToolCalls, h]

/-- A field of the metadata other than `finish_reason` is as in the reply. -/
theorem get_responseMetadata_cloneWithToolCalls {k : String} (h : k ≠ "finish_reason") :
  Json.get (m.cloneWithToolCalls keptIds stopNote).responseMetadata k =
    Json.get m.responseMetadata k
  := by
  rw [cloneWithToolCalls]
  dsimp only
  split
  · rw [get_set_of_ne _ _ h]
  · rfl

end

/-! ### What the constructor reads -/

section

variable (parser : Parser) (m : AIMessage)

/-- The constructor reads calls, and leaves everything else. -/
theorem construct_eq :
  construct parser m = { m with
    toolCalls := (construct parser m).toolCalls
    invalidToolCalls := (construct parser m).invalidToolCalls }
  := by
  rw [construct]
  split
  · split <;> rfl
  · rfl

variable (keptIds : List (Option String)) (stopNote : Option String)

/-- The calls of a copy that cannot be read are those that are read again. -/
theorem invalidToolCalls_clone :
  (clone parser m keptIds stopNote).invalidToolCalls = m.reread parser keptIds
  := by
  have hnone : (m.cloneWithToolCalls keptIds stopNote).toolCalls = [] ↔
      ∀ c ∈ m.toolCalls, c.id ∉ keptIds := by
    simp [List.filter_eq_nil_iff]
  have hinvalid : (m.cloneWithToolCalls keptIds stopNote).invalidToolCalls = [] := rfl
  rw [clone, construct, reread, rawCalls_cloneWithToolCalls]
  by_cases hkept : ∀ c ∈ m.toolCalls, c.id ∉ keptIds
  · rw [if_pos ⟨hnone.mpr hkept, hinvalid⟩]
    split
    · rename_i hraw
      rw [if_neg fun h => h.2 hraw]
      rfl
    · rename_i raw hraw
      rw [if_pos ⟨hkept, hraw⟩]
  · rw [if_neg fun h => hkept (hnone.mp h.1), if_neg fun h => hkept h.1]
    rfl

/-- **A copy changes only what it must exactly if there is nothing else that it could lose**: the
reply has no name, does not say what tokens were used, and has no calls that cannot be read
but those that are read again. -/
theorem framed_iff_bare :
  m.Framed (clone parser m keptIds stopNote) (stopNote.getD totalLimitStopMsg) ↔
    m.Bare parser keptIds
  := by
  have hclone := construct_eq parser (m.cloneWithToolCalls keptIds stopNote)
  rw [← clone] at hclone
  constructor
  · intro h
    constructor
    · have hname := h.name
      rw [hclone] at hname
      exact hname.symm
    · have husage := h.usage
      rw [hclone] at husage
      exact husage.symm
    · rw [← h.invalidToolCalls, invalidToolCalls_clone]
  · intro h
    constructor
    · rw [hclone]
      rfl
    · rw [hclone, h.name]
      rfl
    · rw [hclone, h.usage]
      rfl
    · rw [invalidToolCalls_clone, h.invalidToolCalls]
    · rw [hclone]
      apply content_cloneWithToolCalls
    · intro k hk hk'
      rw [hclone]
      dsimp only
      rw [get_additionalKwargs_cloneWithToolCalls m keptIds stopNote hk',
        m.get_keptKwargs keptIds hk]
    · intro k hk
      rw [hclone]
      apply m.get_responseMetadata_cloneWithToolCalls keptIds stopNote hk

end

/-- A copy of a reply that used 400 tokens does not say so. -/
theorem not_framed_used :
  ¬ ∀ (parser : Parser) (m : AIMessage) (keptIds : List (Option String))
      (stopNote : Option String),
    m.Framed (clone parser m keptIds stopNote) (stopNote.getD totalLimitStopMsg)
  := by
  intro h
  have husage := (h (fun _ => ([], []))
    { toolCalls := [{ name := "task", id := some "a" }], id := some "m"
      usage := some ⟨200, 200, 400⟩ } [] none).usage
  contradiction

end Agent.AIMessage
