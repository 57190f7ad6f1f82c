import Mathlib.Data.List.Sort
import GitAgent.Agent.Message
import GitAgent.Library.Recent

/-!
# The detector of loops

The middleware of the Lead that takes the calls of tools from a reply when the same calls are made
again and again, or a tool is called too often (`core/middleware/loop_detection.py`). Of the last
turns it keeps what their calls read as. A call reads as its name and some of its arguments, and as
all of them only if it has none of these, so that calls of which no salient argument differs are
taken for the same. Where as many turns read the same as ask for the same, the calls are removed
exactly at the bounds.
-/

namespace Agent

/-- `_SALIENT_ARG_KEYS`. -/
def salientArgKeys : List String :=
  ["command", "path", "url", "query", "pattern", "prompt"]

/-- `_LOOP_STOP_NOTE`. -/
def loopStopNote : String :=
  "\n\n[LOOP DETECTED] The same tool calls were repeated too many times; further tool calls were " ++
    "removed. Provide the final answer from what you already have."

/-- `_LOOP_WARNING`. -/
def loopWarning : String :=
  "[loop warning] You have repeated the same tool call several times with identical arguments. " ++
    "Change your approach: use different arguments, a different tool, or synthesize an answer " ++
    "from the results you already have."

/-- `_FREQ_WARNING`, for a tool. -/
def freqWarning (tool : String) : String :=
  "[loop warning] You are calling the tool '" ++ tool ++ "' very frequently. Step back, review " ++
    "what you already learned, and change strategy."

/-- How a float and a string are represented. -/
structure Reprs where
  float : ℤ → ℕ → String
  str : String → String

namespace Reprs

variable (R : Reprs)

mutual

/-- `repr` of a value. -/
def repr : Json → String
  | .null => "None"
  | .bool true => "True"
  | .bool false => "False"
  | .int n => toString n
  | .float num den => R.float num den
  | .str s => R.str s
  | .arr values => "[" ++ ", ".intercalate (reprValues values) ++ "]"
  | .obj fields => "\x7b" ++ ", ".intercalate (reprFields fields) ++ "\x7d"

/-- `repr` of each of some values. -/
def reprValues : List Json → List String
  | [] => []
  | v :: values => repr v :: reprValues values

/-- `repr` of each of some fields. -/
def reprFields : List (String × Json) → List String
  | [] => []
  | (k, v) :: fields => (R.str k ++ ": " ++ repr v) :: reprFields fields

end

/-- `str` of a value. -/
def text : Json → String
  | .str s => s
  | v => R.repr v

/-- `str(sorted(args.items()))`. -/
def items (args : Json.Fields) : String :=
  let sorted := args.insertionSort fun f g => f.1 ≤ g.1
  "[" ++ ", ".intercalate (sorted.map fun f => "(" ++ R.str f.1 ++ ", " ++ R.repr f.2 ++ ")") ++ "]"

/-- `_salient`. -/
def salient (call : ToolCall) : String :=
  let parts := salientArgKeys.filterMap fun key =>
    (Json.get call.args key).map fun v => key ++ "=" ++ R.text v
  ":".intercalate (call.name :: if parts = [] then [R.items call.args] else parts)

/-- What some calls read as, before it is hashed. -/
def canonical (calls : List ToolCall) : String :=
  "\n".intercalate ((calls.map R.salient).insertionSort (· ≤ ·))

end Reprs

/-- The parameters of `LoopDetectionMiddleware`. -/
structure LoopBounds where
  window : ℕ := 20
  identicalWarn : ℕ := 3
  identicalHard : ℕ := 5
  toolFreqWarn : ℕ := 30
  toolFreqHard : ℕ := 50

/-- The number of turns, and of calls, that are remembered. -/
def LoopBounds.span (bounds : LoopBounds) : ℕ :=
  max bounds.window (max bounds.identicalHard bounds.toolFreqHard)

/-- `LoopDetectionMiddleware`, with hashes in `δ`. -/
structure LoopDetection (δ : Type) where
  bounds : LoopBounds
  history : List δ := []
  toolHistory : List String := []
  warnedHashes : List δ := []
  warnedTools : List String := []
  pendingWarnings : List String := []
  stopReason : Option String := none

namespace LoopDetection

variable {δ : Type} [DecidableEq δ] (hash : String → δ) (R : Reprs)

/-- The detector that remembers the calls of one more turn. -/
def observe (d : LoopDetection δ) (calls : List ToolCall) : LoopDetection δ :=
  { d with
    history := Recent.push d.bounds.span d.history (hash (R.canonical calls))
    toolHistory := Recent.pushAll d.bounds.span d.toolHistory (calls.map ToolCall.name) }

/-- `after_model`: the detector, and the copy of the last reply if its calls are removed. -/
def afterModel (d : LoopDetection δ) (messages : List Message) :
    LoopDetection δ × Option AIMessage :=
  match lastReply messages with
  | none => (d, none)
  | some last =>
      if last.toolCalls = [] then (d, none)
      else
        let setHash := hash (R.canonical last.toolCalls)
        let d := d.observe hash R last.toolCalls
        let identicalCount := d.history.count setHash
        let hot := (Recent.mostCommon d.toolHistory).getD ("", 0)
        if d.bounds.identicalHard ≤ identicalCount ∨ d.bounds.toolFreqHard ≤ hot.2 then
          ({ d with stopReason := some "loop_capped" }, some (last.stripAllToolCalls loopStopNote))
        else if d.bounds.identicalWarn ≤ identicalCount ∧ setHash ∉ d.warnedHashes then
          ({ d with
              warnedHashes := setHash :: d.warnedHashes
              pendingWarnings := d.pendingWarnings ++ [loopWarning] }, none)
        else if d.bounds.toolFreqWarn ≤ hot.2 ∧ hot.1 ∉ d.warnedTools then
          ({ d with
              warnedTools := hot.1 :: d.warnedTools
              pendingWarnings := d.pendingWarnings ++ [freqWarning hot.1] }, none)
        else (d, none)

/-- Some calls reach a bound. -/
def Stops (d : LoopDetection δ) (calls : List ToolCall) : Prop :=
  let d' := d.observe hash R calls
  calls ≠ [] ∧ (d'.bounds.identicalHard ≤ d'.history.count (hash (R.canonical calls)) ∨
    d'.bounds.toolFreqHard ≤ ((Recent.mostCommon d'.toolHistory).getD ("", 0)).2)

instance (d : LoopDetection δ) (calls : List ToolCall) : Decidable (d.Stops hash R calls) :=
  inferInstanceAs (Decidable (_ ∧ _))

/-- `_drain`: the warnings go to the model. -/
def drain (d : LoopDetection δ) : LoopDetection δ :=
  { d with pendingWarnings := [] }

/-- The detector after the hook was called with each of the lists of messages in turn. -/
def afterModels (d : LoopDetection δ) (lists : List (List Message)) : LoopDetection δ :=
  lists.foldl (fun d messages => (d.afterModel hash R messages).1) d

end LoopDetection

end Agent

/-! ### The same calls -/

namespace Json

mutual

/-- The value, with the fields of its objects in the order of their names. -/
def normal : Json → Json
  | .arr values => .arr (normalValues values)
  | .obj fields => .obj ((normalFields fields).insertionSort fun f g => f.1 ≤ g.1)
  | v => v

/-- Some values, each in normal form. -/
def normalValues : List Json → List Json
  | [] => []
  | v :: values => normal v :: normalValues values

/-- Some fields, with the value of each in normal form. -/
def normalFields : List (String × Json) → List (String × Json)
  | [] => []
  | (k, v) :: fields => (k, normal v) :: normalFields fields

end

end Json

namespace Agent

/-- What a call asks for: the tool, and all the arguments. -/
def ToolCall.request (c : ToolCall) : String × Json :=
  (c.name, Json.normal (.obj c.args))

/-- Both turns ask for the same, in any order. -/
def SameCalls (calls calls' : List ToolCall) : Prop :=
  (calls.map ToolCall.request).Perm (calls'.map ToolCall.request)

instance (calls calls' : List ToolCall) : Decidable (SameCalls calls calls') :=
  inferInstanceAs (Decidable (List.Perm _ _))

/-- The calls that the last reply asks for. -/
def requested (messages : List Message) : List ToolCall :=
  ((lastReply messages).map AIMessage.toolCalls).getD []

/-- The turns that ask for calls. -/
def turns (lists : List (List Message)) : List (List ToolCall) :=
  (lists.map requested).filter (· ≠ [])

namespace LoopBounds

variable (bounds : LoopBounds) (R : Reprs) (turns : List (List ToolCall)) (calls : List ToolCall)

/-- Some tool is called as often as it may be in the last calls. -/
def Hot : Prop :=
  ∃ name, bounds.toolFreqHard ≤ ((turns.flatten.map ToolCall.name).rtake bounds.span).count name

/-- As many of the last turns as may ask for the same as these calls, or a tool is called as often
as it may be. -/
def Repeats : Prop :=
  bounds.identicalHard ≤ (turns.rtake bounds.span).countP (SameCalls calls) ∨ bounds.Hot turns

/-- A tool is called as often as it may be, or the turns that read as these calls are
as many as may be exactly if those that ask for the same are. -/
def TellsApart : Prop :=
  bounds.Hot turns ∨
    (bounds.identicalHard ≤
        (turns.rtake bounds.span).countP (fun calls' => R.canonical calls = R.canonical calls') ↔
      bounds.identicalHard ≤ (turns.rtake bounds.span).countP (SameCalls calls))

end LoopBounds

/-! ### What the detector counts -/

theorem turns_append (lists lists' : List (List Message)) :
  turns (lists ++ lists') = turns lists ++ turns lists'
  := by rw [turns, List.map_append, List.filter_append, turns, turns]

/-- A reply with calls is a turn. -/
theorem turns_singleton {messages : List Message} {last : AIMessage}
    (h : lastReply messages = some last) :
  turns [messages] = if last.toolCalls = [] then [] else [last.toolCalls]
  := by
  rw [turns, List.map_singleton, requested, h, Option.map_some, Option.getD_some]
  split <;> simp_all

/-- Without a reply there is no turn. -/
theorem turns_of_none {messages : List Message} (h : lastReply messages = none) :
  turns [messages] = []
  := by simp [turns, requested, h]

namespace LoopDetection

variable {δ : Type} {hash : String → δ} {R : Reprs} {d d' : LoopDetection δ}
variable {bounds : LoopBounds} {ts : List (List ToolCall)}

/-- The detector remembers what the last turns read as, and the tools that were called last. -/
structure Follows (hash : String → δ) (R : Reprs) (bounds : LoopBounds)
    (ts : List (List ToolCall)) (d : LoopDetection δ) : Prop where
  limits : d.bounds = bounds
  history : d.history = (ts.map (hash ∘ R.canonical)).rtake bounds.span
  toolHistory : d.toolHistory = (ts.flatten.map ToolCall.name).rtake bounds.span

/-- What is remembered does not depend on the warnings. -/
theorem Follows.congr (h : Follows hash R bounds ts d) (hb : d'.bounds = d.bounds)
    (hh : d'.history = d.history) (ht : d'.toolHistory = d.toolHistory) :
  Follows hash R bounds ts d'
  := ⟨hb.trans h.limits, hh.trans h.history, ht.trans h.toolHistory⟩

theorem Follows.observe (h : Follows hash R bounds ts d) (calls : List ToolCall) :
  Follows hash R bounds (ts ++ [calls]) (d.observe hash R calls)
  := by
  constructor
  · apply h.limits
  · rw [LoopDetection.observe, h.limits, h.history, Recent.push_rtake, List.map_append]
    rfl
  · rw [LoopDetection.observe, h.limits, h.toolHistory, Recent.pushAll_rtake, List.flatten_append,
      List.map_append, List.flatten_singleton]

/-- The detector finds a tool that is called too often exactly if there is one. -/
theorem Follows.hot_iff (h : Follows hash R bounds ts d) :
  bounds.toolFreqHard ≤ ((Recent.mostCommon d.toolHistory).getD ("", 0)).2 ↔ bounds.Hot ts
  := by rw [Recent.le_mostCommon_iff, LoopBounds.Hot, h.toolHistory]

variable [DecidableEq δ]

/-- The hook remembers the turn, if the last reply is one. -/
theorem Follows.afterModel (h : Follows hash R bounds ts d) (messages : List Message) :
  Follows hash R bounds (ts ++ turns [messages]) (d.afterModel hash R messages).1
  := by
  rw [LoopDetection.afterModel]
  cases hl : lastReply messages with
  | none =>
      rw [turns_of_none hl, List.append_nil]
      apply h
  | some last =>
      rw [turns_singleton hl]
      dsimp only
      split
      · rw [List.append_nil]
        apply h
      · have := h.observe last.toolCalls
        split
        · exact this.congr rfl rfl rfl
        · split
          · exact this.congr rfl rfl rfl
          · split
            · exact this.congr rfl rfl rfl
            · apply this

theorem Follows.afterModels (h : Follows hash R bounds ts d) (lists : List (List Message)) :
  Follows hash R bounds (ts ++ turns lists) (d.afterModels hash R lists)
  := by
  induction lists generalizing d ts with
  | nil =>
      rw [show turns [] = [] from rfl, List.append_nil]
      apply h
  | cons messages lists ih =>
      rw [← List.singleton_append, turns_append, ← List.append_assoc]
      apply ih (h.afterModel messages)

/-- The turns that are hashed as some calls are those that read as these. -/
theorem Follows.count_history (h : Follows hash R bounds ts d) (hash_inj : hash.Injective)
    (calls : List ToolCall) :
  d.history.count (hash (R.canonical calls)) =
    (ts.rtake bounds.span).countP fun calls' => R.canonical calls = R.canonical calls'
  := by
  rw [h.history, Recent.rtake_map, List.count, List.countP_map]
  apply List.countP_congr
  intro calls' _
  rw [Function.comp_apply, Function.comp_apply, beq_iff_eq, hash_inj.eq_iff, decide_eq_true_eq,
    eq_comm]

/-- The hook takes the calls from the last reply exactly if a bound is reached. -/
theorem afterModel_snd (d : LoopDetection δ) (messages : List Message) :
  (d.afterModel hash R messages).2 = (lastReply messages).bind fun last =>
    if d.Stops hash R last.toolCalls then some (last.stripAllToolCalls loopStopNote) else none
  := by
  rw [LoopDetection.afterModel]
  cases lastReply messages with
  | none => rfl
  | some last =>
      simp only [Option.bind_some]
      split
      · rename_i hcalls
        have hn : ¬ d.Stops hash R last.toolCalls := fun hs => hs.1 hcalls
        rw [if_neg hn]
      · rename_i hcalls
        split
        · rename_i hstop
          rw [if_pos ⟨hcalls, hstop⟩]
        · rename_i hgo
          have hn : ¬ d.Stops hash R last.toolCalls := fun hs => hgo hs.2
          rw [if_neg hn]
          split
          · rfl
          · split <;> rfl

/-- A bound is reached exactly if as many turns as may read as these calls do, or a tool is called
as often as it may be. -/
theorem Follows.stops_iff (h : Follows hash R bounds ts d) (hash_inj : hash.Injective)
    {calls : List ToolCall} (hcalls : calls ≠ []) :
  d.Stops hash R calls ↔
    bounds.identicalHard ≤ ((ts ++ [calls]).rtake bounds.span).countP
        (fun calls' => R.canonical calls = R.canonical calls') ∨
      bounds.Hot (ts ++ [calls])
  := by
  have ho := h.observe calls
  rw [← ho.count_history hash_inj, ← ho.hot_iff, LoopDetection.Stops, ho.limits]
  apply and_iff_right hcalls

/-- After any replies the calls are removed exactly if as many turns as may read as these do, or a
tool is called as often as it may be. -/
theorem strips_afterModels_iff (hash_inj : hash.Injective) (lists : List (List Message))
    {messages : List Message} {last : AIMessage} (hlast : lastReply messages = some last)
    (hcalls : last.toolCalls ≠ []) :
  ((afterModels hash R { bounds } lists).afterModel hash R messages).2 =
      some (last.stripAllToolCalls loopStopNote) ↔
    bounds.identicalHard ≤ ((turns (lists ++ [messages])).rtake bounds.span).countP
        (fun calls' => R.canonical last.toolCalls = R.canonical calls') ∨
      bounds.Hot (turns (lists ++ [messages]))
  := by
  have hnone : Follows hash R bounds [] { bounds } :=
    ⟨rfl, (List.rtake_nil _).symm, (List.rtake_nil _).symm⟩
  have hd : Follows hash R bounds (turns lists) (afterModels hash R { bounds } lists) := by
    have := hnone.afterModels lists
    rwa [List.nil_append] at this
  have hts : turns (lists ++ [messages]) = turns lists ++ [last.toolCalls] := by
    rw [turns_append, turns_singleton hlast, if_neg hcalls]
  rw [hts, ← hd.stops_iff hash_inj hcalls, afterModel_snd, hlast, Option.bind_some]
  split
  · rename_i hs
    exact iff_of_true rfl hs
  · rename_i hs
    exact iff_of_false nofun hs

/-- A reply that calls a tool. -/
def callingReply (name : String) (args : Json.Fields) : AIMessage where
  toolCalls := [{ name, args, id := some "c" }]
  id := some "ai-1"

/-- A reply that reads a part of a file. -/
def readingReply (offset : ℤ) : AIMessage :=
  callingReply "read_file" [("path", .str "a.py"), ("offset", .int offset)]

end LoopDetection

end Agent
