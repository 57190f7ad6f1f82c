import GitAgent.Agent.Result
import GitAgent.Library.Utf8

/-!
# The metadata of a delegation

What the answer of a delegation tells programs (`core/subagents/contract.py`): how it is written for
a result of any kind, and how it is read by a reader who does not trust it. Where an operation of the
language fails, so does the model of it, and `none` is what the reader comes to then.
-/

namespace Agent

/-! ### Values of the language -/

/-- A key of a dictionary: a text, or something else. -/
inductive Key
  | text (s : String)
  | other (n : ℕ)
  deriving DecidableEq, Repr

/-- A value, as far as the reader tells values apart. -/
inductive Value
  | str (s : String)
  | bool (b : Bool)
  | int (n : ℤ)
  | list (values : List Value)
  | dict (items : List (Key × Value))
  | other (n : ℕ)

namespace Value

abbrev Items := List (Key × Value)

/-- The value of a key, if there is one. -/
def at? (items : Items) (k : String) : Option Value :=
  items.lookup (.text k)

/-- An item that is there only where its value is. -/
def item (k : String) (v : Option Value) : Items :=
  v.toList.map fun v => (.text k, v)

/-- `isinstance(v, str)`. -/
def isStr : Option Value → Bool
  | some (str _) => true
  | _ => false

/-- `isinstance(v, bool)`. -/
def isBool : Option Value → Bool
  | some (bool _) => true
  | _ => false

/-- `isinstance(v, int)`, which a truth value is too. -/
def isInt : Option Value → Bool
  | some (int _) | some (bool _) => true
  | _ => false

/-- `isinstance(v, list)`. -/
def isList : Option Value → Bool
  | some (list _) => true
  | _ => false

/-- `isinstance(v, dict)`. -/
def isDict : Option Value → Bool
  | some (dict _) => true
  | _ => false

/-- `v.get(k)`, which fails for what is no dictionary. -/
def get? : Option Value → String → Option (Option Value)
  | some (dict items), k => some (at? items k)
  | _, _ => none

/-- `v < 0`, which fails for what is no number. -/
def negative? : Option Value → Option Bool
  | some (int n) => some (n < 0)
  | some (bool _) => some false
  | _ => none

/-- The number that an integer is. -/
def toNat : Option Value → ℕ
  | some (int n) => n.toNat
  | _ => 0

/-- The text that a value is. -/
def str? : Option Value → Option String
  | some (str s) => some s
  | _ => none

/-- The text that a value is, if it is one that is not empty. -/
def text? : Option Value → Option String
  | some (str s) => if s = "" then none else some s
  | _ => none

/-- The value, if it is one of some texts. -/
def oneOf (texts : List String) : Option Value → Option String
  | some (str s) => if s ∈ texts then some s else none
  | _ => none

/-- The items of a value, if it is a dictionary. -/
def items? : Option Value → Option Items
  | some (dict items) => some items
  | _ => none

/-- The values of a list, which fails for what is none. -/
def values? : Option Value → Option (List Value)
  | some (list values) => some values
  | _ => none

end Value

/-! ### Parts of the metadata -/

/-- `SUBAGENT_STATUS_VALUES`. -/
def subagentStatusValues : List String :=
  ["completed", "failed", "cancelled", "timed_out"]

/-- `SUBAGENT_STOP_REASON_VALUES`. -/
def subagentStopReasonValues : List String :=
  ["token_capped", "turn_capped", "loop_capped"]

/-- The usage of a delegation. -/
structure TokenUsage where
  inputTokens : ℕ
  outputTokens : ℕ
  totalTokens : ℕ
  deriving DecidableEq, Repr

/-- The usage as a dictionary. -/
def TokenUsage.toItems (u : TokenUsage) : Value.Items :=
  [(.text "input_tokens", .int u.inputTokens), (.text "output_tokens", .int u.outputTokens),
    (.text "total_tokens", .int u.totalTokens)]

/-- A count of `normalize_token_usage`: an integer that is not negative. -/
def countOf (item : Option Value) : Option (Option ℕ) :=
  if Value.isBool item || !Value.isInt item then some none
  else do
    if ← Value.negative? item then return none
    return some (Value.toNat item)

/-- `normalize_token_usage`. -/
def usageOf (value : Option Value) : Option (Option TokenUsage) :=
  if !Value.isDict value then some none
  else do
    let some inputTokens ← countOf (← Value.get? value "input_tokens") | return none
    let some outputTokens ← countOf (← Value.get? value "output_tokens") | return none
    let some totalTokens ← countOf (← Value.get? value "total_tokens") | return none
    return some { inputTokens, outputTokens, totalTokens }

/-- `_truncate_head_tail`, which fails for what is no text. -/
def truncated : Option Value → Option String
  | some (.str s) => some (truncateHeadTail s)
  | _ => none

/-- `_SHA256_HEX_RE`. -/
def isSha256Hex (s : String) : Bool :=
  s.toList.length = 64 && s.toList.all fun c => ('0' ≤ c && c ≤ '9') || ('a' ≤ c && c ≤ 'f')

/-- `fullmatch`, which fails for what is no text. -/
def fullmatch : Option Value → Option Bool
  | some (.str s) => some (isSha256Hex s)
  | _ => none

/-- `StructuredSubagentResult`. -/
structure StructuredSubagentResult where
  status : String
  stopReason : Option String := none
  error : Option String := none
  resultBrief : Option String := none
  resultSha256 : Option String := none
  modelName : Option String := none
  tokenUsage : Option TokenUsage := none
  toolReceipts : Option (List Value.Items) := none
  receiptVerdict : Option Value.Items := none

/-- The result under the keys of the wire. -/
def StructuredSubagentResult.wire (r : StructuredSubagentResult) : Value.Items :=
  (.text "subagent_status", .str r.status) ::
    (Value.item "subagent_stop_reason" (r.stopReason.map .str) ++
    (Value.item "subagent_error" (r.error.map .str) ++
    (Value.item "subagent_result_brief" (r.resultBrief.map .str) ++
    (Value.item "subagent_result_sha256" (r.resultSha256.map .str) ++
    (Value.item "subagent_model_name" (r.modelName.map .str) ++
    (Value.item "subagent_token_usage" (r.tokenUsage.map fun u => .dict u.toItems) ++
    (Value.item "subagent_tool_receipts" (r.toolReceipts.map fun rs => .list (rs.map .dict)) ++
    Value.item "subagent_receipt_verdict" (r.receiptVerdict.map .dict))))))))

/-! ### The reader -/

/-- A text that is not empty, truncated. -/
def readText (v : Option Value) : Option (Option String) :=
  if Value.isStr v && (Value.text? v).isSome then (truncated v).map some else some none

/-- A hash. -/
def readHash (v : Option Value) : Option (Option String) := do
  if Value.isStr v then
    if ← fullmatch v then return Value.str? v
  return none

/-- The receipts, of which only dictionaries are read. -/
def readReceipts (v : Option Value) : Option (Option (List Value.Items)) :=
  if Value.isList v then
    (Value.values? v).map fun values => some (values.filterMap fun r => Value.items? (some r))
  else some none

/-- `read_subagent_result_metadata`. -/
def readSubagentResultMetadata (kwargs : Option Value) :
    Option (Option StructuredSubagentResult) :=
  if !Value.isDict kwargs then some none
  else do
    let some status := Value.oneOf subagentStatusValues (← Value.get? kwargs "subagent_status")
      | return none
    let stopReason ← Value.get? kwargs "subagent_stop_reason"
    let error ← readText (← Value.get? kwargs "subagent_error")
    let resultBrief ← readText (← Value.get? kwargs "subagent_result_brief")
    let resultSha256 ← readHash (← Value.get? kwargs "subagent_result_sha256")
    let modelName ← Value.get? kwargs "subagent_model_name"
    let tokenUsage ← usageOf (← Value.get? kwargs "subagent_token_usage")
    let toolReceipts ← readReceipts (← Value.get? kwargs "subagent_tool_receipts")
    let receiptVerdict ← Value.get? kwargs "subagent_receipt_verdict"
    return some {
      status, error, resultBrief, resultSha256, tokenUsage, toolReceipts
      stopReason := Value.oneOf subagentStopReasonValues stopReason
      modelName := Value.text? modelName
      receiptVerdict := Value.items? receiptVerdict }

/-! ### The writer -/

/-- `hashlib.sha256`, which gives 32 bytes. -/
structure Sha256 where
  digest : List UInt8 → List UInt8
  length : ∀ bytes, (digest bytes).length = 32

/-- A hexadecimal digit. -/
def hexChar (n : ℕ) : Char :=
  Nat.digitChar (n % 16)

/-- `hexdigest`, of the encoded text. -/
def Sha256.hexdigest (H : Sha256) (text : String) : String :=
  String.ofList ((H.digest (Utf8.encode text.toList)).flatMap fun b =>
    [hexChar (b.toNat / 16), hexChar b.toNat])

/-- The arguments of `make_subagent_additional_kwargs`. -/
structure MetadataArgs where
  status : SubagentStatus
  result : Option String := none
  error : Option String := none
  stopReason : Option String := none
  modelName : Option String := none
  tokenUsage : Option Value := none
  toolReceipts : Option (List Value.Items) := none
  receiptVerdict : Option Value.Items := none

/-- A text that counts as true. -/
def truthyText (s : Option String) : Option String :=
  s.filter (· ≠ "")

/-- `make_subagent_additional_kwargs`, which fails for a status that ends nothing, and for a reason
to stop that is unknown. -/
def subagentAdditionalKwargs (H : Sha256) (args : MetadataArgs) : Option Value.Items := do
  if args.status.value ∉ subagentStatusValues then none
  if args.stopReason.any (· ∉ subagentStopReasonValues) then none
  let error := if args.status = .completed then none else truthyText args.error
  let result := if args.status = .completed then truthyText args.result else none
  let usage ← usageOf args.tokenUsage
  return Value.item "subagent_status" (some (.str args.status.value)) ++
    Value.item "subagent_stop_reason" (args.stopReason.map .str) ++
    Value.item "subagent_error" (error.map fun e => .str (truncateHeadTail e)) ++
    Value.item "subagent_result_brief" (result.map fun r => .str (truncateHeadTail r)) ++
    Value.item "subagent_result_sha256" (result.map fun r => .str (H.hexdigest r)) ++
    Value.item "subagent_model_name" ((truthyText args.modelName).map .str) ++
    Value.item "subagent_token_usage" (usage.map fun u => .dict u.toItems) ++
    Value.item "subagent_tool_receipts" (args.toolReceipts.map fun rs => .list (rs.map .dict)) ++
    Value.item "subagent_receipt_verdict" (args.receiptVerdict.map .dict)

/-! ### What is read back -/

/-- A value is the usage: a dictionary with its three counts. -/
def IsUsage (v : Option Value) (u : TokenUsage) : Prop :=
  ∃ items, v = some (.dict items) ∧ Value.at? items "input_tokens" = some (.int u.inputTokens) ∧
    Value.at? items "output_tokens" = some (.int u.outputTokens) ∧
    Value.at? items "total_tokens" = some (.int u.totalTokens)

/-- The error of a delegation that has not completed. -/
def MetadataArgs.errorText (args : MetadataArgs) : Option String :=
  if args.status = .completed then none else args.error

/-- The result of a delegation that has completed. -/
def MetadataArgs.resultText (args : MetadataArgs) : Option String :=
  if args.status = .completed then args.result else none

/-- What is read is what was written: the error or the result truncated once, with the hash of the
whole result, the usage if it is one, and all else as it was. -/
structure SameAs (H : Sha256) (args : MetadataArgs) (r : StructuredSubagentResult) : Prop where
  status : r.status = args.status.value
  stopReason : r.stopReason = args.stopReason
  modelName : r.modelName = args.modelName
  error : r.error = args.errorText.map truncateHeadTail
  resultBrief : r.resultBrief = args.resultText.map truncateHeadTail
  resultSha256 : r.resultSha256 = args.resultText.map H.hexdigest
  tokenUsage : ∀ u, r.tokenUsage = some u ↔ IsUsage args.tokenUsage u
  toolReceipts : r.toolReceipts = args.toolReceipts
  receiptVerdict : r.receiptVerdict = args.receiptVerdict

/-- The arguments without texts that are empty. -/
def MetadataArgs.truthy (args : MetadataArgs) : MetadataArgs where
  status := args.status
  result := truthyText args.result
  error := truthyText args.error
  stopReason := args.stopReason
  modelName := truthyText args.modelName
  tokenUsage := args.tokenUsage
  toolReceipts := args.toolReceipts
  receiptVerdict := args.receiptVerdict

/-! ### Truncation -/

theorem truncateHeadTail_of_le {text : String} (h : text.toList.length ≤ 2000) :
  truncateHeadTail text = text
  := by rw [truncateHeadTail, if_pos h]

/-- A text is truncated to at most 2000 characters. -/
theorem length_truncateHeadTail (text : String) :
  (truncateHeadTail text).toList.length ≤ 2000
  := by
  rw [truncateHeadTail]
  split
  · assumption
  · rw [String.toList_ofList, List.length_append, List.length_append, List.length_take,
      List.length_drop]
    have hdots : "\n...\n".toList.length = 5 := by decide
    omega

/-- To truncate a text twice is to truncate it once. -/
theorem truncateHeadTail_idem (text : String) :
  truncateHeadTail (truncateHeadTail text) = truncateHeadTail text
  := truncateHeadTail_of_le (length_truncateHeadTail text)

theorem truncateHeadTail_ne_empty {text : String} (h : text ≠ "") :
  truncateHeadTail text ≠ ""
  := by
  rw [truncateHeadTail]
  split
  · exact h
  · intro hempty
    have hlength := congrArg (fun s => s.toList.length) hempty
    simp at hlength

/-! ### The parts -/

namespace Value

@[simp]
theorem at?_nil (k : String) :
  at? [] k = none
  := rfl

@[simp]
theorem at?_cons (k k' : String) (v : Value) (items : Items) :
  at? ((.text k', v) :: items) k = if k = k' then some v else at? items k
  := by
  rw [at?, List.lookup_cons, at?]
  by_cases h : k = k'
  · simp [h]
  · have hne : (Key.text k == Key.text k') = false := by simp [h]
    simp [h, hne]

@[simp]
theorem at?_item_append (k k' : String) (v : Option Value) (items : Items) :
  at? (item k' v ++ items) k = if k = k' then v.or (at? items k) else at? items k
  := by
  cases v with
  | none => simp [item]
  | some v => simp [item]

@[simp]
theorem at?_item (k k' : String) (v : Option Value) :
  at? (item k' v) k = if k = k' then v else none
  := by
  have h := at?_item_append k k' v []
  rwa [List.append_nil, at?_nil, Option.or_none] at h

end Value

/-- A count is read of an integer that is not negative, and of nothing else. -/
theorem countOf_eq (item : Option Value) :
  ∃ n, countOf item = some n ∧ ∀ k : ℕ, n = some k ↔ item = some (.int k)
  := by
  cases item with
  | none => exact ⟨none, rfl, by simp⟩
  | some v =>
      cases v with
      | int n =>
          by_cases hn : n < 0
          · refine ⟨none, by simp [countOf, Value.isBool, Value.isInt, Value.negative?, hn], ?_⟩
            intro k
            simp only [reduceCtorEq, false_iff]
            rintro ⟨⟩
            omega
          · refine ⟨some n.toNat,
              by simp [countOf, Value.isBool, Value.isInt, Value.negative?, Value.toNat, hn], ?_⟩
            intro k
            simp only [Option.some.injEq, Value.int.injEq]
            omega
      | str s => exact ⟨none, rfl, by simp⟩
      | bool b => exact ⟨none, rfl, by simp⟩
      | list vs => exact ⟨none, rfl, by simp⟩
      | dict items => exact ⟨none, rfl, by simp⟩
      | other n => exact ⟨none, rfl, by simp⟩

theorem isUsage_dict {items : Value.Items} {u : TokenUsage} :
  IsUsage (some (.dict items)) u ↔
    Value.at? items "input_tokens" = some (.int u.inputTokens) ∧
    Value.at? items "output_tokens" = some (.int u.outputTokens) ∧
    Value.at? items "total_tokens" = some (.int u.totalTokens)
  := by
  constructor
  · rintro ⟨_, heq, h⟩
    cases heq
    exact h
  · intro h
    exact ⟨items, rfl, h⟩

/-- The usage is read of a value that is one, and of nothing else. -/
theorem usageOf_eq (v : Option Value) :
  ∃ u, usageOf v = some u ∧ ∀ t, u = some t ↔ IsUsage v t
  := by
  by_cases hdict : ∃ items, v = some (.dict items)
  · obtain ⟨items, rfl⟩ := hdict
    obtain ⟨i, hi, hi'⟩ := countOf_eq (Value.at? items "input_tokens")
    obtain ⟨o, ho, ho'⟩ := countOf_eq (Value.at? items "output_tokens")
    obtain ⟨t, ht, ht'⟩ := countOf_eq (Value.at? items "total_tokens")
    refine ⟨i.bind fun i => o.bind fun o => t.map fun t => ⟨i, o, t⟩, ?_, ?_⟩
    · rw [usageOf, if_neg (by simp [Value.isDict])]
      cases i <;> cases o <;> cases t <;> simp [Value.get?, hi, ho, ht]
    · rintro ⟨a, b, c⟩
      rw [isUsage_dict, ← hi', ← ho', ← ht']
      simp only [Option.bind_eq_some_iff, Option.map_eq_some_iff, TokenUsage.mk.injEq]
      constructor
      · rintro ⟨_, hi, _, ho, _, ht, rfl, rfl, rfl⟩
        exact ⟨hi, ho, ht⟩
      · rintro ⟨hi, ho, ht⟩
        exact ⟨a, hi, b, ho, c, ht, rfl, rfl, rfl⟩
  · refine ⟨none, ?_, ?_⟩
    · rcases v with _ | ⟨_⟩ | _ | _ | _ | ⟨items⟩ | _
      case some.dict => exact absurd ⟨items, rfl⟩ hdict
      all_goals rfl
    · intro t
      simp only [reduceCtorEq, false_iff]
      rintro ⟨items, rfl, -⟩
      exact hdict ⟨items, rfl⟩

theorem usageOf_toItems (u : TokenUsage) :
  usageOf (some (.dict u.toItems)) = some (some u)
  := by
  obtain ⟨t, ht, hiff⟩ := usageOf_eq (some (.dict u.toItems))
  have husage : IsUsage (some (.dict u.toItems)) u := by simp [isUsage_dict, TokenUsage.toItems]
  rw [ht, (hiff u).mpr husage]

/-- A text is read if it is not empty, and truncated. -/
theorem readText_eq (v : Option Value) :
  readText v = some ((Value.text? v).map truncateHeadTail)
  := by
  rcases v with _ | ⟨s⟩ | _ | _ | _ | _ | _
  · rfl
  · by_cases hs : s = "" <;> simp [readText, Value.isStr, Value.text?, truncated, hs]
  · rfl
  · rfl
  · rfl
  · rfl
  · rfl

/-- A hash is read if it is one. -/
theorem readHash_eq (v : Option Value) :
  readHash v = some ((Value.str? v).filter isSha256Hex)
  := by
  rcases v with _ | ⟨s⟩ | _ | _ | _ | _ | _
  · rfl
  · cases hs : isSha256Hex s <;>
      simp [readHash, Value.isStr, Value.str?, fullmatch, hs, Option.filter]
  · rfl
  · rfl
  · rfl
  · rfl
  · rfl

/-- The receipts are read of a list. -/
theorem readReceipts_eq (v : Option Value) :
  readReceipts v = some ((Value.values? v).map fun values =>
    values.filterMap fun r => Value.items? (some r))
  := by rcases v with _ | ⟨s⟩ | _ | _ | _ | _ | _ <;> rfl

/-- **The reader does not fail**, whatever it is given, and these are the parts that it reads. -/
theorem readSubagentResultMetadata_dict (items : Value.Items) :
  ∃ usage, usageOf (Value.at? items "subagent_token_usage") = some usage ∧
    readSubagentResultMetadata (some (.dict items)) =
      some ((Value.oneOf subagentStatusValues (Value.at? items "subagent_status")).map fun status =>
        { status
          stopReason := Value.oneOf subagentStopReasonValues
            (Value.at? items "subagent_stop_reason")
          error := (Value.text? (Value.at? items "subagent_error")).map truncateHeadTail
          resultBrief := (Value.text? (Value.at? items "subagent_result_brief")).map
            truncateHeadTail
          resultSha256 := (Value.str? (Value.at? items "subagent_result_sha256")).filter isSha256Hex
          modelName := Value.text? (Value.at? items "subagent_model_name")
          tokenUsage := usage
          toolReceipts := (Value.values? (Value.at? items "subagent_tool_receipts")).map
            fun values => values.filterMap fun r => Value.items? (some r)
          receiptVerdict := Value.items? (Value.at? items "subagent_receipt_verdict") })
  := by
  obtain ⟨usage, husage, -⟩ := usageOf_eq (Value.at? items "subagent_token_usage")
  refine ⟨usage, husage, ?_⟩
  rw [readSubagentResultMetadata, if_neg (by simp [Value.isDict])]
  cases hstatus : Value.oneOf subagentStatusValues (Value.at? items "subagent_status") <;>
    simp [Value.get?, hstatus, readText_eq, readHash_eq, readReceipts_eq, husage]

/-! ### Round trips -/

/-- What the reader gives, and the writer writes: known values, and texts that are not empty and not
too long. -/
structure StructuredSubagentResult.Wf (r : StructuredSubagentResult) : Prop where
  status : r.status ∈ subagentStatusValues
  stopReason : ∀ s ∈ r.stopReason, s ∈ subagentStopReasonValues
  error : ∀ s ∈ r.error, s ≠ "" ∧ s.toList.length ≤ 2000
  resultBrief : ∀ s ∈ r.resultBrief, s ≠ "" ∧ s.toList.length ≤ 2000
  resultSha256 : ∀ s ∈ r.resultSha256, isSha256Hex s = true
  modelName : ∀ s ∈ r.modelName, s ≠ ""

theorem oneOf_str {texts : List String} {s : Option String} (h : ∀ t ∈ s, t ∈ texts) :
  Value.oneOf texts (s.map .str) = s
  := by
  cases s with
  | none => rfl
  | some t => rw [Option.map_some, Value.oneOf, if_pos (h t rfl)]

theorem text?_str {s : Option String} (h : ∀ t ∈ s, t ≠ "") :
  Value.text? (s.map .str) = s
  := by
  cases s with
  | none => rfl
  | some t => rw [Option.map_some, Value.text?, if_neg (h t rfl)]

theorem map_truncateHeadTail {s : Option String} (h : ∀ t ∈ s, t.toList.length ≤ 2000) :
  s.map truncateHeadTail = s
  := by
  cases s with
  | none => rfl
  | some t => rw [Option.map_some, truncateHeadTail_of_le (h t rfl)]

theorem usageOf_dict (u : Option TokenUsage) :
  usageOf (u.map fun u => .dict u.toItems) = some u
  := by
  cases u with
  | none => rfl
  | some u => apply usageOf_toItems

theorem values?_list (rs : Option (List Value.Items)) :
  (Value.values? (rs.map fun rs => .list (rs.map .dict))).map
    (fun values => values.filterMap fun r => Value.items? (some r)) = rs
  := by
  cases rs with
  | none => rfl
  | some rs =>
      rw [Option.map_some, Value.values?, Option.map_some, List.filterMap_map]
      apply congrArg some
      apply List.filterMap_some

/-- What stands under the keys of the wire. -/
theorem at?_wire (r : StructuredSubagentResult) :
  (Value.at? r.wire "subagent_status" = some (.str r.status) ∧
    Value.at? r.wire "subagent_stop_reason" = r.stopReason.map .str ∧
    Value.at? r.wire "subagent_error" = r.error.map .str ∧
    Value.at? r.wire "subagent_result_brief" = r.resultBrief.map .str) ∧
  (Value.at? r.wire "subagent_result_sha256" = r.resultSha256.map .str ∧
    Value.at? r.wire "subagent_model_name" = r.modelName.map .str) ∧
  Value.at? r.wire "subagent_token_usage" = (r.tokenUsage.map fun u => .dict u.toItems) ∧
  Value.at? r.wire "subagent_tool_receipts" = (r.toolReceipts.map fun rs => .list (rs.map .dict)) ∧
  Value.at? r.wire "subagent_receipt_verdict" = r.receiptVerdict.map .dict
  := by
  refine ⟨⟨?_, ?_, ?_, ?_⟩, ⟨?_, ?_⟩, ?_, ?_, ?_⟩ <;> simp [StructuredSubagentResult.wire]

/-- **What is written under the keys of the wire is read back.** -/
theorem read_wire {r : StructuredSubagentResult} (h : r.Wf) :
  readSubagentResultMetadata (some (.dict r.wire)) = some (some r)
  := by
  obtain ⟨usage, husage, hread⟩ := readSubagentResultMetadata_dict r.wire
  obtain ⟨⟨hstatus, hreason, herror, hbrief⟩, ⟨hsha, hmodel⟩, husage', hreceipts, hverdict⟩ :=
    at?_wire r
  have hhash : (Value.str? (r.resultSha256.map .str)).filter isSha256Hex = r.resultSha256 := by
    cases hs : r.resultSha256 with
    | none => rfl
    | some s => simp [Value.str?, h.resultSha256 s hs]
  have hitems : Value.items? (r.receiptVerdict.map .dict) = r.receiptVerdict := by
    cases r.receiptVerdict <;> rfl
  rw [husage', usageOf_dict] at husage
  obtain rfl := Option.some.inj husage
  rw [hread, hstatus, hreason, herror, hbrief, hsha, hmodel, hreceipts, hverdict, Value.oneOf,
    if_pos h.status, Option.map_some, oneOf_str h.stopReason,
    text?_str fun s hs => (h.error s hs).1, text?_str fun s hs => (h.resultBrief s hs).1,
    map_truncateHeadTail fun s hs => (h.error s hs).2,
    map_truncateHeadTail fun s hs => (h.resultBrief s hs).2, hhash, text?_str h.modelName,
    values?_list, hitems]

theorem mem_of_oneOf {texts : List String} {v : Option Value} {s : String}
    (h : Value.oneOf texts v = some s) :
  s ∈ texts
  := by
  unfold Value.oneOf at h
  split at h
  · split at h
    · rename_i hmem
      rwa [← Option.some.inj h]
    · contradiction
  · contradiction

theorem ne_empty_of_text? {v : Option Value} {s : String} (h : Value.text? v = some s) :
  s ≠ ""
  := by
  unfold Value.text? at h
  split at h
  · split at h
    · contradiction
    · rename_i hne
      rwa [← Option.some.inj h]
  · contradiction

theorem truncated_text? {v : Option Value} :
  ∀ s ∈ (Value.text? v).map truncateHeadTail, s ≠ "" ∧ s.toList.length ≤ 2000
  := by
  intro s hs
  obtain ⟨t, ht, rfl⟩ := Option.map_eq_some_iff.mp hs
  exact ⟨truncateHeadTail_ne_empty (ne_empty_of_text? ht), length_truncateHeadTail t⟩

/-- What is read is well formed. -/
theorem wf_of_read {kwargs : Option Value} {r : StructuredSubagentResult}
    (h : readSubagentResultMetadata kwargs = some (some r)) :
  r.Wf
  := by
  rcases kwargs with _ | ⟨_⟩ | _ | _ | _ | ⟨items⟩ | _
  case some.dict =>
    obtain ⟨usage, -, hread⟩ := readSubagentResultMetadata_dict items
    rw [h, Option.some.injEq, eq_comm, Option.map_eq_some_iff] at hread
    obtain ⟨status, hstatus, rfl⟩ := hread
    constructor
    · apply mem_of_oneOf hstatus
    · exact fun s hs => mem_of_oneOf hs
    · apply truncated_text?
    · apply truncated_text?
    · intro s hs
      apply (Option.filter_eq_some_iff.mp hs).2
    · exact fun s hs => ne_empty_of_text? hs
  all_goals cases h

/-! ### Hashes -/

theorem isHexChar_hexChar (n : ℕ) :
  (('0' ≤ hexChar n && hexChar n ≤ '9') || ('a' ≤ hexChar n && hexChar n ≤ 'f')) = true
  := by
  have hlt : n % 16 < 16 := Nat.mod_lt n (by decide)
  rw [hexChar]
  interval_cases n % 16 <;> decide

/-- A digest is a hash. -/
theorem isSha256Hex_hexdigest (H : Sha256) (text : String) :
  isSha256Hex (H.hexdigest text) = true
  := by
  rw [isSha256Hex, Sha256.hexdigest, String.toList_ofList, Bool.and_eq_true, decide_eq_true_eq,
    List.all_eq_true]
  constructor
  · have hlength : ∀ bytes : List UInt8, (bytes.flatMap fun b =>
        [hexChar (b.toNat / 16), hexChar b.toNat]).length = 2 * bytes.length := by
      intro bytes
      rw [List.length_flatMap]
      simp [mul_comm]
    rw [hlength, H.length]
  · intro c hc
    obtain ⟨b, -, hc⟩ := List.mem_flatMap.mp hc
    simp only [List.mem_cons, List.not_mem_nil, or_false] at hc
    rcases hc with rfl | rfl
    · apply isHexChar_hexChar
    · apply isHexChar_hexChar

/-! ### The writer and the reader -/

/-- What the writer tells. -/
def MetadataArgs.told (H : Sha256) (args : MetadataArgs) (usage : Option TokenUsage) :
    StructuredSubagentResult where
  status := args.status.value
  stopReason := args.stopReason
  error := args.truthy.errorText.map truncateHeadTail
  resultBrief := args.truthy.resultText.map truncateHeadTail
  resultSha256 := args.truthy.resultText.map H.hexdigest
  modelName := args.truthy.modelName
  tokenUsage := usage
  toolReceipts := args.toolReceipts
  receiptVerdict := args.receiptVerdict

/-- The writer writes what it tells under the keys of the wire. -/
theorem subagentAdditionalKwargs_eq {H : Sha256} {args : MetadataArgs} {kwargs : Value.Items}
    (h : subagentAdditionalKwargs H args = some kwargs) :
  ∃ usage, usageOf args.tokenUsage = some usage ∧ kwargs = (args.told H usage).wire ∧
    args.status.value ∈ subagentStatusValues ∧
    ∀ s ∈ args.stopReason, s ∈ subagentStopReasonValues
  := by
  obtain ⟨usage, husage, -⟩ := usageOf_eq args.tokenUsage
  rw [subagentAdditionalKwargs, husage] at h
  by_cases hstatus : args.status.value ∈ subagentStatusValues
  · by_cases hreason : (args.stopReason.any (· ∉ subagentStopReasonValues)) = true
    · simp only [hstatus, hreason, not_true_eq_false, if_false, if_true] at h
      cases h
    · simp only [hstatus, hreason, not_true_eq_false, if_false, Bool.false_eq_true] at h
      refine ⟨usage, husage, ?_, hstatus, ?_⟩
      · obtain rfl := Option.some.inj h
        simp only [StructuredSubagentResult.wire, MetadataArgs.told, Option.map_map,
          Function.comp_def, List.append_assoc]
        rfl
      · intro s hs
        by_contra hmem
        apply hreason
        rw [Option.mem_def.mp hs]
        simp [hmem]
  · simp [hstatus] at h

theorem told_wf {H : Sha256} {args : MetadataArgs} {usage : Option TokenUsage}
    (hstatus : args.status.value ∈ subagentStatusValues)
    (hreason : ∀ s ∈ args.stopReason, s ∈ subagentStopReasonValues) :
  (args.told H usage).Wf
  := by
  have hne : ∀ text : Option String, ∀ s ∈ truthyText text, s ≠ "" := by
    intro text s hs
    have hs := (Option.filter_eq_some_iff.mp hs).2
    exact of_decide_eq_true hs
  have herror : ∀ s ∈ args.truthy.errorText, s ≠ "" := by
    intro s hs
    rw [MetadataArgs.errorText] at hs
    split at hs
    · contradiction
    · apply hne _ s hs
  have hresult : ∀ s ∈ args.truthy.resultText, s ≠ "" := by
    intro s hs
    rw [MetadataArgs.resultText] at hs
    split at hs
    · apply hne _ s hs
    · contradiction
  have htruncated : ∀ text : Option String, (∀ s ∈ text, s ≠ "") →
      ∀ s ∈ text.map truncateHeadTail, s ≠ "" ∧ s.toList.length ≤ 2000 := by
    intro text htext s hs
    obtain ⟨t, ht, rfl⟩ := Option.map_eq_some_iff.mp hs
    exact ⟨truncateHeadTail_ne_empty (htext t ht), length_truncateHeadTail t⟩
  constructor
  · exact hstatus
  · exact hreason
  · apply htruncated _ herror
  · apply htruncated _ hresult
  · intro s hs
    obtain ⟨t, -, rfl⟩ := Option.map_eq_some_iff.mp hs
    apply isSha256Hex_hexdigest
  · apply hne

/-- **What is read of the metadata of a delegation**: what was written, with texts that are empty
left out. And whatever is given to the reader, it does not fail, and what it has read is read again
when it is written under the keys of the wire. -/
theorem metadata_readBack (H : Sha256) (args : MetadataArgs) (kwargs : Value.Items)
    (h : subagentAdditionalKwargs H args = some kwargs) :
  (∃ r, readSubagentResultMetadata (some (.dict kwargs)) = some (some r) ∧
    SameAs H args.truthy r) ∧
  (∀ text, (truncateHeadTail text).toList.length ≤ 2000 ∧
    (text.toList.length ≤ 2000 → truncateHeadTail text = text)) ∧
  ∀ v : Option Value, ∃ out, readSubagentResultMetadata v = some out ∧
    ∀ r, out = some r → readSubagentResultMetadata (some (.dict r.wire)) = some (some r)
  := by
  refine ⟨?_, fun text => ⟨length_truncateHeadTail text, truncateHeadTail_of_le⟩, ?_⟩
  · obtain ⟨usage, husage, rfl, hstatus, hreason⟩ := subagentAdditionalKwargs_eq h
    refine ⟨args.told H usage, read_wire (told_wf hstatus hreason), ?_⟩
    obtain ⟨u, hu, hiff⟩ := usageOf_eq args.tokenUsage
    rw [husage] at hu
    obtain rfl := Option.some.inj hu
    constructor
    · rfl
    · rfl
    · rfl
    · rfl
    · rfl
    · rfl
    · exact hiff
    · rfl
    · rfl
  · intro v
    have hread : ∃ out, readSubagentResultMetadata v = some out := by
      rcases v with _ | ⟨_⟩ | _ | _ | _ | ⟨items⟩ | _
      case some.dict =>
        obtain ⟨_, -, hread⟩ := readSubagentResultMetadata_dict items
        exact ⟨_, hread⟩
      all_goals exact ⟨none, rfl⟩
    obtain ⟨out, hout⟩ := hread
    refine ⟨out, hout, ?_⟩
    rintro r rfl
    apply read_wire (wf_of_read hout)

/-- A digest of zeros. -/
def zeroDigest : Sha256 where
  digest := fun _ => List.replicate 32 0
  length := fun _ => List.length_replicate

/-- A delegation that has failed after some usage. -/
def failedArgs : MetadataArgs where
  status := .failed
  error := some "recursion limit"
  stopReason := some "turn_capped"
  tokenUsage := some (.dict [(.text "input_tokens", .int 7), (.text "output_tokens", .int 2),
    (.text "total_tokens", .int 9)])

theorem metadata_readBack_failedArgs :
  ∃ kwargs, subagentAdditionalKwargs zeroDigest failedArgs = some kwargs ∧
    ∃ r, readSubagentResultMetadata (some (.dict kwargs)) = some (some r) ∧
      SameAs zeroDigest failedArgs.truthy r
  := ⟨_, rfl, (metadata_readBack zeroDigest failedArgs _ rfl).1⟩

/-- A delegation that has completed with an empty text. -/
def emptyArgs : MetadataArgs where
  status := .completed
  result := some ""

/-- Neither the empty result nor its hash is read back. -/
theorem not_sameAs_emptyArgs :
  ∃ kwargs r, subagentAdditionalKwargs zeroDigest emptyArgs = some kwargs ∧
    readSubagentResultMetadata (some (.dict kwargs)) = some (some r) ∧
    ¬ SameAs zeroDigest emptyArgs r
  := by
  refine ⟨_, _, rfl, rfl, ?_⟩
  intro h
  have hbrief := h.resultBrief
  contradiction

/-! ### The metadata of the tool -/

namespace Value

mutual

/-- A value of JSON. -/
def ofJson : Json → Value
  | .null => .other 0
  | .bool b => .bool b
  | .int n => .int n
  | .float _ _ => .other 1
  | .str s => .str s
  | .arr values => .list (ofValues values)
  | .obj fields => .dict (ofFields fields)

/-- The values of an array. -/
def ofValues : List Json → List Value
  | [] => []
  | v :: values => ofJson v :: ofValues values

/-- The fields of an object. -/
def ofFields : List (String × Json) → List (Key × Value)
  | [] => []
  | (k, v) :: fields => (.text k, ofJson v) :: ofFields fields

end

theorem ofFields_append (d d' : Json.Fields) :
  ofFields (d ++ d') = ofFields d ++ ofFields d'
  := by
  induction d with
  | nil => rfl
  | cons f d ih => rw [List.cons_append, ofFields, ih, ofFields, List.cons_append]

theorem ofFields_field (k : String) (v : Option Json) :
  ofFields (Json.field k v) = item k (v.map ofJson)
  := by cases v <;> rfl

theorem ofValues_obj {α : Type} (f : α → Json.Fields) (as : List α) :
  ofValues (as.map fun a => .obj (f a)) = (as.map fun a => ofFields (f a)).map .dict
  := by
  induction as with
  | nil => rfl
  | cons a as ih => rw [List.map_cons, ofValues, ih, ofJson, List.map_cons, List.map_cons]

theorem at?_ofFields (d : Json.Fields) (k : String) :
  at? (ofFields d) k = (Json.get d k).map ofJson
  := by
  induction d with
  | nil => rfl
  | cons f d ih =>
      rw [ofFields, at?_cons, Json.get_cons, ih]
      split <;> rfl

end Value

theorem countOf_ofJson (v : Option Json) :
  countOf (v.map Value.ofJson) = some (count? v)
  := by
  rcases v with _ | _ | _ | n | _ | _ | _ | _
  case some.int =>
    by_cases hn : n < 0
    · have hle : ¬ 0 ≤ n := by omega
      simp [countOf, Value.ofJson, Value.isBool, Value.isInt, Value.negative?, count?, hn, hle]
    · have hle : 0 ≤ n := by omega
      simp [countOf, Value.ofJson, Value.isBool, Value.isInt, Value.negative?, Value.toNat, count?,
        hn, hle]
  all_goals rfl

theorem usageOf_ofFields (u : Option Json.Fields) :
  ∃ usage, usageOf (u.map fun u => .dict (Value.ofFields u)) = some usage ∧
    (u.bind normalizeTokenUsage).map Value.ofFields = usage.map TokenUsage.toItems
  := by
  cases u with
  | none => exact ⟨none, rfl, rfl⟩
  | some u =>
      refine ⟨(count? (Json.get u "input_tokens")).bind fun i =>
        (count? (Json.get u "output_tokens")).bind fun o =>
        (count? (Json.get u "total_tokens")).map fun t => ⟨i, o, t⟩, ?_, ?_⟩
      · rw [Option.map_some, usageOf, if_neg (by simp [Value.isDict])]
        simp only [Value.get?, Value.at?_ofFields, countOf_ofJson, Option.bind_eq_bind,
          Option.bind_some]
        cases count? (Json.get u "input_tokens") <;> cases count? (Json.get u "output_tokens") <;>
          cases count? (Json.get u "total_tokens") <;> rfl
      · rw [Option.bind_some, normalizeTokenUsage]
        cases count? (Json.get u "input_tokens") <;> cases count? (Json.get u "output_tokens") <;>
          cases count? (Json.get u "total_tokens") <;> rfl

/-- The answer of the tool has the metadata of its result, which names no model. -/
theorem ofFields_makeSubagentAdditionalKwargs {D : Digests} {H : Sha256}
    (hhash : D.hash = H.hexdigest) (status : SubagentStatus) (result error stopReason : Option String)
    (tokenUsage : Option Json.Fields) (toolReceipts : Option (List ToolReceipt))
    (receiptVerdict : Option ReceiptVerdict) :
  (makeSubagentAdditionalKwargs D status result error stopReason tokenUsage toolReceipts
    receiptVerdict).map Value.ofFields =
  subagentAdditionalKwargs H {
    status, result, error, stopReason
    tokenUsage := tokenUsage.map fun u => .dict (Value.ofFields u)
    toolReceipts := toolReceipts.map fun rs => rs.map fun r => Value.ofFields r.toFields
    receiptVerdict := receiptVerdict.map fun v => Value.ofFields v.toFields }
  := by
  obtain ⟨usage, husage, hmap⟩ := usageOf_ofFields tokenUsage
  have hstatus : status.value ∈ subagentStatusValues ↔ status.isTerminal = true := by
    cases status <;> decide
  have hreason : (stopReason.any fun r => (stopReasonLabels.lookup r).isNone) =
      stopReason.any (· ∉ subagentStopReasonValues) := by
    cases stopReason with
    | none => rfl
    | some r =>
        rw [Option.any_some, Option.any_some, Bool.eq_iff_iff, decide_eq_true_eq,
          Option.isNone_iff_eq_none, stopReasonLabels, List.lookup_eq_none_iff]
        simp [subagentStopReasonValues]
  have husageOf : ((tokenUsage.bind normalizeTokenUsage).map Json.obj).map Value.ofJson =
      usage.map fun u => Value.dict u.toItems := by
    have hdict := congrArg (Option.map Value.dict) hmap
    rw [Option.map_map, Option.map_map] at hdict
    rw [Option.map_map]
    exact hdict
  rw [makeSubagentAdditionalKwargs, hreason, subagentAdditionalKwargs, husage]
  by_cases hterminal : status.isTerminal = true
  · by_cases hany : stopReason.any (· ∉ subagentStopReasonValues) = true
    · simp only [hstatus.mpr hterminal, hterminal, hany, not_true_eq_false, if_false, if_true,
        Bool.not_true, Bool.false_eq_true]
      rfl
    · simp only [hstatus.mpr hterminal, hterminal, hany, not_true_eq_false, if_false,
        Bool.not_true, Bool.false_eq_true]
      apply congrArg some
      simp only [Value.ofFields, Value.ofFields_append, Value.ofFields_field, husageOf,
        Option.map_map, Function.comp_def, Value.ofJson, Value.ofValues_obj, List.append_assoc,
        hhash]
      rfl
  · have hvalue : status.value ∉ subagentStatusValues := fun h => hterminal (hstatus.mp h)
    simp only [hvalue, hterminal, not_false_eq_true, if_true, Bool.not_false]
    rfl

end Agent
