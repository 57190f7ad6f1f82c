import GitAgent.Agent.Message
import GitAgent.Library.Decimal
import Mathlib.Tactic.IntervalCases

/-!
# Receipts of tool calls

Every answer of a tool is stamped with a receipt, every call of the model is shown the ledger of
the receipts so far, as many of the last ones as fit, and the reply is stamped with what was shown
(`core/middleware/tool_receipts.py`, `core/subagents/receipts.py`).
-/

namespace Agent

/-! ### Numbers of receipts -/

/-- `receipt_id`. -/
def receiptId (position : ℕ) : String :=
  "r" ++ toString position

/-- The decimal digits of each script, by the code point of its zero. -/
def zeros : List ℕ :=
  [0x30, 0x660, 0x6f0, 0x7c0, 0x966, 0x9e6, 0xa66, 0xae6, 0xb66, 0xbe6, 0xc66, 0xce6, 0xd66, 0xde6,
    0xe50, 0xed0, 0xf20, 0x1040, 0x1090, 0x17e0, 0x1810, 0x1946, 0x19d0, 0x1a80, 0x1a90, 0x1b50,
    0x1bb0, 0x1c40, 0x1c50, 0xa620, 0xa8d0, 0xa900, 0xa9d0, 0xa9f0, 0xaa50, 0xabf0, 0xff10, 0x104a0,
    0x10d30, 0x11066, 0x110f0, 0x11136, 0x111d0, 0x112f0, 0x11450, 0x114d0, 0x11650, 0x116c0,
    0x11730, 0x118e0, 0x11950, 0x11c50, 0x11d50, 0x11da0, 0x11f50, 0x16a60, 0x16ac0, 0x16b50,
    0x1d7ce, 0x1d7d8, 0x1d7e2, 0x1d7ec, 0x1d7f6, 0x1e140, 0x1e2f0, 0x1e4f0, 0x1e950, 0x1fbf0]

/-- The value of a digit. -/
def digit? (c : Char) : Option ℕ :=
  (zeros.find? fun z => z ≤ c.toNat && c.toNat < z + 10).map (c.toNat - ·)

/-- The number that digits write. -/
def number (digits : List Char) : ℕ :=
  digits.foldl (fun n c => 10 * n + (digit? c).getD 0) 0

/-- The position that a receipt id writes, which has no leading zero. -/
def position (rid : String) : Option ℕ :=
  match rid.toList with
  | 'r' :: c :: cs =>
      if '1' ≤ c ∧ c ≤ '9' ∧ cs.all fun c => (digit? c).isSome then some (number (c :: cs))
      else none
  | _ => none

theorem digit?_of_isDigit {c : Char} (h : c.isDigit) :
  digit? c = some (c.toNat - '0'.toNat)
  := by
  rw [Char.isDigit_iff_toNat] at h
  have : 48 ≤ c.toNat ∧ c.toNat < 48 + 10 := ⟨h.1, by have := h.2; simp at this; omega⟩
  rw [digit?, zeros, List.find?_cons_of_pos]
  · rfl
  · rw [Bool.and_eq_true, decide_eq_true_eq, decide_eq_true_eq]
    apply this

/-- Decimal digits write what they write in base ten. -/
theorem number_of_isDigit {cs : List Char} (h : ∀ c ∈ cs, c.isDigit) :
  number cs = Nat.ofDigitChars 10 cs 0
  := by
  suffices ∀ n, cs.foldl (fun n c => 10 * n + (digit? c).getD 0) n = Nat.ofDigitChars 10 cs n from
    this 0
  induction cs with
  | nil => exact fun _ => rfl
  | cons c cs ih =>
      intro n
      rw [List.foldl_cons, Nat.ofDigitChars_cons, digit?_of_isDigit (h c List.mem_cons_self),
        Option.getD_some]
      apply ih
      intro c hc
      apply h c (List.mem_cons_of_mem _ hc)

/-- The digits of a positive number begin with one that is not zero. -/
theorem exists_toDigits_eq_cons (n : ℕ) (h : 0 < n) :
  ∃ c cs, Nat.toDigits 10 n = c :: cs ∧ '1' ≤ c ∧ c ≤ '9'
  := by
  induction n using Nat.strong_induction_on with
  | _ n ih =>
      rw [Nat.toDigits_eq_if (by decide)]
      split
      · use n.digitChar, []
        interval_cases n <;> decide
      · obtain ⟨c, cs, hc, h₁, h₂⟩ := ih (n / 10) (by omega) (by omega)
        exact ⟨c, cs ++ [(n % 10).digitChar], by rw [hc, List.cons_append], h₁, h₂⟩

/-- A position is read back from its receipt id. -/
theorem position_receiptId {n : ℕ} (h : 0 < n) :
  position (receiptId n) = some n
  := by
  have hl : (receiptId n).toList = 'r' :: Nat.toDigits 10 n := by
    rw [receiptId, String.toList_append, Decimal.toList_toString]
    rfl
  have hd : ∀ c ∈ Nat.toDigits 10 n, c.isDigit :=
    fun c hc => Decimal.isDigit_of_mem hc
  obtain ⟨c, cs, hc, h₁, h₂⟩ := exists_toDigits_eq_cons n h
  have hn : number (c :: cs) = n := by
    rw [← hc, number_of_isDigit hd, Nat.ofDigitChars_ten_toDigits]
  rw [hc] at hl hd
  have hcs : cs.all fun c => (digit? c).isSome := by
    rw [List.all_eq_true]
    intro c hc
    rw [digit?_of_isDigit (hd c (List.mem_cons_of_mem _ hc)), Option.isSome_some]
  rw [position, hl]
  simp only
  rw [if_pos ⟨h₁, h₂, hcs⟩, hn]

/-- Different positions have different ids. -/
theorem receiptId_inj {m n : ℕ} (hm : 0 < m) (hn : 0 < n) (h : receiptId m = receiptId n) :
  m = n
  := by
  apply Option.some.inj
  rw [← position_receiptId hm, h, position_receiptId hn]

/-! ### Receipts -/

/-- `ToolReceipt`. -/
structure ToolReceipt where
  id : String
  toolCallId : String
  toolName : String
  status : String
  argsSha256 : String
  outputSha256 : String
  outputBytes : ℤ
  createdAt : String
  deriving DecidableEq, Repr

/-- What receipts take from the libraries: the hash of a text, its first digits, and the text of a
value with sorted keys. -/
structure Digests where
  hash : String → String
  shortHash : String → String
  dumps : Json → String

/-- The tool's call, its answer and the time of a receipt. -/
structure ToolResult where
  call : ToolCall
  message : ToolMessage
  now : String

/-- `make_tool_receipt`. -/
def makeToolReceipt (D : Digests) (r : ToolResult) : Json.Fields :=
  let content :=
    match r.message.content with
    | .str s => s
    | content => D.dumps content
  [("tool_call_id", .str (r.call.id.getD "")),
    ("tool_name", .str r.call.name),
    ("status", .str (if r.message.status = "" then "success" else r.message.status)),
    ("args_sha256", .str (D.shortHash (D.dumps (.obj r.call.args)))),
    ("output_sha256", .str (D.shortHash content)),
    ("output_bytes", .int content.utf8ByteSize),
    ("created_at", .str r.now)]

/-- `_stamp`: the answer with its receipt. -/
def ToolResult.stamp (D : Digests) (r : ToolResult) : ToolMessage :=
  { r.message with
    additionalKwargs := set r.message.additionalKwargs "tool_receipt"
      (.obj (makeToolReceipt D r)) }

/-- `_RECEIPT_STR_FIELDS`. -/
def receiptStrFields : List String :=
  ["tool_call_id", "tool_name", "status", "args_sha256", "output_sha256", "created_at"]

/-- Whether a value is a text. -/
def isStr : Json → Bool
  | .str _ => true
  | _ => false

/-- Whether a value is an integer. -/
def isInt : Json → Bool
  | .int _ => true
  | _ => false

/-- `is_valid_receipt`, for an object. -/
def isValidReceipt (d : Json.Fields) : Bool :=
  receiptStrFields.all (fun k => (Json.get d k).any isStr) && (Json.get d "output_bytes").any isInt

/-- The receipt with the id `id` and the other fields of a valid receipt. -/
def ToolReceipt.copy (id : String) (d : Json.Fields) : ToolReceipt where
  id := id
  toolCallId := Json.asString (Json.get d "tool_call_id")
  toolName := Json.asString (Json.get d "tool_name")
  status := Json.asString (Json.get d "status")
  argsSha256 := Json.asString (Json.get d "args_sha256")
  outputSha256 := Json.asString (Json.get d "output_sha256")
  outputBytes :=
    match Json.get d "output_bytes" with
    | some (.int n) => n
    | _ => 0
  createdAt := Json.asString (Json.get d "created_at")

/-- A receipt as an object. -/
def ToolReceipt.toFields (r : ToolReceipt) : Json.Fields :=
  [("id", .str r.id), ("tool_call_id", .str r.toolCallId), ("tool_name", .str r.toolName),
    ("status", .str r.status), ("args_sha256", .str r.argsSha256),
    ("output_sha256", .str r.outputSha256), ("created_at", .str r.createdAt),
    ("output_bytes", .int r.outputBytes)]

/-- The receipt that a message is stamped with, if it is a valid one. -/
def receiptOf (m : Message) : Option Json.Fields :=
  m.tool?.bind fun m =>
    match Json.get m.additionalKwargs "tool_receipt" with
    | some (.obj d) => if isValidReceipt d then some d else none
    | _ => none

/-- The receipts after one more message. -/
def addReceipt (receipts : List ToolReceipt) (m : Message) : List ToolReceipt :=
  match receiptOf m with
  | some d => receipts ++ [.copy (receiptId (receipts.length + 1)) d]
  | none => receipts

/-- `extract_tool_receipts`: the receipts in the order of the messages, numbered from one. -/
def extractToolReceipts (messages : List Message) : List ToolReceipt :=
  messages.foldl addReceipt []

theorem toolName_copy (D : Digests) (r : ToolResult) (id : String) :
  (ToolReceipt.copy id (makeToolReceipt D r)).toolName = r.call.name
  := rfl

/-- The receipts have the ids of consecutive positions, up from `n`. -/
def Numbered (n : ℕ) : List ToolReceipt → Prop
  | [] => True
  | r :: receipts => r.id = receiptId n ∧ Numbered (n + 1) receipts

@[simp]
theorem isValidReceipt_toFields (r : ToolReceipt) :
  isValidReceipt r.toFields
  := rfl

@[simp]
theorem get_id_toFields (r : ToolReceipt) :
  Json.get r.toFields "id" = some (.str r.id)
  := rfl

/-- A receipt is read back. -/
@[simp]
theorem copy_toFields (r : ToolReceipt) :
  ToolReceipt.copy r.id r.toFields = r
  := rfl

theorem numbered_append {n : ℕ} {l l' : List ToolReceipt} :
  Numbered n (l ++ l') ↔ Numbered n l ∧ Numbered (n + l.length) l'
  := by
  induction l generalizing n with
  | nil => simp [Numbered]
  | cons r l ih =>
      rw [List.cons_append, Numbered, Numbered, ih, and_assoc, List.length_cons,
        show n + 1 + l.length = n + (l.length + 1) by omega]

/-- The id of a numbered receipt. -/
theorem Numbered.id_of_getElem? {n i : ℕ} {l : List ToolReceipt} (h : Numbered n l)
    {r : ToolReceipt} (hi : l[i]? = some r) :
  r.id = receiptId (n + i)
  := by
  induction l generalizing n i with
  | nil => contradiction
  | cons r' l ih =>
      obtain ⟨hr, hl⟩ := h
      cases i with
      | zero =>
          obtain rfl := Option.some.inj hi
          apply hr
      | succ i =>
          rw [ih hl hi]
          congr 1
          omega

/-- Receipts that are numbered up from one or more have ids of their own. -/
theorem Numbered.eq_of_id {n : ℕ} {l : List ToolReceipt} (h : Numbered n l) (hn : 0 < n)
    {r r' : ToolReceipt} (hr : r ∈ l) (hr' : r' ∈ l) (he : r.id = r'.id) :
  r = r'
  := by
  obtain ⟨i, hi⟩ := List.mem_iff_getElem?.mp hr
  obtain ⟨j, hj⟩ := List.mem_iff_getElem?.mp hr'
  have := receiptId_inj (m := n + i) (n := n + j) (by omega) (by omega)
    (by rw [← h.id_of_getElem? hi, ← h.id_of_getElem? hj, he])
  obtain rfl : i = j := by omega
  rw [hi] at hj
  apply Option.some.inj hj

theorem foldl_addReceipt {receipts : List ToolReceipt} (h : Numbered 1 receipts)
    (messages : List Message) :
  receipts <+: messages.foldl addReceipt receipts ∧
    Numbered 1 (messages.foldl addReceipt receipts)
  := by
  induction messages generalizing receipts with
  | nil => exact ⟨List.prefix_rfl, h⟩
  | cons m messages ih =>
      have hm : receipts <+: addReceipt receipts m ∧ Numbered 1 (addReceipt receipts m) := by
        rw [addReceipt]
        split
        · constructor
          · apply List.prefix_append
          · rw [numbered_append, Nat.add_comm]
            exact ⟨h, rfl, trivial⟩
        · exact ⟨List.prefix_rfl, h⟩
      obtain ⟨hp, hn⟩ := ih hm.2
      exact ⟨hm.1.trans hp, hn⟩

/-- The receipts of a thread are numbered from one. -/
theorem numbered_extractToolReceipts (messages : List Message) :
  Numbered 1 (extractToolReceipts messages)
  := (foldl_addReceipt (show Numbered 1 [] from trivial) messages).2

/-- More messages only add receipts. -/
theorem extractToolReceipts_append (messages messages' : List Message) :
  extractToolReceipts messages <+: extractToolReceipts (messages ++ messages')
  := by
  rw [extractToolReceipts, extractToolReceipts, List.foldl_append]
  apply (foldl_addReceipt (numbered_extractToolReceipts messages) messages').1

/-- A message without a receipt adds none. -/
theorem extractToolReceipts_concat {m : Message} (h : m.tool? = none) (messages : List Message) :
  extractToolReceipts (messages ++ [m]) = extractToolReceipts messages
  := by
  rw [extractToolReceipts, List.foldl_concat, addReceipt, receiptOf, h]
  rfl

/-- An answer that is stamped adds the receipt of its call. -/
theorem extractToolReceipts_stamp (D : Digests) (r : ToolResult) (messages : List Message) :
  extractToolReceipts (messages ++ [.tool (r.stamp D)]) = extractToolReceipts messages ++
    [.copy (receiptId ((extractToolReceipts messages).length + 1)) (makeToolReceipt D r)]
  := by
  have hr : receiptOf (.tool (r.stamp D)) = some (makeToolReceipt D r) := by
    change (match Json.get (set _ _ _) _ with | some (.obj d) => _ | _ => _) = _
    rw [get_set]
    rfl
  rw [extractToolReceipts, List.foldl_concat, addReceipt, hr]
  rfl

/-! ### The ledger -/

/-- The lines of a text. -/
def joinLines : List String → String
  | [] => ""
  | [line] => line
  | line :: lines => line ++ "\n" ++ joinLines lines

/-- The lines above the receipts. -/
def heading : List String :=
  ["## Tool receipts (execution record)",
    "Cite receipt ids (e.g. [r1 sandbox_run]) in your" ++
      " final report for every claim about an action you took.",
    "Execution evidence only — receipts record that a call happened and its status;" ++
      " they do not validate claim correctness or task acceptance."]

/-- The line in place of older receipts. -/
def omission : String :=
  "- ... older receipts omitted (context budget)"

/-- The line of a receipt. -/
def ToolReceipt.line (r : ToolReceipt) : String :=
  "- [" ++ r.id ++ "] " ++ r.toolName ++ " status=" ++ r.status ++ " args_sha256=" ++
    r.argsSha256 ++ " output_sha256=" ++ r.outputSha256 ++ " bytes=" ++ toString r.outputBytes

/-- The lines that are kept, when the lines not yet looked at are given from the last to the
first. -/
def keptLines (maxChars : ℕ) (above : List String) : List String → List String → List String
  | [], kept => kept
  | line :: older, kept =>
      if maxChars < (joinLines (above ++ line :: kept)).length then kept
      else keptLines maxChars above older (line :: kept)

/-- The lines of the ledger and the receipts that are retained: all of them, or the last ones that
fit. -/
def retain (receipts : List ToolReceipt) (maxChars : ℕ) : List String × List ToolReceipt :=
  let lines := receipts.map ToolReceipt.line
  if (joinLines (heading ++ lines)).length ≤ maxChars then (heading ++ lines, receipts)
  else
    let kept := keptLines maxChars (heading ++ [omission]) lines.reverse []
    (heading ++ omission :: kept, receipts.drop (receipts.length - kept.length))

/-- `render_tool_receipts_with_snapshot`: the text, and the receipts that are in it. -/
def renderToolReceipts (receipts : List ToolReceipt) (maxChars : ℕ) :
    String × List ToolReceipt :=
  if receipts = [] then ("", [])
  else
    let (lines, retained) := retain receipts maxChars
    let rendered := joinLines lines
    if maxChars < rendered.length then
      (String.ofList (rendered.toList.take (maxChars - 4)) ++ "\n...", [])
    else (rendered, retained)

/-- `_RENDER_CHAR_BUDGET`. -/
def renderCharBudget : ℕ := 2000

/-- What a call of the model on a thread is shown of the receipts. -/
def ledger (receipts : List ToolReceipt) : List ToolReceipt :=
  (renderToolReceipts receipts renderCharBudget).2

/-- Whether a message is one of the system. -/
def Message.isSystem : Message → Bool
  | system _ => true
  | _ => false

/-- `_inject_ledger`: the messages that the model is sent, and the receipts that they show. -/
def injectLedger (messages : List Message) : List Message × List ToolReceipt :=
  let receipts := extractToolReceipts messages
  if receipts = [] then (messages, [])
  else
    let (rendered, snapshot) := renderToolReceipts receipts renderCharBudget
    if rendered = "" then (messages, [])
    else
      (messages.takeWhile Message.isSystem ++
        .human (.str rendered) :: messages.dropWhile Message.isSystem, snapshot)

/-- `_stamp_response`: the reply, stamped with the receipts that were shown if there are any. -/
def stampResponse (m : AIMessage) (snapshot : List ToolReceipt) : AIMessage :=
  if snapshot = [] then m
  else
    { m with
      additionalKwargs := set m.additionalKwargs "tool_receipt_ledger"
        (.arr (snapshot.map fun r => .obj r.toFields)) }

/-- The receipts of a ledger as a reply is stamped with it, from the index `index` on, if they are
valid and numbered up from the position `first` of the first one. -/
def readLedger (first : Option ℕ) (index : ℕ) : List Json → Option (List ToolReceipt)
  | [] => some []
  | .obj d :: raw =>
      if !isValidReceipt d then none
      else
        match Json.get d "id" with
        | some (.str rid) =>
            match position rid with
            | none => none
            | some n =>
                let first := first.getD n
                if rid ≠ receiptId (first + index) then none
                else (readLedger (some first) (index + 1) raw).map (.copy rid d :: ·)
        | _ => none
  | _ => none

/-- The search of `extract_citing_turn_receipts`, from the last message on. -/
def citingTurn : List Message → Option (List ToolReceipt)
  | [] => none
  | .ai m :: messages =>
      match Json.get m.additionalKwargs "tool_receipt_ledger" with
      | none | some .null => citingTurn messages
      | some (.arr raw) => readLedger none 0 raw
      | some _ => none
  | _ :: messages => citingTurn messages

/-- `extract_citing_turn_receipts`: the ledger that the last stamped reply was shown. -/
def extractCitingTurnReceipts (messages : List Message) : Option (List ToolReceipt) :=
  citingTurn messages.reverse

/-- `_harvest`. -/
def harvest (finalState : Option (List Message)) : Option (List ToolReceipt) :=
  finalState.bind fun messages =>
    match extractCitingTurnReceipts messages with
    | some snapshot => some snapshot
    | none => if extractToolReceipts messages = [] then some [] else none

/-! ### What is shown -/

/-- A text shows the last receipts, under the heading: all receipts, or some below the line for
older ones. -/
structure Shows (receipts : List ToolReceipt) (text : String) (snapshot : List ToolReceipt) :
    Prop where
  suffix : snapshot <:+ receipts
  text : (snapshot = receipts ∧ text = joinLines (heading ++ snapshot.map ToolReceipt.line)) ∨
    text = joinLines (heading ++ omission :: snapshot.map ToolReceipt.line)

/-- Whether all receipts are shown. -/
def AllFit (receipts : List ToolReceipt) : Prop :=
  (joinLines (heading ++ receipts.map ToolReceipt.line)).length ≤ renderCharBudget

/-- Whether the line of a receipt can be shown below the line for older ones. -/
def LastFits (r : ToolReceipt) : Prop :=
  (joinLines (heading ++ [omission, r.line])).length ≤ renderCharBudget

/-- Whether a call of the model with these receipts is shown any: all of them fit, or the line of
the last one does. -/
def Legible (receipts : List ToolReceipt) : Prop :=
  receipts ≠ [] ∧ (AllFit receipts ∨ ∃ r ∈ receipts.getLast?, LastFits r)

instance (receipts : List ToolReceipt) : Decidable (AllFit receipts) :=
  inferInstanceAs (Decidable (_ ≤ _))

instance (r : ToolReceipt) : Decidable (LastFits r) :=
  inferInstanceAs (Decidable (_ ≤ _))

instance (receipts : List ToolReceipt) : Decidable (Legible receipts) :=
  inferInstanceAs (Decidable (_ ∧ (_ ∨ _)))

/-- A text is at least as long as its lines. -/
theorem length_le_joinLines {line : String} {lines : List String} (h : line ∈ lines) :
  line.length ≤ (joinLines lines).length
  := by
  induction lines with
  | nil => contradiction
  | cons first lines ih =>
      cases lines with
      | nil =>
          obtain rfl := List.mem_singleton.mp h
          rfl
      | cons second lines =>
          rw [joinLines, String.length_append, String.length_append]
          · rcases List.mem_cons.mp h with rfl | h
            · omega
            · have := ih h
              omega
          · rintro ⟨⟩

/-- The line of a receipt is at least as long as the name of the tool. -/
theorem length_toolName_le (r : ToolReceipt) :
  r.toolName.length ≤ r.line.length
  := by
  change _ ≤ ("- [" ++ r.id ++ "] " ++ r.toolName ++ " status=" ++ r.status ++ " args_sha256=" ++
    r.argsSha256 ++ " output_sha256=" ++ r.outputSha256 ++ " bytes=" ++
    toString r.outputBytes).length
  simp only [String.length_append]
  omega

/-- A call whose last receipt has a name that does not fit is shown none. -/
theorem not_legible_of_toolName {receipts : List ToolReceipt} {r : ToolReceipt}
    (h : renderCharBudget < r.toolName.length) :
  ¬ Legible (receipts ++ [r])
  := by
  have hr := length_toolName_le r
  rintro ⟨-, hall | ⟨r', hr', hlast⟩⟩
  · have hm : r.line ∈ heading ++ (receipts ++ [r]).map ToolReceipt.line := by simp
    have := length_le_joinLines hm
    rw [AllFit] at hall
    omega
  · rw [List.getLast?_concat] at hr'
    obtain rfl := Option.some.inj hr'
    have hm : r.line ∈ heading ++ [omission, r.line] := by simp
    have := length_le_joinLines hm
    rw [LastFits] at hlast
    omega

/-- The kept lines are the last ones, and above them is room for the heading. -/
theorem keptLines_spec {maxChars : ℕ} {above : List String} (older kept : List String)
    (h : (joinLines (above ++ kept)).length ≤ maxChars) :
  ∃ k ≤ older.length, keptLines maxChars above older kept = (older.take k).reverse ++ kept ∧
    (joinLines (above ++ keptLines maxChars above older kept)).length ≤ maxChars
  := by
  induction older generalizing kept with
  | nil => exact ⟨0, le_rfl, rfl, h⟩
  | cons line older ih =>
      rw [keptLines]
      split
      · exact ⟨0, Nat.zero_le _, rfl, h⟩
      · rename_i hfit
        obtain ⟨k, hk, he, hl⟩ := ih (line :: kept) (Nat.le_of_not_lt hfit)
        refine ⟨k + 1, Nat.succ_le_succ hk, ?_, hl⟩
        rw [he, List.take_succ_cons, List.reverse_cons, List.append_assoc, List.singleton_append]

/-- Some line is kept exactly if the first one fits. -/
theorem keptLines_ne_nil {maxChars : ℕ} {above older : List String} {line : String} :
  keptLines maxChars above (line :: older) [] ≠ [] ↔
    (joinLines (above ++ [line])).length ≤ maxChars
  := by
  rw [keptLines]
  split
  · rename_i hlt
    exact ⟨fun hne => absurd rfl hne, fun hle => absurd hle (Nat.not_le_of_lt hlt)⟩
  · rename_i hfit
    obtain ⟨k, -, he, -⟩ := keptLines_spec older [line] (Nat.le_of_not_lt hfit)
    rw [he]
    exact ⟨fun _ => Nat.le_of_not_lt hfit, fun _ => by simp⟩

theorem length_heading_omission :
  (joinLines (heading ++ [omission])).length ≤ renderCharBudget
  := by
  simp only [heading, omission, renderCharBudget, List.cons_append, List.nil_append, joinLines,
    String.length_append]
  decide +kernel

theorem renderToolReceipts_of_retain {receipts retained : List ToolReceipt}
    {lines : List String} {maxChars : ℕ} (hne : receipts ≠ [])
    (h : retain receipts maxChars = (lines, retained)) (hl : (joinLines lines).length ≤ maxChars) :
  renderToolReceipts receipts maxChars = (joinLines lines, retained)
  := by
  rw [renderToolReceipts, if_neg hne, h]
  apply if_neg (Nat.not_lt_of_le hl)

/-- Where all receipts fit, all are shown. -/
theorem renderToolReceipts_of_allFit {receipts : List ToolReceipt} (hne : receipts ≠ [])
    (h : AllFit receipts) :
  renderToolReceipts receipts renderCharBudget =
    (joinLines (heading ++ receipts.map ToolReceipt.line), receipts)
  := renderToolReceipts_of_retain hne (if_pos h) h

/-- Where not all receipts fit, the last ones are shown, if there is room for one. -/
theorem renderToolReceipts_of_not_allFit {receipts : List ToolReceipt} {r : ToolReceipt}
    (h : ¬ AllFit (receipts ++ [r])) :
  ∃ k ≤ receipts.length + 1, renderToolReceipts (receipts ++ [r]) renderCharBudget =
      (joinLines (heading ++ omission ::
        ((receipts ++ [r]).drop (receipts.length + 1 - k)).map ToolReceipt.line),
        (receipts ++ [r]).drop (receipts.length + 1 - k)) ∧
    (k ≠ 0 ↔ LastFits r)
  := by
  let lines := (receipts ++ [r]).map ToolReceipt.line
  have hlen : lines.length = receipts.length + 1 := by simp [lines]
  have hrev : lines.reverse = r.line :: (receipts.map ToolReceipt.line).reverse := by simp [lines]
  have habove : (joinLines (heading ++ [omission] ++ [])).length ≤ renderCharBudget := by
    rw [List.append_nil]
    apply length_heading_omission
  obtain ⟨k, hk, he, hl⟩ := keptLines_spec lines.reverse [] habove
  rw [List.length_reverse, hlen] at hk
  rw [List.append_nil, List.take_reverse, List.reverse_reverse, hlen] at he
  have hlk : (lines.drop (receipts.length + 1 - k)).length = k := by
    rw [List.length_drop, hlen]
    omega
  have hretain : retain (receipts ++ [r]) renderCharBudget =
      (heading ++ omission :: lines.drop (receipts.length + 1 - k),
        (receipts ++ [r]).drop (receipts.length + 1 - k)) := by
    have h' : ¬ (joinLines (heading ++ lines)).length ≤ renderCharBudget := h
    rw [retain]
    change (if (joinLines (heading ++ lines)).length ≤ renderCharBudget then _ else _) = _
    rw [if_neg h', he]
    dsimp only
    rw [hlk, List.length_append, List.length_singleton]
  rw [he, ← List.append_cons] at hl
  use k, hk
  constructor
  · rw [List.map_drop]
    apply renderToolReceipts_of_retain (by simp) hretain hl
  · rw [LastFits, List.append_cons, ← keptLines_ne_nil, ← hrev, he, ← List.length_pos_iff_ne_nil,
      hlk, Nat.pos_iff_ne_zero]

/-- What is rendered is shown. -/
theorem shows_renderToolReceipts {receipts : List ToolReceipt} (hne : receipts ≠ []) :
  Shows receipts (renderToolReceipts receipts renderCharBudget).1 (ledger receipts)
  := by
  rw [ledger]
  by_cases h : AllFit receipts
  · rw [renderToolReceipts_of_allFit hne h]
    exact ⟨List.suffix_rfl, .inl ⟨rfl, rfl⟩⟩
  · obtain ⟨l, r, rfl⟩ := (List.eq_nil_or_concat' _).resolve_left hne
    obtain ⟨k, -, he, -⟩ := renderToolReceipts_of_not_allFit h
    rw [he]
    exact ⟨List.drop_suffix _ _, .inr rfl⟩

/-- A call of the model is shown some receipt exactly if its receipts are legible. -/
theorem ledger_ne_nil_iff {receipts : List ToolReceipt} :
  ledger receipts ≠ [] ↔ Legible receipts
  := by
  rw [ledger, Legible]
  by_cases hne : receipts = []
  · subst hne
    exact ⟨fun h => absurd rfl h, fun h => absurd rfl h.1⟩
  · by_cases h : AllFit receipts
    · rw [renderToolReceipts_of_allFit hne h]
      exact ⟨fun _ => ⟨hne, .inl h⟩, fun _ => hne⟩
    · obtain ⟨l, r, rfl⟩ := (List.eq_nil_or_concat' _).resolve_left hne
      obtain ⟨k, hk, he, hlast⟩ := renderToolReceipts_of_not_allFit h
      have hdrop : (l ++ [r]).drop (l.length + 1 - k) ≠ [] ↔ k ≠ 0 := by
        rw [← List.length_pos_iff_ne_nil, List.length_drop, List.length_append,
          List.length_singleton]
        omega
      rw [he, hdrop, hlast]
      simp [h]

end Agent
