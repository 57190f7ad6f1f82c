import GitAgent.Agent.Receipt
import GitAgent.Library.Dict
import Mathlib.Data.List.Sort

/-!
# Findings

The findings that are collected from the calls of `report_finding` in a thread
(`core/tools/security/findings.py`).
-/

namespace Agent

/-! ### Values of the language -/

/-- What the language makes of values that are no text: `str`, the JSON text of a value, and the
value of a JSON text. -/
structure Texts where
  str : Json → String
  dumps : Json → String
  loads : String → Option Json

/-- `str`. -/
def Texts.toStr (T : Texts) : Json → String
  | .str s => s
  | v => T.str v

/-- Whether a value counts as true. -/
def truthy : Json → Bool
  | .null => false
  | .bool b => b
  | .int n => n ≠ 0
  | .float num _ => num ≠ 0
  | .str s => s ≠ ""
  | .arr values => !values.isEmpty
  | .obj fields => !fields.isEmpty

/-- `strip`, for characters. -/
def stripChars (p : Char → Bool) (cs : List Char) : List Char :=
  ((cs.dropWhile p).reverse.dropWhile p).reverse

/-- `strip`. -/
def strip (s : String) : String :=
  String.ofList (stripChars isSpace s.toList)

/-- `lower`, as far as the texts it is compared with tell. -/
def lower (s : String) : String :=
  String.ofList (s.toList.map Char.toLower)

/-- The number that digits write, with single underscores between them. -/
def intDigits : Bool → ℕ → List Char → Option ℕ
  | true, n, [] => some n
  | false, _, [] => none
  | prev, n, c :: cs =>
      if c = '_' then (if prev then intDigits false n cs else none)
      else
        match digit? c with
        | some d => intDigits true (10 * n + d) cs
        | none => none

/-- `int` of a text, which has at most 4300 digits. -/
def parseInt (s : String) : Option ℤ :=
  let cs := stripChars isSpace s.toList
  if 4300 < cs.countP fun c => (digit? c).isSome then none
  else
    match cs with
    | '-' :: cs => (intDigits false 0 cs).map fun n => -(n : ℤ)
    | '+' :: cs => (intDigits false 0 cs).map (↑)
    | cs => (intDigits false 0 cs).map (↑)

/-- `int`, which some values have not. -/
def toInt : Json → Option ℤ
  | .bool b => some (if b then 1 else 0)
  | .int n => some n
  | .float num den => some (num.tdiv den)
  | .str s => parseInt s
  | _ => none

/-- The first value that counts as true. -/
def firstTruthy (values : List (Option Json)) : Option Json :=
  values.findSome? fun v => v.filter truthy

/-- The text, or nothing if it is empty. -/
def orNone (s : String) : Option String :=
  if s = "" then none else some s

/-! ### Findings -/

/-- A finding. The fields that the runner fills in are missing. -/
structure Finding where
  title : String
  severity : String
  description : String
  impact : Option String
  confidence : Option String
  category : String
  file : Option String
  lineStart : Option ℤ
  lineEnd : Option ℤ
  cwe : Option String
  cve : Option String
  evidence : Option String
  remediation : Option String
  references : List String
  deriving DecidableEq, Repr

/-- `SEVERITIES`, from the highest on. -/
def severities : List String :=
  ["critical", "high", "medium", "low", "info"]

/-- `CATEGORIES`. -/
def categories : List String :=
  ["injection", "auth", "crypto", "secrets", "deps", "config", "xss", "ssrf", "path", "logic",
    "other"]

/-- `CONFIDENCES`. -/
def confidences : List String :=
  ["high", "medium", "low"]

namespace Texts

variable (T : Texts)

/-- An argument as a text without blanks around it. -/
def textArg (args : Json.Fields) (k : String) : String :=
  strip (((Json.get args k).map T.toStr).getD "")

/-- The text of an argument that counts as true. -/
def truthyText (value : Option Json) : String :=
  ((value.filter truthy).map T.toStr).getD ""

/-- `normalize_category`. -/
def normalizeCategory (value : Option Json) : String :=
  let category := strip (lower (T.truthyText value))
  if category ∈ categories then category else "other"

/-- `_confidence`. -/
def confidence (value : Option Json) : Option String :=
  let text := strip (T.truthyText value)
  if text = "" then none
  else
    let head := String.ofList (stripChars (· ∈ [':', ';', ',', '.'])
      (lower (String.ofList (text.toList.takeWhile fun c => !isSpace c))).toList)
    some (if head ∈ confidences then head else text)

/-- The line that an argument names: nothing for zero, and an error for what is no number. -/
def lineArg (args : Json.Fields) (k k' : String) : Option (Option ℤ) :=
  (toInt ((firstTruthy [Json.get args k, Json.get args k']).getD (.int 0))).map fun n =>
    if n = 0 then none else some n

/-- The references, and an error for what cannot be gone through. -/
def referencesArg (args : Json.Fields) : Option (List String) :=
  let values : Option (List Json) :=
    match (Json.get args "references").filter truthy with
    | none => some []
    | some (.str s) => some [.str s]
    | some (.arr values) => some values
    | some (.obj fields) => some (fields.map fun f => .str f.1)
    | some _ => none
  values.map fun values => (values.map fun v => strip (T.toStr v)).filter (· ≠ "")

/-- `finding_from_args`, which can fail. -/
def findingFromArgs (args : Json.Fields) : Option Finding := do
  let severity := strip (lower (((Json.get args "severity").map T.toStr).getD ""))
  let lineStart ← lineArg args "start_line" "lineStart"
  let lineEnd ← lineArg args "end_line" "lineEnd"
  let references ← T.referencesArg args
  return {
    title := T.textArg args "title"
    severity := if severity ∈ severities then severity else "info"
    description := T.textArg args "description"
    impact := orNone (T.textArg args "impact")
    confidence := T.confidence (Json.get args "confidence")
    category := T.normalizeCategory (Json.get args "category")
    file := orNone (T.textArg args "file")
    lineStart
    lineEnd
    cwe := orNone (T.textArg args "cwe")
    cve := orNone (T.textArg args "cve")
    evidence := orNone (T.textArg args "evidence")
    remediation := orNone (T.textArg args "remediation")
    references }

/-- The place of a severity. -/
def severityOrder (f : Finding) : ℕ :=
  (severities.idxOf? f.severity).getD 99

/-- The findings after one more call of a tool. -/
def addCall (findings : Dict (String × Option String) Finding) (call : ToolCall) :
    Option (Dict (String × Option String) Finding) :=
  if call.name ≠ "report_finding" then some findings
  else
    (T.findingFromArgs call.args).map fun finding =>
      if finding.title = "" then findings
      else findings.set (finding.title, finding.file) finding

/-- `collect_findings`, which can fail. -/
def collectFindings (messages : List Message) : Option (List Finding) :=
  ((((repliesOf messages).flatMap AIMessage.toolCalls).foldlM T.addCall .empty).map fun findings =>
    (findings.items.map Prod.snd).insertionSort fun f f' => severityOrder f ≤ severityOrder f')

end Texts

end Agent
