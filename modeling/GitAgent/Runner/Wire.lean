import GitAgent.Library.Json
import GitAgent.Runner.Event

/-!
# The wire format of events

The event as a runner decodes it from a JSON object, and encodes it again when it forwards it
to the holder of its instance (`core/runner/events.py`). What an event was decoded from may
have numbers in the place of texts; once decoded it is in normal form, and a normal form is
decoded from its own encoding.
-/

namespace Runner

/-- The conversions `str` and `int` of a JSON value, as far as the code relies on them: a text
and an integer are converted to themselves, and only the empty text to the empty text. -/
structure Builtins where
  str : Json → String
  int : Json → Option ℤ
  str_str : ∀ s, str (.str s) = s
  eq_of_str : ∀ v, str v = "" → v = .str ""
  int_int : ∀ n, int (.int n) = some n

/-- Conversions that say of a list, an object or a fraction only what it is. -/
def Builtins.simple : Builtins where
  str
    | .null => "None"
    | .bool b => if b then "True" else "False"
    | .int n => toString n
    | .float _ _ => "float"
    | .str s => s
    | .arr _ => "list"
    | .obj _ => "dict"
  int
    | .bool b => some (if b then 1 else 0)
    | .int n => some n
    | .float num den => if den = 0 then none else some (num.tdiv den)
    | .str s => s.toInt?
    | _ => none
  str_str _ := rfl
  eq_of_str v h := by
    cases v with
    | bool b => cases b <;> contradiction
    | int n =>
        cases n with
        | ofNat n => apply absurd h Nat.repr_ne_empty
        | negSucc n => apply absurd (String.append_eq_empty_iff.mp h).1 (by decide)
    | str s => apply congrArg Json.str h
    | _ => simp at h
  int_int _ := rfl

instance : Inhabited Builtins :=
  ⟨.simple⟩

/-- Whether a value counts as true. -/
def truthy : Json → Bool
  | .null => false
  | .bool b => b
  | .int n => n ≠ 0
  | .float num den => num ≠ 0 || den = 0
  | .str s => s ≠ ""
  | .arr values => !values.isEmpty
  | .obj fields => !fields.isEmpty

/-- The event that a JSON object describes. Its numbers are any integers. -/
structure WireEvent where
  eventId : ℤ
  instanceId : ℤ
  threadId : String
  repositoryId : ℤ
  provider : String
  action : String
  dedupKey : String
  commitSha : Option String := none
  ref : Option String := none
  traceId : String := ""
  beforeSha : Option String := none
  baseSha : Option String := none
  headSha : Option String := none
  prNumber : Option ℤ := none
  prTitle : Option String := none
  prBody : Option String := none
  changedFiles : List String := []
  deriving DecidableEq, Repr

/-- `_opt_str`: a missing value, `null` and the empty text are absent. -/
def optField (B : Builtins) (d : Json.Fields) (key : String) : Option String :=
  match Json.get d key with
  | none => none
  | some .null => none
  | some (.str s) => optStr (some s)
  | some v => some (B.str v)

/-- `_opt_sha`: a commit that is written in zeros only is absent, too. -/
def optShaField (B : Builtins) (d : Json.Fields) (key : String) : Option String :=
  optSha (optField B d key)

/-- The values of a list that is there. A value that counts as false stands for no list. -/
def listField (d : Json.Fields) (key : String) : Option (List Json) :=
  match Json.get d key with
  | none => some []
  | some v =>
      if truthy v then
        match v with
        | .arr values => some values
        | _ => none
      else some []

/-- A text that is there. A value that counts as false stands for the empty text. -/
def textField (B : Builtins) (d : Json.Fields) (key : String) : String :=
  match Json.get d key with
  | none => ""
  | some v => if truthy v then B.str v else ""

/-- A number that is there, unless it is `null` or the empty text. -/
def numberField (B : Builtins) (d : Json.Fields) (key : String) : Option (Option ℤ) :=
  match Json.get d key with
  | none => some none
  | some .null => some none
  | some (.str s) => if s = "" then some none else (B.int (.str s)).map some
  | some v => (B.int v).map some

/-- `parse_event`: the event that an object describes, if it is complete. -/
def decode (B : Builtins) (d : Json.Fields) : Option WireEvent := do
  let files ← listField d "changedFiles"
  let eventId ← (Json.get d "eventId").bind B.int
  let instanceId ← (Json.get d "instanceId").bind B.int
  let threadId ← (Json.get d "threadId").map B.str
  let repositoryId ← (Json.get d "repositoryId").bind B.int
  let provider ← (Json.get d "provider").map B.str
  let action ← (Json.get d "action").map B.str
  let dedupKey ← (Json.get d "dedupKey").map B.str
  let prNumber ← numberField B d "prNumber"
  return {
    eventId, instanceId, threadId, repositoryId, provider, action, dedupKey
    commitSha := optShaField B d "commitSha"
    ref := optField B d "ref"
    traceId := textField B d "traceId"
    beforeSha := optShaField B d "beforeSha"
    baseSha := optShaField B d "baseSha"
    headSha := optShaField B d "headSha"
    prNumber
    prTitle := optField B d "prTitle"
    prBody := optField B d "prBody"
    changedFiles := files.map B.str }

/-- A text, or `null`. -/
def orNull (s : Option String) : Json :=
  (s.map Json.str).getD .null

/-- `to_wire`. -/
def WireEvent.toWire (e : WireEvent) : Json.Fields :=
  [("eventId", .int e.eventId), ("instanceId", .int e.instanceId),
    ("threadId", .str e.threadId), ("repositoryId", .int e.repositoryId),
    ("provider", .str e.provider), ("action", .str e.action), ("dedupKey", .str e.dedupKey),
    ("commitSha", orNull e.commitSha), ("ref", orNull e.ref), ("traceId", .str e.traceId)] ++
  (Json.field "beforeSha" (e.beforeSha.map .str) ++
  (Json.field "baseSha" (e.baseSha.map .str) ++
  (Json.field "headSha" (e.headSha.map .str) ++
  (Json.field "prNumber" (e.prNumber.map .int) ++
  (Json.field "prTitle" (e.prTitle.map .str) ++
  (Json.field "prBody" (e.prBody.map .str) ++
  (Json.field "changedFiles"
    (if e.changedFiles = [] then none else some (.arr (e.changedFiles.map .str))))))))))

/-! ### Normal forms -/

/-- An event that was decoded: no optional text is empty, and no commit is written in zeros. -/
structure WireEvent.Normal (e : WireEvent) : Prop where
  commitSha : optSha e.commitSha = e.commitSha
  ref : optStr e.ref = e.ref
  beforeSha : optSha e.beforeSha = e.beforeSha
  baseSha : optSha e.baseSha = e.baseSha
  headSha : optSha e.headSha = e.headSha
  prTitle : optStr e.prTitle = e.prTitle
  prBody : optStr e.prBody = e.prBody

theorem optStr_optStr (s : Option String) :
  optStr (optStr s) = optStr s
  := by
  rw [optStr, optStr, Option.filter_filter]
  simp

theorem optSha_optStr (s : Option String) :
  optSha (optStr s) = optSha s
  := by rw [optSha, optSha, optStr_optStr]

theorem optSha_optSha (s : Option String) :
  optSha (optSha s) = optSha s
  := by
  cases s with
  | none => rfl
  | some s =>
      rw [optSha, optStr]
      by_cases h : s = "" <;> by_cases h0 : s.toList.all (· = '0') <;>
        simp [optSha, optStr, Option.filter, h, h0]

variable (B : Builtins)

/-- A field is decoded as absent or as a text that is not empty. -/
theorem optStr_optField (d : Json.Fields) (key : String) :
  optStr (optField B d key) = optField B d key
  := by
  rw [optField]
  split
  · rfl
  · rfl
  · apply optStr_optStr
  · rename_i v _ hv _
    rw [optStr, Option.filter_some, if_pos]
    rw [decide_eq_true_eq]
    intro h
    apply hv "" (B.eq_of_str v h)

/-- What is decoded is in normal form. -/
theorem normal_of_decode {d : Json.Fields} {e : WireEvent} (h : decode B d = some e) :
  e.Normal
  := by
  simp only [decode, Option.bind_eq_bind, Option.bind_eq_some_iff, Option.pure_def,
    Option.some.injEq] at h
  obtain ⟨_, -, _, -, _, -, _, -, _, -, _, -, _, -, _, -, _, -, rfl⟩ := h
  constructor
  · apply optSha_optSha
  · apply optStr_optField
  · apply optSha_optSha
  · apply optSha_optSha
  · apply optSha_optSha
  · apply optStr_optField
  · apply optStr_optField

/-! ### Decoding what was encoded -/

theorem optField_eq {d : Json.Fields} {key : String} {s : Option String}
    (h : Json.get d key = s.map .str) :
  optField B d key = optStr s
  := by
  rw [optField, h]
  cases s <;> rfl

theorem optField_eq_orNull {d : Json.Fields} {key : String} {s : Option String}
    (h : Json.get d key = some (orNull s)) :
  optField B d key = optStr s
  := by
  rw [optField, h]
  cases s <;> rfl

theorem textField_eq {d : Json.Fields} {key : String} {s : String}
    (h : Json.get d key = some (.str s)) :
  textField B d key = s
  := by
  rw [textField, h]
  by_cases hs : s = ""
  · subst hs
    rfl
  · simp [truthy, hs, B.str_str]

theorem numberField_eq {d : Json.Fields} {key : String} {n : Option ℤ}
    (h : Json.get d key = n.map .int) :
  numberField B d key = some n
  := by
  rw [numberField, h]
  cases n with
  | none => rfl
  | some n => simp [B.int_int]

theorem listField_eq {d : Json.Fields} {key : String} {files : List String}
    (h : Json.get d key = if files = [] then none else some (.arr (files.map .str))) :
  listField d key = some (files.map .str)
  := by
  rw [listField, h]
  split
  · rename_i hn
    split at hn
    · rename_i hf
      rw [hf]
      rfl
    · contradiction
  · rename_i v hv
    split at hv
    · contradiction
    · rename_i hf
      obtain rfl := Option.some.inj hv
      simp [truthy, hf]

theorem map_str_str (files : List String) :
  (files.map Json.str).map B.str = files
  := by
  rw [List.map_map]
  apply List.map_id''
  apply B.str_str

/-- What an object that describes an event in full is decoded to. -/
theorem decode_eq {d : Json.Fields} {e : WireEvent}
    (heventId : Json.get d "eventId" = some (.int e.eventId))
    (hinstanceId : Json.get d "instanceId" = some (.int e.instanceId))
    (hthreadId : Json.get d "threadId" = some (.str e.threadId))
    (hrepositoryId : Json.get d "repositoryId" = some (.int e.repositoryId))
    (hprovider : Json.get d "provider" = some (.str e.provider))
    (haction : Json.get d "action" = some (.str e.action))
    (hdedupKey : Json.get d "dedupKey" = some (.str e.dedupKey))
    (hcommitSha : optShaField B d "commitSha" = e.commitSha)
    (href : optField B d "ref" = e.ref)
    (htraceId : Json.get d "traceId" = some (.str e.traceId))
    (hbeforeSha : optShaField B d "beforeSha" = e.beforeSha)
    (hbaseSha : optShaField B d "baseSha" = e.baseSha)
    (hheadSha : optShaField B d "headSha" = e.headSha)
    (hprNumber : Json.get d "prNumber" = e.prNumber.map .int)
    (hprTitle : optField B d "prTitle" = e.prTitle)
    (hprBody : optField B d "prBody" = e.prBody)
    (hchangedFiles : Json.get d "changedFiles" =
      if e.changedFiles = [] then none else some (.arr (e.changedFiles.map .str))) :
  decode B d = some e
  := by
  rw [decode, listField_eq hchangedFiles, numberField_eq B hprNumber, textField_eq B htraceId,
    heventId, hinstanceId, hthreadId, hrepositoryId, hprovider, haction, hdedupKey, hcommitSha,
    href, hbeforeSha, hbaseSha, hheadSha, hprTitle, hprBody]
  simp only [Option.bind_eq_bind, Option.bind_some, Option.map_some, B.int_int, B.str_str,
    map_str_str]
  rfl

/-- An event in normal form is decoded from its encoding. -/
theorem decode_toWire {e : WireEvent} (h : e.Normal) :
  decode B e.toWire = some e
  := by
  have hsha : ∀ {key s}, Json.get e.toWire key = s.map .str → optSha s = s →
      optShaField B e.toWire key = s := by
    intro key s hk hs
    rw [optShaField, optField_eq B hk, optSha_optStr, hs]
  have hstr : ∀ {key s}, Json.get e.toWire key = s.map .str → optStr s = s →
      optField B e.toWire key = s := by
    intro key s hk hs
    rw [optField_eq B hk, hs]
  apply decode_eq
  case hcommitSha =>
      rw [optShaField, optField_eq_orNull B (s := e.commitSha), optSha_optStr, h.commitSha]
      simp [WireEvent.toWire]
  case href =>
      rw [optField_eq_orNull B (s := e.ref), h.ref]
      simp [WireEvent.toWire]
  case hbeforeSha =>
      apply hsha _ h.beforeSha
      simp [WireEvent.toWire]
  case hbaseSha =>
      apply hsha _ h.baseSha
      simp [WireEvent.toWire]
  case hheadSha =>
      apply hsha _ h.headSha
      simp [WireEvent.toWire]
  case hprTitle =>
      apply hstr _ h.prTitle
      simp [WireEvent.toWire]
  case hprBody =>
      apply hstr _ h.prBody
      simp [WireEvent.toWire]
  all_goals simp [WireEvent.toWire]

/-- What is decoded is decoded again from its encoding. -/
theorem decode_toWire_decode (d : Json.Fields) :
  ((decode B d).bind fun e => decode B e.toWire) = decode B d
  := by
  cases h : decode B d with
  | none => rfl
  | some e => apply decode_toWire B (normal_of_decode B h)

end Runner
