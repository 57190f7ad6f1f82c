import GitAgent.Evals.Battery
import GitAgent.Agent.Metadata
import GitAgent.Agent.Executor
import GitAgent.Library.Table

/-!
# The grade of a run

The bundle of a run is graded against a unit of the battery (`evals/grade.py` and
`evals/validity.py`): a bundle that the gate refuses is not measured, and in each row the facts that
passed are among those that were measured, and these among the facts of the unit.
-/

namespace Evals

open Agent (strip takeText)

/-! ### Bundles and manifests -/

/-- The numbers of tokens of a run, by their names. -/
abbrev Usage := List (String × ℤ)

/-- What is recorded of a run. `Cost` is the type of its cost, a fraction of the language. -/
structure Bundle (Cost : Type) where
  unitKey : String
  unitId : String
  runId : Option Json := none
  mode : Option String := none
  preset : Option String := none
  model : Option String := none
  trial : Option ℤ := none
  dbStatus : Option String := none
  error : Option String := none
  fingerprint : Option String := none
  usage : Option Usage := none
  costUsd : Option Cost := none
  servedModels : Option (List String) := none
  subagentCount : Option ℤ := none
  report : Option Json.Fields := none
  reportCommit : Option String := none
  pinnedCommit : Option String := none

/-- The configuration of the memory of a run. -/
structure MemoryConfig where
  name : Option String := none
  experimentMode : Bool := false

/-- What a run was to be. -/
structure Manifest where
  memoryConfig : Option MemoryConfig := none

/-- The text of a text that may be missing. -/
def orNoneText (s : Option String) : String :=
  s.getD "None"

/-- A text that is there and counts as true. -/
def nonempty (s : Option String) : Option String :=
  s.filter (· ≠ "")

/-- A number that is there and is not zero. -/
def counted (n : Option ℤ) : Bool :=
  n.any (· ≠ 0)

/-! ### The gate -/

/-- `md5`, which gives 16 bytes. -/
structure Md5 where
  digest : List UInt8 → List UInt8
  length : ∀ bytes, (digest bytes).length = 16

/-- `hexdigest`, of the encoded text. -/
def Md5.hexdigest (H : Md5) (text : String) : String :=
  String.ofList ((H.digest (Utf8.encode text.toList)).flatMap fun b =>
    [Agent.hexChar (b.toNat / 16), Agent.hexChar b.toNat])

/-- `stable_row_id`. -/
def stableRowId (H : Md5) (parts : List String) : String :=
  takeText 12 (H.hexdigest (String.intercalate "|" parts))

variable {Cost : Type}

namespace Language

variable (L : Language)

/-- The text of a list of texts. -/
def reprTexts (texts : List String) : String :=
  "[" ++ String.intercalate ", " (texts.map L.quote) ++ "]"

/-- `gate_bundle`: the reasons for which a run is not valid. -/
def gateBundle (bundle : Bundle Cost) (manifest : Manifest) : List String :=
  match bundle.error with
  | some error => ["harness_error: " ++ error]
  | none =>
      let served := bundle.servedModels.getD []
      let requested := L.lower (strip (bundle.model.getD ""))
      let config := manifest.memoryConfig.getD {}
      (if served.any fun s => !within requested (L.lower s) then
        ["served_model_mismatch: served=" ++ L.reprTexts served ++ " requested=" ++ requested]
      else []) ++
      (if bundle.mode = some "agent" && bundle.dbStatus = some "succeeded" &&
          !counted bundle.subagentCount then
        ["agent_axis_not_fired: subagent_count=0 (null experiment)"]
      else []) ++
      (if bundle.mode = some "pipeline" && counted bundle.subagentCount then
        ["pipeline_axis_violated: subagent_count>0 (mis-wired profile)"]
      else []) ++
      (if config.name ≠ bundle.preset then
        ["preset_drift: resolved=" ++ orNoneText config.name ++ " requested=" ++
          orNoneText bundle.preset]
      else []) ++
      (if config.experimentMode && bundle.dbStatus = some "succeeded" && bundle.usage.isNone then
        ["usage_missing: experiment-mode preset without usage telemetry"]
      else []) ++
      match nonempty bundle.reportCommit, nonempty bundle.pinnedCommit with
      | some reportCommit, some pinned =>
          if reportCommit ≠ pinned then
            ["commit_drift: analyzed " ++ takeText 12 reportCommit ++ " != pinned " ++
              takeText 12 pinned]
          else []
      | _, _ => []

/-- The reasons for which a bundle is not scored: that it was made with another configuration, and
those of the gate. -/
def gateProblems (bundle : Bundle Cost) (manifest : Manifest)
    (expectedFingerprint : Option String) : List String :=
  (match nonempty expectedFingerprint, nonempty bundle.fingerprint with
    | some expected, some fingerprint =>
        if fingerprint ≠ expected then
          ["fingerprint_mismatch: bundle " ++ takeText 12 fingerprint ++ " != config " ++
            takeText 12 expected]
        else []
    | _, _ => []) ++ L.gateBundle bundle manifest

/-! ### Rows -/

/-- `proseview`: the prose of a report, and its JSON text. -/
def proseview (report : Option Json.Fields) : Option String :=
  report.map fun fields =>
    String.intercalate "\n"
      ((["answer", "description"].filterMap fun key => (Json.get fields key).bind text?) ++
        [L.dumps (.obj fields)])

end Language

/-- What the checks of a fact said. -/
structure FactDetail where
  factId : Json
  structuredPass : Option Bool
  prosePass : Option Bool
  deriving DecidableEq

/-- The row of a run. -/
structure Row (Cost : Type) where
  schemaVersion : ℕ := 1
  rowId : String
  unitKey : String
  unitId : String
  runId : Json
  mode : Option String
  preset : Option String
  model : Option String
  trial : Option ℤ
  dbStatus : Option String
  error : Option String
  gated : Bool
  gateProblems : List String
  usage : Option Usage
  costUsd : Option Cost
  gradeSource : String := "auto"
  behaviorPass : Option Bool
  factsTotal : ℕ := 0
  factsMeasuredProse : ℕ := 0
  factsPassProse : ℕ := 0
  factsMeasuredStruct : ℕ := 0
  factsPassStruct : ℕ := 0
  factDetail : List FactDetail := []
  deriving DecidableEq

/-- The counts of the loop over the facts of a unit. -/
structure Tally where
  measuredProse : ℕ := 0
  passProse : ℕ := 0
  measuredStruct : ℕ := 0
  passStruct : ℕ := 0
  detail : List FactDetail := []
  deriving DecidableEq

/-- One fact more. What could not be measured is not counted. -/
def Tally.add (t : Tally) (d : FactDetail) : Tally where
  measuredProse := t.measuredProse + (if d.prosePass.isSome then 1 else 0)
  passProse := t.passProse + (if d.prosePass = some true then 1 else 0)
  measuredStruct := t.measuredStruct + (if d.structuredPass.isSome then 1 else 0)
  passStruct := t.passStruct + (if d.structuredPass = some true then 1 else 0)
  detail := t.detail ++ [d]

namespace Language

variable (L : Language)

/-- What the checks say of a fact. A bundle that is gated is not checked. -/
def gradeFact (gated : Bool) (report : Option Json.Fields) (view : Option String) (fact : Json) :
    Option FactDetail := do
  let fact ← fields? fact
  let structuredPass ← (if gated then some none else L.checkFactStructured fact report)
  let prosePass ← (if gated then some none else L.checkFactProse fact view)
  let factId ← Json.get fact "fact_id"
  return { factId, structuredPass, prosePass }

/-- The loop over the facts of a unit. -/
def gradeFacts (gated : Bool) (report : Option Json.Fields) (view : Option String)
    (facts : List Json) (tally : Tally) : Option Tally :=
  facts.foldlM (fun t fact => (L.gradeFact gated report view fact).map (Tally.add t)) tally

/-- `grade_bundle`, which fails where the language raises an error. -/
def gradeBundle (H : Md5) (bundle : Bundle Cost) (unit : Json.Fields) (manifest : Manifest)
    (expectedFingerprint : Option String) : Option (Row Cost) := do
  let gateProblems := L.gateProblems bundle manifest expectedFingerprint
  let gated := !gateProblems.isEmpty
  let row : Row Cost := {
    rowId := stableRowId H [L.toStr (bundle.runId.getD (.str "")), bundle.unitKey]
    unitKey := bundle.unitKey, unitId := bundle.unitId, runId := bundle.runId.getD .null
    mode := bundle.mode, preset := bundle.preset, model := bundle.model, trial := bundle.trial
    dbStatus := bundle.dbStatus, error := bundle.error, gated, gateProblems
    usage := bundle.usage, costUsd := bundle.costUsd, behaviorPass := none }
  if expectedStatus unit = .str "failed" then
    let passed := bundle.dbStatus = some "failed" && bundle.error.isNone
    return { row with behaviorPass := if gated then none else some passed }
  else
    let behavior := if gated then none else some (bundle.dbStatus = some "succeeded" : Bool)
    let report := if gated then none else bundle.report
    let view := L.proseview report
    let facts ← factsOf unit
    let tally ← L.gradeFacts gated report view facts {}
    return { row with
      behaviorPass := behavior
      factsTotal := facts.length
      factsMeasuredProse := tally.measuredProse
      factsPassProse := tally.passProse
      factsMeasuredStruct := tally.measuredStruct
      factsPassStruct := tally.passStruct
      factDetail := tally.detail }

end Language

/-! ### What a row says -/

namespace Tally

/-- What a tally counts: the details of it. -/
structure Counts (t : Tally) : Prop where
  measuredProse : t.measuredProse = t.detail.countP fun d => d.prosePass.isSome
  passProse : t.passProse = t.detail.countP fun d => d.prosePass = some true
  measuredStruct : t.measuredStruct = t.detail.countP fun d => d.structuredPass.isSome
  passStruct : t.passStruct = t.detail.countP fun d => d.structuredPass = some true

theorem counts_empty :
  ({} : Tally).Counts
  := ⟨rfl, rfl, rfl, rfl⟩

/-- One fact more keeps the counts. -/
theorem Counts.add {t : Tally} (h : t.Counts) (d : FactDetail) :
  (t.add d).Counts
  := by
  constructor
  · simp [Tally.add, h.measuredProse, List.countP_append, List.countP_singleton]
  · simp [Tally.add, h.passProse, List.countP_append, List.countP_singleton]
  · simp [Tally.add, h.measuredStruct, List.countP_append, List.countP_singleton]
  · simp [Tally.add, h.passStruct, List.countP_append, List.countP_singleton]

/-- What passed was measured, in a list of details. -/
theorem countP_pass_le (pass : FactDetail → Option Bool) (detail : List FactDetail) :
  (detail.countP fun d => pass d = some true) ≤ detail.countP fun d => (pass d).isSome
  := by
  apply List.countP_mono_left
  intro d _ h
  rw [of_decide_eq_true h]
  rfl

end Tally

variable {L : Language} {H : Md5}

/-- After the loop the details are those of the facts, in their order, and they are counted. -/
theorem counts_gradeFacts {gated : Bool} {report : Option Json.Fields} {view : Option String}
    {facts : List Json} {t t' : Tally} (ht : t.Counts)
    (h : L.gradeFacts gated report view facts t = some t') :
  t'.Counts ∧ ∃ detail, t'.detail = t.detail ++ detail ∧
    List.Forall₂ (fun fact d => L.gradeFact gated report view fact = some d) facts detail
  := by
  induction facts generalizing t with
  | nil =>
      obtain rfl := Option.some.inj h
      exact ⟨ht, [], (List.append_nil _).symm, .nil⟩
  | cons fact facts ih =>
      rw [Language.gradeFacts, List.foldlM_cons, Option.bind_eq_bind, Option.bind_eq_some_iff] at h
      obtain ⟨t₁, hstep, h⟩ := h
      obtain ⟨d, hd, rfl⟩ := Option.map_eq_some_iff.mp hstep
      obtain ⟨ht', detail, hdetail, hall⟩ := ih (ht.add d) h
      use ht', d :: detail
      constructor
      · rw [hdetail, Tally.add, List.append_assoc, List.singleton_append]
      · exact .cons hd hall

/-- A fact whose rule is known is measured where it can be, and a gated bundle is not. -/
theorem isSome_gradeFact {gated : Bool} {report : Option Json.Fields} {view : Option String}
    {value : Json} (hvalue : Known value) {d : FactDetail}
    (h : L.gradeFact gated report view value = some d) :
  ∃ fact, value = .obj fact ∧ Json.get fact "fact_id" = some d.factId ∧
    (d.prosePass.isSome ↔ gated = false ∧ InProse fact view) ∧
    (d.structuredPass.isSome ↔ gated = false ∧ InFields fact report)
  := by
  obtain ⟨fact, rule, rfl, hrule⟩ := hvalue
  rw [Language.gradeFact, fields?, Option.bind_eq_bind, Option.bind_some] at h
  obtain ⟨structuredPass, hstructured, h⟩ := Option.bind_eq_some_iff.mp h
  obtain ⟨prosePass, hprose, h⟩ := Option.bind_eq_some_iff.mp h
  obtain ⟨factId, hid, h⟩ := Option.bind_eq_some_iff.mp h
  obtain rfl := Option.some.inj h
  use fact, rfl, hid
  cases gated with
  | true =>
      obtain rfl := Option.some.inj hstructured
      obtain rfl := Option.some.inj hprose
      simp
  | false =>
      rw [isSome_checkFactProse hrule hprose, isSome_checkFactStructured hrule hstructured]
      simp

/-- What a row says of the facts of a unit. -/
structure Measured (L : Language) (bundle : Bundle Cost) (unit : Json.Fields) (r : Row Cost) :
    Prop where
  gated : r.gated = true →
    r.factsMeasuredProse = 0 ∧ r.factsMeasuredStruct = 0 ∧ r.behaviorPass = none
  behavior : r.gated = false → r.behaviorPass.isSome
  prose : r.factsPassProse ≤ r.factsMeasuredProse ∧ r.factsMeasuredProse ≤ r.factsTotal
  struct : r.factsPassStruct ≤ r.factsMeasuredStruct ∧ r.factsMeasuredStruct ≤ r.factsTotal
  countsProse : (r.factsMeasuredProse = r.factDetail.countP fun d => d.prosePass.isSome) ∧
    r.factsPassProse = r.factDetail.countP fun d => d.prosePass = some true
  countsStruct : (r.factsMeasuredStruct = r.factDetail.countP fun d => d.structuredPass.isSome) ∧
    r.factsPassStruct = r.factDetail.countP fun d => d.structuredPass = some true
  measurable : ∀ d ∈ r.factDetail, ∃ facts fact, factsOf unit = some facts ∧ .obj fact ∈ facts ∧
    Json.get fact "fact_id" = some d.factId ∧
    (d.prosePass.isSome ↔ r.gated = false ∧ InProse fact (L.proseview bundle.report)) ∧
    (d.structuredPass.isSome ↔ r.gated = false ∧ InFields fact bundle.report)

/-- **What is measured.** The row of an accepted unit counts the facts that can be measured, and
nothing of a gated bundle. -/
theorem measured_of_gradeBundle {bundle : Bundle Cost} {unit : Json.Fields} {manifest : Manifest}
    {expectedFingerprint : Option String} {r : Row Cost} (hunit : Accepted L unit)
    (h : L.gradeBundle H bundle unit manifest expectedFingerprint = some r) :
  Measured L bundle unit r
  := by
  obtain ⟨facts, hfacts, hknown⟩ := hunit.known
  rw [Language.gradeBundle] at h
  obtain ⟨gated, hgated⟩ :
    ∃ gated, gated = !(L.gateProblems bundle manifest expectedFingerprint).isEmpty := ⟨_, rfl⟩
  simp only [← hgated] at h
  split at h
  · obtain rfl := Option.some.inj h
    constructor <;> cases gated <;> simp
  · rw [hfacts, Option.bind_eq_bind, Option.bind_some] at h
    obtain ⟨t, ht, h⟩ := Option.bind_eq_some_iff.mp h
    obtain rfl := Option.some.inj h
    obtain ⟨hcounts, detail, hdetail, hall⟩ := counts_gradeFacts Tally.counts_empty ht
    obtain rfl : t.detail = detail := hdetail
    have hlength : facts.length = t.detail.length := hall.length_eq
    have hmeasurable : ∀ d ∈ t.detail, ∃ fact, .obj fact ∈ facts ∧
        Json.get fact "fact_id" = some d.factId ∧
        (d.prosePass.isSome ↔ gated = false ∧ InProse fact (L.proseview bundle.report)) ∧
        (d.structuredPass.isSome ↔ gated = false ∧ InFields fact bundle.report) := by
      intro d hd
      obtain ⟨value, hvalue, hgrade⟩ := hall.exists_of_mem hd
      obtain ⟨fact, rfl, hid, hprose, hstruct⟩ := isSome_gradeFact (hknown value hvalue) hgrade
      use fact, hvalue, hid
      rw [hprose, hstruct]
      cases gated <;> simp
    constructor
    · -- Of a gated bundle no detail says anything.
      rintro rfl
      simp only [hcounts.measuredProse, hcounts.measuredStruct]
      refine ⟨?_, ?_, rfl⟩ <;> rw [List.countP_eq_zero] <;> intro d hd
      · obtain ⟨fact, -, -, hprose, -⟩ := hmeasurable d hd
        rw [hprose]
        simp
      · obtain ⟨fact, -, -, -, hstruct⟩ := hmeasurable d hd
        rw [hstruct]
        simp
    · rintro rfl
      rfl
    · simp only [hcounts.measuredProse, hcounts.passProse, hlength]
      exact ⟨Tally.countP_pass_le _ _, List.countP_le_length⟩
    · simp only [hcounts.measuredStruct, hcounts.passStruct, hlength]
      exact ⟨Tally.countP_pass_le _ _, List.countP_le_length⟩
    · exact ⟨hcounts.measuredProse, hcounts.passProse⟩
    · exact ⟨hcounts.measuredStruct, hcounts.passStruct⟩
    · intro d hd
      obtain ⟨fact, hfact, h⟩ := hmeasurable d hd
      exact ⟨facts, fact, hfacts, hfact, h⟩

/-! ### The identifier of a row -/

theorem length_hexdigest (H : Md5) (text : String) :
  (H.hexdigest text).toList.length = 32
  := by
  simp [Md5.hexdigest, List.length_flatMap, H.length]

theorem stableRowId_ne_empty (H : Md5) (parts : List String) :
  stableRowId H parts ≠ ""
  := by
  intro h
  have hlength := congrArg (fun s => s.toList.length) h
  simp [stableRowId, takeText, length_hexdigest] at hlength

/-- A row that is made of a bundle and an accepted unit. -/
def Graded (L : Language) (H : Md5) (r : Row Cost) : Prop :=
  ∃ bundle unit manifest expectedFingerprint, Accepted L unit ∧
    L.gradeBundle H bundle unit manifest expectedFingerprint = some r

/-- A row that is made has an identifier. -/
theorem Graded.rowId_ne {r : Row Cost} (h : Graded L H r) :
  r.rowId ≠ ""
  := by
  obtain ⟨bundle, unit, manifest, expectedFingerprint, -, hgrade⟩ := h
  have hrow : r.rowId = stableRowId H [L.toStr (bundle.runId.getD (.str "")), bundle.unitKey] := by
    rw [Language.gradeBundle] at hgrade
    simp only at hgrade
    split at hgrade
    · obtain rfl := Option.some.inj hgrade
      rfl
    · obtain ⟨_, -, hgrade⟩ := Option.bind_eq_some_iff.mp hgrade
      obtain ⟨_, -, hgrade⟩ := Option.bind_eq_some_iff.mp hgrade
      obtain rfl := Option.some.inj hgrade
      rfl
  rw [hrow]
  apply stableRowId_ne_empty

/-- Such a row measures the facts of some unit. -/
theorem Graded.measured {r : Row Cost} (h : Graded L H r) :
  ∃ bundle unit, Measured L bundle unit r
  := by
  obtain ⟨bundle, unit, manifest, expectedFingerprint, hunit, hgrade⟩ := h
  exact ⟨bundle, unit, measured_of_gradeBundle hunit hgrade⟩

end Evals
