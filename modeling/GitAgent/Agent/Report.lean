import GitAgent.Library.Transition
import GitAgent.Agent.Finding

/-!
# The report of a turn

The tools with which the lead and its subagents record findings and write the report of a turn
(`core/tools/security/hub.py` and `report.py`). A finding is recorded before it is stored, and the
report lists what was recorded, in the order in which it was; so it describes the stored findings
exactly if they were all stored, each once, from the highest severity on.
-/

namespace Agent

open Transition

/-! ### Findings of the hub -/

/-- The fields of a finding that the runner fills in. -/
structure Blame where
  author : Option String := none
  email : Option String := none
  commit : Option String := none
  date : Option String := none
  commitMessage : Option String := none
  introducedBy : Option String := none
  deriving DecidableEq, Repr

/-- A finding with the fields that the runner fills in. -/
structure HubFinding extends Finding where
  blame : Blame := {}
  deriving DecidableEq, Repr

/-- A finding is known by its title and its file. -/
def Finding.key (f : Finding) : String × Option String :=
  (f.title, f.file)

/-- The arguments of `report_finding`. -/
structure ReportFindingArgs where
  title : String
  severity : String
  description : String := ""
  file : String := ""
  startLine : ℤ := 0
  endLine : ℤ := 0
  cwe : String := ""
  cve : String := ""
  impact : String := ""
  evidence : String := ""
  remediation : String := ""
  confidence : String := ""
  category : String := "other"
  references : Option (List String) := none
  deriving DecidableEq, Repr

/-- Why `report_finding` refuses a finding. -/
inductive FindingError
  | badSeverity (severity : String)
  | noTitle
  | noFile
  deriving DecidableEq, Repr

/-- `validate_finding`. -/
def validateFinding (title severity file : String) : Option FindingError :=
  if strip (lower severity) ∉ severities then some (.badSeverity severity)
  else if strip title = "" then some .noTitle
  else if strip file = "" then some .noFile
  else none

namespace ReportFindingArgs

variable (a : ReportFindingArgs)

/-- The arguments as they are handed to `finding_from_args`. -/
def fields : Json.Fields :=
  [("title", .str a.title), ("severity", .str a.severity), ("description", .str a.description),
    ("file", .str a.file), ("start_line", .int a.startLine), ("end_line", .int a.endLine),
    ("cwe", .str a.cwe), ("cve", .str a.cve), ("impact", .str a.impact),
    ("evidence", .str a.evidence), ("remediation", .str a.remediation),
    ("confidence", .str a.confidence), ("category", .str a.category),
    ("references", (a.references.map fun refs => .arr (refs.map .str)).getD .null)]

/-- The title and the file that are named. -/
def key : String × Option String :=
  (strip a.title, orNone (strip a.file))

/-- The place of the severity that is named. -/
def severityOrder : ℕ :=
  (severities.idxOf? (strip (lower a.severity))).getD 99

end ReportFindingArgs

/-! ### The report -/

/-- `ReportRange`. -/
structure ReportRange where
  before : Option String := none
  after : Option String := none
  base : Option String := none
  head : Option String := none
  deriving DecidableEq, Repr

/-- The fields that are present. -/
def ReportRange.dump (r : ReportRange) : List (String × String) :=
  [("before", r.before), ("after", r.after), ("base", r.base), ("head", r.head)].filterMap
    fun (k, v) => v.map (k, ·)

/-- `ReportScope`. -/
structure ReportScope where
  eventType : String := ""
  commit : Option String := none
  range : Option ReportRange := none
  filesTouched : List String := []
  linesChanged : Option ℤ := none
  deriving DecidableEq, Repr

/-- `WriteReportArgs`. -/
structure WriteReportArgs where
  summary : String
  scope : Option ReportScope := none
  method : List String := []
  topRisks : List String := []
  recommendations : List String := []
  limitations : List String := []
  deriving DecidableEq, Repr

/-- The structure of a report. -/
structure StructuredReport where
  summary : String
  scope : ReportScope
  range : Option (List (String × String))
  method : List String
  findingsBySeverity : Dict String ℕ
  topRisks : List String
  recommendations : List String
  limitations : List String
  findings : List HubFinding

/-- `findings_by_severity`. -/
def findingsBySeverity (findings : List HubFinding) : Dict String ℕ :=
  findings.foldl
    (fun counts f =>
      let severity := if f.severity = "" then "info" else f.severity
      counts.set severity ((counts.get severity).getD 0 + 1))
    (severities.foldl (fun counts severity => counts.set severity 0) .empty)

/-- The scope of the model, with what is known of the event where the model says nothing. -/
def ReportScope.fill (scope default : ReportScope) : ReportScope where
  eventType := if scope.eventType = "" then default.eventType else scope.eventType
  commit := if scope.commit.getD "" = "" then default.commit else scope.commit
  range := scope.range.or default.range
  filesTouched := if scope.filesTouched = [] then default.filesTouched else scope.filesTouched
  linesChanged := scope.linesChanged.or default.linesChanged

/-- `build_structured_report`. -/
def buildStructuredReport (args : WriteReportArgs) (findings : List HubFinding)
    (defaultScope : Option ReportScope) : StructuredReport :=
  let scope := args.scope.getD {}
  let scope := (defaultScope.map scope.fill).getD scope
  { summary := strip args.summary
    scope
    range := scope.range.map ReportRange.dump
    method := args.method
    findingsBySeverity := findingsBySeverity findings
    topRisks := args.topRisks
    recommendations := args.recommendations
    limitations := args.limitations
    findings }

/-! ### The tools -/

/-- The tools of a turn: whether there is a sandbox to ask for the blame, and the scope of the
event. -/
structure SecurityTools where
  texts : Texts
  sandbox : Bool
  defaultScope : ReportScope

/-- What became of a finding: it is being stored, it is stored, or storing it failed. -/
inductive FilingStatus
  | pending
  | stored
  | failed
  deriving DecidableEq, Repr

/-- A call of `report_finding` that has come to store its finding. -/
structure Filing where
  args : ReportFindingArgs
  finding : HubFinding
  status : FilingStatus := .pending
  deriving DecidableEq, Repr

namespace SecurityTools

/-- The calls that wait for the blame, the findings that were recorded, and the calls that have come
to store theirs, in order. -/
structure State where
  resolving : List (ReportFindingArgs × Finding) := []
  recorded : List HubFinding := []
  filings : List Filing := []
  deriving DecidableEq, Repr

namespace State

variable (s : State)

/-- A finding is recorded, and then it is being stored. -/
def file (args : ReportFindingArgs) (finding : HubFinding) : State :=
  { s with
    recorded := s.recorded ++ [finding]
    filings := s.filings ++ [⟨args, finding, .pending⟩] }

/-- The findings whose `add_finding` has succeeded. -/
def persisted : List HubFinding :=
  (s.filings.filter fun f => f.status = .stored).map Filing.finding

end State

variable (T : SecurityTools)

/-- `_report_finding`, until it waits for the blame or for the store. -/
def reportFinding (s : State) (args : ReportFindingArgs) : State :=
  if (validateFinding args.title args.severity args.file).isSome then s
  else match T.texts.findingFromArgs args.fields with
    | none => s
    | some finding =>
        if T.sandbox ∧ finding.file.isSome ∧ finding.lineStart.isSome then
          { s with resolving := s.resolving ++ [(args, finding)] }
        else s.file args ⟨finding, {}⟩

/-- `_write_report`, until it waits for the store. -/
def writeReport (s : State) (args : WriteReportArgs) : Option StructuredReport :=
  if strip args.summary = "" then none
  else some (buildStructuredReport args s.recorded (some T.defaultScope))

/-- What happens in a turn: `report_finding` is called, the blame of a finding is there or the call
ends without it, and the store has answered. -/
inductive Act
  | report (args : ReportFindingArgs)
  | blamed (i : ℕ) (blame : Blame)
  | abandoned (i : ℕ)
  | answered (i : ℕ) (ok : Bool)
  deriving DecidableEq, Repr

/-- The state after an act, if it can happen. -/
def act (s : State) : Act → Option State
  | .report args => some (T.reportFinding s args)
  | .blamed i blame => s.resolving[i]?.map fun (args, finding) =>
      { s with resolving := s.resolving.eraseIdx i }.file args ⟨finding, blame⟩
  | .abandoned i => s.resolving[i]?.map fun _ => { s with resolving := s.resolving.eraseIdx i }
  | .answered i ok =>
      (s.filings[i]?.filter fun f => f.status = .pending).map fun f =>
        { s with filings := s.filings.set i { f with status := if ok then .stored else .failed } }

/-- The calls of a turn. -/
def turn : System State Act where
  init s := s = {}
  step := T.act

end SecurityTools

/-! ### What a report should describe -/

/-- The report lists one of the stored findings for each title and file, from the highest severity
on, and counts them. -/
structure Describes (report : StructuredReport) (persisted : List HubFinding) : Prop where
  sound : ∀ f ∈ report.findings, f ∈ persisted
  complete : ∀ f ∈ persisted, ∃ f' ∈ report.findings, f'.key = f.key
  once : (report.findings.map fun f => f.key).Nodup
  ordered : report.findings.Pairwise fun f f' =>
    Texts.severityOrder f.toFinding ≤ Texts.severityOrder f'.toFinding
  counts : ∀ severity ∈ severities, report.findingsBySeverity.get severity =
    some (report.findings.countP fun f => f.severity = severity)

/-- The calls that have come to store their findings have all succeeded, name different findings,
and name them from the highest severity on. -/
structure Orderly (filings : List Filing) : Prop where
  stored : ∀ f ∈ filings, f.status = .stored
  once : (filings.map fun f => f.args.key).Nodup
  ordered : filings.Pairwise fun f f' => f.args.severityOrder ≤ f'.args.severityOrder

/-! ### The counts -/

theorem findingsBySeverity_get {findings : List HubFinding}
    (h : ∀ f ∈ findings, f.severity ∈ severities) {severity : String} (hs : severity ∈ severities) :
  (findingsBySeverity findings).get severity =
    some (findings.countP fun f => f.severity = severity)
  := by
  have hfold : ∀ (findings : List HubFinding) (counts : Dict String ℕ) (n : ℕ),
      (∀ f ∈ findings, f.severity ∈ severities) → counts.get severity = some n →
      (findings.foldl
        (fun counts f =>
          let severity := if f.severity = "" then "info" else f.severity
          counts.set severity ((counts.get severity).getD 0 + 1)) counts).get severity =
        some (n + findings.countP fun f => f.severity = severity) := by
    intro findings
    induction findings with
    | nil =>
        intro counts n _ hn
        simpa using hn
    | cons f findings ih =>
        intro counts n hf hn
        have hne : f.severity ≠ "" := by
          intro he
          have hmem := hf f List.mem_cons_self
          rw [he] at hmem
          revert hmem
          decide
        rw [List.foldl_cons, List.countP_cons]
        dsimp only
        rw [if_neg hne]
        by_cases he : f.severity = severity
        · rw [ih _ (n + 1) fun f' hf' => hf f' (List.mem_cons_of_mem _ hf'),
            if_pos (by simpa using he)]
          · congr 1
            omega
          · rw [Dict.get_set, if_pos he.symm, he, hn]
            rfl
        · rw [ih _ n fun f' hf' => hf f' (List.mem_cons_of_mem _ hf'), if_neg (by simpa using he),
            Nat.add_zero]
          rw [Dict.get_set, if_neg fun he' => he he'.symm, hn]
  have hinit : (severities.foldl (fun counts severity => counts.set severity 0)
      (Dict.empty : Dict String ℕ)).get severity = some 0 := by
    simp only [severities, List.mem_cons, List.not_mem_nil, or_false] at hs
    rcases hs with rfl | rfl | rfl | rfl | rfl <;> decide
  rw [findingsBySeverity, hfold findings _ 0 h hinit, Nat.zero_add]

namespace SecurityTools

variable {T : SecurityTools} {s s' : State}

/-! ### What is known of the findings -/

/-- The finding that is made of arguments. -/
def FindingOf (T : SecurityTools) (args : ReportFindingArgs) (f : Finding) : Prop :=
  T.texts.findingFromArgs args.fields = some f

theorem FindingOf.spec {args : ReportFindingArgs} {f : Finding} (h : T.FindingOf args f) :
  f.key = args.key ∧
    f.severity =
      if strip (lower args.severity) ∈ severities then strip (lower args.severity) else "info"
  := by
  rw [FindingOf, Texts.findingFromArgs] at h
  simp only [Option.bind_eq_bind, Option.bind_eq_some_iff] at h
  obtain ⟨lineStart, -, lineEnd, -, references, -, h⟩ := h
  obtain rfl := Option.some.inj h
  have htitle : Json.get args.fields "title" = some (.str args.title) := by
    rw [ReportFindingArgs.fields, Json.get_cons, if_pos rfl]
  have hfile : Json.get args.fields "file" = some (.str args.file) := by
    simp only [ReportFindingArgs.fields, Json.get_cons]
    rfl
  have hseverity : Json.get args.fields "severity" = some (.str args.severity) := by
    simp only [ReportFindingArgs.fields, Json.get_cons]
    rfl
  have htitle' : T.texts.textArg args.fields "title" = strip args.title := by
    rw [Texts.textArg, htitle]
    rfl
  have hfile' : T.texts.textArg args.fields "file" = strip args.file := by
    rw [Texts.textArg, hfile]
    rfl
  constructor
  · rw [Finding.key, ReportFindingArgs.key]
    dsimp only
    rw [htitle', hfile']
  · dsimp only
    rw [hseverity]
    rfl

/-- A finding that was accepted has the severity that is named. -/
theorem FindingOf.severity {args : ReportFindingArgs} {f : Finding} (h : T.FindingOf args f)
    (hv : validateFinding args.title args.severity args.file = none) :
  f.severity ∈ severities ∧ Texts.severityOrder f = args.severityOrder
  := by
  have hmem : strip (lower args.severity) ∈ severities := by
    by_contra hmem
    rw [validateFinding, if_pos hmem] at hv
    contradiction
  have hseverity := h.spec.2
  rw [if_pos hmem] at hseverity
  rw [Texts.severityOrder, ReportFindingArgs.severityOrder, hseverity]
  exact ⟨hmem, rfl⟩

/-- What was recorded are the findings of the calls that have come to store theirs, as those calls
name them. -/
structure Inv (T : SecurityTools) (s : State) : Prop where
  recorded : s.recorded = s.filings.map Filing.finding
  filings : ∀ f ∈ s.filings, validateFinding f.args.title f.args.severity f.args.file = none ∧
    T.FindingOf f.args f.finding.toFinding
  resolving : ∀ r ∈ s.resolving, validateFinding r.1.title r.1.severity r.1.file = none ∧
    T.FindingOf r.1 r.2

theorem Inv.file (h : Inv T s) {args : ReportFindingArgs} {f : HubFinding}
    (hv : validateFinding args.title args.severity args.file = none)
    (hf : T.FindingOf args f.toFinding) :
  Inv T (s.file args f)
  := by
  refine ⟨?_, ?_, h.resolving⟩
  · rw [State.file]
    dsimp only
    rw [List.map_append, h.recorded]
    rfl
  · exact List.forall_mem_append.mpr ⟨h.filings, List.forall_mem_singleton.mpr ⟨hv, hf⟩⟩

theorem Inv.erase (h : Inv T s) (i : ℕ) :
  Inv T { s with resolving := s.resolving.eraseIdx i }
  := ⟨h.recorded, h.filings, fun r hr => h.resolving r (List.mem_of_mem_eraseIdx hr)⟩

theorem Inv.reportFinding (h : Inv T s) (args : ReportFindingArgs) :
  Inv T (T.reportFinding s args)
  := by
  rw [SecurityTools.reportFinding]
  split
  · apply h
  · rename_i hv
    rw [Option.not_isSome_iff_eq_none] at hv
    split
    · apply h
    · rename_i finding hf
      split
      · refine ⟨h.recorded, h.filings, ?_⟩
        exact List.forall_mem_append.mpr ⟨h.resolving, List.forall_mem_singleton.mpr ⟨hv, hf⟩⟩
      · apply h.file (f := ⟨finding, {}⟩) hv hf

theorem Inv.answered (h : Inv T s) {i : ℕ} {f : Filing} (hf : s.filings[i]? = some f)
    (status : FilingStatus) :
  Inv T { s with filings := s.filings.set i { f with status } }
  := by
  refine ⟨?_, ?_, h.resolving⟩
  · dsimp only
    obtain ⟨hlt, rfl⟩ := List.getElem?_eq_some_iff.mp hf
    have hset := @List.set_getElem_self _ (s.filings.map Filing.finding) i (by simpa)
    rw [h.recorded, List.map_set]
    simpa using hset.symm
  · intro f' hf'
    rcases List.mem_or_eq_of_mem_set hf' with hf' | rfl
    · apply h.filings f' hf'
    · apply h.filings f (List.mem_of_getElem? hf)

theorem inv_of_reachable (h : T.turn.Reachable s) :
  Inv T s
  := by
  apply h.invariant
  · rintro s rfl
    exact ⟨rfl, by simp, by simp⟩
  · intro s a s' h _ hs
    cases a with
    | report args =>
        obtain rfl := Option.some.inj hs
        apply h.reportFinding
    | blamed i blame =>
        obtain ⟨r, hr, rfl⟩ := Option.map_eq_some_iff.mp hs
        obtain ⟨hv, hf⟩ := h.resolving r (List.mem_of_getElem? hr)
        apply (h.erase i).file hv hf
    | abandoned i =>
        obtain ⟨r, -, rfl⟩ := Option.map_eq_some_iff.mp hs
        apply h.erase
    | answered i ok =>
        obtain ⟨f, hf, rfl⟩ := Option.map_eq_some_iff.mp hs
        apply h.answered (Option.filter_eq_some_iff.mp hf).1

/-! ### When a report describes what is stored -/

theorem Inv.key (h : Inv T s) {f : Filing} (hf : f ∈ s.filings) :
  f.finding.key = f.args.key
  := (h.filings f hf).2.spec.1

/-- The findings are stored once each if the calls name different ones. -/
theorem Inv.once_iff (h : Inv T s) :
  (s.recorded.map fun f => f.key).Nodup ↔ (s.filings.map fun f => f.args.key).Nodup
  := by
  rw [h.recorded, List.map_map, List.map_congr_left]
  intro f hf
  apply h.key hf

theorem Inv.ordered_iff (h : Inv T s) :
  s.recorded.Pairwise (fun f f' =>
      Texts.severityOrder f.toFinding ≤ Texts.severityOrder f'.toFinding) ↔
    s.filings.Pairwise fun f f' => f.args.severityOrder ≤ f'.args.severityOrder
  := by
  rw [h.recorded, List.pairwise_map]
  apply List.Pairwise.iff_of_mem
  intro f f' hf hf'
  obtain ⟨hv, hfinding⟩ := h.filings f hf
  obtain ⟨hv', hfinding'⟩ := h.filings f' hf'
  rw [(hfinding.severity hv).2, (hfinding'.severity hv').2]

/-- **A report describes what is stored** exactly if the calls of the turn that have come to store
their findings have all succeeded, name different findings, and name them from the highest severity
on. -/
theorem describes_iff_orderly (h : T.turn.Reachable s) {args : WriteReportArgs}
    {report : StructuredReport} (hr : T.writeReport s args = some report) :
  Describes report s.persisted ↔ Orderly s.filings
  := by
  have hinv := inv_of_reachable h
  obtain ⟨hfindings, hcounts⟩ : report.findings = s.recorded ∧
      report.findingsBySeverity = findingsBySeverity s.recorded := by
    rw [writeReport] at hr
    split at hr
    · contradiction
    · rw [← Option.some.inj hr]
      exact ⟨rfl, rfl⟩
  constructor
  · rintro ⟨hsound, -, honce, hordered, -⟩
    rw [hfindings] at hsound honce hordered
    refine ⟨?_, hinv.once_iff.mp honce, hinv.ordered_iff.mp hordered⟩
    intro f hf
    have hmem : f.finding ∈ s.recorded := by
      rw [hinv.recorded]
      apply List.mem_map_of_mem hf
    obtain ⟨f', hf', heq⟩ := List.mem_map.mp (hsound _ hmem)
    obtain ⟨hf', hstored⟩ := List.mem_filter.mp hf'
    have hkey : f'.args.key = f.args.key := by rw [← hinv.key hf', ← hinv.key hf, heq]
    obtain rfl := List.inj_on_of_nodup_map (hinv.once_iff.mp honce) hf' hf hkey
    apply of_decide_eq_true hstored
  · rintro ⟨hstored, honce, hordered⟩
    have hpersisted : s.persisted = s.recorded := by
      rw [State.persisted, hinv.recorded, List.filter_eq_self.mpr]
      intro f hf
      apply decide_eq_true (hstored f hf)
    rw [hpersisted]
    refine ⟨?_, ?_, ?_, ?_, ?_⟩
    · rw [hfindings]
      exact fun f => id
    · rw [hfindings]
      intro f hf
      exact ⟨f, hf, rfl⟩
    · rw [hfindings]
      apply hinv.once_iff.mpr honce
    · rw [hfindings]
      apply hinv.ordered_iff.mpr hordered
    · intro severity hs
      rw [hcounts, hfindings]
      apply findingsBySeverity_get _ hs
      intro f' hf'
      rw [hinv.recorded] at hf'
      obtain ⟨f, hf, rfl⟩ := List.mem_map.mp hf'
      obtain ⟨hv, hfinding⟩ := hinv.filings f hf
      apply (hfinding.severity hv).1

/-- Tools without a sandbox. -/
def sampleTools : SecurityTools where
  texts := ⟨fun _ => "", fun _ => "", fun _ => none⟩
  sandbox := false
  defaultScope := {}

/-- A finding of high severity. -/
def sampleFinding : ReportFindingArgs :=
  { title := "SQL injection", severity := "high", file := "app/db.py", startLine := 10 }

theorem describes_iff_orderly_sample :
  ∃ s report, sampleTools.turn.Reachable s ∧ s.recorded.length = 2 ∧
    sampleTools.writeReport s { summary := "One risk." } = some report ∧
    Describes report s.persisted
  := by
  obtain ⟨s, hs, hp⟩ := exists_reach_of_run (T := sampleTools.turn) (G := fun _ _ => True) rfl
    [.report sampleFinding, .report { sampleFinding with title := "Path traversal" },
      .answered 1 true, .answered 0 true]
    (fun s => s.recorded.length = 2 ∧ (∀ f ∈ s.filings, f.status = .stored) ∧
      (s.filings.map fun f => f.args.key).Nodup ∧
      s.filings.Pairwise fun f f' => f.args.severityOrder ≤ f'.args.severityOrder)
    (by decide +kernel)
  obtain ⟨hlength, hstored, honce, hordered⟩ := of_decide_eq_true hp
  have hr : sampleTools.writeReport s { summary := "One risk." } =
      some (buildStructuredReport { summary := "One risk." } s.recorded (some {})) :=
    if_neg (by decide)
  exact ⟨s, _, hs, hlength, hr, (describes_iff_orderly hs hr).mpr ⟨hstored, honce, hordered⟩⟩

/-- A report may list a finding that was not stored. -/
theorem not_describes_reachable :
  ¬ ∀ (T : SecurityTools) (s : State), T.turn.Reachable s → ∀ args report,
      T.writeReport s args = some report → Describes report s.persisted
  := by
  intro h
  obtain ⟨s, hs, hp⟩ := exists_reach_of_run (T := sampleTools.turn) (G := fun _ _ => True) rfl
    [.report sampleFinding, .answered 0 false] (fun s => ∃ f ∈ s.recorded, f ∉ s.persisted)
    (by decide +kernel)
  obtain ⟨f, hf, hnot⟩ := of_decide_eq_true hp
  have hr : sampleTools.writeReport s { summary := "One risk." } =
      some (buildStructuredReport { summary := "One risk." } s.recorded (some {})) :=
    if_neg (by decide)
  apply hnot ((h _ s hs _ _ hr).sound f hf)

end SecurityTools

end Agent
