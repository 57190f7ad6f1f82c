import GitAgent.Agent.Report
import GitAgent.Agent.Lifecycle
import GitAgent.Library.Latest

/-!
# Collected findings

The tool `report_finding` checks a finding, and the findings of a thread are collected from its
calls (`core/tools/security/report_finding.py` and `findings.py`). They are the findings that the
tool accepted exactly if each call can be read, and the last call of a title and a file that has a
title was accepted.
-/

namespace Agent

/-! ### The calls that the tool accepts -/

/-- What the schema of the tool makes of a value for a number. -/
structure ReportSchema where
  int : Json → Option ℤ

namespace ReportSchema

variable (S : ReportSchema)

/-- A text argument with a default. -/
def strOr (default : String) : Option Json → Option String
  | none => some default
  | some (.str s) => some s
  | some _ => none

/-- A number argument with a default. -/
def intOr (default : ℤ) : Option Json → Option ℤ
  | none => some default
  | some v => S.int v

/-- An argument that is a list of texts, or nothing. -/
def strsOr : Option Json → Option (Option (List String))
  | none | some .null => some none
  | some (.arr values) => (values.mapM fun v => str? (some v)).map some
  | some _ => none

/-- The arguments that the schema of `report_finding` accepts. -/
def parse (args : Json.Fields) : Option ReportFindingArgs := do
  let title ← str? (Json.get args "title")
  let severity ← str? (Json.get args "severity")
  let description ← strOr "" (Json.get args "description")
  let file ← strOr "" (Json.get args "file")
  let startLine ← S.intOr 0 (Json.get args "start_line")
  let endLine ← S.intOr 0 (Json.get args "end_line")
  let cwe ← strOr "" (Json.get args "cwe")
  let cve ← strOr "" (Json.get args "cve")
  let impact ← strOr "" (Json.get args "impact")
  let evidence ← strOr "" (Json.get args "evidence")
  let remediation ← strOr "" (Json.get args "remediation")
  let confidence ← strOr "" (Json.get args "confidence")
  let category ← strOr "other" (Json.get args "category")
  let references ← strsOr (Json.get args "references")
  return { title, severity, description, file, startLine, endLine, cwe, cve, impact, evidence,
           remediation, confidence, category, references }

/-- Whether `report_finding` accepts a call: the schema takes the arguments, and
`validate_finding` has no error. -/
def accepts (call : ToolCall) : Bool :=
  (S.parse call.args).any fun a => (validateFinding a.title a.severity a.file).isNone

end ReportSchema

/-- The calls of `report_finding` in a thread. -/
def reportCalls (messages : List Message) : List ToolCall :=
  ((repliesOf messages).flatMap AIMessage.toolCalls).filter fun call => call.name = "report_finding"

namespace Texts

variable (T : Texts)

/-- The title and the file that a call names. -/
def callKey (call : ToolCall) : Option (String × Option String) :=
  some (T.textArg call.args "title", orNone (T.textArg call.args "file"))

/-- Whether a call has a title. -/
def titled (call : ToolCall) : Bool :=
  T.textArg call.args "title" ≠ ""

/-- The last call of each title and file. -/
def lastCalls (calls : List ToolCall) : List ToolCall :=
  Latest.latest T.callKey [] calls

/-- The findings that are collected are those of the accepted calls: for each title and file the
one of the last, in the order of the severities. -/
structure CollectsAccepted (S : ReportSchema) (messages : List Message) (findings : List Finding) :
    Prop where
  once : (findings.map Finding.key).Nodup
  ordered : findings.Pairwise fun f f' => severityOrder f ≤ severityOrder f'
  mem_iff : ∀ f, f ∈ findings ↔
    ∃ call ∈ T.lastCalls ((reportCalls messages).filter S.accepts),
      T.findingFromArgs call.args = some f

/-- Each call can be read, and the last call of each title and file that has a title tells what the
last one that was accepted tells. -/
structure Reads (S : ReportSchema) (messages : List Message) : Prop where
  readable : ∀ call ∈ reportCalls messages, (T.findingFromArgs call.args).isSome
  accepted : ∀ call ∈ T.lastCalls ((reportCalls messages).filter T.titled),
    ∃ call' ∈ T.lastCalls ((reportCalls messages).filter S.accepts),
      T.findingFromArgs call'.args = T.findingFromArgs call.args

variable {T} {S : ReportSchema} {messages : List Message}

/-- A finding has the title and the file that its call names. -/
theorem key_findingFromArgs {call : ToolCall} {f : Finding}
    (h : T.findingFromArgs call.args = some f) :
  T.callKey call = some f.key
  := by
  rw [findingFromArgs] at h
  simp only [Option.bind_eq_bind, Option.bind_eq_some_iff] at h
  obtain ⟨lineStart, -, lineEnd, -, references, -, h⟩ := h
  obtain rfl := Option.some.inj h
  rfl

/-- The title of accepted arguments is the one that was given. -/
theorem title_of_parse {args : Json.Fields} {a : ReportFindingArgs} (h : S.parse args = some a) :
  Json.get args "title" = some (.str a.title)
  := by
  obtain ⟨title, htitle, h⟩ := Option.bind_eq_some_iff.mp h
  obtain ⟨_, -, h⟩ := Option.bind_eq_some_iff.mp h
  obtain ⟨_, -, h⟩ := Option.bind_eq_some_iff.mp h
  obtain ⟨_, -, h⟩ := Option.bind_eq_some_iff.mp h
  obtain ⟨_, -, h⟩ := Option.bind_eq_some_iff.mp h
  obtain ⟨_, -, h⟩ := Option.bind_eq_some_iff.mp h
  obtain ⟨_, -, h⟩ := Option.bind_eq_some_iff.mp h
  obtain ⟨_, -, h⟩ := Option.bind_eq_some_iff.mp h
  obtain ⟨_, -, h⟩ := Option.bind_eq_some_iff.mp h
  obtain ⟨_, -, h⟩ := Option.bind_eq_some_iff.mp h
  obtain ⟨_, -, h⟩ := Option.bind_eq_some_iff.mp h
  obtain ⟨_, -, h⟩ := Option.bind_eq_some_iff.mp h
  obtain ⟨_, -, h⟩ := Option.bind_eq_some_iff.mp h
  obtain ⟨_, -, h⟩ := Option.bind_eq_some_iff.mp h
  obtain rfl := Option.some.inj h
  unfold str? at htitle
  split at htitle
  · rename_i s hs
    rw [hs, Option.some.inj htitle]
  · contradiction

/-- A call that the tool accepts has a title. -/
theorem titled_of_accepts {call : ToolCall} (h : S.accepts call = true) :
  T.titled call = true
  := by
  obtain ⟨a, ha, hv⟩ := (Option.any_eq_true _ _).mp h
  have hne : strip a.title ≠ "" := by
    intro hempty
    rw [validateFinding, if_pos hempty] at hv
    split at hv <;> contradiction
  rw [titled, textArg, title_of_parse ha]
  exact decide_eq_true hne

variable (T) in
/-- Whether a call is one of `report_finding` with a title. -/
def counts (call : ToolCall) : Bool :=
  T.titled call && call.name = "report_finding"

/-- A call with a title whose finding is read sets that finding, and others nothing. -/
theorem addCall_cases {d d' : Dict (String × Option String) Finding} {call : ToolCall}
    (h : T.addCall d call = some d') :
  (T.counts call = true ∧ ∃ f, T.findingFromArgs call.args = some f ∧ d' = d.set f.key f) ∨
    T.counts call = false ∧ d' = d
  := by
  rw [addCall] at h
  split at h
  · rename_i hname
    right
    rw [counts, decide_eq_false hname, Bool.and_false]
    exact ⟨rfl, (Option.some.inj h).symm⟩
  · rename_i hname
    rw [counts, decide_eq_true (not_not.mp hname), Bool.and_true]
    obtain ⟨f, hf, rfl⟩ := Option.map_eq_some_iff.mp h
    have htitle : T.textArg call.args "title" = f.title :=
      congrArg Prod.fst (Option.some.inj (key_findingFromArgs hf))
    rw [titled, htitle]
    split
    · rename_i hempty
      exact .inr ⟨decide_eq_false (not_not.mpr hempty), rfl⟩
    · rename_i hne
      exact .inl ⟨decide_eq_true hne, f, hf, rfl⟩

/-- The findings after the calls of a thread: for each title and file that of the last call with a
title. -/
theorem get_foldlM_addCall {calls : List ToolCall} {d d' : Dict (String × Option String) Finding}
    (h : calls.foldlM T.addCall d = some d') (k : String × Option String) (f : Finding) :
  d'.get k = some f ↔
    (∃ call ∈ T.lastCalls (calls.filter T.counts),
      T.callKey call = some k ∧ T.findingFromArgs call.args = some f) ∨
    (∀ call ∈ calls.filter T.counts, T.callKey call ≠ some k) ∧ d.get k = some f
  := by
  induction calls generalizing d with
  | nil =>
      obtain rfl := Option.some.inj h
      simp [lastCalls, Latest.latest]
  | cons call calls ih =>
      rw [List.foldlM_cons, Option.bind_eq_bind, Option.bind_eq_some_iff] at h
      obtain ⟨d₁, hd₁, h⟩ := h
      rw [ih h]
      rcases addCall_cases hd₁ with ⟨hcounts, f', hf', rfl⟩ | ⟨hcounts, rfl⟩
      · have hkey := key_findingFromArgs hf'
        rw [List.filter_cons_of_pos hcounts, Dict.get_set, List.forall_mem_cons, hkey, lastCalls,
          lastCalls, Latest.latest, List.append_nil]
        by_cases hk : k = f'.key
        · subst hk
          rw [if_pos rfl]
          by_cases hr : Latest.replaced T.callKey (calls.filter T.counts) call = true
          · -- A later call has the title and the file of this one.
            obtain ⟨-, call', hcall', hkey'⟩ := Latest.replaced_iff.mp hr
            rw [if_pos hr]
            have hno : ¬ ∀ c ∈ calls.filter T.counts, T.callKey c ≠ some f'.key :=
              fun h => h call' hcall' (hkey'.trans hkey)
            simp only [hno, false_and, and_false, or_false]
          · have hlater : ∀ c ∈ calls.filter T.counts, T.callKey c ≠ some f'.key := fun c hc hkey' =>
              hr (Latest.replaced_iff.mpr ⟨by rw [hkey]; rfl, c, hc, hkey'.trans hkey.symm⟩)
            have hnone : ¬ ∃ c ∈ Latest.latest T.callKey [] (calls.filter T.counts),
                T.callKey c = some f'.key ∧ T.findingFromArgs c.args = some f := by
              rintro ⟨c, hc, hkey', -⟩
              exact hlater c ((Latest.latest_sublist [] _).subset hc) hkey'
            rw [if_neg hr, List.exists_mem_cons_iff, hkey, hf', eq_false hnone, eq_true hlater]
            simp only [false_or, true_and, or_false, ne_eq, not_true_eq_false, and_true, false_and]
        · have hkey' : ¬ f'.key = k := fun h => hk h.symm
          rw [if_neg hk]
          have hne : ¬ some f'.key = some k := fun h => hkey' (Option.some.inj h)
          split
          · simp only [hne, ne_eq, not_false_eq_true, true_and]
          · rw [List.exists_mem_cons_iff, hkey]
            simp only [hne, ne_eq, not_false_eq_true, true_and, false_and, false_or]
      · rw [List.filter_cons_of_neg (Bool.eq_false_iff.mp hcounts)]

/-- The findings can be collected exactly if each call of `report_finding` can be read. -/
theorem isSome_foldlM_addCall (calls : List ToolCall) (d : Dict (String × Option String) Finding) :
  (calls.foldlM T.addCall d).isSome ↔
    ∀ call ∈ calls.filter fun call => call.name = "report_finding",
      (T.findingFromArgs call.args).isSome
  := by
  induction calls generalizing d with
  | nil => simp
  | cons call calls ih =>
      rw [List.foldlM_cons, addCall, List.filter_cons]
      by_cases hname : call.name = "report_finding"
      · rw [if_neg (not_not.mpr hname), if_pos (decide_eq_true hname), List.forall_mem_cons]
        cases hf : T.findingFromArgs call.args with
        | none =>
            apply iff_of_false
            · apply Bool.false_ne_true
            · rintro ⟨h, -⟩
              contradiction
        | some f =>
            rw [Option.map_some, Option.bind_eq_bind, Option.bind_some, ih, Option.isSome_some]
            exact (and_iff_right rfl).symm
      · rw [if_pos hname, if_neg (by simpa using hname), Option.bind_eq_bind, Option.bind_some, ih]

theorem filter_counts (messages : List Message) :
  ((repliesOf messages).flatMap AIMessage.toolCalls).filter T.counts =
    (reportCalls messages).filter T.titled
  := by
  rw [reportCalls, List.filter_filter]
  rfl

/-- What is collected are the findings of the last calls with a title. -/
theorem collectFindings_spec {findings : List Finding}
    (h : T.collectFindings messages = some findings) :
  (findings.map Finding.key).Nodup ∧
    findings.Pairwise (fun f f' => severityOrder f ≤ severityOrder f') ∧
    ∀ f, f ∈ findings ↔ ∃ call ∈ T.lastCalls ((reportCalls messages).filter T.titled),
      T.findingFromArgs call.args = some f
  := by
  obtain ⟨d, hd, rfl⟩ := Option.map_eq_some_iff.mp h
  have hget : ∀ k f, d.get k = some f ↔
      ∃ call ∈ T.lastCalls ((reportCalls messages).filter T.titled),
        T.callKey call = some k ∧ T.findingFromArgs call.args = some f := by
    intro k f
    rw [get_foldlM_addCall hd, filter_counts, Dict.get_empty]
    simp
  have hkey : ∀ k f, (k, f) ∈ d.items → k = f.key := by
    intro k f hkf
    obtain ⟨call, -, hcall, hf⟩ := (hget k f).mp (Dict.get_of_mem hkf)
    rw [key_findingFromArgs hf] at hcall
    exact (Option.some.inj hcall).symm
  have hperm := List.perm_insertionSort (fun f f' => severityOrder f ≤ severityOrder f')
    (d.items.map Prod.snd)
  refine ⟨?_, ?_, ?_⟩
  · rw [(hperm.map Finding.key).nodup_iff, List.map_map]
    have hmap : d.items.map (Finding.key ∘ Prod.snd) = d.items.map Prod.fst := by
      apply List.map_congr_left
      rintro ⟨k, f⟩ hkf
      exact (hkey k f hkf).symm
    rw [hmap]
    apply d.nodup
  · have htotal : Std.Total fun f f' : Finding => severityOrder f ≤ severityOrder f' :=
      ⟨fun f f' => Nat.le_total (severityOrder f) (severityOrder f')⟩
    have htrans : IsTrans Finding fun f f' => severityOrder f ≤ severityOrder f' :=
      ⟨fun _ _ _ => Nat.le_trans⟩
    apply List.pairwise_insertionSort
  · intro f
    rw [hperm.mem_iff, List.mem_map]
    constructor
    · rintro ⟨⟨k, f'⟩, hkf, rfl⟩
      obtain ⟨call, hcall, -, hf⟩ := (hget k f').mp (Dict.get_of_mem hkf)
      exact ⟨call, hcall, hf⟩
    · rintro ⟨call, hcall, hf⟩
      use (f.key, f), Dict.mem_of_get ((hget f.key f).mpr ⟨call, hcall, key_findingFromArgs hf, hf⟩)

end Texts

/-- Numbers are taken as they are. -/
def strictSchema : ReportSchema where
  int
    | .int n => some n
    | _ => none

/-- A finding whose severity is none of those that the tool knows. -/
def urgentMessages : List Message :=
  [.ai {
    toolCalls := [{
      name := "report_finding"
      args := [("title", .str "SQL injection"), ("severity", .str "urgent"), ("file", .str "app.py")]
      id := some "f" }] }]

end Agent
