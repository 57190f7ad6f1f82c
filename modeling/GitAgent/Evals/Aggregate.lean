import Mathlib.Data.Prod.Lex
import Mathlib.Data.String.Basic
import Mathlib.Algebra.Order.BigOperators.Group.Finset
import GitAgent.Evals.Grade
import GitAgent.Library.Firsts
import GitAgent.Library.Group

/-!
# The comparison of the arms

The rows of runs are summed up for each arm, which is a mode, a preset and a model
(`evals/report.py`). Each number is a sum over the rows that are clean, one for each identifier, and
does not depend on the order of the rows.
-/

namespace Evals

/-! ### The sums -/

/-- An arm: a mode, a preset and a model, in the order in which arms are reported. -/
abbrev Arm := String ×ₗ String ×ₗ String

/-- What the report takes from the fractions of the language: the part of a number in another as a
percentage with one digit, and the sum of costs with four digits. -/
structure Fractions (Cost : Type) where
  percent : ℕ → ℕ → Cost
  total : List Cost → Cost

/-- A text, or a question mark. -/
def orUnknown (s : Option String) : String :=
  (nonempty s).getD "?"

namespace Row

variable {Cost : Type}

/-- `_arm`. -/
def arm (r : Row Cost) : Arm :=
  toLex (orUnknown r.mode, toLex (orUnknown r.preset, orUnknown r.model))

/-- A row that is neither gated nor one of an error. -/
def clean (r : Row Cost) : Bool :=
  !r.gated && r.error.isNone

end Row

/-- What is reported of an arm. -/
structure ArmRow (Cost : Type) where
  mode : String
  preset : String
  model : String
  n : ℕ
  factCovProse : String
  factCovProsePct : Option Cost
  factCovStruct : String
  behaviorPass : String
  inputTokens : Option ℤ
  outputTokens : Option ℤ
  costUsdUpper : Option Cost
  usageN : ℕ
  costN : ℕ
  gated : ℕ
  errors : ℕ
  deriving DecidableEq

/-- A numerator and a denominator, if there is anything to count. -/
def coverage (numerator denominator : ℕ) : String :=
  if denominator = 0 then "—" else toString numerator ++ "/" ++ toString denominator

variable {Cost : Type}

/-- The loop over the rows: a row whose identifier was seen is left out. -/
def uniqueRows : List String → List (Row Cost) → List (Row Cost)
  | _, [] => []
  | seen, r :: rows =>
      if r.rowId ≠ "" ∧ r.rowId ∈ seen then uniqueRows seen rows
      else r :: uniqueRows (if r.rowId ≠ "" then seen ++ [r.rowId] else seen) rows

/-- The number of tokens of some runs, which fails where one of them has none of that name. -/
def tokens (name : String) (usages : List Usage) : Option (Option ℤ) :=
  if usages = [] then some none
  else (usages.mapM (List.lookup name)).map fun counts => some counts.sum

variable (F : Fractions Cost)

/-- What is reported of the rows of an arm. -/
def summary (arm : Arm) (rows : List (Row Cost)) : Option (ArmRow Cost) := do
  let clean := rows.filter Row.clean
  let mp := (clean.map Row.factsMeasuredProse).sum
  let pp := (clean.map Row.factsPassProse).sum
  let ms := (clean.map Row.factsMeasuredStruct).sum
  let ps := (clean.map Row.factsPassStruct).sum
  let behavior := clean.filterMap Row.behaviorPass
  let usages := (clean.filterMap Row.usage).filter (· ≠ [])
  let costs := clean.filterMap Row.costUsd
  let inputTokens ← tokens "input_tokens" usages
  let outputTokens ← tokens "output_tokens" usages
  return {
    mode := (ofLex arm).1
    preset := (ofLex (ofLex arm).2).1
    model := (ofLex (ofLex arm).2).2
    n := clean.length
    factCovProse := coverage pp mp
    factCovProsePct := if mp = 0 then none else some (F.percent pp mp)
    factCovStruct := coverage ps ms
    behaviorPass := coverage (behavior.count true) behavior.length
    inputTokens, outputTokens
    costUsdUpper := if costs = [] then none else some (F.total costs)
    usageN := usages.length
    costN := costs.length
    gated := rows.countP Row.gated
    errors := rows.countP fun r => r.error.isSome }

/-- `aggregate`, which fails where the language raises an error. -/
def aggregate (rows : List (Row Cost)) : Option (List (ArmRow Cost)) :=
  (Group.sorted (Group.group Row.arm (uniqueRows [] rows))).mapM fun i => summary F i.1 i.2

/-! ### What the numbers are -/

/-- The arm of what is reported. -/
def ArmRow.arm (a : ArmRow Cost) : Arm :=
  toLex (a.mode, toLex (a.preset, a.model))

/-- What is reported apart from the cost, which is no count. -/
def ArmRow.counts (a : ArmRow Cost) : ArmRow Cost :=
  { a with costUsdUpper := none }

/-- The sum over the identifiers of rows: of each the first row, if it is clean and of the arm. -/
def total (rows : List (Row Cost)) (arm : Arm) (value : Row Cost → ℕ) : ℕ :=
  ∑ id ∈ (rows.map Row.rowId).toFinset,
    (rows.find? fun r => r.rowId = id).elim 0 fun r =>
      if r.arm = arm ∧ r.clean = true then value r else 0

/-- One for a row that has a property. -/
def one (p : Row Cost → Bool) (r : Row Cost) : ℕ :=
  if p r then 1 else 0

/-- The numbers of an arm are sums over the identifiers of the rows, and no numerator exceeds its
denominator. -/
structure Sums (rows : List (Row Cost)) (a : ArmRow Cost) : Prop where
  n : a.n = total rows a.arm (one fun _ => true)
  prose : a.factCovProse =
    coverage (total rows a.arm Row.factsPassProse) (total rows a.arm Row.factsMeasuredProse)
  prose_le : total rows a.arm Row.factsPassProse ≤ total rows a.arm Row.factsMeasuredProse
  percent : a.factCovProsePct =
    if total rows a.arm Row.factsMeasuredProse = 0 then none
    else some (F.percent (total rows a.arm Row.factsPassProse)
      (total rows a.arm Row.factsMeasuredProse))
  struct : a.factCovStruct =
    coverage (total rows a.arm Row.factsPassStruct) (total rows a.arm Row.factsMeasuredStruct)
  struct_le : total rows a.arm Row.factsPassStruct ≤ total rows a.arm Row.factsMeasuredStruct
  behavior : a.behaviorPass =
    coverage (total rows a.arm (one fun r => r.behaviorPass = some true))
      (total rows a.arm (one fun r => r.behaviorPass.isSome))
  behavior_le : total rows a.arm (one fun r => r.behaviorPass = some true) ≤
    total rows a.arm (one fun r => r.behaviorPass.isSome)

variable {F}

/-- Where each row has an identifier, the loop keeps the first of each. -/
theorem uniqueRows_eq_firsts {seen : List String} {rows : List (Row Cost)}
    (h : ∀ r ∈ rows, r.rowId ≠ "") :
  uniqueRows seen rows = Firsts.firsts Row.rowId seen rows
  := by
  induction rows generalizing seen with
  | nil => rfl
  | cons r rows ih =>
      obtain ⟨hr, hrows⟩ := List.forall_mem_cons.mp h
      rw [uniqueRows, Firsts.firsts, if_pos hr, ih hrows, ih hrows]
      simp only [hr, ne_eq, not_false_eq_true, true_and]

/-- The rows of an arm that are counted. -/
def cleanRows (rows : List (Row Cost)) (arm : Arm) : List (Row Cost) :=
  ((uniqueRows [] rows).filter fun r => r.arm = arm).filter Row.clean

theorem sum_map_filter {α : Type} (p : α → Bool) (f : α → ℕ) (as : List α) :
  ((as.filter p).map f).sum = (as.map fun a => if p a = true then f a else 0).sum
  := by
  induction as with
  | nil => rfl
  | cons a as ih =>
      rw [List.map_cons, List.sum_cons, ← ih, List.filter_cons]
      split <;> simp

theorem sum_map_one (p : Row Cost → Bool) (rows : List (Row Cost)) :
  (rows.map (one p)).sum = rows.countP p
  := by
  induction rows with
  | nil => rfl
  | cons r rows ih =>
      rw [List.map_cons, List.sum_cons, ih, List.countP_cons, Nat.add_comm, one]

/-- A sum over the rows that are counted is one over the identifiers. -/
theorem sum_cleanRows {rows : List (Row Cost)} (h : ∀ r ∈ rows, r.rowId ≠ "") (arm : Arm)
    (value : Row Cost → ℕ) :
  ((cleanRows rows arm).map value).sum = total rows arm value
  := by
  rw [cleanRows, sum_map_filter, sum_map_filter, uniqueRows_eq_firsts h, Firsts.sum_map_firsts,
    total]
  apply Finset.sum_congr rfl
  intro id _
  congr 1
  funext r
  by_cases harm : r.arm = arm <;> simp [harm]

theorem total_le {rows : List (Row Cost)} {arm : Arm} {f g : Row Cost → ℕ}
    (h : ∀ r ∈ rows, f r ≤ g r) :
  total rows arm f ≤ total rows arm g
  := by
  apply Finset.sum_le_sum
  intro id _
  cases hfind : rows.find? fun r => r.rowId = id with
  | none => rfl
  | some r =>
      rw [Option.elim_some, Option.elim_some]
      split
      · exact h r (List.mem_of_find?_eq_some hfind)
      · rfl

/-! ### The loops -/

theorem mapM_eq_some {α β : Type} {f : α → Option β} {as : List α} {bs : List β}
    (h : as.mapM f = some bs) :
  List.Forall₂ (fun a b => f a = some b) as bs
  := by
  induction as generalizing bs with
  | nil =>
      obtain rfl := Option.some.inj h
      exact .nil
  | cons a as ih =>
      rw [List.mapM_cons] at h
      obtain ⟨b, hb, h⟩ := Option.bind_eq_some_iff.mp h
      obtain ⟨bs', hbs, h⟩ := Option.bind_eq_some_iff.mp h
      obtain rfl := Option.some.inj h
      exact .cons hb (ih hbs)

/-- A function of the results may be applied to each of them. -/
theorem map_mapM {α β γ : Type} (f : α → Option β) (g : β → γ) (as : List α) :
  (as.mapM f).map (List.map g) = as.mapM fun a => (f a).map g
  := by
  induction as with
  | nil => rfl
  | cons a as ih =>
      rw [List.mapM_cons, List.mapM_cons, ← ih]
      cases f a <;> cases as.mapM f <;> rfl

theorem map_sum_mapM_cons {α : Type} (f : α → Option ℤ) (a : α) (as : List α) :
  ((a :: as).mapM f).map List.sum =
    (f a).bind fun n => ((as.mapM f).map List.sum).map (n + ·)
  := by
  rw [List.mapM_cons]
  cases f a <;> cases as.mapM f <;> simp

/-- The sum of numbers that are looked up does not depend on their order. -/
theorem map_sum_mapM_perm {α : Type} {f : α → Option ℤ} {as bs : List α} (h : as.Perm bs) :
  (as.mapM f).map List.sum = (bs.mapM f).map List.sum
  := by
  induction h with
  | nil => rfl
  | cons a _ ih => rw [map_sum_mapM_cons, map_sum_mapM_cons, ih]
  | swap a b as =>
      rw [map_sum_mapM_cons, map_sum_mapM_cons, map_sum_mapM_cons, map_sum_mapM_cons]
      cases f a <;> cases f b <;> cases (as.mapM f).map List.sum <;>
        simp [Int.add_left_comm]
  | trans _ _ ih ih' => rw [ih, ih']

theorem tokens_perm {name : String} {us vs : List Usage} (h : us.Perm vs) :
  tokens name us = tokens name vs
  := by
  have hsum := map_sum_mapM_perm (f := List.lookup name) h
  have hnil : us = [] ↔ vs = [] := by
    constructor
    · rintro rfl
      exact h.nil_eq.symm
    · rintro rfl
      exact h.eq_nil
  rw [tokens, tokens]
  by_cases hus : us = []
  · rw [if_pos hus, if_pos (hnil.mp hus)]
  · rw [if_neg hus, if_neg (fun hvs => hus (hnil.mpr hvs))]
    have hmap := congrArg (Option.map some) hsum
    rwa [Option.map_map, Option.map_map] at hmap

/-- What is reported of an arm is said of that arm. -/
theorem arm_of_summary {arm : Arm} {rows : List (Row Cost)} {a : ArmRow Cost}
    (h : summary F arm rows = some a) :
  a.arm = arm
  := by
  obtain ⟨_, -, h⟩ := Option.bind_eq_some_iff.mp h
  obtain ⟨_, -, h⟩ := Option.bind_eq_some_iff.mp h
  obtain rfl := Option.some.inj h
  rfl

/-- The counts of an arm do not depend on the order of its rows. -/
theorem summary_perm {arm : Arm} {rows rows' : List (Row Cost)} (h : rows.Perm rows') :
  (summary F arm rows).map ArmRow.counts = (summary F arm rows').map ArmRow.counts
  := by
  have hclean := h.filter Row.clean
  have husage := (hclean.filterMap Row.usage).filter (· ≠ [])
  have hbehavior := hclean.filterMap Row.behaviorPass
  rw [summary, summary]
  simp only [tokens_perm husage, hclean.length_eq, (hclean.map _).sum_eq, hbehavior.length_eq,
    hbehavior.count_eq, husage.length_eq, (hclean.filterMap _).length_eq, h.countP_eq]
  cases tokens "input_tokens" (((rows'.filter Row.clean).filterMap Row.usage).filter (· ≠ [])) with
  | none => rfl
  | some _ =>
      cases tokens "output_tokens" (((rows'.filter Row.clean).filterMap Row.usage).filter (· ≠ []))
      · rfl
      · rfl

theorem aggregate_eq (rows : List (Row Cost)) :
  aggregate F rows = (Group.keys Row.arm (uniqueRows [] rows)).mapM fun arm =>
    summary F arm ((uniqueRows [] rows).filter fun r => r.arm = arm)
  := by
  rw [aggregate, Group.sorted_group, List.mapM_map]
  rfl

/-- The counts do not depend on the order of the rows, where rows with one identifier are the
same. -/
theorem aggregate_perm {rows rows' : List (Row Cost)} (hid : ∀ r ∈ rows, r.rowId ≠ "")
    (hsame : ∀ r ∈ rows, ∀ r' ∈ rows, r.rowId = r'.rowId → r = r') (h : rows.Perm rows') :
  (aggregate F rows).map (List.map ArmRow.counts) =
    (aggregate F rows').map (List.map ArmRow.counts)
  := by
  have hid' : ∀ r ∈ rows', r.rowId ≠ "" := fun r hr => hid r (h.mem_iff.mpr hr)
  have hunique := Firsts.perm_firsts h hsame
  rw [aggregate_eq, aggregate_eq, uniqueRows_eq_firsts hid, uniqueRows_eq_firsts hid', map_mapM,
    map_mapM, Group.keys_perm hunique]
  congr 1
  funext arm
  exact summary_perm (hunique.filter _)

/-! ### The claims about the numbers -/

variable {L : Language} {H : Md5}

/-- The numbers of an arm are the sums over its rows. -/
theorem sums_of_summary {rows : List (Row Cost)} (h : ∀ r ∈ rows, Graded L H r) {arm : Arm}
    {a : ArmRow Cost}
    (hsummary :
      summary F arm ((uniqueRows [] rows).filter fun r => r.arm = arm) = some a) :
  Sums F rows a
  := by
  have hid : ∀ r ∈ rows, r.rowId ≠ "" := fun r hr => (h r hr).rowId_ne
  have hsum := fun value => sum_cleanRows hid arm value
  have hcount : ∀ p, (cleanRows rows arm).countP p = total rows arm (one p) := fun p => by
    rw [← hsum, sum_map_one]
  have harm := arm_of_summary hsummary
  obtain ⟨_, -, hsummary⟩ := Option.bind_eq_some_iff.mp hsummary
  obtain ⟨_, -, hsummary⟩ := Option.bind_eq_some_iff.mp hsummary
  obtain rfl := Option.some.inj hsummary
  constructor <;> rw [harm]
  · rw [← hcount, List.countP_true]
    rfl
  · rw [← hsum, ← hsum]
    rfl
  · apply total_le
    intro r hr
    obtain ⟨_, _, hmeasured⟩ := (h r hr).measured
    exact hmeasured.prose.1
  · rw [← hsum, ← hsum]
    rfl
  · rw [← hsum, ← hsum]
    rfl
  · apply total_le
    intro r hr
    obtain ⟨_, _, hmeasured⟩ := (h r hr).measured
    exact hmeasured.struct.1
  · rw [← hcount, ← hcount]
    change coverage (((cleanRows rows arm).filterMap Row.behaviorPass).count true)
      ((cleanRows rows arm).filterMap Row.behaviorPass).length = _
    rw [List.length_filterMap_eq_countP, List.count_filterMap]
    congr 2
    funext r
    cases r.behaviorPass with
    | none => rfl
    | some b => cases b <;> rfl
  · apply total_le
    intro r _
    rw [one, one]
    cases r.behaviorPass with
    | none => simp
    | some b => cases b <;> simp

/-- The report has each arm of the rows once, with its sums. Of the rows with one identifier the
first tells the arm. -/
structure Reported (F : Fractions Cost) (rows : List (Row Cost)) (arms : List (ArmRow Cost)) :
    Prop where
  nodup : (arms.map ArmRow.arm).Nodup
  mem_iff : ∀ arm, arm ∈ arms.map ArmRow.arm ↔
    ∃ r, rows.find? (Row.rowId · = r.rowId) = some r ∧ r.arm = arm
  sums : ∀ a ∈ arms, Sums F rows a

theorem reported_of_aggregate {rows : List (Row Cost)} (h : ∀ r ∈ rows, Graded L H r)
    {arms : List (ArmRow Cost)} (haggregate : aggregate F rows = some arms) :
  Reported F rows arms
  := by
  rw [aggregate_eq] at haggregate
  have hall := mapM_eq_some haggregate
  have hkeys : arms.map ArmRow.arm = Group.keys Row.arm (uniqueRows [] rows) := by
    have heq := List.forall₂_map_right_iff.mpr (hall.imp fun _ _ h => (arm_of_summary h).symm)
    exact (List.forall₂_eq_eq_eq ▸ heq).symm
  constructor
  · rw [hkeys]
    apply Group.nodup_sorted
  · intro arm
    rw [hkeys, Group.mem_keys, uniqueRows_eq_firsts fun r hr => (h r hr).rowId_ne]
    simp only [Firsts.mem_firsts_iff, List.not_mem_nil, not_false_eq_true, true_and]
  · intro a ha
    obtain ⟨arm, -, hsummary⟩ := hall.exists_of_mem ha
    exact sums_of_summary h hsummary

/-- **Measured and unmeasured are not mixed.** The row of an accepted unit counts only what can be
measured, and nothing of a gated bundle; and what is reported of such rows are sums over their
identifiers, whose counts do not depend on the order of the rows where rows with one identifier are
the same. -/
theorem measured_apart (L : Language) (H : Md5) (F : Fractions Cost) :
  (∀ (bundle : Bundle Cost) unit manifest expectedFingerprint r, Accepted L unit →
    L.gradeBundle H bundle unit manifest expectedFingerprint = some r → Measured L bundle unit r) ∧
  ∀ rows : List (Row Cost), (∀ r ∈ rows, Graded L H r) →
    (∀ arms, aggregate F rows = some arms → Reported F rows arms) ∧
    ((∀ r ∈ rows, ∀ r' ∈ rows, r.rowId = r'.rowId → r = r') → ∀ rows', rows.Perm rows' →
      (aggregate F rows).map (List.map ArmRow.counts) =
        (aggregate F rows').map (List.map ArmRow.counts))
  := by
  refine ⟨fun _ _ _ _ _ => measured_of_gradeBundle, fun rows h => ⟨?_, ?_⟩⟩
  · intro arms
    apply reported_of_aggregate h
  · intro hsame rows'
    exact aggregate_perm (fun r hr => (h r hr).rowId_ne) hsame

/-! ### A unit, its run and its row -/

/-- The language, with texts in the case that they have, and patterns looked for as they are. -/
def Language.simple : Language where
  str
    | .null => "None"
    | .str s => s
    | _ => "value"
  dumps
    | .str s => s
    | _ => "value"
  loads _ := none
  quote s := s
  lower s := s
  compile _ := .ok ()
  search pattern text := some (Language.within pattern text)

/-- A digest that tells nothing apart. -/
def Md5.zeros : Md5 where
  digest _ := List.replicate 16 0
  length _ := rfl

/-- Percentages and costs as whole numbers. -/
def Fractions.whole : Fractions ℕ where
  percent n d := 100 * n / d
  total := List.sum

/-- A fact about a field, and one about the text. -/
def sampleFacts : List Json :=
  [.obj [("fact_id", .str "lang"), ("rule", .str "structured_contains"),
      ("path", .str "languages"), ("value", .str ".py")],
    .obj [("fact_id", .str "purpose"), ("rule", .str "prose_regex"), ("prose", .str "CLI")]]

def sampleUnit : Json.Fields :=
  [("unit_id", .str "u"), ("repo_url", .str "x"), ("commit_sha", .str "abc"),
    ("facts", .arr sampleFacts)]

def sampleBundle : Bundle ℕ where
  unitKey := "u~pipeline~prod~t1"
  unitId := "u"
  mode := some "pipeline"
  preset := some "prod"
  dbStatus := some "succeeded"
  report := some [("description", .str "a CLI")]

def sampleManifest : Manifest where
  memoryConfig := some { name := some "prod" }

/-- The report has no languages, so that the first fact is not measured. -/
def sampleRow : Row ℕ where
  rowId := stableRowId .zeros
    [Language.simple.toStr (sampleBundle.runId.getD (.str "")), sampleBundle.unitKey]
  unitKey := "u~pipeline~prod~t1"
  unitId := "u"
  runId := .null
  mode := some "pipeline"
  preset := some "prod"
  model := none
  trial := none
  dbStatus := some "succeeded"
  error := none
  gated := false
  gateProblems := []
  usage := none
  costUsd := none
  behaviorPass := some true
  factsTotal := 2
  factsMeasuredProse := 1
  factsPassProse := 1
  factDetail := [⟨.str "lang", none, none⟩, ⟨.str "purpose", none, some true⟩]

def sampleArm : ArmRow ℕ where
  mode := "pipeline"
  preset := "prod"
  model := "?"
  n := 1
  factCovProse := "1/1"
  factCovProsePct := some 100
  factCovStruct := "—"
  behaviorPass := "1/1"
  inputTokens := none
  outputTokens := none
  costUsdUpper := none
  usageN := 0
  costN := 0
  gated := 0
  errors := 0

theorem accepted_sampleUnit :
  Accepted .simple sampleUnit
  := ⟨[sampleUnit], "battery", [sampleUnit], rfl, List.mem_singleton_self _⟩

theorem gradeBundle_sampleBundle :
  Language.simple.gradeBundle .zeros sampleBundle sampleUnit sampleManifest none = some sampleRow
  := by
  have hgate : Language.simple.gateProblems sampleBundle sampleManifest none = [] := by decide
  have hview : Language.simple.proseview sampleBundle.report = some "a CLI\nvalue" := by decide
  have htally : Language.simple.gradeFacts false sampleBundle.report (some "a CLI\nvalue")
      sampleFacts {} = some {
        measuredProse := 1
        passProse := 1
        detail := [⟨.str "lang", none, none⟩, ⟨.str "purpose", none, some true⟩] } := by decide
  have hfacts : factsOf sampleUnit = some sampleFacts := by decide
  have hstatus : Language.expectedStatus sampleUnit ≠ .str "failed" := by decide
  rw [Language.gradeBundle, hgate]
  simp only [List.isEmpty_nil, Bool.not_true, if_neg hstatus, hfacts, Option.bind_eq_bind,
    Option.bind_some, Bool.false_eq_true, if_false, hview, htally]
  rfl

theorem measured_apart_sampleRow :
  Measured .simple sampleBundle sampleUnit sampleRow ∧
    Reported .whole [sampleRow] [sampleArm] ∧
    (aggregate .whole [sampleRow]).map (List.map ArmRow.counts) = some [sampleArm]
  := by
  have hgraded : ∀ r ∈ [sampleRow], Graded .simple .zeros r := by
    rw [List.forall_mem_singleton]
    exact ⟨sampleBundle, sampleUnit, sampleManifest, none, accepted_sampleUnit,
      gradeBundle_sampleBundle⟩
  have haggregate : aggregate .whole [sampleRow] = some [sampleArm] := by decide
  obtain ⟨hrow, hrows⟩ := measured_apart .simple .zeros .whole
  obtain ⟨hreport, horder⟩ := hrows [sampleRow] hgraded
  refine ⟨hrow _ _ _ none _ accepted_sampleUnit gradeBundle_sampleBundle,
    hreport _ haggregate, ?_⟩
  rw [horder (by simp) [sampleRow] (.refl _), haggregate]
  rfl

end Evals
