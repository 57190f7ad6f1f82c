import GitAgent.Agent.Finding
import GitAgent.Runner.Wire

/-!
# The battery of facts

The units whose runs are graded, and the facts that are looked for in the reports
(`evals/battery.py`): what the lint of a battery accepts, and how a fact is checked. A check has
three outcomes, since a fact may not be measurable: `none` stands for that one.
-/

namespace Evals

open Runner (truthy)

/-! ### The rules -/

/-- What the harness takes from the language: texts of values, `repr` and `lower` of a text, and
regular expressions: the error of one that is none, and whether one is found in a text. -/
structure Language extends Agent.Texts where
  quote : String → String
  lower : String → String
  compile : String → Except String Unit
  search : String → String → Option Bool

namespace Language

variable (L : Language)

/-- `repr`. -/
def repr : Json → String
  | .str s => L.quote s
  | v => L.str v

/-- `value in text`. -/
def within (value text : String) : Bool :=
  text.toList.tails.any fun rest => value.toList.isPrefixOf rest

/-- `value.lower() in text.lower()`. -/
def withinLower (value text : String) : Bool :=
  within (L.lower value) (L.lower text)

end Language

/-- The rules by which a fact is checked. -/
inductive FactRule
  | structuredEq
  | structuredContains
  | structuredSetSuperset
  | proseSubstring
  | proseRegex
  | absent
  deriving DecidableEq, Repr

namespace FactRule

/-- The name of a rule. -/
def value : FactRule → String
  | structuredEq => "structured_eq"
  | structuredContains => "structured_contains"
  | structuredSetSuperset => "structured_set_superset"
  | proseSubstring => "prose_substring"
  | proseRegex => "prose_regex"
  | absent => "absent"

/-- `FACT_RULES`. -/
def factRules : List FactRule :=
  [structuredEq, structuredContains, structuredSetSuperset, proseSubstring, proseRegex, absent]

/-- The rule that a value names. -/
def ofJson (v : Json) : Option FactRule :=
  factRules.find? fun rule => v = .str rule.value

/-- Whether a rule looks at the fields of a report only. -/
def structured : FactRule → Bool
  | structuredEq | structuredContains | structuredSetSuperset => true
  | _ => false

/-- The rules whose name begins with `structured`. -/
theorem structured_eq_isPrefixOf (rule : FactRule) :
  rule.structured = "structured".toList.isPrefixOf rule.value.toList
  := by
  cases rule <;> decide

end FactRule

/-! ### The lint -/

/-- Why the lint fails: it refuses a unit, or the language raises another error. -/
inductive LintError
  | battery (message : String)
  | other
  deriving DecidableEq, Repr

/-- The number that a value stands for among keys. -/
def number : Json → Option (ℤ × ℕ)
  | .bool b => some (if b then 1 else 0, 1)
  | .int n => some (n, 1)
  | .float num den => some (num, den)
  | _ => none

/-- Whether two keys are the same, numbers by their value. What is not a number differs from every
key. -/
def sameKey (a b : Json) : Bool :=
  match number a, number b with
  | some (n, d), some (m, e) =>
      if d = 0 ∨ e = 0 then d = e ∧ n = m ∧ n ≠ 0 else n * e = m * d
  | _, _ => a = b

/-- Whether a value can be a key. -/
def hashable : Json → Bool
  | .arr _ | .obj _ => false
  | _ => true

/-- Whether a field is there and counts as true. -/
def given (d : Json.Fields) (key : String) : Bool :=
  (Json.get d key).any truthy

/-- The values that a loop over a value goes through, if there can be one. -/
def iterate : Json → Option (List Json)
  | .arr values => some values
  | .str s => some (s.toList.map fun c => .str (String.singleton c))
  | .obj fields => some (fields.map fun f => .str f.1)
  | _ => none

/-- The fields of a value, if it is an object. -/
def fields? : Json → Option Json.Fields
  | .obj fields => some fields
  | _ => none

/-- The text that a value is. -/
def text? : Json → Option String
  | .str s => some s
  | _ => none

/-- A value, or an error of the language. -/
def orRaise {α : Type} (v : Option α) : Except LintError α :=
  v.elim (.error .other) .ok

/-- A value, or the message of the lint. -/
def orRefuse {α : Type} (v : Option α) (message : String) : Except LintError α :=
  v.elim (.error (.battery message)) .ok

/-- A condition that the lint makes. -/
def require (condition : Bool) (message : String) : Except LintError Unit :=
  if condition then .ok () else .error (.battery message)

namespace Language

variable (L : Language)

/-- The tuple of the rules, as a text. -/
def allowed : String :=
  "(" ++ String.intercalate ", " (FactRule.factRules.map fun rule => L.quote rule.value) ++ ")"

/-- `re.compile`, of what may be no text. -/
def lintRegex (place : String) (prose : Option Json) : Except LintError Unit :=
  match prose with
  | some (.str pattern) =>
      match L.compile pattern with
      | .ok _ => .ok ()
      | .error error => .error (.battery (place ++ ": bad regex: " ++ error))
  | _ => .error .other

/-- The lint of a fact, which gives its identifier. -/
def lintFact (place : String) (factIds : List Json) (value : Json) : Except LintError Json := do
  let fact ← orRaise (fields? value)
  let missing := place ++ ": missing/duplicate fact_id in " ++ L.toStr value
  require (given fact "fact_id") missing
  let factId := (Json.get fact "fact_id").getD .null
  orRaise (if hashable factId then some () else none)
  require (!factIds.any (sameKey factId)) missing
  let place := place ++ ":" ++ L.toStr factId
  let named := (Json.get fact "rule").getD .null
  let rule ← orRefuse (FactRule.ofJson named)
    (place ++ ": unknown rule " ++ L.repr named ++ "; allowed: " ++ L.allowed)
  require (!(rule.structured && !given fact "path"))
    (place ++ ": structured rule needs 'path'")
  require (!((rule = .proseSubstring || rule = .proseRegex) && !given fact "prose"))
    (place ++ ": prose rule needs 'prose'")
  require (!(rule = .absent && !(given fact "prose" || given fact "path")))
    (place ++ ": absent rule needs 'prose' or 'path'")
  if rule = .proseRegex || (rule = .absent && given fact "prose") then
    L.lintRegex place (Json.get fact "prose")
  return factId

/-- The loop over the facts of a unit. -/
def lintFacts (place : String) : List Json → List Json → Except LintError Unit
  | _, [] => .ok ()
  | factIds, fact :: facts => do
      let factId ← L.lintFact place factIds fact
      lintFacts place (factIds ++ [factId]) facts

/-- `setdefault("facts", [])`. -/
def withFacts (unit : Json.Fields) : Json.Fields :=
  match Json.get unit "facts" with
  | some _ => unit
  | none => unit ++ [("facts", .arr [])]

/-- `expected_status`, with its default. -/
def expectedStatus (unit : Json.Fields) : Json :=
  (Json.get unit "expected_status").getD (.str "succeeded")

/-- The lint of a unit: its identifier, and the unit, which has facts then. -/
def lintUnit (name : String) (seenIds : List String) (unit : Json.Fields) :
    Except LintError (String × Json.Fields) := do
  let uid ← orRefuse (((Json.get unit "unit_id").filter truthy).bind text?)
    (name ++ ": unit without unit_id: " ++ L.toStr (.obj unit))
  require (uid ∉ seenIds) (name ++ ": duplicate unit_id " ++ L.quote uid)
  let place := name ++ ":" ++ uid
  require (given unit "repo_url") (place ++ ": missing " ++ L.quote "repo_url")
  require (given unit "commit_sha") (place ++ ": missing " ++ L.quote "commit_sha")
  let status := expectedStatus unit
  require (status = .str "succeeded" || status = .str "failed")
    (place ++ ": bad expected_status " ++ L.repr status)
  require (!(!given unit "facts" && status ≠ .str "failed"))
    (place ++ ": missing 'facts' (allowed only for expected_status=failed)")
  let unit := withFacts unit
  let facts ← orRaise ((Json.get unit "facts").bind iterate)
  L.lintFacts place [] facts
  return (uid, unit)

/-- The loop over the units. -/
def lintUnits (name : String) : List String → List Json.Fields →
    Except LintError (List Json.Fields)
  | _, [] => .ok []
  | seenIds, unit :: units => do
      let (uid, unit) ← L.lintUnit name seenIds unit
      let units ← lintUnits name (seenIds ++ [uid]) units
      return unit :: units

/-- `lint_battery`: the units, in which facts are set where there were none. -/
def lintBattery (units : List Json.Fields) (name : String) : Except LintError (List Json.Fields) :=
  L.lintUnits name [] units

/-! ### The checks -/

/-- `_resolve_path`. -/
def resolvePath : Json → List (List Char) → Option Json
  | node, [] => some node
  | .obj fields, part :: parts =>
      match Json.get fields (String.ofList part) with
      | some node => resolvePath node parts
      | none => none
  | _, _ :: _ => none

/-- What a dotted path leads to in a report. -/
def resolve (report : Json.Fields) (dotted : String) : Option Json :=
  resolvePath (.obj report) (dotted.toList.splitOn '.')

/-- `structured_contains`. -/
def contains (value : String) : Json → Bool
  | .str s => L.withinLower value s
  | .arr values => values.any fun v => L.withinLower value (L.toStr v)
  | .obj fields => fields.any fun f => L.withinLower value f.1
  | _ => false

/-- `structured_set_superset`, which fails where there is nothing to go through. -/
def superset (values : Json) : Json → Option Bool
  | .arr found => do
      let haystack := String.intercalate " | " (found.map fun v => L.lower (L.toStr v))
      let values ← iterate values
      return values.all fun v => within (L.lower (L.toStr v)) haystack
  | _ => some false

/-- `check_fact_structured`: whether the fact holds of a field of the report, or that this could not
be measured. It fails where the language raises an error. -/
def checkFactStructured (fact : Json.Fields) (report : Option Json.Fields) :
    Option (Option Bool) := do
  let some report := report | return none
  let some path := (Json.get fact "path").filter truthy | return none
  let dotted ← text? path
  let some resolved := resolve report dotted | return none
  let rule ← Json.get fact "rule"
  match FactRule.ofJson rule with
  | some .structuredEq =>
      return some (L.toStr resolved = L.toStr ((Json.get fact "value").getD .null))
  | some .structuredContains =>
      return some (L.contains (L.toStr ((Json.get fact "value").getD (.str ""))) resolved)
  | some .structuredSetSuperset =>
      (L.superset ((Json.get fact "values").getD (.arr [])) resolved).map some
  | some .absent =>
      return some (!within (L.lower (L.toStr ((Json.get fact "value").getD (.str ""))))
        (L.lower (L.dumps resolved)))
  | _ => return none

/-- `check_fact_prose`: whether the fact holds of the text of the report, or that this could not be
measured. -/
def checkFactProse (fact : Json.Fields) (proseview : Option String) : Option (Option Bool) := do
  let some proseview := proseview | return none
  let some prose := (Json.get fact "prose").filter truthy | return none
  let rule ← Json.get fact "rule"
  match FactRule.ofJson rule with
  | some .proseSubstring | some .structuredEq | some .structuredContains
  | some .structuredSetSuperset =>
      return some (L.withinLower (← text? prose) proseview)
  | some .proseRegex => (L.search (← text? prose) proseview).map some
  | some .absent => (L.search (← text? prose) proseview).map fun found => some !found
  | none => return none

end Language

/-! ### What can be measured -/

/-- The rule of a fact, if it is one that is known. -/
def ruleOf (fact : Json.Fields) : Option FactRule :=
  (Json.get fact "rule").bind FactRule.ofJson

/-- Whether a rule looks at a field of the report. -/
def FactRule.readsField : FactRule → Bool
  | proseSubstring | proseRegex => false
  | _ => true

/-- A fact can be measured in the text of a report if there is the text, and the fact says what to
look for in it. -/
def InProse (fact : Json.Fields) (proseview : Option String) : Prop :=
  proseview.isSome ∧ given fact "prose" = true

/-- A fact can be measured in the fields of a report if its rule looks at a field, and its path
leads to one. -/
def InFields (fact : Json.Fields) (report : Option Json.Fields) : Prop :=
  (∃ rule, ruleOf fact = some rule ∧ rule.readsField = true) ∧
    ∃ r ∈ report, ∃ path, Json.get fact "path" = some (.str path) ∧ path ≠ "" ∧
      (Language.resolve r path).isSome

variable {L : Language}

theorem given_eq (fact : Json.Fields) (key : String) :
  given fact key = ((Json.get fact key).filter truthy).isSome
  := by
  rw [given]
  cases Json.get fact key with
  | none => rfl
  | some v => cases h : truthy v <;> simp [h]

/-- The check of the text says something exactly if the fact can be measured in it. -/
theorem isSome_checkFactProse {fact : Json.Fields} {rule : FactRule}
    (hrule : ruleOf fact = some rule) {proseview : Option String} {result : Option Bool}
    (h : L.checkFactProse fact proseview = some result) :
  result.isSome ↔ InProse fact proseview
  := by
  obtain ⟨v, hv, hof⟩ := Option.bind_eq_some_iff.mp hrule
  rw [InProse, given_eq]
  unfold Language.checkFactProse at h
  cases proseview with
  | none =>
      obtain rfl := Option.some.inj h
      simp
  | some proseview =>
      cases hprose : (Json.get fact "prose").filter truthy with
      | none =>
          simp only [hprose] at h
          obtain rfl := Option.some.inj h
          simp
      | some prose =>
          simp only [hprose, hv, Option.bind_eq_bind, Option.bind_some, hof] at h
          have hresult : result.isSome := by
            cases rule with
            | proseRegex | absent =>
                obtain ⟨_, -, h⟩ := Option.bind_eq_some_iff.mp h
                obtain ⟨_, -, rfl⟩ := Option.map_eq_some_iff.mp h
                rfl
            | _ =>
                obtain ⟨_, -, h⟩ := Option.bind_eq_some_iff.mp h
                obtain rfl := Option.some.inj h
                rfl
          rw [hresult]
          simp

/-- The check of the fields says something exactly if the fact can be measured in them. -/
theorem isSome_checkFactStructured {fact : Json.Fields} {rule : FactRule}
    (hrule : ruleOf fact = some rule) {report : Option Json.Fields} {result : Option Bool}
    (h : L.checkFactStructured fact report = some result) :
  result.isSome ↔ InFields fact report
  := by
  obtain ⟨v, hv, hof⟩ := Option.bind_eq_some_iff.mp hrule
  unfold Language.checkFactStructured at h
  cases report with
  | none =>
      obtain rfl := Option.some.inj h
      simp [InFields]
  | some report =>
      cases hpath : (Json.get fact "path").filter truthy with
      | none =>
          simp only [hpath] at h
          obtain rfl := Option.some.inj h
          constructor
          · nofun
          · rintro ⟨-, r, -, path, hget, hne, -⟩
            rw [hget] at hpath
            simp [truthy, hne] at hpath
      | some path =>
          obtain ⟨hget, htruthy⟩ := Option.filter_eq_some_iff.mp hpath
          simp only [hpath] at h
          obtain ⟨dotted, hdotted, hrun⟩ := Option.bind_eq_some_iff.mp h
          obtain rfl : path = .str dotted := by
            unfold text? at hdotted
            split at hdotted
            · rw [Option.some.inj hdotted]
            · contradiction
          have hfields : InFields fact (some report) ↔
              rule.readsField = true ∧ (Language.resolve report dotted).isSome := by
            rw [InFields, hrule, hget]
            have hne : dotted ≠ "" := by simpa [truthy] using htruthy
            simp [hne]
          rw [hfields]
          cases hresolved : Language.resolve report dotted with
          | none =>
              simp only [hresolved] at hrun
              obtain rfl := Option.some.inj hrun
              simp
          | some resolved =>
              simp only [hresolved, hv, Option.bind_eq_bind, Option.bind_some, hof] at hrun
              cases rule with
              | structuredSetSuperset =>
                  obtain ⟨_, -, rfl⟩ := Option.map_eq_some_iff.mp hrun
                  simp [FactRule.readsField]
              | _ =>
                  obtain rfl := Option.some.inj hrun
                  simp [FactRule.readsField]

/-! ### What the lint accepts -/

/-- A unit of a battery that the lint accepts. -/
def Accepted (L : Language) (unit : Json.Fields) : Prop :=
  ∃ units name accepted, L.lintBattery units name = .ok accepted ∧ unit ∈ accepted

theorem bind_ok {ε α β : Type} {x : Except ε α} {f : α → Except ε β} {b : β} (h : x >>= f = .ok b) :
  ∃ a, x = .ok a ∧ f a = .ok b
  := by
  cases x with
  | error e => contradiction
  | ok a => exact ⟨a, rfl, h⟩

theorem orRaise_ok {α : Type} {v : Option α} {a : α} (h : orRaise v = .ok a) :
  v = some a
  := by
  cases v with
  | none => contradiction
  | some a' => rw [Except.ok.inj h]

theorem orRefuse_ok {α : Type} {v : Option α} {message : String} {a : α}
    (h : orRefuse v message = .ok a) :
  v = some a
  := by
  cases v with
  | none => contradiction
  | some a' => rw [Except.ok.inj h]

/-- A fact that is an object whose rule is known. -/
def Known (value : Json) : Prop :=
  ∃ fact rule, value = .obj fact ∧ ruleOf fact = some rule

/-- A fact that the lint accepts is an object whose rule is known. -/
theorem known_of_lintFact {place : String} {factIds : List Json} {value factId : Json}
    (h : L.lintFact place factIds value = .ok factId) :
  Known value
  := by
  obtain ⟨fact, hfact, h⟩ := bind_ok h
  have hvalue : value = .obj fact := by
    have := orRaise_ok hfact
    unfold fields? at this
    split at this
    · rw [Option.some.inj this]
    · contradiction
  obtain ⟨_, -, h⟩ := bind_ok h
  obtain ⟨_, -, h⟩ := bind_ok h
  obtain ⟨_, -, h⟩ := bind_ok h
  obtain ⟨rule, hrule, -⟩ := bind_ok h
  use fact, rule, hvalue
  have hof := orRefuse_ok hrule
  rw [ruleOf]
  cases hget : Json.get fact "rule" with
  | none =>
      rw [hget] at hof
      contradiction
  | some v =>
      rw [hget] at hof
      apply hof

/-- So is each fact of the loop. -/
theorem known_of_lintFacts {place : String} {factIds facts : List Json}
    (h : L.lintFacts place factIds facts = .ok ()) :
  ∀ value ∈ facts, Known value
  := by
  induction facts generalizing factIds with
  | nil => exact List.forall_mem_nil _
  | cons value facts ih =>
      obtain ⟨factId, hfact, h⟩ := bind_ok h
      rw [List.forall_mem_cons]
      exact ⟨known_of_lintFact hfact, ih h⟩

/-- The facts of a unit. -/
def factsOf (unit : Json.Fields) : Option (List Json) :=
  (Json.get unit "facts").bind iterate

/-- An accepted unit has facts, each an object whose rule is known. -/
theorem known_of_lintUnit {name uid : String} {seenIds : List String} {unit unit' : Json.Fields}
    (h : L.lintUnit name seenIds unit = .ok (uid, unit')) :
  ∃ facts, factsOf unit' = some facts ∧ ∀ value ∈ facts, Known value
  := by
  obtain ⟨_, -, h⟩ := bind_ok h
  obtain ⟨_, -, h⟩ := bind_ok h
  obtain ⟨_, -, h⟩ := bind_ok h
  obtain ⟨_, -, h⟩ := bind_ok h
  obtain ⟨_, -, h⟩ := bind_ok h
  obtain ⟨_, -, h⟩ := bind_ok h
  obtain ⟨facts, hfacts, h⟩ := bind_ok h
  obtain ⟨_, hlint, h⟩ := bind_ok h
  obtain ⟨rfl, rfl⟩ := Prod.mk.inj (Except.ok.inj h)
  exact ⟨facts, orRaise_ok hfacts, known_of_lintFacts hlint⟩

theorem known_of_lintUnits {name : String} {seenIds : List String}
    {units accepted : List Json.Fields} (h : L.lintUnits name seenIds units = .ok accepted) :
  ∀ unit ∈ accepted, ∃ facts, factsOf unit = some facts ∧ ∀ value ∈ facts, Known value
  := by
  induction units generalizing seenIds accepted with
  | nil =>
      obtain rfl := Except.ok.inj h
      exact List.forall_mem_nil _
  | cons unit units ih =>
      obtain ⟨⟨uid, unit'⟩, hunit, h⟩ := bind_ok h
      obtain ⟨accepted', hunits, h⟩ := bind_ok h
      obtain rfl := Except.ok.inj h
      rw [List.forall_mem_cons]
      exact ⟨known_of_lintUnit hunit, ih hunits⟩

/-- The facts of an accepted unit are objects whose rules are known. -/
theorem Accepted.known {unit : Json.Fields} (h : Accepted L unit) :
  ∃ facts, factsOf unit = some facts ∧ ∀ value ∈ facts, Known value
  := by
  obtain ⟨units, name, accepted, hlint, hunit⟩ := h
  apply known_of_lintUnits hlint unit hunit

end Evals
