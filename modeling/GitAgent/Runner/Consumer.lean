import GitAgent.Runner.Wire

/-!
# The consumer of events

The loop that takes the messages from the queue (`infra/rabbit.py`), and how a message is read
(`core/runner/events.py`). A message that cannot be read raises an exception; the loop drops
the message if it is a `ValueError`, and ends otherwise. So the loop goes on to the last message
exactly if every message is an object that `json.loads` can read, and no infinite number is taken
for an integer.
-/

namespace Runner.Consumer

/-! ### Exceptions -/

/-- The exceptions that are raised while a message is read. -/
inductive Raised
  | keyError
  | typeError
  | valueError
  | attributeError
  | overflowError
  | recursionError
  deriving DecidableEq, Repr

/-- `int` cannot convert an infinity, and what is not a number is none. -/
structure Conversions extends Builtins where
  int_infinite : ∀ num, int (.float num 0) = none

/-- Conversions that say of a list, an object or a fraction only what it is. -/
def Conversions.simple : Conversions where
  toBuiltins := .simple
  int_infinite _ := rfl

instance : Inhabited Conversions :=
  ⟨.simple⟩

/-- The bytes of a message. -/
abbrev Body := List UInt8

/-- `json.loads`. It raises a `ValueError` where the bytes are no JSON text, and a
`RecursionError` where the value is nested too deep. -/
structure Loads where
  loads : Body → Except Raised Json
  raises : ∀ body e, loads body = .error e → e = .valueError ∨ e = .recursionError

/-- Whether a number is infinite. -/
def infinite : Json → Bool
  | .float num den => den = 0 && num ≠ 0
  | _ => false

/-- What `int` raises where it does not convert a value. -/
def intError : Json → Raised
  | .null | .arr _ | .obj _ => .typeError
  | v => if infinite v then .overflowError else .valueError

/-! ### `parse_event` -/

section

variable (B : Conversions) (d : Json.Fields)

/-- `int`. -/
def toInt (v : Json) : Except Raised ℤ :=
  match B.int v with
  | some n => .ok n
  | none => .error (intError v)

/-- A field that has to be there. -/
def required (key : String) : Except Raised Json :=
  match Json.get d key with
  | some v => .ok v
  | none => .error .keyError

/-- The files of the event, which are a list if they are there. -/
def files : Except Raised (List Json) :=
  match listField d "changedFiles" with
  | some values => .ok values
  | none => .error .typeError

/-- The number of the pull request, unless it is `null` or the empty text. -/
def prNumber : Except Raised (Option ℤ) :=
  match Json.get d "prNumber" with
  | none | some .null | some (.str "") => .ok none
  | some v => (toInt B v).map some

/-- The event of an object, as it is read field by field. -/
def readEvent : Except Raised WireEvent := do
  let files ← files d
  let eventId ← required d "eventId" >>= toInt B
  let instanceId ← required d "instanceId" >>= toInt B
  let threadId ← required d "threadId"
  let repositoryId ← required d "repositoryId" >>= toInt B
  let provider ← required d "provider"
  let action ← required d "action"
  let dedupKey ← required d "dedupKey"
  let prNumber ← prNumber B d
  return {
    eventId, instanceId, repositoryId
    threadId := B.str threadId
    provider := B.str provider
    action := B.str action
    dedupKey := B.str dedupKey
    commitSha := optShaField B.toBuiltins d "commitSha"
    ref := optField B.toBuiltins d "ref"
    traceId := textField B.toBuiltins d "traceId"
    beforeSha := optShaField B.toBuiltins d "beforeSha"
    baseSha := optShaField B.toBuiltins d "baseSha"
    headSha := optShaField B.toBuiltins d "headSha"
    prNumber
    prTitle := optField B.toBuiltins d "prTitle"
    prBody := optField B.toBuiltins d "prBody"
    changedFiles := files.map B.str }

/-- What the handler of `parse_event` makes of an exception. -/
def Raised.caught : Raised → Raised
  | .keyError | .typeError | .valueError => .valueError
  | e => e

/-- `parse_event`. Only an object has fields. -/
def parseEvent : Json → Except Raised WireEvent
  | .obj d => (readEvent B d).mapError Raised.caught
  | _ => .error .attributeError

end

/-! ### The loop -/

section

variable (L : Loads) (B : Conversions)

/-- The event of a message. -/
def event (body : Body) : Except Raised WireEvent :=
  L.loads body >>= parseEvent B

/-- `consume_events`: the events that are handled, and the exception that ends the loop. -/
def consumeEvents : List Body → List WireEvent × Option Raised
  | [] => ([], none)
  | body :: bodies =>
      match event L B body with
      | .ok e => ((consumeEvents bodies).map (e :: ·) id)
      | .error .valueError => consumeEvents bodies
      | .error e => ([], some e)

end

/-! ### What ends the loop -/

/-- The read of a message gives an event, or an exception that is dropped. -/
def Survives (r : Except Raised WireEvent) : Prop :=
  (∃ e, r = .ok e) ∨ r = .error .valueError

/-- The field is there. -/
def Has (d : Json.Fields) (key : String) : Prop :=
  (Json.get d key).isSome

/-- The field is there and is converted to an integer. -/
def HasInt (B : Conversions) (d : Json.Fields) (key : String) : Prop :=
  ((Json.get d key).bind B.int).isSome

/-- The field is an infinite number. -/
def Infinite (d : Json.Fields) (key : String) : Prop :=
  (Json.get d key).any infinite

/-- No infinite number is taken for an integer: where there is one, a field is missing or wrong that
is read before it. -/
structure Harmless (B : Conversions) (d : Json.Fields) : Prop where
  eventId : (listField d "changedFiles").isSome → ¬ Infinite d "eventId"
  instanceId : (listField d "changedFiles").isSome → HasInt B d "eventId" →
    ¬ Infinite d "instanceId"
  repositoryId : (listField d "changedFiles").isSome → HasInt B d "eventId" →
    HasInt B d "instanceId" → Has d "threadId" → ¬ Infinite d "repositoryId"
  prNumber : (listField d "changedFiles").isSome → HasInt B d "eventId" →
    HasInt B d "instanceId" → Has d "threadId" → HasInt B d "repositoryId" → Has d "provider" →
    Has d "action" → Has d "dedupKey" → ¬ Infinite d "prNumber"

/-- The message can be read as an object in which no infinite number is taken for an integer, or is
no JSON text. -/
structure Spared (L : Loads) (B : Conversions) (body : Body) : Prop where
  loads : L.loads body ≠ .error .recursionError
  object : ∀ v, L.loads body = .ok v → ∃ d, v = .obj d ∧ Harmless B d

section

variable {B : Conversions} {d : Json.Fields}

theorem bind_eq_error {α β : Type} {x : Except Raised α} {f : α → Except Raised β} {e : Raised} :
  x >>= f = .error e ↔ x = .error e ∨ ∃ a, x = .ok a ∧ f a = .error e
  := by
  cases x with
  | error e' => simp [bind, Except.bind]
  | ok a => simp [bind, Except.bind]

theorem bind_eq_ok {α β : Type} {x : Except Raised α} {f : α → Except Raised β} {b : β} :
  x >>= f = .ok b ↔ ∃ a, x = .ok a ∧ f a = .ok b
  := by
  cases x with
  | error e' => simp [bind, Except.bind]
  | ok a => simp [bind, Except.bind]

/-- Only of an infinite number `int` raises an `OverflowError`. -/
theorem toInt_eq_overflow {v : Json} :
  toInt B v = .error .overflowError ↔ infinite v
  := by
  rw [toInt]
  cases h : B.int v with
  | some n =>
      simp only [reduceCtorEq, false_iff]
      intro hv
      cases v with
      | float num den =>
          obtain ⟨hden, -⟩ := Bool.and_eq_true_iff.mp hv
          rw [of_decide_eq_true hden, B.int_infinite] at h
          contradiction
      | _ => contradiction
  | none => cases v <;> simp [intError, infinite]

theorem toInt_eq_ok {v : Json} {n : ℤ} :
  toInt B v = .ok n ↔ B.int v = some n
  := by
  rw [toInt]
  cases B.int v <;> simp

theorem required_eq_ok {key : String} {v : Json} :
  required d key = .ok v ↔ Json.get d key = some v
  := by
  rw [required]
  cases Json.get d key <;> simp

theorem required_ne_overflow (key : String) :
  required d key ≠ .error .overflowError
  := by
  rw [required]
  cases Json.get d key <;> simp

theorem exists_required {key : String} :
  (∃ v, required d key = .ok v) ↔ Has d key
  := by simp only [required_eq_ok, Has, Option.isSome_iff_exists]

theorem exists_toInt {key : String} :
  (∃ n, required d key >>= toInt B = .ok n) ↔ HasInt B d key
  := by
  simp only [bind_eq_ok, required_eq_ok, toInt_eq_ok, HasInt, Option.isSome_iff_exists,
    Option.bind_eq_some_iff]

theorem toInt_required {key : String} :
  required d key >>= toInt B = .error .overflowError ↔ Infinite d key
  := by
  simp only [bind_eq_error, required_ne_overflow, required_eq_ok, toInt_eq_overflow, Infinite,
    false_or, Option.any_eq_true]

theorem files_ne_overflow :
  files d ≠ .error .overflowError
  := by
  rw [files]
  cases listField d "changedFiles" <;> simp

theorem exists_files :
  (∃ values, files d = .ok values) ↔ (listField d "changedFiles").isSome
  := by
  rw [files]
  cases listField d "changedFiles" <;> simp

theorem prNumber_eq_overflow :
  prNumber B d = .error .overflowError ↔ Infinite d "prNumber"
  := by
  rw [prNumber, Infinite]
  split
  · rename_i h
    simp [h]
  · rename_i h
    simp [h, infinite]
  · rename_i h
    simp [h, infinite]
  · rename_i v _ _ hv
    rw [hv, Option.any_some, ← toInt_eq_overflow (B := B)]
    cases toInt B v <;> simp [Except.map]

/-- An exception is raised by a step, or by what comes after it. -/
theorem overflow_bind {α β : Type} {x : Except Raised α} {f : α → Except Raised β} {P : Prop}
    (hf : ∀ a, f a = .error .overflowError ↔ P) :
  x >>= f = .error .overflowError ↔ x = .error .overflowError ∨ (∃ a, x = .ok a) ∧ P
  := by
  rw [bind_eq_error]
  simp only [hf, exists_and_right]

/-- A field that only has to be there raises nothing but a `KeyError`. -/
theorem overflow_required {α : Type} {key : String} {f : Json → Except Raised α} {P : Prop}
    (hf : ∀ v, f v = .error .overflowError ↔ P) :
  required d key >>= f = .error .overflowError ↔ Has d key ∧ P
  := by
  rw [overflow_bind hf, exists_required]
  simp only [required_ne_overflow, false_or]

/-- A field that is converted raises an `OverflowError` if it is infinite. -/
theorem overflow_toInt {α : Type} {key : String} {f : ℤ → Except Raised α} {P : Prop}
    (hf : ∀ n, f n = .error .overflowError ↔ P) :
  (required d key >>= toInt B) >>= f = .error .overflowError ↔
    Infinite d key ∨ HasInt B d key ∧ P
  := by rw [overflow_bind hf, exists_toInt, toInt_required]

/-- No infinite number is taken for an integer exactly if each comes after a field that is missing
or wrong. -/
theorem readEvent_ne_overflow_iff :
  readEvent B d ≠ .error .overflowError ↔ Harmless B d
  := by
  have hread : readEvent B d = .error .overflowError ↔
      (listField d "changedFiles").isSome ∧ (Infinite d "eventId" ∨ HasInt B d "eventId" ∧
        (Infinite d "instanceId" ∨ HasInt B d "instanceId" ∧ Has d "threadId" ∧
          (Infinite d "repositoryId" ∨ HasInt B d "repositoryId" ∧ Has d "provider" ∧
            Has d "action" ∧ Has d "dedupKey" ∧ Infinite d "prNumber"))) := by
    have hend : ∀ f : Option ℤ → WireEvent,
        prNumber B d >>= (fun n => pure (f n)) = .error .overflowError ↔
          Infinite d "prNumber" := by
      intro f
      rw [bind_eq_error, prNumber_eq_overflow]
      simp [pure, Except.pure]
    rw [readEvent, overflow_bind fun _ => overflow_toInt fun _ => overflow_toInt fun _ =>
      overflow_required fun _ => overflow_toInt fun _ => overflow_required fun _ =>
      overflow_required fun _ => overflow_required fun _ => hend _, exists_files]
    simp only [files_ne_overflow, false_or]
  rw [Ne, hread]
  constructor
  · intro h
    constructor
    · exact fun hf he => h ⟨hf, .inl he⟩
    · exact fun hf he hi => h ⟨hf, .inr ⟨he, .inl hi⟩⟩
    · exact fun hf he hi ht hr => h ⟨hf, .inr ⟨he, .inr ⟨hi, ht, .inl hr⟩⟩⟩
    · exact fun hf he hi ht hr hp ha hk hn =>
        h ⟨hf, .inr ⟨he, .inr ⟨hi, ht, .inr ⟨hr, hp, ha, hk, hn⟩⟩⟩⟩
  · rintro h ⟨hf, he | ⟨he, hi | ⟨hi, ht, hr | ⟨hr, hp, ha, hk, hn⟩⟩⟩⟩
    · exact h.eventId hf he
    · exact h.instanceId hf he hi
    · exact h.repositoryId hf he hi ht hr
    · exact h.prNumber hf he hi ht hr hp ha hk hn

/-! ### What is read -/

theorem toOption_bind {α β : Type} (x : Except Raised α) (f : α → Except Raised β) :
  (x >>= f).toOption = x.toOption.bind fun a => (f a).toOption
  := by cases x <;> rfl

theorem toOption_toInt (v : Json) :
  (toInt B v).toOption = B.int v
  := by
  rw [toInt]
  cases B.int v <;> rfl

theorem toOption_required (key : String) :
  (required d key).toOption = Json.get d key
  := by
  rw [required]
  cases Json.get d key <;> rfl

theorem toOption_files :
  (files d).toOption = listField d "changedFiles"
  := by
  rw [files]
  cases listField d "changedFiles" <;> rfl

theorem toOption_prNumber :
  (prNumber B d).toOption = numberField B.toBuiltins d "prNumber"
  := by
  have hint : ∀ v, ((toInt B v).map some).toOption = (B.int v).map some := by
    intro v
    rw [← toOption_toInt]
    cases toInt B v <;> rfl
  rw [prNumber, numberField]
  cases Json.get d "prNumber" with
  | none => rfl
  | some v =>
      cases v with
      | null => rfl
      | str s =>
          by_cases hs : s = ""
          · subst hs
            rfl
          · dsimp only
            rw [if_neg hs, ← hint]
            split <;> simp_all
      | _ => apply hint

/-- What is read of an object is what is decoded. -/
theorem toOption_readEvent :
  (readEvent B d).toOption = decode B.toBuiltins d
  := by
  rw [readEvent, decode]
  simp only [toOption_bind, toOption_files, toOption_toInt, toOption_required, toOption_prNumber,
    Option.bind_eq_bind, Option.bind_map]
  rfl

/-- What is raised is caught, or an `OverflowError`. -/
def Usual {α : Type} (x : Except Raised α) : Prop :=
  ∀ e, x = .error e → e.caught = .valueError ∨ e = .overflowError

theorem Usual.bind {α β : Type} {x : Except Raised α} {f : α → Except Raised β} (hx : Usual x)
    (hf : ∀ a, Usual (f a)) :
  Usual (x >>= f)
  := by
  intro e h
  rcases bind_eq_error.mp h with h | ⟨a, -, h⟩
  · apply hx e h
  · apply hf a e h

theorem usual_ok {α : Type} (a : α) :
  Usual (.ok a)
  := by
  intro e h
  contradiction

theorem usual_required (key : String) :
  Usual (required d key)
  := by
  rw [required]
  split
  · apply usual_ok
  · rintro _ ⟨⟩
    exact .inl rfl

theorem usual_toInt (v : Json) :
  Usual (toInt B v)
  := by
  rw [toInt]
  split
  · apply usual_ok
  · rintro _ ⟨⟩
    cases v with
    | float num den =>
        rw [intError]
        split
        · exact .inr rfl
        · exact .inl rfl
        all_goals
          intros
          contradiction
    | _ => exact .inl rfl

theorem usual_files :
  Usual (files d)
  := by
  rw [files]
  split
  · apply usual_ok
  · rintro _ ⟨⟩
    exact .inl rfl

theorem usual_prNumber :
  Usual (prNumber B d)
  := by
  rw [prNumber]
  split
  · apply usual_ok
  · apply usual_ok
  · apply usual_ok
  · rename_i v _ _ _
    intro e h
    apply usual_toInt v e
    cases hv : toInt B v with
    | ok n =>
        rw [hv] at h
        contradiction
    | error e' =>
        rw [hv] at h
        rw [Except.error.inj h]

theorem usual_readEvent :
  Usual (readEvent B d)
  := by
  have htoInt : ∀ key, Usual (required d key >>= toInt B) :=
    fun key => (usual_required key).bind usual_toInt
  rw [readEvent]
  apply usual_files.bind
  intro _
  apply (htoInt _).bind
  intro _
  apply (htoInt _).bind
  intro _
  apply (usual_required _).bind
  intro _
  apply (htoInt _).bind
  intro _
  apply (usual_required _).bind
  intro _
  apply (usual_required _).bind
  intro _
  apply (usual_required _).bind
  intro _
  apply usual_prNumber.bind
  intro _
  apply usual_ok

/-- A value is read as an event or dropped exactly if it is an object in which no infinite number is
taken for an integer. -/
theorem survives_parseEvent_iff {v : Json} :
  Survives (parseEvent B v) ↔ ∃ d, v = .obj d ∧ Harmless B d
  := by
  cases v with
  | obj d =>
      have hobj : (∃ d', Json.obj d = .obj d' ∧ Harmless B d') ↔ Harmless B d := by simp
      rw [hobj, ← readEvent_ne_overflow_iff, parseEvent]
      cases h : readEvent B d with
      | ok e =>
          apply iff_of_true
          · exact .inl ⟨e, rfl⟩
          · simp
      | error e =>
          rcases usual_readEvent e h with hcaught | rfl
          · apply iff_of_true
            · right
              rw [Except.mapError, hcaught]
            · rintro ⟨⟩
              contradiction
          · apply iff_of_false
            · rintro (⟨e, he⟩ | he) <;> contradiction
            · exact fun hne => hne rfl
  | _ =>
      apply iff_of_false
      · simp [Survives, parseEvent]
      · rintro ⟨d, hd, -⟩
        contradiction

end

/-! ### The loop -/

section

variable {L : Loads} {B : Conversions}

theorem survives_event_iff {body : Body} :
  Survives (event L B body) ↔ Spared L B body
  := by
  rw [event]
  cases h : L.loads body with
  | ok v =>
      apply survives_parseEvent_iff.trans
      constructor
      · intro hd
        constructor
        · rw [h]
          nofun
        · intro v' hv
          obtain rfl := Except.ok.inj (h.symm.trans hv)
          apply hd
      · intro hs
        apply hs.object v h
  | error e =>
      rcases L.raises body e h with rfl | rfl
      · apply iff_of_true (.inr rfl)
        constructor
        · rw [h]
          nofun
        · intro v hv
          rw [h] at hv
          contradiction
      · apply iff_of_false
        · simp [Survives, bind, Except.bind]
        · intro hs
          apply hs.loads h

/-- The loop goes on after a message that survives, and ends at another. -/
theorem consumeEvents_cons (body : Body) (bodies : List Body) :
  (consumeEvents L B (body :: bodies)).2 = none ↔
    Survives (event L B body) ∧ (consumeEvents L B bodies).2 = none
  := by
  rw [consumeEvents, Survives]
  cases event L B body with
  | ok e => simp
  | error e => cases e <;> simp

/-- The loop handles the events that are read, as far as it goes. -/
theorem consumeEvents_fst (bodies : List Body) (h : (consumeEvents L B bodies).2 = none) :
  (consumeEvents L B bodies).1 = bodies.filterMap fun body => (event L B body).toOption
  := by
  induction bodies with
  | nil => rfl
  | cons body bodies ih =>
      obtain ⟨hs, hrest⟩ := (consumeEvents_cons body bodies).mp h
      rw [consumeEvents, List.filterMap_cons]
      rcases hs with ⟨e, he⟩ | he
      · rw [he]
        exact congrArg (e :: ·) (ih hrest)
      · rw [he]
        apply ih hrest

/-- **The consumer goes on exactly if no message ends it**: a JSON value is read as an event or
dropped exactly if it is an object in which no infinite number is taken for an integer, and the
loop goes on to the last message, and handles all events among them, exactly if each message is
such an object, or no JSON text. -/
theorem consumer_goes_on_iff (L : Loads) (B : Conversions) :
  (∀ v, Survives (parseEvent B v) ↔ ∃ d, v = .obj d ∧ Harmless B d) ∧
    ∀ bodies : List Body,
      consumeEvents L B bodies =
          (bodies.filterMap fun body => (event L B body).toOption, none) ↔
        ∀ body ∈ bodies, Spared L B body
  := by
  refine ⟨fun v => survives_parseEvent_iff, fun bodies => ?_⟩
  have hnone : (consumeEvents L B bodies).2 = none ↔ ∀ body ∈ bodies, Spared L B body := by
    induction bodies with
    | nil => simp [consumeEvents]
    | cons body bodies ih =>
        rw [consumeEvents_cons, survives_event_iff, ih, List.forall_mem_cons]
  rw [← hnone]
  constructor
  · intro h
    rw [h]
  · intro h
    apply Prod.ext (consumeEvents_fst bodies h) h

end

/-- `json.loads` on the text of an empty list, and on texts that are none of JSON. -/
def sampleLoads : Loads where
  loads body := if body = [0x5b, 0x5d] then .ok (.arr []) else .error .valueError
  raises body e h := by
    split at h
    · contradiction
    · exact .inl (Except.error.inj h).symm

/-- A message with an empty list ends the loop. -/
theorem not_goes_on_list :
  ¬ ∀ (L : Loads) (B : Conversions) (body : Body), Survives (event L B body)
  := by
  intro h
  have hbody := h sampleLoads default [0x5b, 0x5d]
  have hevent : event sampleLoads default [0x5b, 0x5d] = .error .attributeError := rfl
  rw [hevent] at hbody
  simp [Survives] at hbody

end Runner.Consumer
