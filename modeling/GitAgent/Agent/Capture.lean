import GitAgent.Agent.Executor
import GitAgent.Library.Firsts

/-!
# The steps of a stream

The steps of a subagent are captured from one list of messages after the other
(`core/subagents/steps.py`). A list goes on from the one before, has other contents in the same
places, or is compacted; and of each reply and each answer there is one step.
-/

namespace Agent

/-- What has been captured, the number of messages, and the steps that were told of. -/
structure Capturing where
  captured : Captured := {}
  cursor : ℕ := 0
  told : List Step := []

variable (T : Texts) (taskId : String)

/-- One more list of messages. -/
def Capturing.chunk (s : Capturing) (messages : List Message) : Capturing :=
  let (captured, newSteps) := captureNewStepMessages T taskId messages s.captured s.cursor
  { captured, cursor := messages.length, told := s.told ++ newSteps }

/-- The lists of a stream, one after the other. -/
def captureStream (lists : List (List Message)) : Capturing :=
  lists.foldl (Capturing.chunk T taskId) {}

/-! ### Streams -/

/-- `type`. -/
def Message.type : Message → String
  | system _ => "system"
  | human _ => "human"
  | ai _ => "ai"
  | tool _ => "tool"

/-- Whether a message is a reply or an answer. -/
def Message.isStep (m : Message) : Prop :=
  m.type = "ai" ∨ m.type = "tool"

/-- One message stands for another: it has the same id, and is of the same kind. -/
def StandsFor (m m' : Message) : Prop :=
  m'.id? = m.id? ∧ m'.type = m.type

/-- What comes after a list of messages: more messages, other contents, or a list that is not longer,
in which every reply and every answer is one that was there. -/
inductive Follows (messages : List Message) : List Message → Prop
  | append (more : List Message) : Follows messages (messages ++ more)
  | replace {messages' : List Message} (h : List.Forall₂ StandsFor messages messages') :
      Follows messages messages'
  | compact {messages' : List Message} (length : messages'.length ≤ messages.length)
      (survive : ∀ m' ∈ messages', m'.isStep → ∃ m ∈ messages, StandsFor m m') :
      Follows messages messages'

/-- A stream: each list follows the one before, and the replies and answers have ids. -/
structure MessageStream where
  lists : List (List Message)
  follows : lists.IsChain Follows
  ids : ∀ messages ∈ lists, ∀ m ∈ messages, m.isStep → m.id? ≠ none

/-- The replies and answers of a list, with their ids and places. -/
def entriesOf (messages : List Message) : List (String × Message × ℕ) :=
  messages.zipIdx.filterMap fun m => m.1.id?.map fun id => (id, m)

/-- The first replies and answers of their ids in a stream. -/
def firstEntries (lists : List (List Message)) : List (String × Message × ℕ) :=
  Firsts.firsts Prod.fst [] (lists.flatMap entriesOf)

/-- The steps are one for each id of a reply or an answer, in the order in which these occur first,
and of the message that occurs first. -/
structure CapturesOnce (lists : List (List Message)) (steps : List Step) : Prop where
  steps : steps.map some =
    (firstEntries lists).map fun e => buildSubagentStep T taskId e.2.2 e.2.1
  once : ((firstEntries lists).map Prod.fst).Nodup
  every : ∀ id, id ∈ (firstEntries lists).map Prod.fst ↔
    ∃ messages ∈ lists, ∃ m ∈ messages, m.isStep ∧ m.id? = some id

/-! ### One list -/

variable {T taskId}

theorem isStep_of_id? {m : Message} {id : String} (h : m.id? = some id) :
  m.isStep
  := by
  cases m with
  | system content => contradiction
  | human content => contradiction
  | ai m => exact .inl rfl
  | tool m => exact .inr rfl

theorem exists_step (T : Texts) (taskId : String) {m : Message} (h : m.isStep) (index : ℕ) :
  ∃ step, buildSubagentStep T taskId index m = some step
  := by
  cases m with
  | system content => simp [Message.isStep, Message.type] at h
  | human content => simp [Message.isStep, Message.type] at h
  | ai m => exact ⟨_, rfl⟩
  | tool m => exact ⟨_, rfl⟩

theorem build_of_not_isStep (T : Texts) (taskId : String) {m : Message} (h : ¬ m.isStep) (index : ℕ) :
  buildSubagentStep T taskId index m = none ∧ m.id? = none
  := by
  cases m with
  | system content => exact ⟨rfl, rfl⟩
  | human content => exact ⟨rfl, rfl⟩
  | ai m => exact absurd (.inl rfl) h
  | tool m => exact absurd (.inr rfl) h

/-- The entries of some messages with their places. -/
def entriesAt (ms : List (Message × ℕ)) : List (String × Message × ℕ) :=
  ms.filterMap fun m => m.1.id?.map fun id => (id, m)

/-- What has been captured are the steps of some entries, and their ids. -/
structure Captured.Of (T : Texts) (taskId : String) (c : Captured)
    (entries : List (String × Message × ℕ)) : Prop where
  steps : c.steps.map some = entries.map fun e => buildSubagentStep T taskId e.2.2 e.2.1
  seenIds : c.seenIds = entries.map Prod.fst

/-- **The messages that are gone through** add the first entries of ids that were not seen. -/
theorem Captured.Of.foldl {c : Captured} {entries : List (String × Message × ℕ)}
    (h : c.Of T taskId entries) {ms : List (Message × ℕ)}
    (hids : ∀ m ∈ ms, m.1.isStep → m.1.id? ≠ none) :
  (ms.foldl (Captured.add T taskId) c).Of T taskId
    (entries ++ Firsts.firsts Prod.fst (entries.map Prod.fst) (entriesAt ms))
  := by
  induction ms generalizing c entries with
  | nil =>
      rw [entriesAt, List.filterMap_nil, Firsts.firsts, List.append_nil]
      exact h
  | cons m ms ih =>
      obtain ⟨hm, hms⟩ := List.forall_mem_cons.mp hids
      rw [List.foldl_cons]
      by_cases hstep : m.1.isStep
      · obtain ⟨step, hbuild⟩ := exists_step T taskId hstep m.2
        obtain ⟨id, hid⟩ := Option.ne_none_iff_exists'.mp (hm hstep)
        have hentries : entriesAt (m :: ms) = (id, m) :: entriesAt ms := by
          rw [entriesAt, List.filterMap_cons, hid]
          rfl
        rw [hentries, Firsts.firsts]
        by_cases hseen : id ∈ entries.map Prod.fst
        · have hadd : c.add T taskId m = c := by
            rw [Captured.add, hbuild, hid]
            dsimp only
            rw [if_pos (by rwa [h.seenIds])]
          rw [if_pos hseen, hadd]
          apply ih h hms
        · have hadd : c.add T taskId m =
              { steps := c.steps ++ [step], seenIds := c.seenIds ++ [id] } := by
            rw [Captured.add, hbuild, hid]
            dsimp only
            rw [if_neg (by rwa [h.seenIds])]
          have hof : (c.add T taskId m).Of T taskId (entries ++ [(id, m)]) := by
            rw [hadd]
            constructor
            · rw [List.map_append, List.map_append, h.steps, List.map_singleton,
                List.map_singleton, hbuild]
            · rw [h.seenIds, List.map_append, List.map_singleton]
          have hrest := ih hof hms
          rw [List.map_append, List.map_singleton, List.append_assoc, List.singleton_append]
            at hrest
          rw [if_neg hseen]
          exact hrest
      · obtain ⟨hbuild, hid⟩ := build_of_not_isStep T taskId hstep m.2
        have hentries : entriesAt (m :: ms) = entriesAt ms := by
          rw [entriesAt, List.filterMap_cons, hid]
          rfl
        have hadd : c.add T taskId m = c := by rw [Captured.add, hbuild]
        rw [hentries, hadd]
        apply ih h hms

/-- Steps are only added. -/
theorem steps_foldl_add (T : Texts) (taskId : String) (c : Captured) (ms : List (Message × ℕ)) :
  c.steps <+: (ms.foldl (Captured.add T taskId) c).steps
  := by
  induction ms generalizing c with
  | nil => apply List.prefix_refl
  | cons m ms ih =>
      have hadd : c.steps <+: (c.add T taskId m).steps := by
        rw [Captured.add]
        split
        · apply List.prefix_refl
        · split
          · split
            · apply List.prefix_refl
            · apply List.prefix_append
          · split
            · apply List.prefix_refl
            · apply List.prefix_append
      apply hadd.trans (ih _)

/-! ### One list after the other -/

/-- What holds after some lists, of which one was the last: the first entries are captured, all steps
were told of, and nothing in the last list is new. -/
structure Caught (T : Texts) (taskId : String) (last : List Message) (lists : List (List Message))
    (s : Capturing) : Prop where
  captured : s.captured.Of T taskId (firstEntries lists)
  told : s.told = s.captured.steps
  cursor : s.cursor = last.length
  seen : ∀ e ∈ entriesOf last, e.1 ∈ (firstEntries lists).map Prod.fst

theorem mem_entriesAt {ms : List (Message × ℕ)} {e : String × Message × ℕ} :
  e ∈ entriesAt ms ↔ e.2 ∈ ms ∧ e.2.1.id? = some e.1
  := by
  rw [entriesAt, List.mem_filterMap]
  constructor
  · rintro ⟨m, hm, he⟩
    obtain ⟨id, hid, rfl⟩ := Option.map_eq_some_iff.mp he
    exact ⟨hm, hid⟩
  · rintro ⟨hm, hid⟩
    exact ⟨e.2, hm, by rw [hid]; rfl⟩

/-- An id of a list is the one of a reply or an answer in it. -/
theorem exists_mem_entriesOf {messages : List Message} {id : String} :
  (∃ e ∈ entriesOf messages, e.1 = id) ↔ ∃ m ∈ messages, m.id? = some id
  := by
  constructor
  · rintro ⟨e, he, rfl⟩
    obtain ⟨hm, hid⟩ := mem_entriesAt.mp he
    exact ⟨e.2.1, List.fst_mem_of_mem_zipIdx hm, hid⟩
  · rintro ⟨m, hm, hid⟩
    obtain ⟨i, hi, rfl⟩ := List.mem_iff_getElem.mp hm
    refine ⟨(id, messages[i], i), mem_entriesAt.mpr ⟨?_, hid⟩, rfl⟩
    rw [List.mem_zipIdx_iff_getElem?]
    exact List.getElem?_eq_getElem hi

/-- A list that does not append has no id that was not there. -/
theorem Follows.seen {last messages : List Message} (h : Follows last messages) :
  (∃ more, messages = last ++ more) ∨
    ∀ m' ∈ messages, ∀ id, m'.id? = some id → ∃ m ∈ last, m.id? = some id
  := by
  cases h with
  | append more => exact .inl ⟨more, rfl⟩
  | replace h =>
      right
      intro m' hm' id hid
      obtain ⟨hlength, hget⟩ := List.forall₂_iff_get.mp h
      obtain ⟨i, hi, rfl⟩ := List.mem_iff_getElem.mp hm'
      have hstands : StandsFor last[i] messages[i] := hget i (by omega) hi
      exact ⟨last[i], List.getElem_mem _, by rw [← hstands.1, hid]⟩
  | compact length survive =>
      right
      intro m' hm' id hid
      obtain ⟨m, hm, hstands⟩ := survive m' hm' (isStep_of_id? hid)
      exact ⟨m, hm, by rw [← hstands.1, hid]⟩

/-- The place from which a list is gone through. -/
def startOf (cursor : ℕ) (messages : List Message) : ℕ :=
  let total := messages.length
  let processed := if total < cursor then 0 else cursor
  if total = processed then total - 1 else processed

/-- **What is left out at the begin of a list is not new.** -/
theorem Caught.firsts_drop {last messages : List Message} {lists : List (List Message)}
    {s : Capturing} (h : Caught T taskId last lists s) (hfollows : Follows last messages) :
  Firsts.firsts Prod.fst ((firstEntries lists).map Prod.fst)
      (entriesAt (messages.zipIdx.drop (startOf s.cursor messages))) =
    Firsts.firsts Prod.fst ((firstEntries lists).map Prod.fst) (entriesOf messages)
  := by
  have hold : (∀ e ∈ entriesOf messages, e.1 ∈ (firstEntries lists).map Prod.fst) →
      Firsts.firsts Prod.fst ((firstEntries lists).map Prod.fst)
        (entriesAt (messages.zipIdx.drop (startOf s.cursor messages))) =
      Firsts.firsts Prod.fst ((firstEntries lists).map Prod.fst) (entriesOf messages) := by
    intro hall
    rw [Firsts.firsts_eq_nil hall, Firsts.firsts_eq_nil]
    intro e he
    obtain ⟨hmem, hid⟩ := mem_entriesAt.mp he
    apply hall e (mem_entriesAt.mpr ⟨List.mem_of_mem_drop hmem, hid⟩)
  rcases hfollows.seen with ⟨more, rfl⟩ | hseen
  · cases more with
    | nil =>
        apply hold
        rw [List.append_nil]
        apply h.seen
    | cons m more =>
        have hstart : startOf s.cursor (last ++ m :: more) = last.length := by
          rw [startOf, h.cursor]
          simp
        have hentries : entriesOf (last ++ m :: more) =
            entriesOf last ++ entriesAt ((m :: more).zipIdx last.length) := by
          rw [entriesOf, List.zipIdx_append, List.filterMap_append, Nat.zero_add]
          rfl
        have hdrop : (last ++ m :: more).zipIdx.drop last.length =
            (m :: more).zipIdx last.length := by
          rw [List.zipIdx_append, Nat.zero_add, List.drop_append_of_le_length (by simp),
            List.drop_eq_nil_of_le (by simp), List.nil_append]
        rw [hstart, hdrop, hentries, Firsts.firsts_append, Firsts.firsts_eq_nil h.seen,
          List.nil_append, List.map_nil, List.append_nil]
  · apply hold
    intro e he
    obtain ⟨m, hm, hid⟩ := exists_mem_entriesOf.mp ⟨e, he, rfl⟩
    obtain ⟨m', hm', hid'⟩ := hseen m hm e.1 hid
    obtain ⟨e', he', heq⟩ := exists_mem_entriesOf.mpr ⟨m', hm', hid'⟩
    rw [← heq]
    apply h.seen e' he'

/-- One more list. -/
theorem Caught.chunk {last messages : List Message} {lists : List (List Message)} {s : Capturing}
    (h : Caught T taskId last lists s) (hfollows : Follows last messages)
    (hids : ∀ m ∈ messages, m.isStep → m.id? ≠ none) :
  Caught T taskId messages (lists ++ [messages]) (s.chunk T taskId messages)
  := by
  have hentries : firstEntries (lists ++ [messages]) = firstEntries lists ++
      Firsts.firsts Prod.fst ((firstEntries lists).map Prod.fst)
        (entriesAt (messages.zipIdx.drop (startOf s.cursor messages))) := by
    rw [h.firsts_drop hfollows, firstEntries, List.flatMap_append, List.flatMap_singleton,
      Firsts.firsts_append, List.nil_append]
    rfl
  have hdropped : ∀ m ∈ messages.zipIdx.drop (startOf s.cursor messages),
      m.1.isStep → m.1.id? ≠ none := by
    intro m hm
    apply hids m.1 (List.fst_mem_of_mem_zipIdx (List.mem_of_mem_drop hm))
  have hprefix := steps_foldl_add T taskId s.captured
    (messages.zipIdx.drop (startOf s.cursor messages))
  constructor
  · rw [hentries]
    apply h.captured.foldl hdropped
  · obtain ⟨more, hmore⟩ := hprefix
    change s.told ++ List.drop s.captured.steps.length (List.foldl (Captured.add T taskId) s.captured
      (messages.zipIdx.drop (startOf s.cursor messages))).steps = (List.foldl (Captured.add T taskId)
      s.captured (messages.zipIdx.drop (startOf s.cursor messages))).steps
    rw [← hmore, List.drop_left, h.told]
  · rfl
  · intro e he
    rw [firstEntries, Firsts.mem_map_firsts]
    refine ⟨List.not_mem_nil, List.mem_map.mpr ⟨e, ?_, rfl⟩⟩
    rw [List.mem_flatMap]
    exact ⟨messages, List.mem_append_right _ (List.mem_singleton_self _), he⟩

/-- All lists of a stream. -/
theorem Caught.stream {last : List Message} {lists done : List (List Message)} {s : Capturing}
    (h : Caught T taskId last done s) (hfollows : (last :: lists).IsChain Follows)
    (hids : ∀ messages ∈ lists, ∀ m ∈ messages, m.isStep → m.id? ≠ none) :
  ∃ last', Caught T taskId last' (done ++ lists) (lists.foldl (Capturing.chunk T taskId) s)
  := by
  induction lists generalizing last done s with
  | nil =>
      rw [List.append_nil]
      exact ⟨last, h⟩
  | cons messages lists ih =>
      obtain ⟨hmessages, hlists⟩ := List.forall_mem_cons.mp hids
      obtain ⟨hfirst, hrest⟩ := List.isChain_cons_cons.mp hfollows
      have hall := ih (h.chunk hfirst hmessages) hrest hlists
      rwa [List.append_assoc, List.singleton_append] at hall

variable (T taskId)

end Agent
