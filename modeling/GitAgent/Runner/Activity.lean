import Mathlib.Algebra.GroupWithZero.Nat
import Mathlib.Data.List.Sort
import GitAgent.Library.Dict
import GitAgent.Library.Json
import GitAgent.Library.Table
import GitAgent.Library.Transition
import GitAgent.Hub.Event

/-!
# The activity of an instance

The frames of a turn (`core/runner/activity.py`) are numbered from one, written to
`hub.activity`, and kept in the turn, where they are read while it is live. Once it has
finished they are read from the table, which knows a turn by the event that it executes, and
a turn of the chat by no event at all. So what is read is the last turn alone exactly if
the event was executed once, and if there was one turn of the chat.
-/

namespace Runner

open Hub (InstanceId EventId)

/-- A frame of the activity, a JSON object. -/
abbrev Frame := Json.Fields

/-- A row of `hub.activity`. -/
structure ActivityRow where
  id : ℕ
  instanceId : InstanceId
  eventId : Option EventId
  seq : ℕ
  kind : String
  payload : Frame
  traceId : String

/-- A turn: its event, or none for a turn of the chat, whether it is over, the number of the
last frame, and the frames. -/
structure ActivityTurn where
  eventId : Option EventId
  traceId : String
  done : Bool := false
  seq : ℕ := 0
  frames : List Frame := []

/-- The table `hub.activity`. -/
abbrev ActivityJournal := Serial ActivityRow ActivityRow.id

namespace ActivityJournal

variable (J : ActivityJournal)

/-- `add_activity`. -/
def addActivity (instanceId : InstanceId) (eventId : Option EventId) (seq : ℕ) (frame : Frame)
    (traceId : String) : ActivityJournal :=
  J.insert (fun id => ⟨id, instanceId, eventId, seq, Json.asString (Json.get frame "kind"), frame,
    traceId⟩) fun _ => rfl

/-- The rows of an instance, in the order in which they were written. -/
def ofInstance (instanceId : InstanceId) : List ActivityRow :=
  J.rows.filter fun r => r.instanceId = instanceId

/-- The order of the rows that are read: by the number in the turn, and then by the key. -/
def Before (r r' : ActivityRow) : Prop :=
  r.seq < r'.seq ∨ r.seq = r'.seq ∧ r.id ≤ r'.id

instance : DecidableRel Before :=
  fun _ _ => inferInstanceAs (Decidable (_ ∨ _))

/-- The query `ActivityByEvent`. -/
def activityByEvent (instanceId : InstanceId) (eventId : Option EventId) : List Frame :=
  (((ofInstance J instanceId).filter fun r => r.eventId = eventId).insertionSort Before).map
    ActivityRow.payload

/-- The query `ActivityLatest`: the rows with the event of the last row. -/
def activityLatest (instanceId : InstanceId) : List Frame :=
  activityByEvent J instanceId ((ofInstance J instanceId).getLast?.bind ActivityRow.eventId)

/-- `list_activity`. -/
def listActivity (instanceId : InstanceId) (eventId : Option EventId) (latest : Bool) :
    List Frame :=
  if latest then activityLatest J instanceId else activityByEvent J instanceId eventId

end ActivityJournal

namespace ActivityTurn

/-- A frame with the trace of the turn, unless it has one or the turn has none. -/
def stamp (turn : ActivityTurn) (frame : Frame) : Frame :=
  if turn.traceId ≠ "" ∧ (Json.get frame "traceId").isNone then
    frame ++ [("traceId", .str turn.traceId)]
  else frame

/-- The turn after a frame was emitted. -/
def push (turn : ActivityTurn) (frame : Frame) : ActivityTurn :=
  { turn with seq := turn.seq + 1, frames := turn.frames ++ [frame] }

/-- What the rows of the turn say: its event, the number of the frame, and the frame. -/
def entries (turn : ActivityTurn) : List (Option EventId × ℕ × Frame) :=
  (turn.frames.zipIdx 1).map fun (frame, seq) => (turn.eventId, seq, frame)

end ActivityTurn

/-- The turns of the instances. `past` is a history of the turns that are over. -/
structure ActivityFeed where
  journal : ActivityJournal
  turns : Dict InstanceId ActivityTurn
  past : List (InstanceId × ActivityTurn)

/-- The frame with which every turn starts. -/
def runStarted (ts : String) : Frame :=
  [("kind", .str "run_started"), ("ts", .str ts)]

namespace ActivityFeed

/-- The feed without turns. -/
def empty : ActivityFeed :=
  ⟨.empty, .empty, []⟩

/-- `live`: the turn of an instance that is not over. -/
def live (s : ActivityFeed) (id : InstanceId) : Option ActivityTurn :=
  (s.turns.get id).filter fun turn => !turn.done

/-- `begin`: a new turn of an instance. -/
def begin (s : ActivityFeed) (id : InstanceId) (eventId : Option EventId) (traceId : String) :
    ActivityFeed :=
  { s with turns := s.turns.set id { eventId, traceId } }

/-- `emit`: the frame is written, and then kept. -/
def emit (s : ActivityFeed) (id : InstanceId) (turn : ActivityTurn) (frame : Frame) :
    ActivityFeed :=
  let frame := turn.stamp frame
  { s with
    journal := s.journal.addActivity id turn.eventId (turn.seq + 1) frame turn.traceId
    turns := s.turns.set id (turn.push frame) }

/-- `close`: the turn is over. -/
def close (s : ActivityFeed) (id : InstanceId) (turn : ActivityTurn) : ActivityFeed :=
  { s with
    turns := s.turns.set id { turn with done := true }
    past := s.past ++ [(id, turn)] }

/-- `activity`: the frames of the live turn, if it is the one asked for, and otherwise those of
the table. -/
def activity (s : ActivityFeed) (id : InstanceId) (eventId : Option EventId) : List Frame :=
  let stored := s.journal.listActivity id eventId eventId.isNone
  match s.live id with
  | some turn => if eventId = none ∨ turn.eventId = eventId then turn.frames else stored
  | none => stored

/-- The turns of an instance that are over, in their order. -/
def history (s : ActivityFeed) (id : InstanceId) : List ActivityTurn :=
  (s.past.filter fun p => p.1 = id).map Prod.snd

/-- What happens to a feed: a turn starts, and its first frame is emitted; another frame is
emitted; a turn ends. -/
inductive Action
  | start (id : InstanceId) (eventId : Option EventId) (traceId ts : String)
  | emit (id : InstanceId) (frame : Frame)
  | close (id : InstanceId)

/-- The feed after an action. The turns of an instance exclude one another. -/
def step (s : ActivityFeed) : Action → Option ActivityFeed
  | .start id eventId traceId ts =>
      match s.live id with
      | some _ => none
      | none => some ((s.begin id eventId traceId).emit id { eventId, traceId } (runStarted ts))
  | .emit id frame => (s.live id).map fun turn => s.emit id turn frame
  | .close id => (s.live id).map fun turn => s.close id turn

end ActivityFeed

/-- The feed of the activity, from the empty table on. -/
def activitySystem : Transition.System ActivityFeed ActivityFeed.Action where
  init s := s = .empty
  step := ActivityFeed.step

/-! ### What the table holds -/

/-- What a row says about its turn. -/
def ActivityRow.entry (r : ActivityRow) : Option EventId × ℕ × Frame :=
  (r.eventId, r.seq, r.payload)

namespace ActivityJournal

variable (J : ActivityJournal)

/-- A new row is the last one of its instance. -/
theorem ofInstance_addActivity (id id' : InstanceId) (eventId : Option EventId) (seq : ℕ)
    (frame : Frame) (traceId : String) :
  (ofInstance (J.addActivity id eventId seq frame traceId) id').map ActivityRow.entry =
    (ofInstance J id').map ActivityRow.entry ++
      if id = id' then [(eventId, seq, frame)] else []
  := by
  rw [ofInstance, addActivity, Serial.rows_insert, List.filter_append, List.map_append]
  congr 1
  split
  · rename_i h
    simp [h, ActivityRow.entry]
  · rename_i h
    simp [h]

end ActivityJournal

namespace ActivityTurn

/-- A frame that is emitted is the last one of the turn. -/
theorem entries_push (turn : ActivityTurn) (frame : Frame) :
  (turn.push frame).entries =
    turn.entries ++ [(turn.eventId, turn.frames.length + 1, frame)]
  := by
  rw [entries, push, entries, List.zipIdx_append, List.map_append, Nat.add_comm 1]
  rfl

theorem length_entries (turn : ActivityTurn) :
  turn.entries.length = turn.frames.length
  := by rw [entries, List.length_map, List.length_zipIdx]

/-- The frames of the entries. -/
theorem map_payload_entries (turn : ActivityTurn) :
  turn.entries.map (fun i => i.2.2) = turn.frames
  := by
  rw [entries, List.map_map]
  apply List.zipIdx_map_fst

/-- The numbers of the entries increase. -/
theorem pairwise_entries (turn : ActivityTurn) :
  turn.entries.Pairwise fun i i' => i.2.1 < i'.2.1
  := by
  have h : turn.entries.map (fun i => i.2.1) = List.range' 1 turn.frames.length := by
    rw [entries, List.map_map]
    apply List.zipIdx_map_snd
  apply List.pairwise_map.mp
  rw [h]
  exact List.pairwise_lt_range'

end ActivityTurn

namespace ActivityFeed

variable {s s' : ActivityFeed} {id : InstanceId}

/-- The turns of an instance, with the one that is live. -/
def turnsOf (s : ActivityFeed) (id : InstanceId) : List ActivityTurn :=
  s.history id ++ (s.live id).toList

/-- The rows of an instance are the entries of its turns, one after the other. -/
structure Recorded (s : ActivityFeed) (id : InstanceId) : Prop where
  entries : (s.journal.ofInstance id).map ActivityRow.entry =
    (s.turnsOf id).flatMap ActivityTurn.entries
  frames : ∀ turn ∈ s.turnsOf id, turn.frames ≠ []
  seq : ∀ turn ∈ s.live id, turn.seq = turn.frames.length

/-- The turn of an instance after it was set. -/
theorem live_set (s : ActivityFeed) (id id' : InstanceId) (turn : ActivityTurn)
    (J : ActivityJournal) (past : List (InstanceId × ActivityTurn)) :
  live ⟨J, s.turns.set id turn, past⟩ id' =
    if id' = id then (some turn).filter (fun turn => !turn.done) else s.live id'
  := by
  rw [live, Dict.get_set, live]
  split <;> rfl

/-- A live turn is not over. -/
theorem done_of_live {turn : ActivityTurn} (h : s.live id = some turn) :
  turn.done = false
  := by
  obtain ⟨-, h⟩ := Option.filter_eq_some_iff.mp h
  simpa using h

/-- A frame that is emitted for one instance is not recorded for the others. -/
theorem Recorded.emit_of_ne {id' : InstanceId} (h : s.Recorded id) (hne : id ≠ id')
    (turn : ActivityTurn) (frame : Frame) :
  (s.emit id' turn frame).Recorded id
  := by
  have hl : (s.emit id' turn frame).live id = s.live id := by
    rw [emit, live_set, if_neg hne]
  have ht : (s.emit id' turn frame).turnsOf id = s.turnsOf id := by
    rw [turnsOf, hl]
    rfl
  constructor
  · rw [ht, ← h.entries, emit, ActivityJournal.ofInstance_addActivity, if_neg hne.symm,
      List.append_nil]
  · rw [ht]
    apply h.frames
  · rw [hl]
    apply h.seq

/-- A frame that is emitted is recorded after the entries of its turn. -/
theorem recorded_emit {turn : ActivityTurn} (hd : turn.done = false)
    (hs : turn.seq = turn.frames.length)
    (he : (s.journal.ofInstance id).map ActivityRow.entry =
      (s.history id).flatMap ActivityTurn.entries ++ turn.entries)
    (hf : ∀ turn ∈ s.history id, turn.frames ≠ []) (frame : Frame) :
  (s.emit id turn frame).Recorded id
  := by
  have hl : (s.emit id turn frame).live id = some (turn.push (turn.stamp frame)) := by
    rw [emit, live_set, if_pos rfl, Option.filter_some, if_pos]
    simp [ActivityTurn.push, hd]
  have ht : (s.emit id turn frame).turnsOf id =
      s.history id ++ [turn.push (turn.stamp frame)] := by
    rw [turnsOf, hl]
    rfl
  constructor
  · rw [ht, emit, ActivityJournal.ofInstance_addActivity, if_pos rfl, he, List.flatMap_append,
      List.flatMap_singleton, ActivityTurn.entries_push, List.append_assoc, hs]
  · rw [ht]
    intro turn' h
    rcases List.mem_append.mp h with h | h
    · apply hf turn' h
    · rw [List.mem_singleton.mp h]
      apply List.append_ne_nil_of_right_ne_nil _ (List.cons_ne_nil _ _)
  · rw [hl]
    rintro _ ⟨⟩
    rw [ActivityTurn.push, hs, List.length_append]
    rfl

/-- A turn that ends is recorded as it was. -/
theorem Recorded.close {turn : ActivityTurn} {id' : InstanceId} (h : s.Recorded id)
    (ht : s.live id' = some turn) :
  (s.close id' turn).Recorded id
  := by
  by_cases e : id = id'
  · subst e
    have hl : (s.close id turn).live id = none := by
      rw [ActivityFeed.close, live_set, if_pos rfl]
      rfl
    have hts : (s.close id turn).turnsOf id = s.turnsOf id := by
      rw [turnsOf, hl, turnsOf, ht, history, ActivityFeed.close]
      simp [history]
    refine ⟨?_, ?_, ?_⟩
    · rw [hts, ← h.entries]
      rfl
    · rw [hts]
      apply h.frames
    · rw [hl]
      exact nofun
  · have hl : (s.close id' turn).live id = s.live id := by
      rw [ActivityFeed.close, live_set, if_neg e]
    have hts : (s.close id' turn).turnsOf id = s.turnsOf id := by
      rw [turnsOf, hl, turnsOf, history, ActivityFeed.close]
      simp [history, Ne.symm e]
    refine ⟨?_, ?_, ?_⟩
    · rw [hts, ← h.entries]
      rfl
    · rw [hts]
      apply h.frames
    · rw [hl]
      apply h.seq

/-- What an action writes is recorded. -/
theorem Recorded.step {a : Action} (h : ∀ id, s.Recorded id) (ha : s.step a = some s')
    (id : InstanceId) :
  s'.Recorded id
  := by
  cases a with
  | start id' eventId traceId ts =>
      rw [ActivityFeed.step] at ha
      split at ha
      · contradiction
      · rename_i hl
        obtain rfl := Option.some.inj ha
        by_cases e : id = id'
        · subst e
          have hts : s.turnsOf id = s.history id := by
            rw [turnsOf, hl]
            apply List.append_nil
          apply recorded_emit rfl rfl
          · apply (h id).entries.trans
            rw [hts]
            exact (List.append_nil _).symm
          · intro turn ht
            apply (h id).frames
            rw [hts]
            exact ht
        · have hl' : (s.begin id' eventId traceId).live id = s.live id := by
            rw [begin, live_set, if_neg e]
          have hts : (s.begin id' eventId traceId).turnsOf id = s.turnsOf id := by
            rw [turnsOf, hl']
            rfl
          apply Recorded.emit_of_ne _ e
          exact ⟨hts ▸ (h id).entries, hts ▸ (h id).frames, hl' ▸ (h id).seq⟩
  | emit id' frame =>
      obtain ⟨turn, hl, rfl⟩ := Option.map_eq_some_iff.mp ha
      by_cases e : id = id'
      · subst e
        have hts : s.turnsOf id = s.history id ++ [turn] := by
          rw [turnsOf, hl]
          rfl
        apply recorded_emit (done_of_live hl) ((h id).seq turn hl)
        · rw [(h id).entries, hts, List.flatMap_append, List.flatMap_singleton]
        · intro turn' ht
          apply (h id).frames
          rw [hts]
          apply List.mem_append_left _ ht
      · apply (h id).emit_of_ne e
  | close id' =>
      obtain ⟨turn, hl, rfl⟩ := Option.map_eq_some_iff.mp ha
      apply (h id).close hl

/-- In every run the rows of an instance are the entries of its turns. -/
theorem recorded_of_reachable (h : activitySystem.Reachable s) (id : InstanceId) :
  s.Recorded id
  := by
  revert id
  apply h.invariant (I := fun s => ∀ id, s.Recorded id)
  · rintro _ rfl id
    exact ⟨rfl, nofun, nofun⟩
  · intro s a s' hs _ ha id
    apply Recorded.step hs ha

end ActivityFeed

/-! ### What is read -/

section

variable {J : ActivityJournal} {id : InstanceId} {turns : List ActivityTurn}
  {eventId : Option EventId}

/-- The entries of a turn are about its event. -/
theorem ActivityTurn.eventId_of_entries {turn : ActivityTurn} {i : Option EventId × ℕ × Frame}
    (h : i ∈ turn.entries) :
  i.1 = turn.eventId
  := by
  obtain ⟨j, -, rfl⟩ := List.mem_map.mp h
  rfl

/-- The entries about an event are those of its turns. -/
theorem filter_entries (eventId : Option EventId) (turns : List ActivityTurn) :
  (turns.flatMap ActivityTurn.entries).filter (fun i => i.1 = eventId) =
    (turns.filter fun turn => turn.eventId = eventId).flatMap ActivityTurn.entries
  := by
  induction turns with
  | nil => rfl
  | cons turn turns ih =>
      rw [List.flatMap_cons, List.filter_append, ih]
      by_cases e : turn.eventId = eventId
      · rw [List.filter_cons_of_pos (by simpa using e), List.flatMap_cons]
        congr 1
        apply List.filter_eq_self.mpr
        intro i hi
        simpa [turn.eventId_of_entries hi] using e
      · rw [List.filter_cons_of_neg (by simpa using e)]
        apply List.append_left_eq_self.mpr
        apply List.filter_eq_nil_iff.mpr
        intro i hi
        simpa [turn.eventId_of_entries hi] using e

/-- The rows about an event are the entries of its turns. -/
theorem entries_of_event
    (h : (J.ofInstance id).map ActivityRow.entry = turns.flatMap ActivityTurn.entries)
    (eventId : Option EventId) :
  ((J.ofInstance id).filter fun r => r.eventId = eventId).map ActivityRow.entry =
    (turns.filter fun turn => turn.eventId = eventId).flatMap ActivityTurn.entries
  := by
  rw [← filter_entries, ← h, List.filter_map]
  rfl

/-- The rows of one turn are read as the turn emitted them. -/
theorem activityByEvent_of_single {turn : ActivityTurn}
    (h : ((J.ofInstance id).filter fun r => r.eventId = eventId).map ActivityRow.entry =
      turn.entries) :
  J.activityByEvent id eventId = turn.frames
  := by
  have hp : ((J.ofInstance id).filter fun r => r.eventId = eventId).Pairwise
      ActivityJournal.Before := by
    have hlt := turn.pairwise_entries
    rw [← h] at hlt
    apply (List.pairwise_map.mp hlt).imp
    exact fun hlt => .inl hlt
  rw [ActivityJournal.activityByEvent, hp.insertionSort_eq, ← turn.map_payload_entries, ← h,
    List.map_map]
  rfl

/-- The number of the frames that are read. -/
theorem length_activityByEvent
    (h : ((J.ofInstance id).filter fun r => r.eventId = eventId).map ActivityRow.entry =
      turns.flatMap ActivityTurn.entries) :
  (J.activityByEvent id eventId).length = (turns.map fun turn => turn.frames.length).sum
  := by
  rw [ActivityJournal.activityByEvent, List.length_map, List.length_insertionSort,
    ← List.length_map ActivityRow.entry, h, List.length_flatMap]
  simp only [ActivityTurn.length_entries]

/-- What is read for an event is its last turn exactly if it has no other. -/
theorem activityByEvent_eq_iff
    (h : (J.ofInstance id).map ActivityRow.entry = turns.flatMap ActivityTurn.entries)
    (hf : ∀ turn ∈ turns, turn.frames ≠ []) {turn : ActivityTurn}
    (hl : (turns.filter fun turn => turn.eventId = eventId).getLast? = some turn) :
  J.activityByEvent id eventId = turn.frames ↔
    (turns.filter fun turn => turn.eventId = eventId).length = 1
  := by
  have he := entries_of_event h eventId
  have hf' : ∀ turn ∈ turns.filter fun turn => turn.eventId = eventId, turn.frames ≠ [] :=
    fun turn ht => hf turn (List.mem_of_mem_filter ht)
  obtain ⟨before, hb⟩ := List.getLast?_eq_some_iff.mp hl
  rw [hb] at he hf' ⊢
  cases before with
  | nil =>
      refine ⟨fun _ => rfl, fun _ => ?_⟩
      apply activityByEvent_of_single
      rw [he, List.nil_append, List.flatMap_singleton]
  | cons turn' before =>
      constructor
      · intro hframes
        have hlen := length_activityByEvent he
        have hpos := List.length_pos_of_ne_nil (hf' turn' (List.mem_cons_self ..))
        rw [hframes, List.map_append, List.sum_append, List.map_cons, List.sum_cons,
          List.map_singleton, List.sum_singleton] at hlen
        omega
      · intro hlen
        simp at hlen

/-- The last row is about the event of the last turn. -/
theorem eventId_of_getLast?
    (h : (J.ofInstance id).map ActivityRow.entry = turns.flatMap ActivityTurn.entries)
    (hf : ∀ turn ∈ turns, turn.frames ≠ []) {turn : ActivityTurn}
    (hl : turns.getLast? = some turn) :
  (J.ofInstance id).getLast?.bind ActivityRow.eventId = turn.eventId
  := by
  obtain ⟨before, rfl⟩ := List.getLast?_eq_some_iff.mp hl
  have hne : turn.entries ≠ [] := by
    apply List.ne_nil_of_length_pos
    rw [turn.length_entries]
    apply List.length_pos_of_ne_nil (hf turn (by simp))
  have hlast := congrArg List.getLast? h
  rw [List.flatMap_append, List.flatMap_singleton, List.getLast?_append_of_ne_nil _ hne,
    List.getLast?_map, List.getLast?_eq_some_getLast hne] at hlast
  obtain ⟨r, hr, he⟩ := Option.map_eq_some_iff.mp hlast
  rw [hr, ← ActivityTurn.eventId_of_entries (List.getLast_mem hne), ← he]
  rfl

end

namespace ActivityFeed

variable {s : ActivityFeed} {id : InstanceId}

/-- What is read once the last turn is over: the frames of the last turn, and for each event the
frames of the last turn that executed it. -/
structure Replays (s : ActivityFeed) (id : InstanceId) : Prop where
  latest : ∀ turn ∈ (s.history id).getLast?,
    s.journal.listActivity id none true = turn.frames
  event : ∀ e : EventId, ∀ turn ∈ ((s.history id).filter fun turn => turn.eventId = some e).getLast?,
    s.journal.listActivity id (some e) false = turn.frames

/-- Each event was executed in one turn, and if the last turn is one of the chat it is the only
one. -/
structure Once (turns : List ActivityTurn) : Prop where
  latest : ∀ turn ∈ turns.getLast?,
    (turns.filter fun turn' => turn'.eventId = turn.eventId).length = 1
  event : ∀ e : EventId, (turns.filter fun turn => turn.eventId = some e).length ≤ 1

/-- **The activity replays the last turn** exactly if each event was executed once, and a turn of
the chat that is the last one is the only one. -/
theorem replays_iff_once (h : activitySystem.Reachable s) (hl : s.live id = none) :
  s.Replays id ↔ Once (s.history id)
  := by
  have hts : s.turnsOf id = s.history id := by
    rw [turnsOf, hl]
    apply List.append_nil
  obtain ⟨he, hf, -⟩ := recorded_of_reachable h id
  rw [hts] at he hf
  have hlatest : ∀ turn ∈ (s.history id).getLast?,
      (s.journal.listActivity id none true = turn.frames ↔
        ((s.history id).filter fun turn' => turn'.eventId = turn.eventId).length = 1) := by
    intro turn ht
    rw [ActivityJournal.listActivity, if_pos rfl, ActivityJournal.activityLatest,
      eventId_of_getLast? he hf ht]
    apply activityByEvent_eq_iff he hf
    obtain ⟨before, hb⟩ := List.getLast?_eq_some_iff.mp ht
    rw [hb, List.filter_append, List.filter_cons_of_pos (by simp), List.filter_nil,
      List.getLast?_concat]
  have hevent : ∀ e : EventId,
      (∀ turn ∈ ((s.history id).filter fun turn => turn.eventId = some e).getLast?,
        s.journal.listActivity id (some e) false = turn.frames) ↔
        ((s.history id).filter fun turn => turn.eventId = some e).length ≤ 1 := by
    intro e
    cases hlast : ((s.history id).filter fun turn => turn.eventId = some e).getLast? with
    | none =>
        rw [List.getLast?_eq_none_iff.mp hlast]
        exact ⟨fun _ => Nat.zero_le _, fun _ _ => nofun⟩
    | some turn =>
        have hpos : ((s.history id).filter fun turn => turn.eventId = some e) ≠ [] := by
          intro hn
          rw [hn] at hlast
          contradiction
        have hpos := List.length_pos_of_ne_nil hpos
        have hiff := activityByEvent_eq_iff he hf hlast
        rw [ActivityJournal.listActivity, if_neg Bool.false_ne_true]
        constructor
        · intro h
          apply (hiff.mp (h turn rfl)).le
        · rintro hle _ ⟨⟩
          apply hiff.mpr
          omega
  constructor
  · rintro ⟨h₁, h₂⟩
    exact ⟨fun turn ht => (hlatest turn ht).mp (h₁ turn ht), fun e => (hevent e).mp (h₂ e)⟩
  · rintro ⟨h₁, h₂⟩
    exact ⟨fun turn ht => (hlatest turn ht).mpr (h₁ turn ht), fun e => (hevent e).mpr (h₂ e)⟩

/-- One turn that executed an event is replayed. -/
theorem replays_iff_once_single :
  ∃ s, activitySystem.Reachable s ∧ (s.journal.rows.length = 2) ∧ s.Replays 1
  := by
  obtain ⟨s, hs, hp⟩ := Transition.exists_reach_of_run (T := activitySystem)
    (G := fun _ _ => True) (s := .empty) rfl
    [.start 1 (some 7) "trace" "0", .emit 1 [("kind", .str "node")], .close 1]
    (fun s => s.journal.rows.length = 2 ∧ (s.live 1).isNone ∧ (s.history 1).length = 1) (by decide)
  obtain ⟨hr, hl, hlen⟩ := of_decide_eq_true hp
  refine ⟨s, hs, hr, (replays_iff_once hs (Option.isNone_iff_eq_none.mp hl)).mpr ?_⟩
  constructor
  · obtain ⟨turn, ht⟩ := List.length_eq_one_iff.mp hlen
    rw [ht]
    rintro _ ⟨⟩
    simp
  · intro e
    apply (List.length_filter_le _ _).trans hlen.le

/-- An event is executed again after its turn failed: what is read are the frames of both
turns. -/
theorem not_replays_reachable :
  ∃ s, activitySystem.Reachable s ∧ s.live 1 = none ∧ ¬ s.Replays 1
  := by
  obtain ⟨s, hs, hp⟩ := Transition.exists_reach_of_run (T := activitySystem)
    (G := fun _ _ => True) (s := .empty) rfl
    [.start 1 (some 7) "trace" "0", .emit 1 [("kind", .str "run_failed")], .close 1,
      .start 1 (some 7) "trace" "1", .emit 1 [("kind", .str "run_finished")], .close 1]
    (fun s => (s.live 1).isNone ∧ ((s.history 1).getLast?.map fun turn => turn.frames.length) =
      some 2 ∧ (s.journal.listActivity 1 none true).length = 4) (by decide)
  obtain ⟨hl, hlast, hlen⟩ := of_decide_eq_true hp
  refine ⟨s, hs, Option.isNone_iff_eq_none.mp hl, fun h => ?_⟩
  obtain ⟨turn, ht, hframes⟩ := Option.map_eq_some_iff.mp hlast
  rw [h.latest turn ht, hframes] at hlen
  contradiction

end ActivityFeed

end Runner
