import GitAgent.Library.Broadcast
import GitAgent.Runner.Activity

/-!
# The live stream of a turn

The frames of a turn are streamed while it runs (`ActivityTurn` of `core/runner/activity.py`). The
task of the turn emits them one after the other and at last closes the turn; an emission is
suspended between the number of its frame and the buffer, while the frame is persisted, and is lost
if the task is cancelled there. Streams are opened at any time, take the buffer and a queue in one
step, and are read at any pace.
-/

namespace Runner

open Hub (EventId)

/-- A turn with its streams: `_frames`, `done`, `_subscribers` and the queues are those of a topic,
and `emitting` is the frame that is being persisted. -/
structure LiveTurn where
  eventId : Option EventId
  traceId : String
  seq : ℕ := 0
  emitting : Option Frame := none
  feed : Broadcast Frame := {}

namespace LiveTurn

variable (s : LiveTurn)

/-- The turn without its streams. -/
def turn : ActivityTurn where
  eventId := s.eventId
  traceId := s.traceId
  done := s.feed.closed
  seq := s.seq
  frames := s.feed.items

/-- The steps: the task of the turn begins to emit a frame, the frame is persisted, or the task is
cancelled meanwhile, and the turn is closed; a stream is opened or read on; and a stream is given
up. -/
inductive Action
  | emit (frame : Frame)
  | persisted
  | cancelled
  | close
  | next (k : ℕ)
  | leave (k : ℕ)

/-- The turn after an action, if it is enabled. The calls of the task do not overlap. -/
def act : Action → Option LiveTurn
  | .emit frame =>
      if s.emitting.isNone && !s.feed.closed then
        some { s with seq := s.seq + 1, emitting := some (s.turn.stamp frame) }
      else none
  | .persisted =>
      s.emitting.map fun frame => { s with emitting := none, feed := s.feed.publish frame }
  | .cancelled => s.emitting.map fun _ => { s with emitting := none }
  | .close =>
      if s.emitting.isNone && !s.feed.closed then some { s with feed := s.feed.close } else none
  | .next k => (s.feed.advance k).map fun feed => { s with feed }
  | .leave k => (s.feed.leave k).map fun feed => { s with feed }

/-- A turn with its streams, from its beginning. -/
def system : Transition.System LiveTurn Action where
  init s := s.seq = 0 ∧ s.emitting = none ∧ s.feed = {}
  step := act

/-- The invariant of a turn with its streams. -/
structure Inv : Prop where
  feed : s.feed.Inv
  emits : s.emitting.isSome → s.feed.closed = false

variable {s s' : LiveTurn}

theorem inv_init (h : system.init s) :
  Inv s
  := by
  obtain ⟨-, he, hf⟩ := h
  constructor
  · rw [hf]
    apply Broadcast.inv_init
  · intro hsome
    rw [he] at hsome
    contradiction

/-- A step keeps the invariant. -/
theorem Inv.act (h : Inv s) {a : Action} (ha : s.act a = some s') :
  Inv s'
  := by
  cases a with
  | emit frame =>
      rw [LiveTurn.act] at ha
      split at ha
      · rename_i hidle
        obtain rfl := Option.some.inj ha
        refine ⟨h.feed, fun _ => ?_⟩
        simpa using (Bool.and_eq_true_iff.mp hidle).2
      · contradiction
  | persisted =>
      obtain ⟨frame, hframe, rfl⟩ := Option.map_eq_some_iff.mp ha
      refine ⟨h.feed.publish (h.emits (by rw [hframe]; rfl)) frame, ?_⟩
      intro hsome
      contradiction
  | cancelled =>
      obtain ⟨frame, -, rfl⟩ := Option.map_eq_some_iff.mp ha
      refine ⟨h.feed, ?_⟩
      intro hsome
      contradiction
  | close =>
      rw [LiveTurn.act] at ha
      split at ha
      · rename_i hidle
        obtain rfl := Option.some.inj ha
        obtain ⟨hnone, hopen⟩ := Bool.and_eq_true_iff.mp hidle
        refine ⟨h.feed.close (by simpa using hopen), ?_⟩
        intro hsome
        rw [Option.isNone_iff_eq_none.mp hnone] at hsome
        contradiction
      · contradiction
  | next k =>
      obtain ⟨feed, hfeed, rfl⟩ := Option.map_eq_some_iff.mp ha
      refine ⟨h.feed.advance hfeed, fun hsome => ?_⟩
      dsimp only
      rw [Broadcast.closed_advance hfeed]
      apply h.emits hsome
  | leave k =>
      obtain ⟨feed, hfeed, rfl⟩ := Option.map_eq_some_iff.mp ha
      refine ⟨h.feed.leave hfeed, fun hsome => ?_⟩
      dsimp only
      rw [Broadcast.closed_leave hfeed]
      apply h.emits hsome

theorem inv_of_reachable (h : system.Reachable s) :
  Inv s
  := h.invariant (fun _ hs => inv_init hs) fun _ _ _ hs _ ha => hs.act ha

/-- Reading a stream on is reading the topic. -/
theorem run_next (s : LiveTurn) (k n : ℕ) :
  system.run (fun _ _ => True) s (List.replicate n (.next k)) =
    (Broadcast.reads k n s.feed).map fun feed => { s with feed }
  := by
  induction n generalizing s with
  | zero => rfl
  | succ n ih =>
      rw [List.replicate_succ, Transition.System.run, if_pos trivial, Broadcast.reads]
      rw [show system.step s (.next k) = (s.feed.advance k).map fun feed => { s with feed } from rfl]
      cases s.feed.advance k with
      | none => rfl
      | some feed => apply ih

/-- A turn before its first frame. -/
def sample : LiveTurn where
  eventId := some 7
  traceId := ""

end LiveTurn

end Runner
