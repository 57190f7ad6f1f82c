import Mathlib.Data.List.Basic

/-!
# Frames of a stream

A stream carries frames one after the other, each ended by a delimiter. The receiver has a buffer;
whenever symbols arrive it appends them, takes the frames that are complete from the front, each
up to the first delimiter, and keeps the rest (`Framing.frames`). It finds the same frames however
the stream is cut into pieces (`Framing.receive_eq_frames`), and where no frame has the first symbol
of the delimiter it finds exactly the frames that were written (`Framing.frames_written`).
-/

universe u

namespace Framing

variable {α : Type u}

/-- A delimiter is not empty. -/
abbrev Delimiter (α : Type u) := {sep : List α // sep ≠ []}

variable [DecidableEq α] (sep : Delimiter α)

/-- The list up to the first delimiter, and what comes after it. -/
def breakOn : List α → Option (List α × List α)
  | [] => none
  | x :: xs =>
      if sep.val.isPrefixOf (x :: xs) then some ([], (x :: xs).drop sep.val.length)
      else (breakOn xs).map fun p => (x :: p.1, p.2)

variable {sep}

/-- The delimiter begins where the list is broken. -/
theorem breakOn_eq_some {buf frame rest : List α} (h : breakOn sep buf = some (frame, rest)) :
  buf = frame ++ sep.val ++ rest
  := by
  induction buf generalizing frame with
  | nil => cases h
  | cons x xs ih =>
      rw [breakOn] at h
      split at h
      · rename_i hp
        obtain ⟨t, ht⟩ := List.isPrefixOf_iff_prefix.mp hp
        cases h
        rw [← ht, List.drop_left, List.nil_append]
      · obtain ⟨⟨frame', rest'⟩, hb, hp⟩ := Option.map_eq_some_iff.mp h
        cases hp
        rw [ih hb]
        rfl

theorem length_lt_of_breakOn {buf frame rest : List α} (h : breakOn sep buf = some (frame, rest)) :
  rest.length < buf.length
  := by
  have := List.length_pos_of_ne_nil sep.property
  rw [breakOn_eq_some h, List.length_append, List.length_append]
  omega

variable (sep)

/-- The frames that are complete, and what is left. -/
def frames (buf : List α) : List (List α) × List α :=
  match h : breakOn sep buf with
  | none => ([], buf)
  | some (frame, rest) =>
      have := length_lt_of_breakOn h
      let more := frames rest
      (frame :: more.1, more.2)
termination_by buf.length

/-- The frames that are found when the pieces of a stream arrive in turn, and what is left. -/
def receive : List α → List (List α) → List (List α) × List α
  | buf, [] => ([], buf)
  | buf, piece :: pieces =>
      let found := frames sep (buf ++ piece)
      let more := receive found.2 pieces
      (found.1 ++ more.1, more.2)

variable {sep}

theorem frames_of_none {buf : List α} (h : breakOn sep buf = none) :
  frames sep buf = ([], buf)
  := by
  rw [frames]
  split
  · rfl
  · rename_i h'
    rw [h] at h'
    cases h'

theorem frames_of_some {buf frame rest : List α} (h : breakOn sep buf = some (frame, rest)) :
  frames sep buf = (frame :: (frames sep rest).1, (frames sep rest).2)
  := by
  rw [frames]
  split
  · rename_i h'
    rw [h] at h'
    cases h'
  · rename_i h'
    rw [h] at h'
    cases h'
    rfl

/-- What comes after a delimiter does not change where the list is broken. -/
theorem breakOn_append {buf frame rest : List α} (more : List α)
    (h : breakOn sep buf = some (frame, rest)) :
  breakOn sep (buf ++ more) = some (frame, rest ++ more)
  := by
  induction buf generalizing frame with
  | nil => cases h
  | cons x xs ih =>
      rw [breakOn] at h
      rw [List.cons_append, breakOn, ← List.cons_append]
      split at h
      · rename_i hp
        have hp := List.isPrefixOf_iff_prefix.mp hp
        cases h
        rw [if_pos (List.isPrefixOf_iff_prefix.mpr (hp.trans (List.prefix_append _ _))),
          List.drop_append_of_le_length hp.length_le]
      · rename_i hp
        obtain ⟨⟨frame', rest'⟩, hb, hq⟩ := Option.map_eq_some_iff.mp h
        cases hq
        have hlen : sep.val.length ≤ (x :: xs).length := by
          rw [breakOn_eq_some hb]
          simp only [List.length_cons, List.length_append]
          omega
        have hn : ¬ sep.val.isPrefixOf (x :: xs ++ more) = true := by
          intro hq
          have hq := List.isPrefixOf_iff_prefix.mp hq
          apply hp
          apply List.isPrefixOf_iff_prefix.mpr
          exact List.prefix_of_prefix_length_le hq (List.prefix_append _ _) hlen
        rw [if_neg hn, ih hb]
        rfl

/-- A frame that is complete stays complete, so that the frames of a stream are those of its
beginning, and those of what is left with the rest. -/
theorem frames_append (buf more : List α) :
  frames sep (buf ++ more) =
    ((frames sep buf).1 ++ (frames sep ((frames sep buf).2 ++ more)).1,
      (frames sep ((frames sep buf).2 ++ more)).2)
  := by
  induction hn : buf.length using Nat.strongRecOn generalizing buf with
  | ind n ih =>
      cases h : breakOn sep buf with
      | none => rw [frames_of_none h, List.nil_append]
      | some p =>
          obtain ⟨frame, rest⟩ := p
          have hlt : rest.length < n := hn ▸ length_lt_of_breakOn h
          rw [frames_of_some h, frames_of_some (breakOn_append more h), ih _ hlt rest rfl]
          rfl

/-- What is left has no delimiter. -/
theorem breakOn_left (buf : List α) :
  breakOn sep (frames sep buf).2 = none
  := by
  induction hn : buf.length using Nat.strongRecOn generalizing buf with
  | ind n ih =>
      cases h : breakOn sep buf with
      | none => rw [frames_of_none h, h]
      | some p =>
          obtain ⟨frame, rest⟩ := p
          rw [frames_of_some h]
          apply ih _ (hn ▸ length_lt_of_breakOn h) rest rfl

/-- **The receiver finds the frames of the whole stream**, however it is cut into pieces. -/
theorem receive_eq_frames (pieces : List (List α)) {buf : List α} (h : breakOn sep buf = none) :
  receive sep buf pieces = frames sep (buf ++ pieces.flatten)
  := by
  induction pieces generalizing buf with
  | nil => rw [List.flatten_nil, List.append_nil, frames_of_none h, receive]
  | cons piece pieces ih =>
      rw [receive, ih (breakOn_left _), List.flatten_cons, ← List.append_assoc,
        frames_append (buf ++ piece)]

/-- A frame without the first symbol of the delimiter is found whole. -/
theorem breakOn_frame {frame : List α} (rest : List α)
    (h : sep.val.head sep.property ∉ frame) :
  breakOn sep (frame ++ sep.val ++ rest) = some (frame, rest)
  := by
  obtain ⟨sep, hsep⟩ := sep
  obtain ⟨y, ys, rfl⟩ := List.exists_cons_of_ne_nil hsep
  induction frame with
  | nil =>
      have hp : (y :: ys).isPrefixOf (y :: (ys ++ rest)) :=
        List.isPrefixOf_iff_prefix.mpr (List.prefix_append _ _)
      rw [List.nil_append, List.cons_append, breakOn, if_pos hp, ← List.cons_append,
        List.drop_left]
  | cons x xs ih =>
      obtain ⟨hx, hxs⟩ := List.ne_and_not_mem_of_not_mem_cons h
      have hp : ¬ (y :: ys).isPrefixOf (x :: (xs ++ (y :: ys) ++ rest)) = true := by
        intro hp
        exact hx (List.cons_prefix_cons.mp (List.isPrefixOf_iff_prefix.mp hp)).1
      rw [List.cons_append, List.cons_append, breakOn, if_neg hp, ih hxs]
      rfl

/-- **The frames that were written are found**, if none has the first symbol of the delimiter. -/
theorem frames_written {texts : List (List α)}
    (h : ∀ t ∈ texts, sep.val.head sep.property ∉ t) :
  frames sep (texts.flatMap (· ++ sep.val)) = (texts, [])
  := by
  induction texts with
  | nil => apply frames_of_none rfl
  | cons t texts ih =>
      rw [List.forall_mem_cons] at h
      rw [List.flatMap_cons, frames_of_some (breakOn_frame _ h.1), ih h.2]

end Framing
