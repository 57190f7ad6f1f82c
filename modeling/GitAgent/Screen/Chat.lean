import GitAgent.Library.Transition
import GitAgent.Library.Trim
import GitAgent.Hub.Transcript

/-!
# The panel of the chat

The rows that `InstanceChatPanel.tsx` shows. The transcript is loaded when the panel is opened for
an instance, a message of the user opens a turn whose frames are streamed into the last row, and
the answers of the other requests come in between. The rows of a turn stay on the panel exactly if
no transcript is loaded while it is streamed: the answer of a request that was made before the
turn takes the place of all rows, and so does another instance.
-/

namespace Screen

open Hub (ChatMessageDTO TranscriptPage InstanceId)

/-- The role of a row. -/
inductive Role
  | user
  | agent
  | activity
  | event
  deriving DecidableEq, Repr

/-- `Row`. -/
structure Row where
  key : String
  role : Role
  text : String
  ts : Option ℤ := none
  streaming : Bool := false
  msg : Option ChatMessageDTO := none

/-- `ChatEvent`. A text that is missing is taken for the empty one. -/
structure ChatEvent where
  kind : String
  text : String := ""
  deriving DecidableEq, Repr

/-- The role that a message of the transcript has. -/
def roleOf (name : String) : Role :=
  if name = "user" then .user else if name = "agent" then .agent else .event

/-- `fromMessage`. -/
def fromMessage (m : ChatMessageDTO) : Row where
  key := "m" ++ toString m.id
  role := roleOf m.role
  text := m.text
  ts := some m.ts
  msg := some m

/-- The characters that `trim` drops. -/
def isWhiteSpace (c : Char) : Bool :=
  c ∈ ['\t', '\n', '\x0b', '\x0c', '\r', ' ', '\u00a0', '\u1680', '\u2028', '\u2029', '\u202f',
    '\u205f', '\u3000', '\ufeff'] || ('\u2000' ≤ c && c ≤ '\u200a')

/-- `trim`. -/
def trim (s : String) : String :=
  String.ofList (Trim.trim isWhiteSpace s.toList)

/-! ### The rows -/

/-- `lastStreaming`: the last row that is streamed into, with the rows before and after it. -/
def lastStreaming : List Row → Option (List Row × Row × List Row)
  | [] => none
  | r :: rows =>
      match lastStreaming rows with
      | some (before, m, after) => some (r :: before, m, after)
      | none => if r.streaming then some ([], r, rows) else none

/-- `patchStreaming`. -/
def patchStreaming (f : Row → Row) (rows : List Row) : List Row :=
  match lastStreaming rows with
  | some (before, m, after) => before ++ f m :: after
  | none => rows

/-- `insertAbove`. -/
def insertAbove (row : Row) (rows : List Row) : List Row :=
  match lastStreaming rows with
  | some (before, m, after) => before ++ row :: m :: after
  | none => rows ++ [row]

/-- What is left of a row when the turn is over: an empty row that is streamed into is dropped. -/
def settle (now : ℤ) (m : Row) : List Row :=
  if m.streaming then
    if m.text ≠ "" then [{ m with streaming := false, ts := some (m.ts.getD now) }] else []
  else [m]

/-! ### The panel -/

/-- The panel. `history` is whether the request for the transcript of the instance that was opened
last is under way. -/
structure Panel where
  instanceId : Option InstanceId := none
  rows : List Row := []
  more : Bool := false
  loading : Bool := false
  busy : Bool := false
  stopping : Bool := false
  seq : ℕ := 0
  history : Bool := false

namespace Panel

/-- What happens to a panel: it is opened for an instance, and the transcript comes or the request
for it fails; earlier messages are asked for, and come or do not; a message is sent, its frames
come one after the other, and the stream ends or breaks; the turn is stopped, and this fails. -/
inductive Action
  | opened (instanceId : Option InstanceId)
  | loaded (page : TranscriptPage)
  | loadFailed (error : String)
  | earlier
  | earlierLoaded (page : TranscriptPage)
  | earlierFailed (error : String)
  | send (now : ℤ) (input : String)
  | frame (now : ℤ) (e : ChatEvent)
  | finished (now : ℤ)
  | failed (now : ℤ) (error : String)
  | stop
  | stopFailed (error : String)

variable (s : Panel)

/-- The next key with a letter. -/
def key (letter : String) : String :=
  letter ++ toString s.seq

/-- A row of the activity with the next key. -/
def actRow (letter text : String) : Row where
  key := s.key letter
  role := .activity
  text := text

/-- The row of a message of the user. -/
def userRow (now : ℤ) (input : String) : Row where
  key := "u" ++ toString (s.seq + 1)
  role := .user
  text := trim input
  ts := some now

/-- A row that an answer is streamed into. -/
def agentRow : Row where
  key := s.key "a"
  role := .agent
  text := ""
  streaming := true

/-- The rows and the keys after a frame of the stream. -/
def onEvent (now : ℤ) (e : ChatEvent) : Panel :=
  if e.text = "" then s
  else if e.kind = "token" then
    { s with rows := patchStreaming (fun m => { m with text := m.text ++ e.text }) s.rows }
  else if e.kind = "message" then
    match lastStreaming s.rows with
    | some (before, m, after) =>
        { s with
          rows := before ++ { m with text := e.text, streaming := false, ts := some now } ::
            s.agentRow :: after
          seq := s.seq + 1 }
    | none => s
  else if e.kind = "activity" then
    { s with rows := insertAbove (s.actRow "x" e.text) s.rows, seq := s.seq + 1 }
  else s

/-- The end of a turn. -/
def settled (now : ℤ) : Panel :=
  { s with rows := s.rows.flatMap (settle now), busy := false, stopping := false }

/-- The panel after an action, if it is possible. -/
def act : Action → Option Panel
  | .opened none =>
      some { s with instanceId := none, rows := [], more := false, history := false }
  | .opened (some id) =>
      some { s with
        instanceId := some id, rows := [], more := false, history := true, loading := true }
  | .loaded page =>
      if s.history then
        some { s with
          rows := page.messages.map fromMessage, more := page.more
          history := false, loading := false }
      else none
  | .loadFailed error =>
      if s.history then
        some { s with
          rows := [{ key := "err", role := .activity, text := "history unavailable: " ++ error }]
          history := false, loading := false }
      else none
  | .earlier =>
      if s.instanceId.isSome ∧ s.rows.any (fun r => r.msg.isSome) ∧ s.loading = false then
        some { s with loading := true }
      else none
  | .earlierLoaded page =>
      some { s with
        rows := page.messages.map fromMessage ++ s.rows, more := page.more, loading := false }
  | .earlierFailed error =>
      some { s with
        rows := s.actRow "e" ("earlier messages unavailable: " ++ error) :: s.rows
        seq := s.seq + 1, loading := false }
  | .send now input =>
      if trim input = "" ∨ s.busy ∨ s.instanceId = none then none
      else
        some { s with
          rows := s.rows ++ [s.userRow now input, s.agentRow], busy := true, seq := s.seq + 2 }
  | .frame now e => if s.busy then some (s.onEvent now e) else none
  | .finished now => if s.busy then some (s.settled now) else none
  | .failed now error =>
      if s.busy then
        some (settled { s with
          rows := insertAbove (s.actRow "x" ("error: " ++ error)) s.rows, seq := s.seq + 1 } now)
      else none
  | .stop =>
      if s.instanceId.isSome ∧ s.stopping = false then some { s with stopping := true } else none
  | .stopFailed error =>
      some { s with
        rows := s.rows ++ [s.actRow "x" ("stop failed: " ++ error)]
        seq := s.seq + 1, stopping := false }

/-- A panel, from the first time it is shown. -/
def system : Transition.System Panel Action where
  init s := s = {}
  step := act

end Panel

/-! ### What a turn shows -/

/-- The role and the text of a row. -/
def Row.line (r : Row) : Role × String :=
  (r.role, r.text)

/-- The rows that the frames of a turn put above the row that is streamed into. -/
def linesOf (frames : List ChatEvent) : List (Role × String) :=
  frames.filterMap fun e =>
    if e.text = "" then none
    else if e.kind = "message" then some (.agent, e.text)
    else if e.kind = "activity" then some (.activity, e.text)
    else none

/-- The text in the row that is streamed into, after a frame. -/
def streamed (text : String) (e : ChatEvent) : String :=
  if e.text = "" then text
  else if e.kind = "token" then text ++ e.text
  else if e.kind = "message" then ""
  else text

/-- The tokens after the last message. -/
def leftover (frames : List ChatEvent) : String :=
  frames.foldl streamed ""

/-- The row of the tokens after the last message, if there are any. -/
def leftoverLine (frames : List ChatEvent) : List (Role × String) :=
  if leftover frames = "" then [] else [(.agent, leftover frames)]

/-- The frame that an action is. -/
def Panel.Action.frame? : Panel.Action → Option ChatEvent
  | .frame _ e => some e
  | _ => none

/-- Whether an action takes the rows of the panel away. -/
def Panel.Action.reloads : Panel.Action → Bool
  | .opened _ | .loaded _ | .loadFailed _ => true
  | _ => false

/-- Whether an action is the end of a turn. -/
def Panel.Action.ends : Panel.Action → Bool
  | .finished _ | .failed _ _ => true
  | _ => false

/-- The end of a turn, and the row that it adds. -/
inductive Panel.EndsTurn : Panel.Action → List (Role × String) → Prop
  | finished (now : ℤ) : EndsTurn (.finished now) []
  | failed (now : ℤ) (error : String) :
      EndsTurn (.failed now error) [(.activity, "error: " ++ error)]

/-- A turn is shown: below the rows `old` that were there, the row of the user and the rows with
`lines`, and below them only activity. -/
def Shows (old : List Row) (user : Row) (lines : List (Role × String)) (rows : List Row) : Prop :=
  ∃ before turn after, rows = before ++ user :: (turn ++ after) ∧ old <:+ before ∧
    turn.map Row.line = lines ∧ ∀ r ∈ after, r.role = .activity

/-! ### The row that is streamed into -/

section Rows

variable {rows before after : List Row} {m : Row}

theorem lastStreaming_eq_none (h : ∀ r ∈ rows, r.streaming = false) :
  lastStreaming rows = none
  := by
  induction rows with
  | nil => rfl
  | cons r rows ih =>
      obtain ⟨hr, hrows⟩ := List.forall_mem_cons.mp h
      rw [lastStreaming, ih hrows]
      exact if_neg (by rw [hr]; decide)

theorem lastStreaming_append (hm : m.streaming = true) (h : ∀ r ∈ after, r.streaming = false) :
  lastStreaming (before ++ m :: after) = some (before, m, after)
  := by
  induction before with
  | nil =>
      rw [List.nil_append, lastStreaming, lastStreaming_eq_none h]
      exact if_pos hm
  | cons r before ih => rw [List.cons_append, lastStreaming, ih]

theorem flatMap_settle (now : ℤ) (h : ∀ r ∈ rows, r.streaming = false) :
  rows.flatMap (settle now) = rows
  := by
  have hsettle : ∀ r ∈ rows, settle now r = [r] := by
    intro r hr
    exact if_neg (by rw [h r hr]; decide)
  rw [List.flatMap_congr hsettle, List.flatMap_singleton']

theorem streaming_settle {now : ℤ} {r : Row} (h : r ∈ settle now m) :
  r.streaming = false
  := by
  rw [settle] at h
  split at h
  · split at h
    · rw [List.mem_singleton.mp h]
    · contradiction
  · rename_i hm
    rw [List.mem_singleton.mp h]
    exact Bool.eq_false_iff.mpr hm

end Rows

/-! ### A turn that is streamed -/

theorem linesOf_append (frames frames' : List ChatEvent) :
  linesOf (frames ++ frames') = linesOf frames ++ linesOf frames'
  := List.filterMap_append

theorem leftover_concat (frames : List ChatEvent) (e : ChatEvent) :
  leftover (frames ++ [e]) = streamed (leftover frames) e
  := by rw [leftover, leftover, List.foldl_concat]

/-- The parts of the rows while a turn with the frames `frames` is streamed: the rows before it, the
rows that its frames have added, the row that is streamed into, and the activity below. -/
structure Parts (old : List Row) (user : Row) (frames : List ChatEvent) (before turn : List Row)
    (m : Row) (after : List Row) : Prop where
  settled : ∀ r ∈ before ++ user :: turn, r.streaming = false
  old : old <:+ before
  lines : turn.map Row.line = linesOf frames
  streaming : m.streaming = true
  line : m.line = (.agent, leftover frames)
  after : ∀ r ∈ after, r.streaming = false ∧ r.role = .activity

/-- The rows of a panel on which a turn is streamed. -/
def Streams (old : List Row) (user : Row) (frames : List ChatEvent) (rows : List Row) : Prop :=
  ∃ before turn m after, rows = before ++ user :: (turn ++ m :: after) ∧
    Parts old user frames before turn m after

namespace Parts

variable {old before turn after : List Row} {user m : Row} {frames : List ChatEvent}
  (h : Parts old user frames before turn m after)
include h

theorem lastStreaming_eq :
  lastStreaming (before ++ user :: (turn ++ m :: after)) = some (before ++ user :: turn, m, after)
  := by
  have happend : before ++ user :: (turn ++ m :: after) = (before ++ user :: turn) ++ m :: after := by
    rw [List.append_assoc, List.cons_append]
  rw [happend]
  apply lastStreaming_append h.streaming fun r hr => (h.after r hr).1

/-- Rows that are not streamed into are put above the turn. -/
theorem push_before {rows : List Row} (hrows : ∀ r ∈ rows, r.streaming = false) :
  Parts old user frames (rows ++ before) turn m after
  := by
  refine ⟨?_, h.old.trans (List.suffix_append rows before), h.lines, h.streaming, h.line, h.after⟩
  rw [List.append_assoc]
  rintro r hr
  rcases List.mem_append.mp hr with hr | hr
  · apply hrows r hr
  · apply h.settled r hr

/-- A row of the activity is put below the turn. -/
theorem push_after (r : Row) (hstreaming : r.streaming = false) (hrole : r.role = .activity) :
  Parts old user frames before turn m (after ++ [r])
  := by
  refine ⟨h.settled, h.old, h.lines, h.streaming, h.line, ?_⟩
  intro r' hr'
  rcases List.mem_append.mp hr' with hr' | hr'
  · apply h.after r' hr'
  · rw [List.mem_singleton.mp hr']
    exact ⟨hstreaming, hrole⟩

/-- A frame adds a row to the turn, and leaves or opens a row that is streamed into. -/
theorem add {e : ChatEvent} {r m' : Row} (hstreaming : r.streaming = false)
    (hr : linesOf [e] = [r.line]) (hm' : m'.streaming = true)
    (hline : m'.line = (.agent, streamed (leftover frames) e)) :
  Parts old user (frames ++ [e]) before (turn ++ [r]) m' after
  := by
  constructor
  · intro r' hr'
    rw [← List.cons_append, ← List.append_assoc] at hr'
    rcases List.mem_append.mp hr' with hr' | hr'
    · apply h.settled r' hr'
    · rw [List.mem_singleton.mp hr', hstreaming]
  · apply h.old
  · rw [List.map_append, h.lines, linesOf_append, hr, List.map_singleton]
  · apply hm'
  · rw [leftover_concat, hline]
  · apply h.after

/-- A frame changes the row that is streamed into. -/
theorem patch {e : ChatEvent} (m' : Row) (hnone : linesOf [e] = []) (hm' : m'.streaming = true)
    (hline : m'.line = (.agent, streamed (leftover frames) e)) :
  Parts old user (frames ++ [e]) before turn m' after
  := by
  refine ⟨h.settled, h.old, ?_, hm', ?_, h.after⟩
  · rw [linesOf_append, hnone, List.append_nil, h.lines]
  · rw [leftover_concat, hline]

/-- The rows when the turn is over. -/
theorem shows_settle (now : ℤ) :
  Shows old user (linesOf frames ++ leftoverLine frames)
    ((before ++ user :: (turn ++ m :: after)).flatMap (settle now))
  := by
  have hafter := flatMap_settle now fun r hr => (h.after r hr).1
  have hbefore := flatMap_settle now h.settled
  have hsettle : (settle now m).map Row.line = leftoverLine frames := by
    obtain ⟨hrole, htext⟩ := Prod.mk.inj h.line
    rw [settle, if_pos h.streaming, leftoverLine, ← htext]
    by_cases htext' : m.text = ""
    · rw [if_pos htext', if_neg (not_not_intro htext'), List.map_nil]
    · rw [if_neg htext', if_pos htext', List.map_singleton, Row.line, hrole]
  refine ⟨before, turn ++ settle now m, after, ?_, h.old, ?_, fun r hr => (h.after r hr).2⟩
  · rw [← List.cons_append, ← List.append_assoc, List.flatMap_append, hbefore, List.flatMap_cons,
      hafter, List.append_assoc, List.cons_append, List.append_assoc]
  · rw [List.map_append, h.lines, hsettle]

end Parts

namespace Streams

variable {old : List Row} {user : Row} {frames : List ChatEvent} {s s' : Panel}

/-- A frame without a text leaves the rows as they are. -/
theorem skip {rows : List Row} {e : ChatEvent} (h : Streams old user frames rows)
    (hlines : linesOf [e] = []) (htext : streamed (leftover frames) e = leftover frames) :
  Streams old user (frames ++ [e]) rows
  := by
  obtain ⟨before, turn, m, after, hrows, hparts⟩ := h
  refine ⟨before, turn, m, after, hrows, hparts.patch m hlines hparts.streaming ?_⟩
  rw [htext, hparts.line]

/-- A row of the activity is put above the row that is streamed into. -/
theorem insertAbove {rows : List Row} {e : ChatEvent} {r : Row} (h : Streams old user frames rows)
    (hstreaming : r.streaming = false) (hlines : linesOf [e] = [r.line])
    (htext : streamed (leftover frames) e = leftover frames) :
  Streams old user (frames ++ [e]) (insertAbove r rows)
  := by
  obtain ⟨before, turn, m, after, hrows, hparts⟩ := h
  refine ⟨before, turn ++ [r], m, after, ?_, ?_⟩
  · rw [Screen.insertAbove, hrows, hparts.lastStreaming_eq]
    simp only [List.append_assoc, List.cons_append, List.nil_append]
  · apply hparts.add hstreaming hlines hparts.streaming
    rw [htext, hparts.line]

/-- What a frame of the stream does to the rows. -/
theorem onEvent (h : Streams old user frames s.rows) (now : ℤ) (e : ChatEvent) :
  Streams old user (frames ++ [e]) (s.onEvent now e).rows
  := by
  rw [Panel.onEvent]
  split
  · rename_i hempty
    apply h.skip
    · simp [linesOf, hempty]
    · rw [streamed, if_pos hempty]
  rename_i htext
  split
  · rename_i htoken
    obtain ⟨before, turn, m, after, hrows, hparts⟩ := h
    obtain ⟨hrole, hm⟩ := Prod.mk.inj hparts.line
    refine ⟨before, turn, _, after, ?_, hparts.patch { m with text := m.text ++ e.text } ?_
      hparts.streaming ?_⟩
    · simp only [patchStreaming, hrows, hparts.lastStreaming_eq]
      simp only [List.append_assoc, List.cons_append]
    · simp [linesOf, htoken]
    · rw [streamed, if_neg htext, if_pos htoken, ← hm, Row.line, hrole]
  rename_i htoken
  split
  · rename_i hmessage
    obtain ⟨before, turn, m, after, hrows, hparts⟩ := h
    obtain ⟨hrole, hm⟩ := Prod.mk.inj hparts.line
    rw [hrows, hparts.lastStreaming_eq]
    refine ⟨before, turn ++ [{ m with text := e.text, streaming := false, ts := some now }],
      s.agentRow, after, ?_, hparts.add rfl ?_ rfl ?_⟩
    · simp only [List.append_assoc, List.cons_append, List.nil_append]
    · simp [linesOf, htext, hmessage, Row.line, hrole]
    · rw [streamed, if_neg htext, if_neg htoken, if_pos hmessage]
      rfl
  rename_i hmessage
  have hkeep : streamed (leftover frames) e = leftover frames := by
    rw [streamed, if_neg htext, if_neg htoken, if_neg hmessage]
  split
  · rename_i hactivity
    apply h.insertAbove rfl _ hkeep
    simp [linesOf, htext, hactivity, Row.line, Panel.actRow]
  · rename_i hactivity
    apply h.skip _ hkeep
    simp [linesOf, hmessage, hactivity]

theorem streaming_fromMessage {messages : List ChatMessageDTO} :
  ∀ r ∈ messages.map fromMessage, r.streaming = false
  := by
  intro r hr
  obtain ⟨m, -, rfl⟩ := List.mem_map.mp hr
  rfl

/-- Rows above and below the turn. -/
theorem push {rows : List Row} (above : List Row) (h : Streams old user frames rows)
    (habove : ∀ r ∈ above, r.streaming = false) :
  Streams old user frames (above ++ rows)
  := by
  obtain ⟨before, turn, m, after, hrows, hparts⟩ := h
  refine ⟨above ++ before, turn, m, after, ?_, hparts.push_before habove⟩
  rw [hrows, List.append_assoc]

/-- A step that neither takes the rows away nor ends the turn goes on with the stream. -/
theorem step {a : Panel.Action} (h : Streams old user frames s.rows)
    (hbusy : s.busy = true) (hreloads : a.reloads = false) (hends : a.ends = false)
    (ha : s.act a = some s') :
  Streams old user (frames ++ a.frame?.toList) s'.rows ∧ s'.busy = true
  := by
  have hnone : a.frame? = none → frames ++ a.frame?.toList = frames := by
    intro hnone
    rw [hnone, Option.toList_none, List.append_nil]
  cases a with
  | opened | loaded | loadFailed => contradiction
  | finished | failed => contradiction
  | send now input =>
      rw [Panel.act, if_pos (.inr (.inl hbusy))] at ha
      contradiction
  | frame now e =>
      rw [Panel.act, if_pos hbusy] at ha
      obtain rfl := Option.some.inj ha
      refine ⟨h.onEvent now e, ?_⟩
      rw [Panel.onEvent]
      split_ifs <;> first | exact hbusy | (split <;> exact hbusy)
  | earlier =>
      rw [Panel.act] at ha
      split at ha
      · obtain rfl := Option.some.inj ha
        rw [hnone rfl]
        exact ⟨h, hbusy⟩
      · contradiction
  | stop =>
      rw [Panel.act] at ha
      split at ha
      · obtain rfl := Option.some.inj ha
        rw [hnone rfl]
        exact ⟨h, hbusy⟩
      · contradiction
  | earlierLoaded page =>
      obtain rfl := Option.some.inj ha
      rw [hnone rfl]
      exact ⟨h.push _ streaming_fromMessage, hbusy⟩
  | earlierFailed error =>
      obtain rfl := Option.some.inj ha
      rw [hnone rfl]
      refine ⟨h.push [_] ?_, hbusy⟩
      rintro r hr
      rw [List.mem_singleton.mp hr]
      rfl
  | stopFailed error =>
      obtain rfl := Option.some.inj ha
      rw [hnone rfl]
      obtain ⟨before, turn, m, after, hrows, hparts⟩ := h
      refine ⟨⟨before, turn, m, _, ?_,
        hparts.push_after (s.actRow "x" ("stop failed: " ++ error)) rfl rfl⟩, hbusy⟩
      rw [hrows, List.append_assoc, List.cons_append, List.append_assoc, List.cons_append]

end Streams

/-! ### A panel whose rows were taken away -/

/-- No row is that of a message which was sent from the panel. -/
def Unsent (rows : List Row) : Prop :=
  ∀ r ∈ rows, r.key.toList.head? ≠ some 'u'

section Unsent

variable {rows : List Row} {s s' : Panel}

theorem eq_of_lastStreaming {before after : List Row} {m : Row}
    (h : lastStreaming rows = some (before, m, after)) :
  rows = before ++ m :: after
  := by
  induction rows generalizing before with
  | nil => contradiction
  | cons r rows ih =>
      rw [lastStreaming] at h
      cases hlast : lastStreaming rows with
      | some parts =>
          rw [hlast] at h
          obtain ⟨rfl, rfl, rfl⟩ := h
          rw [ih hlast, List.cons_append]
      | none =>
          rw [hlast] at h
          dsimp only at h
          split at h
          · obtain ⟨rfl, rfl, rfl⟩ := h
            rfl
          · contradiction

theorem unsent_append {rows' : List Row} :
  Unsent (rows ++ rows') ↔ Unsent rows ∧ Unsent rows'
  := List.forall_mem_append

theorem unsent_cons {r : Row} :
  Unsent (r :: rows) ↔ r.key.toList.head? ≠ some 'u' ∧ Unsent rows
  := List.forall_mem_cons

theorem unsent_nil :
  Unsent []
  := List.forall_mem_nil _

theorem unsent_fromMessage (messages : List ChatMessageDTO) :
  Unsent (messages.map fromMessage)
  := by
  intro r hr
  obtain ⟨m, -, rfl⟩ := List.mem_map.mp hr
  simp [fromMessage]

theorem head_key (s : Panel) {letter : String} {c : Char} (h : letter.toList = [c]) :
  (s.key letter).toList.head? = some c
  := by rw [Panel.key, String.toList_append, h, List.singleton_append, List.head?_cons]

theorem Unsent.insertAbove {r : Row} (h : Unsent rows) (hr : r.key.toList.head? ≠ some 'u') :
  Unsent (insertAbove r rows)
  := by
  rw [Screen.insertAbove]
  split
  · rename_i hlast
    rw [eq_of_lastStreaming hlast, unsent_append] at h
    exact unsent_append.mpr ⟨h.1, unsent_cons.mpr ⟨hr, h.2⟩⟩
  · exact unsent_append.mpr ⟨h, unsent_cons.mpr ⟨hr, unsent_nil⟩⟩

theorem Unsent.onEvent (h : Unsent s.rows) (now : ℤ) (e : ChatEvent) :
  Unsent (s.onEvent now e).rows
  := by
  rw [Panel.onEvent]
  split
  · apply h
  split
  · simp only [patchStreaming]
    split
    · rename_i hlast
      rw [eq_of_lastStreaming hlast, unsent_append, unsent_cons] at h
      exact unsent_append.mpr ⟨h.1, unsent_cons.mpr h.2⟩
    · apply h
  split
  · split
    · rename_i hlast
      rw [eq_of_lastStreaming hlast, unsent_append, unsent_cons] at h
      refine unsent_append.mpr ⟨h.1, unsent_cons.mpr ⟨h.2.1, unsent_cons.mpr ⟨?_, h.2.2⟩⟩⟩
      rw [Panel.agentRow, head_key s rfl]
      decide
    · apply h
  split
  · apply h.insertAbove
    rw [Panel.actRow, head_key s rfl]
    decide
  · apply h

theorem Unsent.flatMap_settle (h : Unsent rows) (now : ℤ) :
  Unsent (rows.flatMap (settle now))
  := by
  intro r hr
  obtain ⟨m, hm, hr⟩ := List.mem_flatMap.mp hr
  have hkey : r.key = m.key := by
    rw [settle] at hr
    split at hr
    · split at hr
      · rw [List.mem_singleton.mp hr]
      · contradiction
    · rw [List.mem_singleton.mp hr]
  rw [hkey]
  apply h m hm

/-- While a turn is under way, no row of a message is added, and what takes the rows away leaves
none. -/
theorem Unsent.step {a : Panel.Action} (hbusy : s.busy = true) (hends : a.ends = false)
    (h : a.reloads = false → Unsent s.rows) (ha : s.act a = some s') :
  Unsent s'.rows ∧ s'.busy = true
  := by
  cases a with
  | finished | failed => contradiction
  | opened id =>
      cases id <;>
      · obtain rfl := Option.some.inj ha
        exact ⟨unsent_nil, hbusy⟩
  | loaded page =>
      rw [Panel.act] at ha
      split at ha
      · obtain rfl := Option.some.inj ha
        exact ⟨unsent_fromMessage page.messages, hbusy⟩
      · contradiction
  | loadFailed error =>
      rw [Panel.act] at ha
      split at ha
      · obtain rfl := Option.some.inj ha
        refine ⟨unsent_cons.mpr ⟨?_, unsent_nil⟩, hbusy⟩
        change "err".toList.head? ≠ some 'u'
        decide
      · contradiction
  | send now input =>
      rw [Panel.act, if_pos (.inr (.inl hbusy))] at ha
      contradiction
  | frame now e =>
      rw [Panel.act, if_pos hbusy] at ha
      obtain rfl := Option.some.inj ha
      refine ⟨(h rfl).onEvent now e, ?_⟩
      rw [Panel.onEvent]
      split_ifs <;> first | exact hbusy | (split <;> exact hbusy)
  | earlier | stop =>
      rw [Panel.act] at ha
      split at ha
      · obtain rfl := Option.some.inj ha
        exact ⟨h rfl, hbusy⟩
      · contradiction
  | earlierLoaded page =>
      obtain rfl := Option.some.inj ha
      exact ⟨unsent_append.mpr ⟨unsent_fromMessage page.messages, h rfl⟩, hbusy⟩
  | earlierFailed error =>
      obtain rfl := Option.some.inj ha
      refine ⟨unsent_cons.mpr ⟨?_, h rfl⟩, hbusy⟩
      rw [Panel.actRow, head_key s rfl]
      decide
  | stopFailed error =>
      obtain rfl := Option.some.inj ha
      refine ⟨unsent_append.mpr ⟨h rfl, unsent_cons.mpr ⟨?_, unsent_nil⟩⟩, hbusy⟩
      rw [Panel.actRow, head_key s rfl]
      decide

end Unsent

/-! ### The end of a turn -/

section Turn

variable {s s' : Panel}

/-- A panel that is not busy has no row that is streamed into. -/
theorem settled_of_reachable (h : Panel.system.Reachable s) :
  s.busy = false → ∀ r ∈ s.rows, r.streaming = false
  := by
  induction h with
  | start h =>
      obtain rfl := h
      intro _ r hr
      contradiction
  | @step s s' a hs _ ha ih =>
      intro hidle
      have hfinalize : ∀ now (rows : List Row), ∀ r ∈ rows.flatMap (settle now),
          r.streaming = false := by
        intro now rows r hr
        obtain ⟨m, -, hr⟩ := List.mem_flatMap.mp hr
        apply streaming_settle hr
      cases a with
      | opened id =>
          cases id <;>
          · obtain rfl := Option.some.inj ha
            exact List.forall_mem_nil _
      | loaded page =>
          obtain ⟨-, ⟨⟩⟩ := Option.ite_none_right_eq_some.mp ha
          apply Streams.streaming_fromMessage
      | loadFailed error =>
          obtain ⟨-, ⟨⟩⟩ := Option.ite_none_right_eq_some.mp ha
          exact List.forall_mem_singleton.mpr rfl
      | send now input =>
          obtain ⟨-, ⟨⟩⟩ := Option.ite_none_left_eq_some.mp ha
          contradiction
      | frame now e =>
          obtain ⟨hbusy, ⟨⟩⟩ := Option.ite_none_right_eq_some.mp ha
          rw [Panel.onEvent] at hidle
          split_ifs at hidle <;> first | (rw [hbusy] at hidle; contradiction) |
            (split at hidle <;> rw [hbusy] at hidle <;> contradiction)
      | earlier | stop =>
          obtain ⟨-, ⟨⟩⟩ := Option.ite_none_right_eq_some.mp ha
          apply ih hidle
      | earlierLoaded page =>
          obtain rfl := Option.some.inj ha
          exact List.forall_mem_append.mpr ⟨Streams.streaming_fromMessage, ih hidle⟩
      | earlierFailed error =>
          obtain rfl := Option.some.inj ha
          exact List.forall_mem_cons.mpr ⟨rfl, ih hidle⟩
      | stopFailed error =>
          obtain rfl := Option.some.inj ha
          exact List.forall_mem_append.mpr ⟨ih hidle, List.forall_mem_singleton.mpr rfl⟩
      | finished now =>
          obtain ⟨-, ⟨⟩⟩ := Option.ite_none_right_eq_some.mp ha
          apply hfinalize
      | failed now error =>
          obtain ⟨-, ⟨⟩⟩ := Option.ite_none_right_eq_some.mp ha
          apply hfinalize

/-- A message is sent: a turn without frames is streamed. -/
theorem streams_send (hs : Panel.system.Reachable s) {now : ℤ} {input : String}
    (ha : s.act (.send now input) = some s') :
  Streams s.rows (s.userRow now input) [] s'.rows ∧ s'.busy = true
  := by
  rw [Panel.act] at ha
  obtain ⟨hguard, ⟨⟩⟩ := Option.ite_none_left_eq_some.mp ha
  push Not at hguard
  have hidle : s.busy = false := Bool.eq_false_iff.mpr hguard.2.1
  refine ⟨⟨s.rows, [], s.agentRow, [], rfl, ?_⟩, rfl⟩
  refine ⟨?_, List.suffix_rfl, rfl, rfl, rfl, List.forall_mem_nil _⟩
  exact List.forall_mem_append.mpr ⟨settled_of_reachable hs hidle, List.forall_mem_singleton.mpr rfl⟩

/-- The state of a panel while a turn is under way: the turn is streamed as long as the rows are
not taken away, and afterwards none of its rows is there. -/
structure UnderWay (old : List Row) (user : Row) (actions : List Panel.Action) (s : Panel) :
    Prop where
  busy : s.busy = true
  streams : (∀ a ∈ actions, a.reloads = false) →
    Streams old user (actions.filterMap Panel.Action.frame?) s.rows
  unsent : (∃ a ∈ actions, a.reloads = true) → Unsent s.rows

variable {old : List Row} {user : Row} {actions : List Panel.Action}

theorem UnderWay.step {a : Panel.Action} (h : UnderWay old user actions s)
    (hends : a.ends = false) (ha : s.act a = some s') :
  UnderWay old user (actions ++ [a]) s'
  := by
  constructor
  · cases hreloads : a.reloads with
    | true => exact (Unsent.step h.busy hends (fun h => by rw [hreloads] at h; contradiction) ha).2
    | false =>
        by_cases hall : ∀ b ∈ actions, b.reloads = false
        · exact ((h.streams hall).step h.busy hreloads hends ha).2
        · push Not at hall
          obtain ⟨b, hb, hbreloads⟩ := hall
          exact (Unsent.step h.busy hends
            (fun _ => h.unsent ⟨b, hb, Bool.eq_true_of_not_eq_false hbreloads⟩) ha).2
  · intro hall
    obtain ⟨hactions, hlast⟩ := List.forall_mem_append.mp hall
    have hreloads : a.reloads = false := hlast a (List.mem_singleton_self a)
    have hstep := ((h.streams hactions).step h.busy hreloads hends ha).1
    rw [List.filterMap_append]
    cases hframe : a.frame? with
    | none => simpa [hframe] using hstep
    | some e => simpa [hframe] using hstep
  · rintro ⟨b, hb, hreloads⟩
    refine (Unsent.step h.busy hends ?_ ha).1
    intro ha'
    apply h.unsent
    rcases List.mem_append.mp hb with hb | hb
    · use b
    · rw [List.mem_singleton.mp hb, ha'] at hreloads
      contradiction

theorem UnderWay.run {actions' : List Panel.Action} (h : UnderWay old user actions s)
    (hends : ∀ a ∈ actions', a.ends = false)
    (hrun : Panel.system.run (fun _ _ => True) s actions' = some s') :
  UnderWay old user (actions ++ actions') s'
  := by
  induction actions' generalizing s actions with
  | nil =>
      obtain rfl := Option.some.inj hrun
      rwa [List.append_nil]
  | cons a actions' ih =>
      obtain ⟨ha, hrest⟩ := List.forall_mem_cons.mp hends
      rw [Transition.System.run, if_pos trivial] at hrun
      obtain ⟨t, ht, hrun⟩ := Option.bind_eq_some_iff.mp hrun
      rw [List.append_cons]
      apply ih (h.step ha ht) hrest hrun

/-- The row of the user is among the rows where its turn is shown. -/
theorem not_shows_of_unsent {rows : List Row} {now : ℤ} {input : String}
    {lines : List (Role × String)} (h : Unsent rows) :
  ¬ Shows old (s.userRow now input) lines rows
  := by
  rintro ⟨before, turn, after, rfl, -⟩
  rw [unsent_append, unsent_cons] at h
  apply h.2.1
  rw [Panel.userRow, String.toList_append]
  rfl

/-- The end of a turn that is under way. -/
theorem UnderWay.shows_iff {a : Panel.Action} {lines : List (Role × String)} {now : ℤ}
    {input : String} (h : UnderWay old (s.userRow now input) actions s')
    (ha : Panel.EndsTurn a lines) {s'' : Panel} (hlast : s'.act a = some s'') :
  Shows old (s.userRow now input)
      (linesOf (actions.filterMap Panel.Action.frame?) ++ lines ++
        leftoverLine (actions.filterMap Panel.Action.frame?)) s''.rows ↔
    ∀ a ∈ actions, a.reloads = false
  := by
  have hgone : Unsent s'.rows → Unsent s''.rows := by
    intro hunsent
    cases ha with
    | finished now =>
        obtain ⟨-, ⟨⟩⟩ := Option.ite_none_right_eq_some.mp hlast
        apply hunsent.flatMap_settle
    | failed now error =>
        obtain ⟨-, ⟨⟩⟩ := Option.ite_none_right_eq_some.mp hlast
        apply (hunsent.insertAbove _).flatMap_settle
        rw [Panel.actRow, head_key s' rfl]
        decide
  constructor
  · intro hshows
    by_contra hreloads
    push Not at hreloads
    obtain ⟨b, hb, hreloads⟩ := hreloads
    apply not_shows_of_unsent _ hshows
    exact hgone (h.unsent ⟨b, hb, Bool.eq_true_of_not_eq_false hreloads⟩)
  · intro hreloads
    have hstreams := h.streams hreloads
    cases ha with
    | finished now =>
        obtain ⟨-, ⟨⟩⟩ := Option.ite_none_right_eq_some.mp hlast
        obtain ⟨before, turn, m, after, hrows, hparts⟩ := hstreams
        rw [List.append_nil, Panel.settled, hrows]
        apply hparts.shows_settle
    | failed now error =>
        obtain ⟨-, ⟨⟩⟩ := Option.ite_none_right_eq_some.mp hlast
        -- The error is shown as a frame of the activity is.
        have herror : "error: " ++ error ≠ "" := by
          intro hempty
          have hlist := congrArg String.toList hempty
          rw [String.toList_append] at hlist
          contradiction
        have hactivity := hstreams.insertAbove (e := ⟨"activity", "error: " ++ error⟩)
          (r := s'.actRow "x" ("error: " ++ error)) rfl
          (by simp [linesOf, Row.line, Panel.actRow])
          (by simp [streamed])
        obtain ⟨before, turn, m, after, hrows, hparts⟩ := hactivity
        have hshows := hparts.shows_settle now
        rw [← hrows, leftoverLine, leftover_concat, streamed] at hshows
        simpa [linesOf, leftoverLine, Panel.settled] using hshows

end Turn

/-- In every run of a panel, a message that is sent is followed, when its turn has ended, by the
texts of its frames in their order and by the tokens after the last message, below the rows that
were there, exactly if no transcript was loaded and no other instance opened meanwhile. -/
theorem turn_shown_iff {s s₁ s₂ s₃ : Panel} (hs : Panel.system.Reachable s) (now : ℤ)
    (input : String) (hsend : s.act (.send now input) = some s₁) (actions : List Panel.Action)
    (hends : ∀ a ∈ actions, a.ends = false)
    (hrun : Panel.system.run (fun _ _ => True) s₁ actions = some s₂) {a : Panel.Action}
    {lines : List (Role × String)} (ha : Panel.EndsTurn a lines) (hlast : s₂.act a = some s₃) :
  Shows s.rows (s.userRow now input)
      (linesOf (actions.filterMap Panel.Action.frame?) ++ lines ++
        leftoverLine (actions.filterMap Panel.Action.frame?)) s₃.rows ↔
    ∀ a ∈ actions, a.reloads = false
  := by
  obtain ⟨hstreams, hbusy⟩ := streams_send hs hsend
  have hstart : UnderWay s.rows (s.userRow now input) [] s₁ :=
    ⟨hbusy, fun _ => hstreams, fun ⟨_, hmem, _⟩ => absurd hmem List.not_mem_nil⟩
  have hunder := hstart.run hends hrun
  rw [List.nil_append] at hunder
  apply hunder.shows_iff ha hlast

/-- A panel that is opened, and whose transcript is still to come. -/
def openedPanel : Panel where
  instanceId := some 1
  loading := true
  history := true

/-- A message is sent before the transcript comes, and its answer is lost. -/
theorem turn_shown_iff_loaded :
  ¬ Shows [] (openedPanel.userRow 5 "hi") [(.agent, "hello"), (.activity, "lead: task")]
      [{ key := "x2", role := .activity, text := "lead: task" }]
  := by
  have hs : Panel.system.Reachable openedPanel :=
    .step (a := .opened (some 1)) (.start rfl) trivial rfl
  have h := turn_shown_iff hs 5 "hi" rfl
    [.frame 6 ⟨"token", "he"⟩, .loaded ⟨[], false⟩, .frame 7 ⟨"message", "hello"⟩,
      .frame 8 ⟨"activity", "lead: task"⟩]
    (by decide) rfl (.finished 9) rfl
  intro hshows
  have hreloads := h.mp hshows (.loaded ⟨[], false⟩) (by simp)
  contradiction

end Screen
