import GitAgent.Library.Decimal
import GitAgent.Library.Framing
import GitAgent.Library.Json
import GitAgent.Library.Utf8

/-!
# The stream of frames to the browser

A runner writes frames as lines of JSON (`_sse` of `infra/server/runner_api.py`), and so does the
hub when it replays them (`replayStream` of `hub/app/instance.go`). The hub passes the bytes of a
runner on, of which it has read a first part before it answers (`bufferedStream` of
`hub/adapters/runnerapi/client.go`), and the browser decodes the pieces that arrive and
splits them (`streamSSE` of `frontend/src/api/hub/http.ts`). No text of a frame has a line end, so
that an empty line ends a frame and nothing else does.
-/

namespace Cluster.Sse

/-- A text is the list of its characters. -/
abbrev Text := List Char

/-- What a line of data begins with. -/
def dataField : Text :=
  "data: ".toList

/-- What a frame ends with. -/
def emptyLine : Text :=
  "\n\n".toList

/-! ### What is written -/

/-- How a float is written, in one line. -/
structure Floats where
  repr : ℤ → ℕ → Text
  line : ∀ num den, '\n' ∉ repr num den

/-- How a character is written in a string of JSON. -/
def escape (c : Char) : Text :=
  if c = '\x22' then ['\\', '\x22']
  else if c = '\\' then ['\\', '\\']
  else if c = '\n' then ['\\', 'n']
  else if c = '\r' then ['\\', 'r']
  else if c = '\t' then ['\\', 't']
  else if c = '\x0c' then ['\\', 'f']
  else if c = '\x08' then ['\\', 'b']
  else if c.toNat < 32 then
    ['\\', 'u', '0', '0', Nat.digitChar (c.toNat / 16), Nat.digitChar (c.toNat % 16)]
  else [c]

/-- A string of JSON. -/
def quote (s : String) : Text :=
  '\x22' :: (s.toList.flatMap escape ++ ['\x22'])

/-- A number of JSON. -/
def digits (n : ℤ) : Text :=
  if n < 0 then '-' :: Nat.toDigits 10 n.natAbs else Nat.toDigits 10 n.natAbs

section

variable (F : Floats)

mutual

/-- `json.dumps`, with the characters that are not ASCII as they are. -/
def dumps : Json → Text
  | .null => "null".toList
  | .bool true => "true".toList
  | .bool false => "false".toList
  | .int n => digits n
  | .float num den => F.repr num den
  | .str s => quote s
  | .arr values => '[' :: (", ".toList.intercalate (dumpsValues values) ++ [']'])
  | .obj fields => '\x7b' :: (", ".toList.intercalate (dumpsFields fields) ++ ['\x7d'])

/-- Each of some values. -/
def dumpsValues : List Json → List Text
  | [] => []
  | v :: values => dumps v :: dumpsValues values

/-- Each of some fields. -/
def dumpsFields : List (String × Json) → List Text
  | [] => []
  | (k, v) :: fields => (quote k ++ ": ".toList ++ dumps v) :: dumpsFields fields

end

/-- `_sse`. -/
def sse (data : Json) : Text :=
  dataField ++ dumps F data ++ emptyLine

/-- The last frame. -/
def done : Json :=
  .obj [("kind", .str "done")]

/-- What a runner writes for some frames. -/
def written (frames : List Json) : List UInt8 :=
  (frames ++ [done]).flatMap fun frame => Utf8.encode (sse F frame)

end

/-- `replayStream`. -/
def replayStream (frames : List (List UInt8)) : List UInt8 :=
  (frames.flatMap fun frame =>
      Utf8.encode dataField ++ frame ++ Utf8.encode emptyLine) ++
    Utf8.encode "data: \x7b\"kind\": \"done\"\x7d\n\n".toList

/-! ### How it is passed on -/

/-- `bufferedStream`: what was read first, and what the runner still sends. -/
structure BufferedStream where
  head : List UInt8
  body : List UInt8
  deriving DecidableEq

/-- `Chat`: the first read has a buffer of 4096 bytes, and `n` bytes are there. -/
def chat (bytes : List UInt8) (n : ℕ) : BufferedStream where
  head := bytes.take (min 4096 n)
  body := bytes.drop (min 4096 n)

namespace BufferedStream

/-- `Read`, with a buffer of `p` bytes. Of the body `n` bytes are there. -/
def read (s : BufferedStream) (p n : ℕ) : List UInt8 × BufferedStream :=
  if s.head ≠ [] then (s.head.take p, { s with head := s.head.drop p })
  else (s.body.take (min p n), { s with body := s.body.drop (min p n) })

/-- What some reads give, and the stream after them. -/
def reads : BufferedStream → List (ℕ × ℕ) → List (List UInt8) × BufferedStream
  | s, [] => ([], s)
  | s, (p, n) :: sizes =>
      let first := s.read p n
      let more := reads first.2 sizes
      (first.1 :: more.1, more.2)

end BufferedStream

/-- The pieces in which bytes arrive: these are cut in any way, or were read from the buffered
stream to its end before. -/
inductive Delivered (bytes : List UInt8) (pieces : List (List UInt8)) : Prop
  | direct (h : pieces.flatten = bytes)
  | buffered (n : ℕ) (sizes : List (ℕ × ℕ)) (hend : ((chat bytes n).reads sizes).2 = ⟨[], []⟩)
      (h : pieces.flatten = ((chat bytes n).reads sizes).1.flatten)

/-! ### What is received -/

/-- A frame ends with an empty line. -/
def delimiter : Framing.Delimiter Char :=
  ⟨emptyLine, by decide⟩

variable (parse : Text → Option Json)

/-- The event of a frame. One that is malformed is skipped. -/
def event (frame : Text) : Option Json :=
  match (frame.splitOn '\n').find? dataField.isPrefixOf with
  | none => none
  | some line => parse (line.drop 6)

/-- `streamSSE`: the events that `onEvent` is called with for the pieces that arrive. -/
def streamSSE (D : Utf8.Decoder) : D.State → Text → List (List UInt8) → List Json
  | _, _, [] => []
  | state, buf, value :: values =>
      let decoded := D.decode state value
      let found := Framing.frames delimiter (buf ++ decoded.1)
      found.1.filterMap (event parse) ++ streamSSE D decoded.2 found.2 values

/-! ### Lines -/

/-- No escaped character is a line end. -/
theorem line_escape (c : Char) :
  '\n' ∉ escape c
  := by
  have hhex : ∀ n < 32, '\n' ∉ ['\\', 'u', '0', '0', Nat.digitChar (n / 16),
      Nat.digitChar (n % 16)] := by decide
  rw [escape]
  split_ifs with _ _ hn _ _ _ _ hc
  · decide
  · decide
  · decide
  · decide
  · decide
  · decide
  · decide
  · apply hhex _ hc
  · rw [List.mem_singleton]
    exact fun h => hn h.symm

theorem line_quote (s : String) :
  '\n' ∉ quote s
  := by
  rw [quote, List.mem_cons, List.mem_append, List.mem_flatMap]
  rintro (h | ⟨c, -, hc⟩ | h)
  · revert h
    decide
  · exact line_escape c hc
  · revert h
    decide

theorem line_digits (n : ℤ) :
  '\n' ∉ digits n
  := by
  have hnat : '\n' ∉ Nat.toDigits 10 n.natAbs := Decimal.not_mem rfl
  rw [digits]
  split
  · rw [List.mem_cons]
    rintro (h | h)
    · revert h
      decide
    · exact hnat h
  · apply hnat

/-- A list of lines with separators is a line. -/
theorem line_intercalate {sep : Text} {texts : List Text} (hsep : '\n' ∉ sep)
    (h : ∀ t ∈ texts, '\n' ∉ t) :
  '\n' ∉ sep.intercalate texts
  := by
  induction texts with
  | nil => nofun
  | cons t texts ih =>
      rw [List.forall_mem_cons] at h
      cases texts with
      | nil => simpa using h.1
      | cons t' texts =>
          rw [List.intercalate_cons_cons, List.mem_append, List.mem_append]
          rintro ((ht | hs) | hr)
          · exact h.1 ht
          · exact hsep hs
          · exact ih h.2 hr

section

variable (F : Floats)

mutual

/-- The text of a value is one line. -/
theorem line_dumps (v : Json) :
  '\n' ∉ dumps F v
  := by
  cases v with
  | null =>
      rw [dumps]
      decide
  | bool b =>
      cases b
      · rw [dumps]
        decide
      · rw [dumps]
        decide
  | int n => apply line_digits
  | float num den => apply F.line
  | str s => apply line_quote
  | arr values =>
      rw [dumps, List.mem_cons, List.mem_append]
      rintro (h | h | h)
      · cases h
      · exact line_intercalate (by decide) (line_dumpsValues values) h
      · revert h
        decide
  | obj fields =>
      rw [dumps, List.mem_cons, List.mem_append]
      rintro (h | h | h)
      · cases h
      · exact line_intercalate (by decide) (line_dumpsFields fields) h
      · revert h
        decide

theorem line_dumpsValues (values : List Json) :
  ∀ t ∈ dumpsValues F values, '\n' ∉ t
  := by
  cases values with
  | nil => nofun
  | cons v values =>
      rw [dumpsValues, List.forall_mem_cons]
      exact ⟨line_dumps v, line_dumpsValues values⟩

theorem line_dumpsFields (fields : List (String × Json)) :
  ∀ t ∈ dumpsFields F fields, '\n' ∉ t
  := by
  cases fields with
  | nil => nofun
  | cons f fields =>
      rw [dumpsFields, List.forall_mem_cons]
      refine ⟨?_, line_dumpsFields fields⟩
      rw [List.mem_append, List.mem_append]
      rintro ((h | h) | h)
      · exact line_quote f.1 h
      · revert h
        decide
      · exact line_dumps f.2 h

end

end

/-! ### Frames -/

/-- The line that is written for a text. -/
def frameOf (t : Text) : Text :=
  dataField ++ t

theorem line_frameOf {t : Text} (h : '\n' ∉ t) :
  '\n' ∉ frameOf t
  := by
  intro hmem
  rcases List.mem_append.mp hmem with hd | ht
  · revert hd
    decide
  · exact h ht

/-- The event of a frame is what its text says. -/
theorem event_frameOf (parse : Text → Option Json) {t : Text} (h : '\n' ∉ t) :
  event parse (frameOf t) = parse t
  := by
  have hsplit : (frameOf t).splitOn '\n' = [frameOf t] := by
    apply List.splitOn_eq_singleton_of_beq_eq_false
    intro c hc
    apply beq_false_of_ne
    exact fun e => line_frameOf h (e ▸ hc)
  have hp : dataField.isPrefixOf (frameOf t) = true :=
    List.isPrefixOf_iff_prefix.mpr (List.prefix_append _ _)
  rw [event, hsplit, List.find?_singleton, if_pos hp]
  rfl

/-- The frames of lines are found whole. -/
theorem frames_frameOf {texts : List Text} (h : ∀ t ∈ texts, '\n' ∉ t) :
  Framing.frames delimiter (texts.flatMap fun t => frameOf t ++ emptyLine) =
    (texts.map frameOf, [])
  := by
  have hframes : ∀ t ∈ texts.map frameOf, '\n' ∉ t := by
    rw [List.forall_mem_map]
    exact fun t ht => line_frameOf (h t ht)
  have := @Framing.frames_written _ _ delimiter _ hframes
  rwa [List.flatMap_map] at this

/-! ### The events of a stream -/

section

variable (parse : Text → Option Json) (D : Utf8.Decoder)

/-- The events are those of the frames that are found in what is decoded. -/
theorem streamSSE_eq (state : D.State) (buf : Text) (pieces : List (List UInt8)) :
  streamSSE parse D state buf pieces =
    (Framing.receive delimiter buf (D.outputs state pieces)).1.filterMap (event parse)
  := by
  induction pieces generalizing state buf with
  | nil => rfl
  | cons piece pieces ih =>
      rw [streamSSE, ih, Utf8.Decoder.outputs, Framing.receive, List.filterMap_append]

variable {parse D}

/-- Each line gives its event, in whatever pieces the bytes arrive. -/
theorem streamSSE_lines (hD : D.Faithful) {lines : List (Text × Json)}
    (h : ∀ l ∈ lines, '\n' ∉ l.1 ∧ parse l.1 = some l.2) {pieces : List (List UInt8)}
    (hp : pieces.flatten =
      Utf8.encode ((lines.map Prod.fst).flatMap fun t => frameOf t ++ emptyLine)) :
  streamSSE parse D D.init [] pieces = lines.map Prod.snd
  := by
  have hhead : ((lines.map Prod.fst).flatMap fun t => frameOf t ++ emptyLine).head? ≠
      some '\ufeff' := by
    cases lines with
    | nil => nofun
    | cons l lines =>
        rw [List.map_cons, List.flatMap_cons]
        nofun
  have htexts : ∀ t ∈ lines.map Prod.fst, '\n' ∉ t :=
    List.forall_mem_map.mpr fun l hl => (h l hl).1
  rw [streamSSE_eq, Framing.receive_eq_frames _ rfl, hD _ pieces hhead hp, List.nil_append,
    frames_frameOf htexts]
  clear hp hhead htexts
  induction lines with
  | nil => rfl
  | cons l lines ih =>
      rw [List.forall_mem_cons] at h
      rw [List.map_cons, List.map_cons, List.filterMap_cons, event_frameOf parse h.1.1, h.1.2,
        List.map_cons, ← ih h.2]

end

/-! ### The bytes that arrive -/

/-- Of the bytes in the stream none is lost by a read. -/
theorem BufferedStream.read_append (s : BufferedStream) (p n : ℕ) :
  (s.read p n).1 ++ ((s.read p n).2.head ++ (s.read p n).2.body) = s.head ++ s.body
  := by
  rw [read]
  split
  · rw [← List.append_assoc, List.take_append_drop]
  · rename_i h
    rw [not_not] at h
    rw [h, List.nil_append, List.nil_append, List.take_append_drop]

theorem BufferedStream.reads_append (s : BufferedStream) (sizes : List (ℕ × ℕ)) :
  (s.reads sizes).1.flatten ++ ((s.reads sizes).2.head ++ (s.reads sizes).2.body) =
    s.head ++ s.body
  := by
  induction sizes generalizing s with
  | nil => rfl
  | cons size sizes ih =>
      obtain ⟨p, n⟩ := size
      rw [reads, List.flatten_cons, List.append_assoc, ih, read_append]

/-- The bytes that arrive are those that were written. -/
theorem Delivered.flatten {bytes : List UInt8} {pieces : List (List UInt8)}
    (h : Delivered bytes pieces) :
  pieces.flatten = bytes
  := by
  cases h with
  | direct h => apply h
  | buffered n sizes hend h =>
      have := (chat bytes n).reads_append sizes
      rw [hend, List.append_nil, List.append_nil] at this
      rw [h, this]
      apply List.take_append_drop

/-- What a runner writes is the text of some lines. -/
theorem written_eq (F : Floats) (frames : List Json) :
  written F frames = Utf8.encode
    (((frames ++ [done]).map (dumps F)).flatMap fun t => frameOf t ++ emptyLine)
  := by
  rw [written, List.flatMap_map, Utf8.encode_flatMap]
  rfl

/-- What the hub writes is the text of some lines. -/
theorem replayStream_eq (F : Floats) (texts : List Text) :
  replayStream (texts.map Utf8.encode) = Utf8.encode
    ((texts ++ [dumps F done]).flatMap fun t => frameOf t ++ emptyLine)
  := by
  rw [List.flatMap_append, Utf8.encode_append, Utf8.encode_flatMap, replayStream, List.flatMap_map]
  congr 1
  apply List.flatMap_congr
  intro t _
  rw [frameOf, Utf8.encode_append, Utf8.encode_append]

/-- **The frames survive any cutting.** Where the decoder of the browser is faithful and JSON is
parsed as what was written, the browser has exactly the events that a runner wrote, or that the hub
replayed, and the last one, once each and in order, in whatever pieces the bytes arrive. -/
theorem streamSSE_delivered (F : Floats) (parse : Text → Option Json) (D : Utf8.Decoder)
    (hD : D.Faithful) :
  (∀ (frames : List Json) (pieces : List (List UInt8)),
    (∀ frame ∈ frames ++ [done], parse (dumps F frame) = some frame) →
    Delivered (written F frames) pieces →
    streamSSE parse D D.init [] pieces = frames ++ [done]) ∧
  ∀ (rows : List (Text × Json)) (pieces : List (List UInt8)),
    (∀ row ∈ rows, '\n' ∉ row.1 ∧ parse row.1 = some row.2) →
    parse (dumps F done) = some done →
    Delivered (replayStream (rows.map fun row => Utf8.encode row.1)) pieces →
    streamSSE parse D D.init [] pieces = rows.map Prod.snd ++ [done]
  := by
  constructor
  · intro frames pieces hparse hdel
    have hp := hdel.flatten
    rw [written_eq] at hp
    have hlines : ∀ l ∈ (frames ++ [done]).map fun frame => (dumps F frame, frame),
        '\n' ∉ l.1 ∧ parse l.1 = some l.2 :=
      List.forall_mem_map.mpr fun frame hframe => ⟨line_dumps F frame, hparse frame hframe⟩
    have hfst : ((frames ++ [done]).map fun frame => (dumps F frame, frame)).map Prod.fst =
        (frames ++ [done]).map (dumps F) := List.map_map
    rw [streamSSE_lines hD hlines (by rw [hfst, hp]), List.map_map]
    apply List.map_id
  · intro rows pieces hrows hdone hdel
    have hp := hdel.flatten
    have hmap : rows.map (fun row => Utf8.encode row.1) = (rows.map Prod.fst).map Utf8.encode :=
      List.map_map.symm
    rw [hmap, replayStream_eq F] at hp
    have hlines : ∀ l ∈ rows ++ [(dumps F done, done)], '\n' ∉ l.1 ∧ parse l.1 = some l.2 := by
      rw [List.forall_mem_append, List.forall_mem_singleton]
      exact ⟨hrows, line_dumps F done, hdone⟩
    rw [streamSSE_lines hD hlines (by rw [List.map_append, hp]; rfl), List.map_append]
    rfl

/-- A text that is not ASCII, and has a line end. -/
def sampleFrame : Json :=
  .obj [("kind", .str "activity"), ("text", .str "é\nд")]

/-- Floats are written as zero. -/
def sampleFloats : Floats where
  repr _ _ := ['0', '.', '0']
  line _ _ := by decide

/-- What is parsed of the texts of two frames. -/
def sampleParse (t : Text) : Option Json :=
  if t = dumps sampleFloats sampleFrame then some sampleFrame
  else if t = dumps sampleFloats done then some done
  else none

/-- A text arrives byte by byte from a runner, and is read in four parts from a buffered stream that
begins inside a character. -/
theorem streamSSE_delivered_sample :
  streamSSE sampleParse Utf8.buffering Utf8.buffering.init []
      ((written sampleFloats [sampleFrame]).map fun b => [b]) = [sampleFrame, done] ∧
    streamSSE sampleParse Utf8.buffering Utf8.buffering.init []
      ((chat (replayStream [Utf8.encode (dumps sampleFloats sampleFrame)]) 40).reads
        [(30, 0), (30, 0), (4096, 7), (4096, 4096)]).1 = [sampleFrame, done]
  := by
  obtain ⟨hrunner, hhub⟩ := streamSSE_delivered sampleFloats sampleParse Utf8.buffering
    Utf8.faithful_buffering
  constructor
  · apply hrunner [sampleFrame]
    · rw [List.forall_mem_append, List.forall_mem_singleton, List.forall_mem_singleton]
      constructor <;> rfl
    · apply Delivered.direct
      rw [← List.flatMap_def, List.flatMap_singleton']
  · apply hhub [(dumps sampleFloats sampleFrame, sampleFrame)]
    · rw [List.forall_mem_singleton]
      exact ⟨line_dumps _ _, rfl⟩
    · rfl
    · apply Delivered.buffered 40 [(30, 0), (30, 0), (4096, 7), (4096, 4096)] _ rfl
      decide +kernel

end Cluster.Sse
