import Mathlib.Algebra.Group.Int.Defs
import Mathlib.Algebra.Group.Nat.Defs
import GitAgent.Library.Decimal
import GitAgent.Library.Paging
import GitAgent.Runner.Activity

/-!
# The transcript of an instance

The replies and the turns of an instance, which are read from `hub.activity` in pages from the last
row on (`instanceMessages` in `internal/hub/adapters/httpapi/instances.go`). A client that asks for
the rows before the first one it was given, as long as there are more, is given each row once.
-/

namespace Hub

open Paging (Pages)

/-! ### The table -/

/-- A row of `hub.activity` with its time. -/
structure MessageRow extends Runner.ActivityRow where
  createdAt : ℤ

/-- What is joined to a row of its event. -/
structure EventCard where
  action : String
  commitSha : Option String

/-- The table `hub.activity`, whose keys are of type `bigint`, and what is known of events. -/
structure TranscriptDb where
  activity : Serial MessageRow fun r => r.id
  bounded : ∀ r ∈ activity.rows, r.id < 2 ^ 63
  event : EventId → Option EventCard

/-- `ChatMessage`. -/
structure ChatMessage where
  id : ℕ
  eventId : Option EventId
  kind : String
  payload : Runner.Frame
  createdAt : ℤ
  traceId : String
  action : Option String
  commitSha : Option String

/-- Whether a row is one of the transcript. -/
def MessageRow.isTranscript (r : MessageRow) : Bool :=
  r.kind ∈ ["chat_user", "chat_agent", "run_failed"] ||
    (r.kind ∈ ["run_started", "run_finished"] && r.eventId.isSome)

/-- Whether a row is read as one of an instance before a cursor. -/
def MessageRow.isRead (instanceId : InstanceId) (before : Option Int64) (r : MessageRow) : Bool :=
  r.instanceId = instanceId && r.isTranscript && before.all fun b => (r.id : ℤ) < b.toInt

namespace TranscriptDb

variable (D : TranscriptDb)

/-- A row with what is joined to it. -/
def chatMessage (r : MessageRow) : ChatMessage :=
  let card := r.eventId.bind D.event
  { id := r.id
    eventId := r.eventId
    kind := r.kind
    payload := r.payload
    createdAt := r.createdAt
    traceId := r.traceId
    action := card.map EventCard.action
    commitSha := card.bind EventCard.commitSha }

/-- The rows of the transcript before a cursor, in the order of their keys. -/
def visible (instanceId : InstanceId) (before : Option Int64) : List MessageRow :=
  D.activity.rows.filter (MessageRow.isRead instanceId before)

/-- The query `Messages`, by the last key first. -/
def messages (instanceId : InstanceId) (before : Option Int64) (lim : ℕ) : List ChatMessage :=
  ((D.visible instanceId before).reverse.take lim).map D.chatMessage

end TranscriptDb

/-! ### The page -/

/-- `chatMessageDTO`. -/
structure ChatMessageDTO where
  id : ℕ
  role : String
  text : String := ""
  eventId : Option EventId
  action : Option String
  commitSha : Option String
  status : String := ""
  findingsCount : Option ℤ := none
  ts : ℤ
  traceId : String

/-- The name of a field as the decoder compares it. -/
def foldName (name : String) : String :=
  String.ofList (name.toList.map fun c =>
    if c = '\u017F' then 's' else if c = '\u212A' then 'k' else c.toLower)

/-- A text field of a struct that an object is decoded into. A value of another type is skipped. -/
def textField (name : String) (fields : Json.Fields) : String :=
  fields.foldl (fun text (k, v) =>
    match v with
    | .str s => if foldName k = foldName name then s else text
    | _ => text) ""

/-- A field of type `*int` of a struct that an object is decoded into. -/
def intField (name : String) (fields : Json.Fields) : Option ℤ :=
  fields.foldl (fun value (k, v) =>
    if foldName k ≠ foldName name then value
    else
      match v with
      | .null => none
      | .int n => if -2 ^ 63 ≤ n ∧ n < 2 ^ 63 then some n else some (value.getD 0)
      | _ => some (value.getD 0)) none

/-- `strings.TrimPrefix`. -/
def trimStart (start s : String) : String :=
  if start.toList.isPrefixOf s.toList then String.ofList (s.toList.drop start.length) else s

/-- `toChatMessageDTO`. -/
def toChatMessageDTO (m : ChatMessage) : ChatMessageDTO :=
  let d : ChatMessageDTO :=
    { id := m.id
      role := "event"
      eventId := m.eventId
      action := m.action
      commitSha := m.commitSha
      ts := m.createdAt
      traceId := m.traceId }
  if m.kind = "chat_user" then
    { d with role := "user", text := textField "text" m.payload }
  else if m.kind = "chat_agent" then
    { d with role := "agent", text := textField "text" m.payload }
  else
    { d with
      status := trimStart "run_" m.kind
      text := textField "description" m.payload
      findingsCount := intField "findingsCount" m.payload }

/-- The number that decimal digits write, if there are any and nothing else. -/
def magnitude (cs : List Char) : Option ℕ :=
  if cs ≠ [] ∧ cs.all Char.isDigit then some (Nat.ofDigitChars 10 cs 0) else none

/-- `strconv.ParseInt`, of a decimal number with 64 bits. -/
def parseInt64 (s : String) : Option Int64 :=
  match s.toList with
  | '-' :: cs => ((magnitude cs).filter (· ≤ 2 ^ 63)).map fun (n : ℕ) => .ofInt (-n)
  | '+' :: cs => ((magnitude cs).filter (· < 2 ^ 63)).map fun (n : ℕ) => .ofInt n
  | cs => ((magnitude cs).filter (· < 2 ^ 63)).map fun (n : ℕ) => .ofInt n

/-- `queryID`: a parameter of the query, which is empty if it is missing. -/
def queryID (name value : String) : Except String (Option Int64) :=
  if value = "" then .ok none
  else
    match parseInt64 value with
    | some id => .ok (some id)
    | none => .error (name ++ " must be an integer")

/-- The answer of `instanceMessages`. -/
structure TranscriptPage where
  messages : List ChatMessageDTO
  more : Bool

/-- `instanceMessages`, once the instance is found. -/
def instanceMessages (D : TranscriptDb) (instanceId : InstanceId) (before limit : String) :
    Except String TranscriptPage := do
  let before ← queryID "before" before
  let l ← queryID "limit" limit
  let limit := (l.map fun l => (min (max l.toInt 1) 200).toNat).getD 50
  let rows := D.messages instanceId before limit
  return ⟨(rows.map toChatMessageDTO).reverse, rows.length = limit⟩

/-- What a client is given that asks again, before the first row that it was given, as long as there
are more, when it asks at most `fuel` times. `D k` is what the database holds at the request
`k`. -/
def follow (D : ℕ → TranscriptDb) (instanceId : InstanceId) (limit : String) :
    (fuel k : ℕ) → (before : String) → Option (List TranscriptPage)
  | 0, _, _ => none
  | fuel + 1, k, before =>
      match instanceMessages (D k) instanceId before limit with
      | .error _ => none
      | .ok page =>
          match page.more, page.messages.head? with
          | true, some first =>
              (follow D instanceId limit fuel (k + 1) (toString first.id)).map (page :: ·)
          | _, _ => some [page]

theorem id_toChatMessageDTO (m : ChatMessage) :
  (toChatMessageDTO m).id = m.id
  := by
  rw [toChatMessageDTO]
  split
  · rfl
  · split <;> rfl

/-! ### The parameters of a request -/

/-- A cursor as a parameter of the query. -/
def cursorText (before : Option Int64) : String :=
  before.elim "" fun b => toString b.toInt

theorem magnitude_toDigits (n : ℕ) :
  magnitude (Nat.toDigits 10 n) = some n
  := by
  have hdigits : (Nat.toDigits 10 n).all Char.isDigit = true := by
    rw [List.all_eq_true]
    exact fun c hc => Decimal.isDigit_of_mem hc
  rw [magnitude, if_pos ⟨Nat.toDigits_ne_nil, hdigits⟩, Nat.ofDigitChars_ten_toDigits]

/-- A number is read as it is written. -/
theorem parseInt64_natRepr {n : ℕ} (h : n < 2 ^ 63) :
  parseInt64 (toString n) = some (.ofInt n)
  := by
  rw [parseInt64, Decimal.toList_toString]
  split
  · rename_i heq
    have hmem : '-' ∈ Nat.toDigits 10 n := heq ▸ List.mem_cons_self
    exact absurd hmem (Decimal.not_mem rfl)
  · rename_i heq
    have hmem : '+' ∈ Nat.toDigits 10 n := heq ▸ List.mem_cons_self
    exact absurd hmem (Decimal.not_mem rfl)
  · rw [magnitude_toDigits, Option.filter_some, if_pos (decide_eq_true h), Option.map_some]

/-- A cursor is read as it is written. -/
theorem parseInt64_toString (b : Int64) :
  parseInt64 (toString b.toInt) = some b
  := by
  have hlow := b.le_toInt
  have hhigh := b.toInt_lt
  have hb := b.ofInt_toInt
  cases hn : b.toInt with
  | ofNat n =>
      rw [hn] at hhigh hb
      have h : n < 2 ^ 63 := by
        rw [Int.ofNat_eq_natCast] at hhigh
        omega
      apply (parseInt64_natRepr h).trans
      rw [← hb]
      rfl
  | negSucc n =>
      rw [hn] at hlow hb
      have h : n + 1 ≤ 2 ^ 63 := by
        rw [Int.negSucc_eq] at hlow
        omega
      rw [parseInt64, Decimal.toList_toString_negSucc]
      change Option.map _ (Option.filter _ (magnitude (Nat.toDigits 10 (n + 1)))) = _
      rw [magnitude_toDigits, Option.filter_some, if_pos (decide_eq_true h), Option.map_some, ← hb]
      rfl

theorem queryID_toString (name : String) (b : Int64) :
  queryID name (toString b.toInt) = .ok (some b)
  := by rw [queryID, if_neg Decimal.toString_ne_empty, parseInt64_toString]

theorem queryID_cursorText (name : String) (before : Option Int64) :
  queryID name (cursorText before) = .ok before
  := by
  cases before with
  | none => rfl
  | some b => exact queryID_toString name b

/-! ### One page -/

section

variable {D D₀ : TranscriptDb} {instanceId : InstanceId} {before : Option Int64} {limit : ℕ}

/-- The key of a row as a cursor. -/
def MessageRow.cursor (r : MessageRow) : Int64 :=
  .ofInt r.id

theorem toInt_cursor {r : MessageRow} (h : r ∈ D.activity.rows) :
  r.cursor.toInt = r.id
  := by
  have hlt := D.bounded r h
  rw [MessageRow.cursor, Int64.toInt_ofInt_of_le] <;> omega

theorem sorted_visible :
  (D.visible instanceId before).Pairwise fun r r' => r.id < r'.id
  := D.activity.sorted.filter _

theorem mem_visible {r : MessageRow} :
  r ∈ D.visible instanceId before ↔ r ∈ D.activity.rows ∧ r.instanceId = instanceId ∧
    r.isTranscript = true ∧ ∀ b ∈ before, (r.id : ℤ) < b.toInt
  := by
  rw [TranscriptDb.visible, List.mem_filter, MessageRow.isRead]
  simp [and_assoc, Option.all_eq_true]

/-- What is answered are the last rows that are visible, as many as the limit. -/
theorem instanceMessages_eq (hlimit : 1 ≤ limit ∧ limit ≤ 200) :
  instanceMessages D instanceId (cursorText before) (toString limit) =
    .ok ⟨((D.visible instanceId before).rtake limit).map fun r =>
      toChatMessageDTO (D.chatMessage r), limit ≤ (D.visible instanceId before).length⟩
  := by
  have hint : ((Int64.ofInt limit).toInt) = limit := by
    rw [Int64.toInt_ofInt_of_le] <;> omega
  have htext : queryID "limit" (toString limit) = .ok (some (.ofInt limit)) := by
    have := queryID_toString "limit" (.ofInt limit)
    rwa [hint] at this
  have hclamp : (min (max (Int64.ofInt limit).toInt 1) 200).toNat = limit := by
    rw [hint]
    omega
  rw [instanceMessages, queryID_cursorText, htext]
  change Except.ok _ = _
  simp only [Option.map_some, Option.getD_some, hclamp, TranscriptDb.messages,
    List.rtake_eq_reverse_take_reverse, List.map_reverse, List.map_map, List.length_map,
    List.length_take, List.length_reverse, Function.comp_def]
  congr 2
  simp

/-- The rows before one of the visible rows are the visible rows before it, and rows that were added
are not among them. -/
theorem visible_cursor (hD : D₀.activity.rows <+: D.activity.rows) {as bs : List MessageRow}
    {r : MessageRow} (h : D₀.visible instanceId before = as ++ r :: bs) :
  D.visible instanceId (some r.cursor) = as
  := by
  have hr : r ∈ D₀.visible instanceId before := by simp [h]
  obtain ⟨hmem, -, -, hbefore⟩ := mem_visible.mp hr
  have hcursor := toInt_cursor hmem
  obtain ⟨newer, hrows⟩ := hD
  have hsorted := D.activity.sorted
  rw [← hrows, List.pairwise_append] at hsorted
  have hnewer : newer.filter (MessageRow.isRead instanceId (some r.cursor)) = [] := by
    rw [List.filter_eq_nil_iff]
    intro r' hr'
    have hlt := hsorted.2.2 r hmem r' hr'
    simp only [MessageRow.isRead, Option.all_some, hcursor, Bool.and_eq_true, decide_eq_true_eq]
    omega
  have hfilter : D₀.visible instanceId (some r.cursor) =
      (D₀.visible instanceId before).filter fun r' => r'.id < r.id := by
    rw [TranscriptDb.visible, TranscriptDb.visible, List.filter_filter]
    apply List.filter_congr
    intro r' _
    have hall : r'.id < r.id → before.all (fun b => (r'.id : ℤ) < b.toInt) = true := by
      intro hlt
      rw [Option.all_eq_true]
      intro b hb
      have := hbefore b hb
      exact decide_eq_true (by omega)
    simp only [MessageRow.isRead, Option.all_some, hcursor, Int.ofNat_lt]
    by_cases hlt : r'.id < r.id
    · simp [hlt, hall hlt]
    · simp [hlt]
  have hsame : D.visible instanceId (some r.cursor) = D₀.visible instanceId (some r.cursor) := by
    rw [TranscriptDb.visible, ← hrows, List.filter_append, hnewer, List.append_nil]
    rfl
  have hsort := @sorted_visible D₀ instanceId before
  rw [h] at hsort
  rw [hsame, hfilter, h]
  apply Paging.filter_key_lt hsort

end

/-! ### All pages -/

section

variable {D : ℕ → TranscriptDb} {instanceId : InstanceId} {limit : ℕ}

/-- A page answers with some rows, as they were at one of the requests. -/
def TranscriptPage.Answers (D : ℕ → TranscriptDb) (page : TranscriptPage) (rows : List MessageRow) :
    Prop :=
  ∃ k, page.messages = rows.map fun r => toChatMessageDTO ((D k).chatMessage r)

/-- A client that goes on from a request at which nothing was added below its cursor is given the
pages of what was visible at first. -/
theorem exists_pages (hD : ∀ k, (D 0).activity.rows <+: (D k).activity.rows)
    (hlimit : 1 ≤ limit ∧ limit ≤ 200) (fuel k : ℕ) (before : Option Int64)
    (hk : (D k).visible instanceId before = (D 0).visible instanceId before)
    (hfuel : ((D 0).visible instanceId before).length / limit < fuel) :
  ∃ pages chunks, follow D instanceId (toString limit) fuel k (cursorText before) = some pages ∧
    Pages limit ((D 0).visible instanceId before) chunks ∧
    List.Forall₂ (TranscriptPage.Answers D) pages chunks
  := by
  induction fuel generalizing k before with
  | zero => contradiction
  | succ fuel ih =>
      rw [follow, instanceMessages_eq hlimit, hk]
      by_cases hlength : limit ≤ ((D 0).visible instanceId before).length
      · have hpage : (((D 0).visible instanceId before).rtake limit).length = limit := by
          rw [Paging.length_rtake, Nat.min_eq_left hlength]
        have hsplit := Paging.rdrop_append_rtake ((D 0).visible instanceId before) limit
        cases hrows : ((D 0).visible instanceId before).rtake limit with
        | nil =>
            rw [hrows, List.length_nil] at hpage
            omega
        | cons r rows =>
            rw [hrows] at hpage hsplit
            have hr : r ∈ (D 0).visible instanceId before := by
              rw [← hsplit]
              exact List.mem_append_right _ List.mem_cons_self
            have hfirst : toString r.id = cursorText (some r.cursor) := by
              rw [cursorText, Option.elim_some, toInt_cursor (mem_visible.mp hr).1]
              rfl
            have hfirst₀ := visible_cursor List.prefix_rfl hsplit.symm
            have hfirst₁ := visible_cursor (hD (k + 1)) hsplit.symm
            have hfuel' : ((D 0).visible instanceId (some r.cursor)).length / limit < fuel := by
              rw [← hsplit, List.length_append, hpage, Nat.add_div_right _ hlimit.1] at hfuel
              rw [hfirst₀]
              omega
            obtain ⟨pages, chunks, hfollow, hpages, hanswers⟩ :=
              ih (k + 1) (some r.cursor) (hfirst₁.trans hfirst₀.symm) hfuel'
            rw [← hfirst] at hfollow
            rw [hfirst₀] at hpages
            let page : TranscriptPage :=
              ⟨(r :: rows).map fun r => toChatMessageDTO ((D k).chatMessage r), true⟩
            refine ⟨page :: pages, (r :: rows) :: chunks, ?_, ?_, .cons ⟨k, rfl⟩ hanswers⟩
            · simp only [decide_eq_true hlength, List.map_cons, List.head?_cons, id_toChatMessageDTO]
              change Option.map _ (follow D instanceId (toString limit) fuel (k + 1)
                (toString r.id)) = _
              rw [hfollow, Option.map_some]
              rfl
            · rw [← hsplit]
              apply Pages.more hpage hpages
      · have hlt := Nat.lt_of_not_le hlength
        have hall : ((D 0).visible instanceId before).rtake limit =
            (D 0).visible instanceId before := by
          rw [List.rtake, Nat.sub_eq_zero_of_le hlt.le, List.drop_zero]
        let page : TranscriptPage :=
          ⟨((D 0).visible instanceId before).map fun r => toChatMessageDTO ((D k).chatMessage r),
            false⟩
        refine ⟨[page], [_], ?_, Pages.last hlt, .cons ⟨k, rfl⟩ .nil⟩
        simp only [decide_eq_false hlength, hall]
        rfl

/-- The pages give each row of the transcript that was visible at first once, the last rows first,
and nothing else. -/
structure Enumerates (D : ℕ → TranscriptDb) (instanceId : InstanceId) (before : Option Int64)
    (pages : List TranscriptPage) : Prop where
  complete : (pages.reverse.flatMap fun page => page.messages.map ChatMessageDTO.id) =
    ((D 0).visible instanceId before).map fun r => r.id
  once : (pages.flatMap fun page => page.messages.map ChatMessageDTO.id).Nodup
  ascending : ∀ page ∈ pages, page.messages.Pairwise fun m m' => m.id < m'.id
  descending : pages.Pairwise fun page page' => ∀ m ∈ page.messages, ∀ m' ∈ page'.messages,
    m'.id < m.id
  sound : ∀ page ∈ pages, ∀ m ∈ page.messages, ∃ r ∈ (D 0).activity.rows,
    r.instanceId = instanceId ∧ r.isTranscript = true ∧ (∀ b ∈ before, (r.id : ℤ) < b.toInt) ∧
    ∃ k, m = toChatMessageDTO ((D k).chatMessage r)

/-- The keys on a page. -/
theorem TranscriptPage.Answers.map_id {page : TranscriptPage} {rows : List MessageRow}
    (h : page.Answers D rows) :
  page.messages.map ChatMessageDTO.id = rows.map fun r => r.id
  := by
  obtain ⟨k, hk⟩ := h
  rw [hk, List.map_map]
  apply List.map_congr_left
  intro r _
  apply id_toChatMessageDTO

/-- The keys on all pages are those of the rows. -/
theorem map_id_of_answers {pages : List TranscriptPage} {chunks : List (List MessageRow)}
    (h : List.Forall₂ (TranscriptPage.Answers D) pages chunks) :
  (pages.map fun page => page.messages.map ChatMessageDTO.id) =
    chunks.map fun rows => rows.map fun r => r.id
  := by
  induction h with
  | nil => rfl
  | cons hpage _ ih => rw [List.map_cons, List.map_cons, hpage.map_id, ih]

/-- Pages that answer with the pages of what was visible at first enumerate it. -/
theorem enumerates_of_answers {before : Option Int64} {pages : List TranscriptPage}
    {chunks : List (List MessageRow)}
    (hpages : Pages limit ((D 0).visible instanceId before) chunks)
    (hanswers : List.Forall₂ (TranscriptPage.Answers D) pages chunks) :
  Enumerates D instanceId before pages
  := by
  have hsorted := @sorted_visible (D 0) instanceId before
  have hids := map_id_of_answers hanswers
  have hcomplete : (pages.reverse.flatMap fun page => page.messages.map ChatMessageDTO.id) =
      ((D 0).visible instanceId before).map fun r => r.id := by
    rw [List.flatMap_def, List.map_reverse, hids, ← List.map_reverse, ← List.map_flatten,
      hpages.flatten]
  have hnodup : (((D 0).visible instanceId before).map fun r => r.id).Nodup :=
    List.pairwise_map.mpr (hsorted.imp fun h => h.ne)
  have hperm : (pages.reverse.flatMap fun page => page.messages.map ChatMessageDTO.id).Perm
      (pages.flatMap fun page => page.messages.map ChatMessageDTO.id) :=
    (List.reverse_perm pages).flatMap_right _
  refine ⟨hcomplete, ?_, ?_, ?_, ?_⟩
  · rw [← hperm.nodup_iff, hcomplete]
    exact hnodup
  · intro page hpage
    obtain ⟨rows, hrows, hanswer⟩ := hanswers.exists_of_mem_left hpage
    have hpairwise := List.pairwise_map.mpr (hpages.pairwise hsorted rows hrows)
    rw [← hanswer.map_id] at hpairwise
    exact List.pairwise_map.mp hpairwise
  · have hpairwise : (chunks.map fun rows => rows.map fun r => r.id).Pairwise
        fun ids ids' => ∀ i ∈ ids, ∀ i' ∈ ids', i' < i := by
      apply List.pairwise_map.mpr
      apply (hpages.pairwise_pages hsorted).imp
      intro rows rows' h i hi i' hi'
      obtain ⟨r, hr, rfl⟩ := List.mem_map.mp hi
      obtain ⟨r', hr', rfl⟩ := List.mem_map.mp hi'
      exact h r' hr' r hr
    rw [← hids] at hpairwise
    apply (List.pairwise_map.mp hpairwise).imp
    intro page page' h m hm m' hm'
    exact h m.id (List.mem_map_of_mem hm) m'.id (List.mem_map_of_mem hm')
  · intro page hpage m hm
    obtain ⟨rows, hrows, k, hk⟩ := hanswers.exists_of_mem_left hpage
    rw [hk] at hm
    obtain ⟨r, hr, rfl⟩ := List.mem_map.mp hm
    obtain ⟨hmem, hinstance, htranscript, hbefore⟩ := mem_visible.mp (hpages.mem hrows hr)
    exact ⟨r, hmem, hinstance, htranscript, hbefore, k, rfl⟩

/-- **The transcript is enumerated once.** For every table, every limit and every cursor, when rows
with larger keys are added between the requests, a client that asks for what comes before the first
row of the last page as long as there are more comes to an end, and what it is given enumerates the
rows that were visible at its first request. -/
theorem follow_enumerates (hD : ∀ k, (D 0).activity.rows <+: (D k).activity.rows)
    (hlimit : 1 ≤ limit ∧ limit ≤ 200) (before : Option Int64) :
  ∃ pages, pages.length = ((D 0).visible instanceId before).length / limit + 1 ∧
    follow D instanceId (toString limit) pages.length 0 (cursorText before) = some pages ∧
    Enumerates D instanceId before pages
  := by
  obtain ⟨pages, chunks, hfollow, hpages, hanswers⟩ :=
    @exists_pages D instanceId limit hD hlimit _ 0 before rfl (Nat.lt_succ_self _)
  have hlength : pages.length = ((D 0).visible instanceId before).length / limit + 1 := by
    rw [hanswers.length_eq, hpages.length hlimit.1]
  refine ⟨pages, hlength, ?_, enumerates_of_answers hpages hanswers⟩
  rw [hlength]
  exact hfollow

end

/-- A row of a chat. -/
def chatRow (instanceId : InstanceId) (kind : String) (id : ℕ) : MessageRow :=
  ⟨⟨id, instanceId, none, 1, kind, [("text", .str "hello")], ""⟩, 0⟩

/-- The table with the rows of two chats, and with one more row. -/
def sampleActivity (more : Bool) : Serial MessageRow fun r => r.id :=
  let T := ((Serial.empty.insert (chatRow 1 "chat_user") fun _ => rfl).insert
    (chatRow 2 "chat_user") fun _ => rfl).insert (chatRow 1 "chat_agent") fun _ => rfl
  if more then T.insert (chatRow 1 "chat_user") fun _ => rfl else T

/-- The replies of a chat are read in pages of one row while one more is added. -/
theorem follow_enumerates_sample :
  ∃ D : ℕ → TranscriptDb, ((D 0).visible 1 none).length = 2 ∧
    ((D 1).visible 1 none).length = 3 ∧ ∃ pages, pages.length = 3 ∧
    follow D 1 (toString 1) 3 0 (cursorText none) = some pages ∧ Enumerates D 1 none pages
  := by
  let D : ℕ → TranscriptDb := fun k =>
    { activity := sampleActivity (k ≠ 0)
      bounded := by
        cases decide (k ≠ 0) with
        | false => decide
        | true => decide
      event := fun _ => none }
  have hD : ∀ k, (D 0).activity.rows <+: (D k).activity.rows := by
    intro k
    cases k with
    | zero => exact List.prefix_rfl
    | succ k => exact ⟨[chatRow 1 "chat_user" 4], rfl⟩
  have hvisible : ((D 0).visible 1 none).length = 2 := by decide
  obtain ⟨pages, hlength, hfollow, henumerates⟩ :=
    @follow_enumerates D 1 1 hD (by decide) none
  rw [hvisible] at hlength
  rw [hlength] at hfollow
  exact ⟨D, hvisible, by decide, pages, hlength, hfollow, henumerates⟩

end Hub
