import GitAgent.Agent.Lifecycle
import GitAgent.Library.Latest
import GitAgent.Library.Trim
import Mathlib.Algebra.BigOperators.Group.List.Basic
import Mathlib.Algebra.Group.Prod

/-!
# Versions of a reply

The middleware that takes calls out of a reply writes it again with its id, and the collector of
frames sees both versions. What it tells of the turn at the end is what the last versions say
exactly if the others say nothing.
-/

namespace Agent

variable {T : Texts}

/-- A chunk of the updates of a turn: the messages of each of its nodes. -/
abbrev Update := List (String × List Message)

namespace ActivityCollector

/-- `_updates`. -/
def update (T : Texts) (c : ActivityCollector) (u : Update) : ActivityCollector × List Frame :=
  each (fun c n => updates T c n.1 n.2) c u

/-- The collector and the frames of a turn, from the start on. -/
def turn (T : Texts) (stream : List Update) : ActivityCollector × List Frame :=
  each (update T) {} stream

/-- `chat_agent`. -/
def chatAgent (c : ActivityCollector) : Option Frame :=
  let text := strip ("\n\n".intercalate c.reply)
  if text = "" then none else some { kind := "chat_agent", text := some text }

end ActivityCollector

/-- The tokens of frames. -/
def tokensOf (frames : List Frame) : ℤ × ℤ :=
  (frames.filterMap Frame.tokens).sum

/-! ### The last versions -/

/-- The id that a reply shares with its versions. -/
def Message.version : Message → Option String
  | ai m => m.id
  | _ => none

/-- The messages of a turn. -/
def messagesOf (stream : List Update) : List Message :=
  stream.flatMap fun u => u.flatMap Prod.snd

/-- The update without what is replaced in it or later. -/
def latestUpdate (after : List Message) : Update → Update
  | [] => []
  | n :: u =>
      (n.1, Latest.latest Message.version (u.flatMap Prod.snd ++ after) n.2) :: latestUpdate after u

/-- The stream from which the superseded versions have been deleted. -/
def latestStream : List Update → List Update
  | [] => []
  | u :: stream => latestUpdate (messagesOf stream) u :: latestStream stream

/-- The tokens that a message tells of. -/
def Message.tokens : Message → Option (ℤ × ℤ)
  | ai m => m.usage.map fun u => (u.inputTokens, u.outputTokens)
  | _ => none

/-- The usage of each id, counted once: that of its last version with a usage. -/
def usageOnce (messages : List Message) : ℤ × ℤ :=
  ((Latest.latest Message.version [] (messages.filter fun m => m.tokens.isSome)).filterMap
    Message.tokens).sum

/-- A turn is told from the last version of each reply. -/
structure CountedOnce (T : Texts) (stream : List Update) : Prop where
  findings : (ActivityCollector.turn T stream).1.findings =
    (ActivityCollector.turn T (latestStream stream)).1.findings
  reply : (ActivityCollector.turn T stream).1.chatAgent =
    (ActivityCollector.turn T (latestStream stream)).1.chatAgent
  tokens : tokensOf (ActivityCollector.turn T stream).2 = usageOnce (messagesOf stream)

/-- A reply comes again in a turn only as the middleware writes it: a copy of a version that came
before, with some of its calls. -/
def Rewrites (stream : List Update) : Prop :=
  ∀ before m after, messagesOf stream = before ++ .ai m :: after →
    (m.id.isSome ∧ ∃ m₀, .ai m₀ ∈ before ∧ m₀.id = m.id) →
    ∃ m₀ keptIds stopNote, .ai m₀ ∈ before ∧ m = m₀.cloneWithToolCalls keptIds stopNote

/-- A message that reports no finding and has no text. -/
def Message.Silent (T : Texts) : Message → Prop
  | ai m => (∀ call ∈ m.toolCalls, call.name ≠ "report_finding") ∧ strip (T.messageText m.content) = ""
  | _ => True

/-! ### What the collector tells -/

/-- The findings that a message reports. -/
def Message.reports : Message → ℕ
  | ai m => m.toolCalls.countP fun call => call.name = "report_finding"
  | _ => 0

/-- The text of a reply, if there is any. -/
def Message.reply (T : Texts) : Message → Option String
  | ai m => orNone (strip (T.messageText m.content))
  | _ => none

namespace ActivityCollector

/-- What a step adds to the collector, and the tokens of its frames. -/
structure Adds (T : Texts) (messages : List Message) (c : ActivityCollector)
    (r : ActivityCollector × List Frame) : Prop where
  findings : r.1.findings = c.findings + (messages.map Message.reports).sum
  reply : r.1.reply = c.reply ++ messages.filterMap (Message.reply T)
  tokens : tokensOf r.2 = (messages.filterMap Message.tokens).sum

theorem tokensOf_append (frames frames' : List Frame) :
  tokensOf (frames ++ frames') = tokensOf frames + tokensOf frames'
  := by rw [tokensOf, List.filterMap_append, List.sum_append, tokensOf, tokensOf]

/-- What a list adds is what its elements add. -/
theorem adds_each {α : Type} {f : ActivityCollector → α → ActivityCollector × List Frame}
    {messages : α → List Message} (h : ∀ c a, Adds T (messages a) c (f c a))
    (c : ActivityCollector) (as : List α) :
  Adds T (as.flatMap messages) c (each f c as)
  := by
  induction as generalizing c with
  | nil =>
      constructor
      · rfl
      · exact (List.append_nil _).symm
      · rfl
  | cons a as ih =>
      have hhead := h c a
      have htail := ih (f c a).1
      rw [each, List.flatMap_cons]
      constructor
      · rw [htail.findings, hhead.findings, List.map_append, List.sum_append, Nat.add_assoc]
      · rw [htail.reply, hhead.reply, List.filterMap_append, List.append_assoc]
      · rw [tokensOf_append, hhead.tokens, htail.tokens, List.filterMap_append, List.sum_append]

end ActivityCollector

/-- Frames without tokens. -/
theorem tokensOf_eq_zero {frames : List Frame} (h : ∀ f ∈ frames, f.tokens = none) :
  tokensOf frames = 0
  := by rw [tokensOf, List.filterMap_eq_nil_iff.mpr h, List.sum_nil]

/-- The tokens of the frames of a message are those of its usage. -/
theorem tokensOf_work (taskId : Option String) (text : Json) (calls : List (String × Json))
    (result : Option (Option String × Json)) (usage : Option (ℤ × ℤ)) :
  tokensOf (T.work taskId text calls result usage) = usage.toList.sum
  := by
  unfold Texts.work
  extract_lets text frames
  have hnone : ∀ f ∈ frames, f.tokens = none := by
    intro f hf
    rcases List.mem_append.mp hf with hf | hf
    · rcases List.mem_append.mp hf with hf | hf
      · split at hf
        · exact absurd hf List.not_mem_nil
        · rw [List.mem_singleton.mp hf]
      · obtain ⟨call, -, rfl⟩ := List.mem_map.mp hf
        rfl
    · obtain ⟨r, -, rfl⟩ := Option.map_eq_some_iff.mp (Option.mem_toList.mp hf)
      rfl
  clear_value frames
  cases usage with
  | none => apply tokensOf_eq_zero hnone
  | some tokens =>
      cases frames with
      | nil => rfl
      | cons f frames' =>
          have htail : tokensOf frames' = 0 := by
            apply tokensOf_eq_zero
            intro f' hf'
            apply hnone f' (List.mem_cons_of_mem f hf')
          change tokensOf ([{ f with tokens := some tokens }] ++ frames') = _
          rw [ActivityCollector.tokensOf_append, htail]
          apply add_zero

namespace ActivityCollector

theorem adds_message (c : ActivityCollector) (m : Message) :
  Adds T [m] c (message T c m)
  := by
  cases m with
  | ai m =>
      constructor
      · rfl
      · rw [message]
        change _ = c.reply ++ (orNone (strip (T.messageText m.content))).toList
        rw [orNone]
        dsimp only
        split
        · exact (List.append_nil _).symm
        · rfl
      · rw [message, tokensOf_work]
        rfl
  | tool m =>
      constructor
      · rfl
      · exact (List.append_nil _).symm
      · rw [message, tokensOf_append, apply_ite tokensOf, tokensOf_work, apply_ite tokensOf]
        split_ifs <;> rfl
  | system => exact ⟨rfl, (List.append_nil _).symm, rfl⟩
  | human => exact ⟨rfl, (List.append_nil _).symm, rfl⟩

theorem adds_updates (c : ActivityCollector) (node : String) (messages : List Message) :
  Adds T messages c (updates T c node messages)
  := by
  have h := adds_each (adds_message (T := T)) c messages
  rw [List.flatMap_singleton'] at h
  constructor
  · apply h.findings
  · apply h.reply
  · rw [updates, tokensOf_append, h.tokens]
    apply add_zero

/-- What the collector tells of a turn is what its messages add. -/
theorem adds_turn (T : Texts) (stream : List Update) :
  Adds T (messagesOf stream) {} (turn T stream)
  := by
  apply adds_each
  intro c u
  apply adds_each
  intro c n
  apply adds_updates

end ActivityCollector

/-! ### What is counted again -/

theorem flatMap_latestUpdate (after : List Message) (u : Update) :
  (latestUpdate after u).flatMap Prod.snd =
    Latest.latest Message.version after (u.flatMap Prod.snd)
  := by
  induction u with
  | nil => rfl
  | cons n u ih =>
      rw [latestUpdate, List.flatMap_cons, ih, List.flatMap_cons, Latest.latest_append]

/-- The messages of the stream without the superseded versions are the last versions. -/
theorem messagesOf_latestStream (stream : List Update) :
  messagesOf (latestStream stream) = Latest.latest Message.version [] (messagesOf stream)
  := by
  induction stream with
  | nil => rfl
  | cons u stream ih =>
      have hcons : ∀ (u : Update) stream, messagesOf (u :: stream) =
          u.flatMap Prod.snd ++ messagesOf stream := fun _ _ => rfl
      rw [latestStream, hcons, hcons, flatMap_latestUpdate, ih, Latest.latest_append,
        List.append_nil]

/-- Part of a list has the whole weight only if it is the whole list. -/
theorem eq_of_sublist_of_sum {α : Type} {w : α → ℕ} {as bs : List α} (h : as.Sublist bs)
    (hpos : ∀ b ∈ bs, 0 < w b) (hsum : (as.map w).sum = (bs.map w).sum) :
  as = bs
  := by
  induction h with
  | slnil => rfl
  | @cons as bs b h ih =>
      have hle : (as.map w).sum ≤ (bs.map w).sum := (h.map w).sum_le_sum (by simp)
      have hb := hpos b List.mem_cons_self
      rw [List.map_cons, List.sum_cons] at hsum
      omega
  | cons_cons b h ih =>
      rw [List.map_cons, List.map_cons, List.sum_cons, List.sum_cons] at hsum
      rw [ih (fun a ha => hpos a (List.mem_cons_of_mem b ha)) (Nat.add_left_cancel hsum)]

/-- The length of texts that are joined. -/
theorem length_intercalate (sep : List Char) {texts : List (List Char)} (h : texts ≠ []) :
  (sep.intercalate texts).length + sep.length = (texts.map fun t => t.length + sep.length).sum
  := by
  induction texts with
  | nil => contradiction
  | cons t texts ih =>
      by_cases hne : texts = []
      · subst hne
        simp
      · rw [List.intercalate_cons_of_ne_nil hne, List.map_cons, List.sum_cons, ← ih hne,
          List.length_append, List.length_append]
        omega

/-- Part of a list of texts gives the whole text only if it is the whole list. -/
theorem intercalate_inj_of_sublist {sep : List Char} {as bs : List (List Char)}
    (h : as.Sublist bs) (hne : ∀ b ∈ bs, b ≠ []) (heq : sep.intercalate as = sep.intercalate bs) :
  as = bs
  := by
  have hpos : ∀ b ∈ bs, 0 < b.length + sep.length := by
    intro b hb
    have := List.length_pos_iff.mpr (hne b hb)
    omega
  by_cases has : as = []
  · subst has
    cases bs with
    | nil => rfl
    | cons b bs =>
        have hb := List.length_pos_iff.mpr (hne b List.mem_cons_self)
        have hlen := congrArg List.length heq
        have hcons := length_intercalate sep (List.cons_ne_nil b bs)
        rw [List.map_cons, List.sum_cons, ← hlen] at hcons
        change 0 + _ = _ at hcons
        omega
  · have hbs : bs ≠ [] := by
      rintro rfl
      exact has (List.sublist_nil.mp h)
    apply eq_of_sublist_of_sum h hpos
    rw [← length_intercalate sep has, ← length_intercalate sep hbs, heq]

/-- Texts without blanks around them are joined to one. -/
theorem bare_intercalate {sep : List Char} {texts : List (List Char)}
    (h : ∀ t ∈ texts, t ≠ [] ∧ Trim.Bare isSpace t) :
  Trim.Bare isSpace (sep.intercalate texts) ∧ (texts ≠ [] → sep.intercalate texts ≠ [])
  := by
  induction texts with
  | nil => exact ⟨Trim.bare_nil, fun h => absurd rfl h⟩
  | cons t texts ih =>
      obtain ⟨ht, htexts⟩ := List.forall_mem_cons.mp h
      obtain ⟨hbare, hne⟩ := ih htexts
      by_cases hnil : texts = []
      · subst hnil
        rw [List.intercalate_singleton]
        exact ⟨ht.2, fun _ => ht.1⟩
      · rw [List.intercalate_cons_of_ne_nil hnil]
        constructor
        · apply ht.2.append hbare ht.1 (hne hnil)
        · intro _
          simp [ht.1]

theorem orNone_injective :
  Function.Injective orNone
  := by
  intro s s' h
  rw [orNone, orNone] at h
  split_ifs at h with hs hs'
  · rw [hs, hs']
  · apply Option.some.inj h

/-- A text that is not empty and has no blanks around it. -/
def Trimmed (text : String) : Prop :=
  text.toList ≠ [] ∧ Trim.Bare isSpace text.toList

/-- The text of a reply has no blanks around it. -/
theorem trimmed_reply {m : Message} {text : String} (h : m.reply T = some text) :
  Trimmed text
  := by
  cases m with
  | ai m =>
      rw [Message.reply, orNone] at h
      split at h
      · contradiction
      · rename_i hne
        rw [← Option.some.inj h]
        constructor
        · rwa [ne_eq, String.toList_eq_nil_iff]
        · rw [strip, String.toList_ofList]
          apply Trim.bare_trim
  | _ => contradiction

namespace ActivityCollector

variable {c c' : ActivityCollector}

/-- The answer is the texts of the replies, one after the other. -/
theorem chatAgent_eq (h : ∀ t ∈ c.reply, Trimmed t) :
  c.chatAgent =
    (orNone ("\n\n".intercalate c.reply)).map fun text => { kind := "chat_agent", text := some text }
  := by
  have hbare : Trim.Bare isSpace ("\n\n".intercalate c.reply).toList := by
    rw [String.toList_intercalate]
    apply (bare_intercalate _).1
    intro t ht
    obtain ⟨t', ht', rfl⟩ := List.mem_map.mp ht
    apply h t' ht'
  have hstrip : strip ("\n\n".intercalate c.reply) = "\n\n".intercalate c.reply := by
    rw [strip, show stripChars isSpace _ = _ from Trim.trim_of_bare hbare, String.ofList_toList]
  rw [chatAgent, hstrip, orNone]
  split <;> rfl

/-- Fewer replies give the same answer only if they are the same replies. -/
theorem chatAgent_eq_iff (h : ∀ t ∈ c.reply, Trimmed t) (hsub : c'.reply.Sublist c.reply) :
  c.chatAgent = c'.chatAgent ↔ c'.reply = c.reply
  := by
  have h' : ∀ t ∈ c'.reply, Trimmed t := fun t ht => h t (hsub.subset ht)
  constructor
  · intro heq
    rw [chatAgent_eq h, chatAgent_eq h'] at heq
    have hframe : Function.Injective fun text => ({ kind := "chat_agent", text := some text } : Frame) :=
      fun _ _ h => Option.some.inj (congrArg Frame.text h)
    have htext := congrArg String.toList (orNone_injective (Option.map_injective hframe heq))
    rw [String.toList_intercalate, String.toList_intercalate] at htext
    have hmap : c'.reply.map String.toList = c.reply.map String.toList := by
      apply intercalate_inj_of_sublist (hsub.map _) _ htext.symm
      intro t ht
      obtain ⟨t', ht', rfl⟩ := List.mem_map.mp ht
      exact (h t' ht').1
    exact List.map_injective_iff.mpr (fun _ _ => String.toList_injective) hmap
  · intro heq
    rw [chatAgent, chatAgent, heq]

end ActivityCollector

/-- The messages that are replaced report nothing exactly if they add no finding. -/
theorem findings_eq_iff (T : Texts) (stream : List Update) :
  (ActivityCollector.turn T stream).1.findings =
      (ActivityCollector.turn T (latestStream stream)).1.findings ↔
    Latest.EachReplaced Message.version (fun m => m.reports = 0) (messagesOf stream)
  := by
  rw [(ActivityCollector.adds_turn T stream).findings,
    (ActivityCollector.adds_turn T (latestStream stream)).findings, messagesOf_latestStream,
    Nat.add_left_cancel_iff, eq_comm, Latest.sum_latest_eq_iff]

/-- The messages that are replaced have no text exactly if they add nothing to the answer. -/
theorem chatAgent_turn_eq_iff (T : Texts) (stream : List Update) :
  (ActivityCollector.turn T stream).1.chatAgent =
      (ActivityCollector.turn T (latestStream stream)).1.chatAgent ↔
    Latest.EachReplaced Message.version (fun m => m.reply T = none) (messagesOf stream)
  := by
  have hreply := (ActivityCollector.adds_turn T stream).reply
  have hlatest := (ActivityCollector.adds_turn T (latestStream stream)).reply
  rw [messagesOf_latestStream] at hlatest
  change _ = List.filterMap _ _ at hreply hlatest
  have hsub : (ActivityCollector.turn T (latestStream stream)).1.reply.Sublist
      (ActivityCollector.turn T stream).1.reply := by
    rw [hreply, hlatest]
    apply (Latest.latest_sublist [] (messagesOf stream)).filterMap
  have htrimmed : ∀ t ∈ (ActivityCollector.turn T stream).1.reply, Trimmed t := by
    intro t ht
    rw [hreply] at ht
    obtain ⟨m, -, hm⟩ := List.mem_filterMap.mp ht
    apply trimmed_reply hm
  have hlength : ∀ ms : List Message,
      (ms.filterMap (Message.reply T)).length = (ms.map fun m => (m.reply T).toList.length).sum := by
    intro ms
    rw [List.filterMap_eq_flatMap_toList, List.length_flatMap]
  have hweight : (fun m : Message => m.reply T = none) = fun m => (m.reply T).toList.length = 0 := by
    funext m
    cases m.reply T <;> simp
  rw [ActivityCollector.chatAgent_eq_iff htrimmed hsub, hweight, ← Latest.sum_latest_eq_iff,
    ← hlength, ← hlength, ← hreply, ← hlatest]
  exact ⟨congrArg List.length, hsub.eq_of_length⟩

/-- No version with a usage has a later one, as the middleware writes none. -/
theorem Rewrites.tokens {stream : List Update} (h : Rewrites stream) :
  Latest.EachReplaced Message.version (fun _ => False)
    ((messagesOf stream).filter fun m => m.tokens.isSome)
  := by
  intro before a after hsplit hreplaced
  obtain ⟨hsome, b, hb, hversion⟩ := Latest.replaced_iff.mp hreplaced
  obtain ⟨before', rest, hmessages, -, hrest⟩ := List.filter_eq_append_iff.mp hsplit
  obtain ⟨between, after', rfl, -, -, rfl⟩ := List.filter_eq_cons_iff.mp hrest
  obtain ⟨hb, htokens⟩ := List.mem_filter.mp hb
  obtain ⟨between', after, rfl⟩ := List.append_of_mem hb
  cases b with
  | ai m =>
      cases a with
      | ai m₀ =>
          have hid : m₀.id = m.id := hversion.symm
          have hmem : Message.ai m₀ ∈ before' ++ between ++ .ai m₀ :: between' := by simp
          obtain ⟨m₁, keptIds, stopNote, -, rfl⟩ := h (before' ++ between ++ .ai m₀ :: between') m
            after (by simp [hmessages]) ⟨hid ▸ hsome, m₀, hmem, hid⟩
          have hnone : (Message.ai (m₁.cloneWithToolCalls keptIds stopNote)).tokens = none := rfl
          rw [hnone] at htokens
          contradiction
      | _ => contradiction
  | _ => contradiction

/-- The usage of each id is in the tokens of the frames once. -/
theorem tokensOf_turn {stream : List Update} (h : Rewrites stream) :
  tokensOf (ActivityCollector.turn T stream).2 = usageOnce (messagesOf stream)
  := by
  rw [(ActivityCollector.adds_turn T stream).tokens, usageOnce, Latest.latest_eq_self h.tokens,
    List.filterMap_filter]
  congr 2
  funext m
  cases m.tokens <;> rfl

/-- **A turn is told from the last version of each reply** exactly if a reply that is replaced
later reports no finding and has no text. -/
theorem countedOnce_iff_silent (T : Texts) {stream : List Update} (h : Rewrites stream) :
  CountedOnce T stream ↔
    Latest.EachReplaced Message.version (Message.Silent T) (messagesOf stream)
  := by
  have hsilent : ∀ m : Message, m.Silent T ↔ m.reports = 0 ∧ m.reply T = none := by
    intro m
    cases m with
    | ai m => simp [Message.Silent, Message.reports, Message.reply, orNone, List.countP_eq_zero]
    | _ => simp [Message.Silent, Message.reports, Message.reply]
  constructor
  · intro hc before m after hm hr
    rw [hsilent]
    exact ⟨(findings_eq_iff T stream).mp hc.findings before m after hm hr,
      (chatAgent_turn_eq_iff T stream).mp hc.reply before m after hm hr⟩
  · intro hs
    constructor
    · rw [findings_eq_iff]
      intro before m after hm hr
      exact ((hsilent m).mp (hs before m after hm hr)).1
    · rw [chatAgent_turn_eq_iff]
      intro before m after hm hr
      exact ((hsilent m).mp (hs before m after hm hr)).2
    · apply tokensOf_turn h

/-! ### A reply and its rewriting -/

/-- A reply, and a copy of it with some of its calls. -/
def rewrittenStream (m : AIMessage) (node : String) (keptIds : List (Option String))
    (stopNote : Option String) : List Update :=
  [[("model", [.ai m])], [(node, [.ai (m.cloneWithToolCalls keptIds stopNote)])]]

theorem rewrites_rewrittenStream (m : AIMessage) (node : String) (keptIds : List (Option String))
    (stopNote : Option String) :
  Rewrites (rewrittenStream m node keptIds stopNote)
  := by
  intro before m' after h hid
  match before, h with
  | [], _ =>
      obtain ⟨-, m₀, hm, -⟩ := hid
      exact absurd hm List.not_mem_nil
  | [b], h =>
      obtain ⟨rfl, htail⟩ := List.cons.inj h
      obtain ⟨hm, -⟩ := List.cons.inj htail
      use m, keptIds, stopNote, List.mem_singleton_self _
      exact (Message.ai.inj hm).symm
  | _ :: _ :: before, h =>
      have := congrArg List.length h
      simp [messagesOf, rewrittenStream] at this

/-- A reply that reports a finding again and again. -/
def repeatedReport : AIMessage where
  content := .str "Reporting the finding."
  toolCalls := [{ name := "report_finding", args := [("title", .str "SQL injection")], id := some "f" }]
  id := some "m"
  usage := some ⟨100, 20, 120⟩

/-- The turn in which the loop is found: the reply comes again without the call. -/
def loopStream : List Update :=
  rewrittenStream repeatedReport "LoopDetectionMiddleware.after_model" [] (some "\n\n[LOOP DETECTED]")

/-- A finding is counted although the last version does not report it. -/
theorem not_countedOnce_loopStream :
  Rewrites loopStream ∧ ¬ CountedOnce sampleEnvironment.texts loopStream
  := by
  constructor
  · apply rewrites_rewrittenStream
  · intro h
    apply absurd h.findings
    decide

/-- A reply that only delegates. -/
def delegatingReply : AIMessage where
  toolCalls := [{ name := "task", id := some "t₁" }, { name := "task", id := some "t₂" }]
  id := some "m"
  usage := some ⟨100, 20, 120⟩

/-- The limit takes the second call out of the reply, which is told once. -/
theorem countedOnce_delegating :
  CountedOnce sampleEnvironment.texts
    (rewrittenStream delegatingReply "SubagentLimitMiddleware.after_model" [some "t₁"] none)
  := by
  rw [countedOnce_iff_silent sampleEnvironment.texts (rewrites_rewrittenStream _ _ _ _)]
  intro before m after h hr
  match before, h with
  | [], h =>
      obtain ⟨rfl, -⟩ := List.cons.inj h
      constructor
      · decide
      · rfl
  | [_], h =>
      obtain ⟨-, rfl⟩ := List.cons.inj (List.cons.inj h).2
      obtain ⟨-, b, hb, -⟩ := Latest.replaced_iff.mp hr
      exact absurd hb List.not_mem_nil
  | _ :: _ :: before, h =>
      have := congrArg List.length h
      simp [messagesOf, rewrittenStream] at this

end Agent
