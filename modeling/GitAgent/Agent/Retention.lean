import GitAgent.Agent.Receipt

/-!
# What a ledger retains

The receipts that a text of at most a number of characters shows: all of them if there is room, and
otherwise the longest list of last ones for which there is room, under a line for older ones
(`render_tool_receipts_with_snapshot` in `core/subagents/receipts.py`).
-/

namespace Agent

/-! ### Lines -/

/-- The number of characters of a text with its lines. -/
theorem length_joinLines {lines : List String} (h : lines ≠ []) :
  (joinLines lines).length + 1 = (lines.map fun line => line.length + 1).sum
  := by
  induction lines with
  | nil => contradiction
  | cons first lines ih =>
      cases lines with
      | nil => rfl
      | cons second lines =>
          have ih := ih (List.cons_ne_nil _ _)
          rw [List.map_cons, List.sum_cons, ← ih, joinLines, String.length_append,
            String.length_append]
          · change first.length + 1 + (joinLines (second :: lines)).length + 1 = _
            omega
          · rintro ⟨⟩

/-- A text does not get shorter with more lines. -/
theorem length_joinLines_le {above below : List String} (middle : List String) (h : above ≠ []) :
  (joinLines (above ++ below)).length ≤ (joinLines (above ++ middle ++ below)).length
  := by
  have hfew := @length_joinLines (above ++ below) (List.append_ne_nil_of_left_ne_nil h _)
  have hmany := @length_joinLines (above ++ middle ++ below)
    (List.append_ne_nil_of_left_ne_nil (List.append_ne_nil_of_left_ne_nil h _) _)
  simp only [List.map_append, List.sum_append] at hfew hmany
  omega

/-- The lines that are kept are the last ones, and there is no room for one more. -/
theorem keptLines_greedy {maxChars : ℕ} {above : List String} (older kept : List String) :
  ∃ k ≤ older.length, keptLines maxChars above older kept = (older.take k).reverse ++ kept ∧
    (k < older.length →
      maxChars < (joinLines (above ++ ((older.take (k + 1)).reverse ++ kept))).length)
  := by
  induction older generalizing kept with
  | nil => exact ⟨0, le_rfl, rfl, fun h => absurd h (Nat.lt_irrefl 0)⟩
  | cons line older ih =>
      rw [keptLines]
      split
      · rename_i hfull
        exact ⟨0, Nat.zero_le _, rfl, fun _ => by simpa using hfull⟩
      · obtain ⟨k, hk, he, hmax⟩ := ih (line :: kept)
        refine ⟨k + 1, Nat.succ_le_succ hk, ?_, ?_⟩
        · rw [he, List.take_succ_cons, List.reverse_cons, List.append_assoc, List.singleton_append]
        · intro hlt
          have hmax := hmax (Nat.lt_of_succ_lt_succ hlt)
          rwa [List.take_succ_cons, List.reverse_cons, List.append_assoc, List.singleton_append]

/-! ### Receipts -/

/-- The text that shows some last receipts, with a line for older ones if there are any. -/
def ledgerText (receipts retained : List ToolReceipt) : String :=
  joinLines (heading ++ (if retained = receipts then [] else [omission]) ++
    retained.map ToolReceipt.line)

/-- Some last receipts for which there is room. -/
structure Fits (receipts : List ToolReceipt) (maxChars : ℕ) (retained : List ToolReceipt) :
    Prop where
  suffix : retained <:+ receipts
  length : (ledgerText receipts retained).length ≤ maxChars

/-- A text shows the longest list of last receipts for which there is room, and is short enough. -/
structure Retains (receipts : List ToolReceipt) (maxChars : ℕ) (text : String)
    (retained : List ToolReceipt) : Prop where
  length : text.length ≤ maxChars
  longest : ∀ l, Fits receipts maxChars l → l <:+ retained
  shown : (∃ l, Fits receipts maxChars l) →
    Fits receipts maxChars retained ∧ text = ledgerText receipts retained
  nothing : (¬ ∃ l, Fits receipts maxChars l) → retained = []
  whole : Fits receipts maxChars receipts → retained = receipts

variable {receipts : List ToolReceipt} {maxChars : ℕ}

theorem ledgerText_self :
  ledgerText receipts receipts = joinLines (heading ++ receipts.map ToolReceipt.line)
  := by rw [ledgerText, if_pos rfl, List.append_nil]

theorem ledgerText_of_ne {retained : List ToolReceipt} (h : retained ≠ receipts) :
  ledgerText receipts retained =
    joinLines (heading ++ [omission] ++ retained.map ToolReceipt.line)
  := by rw [ledgerText, if_neg h]

/-- Where there is no room for all receipts, there is none for all of them and the line for older
ones. -/
theorem length_all_le :
  (joinLines (heading ++ receipts.map ToolReceipt.line)).length ≤
    (joinLines (heading ++ [omission] ++ receipts.map ToolReceipt.line)).length
  := length_joinLines_le _ (List.cons_ne_nil _ _)

/-- What is left when the lines of the last receipts are kept, and why no longer list of receipts
has room under the line for older ones. -/
theorem exists_kept :
  ∃ k ≤ receipts.length,
    keptLines maxChars (heading ++ [omission]) (receipts.map ToolReceipt.line).reverse [] =
      (receipts.drop (receipts.length - k)).map ToolReceipt.line ∧
    ∀ l, l <:+ receipts →
      (joinLines (heading ++ [omission] ++ l.map ToolReceipt.line)).length ≤ maxChars →
      l <:+ receipts.drop (receipts.length - k)
  := by
  obtain ⟨k, hk, he, hmax⟩ := @keptLines_greedy maxChars (heading ++ [omission])
    (receipts.map ToolReceipt.line).reverse []
  have hlines : ∀ k, ((receipts.map ToolReceipt.line).reverse.take k).reverse ++ [] =
      (receipts.drop (receipts.length - k)).map ToolReceipt.line := by
    intro k
    rw [List.append_nil, List.take_reverse, List.reverse_reverse, List.length_map, List.map_drop]
  rw [List.length_reverse, List.length_map] at hk hmax
  rw [hlines] at he hmax
  refine ⟨k, hk, he, ?_⟩
  intro l hl hfit
  apply List.suffix_of_suffix_length_le hl (List.drop_suffix _ _)
  by_contra hlong
  rw [List.length_drop] at hlong
  have hlength := hl.length_le
  -- one more receipt than those that are kept are among the last ones in `l`
  have hnext : receipts.drop (receipts.length - (k + 1)) <:+ l := by
    apply List.suffix_of_suffix_length_le (List.drop_suffix _ _) hl
    rw [List.length_drop]
    omega
  obtain ⟨older, hl⟩ := hnext
  have hmore := @length_joinLines_le (heading ++ [omission])
    ((receipts.drop (receipts.length - (k + 1))).map ToolReceipt.line)
    (older.map ToolReceipt.line) (List.cons_ne_nil _ _)
  rw [List.append_assoc _ (older.map _), ← List.map_append, hl] at hmore
  have hfull := hmax (by omega)
  omega

/-- Where there is no room for the line for older receipts, the text is cut off. -/
theorem retains_cut {rendered : String} (hmax : 4 ≤ maxChars)
    (hall : ¬ Fits receipts maxChars receipts)
    (habove : maxChars < (joinLines (heading ++ [omission])).length) :
  Retains receipts maxChars (String.ofList (rendered.toList.take (maxChars - 4)) ++ "\n...") []
  := by
  have hnone : ∀ l, ¬ Fits receipts maxChars l := by
    intro l hfit
    by_cases hl : l = receipts
    · exact hall (hl ▸ hfit)
    · have hlength := hfit.length
      rw [ledgerText_of_ne hl] at hlength
      have hle := @length_joinLines_le (heading ++ [omission]) []
        (l.map ToolReceipt.line) (List.cons_ne_nil _ _)
      rw [List.append_nil, List.append_nil] at hle
      omega
  constructor
  · rw [String.length_append, String.length_ofList, List.length_take]
    change _ + 4 ≤ _
    omega
  · exact fun l hfit => absurd hfit (hnone l)
  · rintro ⟨l, hfit⟩
    exact absurd hfit (hnone l)
  · exact fun _ => rfl
  · exact fun hfit => absurd hfit hall

/-- **The ledger retains what its text shows**: for every list of receipts and every number of
characters the text is not longer, and it shows the longest list of last receipts for which there is
room, if there is room for any. -/
theorem retains_renderToolReceipts (hne : receipts ≠ []) (hmax : 4 ≤ maxChars) :
  Retains receipts maxChars (renderToolReceipts receipts maxChars).1
    (renderToolReceipts receipts maxChars).2
  := by
  by_cases hall : (joinLines (heading ++ receipts.map ToolReceipt.line)).length ≤ maxChars
  · have hrender : renderToolReceipts receipts maxChars =
        (joinLines (heading ++ receipts.map ToolReceipt.line), receipts) :=
      renderToolReceipts_of_retain hne (if_pos hall) hall
    have hfits : Fits receipts maxChars receipts :=
      ⟨List.suffix_rfl, by rwa [ledgerText_self]⟩
    rw [hrender]
    exact ⟨hall, fun l hl => hl.suffix, fun _ => ⟨hfits, ledgerText_self.symm⟩,
      fun h => absurd ⟨receipts, hfits⟩ h, fun _ => rfl⟩
  · have hnot : ¬ Fits receipts maxChars receipts := by
      intro hfit
      have hlength := hfit.length
      rw [ledgerText_self] at hlength
      exact hall hlength
    obtain ⟨k, hk, he, hlongest⟩ := @exists_kept receipts maxChars
    have hretain : retain receipts maxChars =
        (heading ++ omission :: (receipts.drop (receipts.length - k)).map ToolReceipt.line,
          receipts.drop (receipts.length - k)) := by
      rw [retain, if_neg hall, he]
      dsimp only
      rw [List.length_map, List.length_drop, Nat.sub_sub_self hk]
    rw [List.append_cons] at hretain
    by_cases habove : (joinLines (heading ++ [omission])).length ≤ maxChars
    · rw [← List.append_nil (heading ++ [omission])] at habove
      obtain ⟨-, -, -, hfit⟩ := keptLines_spec (receipts.map ToolReceipt.line).reverse [] habove
      rw [he] at hfit
      have hproper : receipts.drop (receipts.length - k) ≠ receipts := by
        intro heq
        rw [heq] at hfit
        exact hall (length_all_le.trans hfit)
      have hfits : Fits receipts maxChars (receipts.drop (receipts.length - k)) :=
        ⟨List.drop_suffix _ _, by rwa [ledgerText_of_ne hproper]⟩
      rw [renderToolReceipts_of_retain hne hretain hfit]
      refine ⟨hfit, ?_, fun _ => ⟨hfits, (ledgerText_of_ne hproper).symm⟩,
        fun h => absurd ⟨_, hfits⟩ h, fun h => absurd h hnot⟩
      intro l hl
      have hne : l ≠ receipts := fun heq => hnot (heq ▸ hl)
      apply hlongest l hl.suffix
      rw [← ledgerText_of_ne hne]
      exact hl.length
    · have hlong := @length_joinLines_le (heading ++ [omission]) []
        ((receipts.drop (receipts.length - k)).map ToolReceipt.line) (List.cons_ne_nil _ _)
      rw [List.append_nil, List.append_nil] at hlong
      rw [renderToolReceipts, if_neg hne, hretain]
      dsimp only
      rw [if_pos (by omega)]
      apply retains_cut hmax hnot (Nat.lt_of_not_le habove)

/-- One receipt in a text that is too short for it. -/
theorem retains_renderToolReceipts_cut :
  let r : ToolReceipt := ⟨"r1", "call_1", "sandbox_run", "success", "a", "b", 4, "now"⟩
  Retains [r] 50 (renderToolReceipts [r] 50).1 (renderToolReceipts [r] 50).2
  := retains_renderToolReceipts (List.cons_ne_nil _ _) (by decide)

/-- A text that shows receipts is not empty. -/
theorem ledgerText_ne_empty {retained : List ToolReceipt} :
  ledgerText receipts retained ≠ ""
  := by
  intro hempty
  have hline : "## Tool receipts (execution record)" ∈ heading ++
      (if retained = receipts then [] else [omission]) ++ retained.map ToolReceipt.line := by
    apply List.mem_append_left _ (List.mem_append_left _ List.mem_cons_self)
  have hle := length_le_joinLines hline
  rw [ledgerText] at hempty
  rw [hempty] at hle
  exact absurd hle (by decide)

/-- **What the model is shown of its receipts** is retained by the reply it gives. -/
theorem exists_injectLedger {messages : List Message} (h : extractToolReceipts messages ≠ []) :
  ∃ text snapshot, Retains (extractToolReceipts messages) renderCharBudget text snapshot ∧
    injectLedger messages = (messages.takeWhile Message.isSystem ++
      .human (.str text) :: messages.dropWhile Message.isSystem, snapshot)
  := by
  have hretains := @retains_renderToolReceipts _ renderCharBudget h (by decide)
  have hfits : Fits (extractToolReceipts messages) renderCharBudget [] := by
    refine ⟨List.nil_suffix, ?_⟩
    rw [ledgerText_of_ne h.symm, List.map_nil, List.append_nil]
    exact length_heading_omission
  obtain ⟨-, htext⟩ := hretains.shown ⟨[], hfits⟩
  refine ⟨_, _, hretains, ?_⟩
  have hne : (renderToolReceipts (extractToolReceipts messages) renderCharBudget).1 ≠ "" := by
    rw [htext]
    exact ledgerText_ne_empty
  rw [injectLedger, if_neg h]
  exact if_neg hne

end Agent
