import GitAgent.Agent.BlameDecode

/-!
# The blame of a file with any content

The lines of a file, and the names and summaries of its commits, can have characters at which the
runner cuts a text. It reads the blame of every history right exactly if no line of the file forges
a header after such a character, and no name and no summary is cut.
-/

namespace Agent

variable {iso : IsoText} {describe : String → CommitMeta}

namespace BlameState

variable {p q : BlameState} {shas : List String} {sha : String} {line : List Char}

/-- What has been read after lines of some commits. -/
structure Reads (describe : String → CommitMeta) (shas : List String) (p : BlameState) :
    Prop where
  own : ∀ sha ∈ shas, sha ≠ uncommitted →
    ∃ info, p.commits.get sha = some info ∧ OwnValues (describe sha) info
  fresh : ∀ sha ∉ shas, sha ≠ uncommitted → p.commits.get sha = none
  count : ∀ sha ≠ uncommitted,
    p.linesByCommit.get sha = if sha ∈ shas then some (shas.count sha) else none
  current : ∀ sha, p.current = some sha → sha = uncommitted ∨ sha ∈ shas

theorem Reads.start :
  Reads describe [] {}
  := by
  constructor
  · intro sha hsha
    contradiction
  · intro sha _ _
    apply Dict.get_empty
  · intro sha _
    apply Dict.get_empty
  · intro sha hsha
    contradiction

theorem readLine_header (p : BlameState) (hheader : isHeader line = true) (hkey : lineKey line = sha) :
  p.readLine line =
    { commits := if p.commits.get sha = none then p.commits.set sha .empty else p.commits
      linesByCommit := p.linesByCommit.set sha ((p.linesByCommit.get sha).getD 0 + 1)
      current := some sha }
  := by
  subst hkey
  rw [readLine, if_neg (head?_of_isHeader hheader), if_pos hheader]

/-- After the header of a commit nothing is known of it. -/
theorem noted_header (hnone : p.commits.get sha = none) (hheader : isHeader line = true)
    (hkey : lineKey line = sha) :
  Noted (p.readLine line) (p.readLine line) sha .empty
  := by
  rw [readLine_header p hheader hkey, if_pos hnone]
  constructor
  · rfl
  · rfl
  · intro s
    dsimp only
    rw [Dict.get_set]
    split <;> rfl

/-- Only what is read of lines that are committed counts. -/
theorem Reads.congr (h : Reads describe shas p)
    (hcommits : ∀ sha ≠ uncommitted, q.commits.get sha = p.commits.get sha)
    (hcount : ∀ sha ≠ uncommitted, q.linesByCommit.get sha = p.linesByCommit.get sha)
    (hcurrent : ∀ sha, q.current = some sha → sha = uncommitted ∨ sha ∈ shas) :
  Reads describe shas q
  := by
  constructor
  · intro sha hmem hsha
    rw [hcommits sha hsha]
    apply h.own sha hmem hsha
  · intro sha hmem hsha
    rw [hcommits sha hsha]
    apply h.fresh sha hmem hsha
  · intro sha hsha
    rw [hcount sha hsha]
    apply h.count sha hsha
  · exact hcurrent

/-- What is known of a commit that is described stays when a line is noted. -/
theorem Reads.get_set_noteLine (h : Reads describe shas p) (hcurrent : p.current = some sha)
    (line : List Char) {s : String} (hs : s ≠ uncommitted) :
  (p.commits.set sha (noteLine ((p.commits.get sha).getD .empty) line)).get s = p.commits.get s
  := by
  rw [Dict.get_set]
  split
  · rename_i heq
    subst heq
    rcases h.current s hcurrent with hzero | hmem
    · contradiction
    · obtain ⟨info, hinfo, hown⟩ := h.own s hmem hs
      rw [hinfo, Option.getD_some, hown.noteLine]
  · rfl

/-- A harmless line changes nothing that counts. -/
theorem Reads.harmless (h : Reads describe shas p) (hline : Harmless line) :
  Reads describe shas (p.readLine line)
  := by
  cases hheader : isHeader line with
  | true =>
      rw [readLine_header p hheader (hline hheader)]
      apply h.congr
      · intro sha hsha
        dsimp only
        split
        · rw [Dict.get_set, if_neg hsha]
        · rfl
      · intro sha hsha
        rw [Dict.get_set, if_neg hsha]
      · intro sha hsha
        exact .inl (Option.some.inj hsha).symm
  | false =>
      rw [readLine]
      split
      · exact h
      · rw [if_neg (Bool.eq_false_iff.mp hheader)]
        split
        · exact h
        · rename_i sha hcurrent
          apply h.congr
          · intro s hs
            apply h.get_set_noteLine hcurrent line hs
          · exact fun _ _ => rfl
          · apply h.current

theorem Reads.harmless_all {lines : List (List Char)} (h : Reads describe shas p)
    (hlines : ∀ line ∈ lines, Harmless line) :
  Reads describe shas (lines.foldl readLine p)
  := by
  induction lines generalizing p with
  | nil => exact h
  | cons line lines ih =>
      obtain ⟨hline, hlines⟩ := List.forall_mem_cons.mp hlines
      apply ih (h.harmless hline) hlines

/-- Lines that are not committed do not count. -/
theorem Reads.uncommitted (h : Reads describe shas p) :
  Reads describe (Agent.uncommitted :: shas) p
  := by
  have hmem : ∀ sha ≠ Agent.uncommitted, sha ∈ Agent.uncommitted :: shas ↔ sha ∈ shas := by
    intro sha hsha
    rw [List.mem_cons, or_iff_right hsha]
  constructor
  · intro sha hsha hne
    apply h.own sha ((hmem sha hne).mp hsha) hne
  · intro sha hsha hne
    apply h.fresh sha (fun hs => hsha ((hmem sha hne).mpr hs)) hne
  · intro sha hne
    rw [h.count sha hne, List.count_cons_of_ne hne.symm]
    simp only [hmem sha hne]
  · intro sha hsha
    rcases h.current sha hsha with hzero | hs
    · exact .inl hzero
    · exact .inr (List.mem_cons_of_mem _ hs)

/-- One more line of a commit that is described already. -/
theorem Reads.known (h : Reads describe shas p) (hmem : sha ∈ shas) (hne : sha ≠ Agent.uncommitted)
    (hheader : isHeader line = true) (hkey : lineKey line = sha) :
  Reads describe (sha :: shas) (p.readLine line)
  := by
  obtain ⟨info, hinfo, hown⟩ := h.own sha hmem hne
  rw [readLine_header p hheader hkey, if_neg (by simp [hinfo])]
  constructor
  · intro s hs hs'
    rcases List.mem_cons.mp hs with rfl | hs
    · exact ⟨info, hinfo, hown⟩
    · apply h.own s hs hs'
  · intro s hs hs'
    apply h.fresh s (fun h' => hs (List.mem_cons_of_mem _ h')) hs'
  · intro s hs
    rw [Dict.get_set, h.count s hs, h.count sha hne, if_pos hmem]
    by_cases heq : s = sha
    · subst heq
      simp
    · simp [heq, List.count_cons_of_ne (Ne.symm heq)]
  · intro s hs
    exact .inr (List.mem_cons.mpr (.inl (Option.some.inj hs).symm))

/-- The first line of a commit, which is described there. -/
theorem Reads.described (h : Reads describe shas p) (hmem : sha ∉ shas)
    (hne : sha ≠ Agent.uncommitted) (hheader : isHeader line = true) (hkey : lineKey line = sha)
    (hauthor : Whole (describe sha).author.chars) (hsummary : Whole (describe sha).summary.chars) :
  Reads describe (sha :: shas) ((p.readLine line).readPieces (describe sha).lines)
  := by
  have hread := readLine_header p hheader hkey
  have hnone := h.fresh sha hmem hne
  rw [if_pos hnone] at hread
  obtain ⟨info, hown, hnoted⟩ := (noted_header hnone hheader hkey).described hauthor hsummary
  have hcommits : ∀ s, ((p.readLine line).readPieces (describe sha).lines).commits.get s =
      if s = sha then some info else p.commits.get s := by
    intro s
    rw [hnoted.commits, hread]
    dsimp only
    rw [Dict.get_set]
    split <;> rfl
  constructor
  · intro s hs hs'
    rw [hcommits]
    split
    · rename_i heq
      subst heq
      exact ⟨info, rfl, hown⟩
    · rename_i heq
      apply h.own s ((List.mem_cons.mp hs).resolve_left heq) hs'
  · intro s hs hs'
    rw [hcommits, if_neg (fun heq => hs (List.mem_cons.mpr (.inl heq)))]
    apply h.fresh s (fun h' => hs (List.mem_cons_of_mem _ h')) hs'
  · intro s hs
    rw [hnoted.linesByCommit, hread]
    dsimp only
    rw [Dict.get_set, h.count s hs, h.count sha hne, if_neg hmem]
    by_cases heq : s = sha
    · subst heq
      simp [List.count_eq_zero_of_not_mem hmem]
    · simp [heq, List.count_cons_of_ne (Ne.symm heq)]
  · intro s hs
    rw [hnoted.current] at hs
    exact .inr (List.mem_cons.mpr (.inl (Option.some.inj hs).symm))

theorem readPieces_nil (p : BlameState) :
  p.readPieces [] = p
  := rfl

theorem readPieces_header (p : BlameState) (a : Attribution) (lines : List (List Char)) :
  p.readPieces (a.header :: lines) = (p.readLine a.header).readPieces lines
  := by
  rw [readPieces_cons, pieces_header]
  rfl

theorem Reads.harmless_pieces {lines : List (List Char)} (h : Reads describe shas p)
    (hlines : ∀ line ∈ lines, ∀ piece ∈ Lines.pieces '\r' isLineBreak [] line, Harmless piece) :
  Reads describe shas (p.readPieces lines)
  := by
  apply h.harmless_all
  intro piece hpiece
  obtain ⟨line, hline, hpiece⟩ := List.mem_flatMap.mp hpiece
  apply hlines line hline piece hpiece

end BlameState

/-- No text that is read of some lines forges a header or is cut. -/
structure Unforged (describe : String → CommitMeta) (lines : List (Attribution × OneLine)) :
    Prop where
  code : ∀ l ∈ lines, ¬ Forges l.2.chars
  author : ¬ Forges (describe uncommitted).author.chars
  summary : ¬ Forges (describe uncommitted).summary.chars
  whole : ∀ l ∈ lines, l.1.sha.name ≠ uncommitted →
    Whole (describe l.1.sha.name).author.chars ∧ Whole (describe l.1.sha.name).summary.chars

namespace BlameState

variable {p : BlameState} {shas : List String}

/-- The header of a line and what is said of its commit. -/
theorem Reads.line (h : Reads describe shas p) (a : Attribution)
    (hauthor : ¬ Forges (describe Agent.uncommitted).author.chars)
    (hsummary : ¬ Forges (describe Agent.uncommitted).summary.chars)
    (hwhole : a.sha.name ≠ Agent.uncommitted →
      Whole (describe a.sha.name).author.chars ∧ Whole (describe a.sha.name).summary.chars) :
  Reads describe (a.sha.name :: shas) (p.readPieces (a.header ::
    if a.sha.name ∈ shas then [] else (describe a.sha.name).lines))
  := by
  obtain ⟨hheader, hkey⟩ := isHeader_header a
  rw [readPieces_header]
  by_cases hzero : a.sha.name = Agent.uncommitted
  · rw [hzero] at hkey ⊢
    apply Reads.uncommitted
    apply (h.harmless fun _ => hkey).harmless_pieces
    split
    · exact fun line hline => absurd hline List.not_mem_nil
    · apply CommitMeta.harmless hauthor hsummary
  · by_cases hmem : a.sha.name ∈ shas
    · rw [if_pos hmem, readPieces_nil]
      apply h.known hmem hzero hheader hkey
    · rw [if_neg hmem]
      apply h.described hmem hzero hheader hkey (hwhole hzero).1 (hwhole hzero).2

/-- **What is read of lines** whose texts forge nothing and are not cut. -/
theorem Reads.printed {lines : List (Attribution × OneLine)} (h : Reads describe shas p)
    (hlines : Unforged describe lines) :
  Reads describe ((lines.map fun l => l.1.sha.name).reverse ++ shas)
    (p.readPieces (Agent.printed describe shas lines))
  := by
  induction lines generalizing p shas with
  | nil => exact h
  | cons l lines ih =>
      obtain ⟨hcode, hauthor, hsummary, hwhole⟩ := hlines
      obtain ⟨hcode, hcodes⟩ := List.forall_mem_cons.mp hcode
      obtain ⟨hwhole, hwholes⟩ := List.forall_mem_cons.mp hwhole
      obtain ⟨a, code⟩ := l
      have hline := h.line a hauthor hsummary hwhole
      rw [Agent.printed, readPieces_append, readPieces_cons, List.map_cons, List.reverse_cons,
        List.append_assoc]
      apply ih (hline.harmless_all (harmless_code hcode))
      exact ⟨hcodes, hauthor, hsummary, hwholes⟩

theorem mapM_of_forall {α β : Type} {f : α → Option β} {g : α → β} {as : List α}
    (h : ∀ a ∈ as, f a = some (g a)) :
  as.mapM f = some (as.map g)
  := by
  induction as with
  | nil => rfl
  | cons a as ih =>
      obtain ⟨ha, has⟩ := List.forall_mem_cons.mp h
      rw [List.mapM_cons, ha, ih has]
      rfl

/-- The candidates are the commits of the lines that are committed. -/
theorem Reads.candidates (h : Reads describe shas p) :
  ∃ ranks, p.candidates = some ranks ∧ ∀ x, x ∈ ranks ↔
    ∃ s ∈ shas, s ≠ Agent.uncommitted ∧ rank (shas.count s) (describe s).time s = x
  := by
  have hmem : ∀ s n, (s, n) ∈ p.linesByCommit.items.filter (fun e => e.1 ≠ Agent.uncommitted) ↔
      s ∈ shas ∧ s ≠ Agent.uncommitted ∧ shas.count s = n := by
    intro s n
    rw [List.mem_filter, decide_eq_true_eq]
    constructor
    · rintro ⟨hs, hne⟩
      have hget := Dict.get_of_mem hs
      rw [h.count s hne] at hget
      split at hget
      · rename_i hs
        exact ⟨hs, hne, Option.some.inj hget⟩
      · contradiction
    · rintro ⟨hs, hne, rfl⟩
      constructor
      · apply Dict.mem_of_get
        rw [h.count s hne, if_pos hs]
      · exact hne
  refine ⟨_, mapM_of_forall (g := fun e => rank e.2 (describe e.1).time e.1) ?_, ?_⟩
  · rintro ⟨s, n⟩ hs
    obtain ⟨hs, hne, -⟩ := (hmem s n).mp hs
    obtain ⟨info, hinfo, hown⟩ := h.own s hs hne
    dsimp only
    rw [hinfo, Option.getD_some, hown.authorTime, Option.map_some]
  · intro x
    rw [List.mem_map]
    constructor
    · rintro ⟨⟨s, n⟩, hitem, rfl⟩
      obtain ⟨hs, hne, rfl⟩ := (hmem s n).mp hitem
      exact ⟨s, hs, hne, rfl⟩
    · rintro ⟨s, hs, hne, rfl⟩
      exact ⟨(s, shas.count s), (hmem s _).mpr ⟨hs, hne, rfl⟩, rfl⟩

/-- The blame is the one of the commit that owns most lines. -/
theorem Reads.blame (h : Reads describe shas p)
    (hdated : ∀ s ∈ shas, s ≠ Agent.uncommitted → ((describe s).date iso).isSome) :
  ∃ b, p.blame iso = some b ∧
    (∀ sha, Owns describe shas sha →
      b = (describe sha).blame b.date sha ∧ (describe sha).date iso = some b.date) ∧
    ((∀ s ∈ shas, s = Agent.uncommitted) → b = {})
  := by
  obtain ⟨ranks, hranks, hmem⟩ := h.candidates
  rw [BlameState.blame, hranks, Option.bind_some]
  cases hmax : ranks.max? with
  | none =>
      rw [List.max?_eq_none_iff] at hmax
      refine ⟨{}, rfl, ?_, fun _ => rfl⟩
      rintro sha ⟨⟨hs, hne⟩, -⟩
      have hrank := (hmem _).mpr ⟨sha, hs, hne, rfl⟩
      rw [hmax] at hrank
      contradiction
  | some best =>
      obtain ⟨hbest, hle⟩ := List.max?_eq_some_iff.mp hmax
      obtain ⟨s, hs, hne, rfl⟩ := (hmem best).mp hbest
      obtain ⟨info, hinfo, hown⟩ := h.own s hs hne
      obtain ⟨date, hdate⟩ := Option.isSome_iff_exists.mp (hdated s hs hne)
      have hkeep : keep iso s ((p.commits.get s).getD .empty) =
          some ((describe s).blame date s) := by
        rw [hinfo, Option.getD_some, hown.keep, hdate, Option.map_some]
      refine ⟨_, hkeep, ?_, ?_⟩
      · rintro sha ⟨⟨hsha, hnsha⟩, hsle⟩
        -- The ranks of two commits differ.
        have heq : s = sha := by
          have hrank := le_antisymm (hsle s hs hne) (hle _ ((hmem _).mpr ⟨sha, hsha, hnsha, rfl⟩))
          exact congrArg Rank.sha hrank
        subst heq
        exact ⟨rfl, hdate⟩
      · intro hall
        exact absurd (hall s hs) hne

end BlameState

/-! ### Histories that are read right -/

theorem parseBlameText_porcelainText (iso : IsoText)
    (describe : String → CommitMeta) (lines : List (Attribution × OneLine)) :
  parseBlameText iso (porcelainText describe lines) =
    (({} : BlameState).readPieces (printed describe [] lines)).blame iso
  := by
  rw [BlameState.readPieces, ← splitLines_printed (newline_not_mem_printed describe [] lines),
    List.foldl_map]
  rfl

/-- A history whose texts forge nothing and are not cut is read right, if its commits have dates. -/
theorem decodes_of_unforged {lines : List (Attribution × OneLine)}
    (h : Unforged describe lines) (hdated : ∀ l ∈ lines, l.1.sha.name ≠ uncommitted →
      ((describe l.1.sha.name).date iso).isSome) :
  Decodes iso describe lines
  := by
  have hreads := BlameState.Reads.start.printed h
  rw [List.append_nil] at hreads
  have hshas : ∀ s ∈ (lines.map fun l => l.1.sha.name).reverse, s ≠ uncommitted →
      ((describe s).date iso).isSome := by
    intro s hs
    obtain ⟨l, hl, rfl⟩ := List.mem_map.mp (List.mem_reverse.mp hs)
    apply hdated l hl
  obtain ⟨b, hb, howns, hnone⟩ := hreads.blame hshas
  refine ⟨b, by rw [parseBlameText_porcelainText, hb], ?_, ?_⟩
  · intro sha hsha
    apply howns
    simpa [Owns] using hsha
  · intro hall
    apply hnone
    intro s hs
    obtain ⟨l, hl, rfl⟩ := List.mem_map.mp (List.mem_reverse.mp hs)
    apply hall l hl

/-- Nothing is read of no lines. -/
theorem decodes_nil (iso : IsoText) (describe : String → CommitMeta) :
  Decodes iso describe []
  := by
  refine ⟨{}, rfl, ?_, fun _ => rfl⟩
  rintro sha ⟨⟨hsha, -⟩, -⟩
  contradiction

/-! ### Histories that are not read right -/

namespace BlameState

variable {p : BlameState} {sha key value : String} {line : List Char}

/-- Something is read as a line of a commit. -/
def Counted (p : BlameState) : Prop :=
  ∃ sha ≠ uncommitted, p.linesByCommit.get sha ≠ none

theorem Counted.readLine (h : Counted p) (line : List Char) :
  Counted (p.readLine line)
  := by
  obtain ⟨sha, hne, hsha⟩ := h
  refine ⟨sha, hne, ?_⟩
  rw [BlameState.readLine]
  split
  · exact hsha
  · split
    · dsimp only
      rw [Dict.get_set]
      split
      · exact Option.some_ne_none _
      · exact hsha
    · split <;> exact hsha

theorem Counted.readLines (h : Counted p) (lines : List (List Char)) :
  Counted (lines.foldl BlameState.readLine p)
  := by
  induction lines generalizing p with
  | nil => exact h
  | cons line lines ih => apply ih (h.readLine line)

/-- A header of a commit counts wherever it stands. -/
theorem counted_of_mem {lines : List (List Char)} (hmem : line ∈ lines)
    (hheader : isHeader line = true) (hne : lineKey line ≠ uncommitted) (p : BlameState) :
  Counted (lines.foldl BlameState.readLine p)
  := by
  obtain ⟨before, after, rfl⟩ := List.append_of_mem hmem
  rw [List.foldl_append, List.foldl_cons, readLine_header _ hheader rfl]
  apply Counted.readLines
  refine ⟨lineKey line, hne, ?_⟩
  rw [Dict.get_set, if_pos rfl]
  exact Option.some_ne_none _

theorem nil_of_mapM {α β : Type} {f : α → Option β} {as : List α} (h : as.mapM f = some []) :
  as = []
  := by
  cases as with
  | nil => rfl
  | cons a as =>
      rw [List.mapM_cons] at h
      obtain ⟨b, -, h⟩ := Option.bind_eq_some_iff.mp h
      obtain ⟨bs, -, h⟩ := Option.bind_eq_some_iff.mp h
      exact absurd (Option.some.inj h) (List.cons_ne_nil b bs)

/-- What is kept of a commit. -/
theorem of_keep {info : Dict String String} {b : Blame} (h : keep iso sha info = some b) :
  b.commit = some sha ∧ b.author = (info.get "author").bind orNone ∧
    b.commitMessage = (info.get "summary").bind orNone
  := by
  rw [keep] at h
  obtain ⟨date, -, rfl⟩ := Option.map_eq_some_iff.mp h
  exact ⟨rfl, rfl, rfl⟩

/-- If something is counted, the blame of a commit is read, if any. -/
theorem Counted.blame (h : Counted p) {b : Blame} (hb : p.blame iso = some b) :
  b ≠ {}
  := by
  obtain ⟨sha, hne, hsha⟩ := h
  obtain ⟨n, hn⟩ := Option.ne_none_iff_exists'.mp hsha
  rw [BlameState.blame] at hb
  obtain ⟨ranks, hranks, hb⟩ := Option.bind_eq_some_iff.mp hb
  split at hb
  · rename_i hmax
    rw [List.max?_eq_none_iff] at hmax
    rw [hmax] at hranks
    have hmem : (sha, n) ∈ p.linesByCommit.items.filter fun e => e.1 ≠ uncommitted := by
      rw [List.mem_filter, decide_eq_true_eq]
      exact ⟨Dict.mem_of_get hn, hne⟩
    exact absurd (nil_of_mapM hranks) (List.ne_nil_of_mem hmem)
  · rintro rfl
    have hcommit := (of_keep hb).1
    contradiction

/-- A value of a commit is kept. -/
def Kept (sha key value : String) (p : BlameState) : Prop :=
  ∃ info, p.commits.get sha = some info ∧ info.get key = some value

theorem Kept.readLine (h : Kept sha key value p) (line : List Char) :
  Kept sha key value (p.readLine line)
  := by
  obtain ⟨info, hinfo, hvalue⟩ := h
  rw [BlameState.readLine]
  split
  · exact ⟨info, hinfo, hvalue⟩
  · split
    · refine ⟨info, ?_, hvalue⟩
      dsimp only
      split
      · rename_i hnone
        rw [Dict.get_set, if_neg, hinfo]
        rintro rfl
        rw [hinfo] at hnone
        contradiction
      · exact hinfo
    · split
      · exact ⟨info, hinfo, hvalue⟩
      · rename_i s _
        by_cases hs : sha = s
        · subst hs
          refine ⟨noteLine info line, ?_, ?_⟩
          · dsimp only
            rw [Dict.get_set, if_pos rfl, hinfo, Option.getD_some]
          · rw [noteLine]
            split
            · rename_i hkey
              rw [Dict.get_set, if_neg, hvalue]
              rintro rfl
              rw [hvalue] at hkey
              exact absurd hkey.2 (Option.some_ne_none _)
            · exact hvalue
        · refine ⟨info, ?_, hvalue⟩
          dsimp only
          rw [Dict.get_set, if_neg hs, hinfo]

theorem Kept.readLines (h : Kept sha key value p) (lines : List (List Char)) :
  Kept sha key value (lines.foldl BlameState.readLine p)
  := by
  induction lines generalizing p with
  | nil => exact h
  | cons line lines ih => apply ih (h.readLine line)

/-- The first value of a key of a commit is what comes before the first line break. -/
theorem Noted.kept {q : BlameState} {info : Dict String String} (h : Noted p q sha info)
    (hkey : key ∈ blameKeys) (hnone : info.get key = none) (value : List Char)
    (lines : List (List Char)) :
  Kept sha key (strip (String.ofList (Lines.first isLineBreak value)))
    (q.readPieces (Agent.keyLine key value :: lines))
  := by
  have hnoted := h.first hkey hnone value
  rw [readPieces_cons, pieces_keyLine (keyWord_of_mem hkey), List.foldl_cons]
  apply Kept.readLines
  apply Kept.readLines
  refine ⟨info.set key (strip (String.ofList (Lines.first isLineBreak value))), ?_, ?_⟩
  · rw [hnoted.commits, if_pos rfl]
  · rw [Dict.get_set, if_pos rfl]

/-- The blame of a commit has the values that are kept. -/
theorem Kept.blame (h : Kept sha key value p) {b : Blame} (hb : p.blame iso = some b)
    (hcommit : b.commit = some sha) :
  ∃ info, info.get key = some value ∧ keep iso sha info = some b
  := by
  obtain ⟨info, hinfo, hvalue⟩ := h
  rw [BlameState.blame] at hb
  obtain ⟨ranks, -, hb⟩ := Option.bind_eq_some_iff.mp hb
  split at hb
  · obtain rfl := Option.some.inj hb
    contradiction
  · rename_i best _
    have hbest : best.sha = sha := by
      rw [(of_keep hb).1] at hcommit
      exact Option.some.inj hcommit
    rw [hbest, hinfo, Option.getD_some] at hb
    exact ⟨info, hvalue, hb⟩

end BlameState

/-- The hash of lines that are not committed. -/
def zeroSha : Sha where
  name := uncommitted
  length := by decide
  hex := by decide

/-- Lines of a file that are all of one commit. -/
def linesOf (sha : Sha) (codes : List OneLine) : List (Attribution × OneLine) :=
  (codes.map fun _ => ⟨sha, 1, 1, none⟩).zip codes

theorem linesOf_cons (sha : Sha) (code : OneLine) (codes : List OneLine) :
  linesOf sha (code :: codes) = (⟨sha, 1, 1, none⟩, code) :: linesOf sha codes
  := rfl

theorem mem_linesOf {sha : Sha} {codes : List OneLine} {l : Attribution × OneLine}
    (h : l ∈ linesOf sha codes) :
  l.1.sha = sha
  := by
  obtain ⟨code, -, hl⟩ := List.mem_map.mp (List.of_mem_zip h).1
  rw [← hl]

theorem mem_printed_linesOf {sha : Sha} {code : OneLine} {codes : List OneLine}
    (h : code ∈ codes) (shown : List String) :
  '\t' :: code.chars ∈ printed describe shown (linesOf sha codes)
  := by
  induction codes generalizing shown with
  | nil => contradiction
  | cons c codes ih =>
      rw [linesOf_cons, printed, List.mem_append, List.mem_cons, List.mem_cons]
      rcases List.mem_cons.mp h with rfl | h
      · exact .inr (.inl rfl)
      · exact .inr (.inr (ih h _))

/-- If lines that are not committed are read right, no line of the text is the header of a commit. -/
theorem harmless_of_decodes {codes : List OneLine}
    (h : Decodes iso describe (linesOf zeroSha codes)) :
  ∀ line ∈ printed describe [] (linesOf zeroSha codes),
    ∀ piece ∈ Lines.pieces '\r' isLineBreak [] line, Harmless piece
  := by
  obtain ⟨b, hb, -, hnone⟩ := h
  have hempty : b = {} := by
    apply hnone
    intro l hl
    rw [mem_linesOf hl]
    rfl
  intro line hline piece hpiece hheader
  by_contra hne
  rw [parseBlameText_porcelainText] at hb
  have hcounted := BlameState.counted_of_mem (List.mem_flatMap.mpr ⟨line, hline, hpiece⟩) hheader
    hne {}
  exact hcounted.blame hb hempty

theorem not_forges_of_keyLine {key : String} (hkey : KeyWord key) {value : List Char}
    (h : ∀ piece ∈ Lines.pieces '\r' isLineBreak [] (keyLine key value), Harmless piece) :
  ¬ Forges value
  := by
  rw [pieces_keyLine hkey, List.forall_mem_cons] at h
  apply not_forges_iff.mpr h.2

theorem not_forges_of_code {code : List Char}
    (h : ∀ piece ∈ Lines.pieces '\r' isLineBreak [] ('\t' :: code), Harmless piece) :
  ¬ Forges code
  := by
  rw [← List.singleton_append, Lines.pieces_append (plain_of_any rfl), List.forall_mem_cons] at h
  apply not_forges_iff.mpr h.2

theorem orNone_inj {s t : String} (h : orNone s = orNone t) :
  s = t
  := by
  rw [orNone, orNone] at h
  split at h <;> split at h
  · rename_i hs ht
    rw [hs, ht]
  · contradiction
  · contradiction
  · apply Option.some.inj h

/-- If the lines of a commit are read right, its texts are not cut. -/
theorem whole_of_decodes {codes : List OneLine} {sha : Sha} (hne : codes ≠ [])
    (hsha : sha.name ≠ uncommitted) (h : Decodes iso describe (linesOf sha codes)) :
  (Whole (describe sha.name).author.chars ∧ Whole (describe sha.name).summary.chars) ∧
    ((describe sha.name).date iso).isSome
  := by
  obtain ⟨code, codes, rfl⟩ := List.exists_cons_of_ne_nil hne
  obtain ⟨b, hb, howns, -⟩ := h
  have howned : Owns describe ((linesOf sha (code :: codes)).map fun l => l.1.sha.name) sha.name := by
    have hall : ∀ s ∈ (linesOf sha (code :: codes)).map (fun l => l.1.sha.name), s = sha.name := by
      intro s hs
      obtain ⟨l, hl, rfl⟩ := List.mem_map.mp hs
      rw [mem_linesOf hl]
    refine ⟨⟨List.mem_cons_self, hsha⟩, ?_⟩
    intro s hs _
    rw [hall s hs]
  obtain ⟨hblame, hdate⟩ := howns _ howned
  have hcommit : b.commit = some sha.name := by rw [hblame, CommitMeta.blame]
  have hauthor : b.author = orNone (strip (String.ofList (describe sha.name).author.chars)) := by
    rw [hblame, CommitMeta.blame]
  have hsummary : b.commitMessage =
      orNone (strip (String.ofList (describe sha.name).summary.chars)) := by
    rw [hblame, CommitMeta.blame]
  rw [parseBlameText_porcelainText, linesOf_cons, printed, if_neg List.not_mem_nil,
    List.cons_append, BlameState.readPieces_header, BlameState.lines_eq] at hb
  obtain ⟨hheader, hkey⟩ := isHeader_header ⟨sha, 1, 1, none⟩
  have hnoted := BlameState.noted_header (p := {}) (Dict.get_empty _) hheader hkey
  have hwhole : Whole (describe sha.name).author.chars := by
    have hkept := hnoted.kept (show "author" ∈ blameKeys by decide) (Dict.get_empty _)
      (describe sha.name).author.chars
    rw [BlameState.begin, List.append_assoc, List.append_assoc, List.singleton_append] at hb
    obtain ⟨info, hinfo, hkeep⟩ := (hkept _).blame hb hcommit
    rw [(BlameState.of_keep hkeep).2.1, hinfo, Option.bind_some] at hauthor
    exact orNone_inj hauthor
  refine ⟨⟨hwhole, ?_⟩, by rw [hdate]; rfl⟩
  obtain ⟨info, hnone, -, hbegin⟩ := hnoted.begin hwhole
  rw [List.append_assoc, BlameState.readPieces_append] at hb
  have hkept := hbegin.kept (show "summary" ∈ blameKeys by decide) hnone (describe sha.name).summary.chars
  obtain ⟨info, hinfo, hkeep⟩ := (hkept _).blame hb hcommit
  rw [(BlameState.of_keep hkeep).2.2, hinfo, Option.bind_some] at hsummary
  exact orNone_inj hsummary

/-- What is said of a commit. -/
def sampleMeta : CommitMeta where
  author := ⟨"Ann".toList, by decide⟩
  mail := ⟨"<ann@example.com>".toList, plain_of_any (by decide)⟩
  time := 1700000000
  tz := ⟨"+0200".toList, plain_of_any (by decide)⟩
  summary := ⟨"Add it".toList, by decide⟩
  time_lt := by decide

/-- The commit of a line. -/
def sampleSha : Sha where
  name := "1111111111111111111111111111111111111111"
  length := by decide
  hex := by decide

/-- A line of a file with form feeds, after which headers of another commit seem to stand. -/
def forgedCode : OneLine where
  chars := ("x\x0c2222222222222222222222222222222222222222 1 1" ++
    "\x0c2222222222222222222222222222222222222222 1 1").toList
  one := by decide

end Agent
