import GitAgent.Agent.BlameText

/-!
# The lines of a blame

What is read of a line that is printed: of a header, of the lines that describe a commit, and of
the pieces into which a line is cut.
-/

namespace Agent

variable {iso : IsoText} {describe : String → CommitMeta}

/-! ### The lines of the text -/

theorem linesFrom_eq (line cs : List Char) :
  linesFrom line cs = (Lines.cut '\r' '\n' isLineBreak line.reverse cs).map String.ofList
  := by
  fun_induction linesFrom line cs with
  | case1 => rfl
  | case2 line h => 
      rw [Lines.cut, if_neg (by simpa using h)]
      rfl
  | case3 line cs ih =>
      rw [Lines.cut, if_pos (by decide), if_pos ⟨rfl, rfl⟩, List.map_cons, ih]
      rfl
  | case4 line c cs h hb ih =>
      rw [ih]
      cases cs with
      | nil => simp [Lines.cut, hb]
      | cons b cs =>
          rw [Lines.cut, if_pos hb, if_neg fun hcb => h cs hcb.1 (by rw [hcb.2])]
          rfl
  | case5 line c cs h hb ih =>
      rw [ih, List.reverse_cons]
      cases cs with
      | nil =>
          rw [Lines.cut, Lines.cut, if_neg hb, if_neg (by simp)]
      | cons b cs => rw [Lines.cut, if_neg hb]

/-- The lines that are read are the pieces of the lines that are printed. -/
theorem splitLines_printed {lines : List (List Char)} (h : ∀ line ∈ lines, '\n' ∉ line) :
  (splitLines (String.ofList (lines.flatMap fun line => line ++ ['\n']))).map String.toList =
    lines.flatMap (Lines.pieces '\r' isLineBreak [])
  := by
  rw [splitLines, String.toList_ofList, linesFrom_eq, List.map_map, List.reverse_nil,
    ← Lines.splitlines_flatMap (by decide) (by decide) h, Lines.splitlines]
  have hid : String.toList ∘ String.ofList = id := by
    funext cs
    apply String.toList_ofList
  rw [hid, List.map_id]

/-! ### Headers -/

theorem head?_splitOn (line : List Char) :
  (line.splitOn ' ').head? = some (line.takeWhile (· ≠ ' '))
  := by
  induction line with
  | nil => rfl
  | cons c line ih =>
      rw [List.splitOn_cons_eq_if_modifyHead, List.takeWhile_cons]
      by_cases hc : c = ' '
      · rw [if_pos (by simpa using hc), if_neg (by simpa using hc)]
        rfl
      · obtain ⟨word, words, hwords⟩ := List.exists_cons_of_ne_nil (List.splitOn_ne_nil ' ' line)
        rw [hwords, List.head?_cons] at ih
        rw [if_neg (by simpa using hc), if_pos (by simpa using hc), hwords, List.modifyHead_cons,
          List.head?_cons, Option.some.inj ih]

/-- A header begins with forty digits of a hash. -/
theorem lineKey_of_isHeader {line : List Char} (h : isHeader line = true) :
  (lineKey line).toList.length = 40 ∧ (lineKey line).toList.all isHexDigit = true
  := by
  have hhead := head?_splitOn line
  rw [isHeader] at h
  split at h
  · rename_i sha orig final rest hsplit
    rw [hsplit, List.head?_cons] at hhead
    simp only [Bool.and_eq_true, decide_eq_true_eq] at h
    rw [lineKey, String.toList_ofList, ← Option.some.inj hhead]
    exact h.1.1
  · contradiction

theorem lineKey_keyLine {key : String} (hblank : ' ' ∉ key.toList) (value : List Char) :
  lineKey (keyLine key value) = key
  := by
  rw [lineKey, keyLine, List.takeWhile_append_of_pos, List.takeWhile_cons_of_neg (by simp),
    List.append_nil, String.ofList_toList]
  intro c hc
  rw [decide_eq_true_eq]
  rintro rfl
  apply hblank hc

theorem lineValue_keyLine {key : String} (hblank : ' ' ∉ key.toList) (value : List Char) :
  lineValue (keyLine key value) = strip (String.ofList value)
  := by
  rw [lineValue, keyLine, List.dropWhile_append_of_pos, List.dropWhile_cons_of_neg (by simp),
    List.drop_one, List.tail_cons]
  intro c hc
  rw [decide_eq_true_eq]
  rintro rfl
  apply hblank hc

/-- A line that begins with a word that is no hash is no header. -/
theorem not_isHeader_of_length {line : List Char} (h : (lineKey line).toList.length ≠ 40) :
  isHeader line = false
  := by
  rw [Bool.eq_false_iff]
  intro hheader
  exact h (lineKey_of_isHeader hheader).1

theorem isDigits_toDigits (n : ℕ) :
  isDigits (Nat.toDigits 10 n) = true ∧ ' ' ∉ Nat.toDigits 10 n
  := by
  have hdigit : ∀ c ∈ Nat.toDigits 10 n, c.isDigit = true :=
    fun c hc => Decimal.isDigit_of_mem hc
  constructor
  · rw [isDigits, Bool.and_eq_true, List.all_eq_true]
    constructor
    · simp
    · intro c hc
      rw [digit?_of_isDigit (hdigit c hc)]
      rfl
  · intro h
    have := hdigit ' ' h
    contradiction

theorem blank_not_mem_sha (sha : Sha) :
  ' ' ∉ sha.name.toList
  := by
  intro h
  have := List.all_eq_true.mp sha.hex ' ' h
  contradiction

/-- What is printed as a header is one. -/
theorem isHeader_header (a : Attribution) :
  isHeader a.header = true ∧ lineKey a.header = a.sha.name
  := by
  have hparts : ∀ word ∈ [a.sha.name.toList, Nat.toDigits 10 a.orig, Nat.toDigits 10 a.final] ++
      a.group.toList.map (Nat.toDigits 10), ' ' ∉ word := by
    intro word hword
    rcases List.mem_append.mp hword with hword | hword
    · simp only [List.mem_cons, List.not_mem_nil, or_false] at hword
      rcases hword with rfl | rfl | rfl
      · apply blank_not_mem_sha
      · apply (isDigits_toDigits _).2
      · apply (isDigits_toDigits _).2
    · obtain ⟨n, -, rfl⟩ := List.mem_map.mp hword
      apply (isDigits_toDigits n).2
  have hsplit : a.header.splitOn ' ' = [a.sha.name.toList, Nat.toDigits 10 a.orig,
      Nat.toDigits 10 a.final] ++ a.group.toList.map (Nat.toDigits 10) :=
    List.splitOn_intercalate ' ' hparts (by simp)
  constructor
  · rw [isHeader, hsplit]
    simp [a.sha.length, a.sha.hex, (isDigits_toDigits _).1]
  · have hhead := head?_splitOn a.header
    rw [hsplit] at hhead
    rw [lineKey, ← Option.some.inj hhead, String.ofList_toList]

/-! ### What is read of a commit -/

/-- The values that are read of a commit are its own. -/
def OwnValues (m : CommitMeta) (info : Dict String String) : Prop :=
  info.get "author" = some (strip (String.ofList m.author.chars)) ∧
    info.get "author-mail" = some (strip (String.ofList m.mail.chars)) ∧
    info.get "author-time" = some (strip (String.ofList (intText m.time))) ∧
    info.get "author-tz" = some (strip (String.ofList m.tz.chars)) ∧
    info.get "summary" = some (strip (String.ofList m.summary.chars))

/-- Once the values of a commit are read, no line changes them. -/
theorem OwnValues.noteLine {m : CommitMeta} {info : Dict String String} (h : OwnValues m info)
    (line : List Char) :
  noteLine info line = info
  := by
  obtain ⟨h₁, h₂, h₃, h₄, h₅⟩ := h
  rw [Agent.noteLine, if_neg]
  rintro ⟨hkey, hnone⟩
  simp only [blameKeys, List.mem_cons, List.not_mem_nil, or_false] at hkey
  rcases hkey with hkey | hkey | hkey | hkey | hkey <;> rw [hkey] at hnone
  · rw [h₁] at hnone
    contradiction
  · rw [h₂] at hnone
    contradiction
  · rw [h₃] at hnone
    contradiction
  · rw [h₄] at hnone
    contradiction
  · rw [h₅] at hnone
    contradiction

/-- A line that is a key and its value. -/
theorem noteLine_keyLine {key : String} (hblank : ' ' ∉ key.toList) (info : Dict String String)
    (value : List Char) :
  noteLine info (keyLine key value) =
    if key ∈ blameKeys ∧ info.get key = none then info.set key (strip (String.ofList value)) else info
  := by rw [noteLine, lineKey_keyLine hblank, lineValue_keyLine hblank]

/-- A line of blanks. -/
def Blank (line : List Char) : Prop :=
  ∀ c ∈ line, isSpace c = true

theorem Blank.noteLine {line : List Char} (h : Blank line) (info : Dict String String) :
  noteLine info line = info
  := by
  have hkey : Blank (lineKey line).toList := by
    intro c hc
    rw [lineKey, String.toList_ofList] at hc
    apply h c (List.takeWhile_subset _ hc)
  rw [Agent.noteLine, if_neg]
  rintro ⟨hmem, -⟩
  simp only [blameKeys, List.mem_cons, List.not_mem_nil, or_false] at hmem
  rcases hmem with hmem | hmem | hmem | hmem | hmem <;> rw [hmem] at hkey <;>
    exact absurd (hkey _ List.mem_cons_self) (by decide)

theorem solid_of_isHexDigit {c : Char} (h : isHexDigit c = true) :
  isSpace c = false ∧ isLineBreak c = false
  := by
  simp only [isHexDigit, Bool.or_eq_true, Bool.and_eq_true, decide_eq_true_eq] at h
  simp only [isSpace, isLineBreak, Bool.or_eq_false_iff, Bool.and_eq_false_iff,
    decide_eq_false_iff_not]
  simp only [Char.le_def, UInt32.le_iff_toNat_le, Char.ext_iff, ← UInt32.toNat_inj] at h ⊢
  simp at h ⊢
  omega

/-- A header does not begin with a tab. -/
theorem head?_of_isHeader {line : List Char} (h : isHeader line = true) :
  line.head? ≠ some '\t'
  := by
  intro htab
  obtain ⟨-, hhex⟩ := lineKey_of_isHeader h
  cases line with
  | nil => contradiction
  | cons c line =>
      obtain rfl := Option.some.inj htab
      rw [lineKey, String.toList_ofList, List.takeWhile_cons_of_pos (by decide)] at hhex
      contradiction

/-- A line of blanks is no header. -/
theorem Blank.not_isHeader {line : List Char} (h : Blank line) :
  isHeader line = false
  := by
  rw [Bool.eq_false_iff]
  intro hheader
  obtain ⟨hlength, hhex⟩ := lineKey_of_isHeader hheader
  obtain ⟨c, cs, hcs⟩ := List.exists_cons_of_length_pos (l := (lineKey line).toList) (by omega)
  have hmem : c ∈ (lineKey line).toList := by
    rw [hcs]
    apply List.mem_cons_self
  have hc : isHexDigit c = true := List.all_eq_true.mp hhex c hmem
  have hspace : isSpace c = true := by
    rw [lineKey, String.toList_ofList] at hmem
    apply h c (List.takeWhile_subset _ hmem)
  have hnone : isSpace c = false := (solid_of_isHexDigit hc).1
  rw [hspace] at hnone
  contradiction

/-- What comes after the first line break of a whole text is blank. -/
theorem Whole.blank {text : List Char} (h : Whole text) :
  ∀ piece ∈ Lines.rest '\r' isLineBreak text, Blank piece
  := by
  intro piece hpiece c hc
  obtain ⟨b, after, htext, hb, hafter⟩ := Lines.exists_of_mem_rest hpiece
  have hsolid := congrArg String.toList h
  rw [strip, strip, String.toList_ofList, String.toList_ofList, String.toList_ofList,
    String.toList_ofList] at hsolid
  have hfilter : (Lines.first isLineBreak text).filter (!isSpace ·) =
      text.filter (!isSpace ·) := by
    rw [← Trim.filter_trim, ← Trim.filter_trim text]
    apply congrArg (List.filter _) hsolid
  have hsplit : text.filter (!isSpace ·) = (Lines.first isLineBreak text).filter (!isSpace ·) ++
      (b :: after).filter (!isSpace ·) := by rw [← List.filter_append, ← htext]
  have hlength := congrArg List.length (hfilter.trans hsplit)
  rw [List.length_append, List.filter_cons] at hlength
  by_contra hspace
  have hmem : c ∈ List.filter (!isSpace ·) after := by
    rw [List.mem_filter]
    exact ⟨hafter c hc, by simpa using hspace⟩
  have hpos := List.length_pos_of_mem hmem
  split at hlength
  · rw [List.length_cons] at hlength
    omega
  · omega

/-! ### Keys -/

/-- A word that begins a line which is no header and no line of the file. -/
structure KeyWord (key : String) : Prop where
  blank : ' ' ∉ key.toList
  length : key.toList.length ≠ 40
  tab : key.toList.head? ≠ some '\t'
  nonempty : key.toList ≠ []
  plain : ∀ c ∈ key.toList, isLineBreak c = false

theorem OtherKey.keyWord (key : OtherKey) :
  KeyWord key.name ∧ key.name ∉ blameKeys
  := by
  cases key <;>
    exact ⟨⟨by decide, by decide, by decide, by decide, plain_of_any (by decide)⟩, by decide⟩

theorem keyWord_of_mem {key : String} (h : key ∈ blameKeys) :
  KeyWord key
  := by
  simp only [blameKeys, List.mem_cons, List.not_mem_nil, or_false] at h
  rcases h with rfl | rfl | rfl | rfl | rfl <;>
    exact ⟨by decide, by decide, by decide, by decide, plain_of_any (by decide)⟩

theorem PlainText.whole (text : PlainText) :
  Whole text.chars
  := by rw [Whole, Lines.first_of_forall text.plain]

/-- Only the first piece of a line with a key has the key. -/
theorem pieces_keyLine {key : String} (h : KeyWord key) (value : List Char) :
  Lines.pieces '\r' isLineBreak [] (keyLine key value) =
    keyLine key (Lines.first isLineBreak value) :: Lines.rest '\r' isLineBreak value
  := by
  have hbegin : ∀ c ∈ key.toList ++ [' '], isLineBreak c = false := by
    intro c hc
    rcases List.mem_append.mp hc with hc | hc
    · apply h.plain c hc
    · rw [List.mem_singleton.mp hc]
      decide
  have hpieces : Lines.pieces '\r' isLineBreak [] _ = _ := Lines.pieces_append hbegin value
  rwa [List.append_assoc, List.append_assoc, List.singleton_append, List.singleton_append]
    at hpieces

theorem isHeader_keyLine {key : String} (h : KeyWord key) (value : List Char) :
  isHeader (keyLine key value) = false
  := by
  apply not_isHeader_of_length
  rw [lineKey_keyLine h.blank]
  apply h.length

theorem head?_keyLine {key : String} (h : KeyWord key) (value : List Char) :
  (keyLine key value).head? ≠ some '\t'
  := by
  rw [keyLine, List.head?_append_of_ne_nil _ h.nonempty]
  apply h.tab

/-! ### Times -/

/-- The time of a commit is read from its own values. -/
theorem OwnValues.authorTime {m : CommitMeta} {info : Dict String String} (h : OwnValues m info) :
  BlameState.authorTime info = some m.time
  := by
  have hne : String.ofList (intText m.time) ≠ "" := by
    intro hempty
    have hempty := congrArg String.toList hempty
    rw [String.toList_ofList, intText] at hempty
    split at hempty
    · contradiction
    · exact Nat.toDigits_ne_nil hempty
  rw [BlameState.authorTime, h.2.2.1, strip_intText]
  split
  · contradiction
  · rename_i heq
    exact absurd (Option.some.inj heq) hne
  · rename_i heq
    have hdigits : (Nat.toDigits 10 m.time.natAbs).length ≤ 20 := by
      have hlt := m.time_lt
      exact (Nat.length_toDigits_le_iff (by decide) (by decide)).mpr (by omega)
    rw [← Option.some.inj heq, parseInt_intText (by omega)]

/-- What is kept of a commit whose own values are read is its blame. -/
theorem OwnValues.keep {m : CommitMeta} {info : Dict String String} (h : OwnValues m info)
    (iso : IsoText) (sha : String) :
  BlameState.keep iso sha info = (m.date iso).map fun date => m.blame date sha
  := by
  obtain ⟨h₁, h₂, h₃, h₄, h₅⟩ := h
  rw [BlameState.keep, h₁, h₂, h₃, h₄, h₅]
  simp only [Option.getD_some, Option.bind_some, CommitMeta.date, CommitMeta.blame]

/-! ### Pieces of what is printed -/

/-- What holds of every line that describes a commit. -/
theorem CommitMeta.forall_mem_lines {m : CommitMeta} {P : List Char → Prop}
    (hauthor : P (keyLine "author" m.author.chars))
    (hsummary : P (keyLine "summary" m.summary.chars)) (hboundary : P "boundary".toList)
    (hplain : ∀ key (value : List Char), KeyWord key → (∀ c ∈ value, isLineBreak c = false) →
      P (keyLine key value)) :
  ∀ line ∈ m.lines, P line
  := by
  have hothers : ∀ fields : List (OtherKey × PlainText),
      ∀ line ∈ fields.map (fun f => keyLine f.1.name f.2.chars), P line := by
    intro fields line hline
    obtain ⟨f, -, rfl⟩ := List.mem_map.mp hline
    apply hplain _ _ f.1.keyWord.1 f.2.plain
  intro line hline
  simp only [CommitMeta.lines, List.mem_append, List.mem_cons, List.not_mem_nil, or_false] at hline
  rcases hline with (((hline | hline) | rfl) | hline) | hline
  · rcases hline with rfl | rfl | rfl | rfl
    · exact hauthor
    · apply hplain _ _ (keyWord_of_mem (by decide)) m.mail.plain
    · apply hplain _ _ (keyWord_of_mem (by decide)) fun c hc => (intText_solid _ c hc).2
    · apply hplain _ _ (keyWord_of_mem (by decide)) m.tz.plain
  · apply hothers _ line hline
  · exact hsummary
  · split at hline
    · rw [List.mem_singleton.mp hline]
      exact hboundary
    · contradiction
  · apply hothers _ line hline

/-- What holds of the blank and of every character of some words. -/
theorem forall_mem_intercalate {P : Char → Prop} (hblank : P ' ') {words : List (List Char)}
    (h : ∀ word ∈ words, ∀ c ∈ word, P c) :
  ∀ c ∈ [' '].intercalate words, P c
  := by
  induction words with
  | nil => rintro c ⟨⟩
  | cons word words ih =>
      obtain ⟨hword, hwords⟩ := List.forall_mem_cons.mp h
      by_cases hne : words = []
      · rwa [hne, List.intercalate_singleton]
      · intro c hc
        rw [List.intercalate_cons_of_ne_nil hne, List.append_assoc, List.mem_append,
          List.singleton_append, List.mem_cons] at hc
        rcases hc with hc | rfl | hc
        · apply hword c hc
        · apply hblank
        · apply ih hwords c hc

theorem Attribution.header_plain (a : Attribution) :
  ∀ c ∈ a.header, isLineBreak c = false
  := by
  apply forall_mem_intercalate (P := fun c => isLineBreak c = false) (by decide)
  intro word hword c hc
  rcases List.mem_append.mp hword with hword | hword
  · simp only [List.mem_cons, List.not_mem_nil, or_false] at hword
    rcases hword with rfl | rfl | rfl
    · apply (solid_of_isHexDigit (List.all_eq_true.mp a.sha.hex c hc)).2
    · apply (solid_of_isDigit (Decimal.isDigit_of_mem hc)).2
    · apply (solid_of_isDigit (Decimal.isDigit_of_mem hc)).2
  · obtain ⟨n, -, rfl⟩ := List.mem_map.mp hword
    apply (solid_of_isDigit (Decimal.isDigit_of_mem hc)).2

/-- A header is read as it is printed. -/
theorem pieces_header (a : Attribution) :
  Lines.pieces '\r' isLineBreak [] a.header = [a.header]
  := by
  rw [Lines.pieces_eq_cons, Lines.first_of_forall a.header_plain,
    Lines.rest_of_forall a.header_plain]
  rfl

/-- A line that is at most the header of lines that are not committed. -/
def Harmless (line : List Char) : Prop :=
  isHeader line = true → lineKey line = uncommitted

theorem not_forges_iff {text : List Char} :
  ¬ Forges text ↔ ∀ piece ∈ Lines.rest '\r' isLineBreak text, Harmless piece
  := by
  simp only [Forges, Harmless, not_exists, not_and, not_not]

/-- The pieces of a line with a key are harmless if its value forges nothing. -/
theorem harmless_keyLine {key : String} (hkey : KeyWord key) {value : List Char}
    (hvalue : ¬ Forges value) :
  ∀ piece ∈ Lines.pieces '\r' isLineBreak [] (keyLine key value), Harmless piece
  := by
  rw [pieces_keyLine hkey, List.forall_mem_cons]
  constructor
  · intro hheader
    rw [isHeader_keyLine hkey] at hheader
    contradiction
  · apply not_forges_iff.mp hvalue

/-- The pieces of a line of a file are harmless if it forges nothing. -/
theorem harmless_code {code : List Char} (h : ¬ Forges code) :
  ∀ piece ∈ Lines.pieces '\r' isLineBreak [] ('\t' :: code), Harmless piece
  := by
  rw [← List.singleton_append, Lines.pieces_append (plain_of_any rfl), List.forall_mem_cons]
  constructor
  · intro hheader
    exact absurd rfl (head?_of_isHeader hheader)
  · apply not_forges_iff.mp h

/-- The pieces of what is said of a commit are harmless if its texts forge nothing. -/
theorem CommitMeta.harmless {m : CommitMeta} (hauthor : ¬ Forges m.author.chars)
    (hsummary : ¬ Forges m.summary.chars) :
  ∀ line ∈ m.lines, ∀ piece ∈ Lines.pieces '\r' isLineBreak [] line, Harmless piece
  := by
  apply CommitMeta.forall_mem_lines
  · apply harmless_keyLine (keyWord_of_mem (by decide)) hauthor
  · apply harmless_keyLine (keyWord_of_mem (by decide)) hsummary
  · have hpieces : Lines.pieces '\r' isLineBreak [] "boundary".toList = ["boundary".toList] := by
      decide
    rw [hpieces, List.forall_mem_singleton]
    exact fun hheader => absurd hheader (by decide)
  · intro key value hkey hplain
    apply harmless_keyLine hkey
    rw [Forges, Lines.rest_of_forall hplain]
    rintro ⟨piece, hpiece, -⟩
    contradiction

/-- What is printed has no newline. -/
theorem newline_not_mem_printed (describe : String → CommitMeta) (shown : List String)
    (lines : List (Attribution × OneLine)) :
  ∀ line ∈ printed describe shown lines, '\n' ∉ line
  := by
  have hnewline : ∀ {line : List Char}, (∀ c ∈ line, isLineBreak c = false) → '\n' ∉ line := by
    intro line hplain hmem
    have hbreak : isLineBreak '\n' = true := by decide
    rw [hplain '\n' hmem] at hbreak
    contradiction
  have hkeyLine : ∀ {key : String} {value : List Char}, KeyWord key → '\n' ∉ value →
      '\n' ∉ keyLine key value := by
    intro key value hkey hvalue hmem
    rcases List.mem_append.mp hmem with hmem | hmem
    · apply hnewline hkey.plain hmem
    · rcases List.mem_cons.mp hmem with hmem | hmem
      · contradiction
      · apply hvalue hmem
  have hdescribed : ∀ m : CommitMeta, ∀ line ∈ m.lines, '\n' ∉ line := by
    intro m
    apply CommitMeta.forall_mem_lines
    · apply hkeyLine (keyWord_of_mem (by decide)) m.author.one
    · apply hkeyLine (keyWord_of_mem (by decide)) m.summary.one
    · decide
    · intro key value hkey hplain
      apply hkeyLine hkey (hnewline hplain)
  induction lines generalizing shown with
  | nil =>
      intro line hline
      contradiction
  | cons l lines ih =>
      obtain ⟨a, code⟩ := l
      intro line hline
      rw [printed, List.mem_append, List.mem_cons, List.mem_cons] at hline
      rcases hline with (rfl | hline) | rfl | hline
      · apply hnewline a.header_plain
      · split at hline
        · contradiction
        · apply hdescribed _ line hline
      · rw [List.mem_cons, not_or]
        exact ⟨by decide, code.one⟩
      · apply ih _ line hline

namespace BlameState

variable {p q : BlameState} {sha : String} {info : Dict String String} {line : List Char}

/-- Nothing has changed but what is known of the current commit. -/
structure Noted (p q : BlameState) (sha : String) (info : Dict String String) : Prop where
  current : q.current = some sha
  linesByCommit : q.linesByCommit = p.linesByCommit
  commits : ∀ s, q.commits.get s = if s = sha then some info else p.commits.get s

/-- A line that is no header and no line of the file is noted. -/
theorem Noted.readLine (h : Noted p q sha info) (htab : line.head? ≠ some '\t')
    (hheader : isHeader line = false) :
  Noted p (q.readLine line) sha (noteLine info line)
  := by
  rw [BlameState.readLine, if_neg htab, if_neg (Bool.eq_false_iff.mp hheader), h.current]
  constructor
  · rfl
  · apply h.linesByCommit
  · intro s
    dsimp only
    rw [Dict.get_set, h.commits, h.commits, if_pos rfl, Option.getD_some]
    split <;> rfl

theorem Noted.trans {info' : Dict String String} {r : BlameState} (h : Noted p q sha info)
    (h' : Noted q r sha info') :
  Noted p r sha info'
  := by
  constructor
  · apply h'.current
  · rw [h'.linesByCommit, h.linesByCommit]
  · intro s
    rw [h'.commits, h.commits]
    split <;> rfl

/-- A line of blanks is passed over. -/
theorem Noted.blank (h : Noted p q sha info) (hblank : Blank line) :
  Noted p (q.readLine line) sha info
  := by
  by_cases htab : line.head? = some '\t'
  · rwa [BlameState.readLine, if_pos htab]
  · have hnoted := h.readLine htab hblank.not_isHeader
    rwa [hblank.noteLine] at hnoted

theorem Noted.blanks {lines : List (List Char)} (h : Noted p q sha info)
    (hblank : ∀ line ∈ lines, Blank line) :
  Noted p (lines.foldl BlameState.readLine q) sha info
  := by
  induction lines generalizing q with
  | nil => exact h
  | cons line lines ih =>
      obtain ⟨hline, hlines⟩ := List.forall_mem_cons.mp hblank
      apply ih (h.blank hline) hlines

/-- Lines are read piece by piece. -/
def readPieces (p : BlameState) (lines : List (List Char)) : BlameState :=
  (lines.flatMap (Lines.pieces '\r' isLineBreak [])).foldl BlameState.readLine p

theorem readPieces_cons (p : BlameState) (line : List Char) (lines : List (List Char)) :
  p.readPieces (line :: lines) =
    ((Lines.pieces '\r' isLineBreak [] line).foldl BlameState.readLine p).readPieces lines
  := by rw [readPieces, List.flatMap_cons, List.foldl_append, readPieces]

theorem readPieces_append (p : BlameState) (lines lines' : List (List Char)) :
  p.readPieces (lines ++ lines') = (p.readPieces lines).readPieces lines'
  := by rw [readPieces, List.flatMap_append, List.foldl_append, readPieces, readPieces]

/-- A key is noted with its whole value. -/
theorem Noted.keyLine {key : String} {value : List Char} (h : Noted p q sha info)
    (hkey : KeyWord key) (hvalue : Whole value) :
  Noted p (q.readPieces [Agent.keyLine key value]) sha
    (if key ∈ blameKeys ∧ info.get key = none then info.set key (strip (String.ofList value))
     else info)
  := by
  have hnoted := h.readLine (head?_keyLine hkey (Lines.first isLineBreak value))
    (isHeader_keyLine hkey _)
  rw [noteLine_keyLine hkey.blank, hvalue] at hnoted
  rw [readPieces_cons, pieces_keyLine hkey, List.foldl_cons]
  apply hnoted.blanks hvalue.blank

/-- A key that is read is noted if it has no value. -/
theorem Noted.set {key : String} {value : List Char} (h : Noted p q sha info)
    (hkey : key ∈ blameKeys) (hnone : info.get key = none) (hvalue : Whole value) :
  Noted p (q.readPieces [Agent.keyLine key value]) sha
    (info.set key (strip (String.ofList value)))
  := by
  have hnoted := h.keyLine (keyWord_of_mem hkey) hvalue
  rwa [if_pos ⟨hkey, hnone⟩] at hnoted

/-- Keys that are not read change nothing. -/
theorem Noted.others (h : Noted p q sha info) (fields : List (OtherKey × PlainText)) :
  Noted p (q.readPieces (fields.map fun f => Agent.keyLine f.1.name f.2.chars)) sha info
  := by
  induction fields generalizing q with
  | nil => exact h
  | cons f fields ih =>
      obtain ⟨hkey, hmem⟩ := f.1.keyWord
      have hnoted := h.keyLine hkey f.2.whole
      rw [if_neg fun hf => hmem hf.1] at hnoted
      rw [List.map_cons, ← List.singleton_append, readPieces_append]
      apply ih hnoted

/-- The mark of a boundary changes nothing. -/
theorem Noted.boundary (h : Noted p q sha info) (boundary : Bool) :
  Noted p (q.readPieces (if boundary then ["boundary".toList] else [])) sha info
  := by
  cases boundary with
  | false => exact h
  | true =>
      have hnoted := h.readLine (show "boundary".toList.head? ≠ some '\t' by decide) (by decide)
      have hkey : lineKey "boundary".toList ∉ blameKeys := by decide
      rwa [noteLine, if_neg fun hb => hkey hb.1] at hnoted

/-- What is said of a commit before its summary. -/
def begin (m : CommitMeta) : List (List Char) :=
  [Agent.keyLine "author" m.author.chars] ++
    ([Agent.keyLine "author-mail" m.mail.chars] ++
    ([Agent.keyLine "author-time" (intText m.time)] ++
    ([Agent.keyLine "author-tz" m.tz.chars] ++
    m.committer.map fun f => Agent.keyLine f.1.name f.2.chars)))

/-- What is said of a commit after its summary. -/
def ending (m : CommitMeta) : List (List Char) :=
  (if m.boundary then ["boundary".toList] else []) ++
    m.others.map fun f => Agent.keyLine f.1.name f.2.chars

theorem lines_eq (m : CommitMeta) :
  m.lines = begin m ++ ([Agent.keyLine "summary" m.summary.chars] ++ ending m)
  := by
  simp only [CommitMeta.lines, begin, ending, List.append_assoc, List.cons_append, List.nil_append]

/-- Before the summary of a commit is read, all its other values are. -/
theorem Noted.begin {m : CommitMeta} (h : Noted p q sha .empty) (hauthor : Whole m.author.chars) :
  ∃ info, info.get "summary" = none ∧
    OwnValues m (info.set "summary" (strip (String.ofList m.summary.chars))) ∧
    Noted p (q.readPieces (begin m)) sha info
  := by
  have htime : Whole (intText m.time) :=
    (PlainText.mk _ fun c hc => (intText_solid _ c hc).2).whole
  have h₁ := h.set (show "author" ∈ blameKeys by decide) (by simp) hauthor
  have h₂ := h₁.set (show "author-mail" ∈ blameKeys by decide) (by simp [Dict.get_set]) m.mail.whole
  have h₃ := h₂.set (show "author-time" ∈ blameKeys by decide) (by simp [Dict.get_set]) htime
  have h₄ := h₃.set (show "author-tz" ∈ blameKeys by decide) (by simp [Dict.get_set]) m.tz.whole
  have h₅ := h₄.others m.committer
  rw [BlameState.begin]
  simp only [readPieces_append]
  refine ⟨_, ?_, ?_, h₅⟩
  · simp [Dict.get_set]
  · simp [OwnValues, Dict.get_set]

/-- **What is said of a commit** is what is noted of it. -/
theorem Noted.described {m : CommitMeta} (h : Noted p q sha .empty) (hauthor : Whole m.author.chars)
    (hsummary : Whole m.summary.chars) :
  ∃ info, OwnValues m info ∧ Noted p (q.readPieces m.lines) sha info
  := by
  obtain ⟨info, hnone, hown, hbegin⟩ := h.begin hauthor
  have hset := hbegin.set (show "summary" ∈ blameKeys by decide) hnone hsummary
  rw [lines_eq, ending]
  simp only [readPieces_append]
  exact ⟨_, hown, (hset.boundary m.boundary).others m.others⟩

/-- The first value of a key is kept, with what comes before its first line break. -/
theorem Noted.first {key : String} (h : Noted p q sha info) (hkey : key ∈ blameKeys)
    (hnone : info.get key = none) (value : List Char) :
  Noted p (q.readLine (Agent.keyLine key (Lines.first isLineBreak value))) sha
    (info.set key (strip (String.ofList (Lines.first isLineBreak value))))
  := by
  have hword := keyWord_of_mem hkey
  have hnoted := h.readLine (head?_keyLine hword (Lines.first isLineBreak value))
    (isHeader_keyLine hword _)
  rwa [noteLine_keyLine hword.blank, if_pos ⟨hkey, hnone⟩] at hnoted

end BlameState

end Agent
