import GitAgent.Hub.RepoURL
import GitAgent.Library.Cells
import GitAgent.Library.Decimal

/-!
# The export of findings

The table of findings that is downloaded (`writeFindingsMarkdown` in
`internal/hub/adapters/httpapi/findings.go`). A pipe in a cell is escaped and a line break becomes a
mark, so that the table has one line for each finding, and that line nine cells, unless a pipe was
escaped before.
-/

namespace Hub

open Cells (Unescaped IsRow)

/-! ### Cells -/

/-- A day of the calendar, in universal time. -/
structure Day where
  year : ℤ
  month : ℕ
  day : ℕ

/-- What is exported of a finding. -/
structure Finding where
  severity : Bytes
  cwe : Option Bytes
  cve : Option Bytes
  file : Option Bytes
  lineStart : Option ℤ
  lineEnd : Option ℤ
  remediation : Option Bytes
  title : Option Bytes
  confidence : Option Bytes
  category : Option Bytes
  blameAuthor : Option Bytes
  blameCommit : Option Bytes
  blameDate : Option Day
  introducedBy : Option Bytes

/-- A number with a sign, if it is negative, and at least so many digits. -/
def appendInt (n : ℤ) (width : ℕ) : Bytes :=
  bytes (if n < 0 then "-" else "") ++
    Utf8.encode ((Nat.toDigits 10 n.natAbs).leftpad width '0')

/-- `strconv.Itoa`. -/
def itoa (n : ℤ) : Bytes :=
  appendInt n 0

/-- `Format("2006-01-02")`. -/
def Day.format (d : Day) : Bytes :=
  appendInt d.year 4 ++ bytes "-" ++ appendInt d.month 2 ++ bytes "-" ++ appendInt d.day 2

/-- `str`. -/
def str (p : Option Bytes) : Bytes :=
  p.getD []

/-- `joinNonEmpty`. -/
def joinNonEmpty (sep : Bytes) (parts : List Bytes) : Bytes :=
  sep.intercalate (parts.filter (· ≠ []))

/-- `strings.ReplaceAll`, of one byte. -/
def replaceByte (old : UInt8) (new s : Bytes) : Bytes :=
  s.flatMap fun b => if b = old then new else [b]

/-- `strings.ReplaceAll`, of a carriage return with a line feed. -/
def replaceReturnFeed (new : Bytes) : Bytes → Bytes
  | 0x0D :: 0x0A :: s => new ++ replaceReturnFeed new s
  | b :: s => b :: replaceReturnFeed new s
  | [] => []

/-- `mdCell`. -/
def mdCell (s : Bytes) : Bytes :=
  let s := replaceByte 0x7C (bytes "\\|") s
  let s := replaceReturnFeed (bytes "<br>") s
  s.flatMap fun b => if b = 0x0A ∨ b = 0x0D then bytes "<br>" else [b]

namespace Finding

variable (f : Finding)

/-- `fileLines`. -/
def fileLines : Bytes :=
  match f.file with
  | none => []
  | some out =>
      match f.lineStart with
      | none => out
      | some start =>
          let out := out ++ bytes ":" ++ itoa start
          match f.lineEnd with
          | some stop => if stop ≠ start then out ++ bytes "-" ++ itoa stop else out
          | none => out

/-- `introducedBy`. -/
def introduced : Bytes :=
  let who := str f.blameAuthor
  let who :=
    match f.blameDate with
    | some date => joinNonEmpty (bytes " @ ") [who, date.format]
    | none => who
  let sha := str f.blameCommit
  let sha := if 7 < sha.length then sha.take 7 else sha
  joinNonEmpty (bytes ", ") [who, sha, replaceByte 0x5F (bytes " ") (str f.introducedBy)]

/-- `exportRow`. -/
def exportRow (n : ℤ) : List Bytes :=
  [itoa n, f.severity, str f.title, str f.category, f.fileLines, f.introduced,
    joinNonEmpty (bytes " / ") [str f.cwe, str f.cve], str f.confidence, str f.remediation]

end Finding

/-! ### The table -/

/-- `exportHeader`. -/
def exportHeader : List Bytes :=
  ["#", "severity", "title", "category", "file:lines", "introduced by", "cwe/cve", "confidence",
    "remediation"].map bytes

/-- A line of the table, without its end. -/
def line (cells : List Bytes) : Bytes :=
  bytes "|" ++ cells.flatMap fun c => bytes " " ++ mdCell c ++ bytes " |"

/-- The line between the header and the findings, without its end. -/
def delimiter : Bytes :=
  bytes "|" ++ exportHeader.flatMap fun _ => bytes " --- |"

/-- The lines of the findings. -/
def findingLines (list : List Finding) : List Bytes :=
  list.zipIdx.map fun (f, i) => line (f.exportRow (i + 1))

/-- `writeFindingsMarkdown`. -/
def writeFindingsMarkdown (list : List Finding) : Bytes :=
  (line exportHeader :: delimiter :: findingLines list).flatMap (· ++ bytes "\n")

/-! ### Rows of cells -/

/-- A text is one line, and a row of `n` cells. -/
structure WellFormedRow (n : ℕ) (row : Bytes) : Prop where
  line : ∀ b ∈ row, b ≠ 0x0D ∧ b ≠ 0x0A
  cells : IsRow 0x5C 0x7C n row

/-- An even number of backslashes stand before each pipe. -/
def NoEscapedPipe (s : Bytes) : Prop :=
  Unescaped 0x5C 0x7C s

/-- The texts of a finding that are shown. -/
def Finding.texts (f : Finding) : List Bytes :=
  [f.severity, str f.title, str f.category, str f.file, str f.blameAuthor,
    (str f.blameCommit).take 7, str f.introducedBy, str f.cwe, str f.cve, str f.confidence,
    str f.remediation]

/-- No pipe in what is shown of a finding is escaped. -/
def Finding.Tidy (f : Finding) : Prop :=
  ∀ text ∈ f.texts, NoEscapedPipe text

/-- The pipes of a text that are escaped. -/
abbrev escapedPipes (s : Bytes) : ℕ :=
  Cells.escaped 0x5C 0x7C 0 s

theorem noEscapedPipe_iff {s : Bytes} :
  NoEscapedPipe s ↔ escapedPipes s = 0
  := (Cells.escaped_eq_zero_iff (by decide)).symm

/-! ### Line breaks -/

/-- A byte that is not a carriage return before a line feed is left as it is. -/
theorem replaceReturnFeed_cons (new : Bytes) {b : UInt8} {s : Bytes}
    (h : ¬ (b = 0x0D ∧ s.head? = some 0x0A)) :
  replaceReturnFeed new (b :: s) = b :: replaceReturnFeed new s
  := by
  rw [replaceReturnFeed]
  rintro s' rfl rfl
  exact h ⟨rfl, rfl⟩

/-- Pipes can be escaped before or after the line breaks are replaced. -/
theorem replaceReturnFeed_flatMap_quote {new : Bytes} (hnew : Cells.Inert 0x5C 0x7C new)
    (s : Bytes) :
  replaceReturnFeed new (s.flatMap (Cells.quote 0x5C 0x7C)) =
    (replaceReturnFeed new s).flatMap (Cells.quote 0x5C 0x7C)
  := by
  have hquote : new.flatMap (Cells.quote 0x5C 0x7C) = new := by
    rw [← List.flatMap_singleton' new]
    simp only [List.flatMap_assoc]
    apply List.flatMap_congr
    intro b hb
    rw [List.flatMap_singleton, Cells.quote, if_neg (hnew b hb).2]
  fun_induction replaceReturnFeed new s with
  | case1 s ih =>
      rw [List.flatMap_append, ← ih, hquote]
      rfl
  | case2 b s h ih =>
      have hhead : ¬ (b = 0x0D ∧ (s.flatMap (Cells.quote 0x5C 0x7C)).head? = some 0x0A) := by
        rintro ⟨hb, hs⟩
        cases s with
        | nil => contradiction
        | cons c s =>
            rw [List.flatMap_cons, Cells.quote] at hs
            split at hs
            · exact absurd (Option.some.inj hs) (by decide)
            · exact h s hb (by rw [Option.some.inj hs])
      rw [List.flatMap_cons, List.flatMap_cons, ← ih]
      rw [Cells.quote]
      split
      · rw [List.cons_append, List.singleton_append,
          replaceReturnFeed_cons new fun h => absurd h.1 (by decide),
          replaceReturnFeed_cons new fun h => absurd h.1 (by decide)]
        rfl
      · rw [List.singleton_append, replaceReturnFeed_cons new hhead]
        rfl
  | case3 => rfl

/-- A line break has no pipe. -/
theorem escaped_replaceReturnFeed {new : Bytes} (hnew : Cells.Inert 0x5C 0x7C new) (hne : new ≠ [])
    (n : ℕ) (s : Bytes) :
  Cells.escaped 0x5C 0x7C n (replaceReturnFeed new s) = Cells.escaped 0x5C 0x7C n s
  := by
  fun_induction replaceReturnFeed new s generalizing n with
  | case1 s ih =>
      have hbreak : Cells.Inert (0x5C : UInt8) 0x7C [0x0D, 0x0A] := Cells.inert_of_all (by decide)
      rw [Cells.escaped_inert_append hnew hne, ih]
      exact (Cells.escaped_inert_append hbreak (List.cons_ne_nil _ _) n s).symm
  | case2 b s h ih => rw [Cells.escaped, Cells.escaped, ih, ih]
  | case3 => rfl

/-- The pipes in a cell that are not escaped are those that were. -/
theorem stops_mdCell (s : Bytes) :
  Cells.stops 0x5C 0x7C 0 (mdCell s) = escapedPipes s
  := by
  have hmark : Cells.Inert 0x5C 0x7C (bytes "<br>") := Cells.inert_of_all (by decide)
  have hpipe : replaceByte 0x7C (bytes "\\|") s = s.flatMap (Cells.quote 0x5C 0x7C) := rfl
  have hcomm : ∀ s : Bytes,
      ((s.flatMap (Cells.quote 0x5C 0x7C)).flatMap fun b =>
        if b = 0x0A ∨ b = 0x0D then bytes "<br>" else [b]) =
      (s.flatMap fun b => if b = 0x0A ∨ b = 0x0D then bytes "<br>" else [b]).flatMap
        (Cells.quote 0x5C 0x7C) := by
    intro s
    rw [List.flatMap_assoc, List.flatMap_assoc]
    apply List.flatMap_congr
    intro b _
    by_cases hb : b = 0x0A ∨ b = 0x0D
    · rcases hb with rfl | rfl <;> decide
    · by_cases hpipe : b = 0x7C
      · subst hpipe
        decide
      · simp [Cells.quote, hb, hpipe]
  rw [mdCell, hpipe, replaceReturnFeed_flatMap_quote hmark, hcomm, Cells.stops_quote (by decide),
    Cells.escaped_flatMap, escaped_replaceReturnFeed hmark (by decide)]
  · rintro b (rfl | rfl) <;> rfl
  · intro b hesc hsep
    split
    · exact ⟨by decide, hmark⟩
    · exact ⟨List.cons_ne_nil _ _, List.forall_mem_singleton.mpr ⟨hesc, hsep⟩⟩

/-- A cell has no line break. -/
theorem mdCell_line (s : Bytes) :
  ∀ b ∈ mdCell s, b ≠ 0x0D ∧ b ≠ 0x0A
  := by
  intro b hb
  obtain ⟨c, -, hb⟩ := List.mem_flatMap.mp hb
  split at hb
  · have hmark : Cells.Inert 0x0D 0x0A (bytes "<br>") := Cells.inert_of_all (by decide)
    exact hmark b hb
  · rename_i hc
    rw [not_or] at hc
    rw [List.mem_singleton.mp hb]
    exact ⟨hc.2, hc.1⟩

/-! ### Lines of the table -/

theorem line_eq_row (cells : List Bytes) :
  line cells = Cells.row 0x7C 0x20 (cells.map mdCell)
  := by
  have hopen : bytes "|" = [0x7C] := by decide
  have hblank : bytes " " = [0x20] := by decide
  have hclose : bytes " |" = [0x20, 0x7C] := by decide
  rw [line, Cells.row, List.flatMap_map, hopen, hblank, hclose]
  rfl

/-- No text in a cell ends its line. -/
theorem line_line (cells : List Bytes) :
  ∀ b ∈ line cells, b ≠ 0x0D ∧ b ≠ 0x0A
  := by
  rw [line_eq_row, Cells.row]
  refine List.forall_mem_cons.mpr ⟨by decide, ?_⟩
  intro b hb
  obtain ⟨cell, hcell, hb⟩ := List.mem_flatMap.mp hb
  obtain ⟨c, -, rfl⟩ := List.mem_map.mp hcell
  rw [List.cons_append, List.mem_cons, List.mem_append] at hb
  rcases hb with rfl | hb | hb
  · decide
  · exact mdCell_line c b hb
  · simp only [List.mem_cons, List.not_mem_nil, or_false] at hb
    rcases hb with rfl | rfl <;> decide

/-- A line is well formed exactly if no pipe in its cells was escaped. -/
theorem wellFormedRow_line_iff {cells : List Bytes} :
  WellFormedRow cells.length (line cells) ↔ ∀ c ∈ cells, escapedPipes c = 0
  := by
  have hrow := @Cells.isRow_row_iff _ _ 0x5C 0x7C 0x20 (cells.map mdCell)
    ⟨by decide, by decide⟩ (by decide)
  rw [List.length_map, List.forall_mem_map, ← line_eq_row] at hrow
  simp only [stops_mdCell] at hrow
  rw [← hrow]
  exact ⟨fun h => h.cells, fun h => ⟨line_line cells, h⟩⟩

/-! ### The cells of a finding -/

/-- The bytes of a number are not those of a backslash or a pipe. -/
theorem inert_appendInt (n : ℤ) (width : ℕ) :
  Cells.Inert 0x5C 0x7C (appendInt n width)
  := by
  have hdigit : ∀ c : Char, c.isDigit = true →
      Cells.Inert 0x5C 0x7C (String.utf8EncodeChar c) := by
    intro c hc b hb
    rw [Char.isDigit_iff_toNat] at hc
    have hc : 48 ≤ c.toNat ∧ c.toNat ≤ 57 := hc
    have hb := Utf8.toNat_of_mem_utf8EncodeChar (by omega) hb
    constructor
    all_goals
      rintro rfl
      have hb : _ = c.toNat := hb
      simp at hb
      omega
  rw [appendInt, Utf8.encode]
  apply Cells.Inert.append
  · split <;> exact Cells.inert_of_all (by decide)
  · intro b hb
    obtain ⟨c, hc, hb⟩ := List.mem_flatMap.mp hb
    rw [List.leftpad] at hc
    rcases List.mem_append.mp hc with hc | hc
    · rw [List.eq_of_mem_replicate hc] at hb
      exact hdigit '0' (by decide) b hb
    · exact hdigit c (Decimal.isDigit_of_mem hc) b hb

theorem escaped_joinNonEmpty {sep : Bytes} (h : Cells.Inert 0x5C 0x7C sep) (hne : sep ≠ [])
    (parts : List Bytes) :
  escapedPipes (joinNonEmpty sep parts) = (parts.map escapedPipes).sum
  := by
  rw [joinNonEmpty, escapedPipes, Cells.escaped_intercalate h hne]
  induction parts with
  | nil => rfl
  | cons part parts ih =>
      rw [List.map_cons, List.sum_cons, ← ih, List.filter_cons]
      split
      · rfl
      · rename_i hpart
        have hpart : part = [] := by simpa using hpart
        rw [hpart]
        exact (Nat.zero_add _).symm

/-- A number after a mark has no pipe. -/
theorem escaped_append_itoa {mark : Bytes} (h : Cells.Inert 0x5C 0x7C mark) (out : Bytes) (n : ℤ) :
  escapedPipes (out ++ mark ++ itoa n) = escapedPipes out
  := by
  have hnumber : Cells.Inert 0x5C 0x7C (mark ++ itoa n) := h.append (inert_appendInt n 0)
  rw [escapedPipes, List.append_assoc, Cells.escaped_append, hnumber.escaped, Nat.add_zero]

theorem escaped_fileLines (f : Finding) :
  escapedPipes f.fileLines = escapedPipes (str f.file)
  := by
  have hcolon : Cells.Inert 0x5C 0x7C (bytes ":") := Cells.inert_of_all (by decide)
  have hdash : Cells.Inert 0x5C 0x7C (bytes "-") := Cells.inert_of_all (by decide)
  rw [Finding.fileLines]
  cases f.file with
  | none => rfl
  | some out =>
      cases f.lineStart with
      | none => rfl
      | some start =>
          cases f.lineEnd with
          | none => exact escaped_append_itoa hcolon out start
          | some stop =>
              dsimp only
              split
              · rw [escaped_append_itoa hdash, escaped_append_itoa hcolon]
                rfl
              · exact escaped_append_itoa hcolon out start

theorem escaped_introduced (f : Finding) :
  escapedPipes f.introduced = escapedPipes (str f.blameAuthor) +
    escapedPipes ((str f.blameCommit).take 7) + escapedPipes (str f.introducedBy)
  := by
  have hcomma : Cells.Inert 0x5C 0x7C (bytes ", ") := Cells.inert_of_all (by decide)
  have hat : Cells.Inert 0x5C 0x7C (bytes " @ ") := Cells.inert_of_all (by decide)
  have hdash : Cells.Inert 0x5C 0x7C (bytes "-") := Cells.inert_of_all (by decide)
  have hblank : Cells.Inert 0x5C 0x7C (bytes " ") := Cells.inert_of_all (by decide)
  have hdate : ∀ d : Day, escapedPipes d.format = 0 := by
    intro d
    rw [Day.format, escapedPipes]
    exact Cells.Inert.escaped ((((inert_appendInt d.year 4).append hdash).append
      (inert_appendInt d.month 2)).append hdash |>.append (inert_appendInt d.day 2)) 0
  have htag : escapedPipes (replaceByte 0x5F (bytes " ") (str f.introducedBy)) =
      escapedPipes (str f.introducedBy) := by
    rw [escapedPipes, replaceByte, Cells.escaped_flatMap]
    · rintro b (rfl | rfl) <;> rfl
    · intro b hesc hsep
      split
      · exact ⟨by decide, hblank⟩
      · exact ⟨List.cons_ne_nil _ _, List.forall_mem_singleton.mpr ⟨hesc, hsep⟩⟩
  have hsha : (if 7 < (str f.blameCommit).length then (str f.blameCommit).take 7
      else str f.blameCommit) = (str f.blameCommit).take 7 := by
    split
    · rfl
    · rename_i h
      rw [List.take_of_length_le (Nat.le_of_not_lt h)]
  rw [Finding.introduced]
  rw [escaped_joinNonEmpty hcomma (by decide), hsha]
  simp only [List.map_cons, List.map_nil, List.sum_cons, List.sum_nil, htag]
  cases f.blameDate with
  | none =>
      dsimp only
      omega
  | some d =>
      dsimp only
      rw [escaped_joinNonEmpty hat (by decide)]
      simp only [List.map_cons, List.map_nil, List.sum_cons, List.sum_nil, hdate]
      omega

/-- **The line of a finding is well formed exactly if the finding is tidy.** -/
theorem wellFormedRow_iff_tidy {f : Finding} {n : ℤ} :
  WellFormedRow 9 (line (f.exportRow n)) ↔ f.Tidy
  := by
  have hslash : Cells.Inert 0x5C 0x7C (bytes " / ") := Cells.inert_of_all (by decide)
  have hnumber : escapedPipes (itoa n) = 0 := (inert_appendInt n 0).escaped 0
  have hlength : (f.exportRow n).length = 9 := rfl
  rw [← hlength, wellFormedRow_line_iff, Finding.exportRow, Finding.Tidy, Finding.texts]
  simp only [List.forall_mem_cons, List.not_mem_nil, false_implies, implies_true, and_true,
    noEscapedPipe_iff, hnumber, true_and, escaped_fileLines, escaped_introduced,
    escaped_joinNonEmpty hslash (by decide), List.map_cons, List.map_nil, List.sum_cons,
    List.sum_nil]
  omega

/-! ### The lines of the table -/

/-- The line of a finding is numbered by its place. -/
theorem findingLines_getElem? {list : List Finding} {i : ℕ} {f : Finding} (h : list[i]? = some f) :
  (findingLines list)[i]? = some (line (f.exportRow (i + 1)))
  := by
  rw [findingLines, List.getElem?_map, List.getElem?_zipIdx, h, Option.map_some, Option.map_some,
    Nat.zero_add]

/-- **The table has one line for each finding**, after the header and the delimiter. -/
theorem splitOn_writeFindingsMarkdown (list : List Finding) :
  (writeFindingsMarkdown list).splitOn 0x0A =
    line exportHeader :: delimiter :: findingLines list ++ [[]]
  := by
  have hfeed : bytes "\n" = [0x0A] := by decide
  have hintercalate : ∀ lines : List Bytes, lines.flatMap (· ++ bytes "\n") =
      [0x0A].intercalate (lines ++ [[]]) := by
    intro lines
    rw [hfeed]
    induction lines with
    | nil => rfl
    | cons first lines ih =>
        obtain ⟨second, rest, hrest⟩ := List.exists_cons_of_ne_nil
          (List.append_ne_nil_of_right_ne_nil lines (List.cons_ne_nil ([] : Bytes) []))
        rw [List.flatMap_cons, ih, List.cons_append, hrest, List.intercalate_cons_cons]
  rw [writeFindingsMarkdown, hintercalate, List.splitOn_intercalate]
  · have hdelimiter : 0x0A ∉ delimiter := by decide
    have hline : ∀ cells, 0x0A ∉ line cells := fun cells h => (line_line cells _ h).2 rfl
    rw [List.forall_mem_append, List.forall_mem_cons, List.forall_mem_cons]
    refine ⟨⟨hline _, hdelimiter, ?_⟩, List.forall_mem_singleton.mpr (List.not_mem_nil)⟩
    intro row hrow
    obtain ⟨⟨f, i⟩, -, rfl⟩ := List.mem_map.mp hrow
    apply hline
  · simp

end Hub
