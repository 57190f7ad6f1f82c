import GitAgent.Agent.Integer
import GitAgent.Agent.Report
import GitAgent.Agent.Result
import GitAgent.Library.Cells

/-!
# The table of a report

The text of a report with its table of findings (`render_report_markdown` in
`core/tools/security/report.py`). A pipe in a cell is escaped and a newline becomes a blank, so that a
finding is one row of six cells, unless a pipe was escaped before, or a carriage return stands within
a cell.
-/

namespace Agent

open Cells (Unescaped IsRow)
open Trim (trim)

/-! ### The text -/

/-- `_md`. -/
def md (text : String) : String :=
  let piped := text.toList.flatMap (Cells.quote '\\' '|')
  strip (String.ofList (piped.map fun c => if c = '\n' then ' ' else c))

/-- The lines of a finding. -/
def lineText (lineStart lineEnd : Option ℤ) : String :=
  let start := lineStart.getD 0
  let stop := lineEnd.getD 0
  if start ≠ 0 ∧ stop ≠ 0 ∧ stop ≠ start then toString start ++ "-" ++ toString stop
  else if start ≠ 0 then toString start
  else ""

/-- `_location`. -/
def location (f : HubFinding) : String :=
  let file := f.file.getD ""
  let lines := lineText f.lineStart f.lineEnd
  if file = "" then "—"
  else if lines ≠ "" then file ++ ":" ++ lines
  else file

namespace Blame

variable (b : Blame)

/-- The author, or an empty text. -/
def authorText : String :=
  b.author.getD ""

/-- The first characters of the commit. -/
def commitText : String :=
  takeText 7 (b.commit.getD "")

/-- The day. -/
def dateText : String :=
  takeText 10 (b.date.getD "")

/-- What is said of the event. -/
def tag : String :=
  if b.introducedBy = some "this_event" then " (this event)"
  else if b.introducedBy = some "earlier" then " (earlier)"
  else ""

/-- The commit between marks, if there is one. -/
def sha : String :=
  if b.commit.getD "" ≠ "" then " `" ++ b.commitText ++ "`" else ""

/-- Whether there is something to show. -/
def IsShown : Prop :=
  b.authorText ≠ "" ∨ b.commit.getD "" ≠ ""

instance : Decidable b.IsShown :=
  inferInstanceAs (Decidable (_ ∨ _))

/-- `_blame_cell`. -/
def cell : String :=
  if ¬ b.IsShown then "—"
  else
    let author := if b.authorText ≠ "" then b.authorText else "?"
    strip (author ++ " @ " ++ b.dateText ++ b.sha ++ b.tag)

end Blame

/-- A text that is not empty, or a dash. -/
def orDash (text : Option String) : String :=
  if text.getD "" ≠ "" then text.getD "" else "—"

/-- The row of a finding. -/
def findingRow (f : HubFinding) : String :=
  "| " ++ md f.severity ++ " | " ++ md f.title ++ " | " ++ md (location f) ++ " | " ++
    md f.blame.cell ++ " | " ++ md (orDash f.cwe) ++ " | " ++ md (orDash f.confidence) ++ " |"

/-- The lines above the findings. -/
def tableHead : List String :=
  ["| severity | title | file:lines | blame author @ date | cwe | confidence |",
    "|---|---|---|---|---|---|"]

/-- `_bullets`. -/
def bullets (title : String) (items : List String) : List String :=
  if items = [] then [] else ["## " ++ title] ++ items.map ("- " ++ md ·) ++ [""]

/-- The range of the changes. -/
def rangeText (range : List (String × String)) : String :=
  let get := fun k => (range.lookup k).getD ""
  if get "before" ≠ "" ∧ get "after" ≠ "" then get "before" ++ ".." ++ get "after"
  else if get "base" ≠ "" ∧ get "head" ≠ "" then get "base" ++ "..." ++ get "head"
  else ""

namespace StructuredReport

variable (r : StructuredReport)

/-- The first line. -/
def head : String :=
  let commit := r.scope.commit.getD ""
  " ".intercalate (["# Security report", r.scope.eventType,
    if commit ≠ "" then "@ " ++ takeText 7 commit else "",
    rangeText (r.range.getD [])].filter (· ≠ ""))

/-- The lines about the scope. -/
def scopeLines : List String :=
  let files := r.scope.filesTouched
  (if files ≠ [] then
    ["- files touched: " ++ toString files.length ++ " (" ++ ", ".intercalate (files.take 20) ++
      (if 20 < files.length then "…" else "") ++ ")"]
  else []) ++
    (r.scope.linesChanged.map fun n => "- lines changed: " ++ toString n).toList

/-- How many findings there are of each severity. -/
def countLine : String :=
  " · ".intercalate (severities.map fun severity =>
    severity ++ ": " ++ toString ((r.findingsBySeverity.get severity).getD 0)) ++
    " · total: " ++ toString r.findings.length

/-- The table of the findings. -/
def table : List String :=
  if r.findings = [] then [] else tableHead ++ r.findings.map findingRow ++ [""]

/-- `render_report_markdown`. -/
def render : String :=
  let scopeLines := r.scopeLines
  rstrip (joinLines ([r.head, "", "## Summary", r.summary, ""] ++
    (if scopeLines ≠ [] then ["## Scope"] ++ scopeLines ++ [""] else []) ++
    bullets "Method" r.method ++ ["## Findings", r.countLine, ""] ++ r.table ++
    bullets "Top risks" r.topRisks ++ bullets "Recommendations" r.recommendations ++
    bullets "Limitations" r.limitations)) ++ "\n"

end StructuredReport

/-! ### Rows of cells -/

/-- A text is one line, and a row of `n` cells. -/
structure WellFormedRow (n : ℕ) (row : String) : Prop where
  line : ∀ c ∈ row.toList, c ≠ '\r' ∧ c ≠ '\n'
  cells : IsRow '\\' '|' n row.toList

/-- An even number of backslashes stand before each pipe. -/
def NoEscapedPipe (s : String) : Prop :=
  Unescaped '\\' '|' s.toList

/-- No pipe is escaped, and carriage returns stand among the blanks at the ends only. -/
structure Tidy (s : String) : Prop where
  pipe : NoEscapedPipe s
  line : '\r' ∉ trim isSpace s.toList

/-- What is shown of the blame makes one cell: no pipe is escaped, and carriage returns stand only
among the blanks at the ends of what is shown. -/
structure Blame.Tidy (b : Blame) : Prop where
  author : NoEscapedPipe b.authorText ∧ '\r' ∉ b.authorText.toList.dropWhile isSpace
  date : NoEscapedPipe b.dateText ∧
    if b.commit.getD "" = "" ∧ b.introducedBy ∉ [some "this_event", some "earlier"] then
      '\r' ∉ b.dateText.toList.rdropWhile isSpace
    else '\r' ∉ b.dateText.toList
  commit : NoEscapedPipe b.commitText ∧ '\r' ∉ b.commitText.toList

/-- No pipe in what is shown of a finding is escaped, and carriage returns stand only among the
blanks at the ends of a cell. -/
structure HubFinding.Tidy (f : HubFinding) : Prop where
  severity : Agent.Tidy f.severity
  title : Agent.Tidy f.title
  file : ∀ file ∈ f.file, NoEscapedPipe file ∧
    if f.lineStart.getD 0 = 0 then '\r' ∉ trim isSpace file.toList
    else '\r' ∉ file.toList.dropWhile isSpace
  blame : f.blame.IsShown → f.blame.Tidy
  cwe : ∀ cwe ∈ f.cwe, Agent.Tidy cwe
  confidence : ∀ confidence ∈ f.confidence, Agent.Tidy confidence

/-! ### Cells -/

/-- A character with a blank in place of a newline. -/
def unline (c : Char) : List Char :=
  if c = '\n' then [' '] else [c]

/-- What is left of a text in a cell. -/
theorem toList_md (s : String) :
  (md s).toList = ((trim isSpace s.toList).flatMap unline).flatMap (Cells.quote '\\' '|')
  := by
  have hmap : ((s.toList.flatMap (Cells.quote '\\' '|')).map fun c => if c = '\n' then ' ' else c) =
      s.toList.flatMap fun c => (unline c).flatMap (Cells.quote '\\' '|') := by
    rw [List.map_flatMap]
    apply List.flatMap_congr
    intro c _
    rw [Cells.quote, unline]
    by_cases hpipe : c = '|'
    · subst hpipe
      decide
    · rw [if_neg hpipe]
      by_cases hline : c = '\n'
      · subst hline
        decide
      · simp [hline, hpipe, Cells.quote]
  have htrim : trim isSpace (s.toList.flatMap fun c => (unline c).flatMap (Cells.quote '\\' '|')) =
      (trim isSpace s.toList).flatMap fun c => (unline c).flatMap (Cells.quote '\\' '|') := by
    apply Trim.trim_flatMap
    · intro c hc d hd
      have hpipe : c ≠ '|' := by
        rintro rfl
        contradiction
      rw [unline] at hd
      split at hd
      · have hd : d = ' ' := by simpa [Cells.quote] using hd
        subst hd
        decide
      · have hd : d = c := by simpa [Cells.quote, hpipe] using hd
        rwa [hd]
    · intro c hc
      have hline : c ≠ '\n' := by
        rintro rfl
        contradiction
      rw [unline, if_neg hline, List.flatMap_singleton, Cells.quote]
      split
      · exact ⟨List.cons_ne_nil _ _, Trim.bare_of_any (by decide)⟩
      · exact ⟨List.cons_ne_nil _ _, by rintro d ⟨⟩; exact hc, by rintro d ⟨⟩; exact hc⟩
  rw [md, strip, String.toList_ofList, String.toList_ofList]
  change trim isSpace _ = _
  rw [hmap, htrim, List.flatMap_assoc]

theorem ne_of_isSpace {c : Char} (h : isSpace c = true) :
  c ≠ '\\' ∧ c ≠ '|'
  := by
  constructor
  all_goals
    rintro rfl
    exact Bool.false_ne_true h

/-- The pipes in a cell that are not escaped are those that were. -/
theorem stops_md (s : String) :
  Cells.stops '\\' '|' 0 (md s).toList = Cells.escaped '\\' '|' 0 s.toList
  := by
  rw [toList_md, Cells.stops_quote (by decide), Cells.escaped_flatMap,
    Cells.escaped_trim fun _ => ne_of_isSpace]
  · rintro c (rfl | rfl) <;> rfl
  · intro c hesc hsep
    rw [unline]
    split
    · exact ⟨List.cons_ne_nil _ _, List.forall_mem_singleton.mpr (by decide)⟩
    · exact ⟨List.cons_ne_nil _ _, List.forall_mem_singleton.mpr ⟨hesc, hsep⟩⟩

theorem mem_md_iff {s : String} {c : Char} (hc : c ≠ '\\' ∧ c ≠ '|' ∧ c ≠ ' ') :
  c ∈ (md s).toList ↔ c ∈ trim isSpace s.toList ∧ c ≠ '\n'
  := by
  have hquote : ∀ d, c ∈ Cells.quote '\\' '|' d ↔ c = d := by
    intro d
    rw [Cells.quote]
    split
    · rename_i hd
      subst hd
      simp [hc.1]
    · rw [List.mem_singleton]
  have hunline : ∀ d, c ∈ unline d ↔ c = d ∧ c ≠ '\n' := by
    intro d
    rw [unline]
    split
    · rename_i hd
      subst hd
      rw [List.mem_singleton]
      exact iff_of_false hc.2.2 fun h => h.2 h.1
    · rename_i hd
      rw [List.mem_singleton]
      exact ⟨fun h => ⟨h, h ▸ hd⟩, fun h => h.1⟩
  rw [toList_md]
  simp only [List.mem_flatMap, hquote]
  constructor
  · rintro ⟨_, ⟨d, hd, hmem⟩, rfl⟩
    obtain ⟨rfl, hne⟩ := (hunline d).mp hmem
    exact ⟨hd, hne⟩
  · rintro ⟨hmem, hne⟩
    exact ⟨c, ⟨c, hmem, (hunline c).mpr ⟨rfl, hne⟩⟩, rfl⟩

theorem noEscapedPipe_iff {s : String} :
  NoEscapedPipe s ↔ Cells.escaped '\\' '|' 0 s.toList = 0
  := (Cells.escaped_eq_zero_iff (by decide)).symm

/-- The texts of the cells of a finding. -/
def HubFinding.cellTexts (f : HubFinding) : List String :=
  [f.severity, f.title, location f, f.blame.cell, orDash f.cwe, orDash f.confidence]

theorem toList_findingRow (f : HubFinding) :
  (findingRow f).toList = Cells.row '|' ' ' (f.cellTexts.map fun text => (md text).toList)
  := by
  delta findingRow
  simp [HubFinding.cellTexts, Cells.row]

/-- The row of a finding is well formed exactly if the texts of its cells are tidy. -/
theorem wellFormedRow_findingRow_iff {f : HubFinding} :
  WellFormedRow 6 (findingRow f) ↔ ∀ text ∈ f.cellTexts, Tidy text
  := by
  have hrow := @Cells.isRow_row_iff _ _ '\\' '|' ' ' (f.cellTexts.map fun text => (md text).toList)
    ⟨by decide, by decide⟩ (by decide)
  have hlength : (f.cellTexts.map fun text => (md text).toList).length = 6 := rfl
  rw [hlength, List.forall_mem_map, ← toList_findingRow] at hrow
  simp only [stops_md, ← noEscapedPipe_iff] at hrow
  have hline : (∀ c ∈ (findingRow f).toList, c ≠ '\r' ∧ c ≠ '\n') ↔
      ∀ text ∈ f.cellTexts, '\r' ∉ trim isSpace text.toList := by
    rw [toList_findingRow, Cells.row]
    constructor
    · intro h text htext hmem
      have hmd := (mem_md_iff (c := '\r') ⟨by decide, by decide, by decide⟩).mpr ⟨hmem, by decide⟩
      refine (h '\r' (List.mem_cons_of_mem _ (List.mem_flatMap.mpr
        ⟨_, List.mem_map_of_mem htext, ?_⟩))).1 rfl
      exact List.mem_append_left _ (List.mem_cons_of_mem _ hmd)
    · intro h c hc
      rcases List.mem_cons.mp hc with rfl | hc
      · decide
      · obtain ⟨cell, hcell, hc⟩ := List.mem_flatMap.mp hc
        obtain ⟨text, htext, rfl⟩ := List.mem_map.mp hcell
        rw [List.cons_append, List.mem_cons, List.mem_append] at hc
        rcases hc with rfl | hc | hc
        · decide
        · constructor
          · rintro rfl
            exact h text htext ((mem_md_iff ⟨by decide, by decide, by decide⟩).mp hc).1
          · rintro rfl
            exact ((mem_md_iff ⟨by decide, by decide, by decide⟩).mp hc).2 rfl
        · simp only [List.mem_cons, List.not_mem_nil, or_false] at hc
          rcases hc with rfl | rfl <;> decide
  constructor
  · rintro ⟨h, hcells⟩ text htext
    exact ⟨hrow.mp hcells text htext, hline.mp h text htext⟩
  · intro h
    exact ⟨hline.mpr fun text htext => (h text htext).line,
      hrow.mpr fun text htext => (h text htext).pipe⟩

theorem tidy_empty :
  Tidy ""
  := ⟨noEscapedPipe_iff.mpr (by decide), by decide⟩

theorem tidy_dash :
  Tidy "—"
  := ⟨noEscapedPipe_iff.mpr (by decide), by decide⟩

theorem tidy_orDash_iff {text : Option String} :
  Tidy (orDash text) ↔ ∀ s ∈ text, Tidy s
  := by
  rw [orDash]
  cases text with
  | none => exact iff_of_true tidy_dash (fun _ h => nomatch h)
  | some s =>
      rw [Option.getD_some]
      by_cases hs : s = ""
      · rw [if_neg (not_not_intro hs)]
        apply iff_of_true tidy_dash
        rintro _ ⟨⟩
        exact hs ▸ tidy_empty
      · rw [if_pos hs]
        exact ⟨fun h _ hs => Option.some.inj hs ▸ h, fun h => h s rfl⟩

/-- A text is tidy exactly if it is without the blanks at its ends. -/
theorem tidy_strip_iff {s : String} :
  Tidy (strip s) ↔ Tidy s
  := by
  have hstrip : (strip s).toList = trim isSpace s.toList := by
    rw [strip, String.toList_ofList]
    rfl
  have hpipe : NoEscapedPipe (strip s) ↔ NoEscapedPipe s := by
    rw [noEscapedPipe_iff, noEscapedPipe_iff, hstrip, Cells.escaped_trim fun _ => ne_of_isSpace]
  constructor
  · rintro ⟨h, hline⟩
    rw [hstrip, Trim.trim_trim] at hline
    exact ⟨hpipe.mp h, hline⟩
  · rintro ⟨h, hline⟩
    refine ⟨hpipe.mpr h, ?_⟩
    rwa [hstrip, Trim.trim_trim]

/-! ### The place of a finding -/

theorem mem_lineText {lineStart lineEnd : Option ℤ} {c : Char}
    (h : c ∈ (lineText lineStart lineEnd).toList) :
  c = '-' ∨ c.isDigit = true
  := by
  have hint : ∀ (n : ℤ) (c : Char), c ∈ (toString n).toList → c = '-' ∨ c.isDigit = true := by
    intro n c hc
    rw [toList_toString, intText] at hc
    split at hc
    · rcases List.mem_cons.mp hc with rfl | hc
      · exact .inl rfl
      · exact .inr (Decimal.isDigit_of_mem hc)
    · exact .inr (Decimal.isDigit_of_mem hc)
  rw [lineText] at h
  split at h
  · rw [String.toList_append, String.toList_append, List.mem_append, List.mem_append] at h
    rcases h with (h | h) | h
    · exact hint _ c h
    · exact .inl (List.mem_singleton.mp h)
    · exact hint _ c h
  · split at h
    · exact hint _ c h
    · contradiction

theorem lineText_eq_empty_iff {lineStart lineEnd : Option ℤ} :
  lineText lineStart lineEnd = "" ↔ lineStart.getD 0 = 0
  := by
  rw [lineText]
  split
  · rename_i h
    refine iff_of_false (fun hempty => ?_) h.1
    exact Decimal.toString_ne_empty (String.append_eq_empty_iff.mp
      (String.append_eq_empty_iff.mp hempty).1).1
  · split
    · rename_i h
      exact iff_of_false Decimal.toString_ne_empty h
    · rename_i h
      exact iff_of_true rfl (not_not.mp h)

/-- The place of a finding is tidy exactly if its file is, with the lines after it. -/
theorem tidy_location_iff {f : HubFinding} :
  Tidy (location f) ↔ ∀ file ∈ f.file, NoEscapedPipe file ∧
    if f.lineStart.getD 0 = 0 then '\r' ∉ trim isSpace file.toList
    else '\r' ∉ file.toList.dropWhile isSpace
  := by
  rw [location]
  cases f.file with
  | none => exact iff_of_true tidy_dash (fun _ h => nomatch h)
  | some file =>
      simp only [Option.getD_some, Option.mem_def, Option.some.injEq, forall_eq']
      by_cases hfile : file = ""
      · rw [if_pos hfile, hfile]
        apply iff_of_true tidy_dash
        refine ⟨tidy_empty.pipe, ?_⟩
        split <;> decide
      · rw [if_neg hfile]
        by_cases hstart : f.lineStart.getD 0 = 0
        · rw [if_neg (not_not_intro (lineText_eq_empty_iff.mpr hstart)), if_pos hstart]
          exact ⟨fun h => ⟨h.pipe, h.line⟩, fun h => ⟨h.1, h.2⟩⟩
        · rw [if_pos fun h => hstart (lineText_eq_empty_iff.mp h), if_neg hstart]
          have hlist : (file ++ ":" ++ lineText f.lineStart f.lineEnd).toList =
              file.toList ++ ':' :: (lineText f.lineStart f.lineEnd).toList := by simp
          have hinert : Cells.Inert '\\' '|' (':' :: (lineText f.lineStart f.lineEnd).toList) := by
            intro c hc
            rcases List.mem_cons.mp hc with rfl | hc
            · decide
            rcases mem_lineText hc with rfl | hc
            · decide
            · constructor
              all_goals
                rintro rfl
                contradiction
          have hlines : '\r' ∉ (lineText f.lineStart f.lineEnd).toList.rdropWhile isSpace := by
            intro hmem
            rcases mem_lineText ((List.rdropWhile_prefix _ _).subset hmem) with h | h <;>
              contradiction
          have hpipe : NoEscapedPipe (file ++ ":" ++ lineText f.lineStart f.lineEnd) ↔
              NoEscapedPipe file := by
            rw [noEscapedPipe_iff, noEscapedPipe_iff, hlist, Cells.escaped_append, hinert.escaped,
              Nat.add_zero]
          have hline : '\r' ∈ trim isSpace (file.toList ++ ':' ::
              (lineText f.lineStart f.lineEnd).toList) ↔ '\r' ∈ file.toList.dropWhile isSpace := by
            rw [Trim.trim_append_cons (by decide), List.mem_append, List.mem_cons, or_iff_left]
            rintro (h | h)
            · contradiction
            · exact hlines h
          constructor
          · rintro ⟨h, hmem⟩
            rw [hlist, hline] at hmem
            exact ⟨hpipe.mp h, hmem⟩
          · rintro ⟨h, hmem⟩
            refine ⟨hpipe.mpr h, ?_⟩
            rwa [hlist, hline]

/-! ### The blame of a finding -/

namespace Blame

variable {b : Blame}

/-- The author that is shown. -/
def shownAuthor (b : Blame) : String :=
  if b.authorText ≠ "" then b.authorText else "?"

/-- The texts after the day. -/
def afterDate (b : Blame) : List Char :=
  b.sha.toList ++ b.tag.toList

theorem toList_shown :
  (b.shownAuthor ++ " @ " ++ b.dateText ++ b.sha ++ b.tag).toList =
    (b.shownAuthor.toList ++ [' ']) ++ '@' :: ' ' :: (b.dateText.toList ++ b.afterDate)
  := by simp [afterDate]

/-- A tag is one of three texts. -/
theorem tag_cases (b : Blame) :
  b.tag = " (this event)" ∨ b.tag = " (earlier)" ∨
    b.tag = "" ∧ b.introducedBy ∉ [some "this_event", some "earlier"]
  := by
  rw [tag]
  split
  · exact .inl rfl
  · rename_i hthis
    split
    · exact .inr (.inl rfl)
    · rename_i hearlier
      exact .inr (.inr ⟨rfl, by simp [hthis, hearlier]⟩)

theorem inert_tag :
  Cells.Inert '\\' '|' b.tag.toList
  := by
  rcases b.tag_cases with h | h | ⟨h, -⟩ <;> rw [h] <;> exact Cells.inert_of_all (by decide)

/-- The pipes that are escaped in what is shown. -/
theorem escaped_shown :
  Cells.escaped '\\' '|' 0
      (b.shownAuthor ++ " @ " ++ b.dateText ++ b.sha ++ b.tag).toList =
    Cells.escaped '\\' '|' 0 b.authorText.toList + Cells.escaped '\\' '|' 0 b.dateText.toList +
      Cells.escaped '\\' '|' 0 b.commitText.toList
  := by
  have hauthor : Cells.escaped '\\' '|' 0 b.shownAuthor.toList =
      Cells.escaped '\\' '|' 0 b.authorText.toList := by
    rw [shownAuthor]
    split
    · rfl
    · rename_i h
      rw [not_not.mp h]
      decide
  have hafter : ∀ n, Cells.escaped '\\' '|' n b.afterDate =
      Cells.escaped '\\' '|' 0 b.commitText.toList := by
    intro n
    rw [afterDate, sha]
    split
    · have hopen : Cells.Inert '\\' '|' [' ', '\x60'] := Cells.inert_of_all (by decide)
      have hclose : Cells.Inert '\\' '|' ('\x60' :: b.tag.toList) :=
        List.forall_mem_cons.mpr ⟨by decide, inert_tag⟩
      have hlist : (" `" ++ b.commitText ++ "`").toList ++ b.tag.toList =
          [' ', '\x60'] ++ (b.commitText.toList ++ '\x60' :: b.tag.toList) := by simp
      rw [hlist, Cells.escaped_inert_append hopen (List.cons_ne_nil _ _), Cells.escaped_append,
        hclose.escaped, Nat.add_zero]
    · rename_i h
      rw [commitText, not_not.mp h, String.toList_empty, List.nil_append, inert_tag.escaped]
      decide
  have hmiddle : Cells.Inert '\\' '|' [' ', '@', ' '] := Cells.inert_of_all (by decide)
  have hlist : (b.shownAuthor ++ " @ " ++ b.dateText ++ b.sha ++ b.tag).toList =
      b.shownAuthor.toList ++ [' ', '@', ' '] ++ (b.dateText.toList ++ b.afterDate) := by
    simp [afterDate]
  rw [hlist, Cells.escaped_append_inert hmiddle (List.cons_ne_nil _ _), Cells.escaped_append, hauthor,
    hafter, Nat.add_assoc]

/-- What stands after the day, if anything does, does not end with a blank. -/
theorem last_afterDate
    (h : ¬ (b.commit.getD "" = "" ∧ b.introducedBy ∉ [some "this_event", some "earlier"])) :
  ∀ c ∈ (b.dateText.toList ++ b.afterDate).getLast?, isSpace c = false
  := by
  intro c hc
  rw [afterDate] at hc
  rcases b.tag_cases with htag | htag | ⟨htag, hnone⟩
  · rw [htag, ← List.append_assoc, List.getLast?_append_of_ne_nil _ (by decide)] at hc
    obtain rfl : ')' = c := Option.some.inj hc
    decide
  · rw [htag, ← List.append_assoc, List.getLast?_append_of_ne_nil _ (by decide)] at hc
    obtain rfl : ')' = c := Option.some.inj hc
    decide
  · have hcommit : b.commit.getD "" ≠ "" := fun hcommit => h ⟨hcommit, hnone⟩
    rw [htag, sha, if_pos hcommit, String.toList_empty, List.append_nil, String.toList_append,
      ← List.append_assoc, List.getLast?_append_of_ne_nil _ (by decide)] at hc
    obtain rfl : '\x60' = c := Option.some.inj hc
    decide

/-- A carriage return after the day stands in the commit. -/
theorem return_mem_afterDate_iff :
  '\r' ∈ b.afterDate ↔ '\r' ∈ b.commitText.toList
  := by
  have htag : '\r' ∉ b.tag.toList := by
    rcases b.tag_cases with h | h | ⟨h, -⟩ <;> rw [h] <;> decide
  rw [afterDate, List.mem_append, or_iff_left htag, sha]
  split
  · simp
  · rename_i h
    rw [commitText, not_not.mp h]
    decide

/-- The carriage returns that are left in what is shown. -/
theorem return_mem_shown_iff :
  '\r' ∈ trim isSpace (b.shownAuthor ++ " @ " ++ b.dateText ++ b.sha ++ b.tag).toList ↔
    '\r' ∈ b.authorText.toList.dropWhile isSpace ∨
    (if b.commit.getD "" = "" ∧ b.introducedBy ∉ [some "this_event", some "earlier"] then
      '\r' ∈ b.dateText.toList.rdropWhile isSpace else '\r' ∈ b.dateText.toList) ∨
    '\r' ∈ b.commitText.toList
  := by
  have hauthor : '\r' ∈ b.shownAuthor.toList.dropWhile isSpace ↔
      '\r' ∈ b.authorText.toList.dropWhile isSpace := by
    rw [shownAuthor]
    split
    · rfl
    · rename_i h
      rw [not_not.mp h]
      decide
  have hdate : '\r' ∈ (b.dateText.toList ++ b.afterDate).rdropWhile isSpace ↔
      (if b.commit.getD "" = "" ∧ b.introducedBy ∉ [some "this_event", some "earlier"] then
        '\r' ∈ b.dateText.toList.rdropWhile isSpace else '\r' ∈ b.dateText.toList) ∨
      '\r' ∈ b.commitText.toList := by
    by_cases h : b.commit.getD "" = "" ∧ b.introducedBy ∉ [some "this_event", some "earlier"]
    · have hsha : b.sha = "" := by rw [sha, if_neg (not_not_intro h.1)]
      have htag : b.tag = "" := by
        obtain ⟨hthis, hearlier⟩ :
            b.introducedBy ≠ some "this_event" ∧ b.introducedBy ≠ some "earlier" := by
          simpa using h.2
        rw [tag, if_neg hthis, if_neg hearlier]
      have hcommit : '\r' ∉ b.commitText.toList := by
        rw [commitText, h.1]
        decide
      rw [if_pos h, or_iff_left hcommit, afterDate, hsha, htag, String.toList_empty,
        List.append_nil, List.append_nil]
    · rw [if_neg h, Trim.rdropWhile_of_last (last_afterDate h), List.mem_append,
        return_mem_afterDate_iff]
  rw [toList_shown, Trim.trim_append_cons (by decide), List.mem_append, List.mem_cons,
    Trim.mem_dropWhile_concat (by decide) (by decide),
    Trim.mem_rdropWhile_cons (by decide) (by decide), hauthor, hdate]
  simp

/-- What is shown of the blame is tidy exactly if its parts are. -/
theorem tidy_cell_iff :
  Agent.Tidy b.cell ↔ (b.IsShown → b.Tidy)
  := by
  rw [cell]
  by_cases hshown : b.IsShown
  · rw [if_neg (not_not_intro hshown)]
    change Agent.Tidy (strip (b.shownAuthor ++ " @ " ++ b.dateText ++ b.sha ++ b.tag)) ↔ _
    rw [tidy_strip_iff]
    have hpipe : NoEscapedPipe (b.shownAuthor ++ " @ " ++ b.dateText ++ b.sha ++ b.tag) ↔
        NoEscapedPipe b.authorText ∧ NoEscapedPipe b.dateText ∧ NoEscapedPipe b.commitText := by
      simp only [noEscapedPipe_iff, escaped_shown]
      omega
    constructor
    · rintro ⟨hpipes, hline⟩ -
      obtain ⟨hauthor, hdate, hcommit⟩ := hpipe.mp hpipes
      rw [return_mem_shown_iff, not_or, not_or] at hline
      refine ⟨⟨hauthor, hline.1⟩, ⟨hdate, ?_⟩, ⟨hcommit, hline.2.2⟩⟩
      have hdate := hline.2.1
      split
      · rename_i h
        rw [if_pos h] at hdate
        exact hdate
      · rename_i h
        rw [if_neg h] at hdate
        exact hdate
    · intro h
      obtain ⟨⟨hauthor, hauthor'⟩, ⟨hdate, hdate'⟩, ⟨hcommit, hcommit'⟩⟩ := h hshown
      refine ⟨hpipe.mpr ⟨hauthor, hdate, hcommit⟩, ?_⟩
      rw [return_mem_shown_iff, not_or, not_or]
      refine ⟨hauthor', ?_, hcommit'⟩
      split
      · rename_i h
        rw [if_pos h] at hdate'
        exact hdate'
      · rename_i h
        rw [if_neg h] at hdate'
        exact hdate'
  · rw [if_pos hshown]
    exact iff_of_true tidy_dash fun h => absurd h hshown

end Blame

/-! ### The rows in the text -/

theorem joinLines_append {above below : List String} (ha : above ≠ []) (hb : below ≠ []) :
  joinLines (above ++ below) = joinLines above ++ "\n" ++ joinLines below
  := by
  induction above with
  | nil => contradiction
  | cons line above ih =>
      cases above with
      | nil =>
          obtain ⟨first, below, rfl⟩ := List.exists_cons_of_ne_nil hb
          rfl
      | cons line' above =>
          have hcons : ∀ lines, lines ≠ [] →
              joinLines (line :: lines) = line ++ "\n" ++ joinLines lines := by
            intro lines hlines
            obtain ⟨first, lines, rfl⟩ := List.exists_cons_of_ne_nil hlines
            rfl
          have hstep := ih (List.cons_ne_nil _ _)
          rw [List.cons_append] at hstep
          rw [List.cons_append, List.cons_append, hcons _ (List.cons_ne_nil _ _), hstep,
            hcons _ (List.cons_ne_nil _ _)]
          simp only [String.append_assoc]

/-- What comes before a character that is no blank is not stripped, and neither is a newline that
another one replaces. -/
theorem exists_rstrip {text : String} (hlast : ∀ c ∈ text.toList.getLast?, isSpace c = false)
    (rest : String) :
  ∃ after, rstrip (text ++ ("\n" ++ rest)) ++ "\n" = text ++ ("\n" ++ after)
  := by
  have hrstrip : (rstrip (text ++ ("\n" ++ rest))).toList =
      text.toList ++ ('\n' :: rest.toList).rdropWhile isSpace := by
    rw [rstrip, String.toList_ofList, String.toList_append, String.toList_append]
    exact Trim.rdropWhile_append hlast _
  obtain hnil | ⟨kept, hkept⟩ : ('\n' :: rest.toList).rdropWhile isSpace = [] ∨
      ∃ kept, ('\n' :: rest.toList).rdropWhile isSpace = '\n' :: kept := by
    have hprefix := List.rdropWhile_prefix isSpace ('\n' :: rest.toList)
    rcases List.prefix_cons_iff.mp hprefix with hnil | ⟨kept, hkept, -⟩
    · exact .inl hnil
    · exact .inr ⟨kept, hkept⟩
  · use ""
    apply String.toList_inj.mp
    rw [String.toList_append, hrstrip, hnil]
    simp
  · use String.ofList kept ++ "\n"
    apply String.toList_inj.mp
    rw [String.toList_append, hrstrip, hkept]
    simp

/-- Lines that stand before an empty one are not stripped, if the last does not end with a blank. -/
theorem exists_rstrip_joinLines {above lines : List String} {line : String} (ha : above ≠ [])
    (hlast : ∀ c ∈ line.toList.getLast?, isSpace c = false) (hline : line ≠ "")
    (below : List String) :
  ∃ before after, rstrip (joinLines (above ++ (lines ++ [line, ""]) ++ below)) ++ "\n" =
    before ++ joinLines (lines ++ [line, ""]) ++ after
  := by
  have hshown : ∃ begin, joinLines (lines ++ [line]) = begin ++ line := by
    by_cases hlines : lines = []
    · use ""
      rw [hlines]
      simp [joinLines]
    · use joinLines lines ++ "\n"
      rw [joinLines_append hlines (List.cons_ne_nil _ _)]
      rfl
  obtain ⟨begin, hbegin⟩ := hshown
  have hlines : lines ++ [line, ""] = lines ++ [line] ++ [""] := by simp
  have htext : joinLines (above ++ (lines ++ [line, ""]) ++ below) =
      joinLines above ++ "\n" ++ joinLines (lines ++ [line]) ++ ("\n" ++ joinLines ("" :: below)) := by
    have hassoc : above ++ (lines ++ [line, ""]) ++ below =
        above ++ ((lines ++ [line]) ++ ("" :: below)) := by simp
    rw [hassoc, joinLines_append ha (by simp), joinLines_append (by simp) (List.cons_ne_nil _ _)]
    simp only [String.append_assoc]
  have hend : ∀ c ∈ (joinLines above ++ "\n" ++ joinLines (lines ++ [line])).toList.getLast?,
      isSpace c = false := by
    rw [hbegin, ← String.append_assoc, String.toList_append, List.getLast?_append_of_ne_nil]
    · exact hlast
    · intro hempty
      exact hline (String.toList_inj.mp hempty)
  have hclose : joinLines (lines ++ [line] ++ [""]) = joinLines (lines ++ [line]) ++ "\n" := by
    rw [joinLines_append (by simp) (List.cons_ne_nil _ _)]
    exact String.append_empty
  obtain ⟨after, hafter⟩ := exists_rstrip hend (joinLines ("" :: below))
  use joinLines above ++ "\n", after
  rw [htext, hafter, hlines, hclose]
  simp only [String.append_assoc]

/-- The lines of the table stand in the text, one after the other. -/
theorem StructuredReport.exists_render (r : StructuredReport) :
  ∃ before after, r.render = before ++ joinLines r.table ++ after
  := by
  by_cases hfindings : r.findings = []
  · use r.render, ""
    rw [table, if_pos hfindings]
    simp [joinLines]
  · obtain ⟨findings, f, hf⟩ := r.findings.eq_nil_or_concat'.resolve_left hfindings
    have htable : r.table = tableHead ++ findings.map findingRow ++ [findingRow f, ""] := by
      rw [table, if_neg hfindings, hf]
      simp
    have hbar : ∀ begin : String, (begin ++ " |").toList.getLast? = some '|' := by simp
    have hrow : (findingRow f).toList.getLast? = some '|' := hbar _
    have hlast : ∀ c ∈ (findingRow f).toList.getLast?, isSpace c = false := by
      rw [hrow]
      rintro _ ⟨⟩
      rfl
    have hne : findingRow f ≠ "" := by
      intro hempty
      rw [hempty] at hrow
      contradiction
    have habove : [r.head, "", "## Summary", r.summary, ""] ++
        (if r.scopeLines ≠ [] then ["## Scope"] ++ r.scopeLines ++ [""] else []) ++
        bullets "Method" r.method ++ ["## Findings", r.countLine, ""] ≠ [] := by simp
    obtain ⟨before, after, h⟩ := @exists_rstrip_joinLines _ (tableHead ++ findings.map findingRow) _
      habove hlast hne (bullets "Top risks" r.topRisks ++
        (bullets "Recommendations" r.recommendations ++ bullets "Limitations" r.limitations))
    use before, after
    rw [htable, ← h, ← htable, render]
    simp only [List.append_assoc]

/-- **The row of a finding is well formed exactly if the finding is tidy.** -/
theorem wellFormedRow_iff_tidy {f : HubFinding} :
  WellFormedRow 6 (findingRow f) ↔ f.Tidy
  := by
  rw [wellFormedRow_findingRow_iff, HubFinding.cellTexts]
  simp only [List.forall_mem_cons, List.not_mem_nil, false_implies, implies_true, and_true,
    tidy_orDash_iff, tidy_location_iff, Blame.tidy_cell_iff]
  exact ⟨fun ⟨h₁, h₂, h₃, h₄, h₅, h₆⟩ => ⟨h₁, h₂, h₃, h₄, h₅, h₆⟩,
    fun ⟨h₁, h₂, h₃, h₄, h₅, h₆⟩ => ⟨h₁, h₂, h₃, h₄, h₅, h₆⟩⟩

end Agent
