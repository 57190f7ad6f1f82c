import GitAgent.Agent.Table
import GitAgent.Hub.Export

/-!
# Tables of findings

The findings of a report are a table in the text that the agent writes, and again in the export of
the hub. In both, the row of a finding is one line with its number of cells exactly if the finding is
tidy: a backslash before a pipe leaves a pipe that is not escaped.
-/

namespace Cluster

open Agent (StructuredReport HubFinding findingRow joinLines)

/-- The line of a finding in the table of a report. -/
theorem table_getElem? {r : StructuredReport} {i : ℕ} {f : HubFinding}
    (h : r.findings[i]? = some f) :
  r.table[i + 2]? = some (findingRow f)
  := by
  have hne : r.findings ≠ [] := by
    intro hnil
    rw [hnil] at h
    contradiction
  have hrows : (r.findings.map findingRow)[i]? = some (findingRow f) := by
    rw [List.getElem?_map, h, Option.map_some]
  rw [StructuredReport.table, if_neg hne, List.append_assoc]
  change (r.findings.map findingRow ++ [""])[i]? = _
  rw [List.getElem?_append_left, hrows]
  exact (List.getElem?_eq_some_iff.mp hrows).1

/-- **Each row is well formed exactly if its finding is tidy**, in the text of a report, of which the
rows are lines, and in the export of any findings. -/
theorem rows_wellFormed_iff_tidy (r : StructuredReport) (list : List Hub.Finding) :
  (∃ before after, r.render = before ++ joinLines r.table ++ after) ∧
  (∀ (i : ℕ) f, r.findings[i]? = some f →
    ∃ row, r.table[i + 2]? = some row ∧ (Agent.WellFormedRow 6 row ↔ f.Tidy)) ∧
  ((Hub.writeFindingsMarkdown list).splitOn 0x0A).length = list.length + 3 ∧
  (∀ (i : ℕ) f, list[i]? = some f →
    ∃ row, ((Hub.writeFindingsMarkdown list).splitOn 0x0A)[i + 2]? = some row ∧
      (Hub.WellFormedRow 9 row ↔ f.Tidy))
  := by
  refine ⟨r.exists_render, ?_, ?_, ?_⟩
  · intro i f hf
    exact ⟨_, table_getElem? hf, Agent.wellFormedRow_iff_tidy⟩
  · rw [Hub.splitOn_writeFindingsMarkdown]
    simp [Hub.findingLines]
  · intro i f hf
    have hline := Hub.findingLines_getElem? hf
    refine ⟨_, ?_, Hub.wellFormedRow_iff_tidy (n := i + 1)⟩
    rw [Hub.splitOn_writeFindingsMarkdown]
    change (Hub.findingLines list ++ [[]])[i]? = _
    rw [List.getElem?_append_left, hline]
    exact (List.getElem?_eq_some_iff.mp hline).1

/-- A finding of the title `a\|b`. -/
def escapedTitle : HubFinding where
  title := "a\\|b"
  severity := "low"
  description := ""
  impact := none
  confidence := none
  category := "other"
  file := none
  lineStart := none
  lineEnd := none
  cwe := none
  cve := none
  evidence := none
  remediation := none
  references := []

/-- The same finding in the hub. -/
def storedTitle : Hub.Finding where
  severity := Hub.bytes "low"
  cwe := none
  cve := none
  file := none
  lineStart := none
  lineEnd := none
  remediation := none
  title := some (Hub.bytes "a\\|b")
  confidence := none
  category := some (Hub.bytes "other")
  blameAuthor := none
  blameCommit := none
  blameDate := none
  introducedBy := none

/-- A title in which a pipe is escaped adds a cell to both rows. -/
theorem escapedTitle_not_wellFormed :
  (Cells.split '\\' '|' (findingRow escapedTitle).toList =
      ["", " low ", " a\\\\", "b ", " — ", " — ", " — ", " — ", ""].map String.toList ∧
    ¬ Agent.WellFormedRow 6 (findingRow escapedTitle)) ∧
  (Cells.split 0x5C 0x7C (Hub.line (storedTitle.exportRow 1)) =
      ["", " 1 ", " low ", " a\\\\", "b ", " other ", "  ", "  ", "  ", "  ", "  ", ""].map
        Hub.bytes ∧
    ¬ Hub.WellFormedRow 9 (Hub.line (storedTitle.exportRow 1)))
  := by
  refine ⟨⟨by decide, ?_⟩, ⟨by decide, ?_⟩⟩
  · rw [Agent.wellFormedRow_iff_tidy]
    intro htidy
    have htitle := Agent.noEscapedPipe_iff.mp htidy.title.pipe
    contradiction
  · rw [Hub.wellFormedRow_iff_tidy]
    intro htidy
    have htitle := Hub.noEscapedPipe_iff.mp (htidy (Hub.bytes "a\\|b") (by decide))
    contradiction

end Cluster
