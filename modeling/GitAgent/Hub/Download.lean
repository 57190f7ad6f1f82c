import Mathlib.Algebra.Group.Int.Defs
import GitAgent.Hub.Event
import GitAgent.Hub.Export
import GitAgent.Library.Csv
import GitAgent.Library.Ranked
import GitAgent.Library.Table

/-!
# The download of findings

The findings of an instance or of a repository, as they are downloaded as a table of comma-separated
values (`exportFindings` in `internal/hub/adapters/httpapi/findings.go`). A strict reader of such
tables is given each finding that passes the filter once, the most severe first and the newest first
among those that are as severe, with the texts that the finding has up to their line ends.
-/

namespace Hub

/-! ### The findings -/

/-- A row of `hub.findings`. -/
structure FindingRow extends Finding where
  id : ℕ
  instanceId : InstanceId
  eventId : Option EventId

/-- `FindingFilter`. -/
structure FindingFilter where
  instanceId : Option InstanceId := none
  repositoryId : Option RepositoryId := none
  severity : Option Bytes := none
  category : Option Bytes := none
  eventId : Option EventId := none
  introducedBy : Option Bytes := none

/-- The table `hub.findings`, and the repository of each instance. -/
structure FindingsDb where
  findings : Serial FindingRow fun r => r.id
  repositoryOf : InstanceId → Option RepositoryId

namespace FindingsDb

variable (D : FindingsDb)

/-- Whether a finding passes a filter: a condition that is missing holds, and a field that is missing
satisfies no condition. -/
def passes (F : FindingFilter) (r : FindingRow) : Bool :=
  (D.repositoryOf r.instanceId).isSome &&
    F.instanceId.all (fun id => r.instanceId = id) &&
    F.repositoryId.all (fun id => D.repositoryOf r.instanceId = some id) &&
    F.severity.all (fun s => r.severity = s) &&
    F.category.all (fun s => r.category = some s) &&
    F.eventId.all (fun id => r.eventId = some id) &&
    F.introducedBy.all (fun s => r.introducedBy = some s)

/-- The query `Findings`, by the last key first. -/
def select (F : FindingFilter) : List FindingRow :=
  (D.findings.rows.filter (D.passes F)).reverse

end FindingsDb

/-! ### The order -/

/-- `severityRank`. -/
def severityRank : List (Bytes × ℕ) :=
  [(bytes "critical", 0), (bytes "high", 1), (bytes "medium", 2), (bytes "low", 3), (bytes "info", 4)]

section

variable (toLower : Bytes → Bytes)

/-- The rank of a severity, with `strings.ToLower`. -/
def severityOrder (s : Bytes) : ℕ :=
  (severityRank.lookup (toLower s)).getD severityRank.length

/-- `sortBySeverity`. -/
def sortBySeverity (list : List FindingRow) : List FindingRow :=
  Ranked.sortBy (fun f => severityOrder toLower f.severity) list

end

/-! ### The table -/

/-- The marks of `encoding/csv`. -/
def csvMarks : Csv.Marks UInt8 where
  comma := 0x2C
  quote := 0x22
  cr := 0x0D
  lf := 0x0A
  nodup := by decide

/-- `fieldNeedsQuotes`. -/
def fieldNeedsQuotes (s : Bytes) : Bool :=
  if s = [] then false
  else s = bytes "\\." || s.any csvMarks.isMark || spaces.any fun space => space.isPrefixOf s

/-- The mark of the byte order. -/
def byteOrderMark : Bytes :=
  bytes "\ufeff"

/-- `writeFindingsCSV`. -/
def writeFindingsCSV (list : List FindingRow) : Bytes :=
  byteOrderMark ++
    (exportHeader :: list.zipIdx.map fun (f, i) => f.exportRow (i + 1)).flatMap
      (Csv.record csvMarks fieldNeedsQuotes)

/-- `exportFindings`, in the format `csv`. -/
def exportFindings (toLower : Bytes → Bytes) (D : FindingsDb) (F : FindingFilter) : Bytes :=
  writeFindingsCSV (sortBySeverity toLower (D.select F))

/-- What a strict reader is given, once it has dropped the mark of the byte order. -/
def readTable (file : Bytes) : Option (List (List Bytes)) :=
  if byteOrderMark <+: file then Csv.parse csvMarks (file.drop byteOrderMark.length) else none

/-- A text with the line ends of the table: a line feed comes with a carriage return, and other
carriage returns are dropped. -/
def lineEnds (s : Bytes) : Bytes :=
  s.flatMap (Csv.lineEnd csvMarks)

/-! ### What is read -/

/-- A table that was written is read as the header and a record for each finding. -/
theorem readTable_writeFindingsCSV (list : List FindingRow) :
  readTable (writeFindingsCSV list) =
    some (exportHeader :: list.zipIdx.map fun (f, i) => (f.exportRow (i + 1)).map lineEnds)
  := by
  have hquotes : ∀ s, fieldNeedsQuotes s = false → ∀ b ∈ s, csvMarks.isMark b = false := by
    intro s hs b hb
    have hne : s ≠ [] := List.ne_nil_of_mem hb
    rw [fieldNeedsQuotes, if_neg hne, Bool.or_eq_false_iff, Bool.or_eq_false_iff] at hs
    exact Bool.eq_false_iff.mpr (List.any_eq_false.mp hs.1.2 b hb)
  have hheader : exportHeader.map lineEnds = exportHeader := by decide
  rw [readTable, writeFindingsCSV, if_pos (List.prefix_append _ _), List.drop_left,
    Csv.parse_records _ fun r _ s _ => hquotes s, List.map_cons, List.map_map]
  · change some (exportHeader.map lineEnds :: _) = _
    rw [hheader]
    rfl
  · rintro r hr
    rcases List.mem_cons.mp hr with rfl | hr
    · decide
    · obtain ⟨p, -, rfl⟩ := List.mem_map.mp hr
      apply List.cons_ne_nil

/-- The records of a download: the findings `list` are those that pass the filter, each once, with
the most severe first and those as severe by the last key first, and each has its record. -/
structure Downloaded (toLower : Bytes → Bytes) (D : FindingsDb) (F : FindingFilter)
    (records : List (List Bytes)) (list : List FindingRow) : Prop where
  perm : list.Perm (D.findings.rows.filter (D.passes F))
  order : list.Pairwise fun f g =>
    severityOrder toLower f.severity < severityOrder toLower g.severity ∨
      severityOrder toLower f.severity = severityOrder toLower g.severity ∧ g.id < f.id
  records : records =
    exportHeader :: list.zipIdx.map fun (f, i) => (f.exportRow (i + 1)).map lineEnds

/-- Whatever the findings and the filter, what is downloaded is a table for a strict reader, which is
given each finding that passes the filter once, in the order of the severities and by the last key
first, with the texts of its row up to their line ends. -/
theorem exportFindings_read_back (toLower : Bytes → Bytes) (D : FindingsDb) (F : FindingFilter) :
  ∃ records list, readTable (exportFindings toLower D F) = some records ∧
    Downloaded toLower D F records list
  := by
  refine ⟨_, sortBySeverity toLower (D.select F), readTable_writeFindingsCSV _, ?_, ?_, rfl⟩
  · exact (Ranked.perm_sortBy _ _).trans (List.reverse_perm _)
  · apply Ranked.pairwise_sortBy
    rw [FindingsDb.select, List.pairwise_reverse]
    exact D.findings.sorted.filter _

end Hub
