import GitAgent.Agent.Integer
import GitAgent.Agent.Porcelain
import GitAgent.Agent.Toolset
import GitAgent.Library.Lines
import GitAgent.Library.Trim

/-!
# The text of a blame

The text that `git blame --porcelain` prints, and how the runner reads it line by line
(`parse_blame_porcelain` in `core/tools/security/blame.py`). What is read are the lines of
`splitlines`, which cuts a text also at other characters than the newline.
-/

namespace Agent

/-! ### What is read -/

/-- The digits that are no decimal digits. -/
def otherDigits : List (ℕ × ℕ) :=
  [(0xb2, 0xb3), (0xb9, 0xb9), (0x1369, 0x1371), (0x19da, 0x19da), (0x2070, 0x2070),
    (0x2074, 0x2079), (0x2080, 0x2089), (0x2460, 0x2468), (0x2474, 0x247c), (0x2488, 0x2490),
    (0x24ea, 0x24ea), (0x24f5, 0x24fd), (0x24ff, 0x24ff), (0x2776, 0x277e), (0x2780, 0x2788),
    (0x278a, 0x2792), (0x10a40, 0x10a43), (0x10e60, 0x10e68), (0x11052, 0x1105a),
    (0x1f100, 0x1f10a)]

/-- `isdigit`. -/
def isDigits (cs : List Char) : Bool :=
  !cs.isEmpty && cs.all fun c =>
    (digit? c).isSome || otherDigits.any fun r => r.1 ≤ c.toNat && c.toNat ≤ r.2

/-- The digits of a hash. -/
def isHexDigit (c : Char) : Bool :=
  ('0' ≤ c && c ≤ '9') || ('a' ≤ c && c ≤ 'f')

/-- `_is_header`. -/
def isHeader (line : List Char) : Bool :=
  match line.splitOn ' ' with
  | sha :: orig :: final :: _ =>
      sha.length = 40 && sha.all isHexDigit && isDigits orig && isDigits final
  | _ => false

/-- What comes before the first blank of a line. -/
def lineKey (line : List Char) : String :=
  String.ofList (line.takeWhile (· ≠ ' '))

/-- What comes after the first blank of a line, without blanks around it. -/
def lineValue (line : List Char) : String :=
  strip (String.ofList ((line.dropWhile (· ≠ ' ')).drop 1))

/-- The keys of a line that are read. -/
def blameKeys : List String :=
  ["author", "author-mail", "author-time", "author-tz", "summary"]

/-- What is known of a commit after one more line is read of it: the first value of a key counts. -/
def noteLine (info : Dict String String) (line : List Char) : Dict String String :=
  if lineKey line ∈ blameKeys ∧ info.get (lineKey line) = none then
    info.set (lineKey line) (lineValue line)
  else info

/-- How the texts of a time and of a time zone are written as a date, if at all. It fails where the
date is out of the range of a calendar. -/
abbrev IsoText :=
  String → String → Option (Option String)

/-- What has been read of the text. -/
structure BlameState where
  commits : Dict String (Dict String String) := .empty
  linesByCommit : Dict String ℕ := .empty
  current : Option String := none

namespace BlameState

variable (p : BlameState)

/-- One more line is read. -/
def readLine (line : List Char) : BlameState :=
  if line.head? = some '\t' then p
  else if isHeader line then
    let sha := lineKey line
    { commits := if p.commits.get sha = none then p.commits.set sha .empty else p.commits
      linesByCommit := p.linesByCommit.set sha ((p.linesByCommit.get sha).getD 0 + 1)
      current := some sha }
  else
    match p.current with
    | none => p
    | some sha =>
        { p with commits := p.commits.set sha (noteLine ((p.commits.get sha).getD .empty) line) }

/-- `int(author-time or 0)`, which can fail. -/
def authorTime (info : Dict String String) : Option ℤ :=
  match info.get "author-time" with
  | none | some "" => some 0
  | some text => parseInt text

/-- The commits with their numbers of lines and their times. -/
def candidates : Option (List Rank) :=
  (p.linesByCommit.items.filter fun (sha, _) => sha ≠ uncommitted).mapM fun (sha, n) =>
    (authorTime ((p.commits.get sha).getD .empty)).map fun time => rank n time sha

/-- What the runner keeps of what is known of a commit. -/
def keep (iso : IsoText) (sha : String) (info : Dict String String) : Option Blame :=
  (iso ((info.get "author-time").getD "") ((info.get "author-tz").getD "+0000")).map fun date =>
    { author := (info.get "author").bind orNone
      email := orNone (String.ofList (stripChars (fun c => c = '<' ∨ c = '>')
        ((info.get "author-mail").getD "").toList))
      commit := some sha
      date := date
      commitMessage := (info.get "summary").bind orNone }

/-- The blame of the commit with most lines. -/
def blame (iso : IsoText) : Option Blame :=
  p.candidates.bind fun candidates =>
    match candidates.max? with
    | none => some {}
    | some best => keep iso best.sha ((p.commits.get best.sha).getD .empty)

end BlameState

/-- `parse_blame_porcelain`, which can fail. -/
def parseBlameText (iso : IsoText) (text : String) : Option Blame :=
  ((splitLines text).foldl (fun p line => p.readLine line.toList) {} : BlameState).blame iso

/-! ### What is printed -/

/-- A text that stands in one line of a file. -/
structure OneLine where
  chars : List Char
  one : '\n' ∉ chars

/-- A text that `splitlines` does not cut. -/
structure PlainText where
  chars : List Char
  plain : ∀ c ∈ chars, isLineBreak c = false

theorem plain_of_any {chars : List Char} (h : chars.any isLineBreak = false) :
  ∀ c ∈ chars, isLineBreak c = false
  := fun c hc => Bool.eq_false_iff.mpr (List.any_eq_false.mp h c hc)

/-- The hash of a commit. -/
structure Sha where
  name : String
  length : name.toList.length = 40
  hex : name.toList.all isHexDigit = true

/-- The keys of what is said of a commit that are not read. -/
inductive OtherKey
  | committer
  | committerMail
  | committerTime
  | committerTz
  | previous
  | filename

/-- A key as it is printed. -/
def OtherKey.name : OtherKey → String
  | committer => "committer"
  | committerMail => "committer-mail"
  | committerTime => "committer-time"
  | committerTz => "committer-tz"
  | previous => "previous"
  | filename => "filename"

/-- A key and its value. -/
def keyLine (key : String) (value : List Char) : List Char :=
  key.toList ++ ' ' :: value

/-- What is said of a commit. -/
structure CommitMeta where
  author : OneLine
  mail : PlainText
  time : ℤ
  tz : PlainText
  summary : OneLine
  committer : List (OtherKey × PlainText) := []
  boundary : Bool := false
  others : List (OtherKey × PlainText) := []
  time_lt : time.natAbs < 2 ^ 64

/-- The lines that say it. -/
def CommitMeta.lines (m : CommitMeta) : List (List Char) :=
  [keyLine "author" m.author.chars, keyLine "author-mail" m.mail.chars,
    keyLine "author-time" (intText m.time), keyLine "author-tz" m.tz.chars] ++
  m.committer.map (fun f => keyLine f.1.name f.2.chars) ++
  [keyLine "summary" m.summary.chars] ++
  (if m.boundary then ["boundary".toList] else []) ++
  m.others.map (fun f => keyLine f.1.name f.2.chars)

/-- The commit of a line, the places of the line, and the number of lines of its group. -/
structure Attribution where
  sha : Sha
  orig : ℕ
  final : ℕ
  group : Option ℕ

/-- The header of a line. -/
def Attribution.header (a : Attribution) : List Char :=
  [' '].intercalate ([a.sha.name.toList, Nat.toDigits 10 a.orig, Nat.toDigits 10 a.final] ++
    a.group.toList.map (Nat.toDigits 10))

/-- The lines that are printed for lines of a file, of which the commits that are shown are not
described again. -/
def printed (describe : String → CommitMeta) (shown : List String) :
    List (Attribution × OneLine) → List (List Char)
  | [] => []
  | (a, code) :: lines =>
      a.header :: (if a.sha.name ∈ shown then [] else (describe a.sha.name).lines) ++
        ('\t' :: code.chars) :: printed describe (a.sha.name :: shown) lines

/-- `git blame --porcelain`. -/
def porcelainText (describe : String → CommitMeta) (lines : List (Attribution × OneLine)) :
    String :=
  String.ofList ((printed describe [] lines).flatMap fun line => line ++ ['\n'])

/-! ### What should be read -/

/-- The commit owns most of some lines, of several commits the one with the latest author time, and
of these the one with the largest name. Lines that are not committed do not count. -/
def Owns (describe : String → CommitMeta) (shas : List String) (sha : String) : Prop :=
  (sha ∈ shas ∧ sha ≠ uncommitted) ∧ ∀ s ∈ shas, s ≠ uncommitted →
    rank (shas.count s) (describe s).time s ≤ rank (shas.count sha) (describe sha).time sha

/-- The date of a commit. -/
def CommitMeta.date (iso : IsoText) (m : CommitMeta) : Option (Option String) :=
  iso (strip (String.ofList (intText m.time))) (strip (String.ofList m.tz.chars))

/-- What is kept of a commit that is described. -/
def CommitMeta.blame (date : Option String) (sha : String) (m : CommitMeta) : Blame where
  author := orNone (strip (String.ofList m.author.chars))
  email := orNone (String.ofList (stripChars (fun c => c = '<' ∨ c = '>')
    (strip (String.ofList m.mail.chars)).toList))
  commit := some sha
  date := date
  commitMessage := orNone (strip (String.ofList m.summary.chars))

/-- The commit that owns most of the lines is read, with what is said of it, and nothing if no line
is committed. -/
def Decodes (iso : IsoText) (describe : String → CommitMeta)
    (lines : List (Attribution × OneLine)) : Prop :=
  ∃ b, parseBlameText iso (porcelainText describe lines) = some b ∧
    (∀ sha, Owns describe (lines.map fun l => l.1.sha.name) sha →
      b = (describe sha).blame b.date sha ∧ (describe sha).date iso = some b.date) ∧
    ((∀ l ∈ lines, l.1.sha.name = uncommitted) → b = {})

/-- A text has a line break after which something is read as the header of a commit. -/
def Forges (text : List Char) : Prop :=
  ∃ piece ∈ Lines.rest '\r' isLineBreak text, isHeader piece = true ∧ lineKey piece ≠ uncommitted

/-- What comes before the first line break of a text is the text, without blanks around it. -/
def Whole (text : List Char) : Prop :=
  strip (String.ofList (Lines.first isLineBreak text)) = strip (String.ofList text)

end Agent
