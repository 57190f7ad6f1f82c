import GitAgent.Library.Shell

/-!
# The commands of the sandbox

Every command that the agent runs in its sandbox, but for those that the model or a user writes
itself, is a format with quoted arguments: the tools (`core/tools/sandbox`), the preparation of the
clone (`core/repo.py`) and the blame of findings (`core/tools/security/blame.py`). The shell reads each
of them as one fixed command, whatever the arguments are.
-/

namespace Agent

open Shell (Fragment Redirect)

/-- What is run in the sandbox: by the tools, by the preparation of the clone and for the blame. -/
inductive SandboxCommand
  | readFile (path : String) (offset limit : ℤ)
  | listDir (path : String) (depth : ℤ)
  | grepCode (pattern path glob : String) (context : ℤ) (fixed : Bool)
  | gitDiff (ref base path : String) (stat : Bool)
  | gitBlame (path : String) (startLine endLine : ℤ)
  | browse (url : String) (maxChars : ℕ)
  | repoPresent
  | advanceRepo (checkoutRef : String)
  | cloneRepo (repoUrl : String)
  | revParse
  | hasCommit (sha : String)
  | fetchCommit (sha : String)
  | mergeBase (base head : String)
  | unshallow
  | blame (file : String) (first last : ℕ)
  | isAncestor (commit ref : String)
  deriving DecidableEq, Repr

namespace SandboxCommand

/-! ### The formats -/

section

variable (repoDir : String)

/-- `LIST_MAX_ENTRIES`. -/
def listMaxEntries : ℕ := 500

/-- `_FETCH_BYTES_PER_CHAR`. -/
def fetchBytesPerChar : ℕ := 8

/-- The program that `awk` prints the lines of a file with. -/
def awkScript (start last : ℕ) : String :=
  "NR>=" ++ toString start ++ " && NR<=" ++ toString last ++ " \x7bprintf \"%d\\t%s\\n\", NR, $0\x7d" ++
    " END \x7bif (NR<" ++ toString start ++ ") printf \"(file has %d lines; offset " ++ toString start ++
    " is beyond end)\\n\", NR;" ++ " else printf \"(lines " ++ toString start ++
    "-%d of %d)\\n\", (NR<" ++ toString last ++ "?NR:" ++ toString last ++ "), NR\x7d"

def readFileFormat (path : String) (offset limit : ℤ) : List Fragment :=
  let start := (max 1 offset).toNat
  let last := start + (max 1 limit).toNat - 1
  [.text "awk ", .arg (awkScript start last), .text " ", .arg path]

def listDirFormat (path : String) (depth : ℤ) : List Fragment :=
  [.text "find ", .arg (if path = "" then repoDir else path), .text " -maxdepth ",
    .number (max 1 depth).toNat, .text " -name .git -prune -o -print", .text " | sort | head -n ",
    .number (listMaxEntries + 1)]

def grepFormat (pattern path glob : String) (context : ℤ) (fixed : Bool) : List Fragment :=
  let ctx := (max 0 context).toNat
  let rg : List Fragment := [.text "rg -n --no-heading --color never -C ", .number ctx] ++
    (if fixed then [.text " -F"] else []) ++
    if glob = "" then [] else [.text " --glob ", .arg glob]
  let grep : List Fragment := [.text "grep -rn -I -C ", .number ctx, .text " ",
    .text (if fixed then "-F" else "-E")] ++
    if glob = "" then [] else [.text " --include=", .arg glob]
  [.text "if command -v rg >/dev/null 2>&1; then "] ++ rg ++
    [.text " -e ", .arg pattern, .text " ", .arg path, .text "; else "] ++ grep ++
    [.text " -e ", .arg pattern, .text " ", .arg path, .text "; fi"]

/-- The start of the commands of `git`. -/
def git : List Fragment :=
  [.text "git -C ", .arg repoDir]

def gitDiffFormat (ref base path : String) (stat : Bool) : List Fragment :=
  let opts : List Fragment := if stat then [.text " --stat"] else []
  let tail : List Fragment := if path = "" then [] else [.text " -- ", .arg path]
  if base = "" then
    git repoDir ++ [.text " show --no-color --format="] ++ opts ++ [.text " ", .arg ref] ++ tail
  else
    git repoDir ++ [.text " diff --no-color"] ++ opts ++
      [.text " ", .arg base, .text " ", .arg ref] ++ tail

def gitBlameFormat (path : String) (startLine endLine : ℤ) : List Fragment :=
  let start := max 1 startLine
  let last := if endLine = 0 then start + 50 else endLine
  git repoDir ++ [.text " blame --date=short -L ", .number start.toNat, .text ",",
    .number (max start last).toNat, .text " -- ", .arg path]

/-- `browse_command`, with the text of the script that extracts the text of a page. -/
def browseFormat (script url : String) (maxChars : ℕ) : List Fragment :=
  [.text ("command -v python3 >/dev/null 2>&1 || \x7b echo 'browse: python3 is not installed in the" ++
    " sandbox image' >&2; exit 3; \x7d; "), .text "python3 -c ", .arg script, .text " ", .arg url,
    .text " ", .number (maxChars * fetchBytesPerChar)]

def repoPresentFormat : List Fragment :=
  [.text "[ -d ", .arg repoDir, .text "/.git ] && echo yes || echo no"]

/-- The fetch of a reference and its checkout, of `advance_repo` and of `prepare_repo`. -/
def advanceRepoFormat (ref : String) : List Fragment :=
  git repoDir ++ [.text " fetch --depth 2 origin ", .arg ref] ++ [.text " && "] ++ git repoDir ++
    [.text " checkout --detach ", .arg ref]

def cloneRepoFormat (repoUrl : String) : List Fragment :=
  [.text "cd / && rm -rf ", .arg repoDir, .text " && git clone --depth 1 ", .arg repoUrl, .text " ",
    .arg repoDir]

def revParseFormat : List Fragment :=
  git repoDir ++ [.text " rev-parse HEAD"]

def hasCommitFormat (sha : String) : List Fragment :=
  git repoDir ++ [.text " cat-file -e ", .arg sha, .text "^\x7bcommit\x7d"]

def fetchCommitFormat (sha : String) : List Fragment :=
  git repoDir ++ [.text " fetch --depth 1 origin ", .arg sha]

def mergeBaseFormat (base head : String) : List Fragment :=
  git repoDir ++ [.text " merge-base ", .arg base, .text " ", .arg head]

def unshallowFormat : List Fragment :=
  git repoDir ++ [.text " fetch --unshallow origin || "] ++ git repoDir ++ [.text " fetch origin"]

def blameFormat (file : String) (first last : ℕ) : List Fragment :=
  git repoDir ++ [.text " blame -L ", .number first, .text ",", .number last,
    .text " --porcelain -- ", .arg file]

def isAncestorFormat (commit ref : String) : List Fragment :=
  git repoDir ++ [.text " merge-base --is-ancestor ", .arg commit, .text " ", .arg ref]

end

variable (repoDir script : String)

/-- The format of a command. -/
def format : SandboxCommand → List Fragment
  | .readFile path offset limit => readFileFormat path offset limit
  | .listDir path depth => listDirFormat repoDir path depth
  | .grepCode pattern path glob context fixed =>
      grepFormat pattern (if path = "" then repoDir else path) glob context fixed
  | .gitDiff ref base path stat => gitDiffFormat repoDir ref base path stat
  | .gitBlame path startLine endLine => gitBlameFormat repoDir path startLine endLine
  | .browse url maxChars => browseFormat script url maxChars
  | .repoPresent => repoPresentFormat repoDir
  | .advanceRepo checkoutRef => advanceRepoFormat repoDir checkoutRef
  | .cloneRepo repoUrl => cloneRepoFormat repoDir repoUrl
  | .revParse => revParseFormat repoDir
  | .hasCommit sha => hasCommitFormat repoDir sha
  | .fetchCommit sha => fetchCommitFormat repoDir sha
  | .mergeBase base head => mergeBaseFormat repoDir base head
  | .unshallow => unshallowFormat repoDir
  | .blame file first last => blameFormat repoDir file first last
  | .isAncestor commit ref => isAncestorFormat repoDir commit ref

/-- The text that the sandbox is given. -/
def text (c : SandboxCommand) : String :=
  Shell.format (c.format repoDir script)

/-! ### What the commands are meant to be -/

/-- A word, of characters and of arguments as they are. -/
abbrev Word := List (Char ⊕ String)

/-- A word of the format. -/
def lit (s : String) : Word :=
  s.toList.map .inl

/-- An argument as a word. -/
def arg (s : String) : Word :=
  [.inr s]

/-- A number as a word. -/
def num (n : ℕ) : Word :=
  [.inr (toString n)]

/-- A command without redirections. -/
def plain (words : List Word) : Shell.Command (Char ⊕ String) :=
  .simple words []

def gitWords : List Word :=
  [lit "git", lit "-C", arg repoDir]

/-- The redirections of the test whether there is a program. -/
def toNull : List (Redirect (Char ⊕ String)) :=
  [(none, .file (lit "/dev/null")), (some ['2'], .descriptor (lit "1"))]

/-- The command that is meant, with its words. -/
def meaning : SandboxCommand → Shell.Command (Char ⊕ String)
  | .readFile path offset limit =>
      let start := (max 1 offset).toNat
      let last := start + (max 1 limit).toNat - 1
      plain [lit "awk", arg (awkScript start last), arg path]
  | .listDir path depth =>
      .pipe
        (.pipe
          (plain [lit "find", arg (if path = "" then repoDir else path), lit "-maxdepth",
            num (max 1 depth).toNat, lit "-name", lit ".git", lit "-prune", lit "-o", lit "-print"])
          (plain [lit "sort"]))
        (plain [lit "head", lit "-n", num (listMaxEntries + 1)])
  | .grepCode pattern path glob context fixed =>
      let path := if path = "" then repoDir else path
      let ctx := (max 0 context).toNat
      .cond (.simple [lit "command", lit "-v", lit "rg"] toNull)
        (plain ([lit "rg", lit "-n", lit "--no-heading", lit "--color", lit "never", lit "-C", num ctx] ++
          (if fixed then [lit "-F"] else []) ++
          (if glob = "" then [] else [lit "--glob", arg glob]) ++
          [lit "-e", arg pattern, arg path]))
        (plain ([lit "grep", lit "-rn", lit "-I", lit "-C", num ctx,
            if fixed then lit "-F" else lit "-E"] ++
          (if glob = "" then [] else [lit "--include=" ++ arg glob]) ++
          [lit "-e", arg pattern, arg path]))
  | .gitDiff ref base path stat =>
      plain (gitWords repoDir ++
        (if base = "" then [lit "show", lit "--no-color", lit "--format="]
          else [lit "diff", lit "--no-color"]) ++
        (if stat then [lit "--stat"] else []) ++
        (if base = "" then [arg ref] else [arg base, arg ref]) ++
        if path = "" then [] else [lit "--", arg path])
  | .gitBlame path startLine endLine =>
      let start := max 1 startLine
      let last := if endLine = 0 then start + 50 else endLine
      plain (gitWords repoDir ++ [lit "blame", lit "--date=short", lit "-L",
        num start.toNat ++ lit "," ++ num (max start last).toNat, lit "--", arg path])
  | .browse url maxChars =>
      .seq
        (.or (.simple [lit "command", lit "-v", lit "python3"] toNull)
          (.group (.seq
            (.simple [lit "echo", lit "browse: python3 is not installed in the sandbox image"]
              [(none, .descriptor (lit "2"))])
            (plain [lit "exit", lit "3"]))))
        (plain [lit "python3", lit "-c", arg script, arg url, num (maxChars * fetchBytesPerChar)])
  | .repoPresent =>
      .or (.and (plain [lit "[", lit "-d", arg repoDir ++ lit "/.git", lit "]"])
        (plain [lit "echo", lit "yes"])) (plain [lit "echo", lit "no"])
  | .advanceRepo checkoutRef =>
      .and (plain (gitWords repoDir ++
          [lit "fetch", lit "--depth", lit "2", lit "origin", arg checkoutRef]))
        (plain (gitWords repoDir ++ [lit "checkout", lit "--detach", arg checkoutRef]))
  | .cloneRepo repoUrl =>
      .and (.and (plain [lit "cd", lit "/"]) (plain [lit "rm", lit "-rf", arg repoDir]))
        (plain [lit "git", lit "clone", lit "--depth", lit "1", arg repoUrl, arg repoDir])
  | .revParse => plain (gitWords repoDir ++ [lit "rev-parse", lit "HEAD"])
  | .hasCommit sha =>
      plain (gitWords repoDir ++ [lit "cat-file", lit "-e", arg sha ++ lit "^\x7bcommit\x7d"])
  | .fetchCommit sha =>
      plain (gitWords repoDir ++ [lit "fetch", lit "--depth", lit "1", lit "origin", arg sha])
  | .mergeBase base head => plain (gitWords repoDir ++ [lit "merge-base", arg base, arg head])
  | .unshallow =>
      .or (plain (gitWords repoDir ++ [lit "fetch", lit "--unshallow", lit "origin"]))
        (plain (gitWords repoDir ++ [lit "fetch", lit "origin"]))
  | .blame file first last =>
      plain (gitWords repoDir ++ [lit "blame", lit "-L", num first ++ lit "," ++ num last,
        lit "--porcelain", lit "--", arg file])
  | .isAncestor commit ref =>
      plain (gitWords repoDir ++ [lit "merge-base", lit "--is-ancestor", arg commit, arg ref])

set_option maxRecDepth 4000 in
theorem parseTemplate_grepFormat (pattern path glob : String) (context : ℤ) (fixed : Bool) :
  Shell.parseTemplate (((grepCode pattern path glob context fixed).format repoDir script).flatMap
      Fragment.shape) =
    some ((grepCode pattern path glob context fixed).meaning repoDir script)
  := by
  rw [format, grepFormat, meaning]
  cases fixed <;> by_cases hglob : glob = "" <;> simp only [hglob, if_true, if_false] <;> rfl

theorem parseTemplate_gitDiffFormat (ref base path : String) (stat : Bool) :
  Shell.parseTemplate (((gitDiff ref base path stat).format repoDir script).flatMap Fragment.shape) =
    some ((gitDiff ref base path stat).meaning repoDir script)
  := by
  rw [format, gitDiffFormat, meaning]
  cases stat <;> by_cases hbase : base = "" <;> by_cases hpath : path = "" <;>
    simp only [hbase, hpath, if_true, if_false] <;> rfl

set_option maxRecDepth 4000 in
/-- The template of a command is read as what is meant. -/
theorem parseTemplate_format (c : SandboxCommand) :
  Shell.parseTemplate ((c.format repoDir script).flatMap Fragment.shape) =
    some (c.meaning repoDir script)
  := by
  cases c with
  | grepCode pattern path glob context fixed => apply parseTemplate_grepFormat
  | gitDiff ref base path stat => apply parseTemplate_gitDiffFormat
  | _ => rfl

variable {repoDir script}

/-- The arguments of a command. -/
def args : SandboxCommand → List String
  | .readFile path _ _ | .listDir path _ | .gitBlame path _ _ => [path]
  | .grepCode pattern path glob _ _ => [pattern, path, glob]
  | .gitDiff ref base path _ => [ref, base, path]
  | .browse url _ => [url]
  | .repoPresent | .revParse | .unshallow => []
  | .advanceRepo arg | .cloneRepo arg | .hasCommit arg | .fetchCommit arg => [arg]
  | .mergeBase base head => [base, head]
  | .blame file _ _ => [file]
  | .isAncestor commit ref => [commit, ref]

/-- What stands in quotes is an argument, the directory of the clone or a script. -/
theorem arg_mem_format {c : SandboxCommand} {s : String} (h : .arg s ∈ c.format repoDir script) :
  s ∈ c.args ∨ s = repoDir ∨ s = script ∨ ∃ start last, s = awkScript start last
  := by
  cases c with
  | readFile path offset limit =>
      have h : s = awkScript (max 1 offset).toNat
          ((max 1 offset).toNat + (max 1 limit).toNat - 1) ∨ s = path := by
        simpa [format, readFileFormat] using h
      rcases h with rfl | rfl
      · exact .inr (.inr (.inr ⟨_, _, rfl⟩))
      · exact .inl (List.mem_singleton_self _)
  | listDir path depth =>
      have h : s = if path = "" then repoDir else path := by simpa [format, listDirFormat] using h
      split at h
      · exact .inr (.inl h)
      · exact .inl (List.mem_singleton.mpr h)
  | grepCode pattern path glob context fixed =>
      rw [format, grepFormat] at h
      split_ifs at h <;> simp [args] at h ⊢ <;> tauto
  | gitDiff ref base path stat =>
      rw [format, gitDiffFormat] at h
      split_ifs at h <;> simp [args, git] at h ⊢ <;> tauto
  | _ =>
      simp [format, gitBlameFormat, browseFormat, repoPresentFormat, advanceRepoFormat,
        cloneRepoFormat, revParseFormat, hasCommitFormat, fetchCommitFormat, mergeBaseFormat,
        unshallowFormat, blameFormat, isAncestorFormat, git, args] at h ⊢
      tauto

theorem nul_not_mem_awkScript (start last : ℕ) :
  '\x00' ∉ (awkScript start last).toList
  := by
  have hdigits : ∀ n : ℕ, '\x00' ∉ (toString n).toList := by
    intro n
    rw [Decimal.toList_toString]
    exact Decimal.not_mem rfl
  delta awkScript
  simp only [String.toList_append, List.mem_append, hdigits, or_false, not_or]
  decide +kernel

end SandboxCommand

/-- Every command is read by the shell as what is meant, with the arguments as words or parts of words
as they are: whatever they contain, they start no other command, redirection or expansion. -/
theorem parse_text {repoDir script : String} (hrepo : '\x00' ∉ repoDir.toList)
    (hscript : '\x00' ∉ script.toList) (c : SandboxCommand)
    (hargs : ∀ a ∈ c.args, '\x00' ∉ a.toList) :
  Shell.parse (c.text repoDir script) =
    some ((c.meaning repoDir script).map (Shell.subst String.toList))
  := by
  apply Shell.parse_format _ (c.parseTemplate_format repoDir script)
  intro s hs
  obtain hs | rfl | rfl | ⟨start, last, rfl⟩ := SandboxCommand.arg_mem_format hs
  · apply hargs s hs
  · exact hrepo
  · exact hscript
  · apply SandboxCommand.nul_not_mem_awkScript

/-- A pattern that would end its quotes and delete everything is sought as it is. -/
theorem parse_text_hostile :
  Shell.parse ((SandboxCommand.grepCode "'; rm -rf /; '" "" "" 2 true).text "/repo" "") =
    some (((SandboxCommand.grepCode "'; rm -rf /; '" "" "" 2 true).meaning "/repo" "").map
      (Shell.subst String.toList))
  := parse_text (by decide) (by decide) _ (by decide)

end Agent
