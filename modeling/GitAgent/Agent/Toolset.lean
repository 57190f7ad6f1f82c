import Mathlib.Data.List.Basic
import GitAgent.Agent.Executor

/-!
# The tools of a sandbox

What the tools of a sandbox answer (`core/tools/sandbox/` and `core/tools/web/`): the output of a
command that was run there, or what a search of the web found, as a text that is cut off where it
gets too long. A command that fails is answered with its error.
-/

namespace Agent

/-- The tools that answer with what is in the repository or in the web. -/
inductive SandboxTool
  | sandboxRun
  | readFile
  | listDir
  | grepCode
  | gitDiff
  | gitBlame
  | browse
  | webSearch
  deriving DecidableEq, Repr

/-- The name of a tool. -/
def SandboxTool.name : SandboxTool → String
  | sandboxRun => "sandbox_run"
  | readFile => "read_file"
  | listDir => "list_dir"
  | grepCode => "grep_code"
  | gitDiff => "git_diff"
  | gitBlame => "git_blame"
  | browse => "browse"
  | webSearch => "web_search"

/-- `build_sandbox_tools`. -/
def buildSandboxTools (tavilyApiKey : String) : List SandboxTool :=
  [.sandboxRun, .readFile, .listDir, .grepCode, .gitDiff, .gitBlame, .browse] ++
    if tavilyApiKey = "" then [] else [.webSearch]

/-! ### Commands -/

/-- A command that failed. -/
structure SandboxCommandError where
  exitCode : ℤ
  stderr : String
  deriving DecidableEq, Repr

/-- What a command came to. -/
abbrev Ran :=
  Except SandboxCommandError String

/-- The error of a command, under a heading. -/
def SandboxCommandError.text (e : SandboxCommandError) (what : String) : String :=
  what ++ "exit " ++ toString e.exitCode

/-- `SANDBOX_OUTPUT_MAX_CHARS`. -/
def sandboxOutputMaxChars : ℕ :=
  50000

/-- `LIST_MAX_ENTRIES`. -/
def listMaxEntries : ℕ :=
  500

/-- `MAX_GREP_LINES`. -/
def maxGrepLines : ℕ :=
  300

/-- `_clip`. -/
def clipped (text : String) : String :=
  if text.length ≤ sandboxOutputMaxChars then text
  else takeText sandboxOutputMaxChars text ++ "\n... [truncated]"

/-- `_error`. -/
def SandboxCommandError.plain (e : SandboxCommandError) : String :=
  clipped (e.text "" ++ ":\n" ++ e.stderr)

/-- Whether `splitlines` breaks a text at a character. -/
def isLineBreak (c : Char) : Bool :=
  ('\n' ≤ c && c ≤ '\r') || ('\x1c' ≤ c && c ≤ '\x1e') || c = '\u0085' ||
    c = '\u2028' || c = '\u2029'

/-- The lines of a text, when what is read of the first is given backwards. -/
def linesFrom : List Char → List Char → List String
  | [], [] => []
  | line, [] => [String.ofList line.reverse]
  | line, '\r' :: '\n' :: cs => String.ofList line.reverse :: linesFrom [] cs
  | line, c :: cs =>
      if isLineBreak c then String.ofList line.reverse :: linesFrom [] cs
      else linesFrom (c :: line) cs

/-- `splitlines`. -/
def splitLines (text : String) : List String :=
  linesFrom [] text.toList

/-- The first lines, and a remark in place of the others. -/
def firstLines (n : ℕ) (remark : String) (lines : List String) : List String :=
  if n < lines.length then lines.take n ++ [remark] else lines

/-- `SHALLOW_HINT`. -/
def shallowHint : String :=
  "\n(hint: the clone is shallow; run \x60git fetch --deepen=20 origin\x60" ++
    " via sandbox_run and retry)"

/-- Whether a text has another in it. -/
def hasInfix (part text : String) : Bool :=
  text.toList.tails.any fun cs => part.toList.isPrefixOf cs

/-- `_failed`. -/
def SandboxCommandError.failed (e : SandboxCommandError) (what : String) : String :=
  let text := e.text (what ++ " failed (") ++ "):\n" ++ e.stderr
  clipped (if hasInfix "unknown revision" e.stderr || hasInfix "bad revision" e.stderr then
    text ++ shallowHint else text)

/-! ### Searches of the web -/

/-- What a search came to: an error, an answer that is no success, or the results. -/
inductive Searched
  | error (kind text : String)
  | refused (status : ℤ) (text : String)
  | found (results : List Json.Fields)

/-- What the tools take from the libraries: the texts of values, how a text is quoted, and whether
an address is one of the web. -/
structure ToolTexts extends Texts where
  quote : String → String
  isWeb : String → Bool

/-- The words of a text with one blank between them. -/
def oneLine (text : String) : String :=
  String.intercalate " "
    (((text.toList.splitOnP isSpace).filter fun word => word ≠ []).map String.ofList)

/-- `SNIPPET_CHARS`. -/
def snippetChars : ℕ :=
  700

namespace ToolTexts

variable (T : ToolTexts)

/-- A value of a result, or another where it is missing or counts as false. -/
def valueOr (result : Json.Fields) (key other : String) : String :=
  match Json.get result key with
  | some v => if truthy v then T.toStr v else other
  | none => other

/-- A result, with its number. -/
def result (i : ℕ) (r : Json.Fields) : String :=
  toString i ++ ". " ++ T.valueOr r "title" "(no title)" ++ "\n   " ++
    T.toStr ((Json.get r "url").getD .null) ++ "\n   " ++
    takeText snippetChars (oneLine (T.valueOr r "content" ""))

/-- `format_results`. -/
def formatResults (results : List Json.Fields) : String :=
  if results = [] then "web_search: no results"
  else joinLines (results.zipIdx.map fun (r, i) => T.result (i + 1) r)

end ToolTexts

/-! ### Answers -/

/-- A call of a tool, with the arguments that its answer names and what its command or its search
came to. -/
inductive SandboxCall
  | sandboxRun (ran : Ran)
  | readFile (ran : Ran)
  | listDir (ran : Ran)
  | grepCode (pattern : String) (ran : Ran)
  | gitDiff (ran : Ran)
  | gitBlame (ran : Ran)
  | browse (url : String) (maxChars : ℤ) (ran : Ran)
  | webSearch (query : String) (searched : Searched)

namespace SandboxCall

/-- The tool that is called. -/
def tool : SandboxCall → SandboxTool
  | sandboxRun _ => .sandboxRun
  | readFile _ => .readFile
  | listDir _ => .listDir
  | grepCode _ _ => .grepCode
  | gitDiff _ => .gitDiff
  | gitBlame _ => .gitBlame
  | browse _ _ _ => .browse
  | webSearch _ _ => .webSearch

/-- What the tool answers. -/
def output (T : ToolTexts) : SandboxCall → String
  | sandboxRun (.ok out) | readFile (.ok out) | gitBlame (.ok out) => clipped out
  | sandboxRun (.error e) | readFile (.error e) | listDir (.error e) => e.plain
  | listDir (.ok out) =>
      clipped (joinLines (firstLines listMaxEntries
        ("... [more than " ++ toString listMaxEntries ++ " entries; narrow path or depth]")
        (splitLines out)))
  | grepCode pattern (.error e) =>
      if e.exitCode = 1 then "no matches for " ++ T.quote pattern
      else clipped (e.text "grep failed (" ++ "):\n" ++ e.stderr)
  | grepCode pattern (.ok out) =>
      let lines := splitLines out
      if lines = [] then "no matches for " ++ T.quote pattern
      else clipped (joinLines (firstLines maxGrepLines
        ("... [" ++ toString (lines.length - maxGrepLines) ++
          " more lines; narrow path/glob or pattern]") lines))
  | gitDiff (.error e) => e.failed "git diff"
  | gitDiff (.ok out) => if strip out = "" then "(empty diff)" else clipped out
  | gitBlame (.error e) => e.failed "git blame"
  | browse url maxChars ran =>
      let limit := (max 1000 (min maxChars 50000)).toNat
      if T.isWeb (strip url) then
        match ran with
        | .error e => takeText limit (e.text "browse failed (" ++ "):\n" ++ e.stderr)
        | .ok out =>
            if limit < out.length then
              takeText limit out ++ "\n... [truncated at " ++ toString limit ++
                " chars; raise max_chars or narrow]"
            else out
      else "browse: only http(s) URLs are supported, got " ++ T.quote url
  | webSearch query searched =>
      if strip query = "" then "web_search: query is required"
      else
        match searched with
        | .error kind text => "web_search failed: " ++ kind ++ ": " ++ text
        | .refused status text =>
            "web_search failed: HTTP " ++ toString status ++ ": " ++ takeText 300 text
        | .found results => T.formatResults results

end SandboxCall

end Agent
