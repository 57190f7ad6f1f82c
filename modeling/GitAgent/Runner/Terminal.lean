import GitAgent.Agent.Integer
import GitAgent.Library.Occurrence

/-!
# The terminal of a sandbox

A command of the terminal is run in a shell of its own, which prints a marker, the exit code and the
directory after the output of the command (`core/runner/executor.py`). The output is not trusted and
can have the marker in it.
-/

namespace Runner

open Occurrence (rpartition partition)

/-! ### Commands -/

/-- `TERMINAL_MARKER`. -/
def terminalMarker : String :=
  "__GIT_AGENT_TERM__"

/-- Whether a shell reads a character as it is. -/
def isShellSafe (c : Char) : Bool :=
  c.isAlphanum || c ∈ "_@%+=:,./-".toList

/-- `shlex.quote`. -/
def quote (s : String) : String :=
  if s = "" then "''"
  else if s.toList.all isShellSafe then s
  else "'" ++ String.join (s.toList.map fun c =>
    if c = Char.ofNat 39 then "'\"'\"'" else String.singleton c) ++ "'"

/-- `wrap_terminal_command`. -/
def wrapTerminalCommand (command cwd : String) : String :=
  "exec 2>&1\ncd " ++ quote cwd ++ " 2>/dev/null\n" ++ command ++ "\n" ++
    "printf \"\\n" ++ terminalMarker ++ " %d %s\" \"$?\" \"$PWD\""

/-- The marker with the space after it. -/
def marked : List Char :=
  terminalMarker.toList ++ [' ']

/-- What stands before and after the last marker at the beginning of a line. -/
def atMarker (raw : List Char) : Option (List Char × List Char) :=
  match rpartition ('\n' :: marked) raw with
  | some split => some split
  | none => if marked.isPrefixOf raw then some ([], raw.drop marked.length) else none

/-- `parse_terminal_output`: the output, the exit code and the directory. -/
def parseTerminalOutput (raw : String) : String × Option ℤ × Option String :=
  match atMarker raw.toList with
  | none => (raw, none, none)
  | some (head, tail) =>
      let (codeText, cwd) := partition ' ' tail
      match Agent.parseInt (String.ofList codeText) with
      | none => (raw, none, none)
      | some code =>
          (String.ofList head, some code, if cwd = [] then none else some (String.ofList cwd))

/-- `SandboxCommandError`. -/
structure SandboxCommandError where
  command : String
  exitCode : Option ℤ
  stderr : String

/-- `str` of the error. -/
def SandboxCommandError.text (e : SandboxCommandError) : String :=
  "sandbox command failed (exit " ++ (e.exitCode.map toString).getD "None" ++ "): " ++ e.command ++
    "\n" ++ e.stderr

/-- A sandbox: where the repository is, and what a command comes to. -/
structure TerminalSandbox where
  repoDir : String
  run : String → Except SandboxCommandError String

/-- `terminal`, once the sandbox is connected. -/
def terminal (S : TerminalSandbox) (command : String) (cwd : Option String) :
    String × Option ℤ × Option String :=
  let start := if cwd.getD "" ≠ "" then cwd.getD "" else S.repoDir
  match S.run (wrapTerminalCommand command start) with
  | .error e => (if e.stderr ≠ "" then e.stderr else e.text, e.exitCode, some start)
  | .ok raw =>
      let (output, code, newCwd) := parseTerminalOutput raw
      (output, code, some (newCwd.getD start))

/-! ### What is read -/

/-- What a command leaves behind: its output, and then the marker, the exit code and the
directory. -/
def framed (output : String) (code : ℤ) (cwd : String) : String :=
  output ++ "\n" ++ terminalMarker ++ " " ++ toString code ++ " " ++ cwd

/-- The marker stands at the beginning of a line of a text. -/
def HasMarker (s : String) : Prop :=
  '\n' :: marked <:+: s.toList

instance (s : String) : Decidable (HasMarker s) :=
  inferInstanceAs (Decidable (_ <:+: _))

/-- The texts from which a raw text is made up again: a newline before the marker, the text of the
exit code, and what stands after it. -/
structure Rebuilds (raw output : String) (code : ℤ) (cwd : Option String) : Prop where
  parts : ∃ before codeText after,
    raw = output ++ before ++ terminalMarker ++ " " ++ codeText ++ after ∧
    (before = "\n" ∨ before = "" ∧ output = "") ∧
    Agent.parseInt codeText = some code ∧
    (cwd = none ∧ (after = "" ∨ after = " ") ∨
      ∃ dir, dir ≠ "" ∧ cwd = some dir ∧ after = " " ++ dir)

theorem newline_not_mem_marked :
  '\n' ∉ marked
  := by decide

theorem newline_not_mem_intText (code : ℤ) :
  '\n' ∉ Agent.intText code
  := by
  intro h
  have := (Agent.intText_solid code _ h).1
  contradiction

theorem space_not_mem_intText (code : ℤ) :
  ' ' ∉ Agent.intText code
  := by
  intro h
  have := (Agent.intText_solid code _ h).1
  contradiction

theorem toList_framed (output : String) (code : ℤ) (cwd : String) :
  (framed output code cwd).toList =
    output.toList ++ '\n' :: marked ++ (Agent.intText code ++ ' ' :: cwd.toList)
  := by
  rw [← Agent.toList_toString]
  simp [framed, marked]

/-- What is framed is split at its marker, whatever the output is. -/
theorem atMarker_framed {cwd : String} (h : ¬ HasMarker cwd) (output : String) (code : ℤ) :
  atMarker (framed output code cwd).toList =
    some (output.toList, Agent.intText code ++ ' ' :: cwd.toList)
  := by
  have htail : ¬ '\n' :: marked <:+: Agent.intText code ++ ' ' :: cwd.toList := by
    intro hinfix
    rw [List.append_cons] at hinfix
    apply h (Occurrence.infix_of_infix_append _ hinfix)
    rw [List.mem_append, List.mem_singleton, not_or]
    exact ⟨newline_not_mem_intText code, by decide⟩
  rw [atMarker, toList_framed, Occurrence.rpartition_append newline_not_mem_marked htail]

/-- **The output is read back**: for every output, every exit code and every directory without a
marker at the beginning of a line. -/
theorem parseTerminalOutput_framed {cwd : String} (h : ¬ HasMarker cwd) {code : ℤ}
    (hcode : (Nat.toDigits 10 code.natAbs).length ≤ 4300) (output : String) :
  parseTerminalOutput (framed output code cwd) =
    (output, some code, if cwd = "" then none else some cwd)
  := by
  have hempty : cwd.toList = [] ↔ cwd = "" := by simp
  rw [parseTerminalOutput, atMarker_framed h]
  dsimp only
  rw [Occurrence.partition_append (space_not_mem_intText code)]
  dsimp only
  rw [Agent.parseInt_intText hcode]
  dsimp only
  rw [String.ofList_toList, String.ofList_toList]
  simp only [hempty]

/-- What is split at the marker is made up again from its parts. -/
theorem eq_of_atMarker {raw head tail : List Char} (h : atMarker raw = some (head, tail)) :
  ∃ before, raw = head ++ before ++ marked ++ tail ∧ (before = ['\n'] ∨ before = [] ∧ head = [])
  := by
  rw [atMarker] at h
  split at h
  · rename_i split hsplit
    obtain rfl := Option.some.inj h
    refine ⟨['\n'], ?_, .inl rfl⟩
    rw [Occurrence.eq_of_rpartition hsplit]
    simp
  · split at h
    · rename_i hstart
      obtain ⟨rfl, rfl⟩ := Prod.mk.inj (Option.some.inj h)
      obtain ⟨rest, rfl⟩ := List.isPrefixOf_iff_prefix.mp hstart
      refine ⟨[], ?_, .inr ⟨rfl, rfl⟩⟩
      rw [List.drop_left]
      rfl
    · contradiction

/-- What stands after the text of the exit code. -/
theorem exists_after (tail : List Char) :
  ∃ after, tail = (partition ' ' tail).1 ++ after ∧
    ((partition ' ' tail).2 = [] ∧ after = [] ∨ after = ' ' :: (partition ' ' tail).2)
  := by
  rcases Occurrence.eq_of_partition ' ' tail with ⟨htail, hnil⟩ | htail
  · exact ⟨[], by rwa [List.append_nil], .inl ⟨hnil, rfl⟩⟩
  · exact ⟨_, htail, .inr rfl⟩

/-- **Nothing of the output is lost**: a raw text is read as it is, or as parts from which it is made
up again. -/
theorem parseTerminalOutput_rebuilds (raw : String) :
  parseTerminalOutput raw = (raw, none, none) ∨
    ∃ output code cwd, parseTerminalOutput raw = (output, some code, cwd) ∧
      Rebuilds raw output code cwd
  := by
  rw [parseTerminalOutput]
  cases hmarker : atMarker raw.toList with
  | none => exact .inl rfl
  | some split =>
      obtain ⟨head, tail⟩ := split
      dsimp only
      cases hcode : Agent.parseInt (String.ofList (partition ' ' tail).1) with
      | none => exact .inl rfl
      | some code =>
          right
          refine ⟨_, _, _, rfl, ?_⟩
          obtain ⟨before, hraw, hbefore⟩ := eq_of_atMarker hmarker
          obtain ⟨after, htail, hafter⟩ := exists_after tail
          refine ⟨⟨String.ofList before, _, String.ofList after, ?_, ?_, hcode, ?_⟩⟩
          · apply String.toList_inj.mp
            rw [hraw]
            conv_lhs => rw [htail]
            simp [marked]
          · rcases hbefore with rfl | ⟨rfl, rfl⟩
            · exact .inl rfl
            · exact .inr ⟨rfl, rfl⟩
          · rcases hafter with ⟨hnil, rfl⟩ | rfl
            · rw [if_pos hnil]
              exact .inl ⟨rfl, .inl rfl⟩
            · by_cases hnil : (partition ' ' tail).2 = []
              · rw [if_pos hnil, hnil]
                exact .inl ⟨rfl, .inr rfl⟩
              · rw [if_neg hnil]
                refine .inr ⟨_, ?_, rfl, ?_⟩
                · intro hempty
                  exact hnil (by simpa using congrArg String.toList hempty)
                · apply String.toList_inj.mp
                  simp

/-- What the terminal shows of a command that left its frame. -/
theorem terminal_framed {S : TerminalSandbox} {command start cwd output : String} {code : ℤ}
    (hstart : start ≠ "")
    (hrun : S.run (wrapTerminalCommand command start) = .ok (framed output code cwd))
    (hcode : (Nat.toDigits 10 code.natAbs).length ≤ 4300) (h : ¬ HasMarker cwd) :
  terminal S command (some start) =
    (output, some code, some (if cwd = "" then start else cwd))
  := by
  have hget : (some start).getD "" = start := rfl
  rw [terminal, hget, if_pos hstart, hrun]
  dsimp only
  rw [parseTerminalOutput_framed h hcode]
  dsimp only
  split <;> rfl

end Runner
