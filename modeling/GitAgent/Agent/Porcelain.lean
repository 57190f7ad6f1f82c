import Mathlib.Data.Prod.Lex
import Mathlib.Data.String.Basic
import GitAgent.Library.Dict
import GitAgent.Agent.Clone
import GitAgent.Agent.Report

/-!
# The blame of a range of lines

`git blame --porcelain` prints for each line of a range the commit that it is attributed to, and
describes a commit where it comes first. The runner reads from it one commit for the range, the one
with most lines (`core/tools/security/blame.py`).
-/

namespace Agent

/-! ### What is printed -/

/-- A line of the output: the header of a line of the file, what is said of its commit, and the line
itself. -/
inductive Porcelain
  | header (sha : String)
  | authorTime (time : ℤ)
  | field (key value : String)
  | code
  deriving DecidableEq, Repr

namespace Git

variable (G : Git)

/-- What is said of a commit. -/
def describe (sha : String) : List Porcelain :=
  .authorTime (G.authorTime sha) :: (G.texts sha).map fun (key, value) => .field key value

/-- The output for lines that are attributed to these commits. -/
def porcelain (shown : List String) : List String → List Porcelain
  | [] => []
  | sha :: shas => .header sha :: (if sha ∈ shown then [] else G.describe sha) ++
      .code :: porcelain (sha :: shown) shas

end Git

/-! ### What is read -/

/-- What has been read of a commit. -/
structure CommitInfo where
  authorTime : Option ℤ := none
  texts : Dict String String := .empty

/-- The texts that are read. -/
def blameTexts : List String :=
  ["author", "author-mail", "author-tz", "summary"]

namespace CommitInfo

variable (info : CommitInfo)

/-- The first author time counts. -/
def noteTime (time : ℤ) : CommitInfo :=
  { info with authorTime := info.authorTime.or (some time) }

/-- The first text of each kind counts. -/
def noteText (key value : String) : CommitInfo :=
  if key ∈ blameTexts ∧ info.texts.get key = none then
    { info with texts := info.texts.set key (strip value) }
  else info

/-- A text that is there and not empty. -/
def text (key : String) : Option String :=
  (info.texts.get key).bind orNone

end CommitInfo

/-- What has been read of the output. -/
structure BlameParse where
  commits : Dict String CommitInfo := .empty
  linesByCommit : Dict String ℕ := .empty
  current : Option String := none

namespace BlameParse

variable (p : BlameParse)

/-- Something is said of the current commit. -/
def note (f : CommitInfo → CommitInfo) : BlameParse :=
  match p.current with
  | none => p
  | some sha => { p with commits := p.commits.set sha (f ((p.commits.get sha).getD {})) }

/-- A line is read. -/
def read : Porcelain → BlameParse
  | .code => p
  | .header sha =>
      { commits := if p.commits.get sha = none then p.commits.set sha {} else p.commits
        linesByCommit := p.linesByCommit.set sha ((p.linesByCommit.get sha).getD 0 + 1)
        current := some sha }
  | .authorTime time => p.note fun info => info.noteTime time
  | .field key value => p.note fun info => info.noteText key value

end BlameParse

/-- The name of the commit to which lines are attributed that are not committed. -/
def uncommitted : String :=
  "0000000000000000000000000000000000000000"

/-- The place of a commit among those to which lines are attributed. -/
abbrev Rank :=
  ℕ ×ₗ ℤ ×ₗ String

/-- A number of lines, an author time and a commit. -/
def rank (lines : ℕ) (time : ℤ) (sha : String) : Rank :=
  toLex (lines, toLex (time, sha))

/-- The commit of a rank. -/
def Rank.sha (r : Rank) : String :=
  (ofLex (ofLex r).2).2

/-- How a time and a time zone are written. -/
abbrev IsoDate :=
  Option ℤ → String → Option String

/-- What the runner keeps of a commit. -/
def CommitInfo.blame (iso : IsoDate) (sha : String) (info : CommitInfo) : Blame where
  author := info.text "author"
  email := (info.texts.get "author-mail").bind fun mail =>
    orNone (String.ofList (stripChars (fun c => c = '<' ∨ c = '>') mail.toList))
  commit := some sha
  date := iso info.authorTime ((info.texts.get "author-tz").getD "+0000")
  commitMessage := info.text "summary"

namespace BlameParse

variable (p : BlameParse)

/-- The commits to which lines are attributed. -/
def candidates : List Rank :=
  (p.linesByCommit.items.filter fun (sha, _) => sha ≠ uncommitted).map fun (sha, n) =>
    rank n (((p.commits.get sha).bind CommitInfo.authorTime).getD 0) sha

/-- The commit with most lines. -/
def blame (iso : IsoDate) : Blame :=
  match p.candidates.max? with
  | none => {}
  | some best => ((p.commits.get best.sha).getD {}).blame iso best.sha

end BlameParse

/-- `parse_blame_porcelain`. -/
def parseBlamePorcelain (iso : IsoDate) (text : List Porcelain) : Blame :=
  (text.foldl BlameParse.read {}).blame iso

/-! ### What should be read -/

namespace Git

variable (G : Git)

/-- The commit to which most of some lines are attributed, of several the latest. -/
def dominant (shas : List String) : Option String :=
  (((shas.filter fun sha => sha ≠ uncommitted).map fun sha =>
    rank (shas.count sha) (G.authorTime sha) sha).max?).map Rank.sha

/-- What is printed of a commit. -/
def info (sha : String) : CommitInfo :=
  (G.texts sha).foldl (fun info (key, value) => info.noteText key value)
    { authorTime := some (G.authorTime sha) }

end Git

namespace CommitInfo

theorem noteText_authorTime (info : CommitInfo) (key value : String) :
  (info.noteText key value).authorTime = info.authorTime
  := by
  rw [noteText]
  split <;> rfl

end CommitInfo

theorem Git.info_authorTime (G : Git) (sha : String) :
  (G.info sha).authorTime = some (G.authorTime sha)
  := by
  have hfold : ∀ (texts : List (String × String)) (info : CommitInfo),
      (texts.foldl (fun info (key, value) => info.noteText key value) info).authorTime =
        info.authorTime := by
    intro texts
    induction texts with
    | nil =>
        intro info
        rfl
    | cons text texts ih =>
        intro info
        rw [List.foldl_cons, ih, CommitInfo.noteText_authorTime]
  apply hfold

/-- The largest member of a list depends only on what its members are. -/
theorem max?_eq_of_mem_iff {α : Type*} [LinearOrder α] {l l' : List α} (h : ∀ x, x ∈ l ↔ x ∈ l') :
  l.max? = l'.max?
  := by
  cases hl : l.max? with
  | none =>
      rw [List.max?_eq_none_iff] at hl
      rw [hl] at h
      rw [eq_comm, List.max?_eq_none_iff, List.eq_nil_iff_forall_not_mem]
      intro x hx
      apply List.not_mem_nil ((h x).mpr hx)
  | some m =>
      obtain ⟨hm, hle⟩ := List.max?_eq_some_iff.mp hl
      rw [eq_comm, List.max?_eq_some_iff]
      constructor
      · apply (h m).mp hm
      · intro x hx
        apply hle x ((h x).mpr hx)

namespace Git

variable {G : Git} {shas : List String} {sha : String}

/-- No commit has more lines than the one that has most, and none with as many is later. -/
theorem dominant_eq_some_iff :
  G.dominant shas = some sha ↔ (sha ∈ shas ∧ sha ≠ uncommitted) ∧
    ∀ s ∈ shas, s ≠ uncommitted →
      rank (shas.count s) (G.authorTime s) s ≤ rank (shas.count sha) (G.authorTime sha) sha
  := by
  rw [dominant, Option.map_eq_some_iff]
  constructor
  · rintro ⟨best, hbest, rfl⟩
    obtain ⟨hmem, hle⟩ := List.max?_eq_some_iff.mp hbest
    obtain ⟨s, hs, rfl⟩ := List.mem_map.mp hmem
    rw [List.mem_filter, decide_eq_true_eq] at hs
    refine ⟨hs, ?_⟩
    intro s' hs' hne
    apply hle
    apply List.mem_map_of_mem
    rw [List.mem_filter, decide_eq_true_eq]
    exact ⟨hs', hne⟩
  · rintro ⟨hs, hle⟩
    refine ⟨rank (shas.count sha) (G.authorTime sha) sha, ?_, rfl⟩
    apply List.max?_eq_some_iff.mpr
    constructor
    · apply List.mem_map_of_mem (f := fun sha => rank (shas.count sha) (G.authorTime sha) sha)
      rw [List.mem_filter, decide_eq_true_eq]
      exact hs
    · intro x hx
      obtain ⟨s, hs, rfl⟩ := List.mem_map.mp hx
      rw [List.mem_filter, decide_eq_true_eq] at hs
      apply hle s hs.1 hs.2

theorem dominant_mem (h : G.dominant shas = some sha) :
  sha ∈ shas
  := (dominant_eq_some_iff.mp h).1.1

/-- All lines are attributed to one commit. -/
theorem dominant_of_forall (hne : shas ≠ []) (h : ∀ s ∈ shas, s = sha) (hsha : sha ≠ uncommitted) :
  G.dominant shas = some sha
  := by
  obtain ⟨s, hs⟩ := List.exists_mem_of_ne_nil shas hne
  obtain rfl := h s hs
  apply dominant_eq_some_iff.mpr ⟨⟨hs, hsha⟩, _⟩
  intro s' hs' _
  rw [h s' hs']

end Git

namespace BlameParse

variable {G : Git} {p q r : BlameParse} {sha : String} {info info' : CommitInfo}
  {shas : List String}

/-- Nothing has changed but what is known of the current commit. -/
structure Noted (p q : BlameParse) (sha : String) (info : CommitInfo) : Prop where
  current : q.current = some sha
  linesByCommit : q.linesByCommit = p.linesByCommit
  commits : ∀ s, q.commits.get s = if s = sha then some info else p.commits.get s

theorem Noted.get (h : Noted p q sha info) :
  q.commits.get sha = some info
  := by rw [h.commits, if_pos rfl]

theorem Noted.trans (h : Noted p q sha info) (h' : Noted q r sha info') :
  Noted p r sha info'
  := by
  refine ⟨h'.current, h'.linesByCommit.trans h.linesByCommit, ?_⟩
  intro s
  rw [h'.commits, h.commits]
  split <;> rfl

theorem Noted.note (f : CommitInfo → CommitInfo) (hc : p.current = some sha)
    (hp : p.commits.get sha = some info) :
  Noted p (p.note f) sha (f info)
  := by
  rw [BlameParse.note, hc]
  constructor
  · rfl
  · rfl
  · intro s
    dsimp only
    rw [Dict.get_set, hp]
    rfl

theorem Noted.texts (texts : List (String × String)) (hc : p.current = some sha)
    (hp : p.commits.get sha = some info) :
  Noted p ((texts.map fun (key, value) => Porcelain.field key value).foldl read p) sha
    (texts.foldl (fun info (key, value) => info.noteText key value) info)
  := by
  induction texts generalizing p info with
  | nil =>
      refine ⟨hc, rfl, ?_⟩
      intro s
      split
      · rename_i hs
        rw [hs]
        apply hp
      · rfl
  | cons text texts ih =>
      have htext := Noted.note (fun info => info.noteText text.1 text.2) hc hp
      apply htext.trans (ih htext.current htext.get)

/-- What is printed of a commit is read. -/
theorem Noted.describe (hc : p.current = some sha) (hp : p.commits.get sha = some {}) :
  Noted p ((G.describe sha).foldl read p) sha (G.info sha)
  := by
  have htime := Noted.note (fun info => info.noteTime (G.authorTime sha)) hc hp
  apply htime.trans (Noted.texts (G.texts sha) htime.current htime.get)

/-- What has been read for lines that are attributed to some commits. -/
structure Has (G : Git) (shas : List String) (p : BlameParse) : Prop where
  commits : ∀ s, p.commits.get s = if s ∈ shas then some (G.info s) else none
  linesByCommit : ∀ s, p.linesByCommit.get s = if s ∈ shas then some (shas.count s) else none

theorem Has.start :
  Has G [] {}
  := by
  constructor <;> intro s <;> rfl

/-- One more line is attributed to a commit, which is described if it is the first. -/
theorem Has.line (h : Has G shas p) (sha : String) :
  Has G (sha :: shas)
    (((if sha ∈ shas then [] else G.describe sha).foldl read (p.read (.header sha))))
  := by
  have hlines : ∀ s, (p.read (.header sha)).linesByCommit.get s =
      if s ∈ sha :: shas then some ((sha :: shas).count s) else none := by
    intro s
    rw [read]
    dsimp only
    rw [Dict.get_set, h.linesByCommit, h.linesByCommit]
    by_cases hs : s = sha
    · subst hs
      rw [if_pos rfl, if_pos List.mem_cons_self, List.count_cons_self]
      by_cases hmem : s ∈ shas
      · rw [if_pos hmem]
        rfl
      · rw [if_neg hmem, List.count_eq_zero_of_not_mem hmem]
        rfl
    · rw [if_neg hs, List.count_cons_of_ne (Ne.symm hs)]
      simp only [List.mem_cons, hs, false_or]
  by_cases hmem : sha ∈ shas
  · rw [if_pos hmem, List.foldl_nil]
    refine ⟨?_, hlines⟩
    intro s
    rw [read]
    dsimp only
    rw [if_neg (by rw [h.commits, if_pos hmem]; apply Option.some_ne_none), h.commits]
    congr 1
    rw [List.mem_cons, eq_iff_iff, iff_or_self]
    rintro rfl
    apply hmem
  · have hnew : p.commits.get sha = none := by rw [h.commits, if_neg hmem]
    have hget : ∀ s, (p.read (.header sha)).commits.get s =
        if s = sha then some {} else p.commits.get s := by
      intro s
      rw [read]
      dsimp only
      rw [if_pos hnew, Dict.get_set]
    rw [if_neg hmem]
    have hnoted : Noted (p.read (.header sha))
        ((G.describe sha).foldl read (p.read (.header sha))) sha (G.info sha) := by
      apply Noted.describe rfl
      rw [hget, if_pos rfl]
    constructor
    · intro s
      rw [hnoted.commits, hget, h.commits]
      by_cases hs : s = sha
      · rw [if_pos hs, hs, if_pos List.mem_cons_self]
      · rw [if_neg hs, if_neg hs]
        simp only [List.mem_cons, hs, false_or]
    · rw [hnoted.linesByCommit]
      apply hlines

theorem Has.lines (h : Has G shas p) (more : List String) :
  Has G (more.reverse ++ shas) ((G.porcelain shas more).foldl read p)
  := by
  induction more generalizing shas p with
  | nil => apply h
  | cons sha more ih =>
      rw [Git.porcelain, List.cons_append, List.foldl_cons, List.foldl_append, List.foldl_cons,
        List.reverse_cons, List.append_assoc]
      apply ih (h.line sha)

/-- The candidates are the commits to which lines are attributed, each with their number. -/
theorem Has.mem_candidates (h : Has G shas p) (x : Rank) :
  x ∈ p.candidates ↔
    ∃ s ∈ shas, s ≠ uncommitted ∧ rank (shas.count s) (G.authorTime s) s = x
  := by
  have htime : ∀ s ∈ shas, ((p.commits.get s).bind CommitInfo.authorTime).getD 0 =
      G.authorTime s := by
    intro s hs
    rw [h.commits, if_pos hs, Option.bind_some, G.info_authorTime]
    rfl
  rw [candidates, List.mem_map]
  constructor
  · rintro ⟨⟨s, n⟩, hmem, rfl⟩
    rw [List.mem_filter, decide_eq_true_eq] at hmem
    have hget := Dict.get_of_mem hmem.1
    rw [h.linesByCommit] at hget
    split at hget
    · rename_i hs
      use s, hs, hmem.2
      dsimp only
      rw [htime s hs, Option.some.inj hget]
    · contradiction
  · rintro ⟨s, hs, hne, rfl⟩
    have hget : p.linesByCommit.get s = some (shas.count s) := by rw [h.linesByCommit, if_pos hs]
    use (s, shas.count s)
    constructor
    · rw [List.mem_filter, decide_eq_true_eq]
      exact ⟨Dict.mem_of_get hget, hne⟩
    · dsimp only
      rw [htime s hs]

end BlameParse

/-- **What is read of the blame of some lines** is the commit to which most of them are attributed,
with what is said of it. -/
theorem parseBlamePorcelain_porcelain (G : Git) (iso : IsoDate) (shas : List String) :
  parseBlamePorcelain iso (G.porcelain [] shas) =
    (G.dominant shas).elim {} fun sha => (G.info sha).blame iso sha
  := by
  have hhas := (BlameParse.Has.start (G := G)).lines shas
  rw [List.append_nil] at hhas
  have hmax : ((G.porcelain [] shas).foldl BlameParse.read {}).candidates.max? =
      ((shas.filter fun sha => sha ≠ uncommitted).map fun sha =>
        rank (shas.count sha) (G.authorTime sha) sha).max? := by
    apply max?_eq_of_mem_iff
    intro x
    rw [hhas.mem_candidates, List.mem_map]
    simp only [List.mem_filter, List.mem_reverse, List.count_reverse, decide_eq_true_eq, and_assoc]
  rw [parseBlamePorcelain, BlameParse.blame, Git.dominant, hmax]
  cases hbest : ((shas.filter fun sha => sha ≠ uncommitted).map fun sha =>
      rank (shas.count sha) (G.authorTime sha) sha).max? with
  | none => rfl
  | some best =>
      obtain ⟨sha, hsha, rfl⟩ := List.mem_map.mp (List.max?_mem hbest)
      have hmem : sha ∈ shas.reverse := List.mem_reverse.mpr (List.mem_of_mem_filter hsha)
      dsimp only [Option.map_some, Option.elim_some]
      rw [hhas.commits, if_pos (by apply hmem)]
      rfl

end Agent
