import GitAgent.Library.Ancestry
import GitAgent.Runner.Event

/-!
# The clone in a sandbox

How a runner makes the commits of an event available in the sandbox (`core/repo.py` and
`core/runner/executor.py`). The clone is shallow: it has some of the commits, and of some of those
it does not have the parents. Whatever is fetched, it has the parents of all others.
-/

namespace Agent

open Runner (Event optStr)

/-! ### The repository -/

/-- A repository: its commits with their author times and the other texts that describe them, the
files, how a line of a file is followed to a parent, and which common ancestor of two commits is
found in a history. A line is a path and a number. -/
structure Git where
  history : History String
  authorTime : String → ℤ
  texts : String → List (String × String)
  content : String → String → Option (List String)
  follow : Tracker String (String × ℕ)
  mergeBase : History String → String → String → Option String

/-- A clone: the commits it has, those of which it does not have the parents, and the one that is
checked out. -/
structure Clone where
  commits : List String
  shallow : List String
  head : String
  deriving DecidableEq, Repr

/-- What the server has while a sandbox is prepared, and which of the commands that need it
succeed. -/
structure Server where
  tip : String
  branches : List String
  clones : Bool := true
  fetches : String → Bool := fun _ => true
  checksOut : Bool := true
  unshallows : Bool := true
  refetches : Bool := true

namespace Git

variable (G : Git)

/-- The history as far as a clone has it. -/
def seen (c : Clone) : History String :=
  G.history.cutOff fun x => x ∈ c.shallow

/-! ### Commands -/

/-- `git clone --depth 1`. -/
def clone (tip : String) : Clone where
  commits := [tip]
  shallow := [tip]
  head := tip

/-- `git fetch --depth n origin x`: the last of the fetched generations are without parents. -/
def fetch (depth : ℕ) (x : String) (c : Clone) : Clone :=
  let inner := G.history.generations (depth - 1) x
  let outer := G.history.generations depth x
  { c with
    commits := c.commits ++ outer
    shallow := (c.shallow ++ outer).filter fun y => y ∉ inner }

/-- `git fetch --unshallow origin`. -/
def unshallow (branches : List String) (c : Clone) : Clone :=
  { c with commits := G.history.reached (c.commits ++ branches), shallow := [] }

/-- `git fetch origin`. -/
def refetch (branches : List String) (c : Clone) : Clone :=
  { c with commits := c.commits ++ (G.seen c).reached branches }

/-- `git merge-base`. -/
def findMergeBase (c : Clone) (base head : String) : Option String :=
  if base ∈ c.commits ∧ head ∈ c.commits then G.mergeBase (G.seen c) base head else none

/-! ### Preparing the clone -/

/-- `advance_repo`, and whether it succeeds. -/
def advanceRepo (s : Server) (checkoutRef : String) (c : Clone) : Clone × Bool :=
  if s.fetches checkoutRef then
    let c := G.fetch 2 checkoutRef c
    if s.checksOut then ({ c with head := checkoutRef }, true) else (c, false)
  else (c, false)

/-- `prepare_repo`, and whether it succeeds. -/
def prepareRepo (s : Server) (checkoutRef : Option String) : Option Clone × Bool :=
  if s.clones then
    let c := clone s.tip
    match optStr checkoutRef with
    | none => (some c, true)
    | some ref =>
        let (c, ok) := G.advanceRepo s ref c
        (some c, ok && (ref.length ≠ 40 || c.head = ref))
  else (none, false)

/-- A commit is fetched if the clone does not have it. -/
def ensureCommit (s : Server) (c : Clone) (sha : String) : Clone :=
  if sha ∈ c.commits then c
  else if s.fetches sha then G.fetch 1 sha c
  else c

/-- The history is made whole, or at least the branches are fetched. -/
def deepen (s : Server) (c : Clone) : Option Clone :=
  if s.unshallows ∧ c.shallow ≠ [] then some (G.unshallow s.branches c)
  else if s.refetches then some (G.refetch s.branches c)
  else none

/-- `ensure_commits`, with the merge base that it returns. -/
def ensureCommits (s : Server) (shas : List String) (mergeBaseOf : Option (String × String))
    (c : Clone) : Clone × Option String :=
  let c := ((shas.filter fun sha => sha ≠ "").eraseDups).foldl (G.ensureCommit s) c
  match mergeBaseOf with
  | none => (c, none)
  | some (base, head) =>
      match G.findMergeBase c base head with
      | some found => (c, optStr (some found))
      | none =>
          match G.deepen s c with
          | none => (c, none)
          | some c => (c, (G.findMergeBase c base head).bind fun found => optStr (some found))

end Git

/-! ### The scope of an event -/

/-- The actions on pull requests. -/
def prActions : List String :=
  ["pull_request", "merge_request"]

/-- A commit, or the first parent of one. -/
inductive Rev
  | commit (sha : String)
  | parent (sha : String)
  deriving DecidableEq, Repr

/-- The commit whose changes an event is about. -/
def eventHead (e : Event) : Option String :=
  (optStr e.headSha).or (optStr e.commitSha)

/-- `scope_range`. -/
def scopeRange (e : Event) (mergeBase : Option String) : Option (Rev × String) :=
  match eventHead e with
  | none => none
  | some head =>
      if e.action = "full_scan" then none
      else if e.action ∈ prActions then
        some (((optStr mergeBase).or (optStr e.baseSha)).elim (.parent head) .commit, head)
      else if e.action = "push" ∨ e.action = "manual" then
        some ((optStr e.beforeSha).elim (.parent head) .commit, head)
      else none

namespace Git

variable (G : Git)

/-- `_ensure_scope`. -/
def ensureScope (s : Server) (e : Event) (c : Clone) : Clone × Option String :=
  let pair := if e.action ∈ prActions then
    (optStr e.baseSha).bind fun base => (eventHead e).map fun head => (base, head) else none
  G.ensureCommits s ([e.beforeSha, e.baseSha, e.headSha, e.commitSha].filterMap optStr) pair c

/-- `process_event`, until the turn starts, with the merge base if it does. -/
def processEvent (s : Server) (e : Event) (clone : Option Clone) :
    Option Clone × Option (Option String) :=
  let (clone, ok) := match clone, optStr e.commitSha with
    | none, _ => G.prepareRepo s e.commitSha
    | some c, none => (some c, true)
    | some c, some ref =>
        let (c, ok) := G.advanceRepo s ref c
        (some c, ok)
  match clone, ok with
  | some c, true =>
      let (c, mergeBase) := G.ensureScope s e c
      (some c, some mergeBase)
  | clone, _ => (clone, none)

end Git

/-! ### What a clone has -/

/-- A clone has the commit that is checked out, and of what it has it has the parents unless they
are cut off. -/
structure Clone.Closed (G : Git) (c : Clone) : Prop where
  head : c.head ∈ c.commits
  parents : ∀ x ∈ c.commits, ∀ p ∈ (G.seen c).parents x, p ∈ c.commits

namespace Clone.Closed

variable {G : Git} {c : Clone}

theorem mem_seen_parents {x p : String} :
  p ∈ (G.seen c).parents x ↔ x ∉ c.shallow ∧ p ∈ G.history.parents x
  := by
  rw [Git.seen, History.cutOff]
  dsimp only
  split
  · rename_i hx
    simp [of_decide_eq_true hx]
  · rename_i hx
    rw [decide_eq_true_eq] at hx
    rw [and_iff_right hx]

/-- What a clone has reaches only what it has. -/
theorem mem (h : c.Closed G) {x y : String} (hx : x ∈ c.commits) (hr : (G.seen c).Reaches x y) :
  y ∈ c.commits
  := hr.mem h.parents hx

theorem clone (tip : String) :
  (Git.clone tip).Closed G
  := by
  constructor
  · apply List.mem_singleton_self
  · intro x hx p hp
    apply absurd hx (mem_seen_parents.mp hp).1

theorem fetch (h : c.Closed G) (depth : ℕ) (x : String) :
  (G.fetch depth x c).Closed G
  := by
  constructor
  · apply List.mem_append_left _ h.head
  · intro y hy p hp
    obtain ⟨hcut, hp'⟩ := mem_seen_parents.mp hp
    rw [Git.fetch] at hy hcut ⊢
    dsimp only at hy hcut ⊢
    rw [List.mem_filter, List.mem_append, decide_eq_true_eq, not_and, not_not] at hcut
    by_cases hinner : y ∈ G.history.generations (depth - 1) x
    · apply List.mem_append_right
      cases depth with
      | zero => contradiction
      | succ depth => apply History.generations_parent hinner hp'
    · have hy' : y ∉ c.shallow ∧ y ∉ G.history.generations depth x := by
        constructor
        · intro hmem
          apply hinner (hcut (.inl hmem))
        · intro hmem
          apply hinner (hcut (.inr hmem))
      apply List.mem_append_left
      apply h.parents y ((List.mem_append.mp hy).resolve_right hy'.2)
      apply mem_seen_parents.mpr ⟨hy'.1, hp'⟩

theorem unshallow (h : c.Closed G) (branches : List String) :
  (G.unshallow branches c).Closed G
  := by
  constructor
  · apply History.mem_reached.mpr
    exact ⟨c.head, List.mem_append_left _ h.head, History.Reaches.refl c.head⟩
  · intro x hx p hp
    apply History.reached_parent hx (mem_seen_parents.mp hp).2

theorem refetch (h : c.Closed G) (branches : List String) :
  (G.refetch branches c).Closed G
  := by
  constructor
  · apply List.mem_append_left _ h.head
  · intro x hx p hp
    obtain hx | hx := List.mem_append.mp hx
    · apply List.mem_append_left _ (h.parents x hx p hp)
    · apply List.mem_append_right _ (History.reached_parent hx hp)

theorem checkout (h : c.Closed G) {x : String} (hx : x ∈ c.commits) :
  ({ c with head := x } : Clone).Closed G
  := ⟨hx, h.parents⟩

theorem advanceRepo (h : c.Closed G) (s : Server) (x : String) :
  (G.advanceRepo s x c).1.Closed G
  := by
  rw [Git.advanceRepo]
  split
  · dsimp only
    split
    · apply (h.fetch 2 x).checkout
      apply List.mem_append_right _ List.mem_cons_self
    · apply h.fetch
  · apply h

theorem prepareRepo {s : Server} {x : Option String} {c : Clone}
    (hc : (G.prepareRepo s x).1 = some c) :
  c.Closed G
  := by
  rw [Git.prepareRepo] at hc
  split at hc
  · dsimp only at hc
    split at hc
    · obtain rfl := Option.some.inj hc
      apply clone
    · obtain rfl := Option.some.inj hc
      apply (clone s.tip).advanceRepo
  · contradiction

theorem ensureCommit (h : c.Closed G) (s : Server) (sha : String) :
  (G.ensureCommit s c sha).Closed G
  := by
  rw [Git.ensureCommit]
  split
  · apply h
  · split
    · apply h.fetch
    · apply h

theorem ensureEach (h : c.Closed G) (s : Server) (shas : List String) :
  (shas.foldl (G.ensureCommit s) c).Closed G
  := by
  induction shas generalizing c with
  | nil => apply h
  | cons sha shas ih => apply ih (h.ensureCommit s sha)

theorem deepen (h : c.Closed G) {s : Server} {d : Clone} (hd : G.deepen s c = some d) :
  d.Closed G
  := by
  rw [Git.deepen] at hd
  split at hd
  · obtain rfl := Option.some.inj hd
    apply h.unshallow
  · split at hd
    · obtain rfl := Option.some.inj hd
      apply h.refetch
    · contradiction

theorem ensureCommits (h : c.Closed G) (s : Server) (shas : List String)
    (pair : Option (String × String)) :
  (G.ensureCommits s shas pair c).1.Closed G
  := by
  have heach := h.ensureEach s (shas.filter fun sha => sha ≠ "").eraseDups
  rw [Git.ensureCommits.eq_def]
  dsimp only
  split
  · apply heach
  · split
    · apply heach
    · split
      · apply heach
      · rename_i hd
        apply heach.deepen hd

/-- **Whatever is done for an event**, also if it fails half way, the clone has the parents that are
not cut off. -/
theorem processEvent {s : Server} {e : Event} {clone : Option Clone} {d : Clone}
    (h : ∀ c, clone = some c → c.Closed G) (hd : (G.processEvent s e clone).1 = some d) :
  d.Closed G
  := by
  have hready : ∀ r : Option Clone × Bool, (∀ c, r.1 = some c → c.Closed G) →
      (match r.1, r.2 with
        | some c, true =>
            let (c, mergeBase) := G.ensureScope s e c
            ((some c, some mergeBase) : Option Clone × Option (Option String))
        | clone, _ => (clone, none)).1 = some d → d.Closed G := by
    rintro ⟨clone, ok⟩ hr hd
    dsimp only at hr hd
    split at hd
    · obtain rfl := Option.some.inj hd
      apply (hr _ rfl).ensureCommits
    · apply hr d hd
  rw [Git.processEvent.eq_def] at hd
  apply hready _ _ hd
  intro c hc
  split at hc
  · apply prepareRepo hc
  · apply h c hc
  · obtain rfl := Option.some.inj hc
    apply (h _ rfl).advanceRepo

end Clone.Closed

end Agent
