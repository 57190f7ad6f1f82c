import GitAgent.Library.Transition
import GitAgent.Agent.Porcelain

/-!
# Which event introduced the lines of a finding

The blame of a finding (`core/tools/security/blame.py`) is read in the clone of the sandbox, where
lines are followed only as far as the clone has the parents. The runner then asks whether the commit
to which most of the lines are attributed is among the changes of the event. The answer is right
exactly if the clone makes no difference to that: the commit where most lines stop is new as far as
the clone shows exactly if the commit that introduced most of them is new.
-/

namespace Agent

open Transition
open Runner (Event optStr)

namespace Git

variable (G : Git)

/-! ### Lines of a file -/

/-- A range of lines of a file at a commit, each with what `f` tells of it, unless the file does not
have them. -/
def ofLines (commit file : String) (range : ℤ × ℤ) (f : String × ℕ → String) :
    Option (List String) :=
  (G.content commit file).bind fun text =>
    if range.1 ≤ text.length then
      some ((List.range' range.1.toNat (min range.2 text.length + 1 - range.1).toNat).map
        fun i => f (file, i))
    else none

/-- The commits to which the lines of a range are attributed in a history. -/
def attributed (H : History String) (commit file : String) (range : ℤ × ℤ) :
    Option (List String) :=
  G.ofLines commit file range (H.origin G.follow commit)

/-- The commit that a revision means in a clone, if the clone has it. -/
def resolveRev (c : Clone) : Rev → Option String
  | .commit sha => if sha ∈ c.commits then some sha else none
  | .parent sha => if sha ∈ c.commits then ((G.seen c).parents sha).head? else none

/-- `_is_ancestor`, unless the command fails: whether a commit is reached from a revision. -/
def isAncestor (c : Clone) (commit : String) (rev : Rev) : Option Bool :=
  if commit ∈ c.commits then
    (G.resolveRev c rev).map fun sha => decide ((G.seen c).Reaches sha commit)
  else none

end Git

/-! ### The resolver -/

/-- A turn for an event, with the caches of its `BlameResolver`. -/
structure Turn where
  event : Event
  mergeBase : Option String
  blames : Dict (String × ℤ × ℤ) Blame := .empty
  ancestry : Dict String (Option String) := .empty

/-- The range of the changes of the event. -/
def Turn.range (t : Turn) : Option (Rev × String) :=
  scopeRange t.event t.mergeBase

/-- The lines that are asked for, from the first to the last. -/
def lineRange (first : ℤ) (last : Option ℤ) : ℤ × ℤ :=
  let first := max 1 first
  let last := if last.getD 0 = 0 then first else last.getD 0
  (first, max first last)

/-- The runner's tools for the blame. -/
structure BlameResolver where
  git : Git
  iso : IsoDate

namespace BlameResolver

variable (B : BlameResolver)

/-- `_blame`. -/
def blame (c : Clone) (file : String) (range : ℤ × ℤ) : Blame :=
  match B.git.attributed (B.git.seen c) c.head file range with
  | none => {}
  | some shas => parseBlamePorcelain B.iso (B.git.porcelain [] shas)

/-- Whether a commit is among the changes from one revision to a commit, unless the clone does not
tell. -/
def compare (c : Clone) (before : Rev) (after commit : String) : Option String :=
  match B.git.isAncestor c commit (.commit after) with
  | none => none
  | some false => some "earlier"
  | some true => (B.git.isAncestor c commit before).map fun inBefore =>
      if inBefore then "earlier" else "this_event"

/-- `_introduced_by`. -/
def introducedBy (c : Clone) (t : Turn) (commit : String) : Option String × Turn :=
  match t.range with
  | none => (none, t)
  | some (before, after) =>
      match t.ancestry.get commit with
      | some result => (result, t)
      | none =>
          let result := B.compare c before after commit
          (result, { t with ancestry := t.ancestry.set commit result })

/-- `resolve`. -/
def resolve (c : Clone) (t : Turn) (file : String) (first : ℤ) (last : Option ℤ) : Blame × Turn :=
  let range := lineRange first last
  match t.blames.get (file, range) with
  | some blame => (blame, t)
  | none =>
      let blame := B.blame c file range
      let (blame, t) := match blame.commit with
        | none => (blame, t)
        | some commit =>
            let (result, t) := B.introducedBy c t commit
            ({ blame with introducedBy := result }, t)
      (blame, { t with blames := t.blames.set (file, range) blame })

/-! ### A sandbox over its events -/

/-- The clone in a sandbox, and the turn in which the agent uses it. -/
structure State where
  clone : Option Clone := none
  turn : Option Turn := none

/-- What happens in a sandbox: an event is processed, a blame is asked for, and the sandbox is given
up for a new one. -/
inductive Act
  | process (server : Server) (event : Event)
  | resolve (file : String) (first : ℤ) (last : Option ℤ)
  | renew

/-- The state after an act, if it can happen. -/
def act (s : State) : Act → Option State
  | .process server event =>
      let (clone, started) := B.git.processEvent server event s.clone
      some { clone, turn := started.map fun mergeBase => { event, mergeBase } }
  | .resolve file first last =>
      match s.clone, s.turn with
      | some c, some t => some { s with turn := some (B.resolve c t file first last).2 }
      | _, _ => none
  | .renew => some {}

/-- The events and the blames of a sandbox. -/
def sandbox : System State Act where
  init s := s.clone = none ∧ s.turn = none
  step := B.act

end BlameResolver

/-! ### What the answer should tell -/

/-- The commit that a revision means. -/
def Rev.resolve (H : History String) : Rev → Option String
  | .commit sha => some sha
  | .parent sha => (H.parents sha).head?

namespace Git

variable (G : Git)

/-- The commit that introduced most lines of a range. -/
def introducer (commit file : String) (lines : ℤ × ℤ) : Option String :=
  (G.attributed G.history commit file lines).bind G.dominant

/-- The commit at which a line stops that is followed from the commit that is checked out to the one
that introduced it, or to the first whose parents the clone does not have. -/
def stop (c : Clone) (line : String × ℕ) : String :=
  G.history.stop G.follow (fun x => x ∈ c.shallow) c.head line

/-- The commit at which most lines of a range stop. -/
def stopping (c : Clone) (file : String) (lines : ℤ × ℤ) : Option String :=
  (G.ofLines c.head file lines (G.stop c)).bind G.dominant

/-- An answer is one of two or is missing, and what it says of the commit that introduced most lines
is so. -/
structure Truthful (range : Option (Rev × String)) (file : String) (lines : ℤ × ℤ)
    (answer : Option String) : Prop where
  known : answer ∈ [none, some "this_event", some "earlier"]
  thisEvent : answer = some "this_event" → ∃ before after, range = some (before, after) ∧
    ∀ x ∈ G.introducer after file lines,
      G.history.IsNew (before.resolve G.history) after x
  earlier : answer = some "earlier" → ∃ before after, range = some (before, after) ∧
    ∀ x ∈ G.introducer after file lines,
      ¬ G.history.IsNew (before.resolve G.history) after x

/-- The clone does not have the revisions to tell, or the commit where most lines stop is new as far
as it shows exactly if the one that introduced most of them is new. -/
def Faithful (c : Clone) (range : Option (Rev × String)) (file : String) (lines : ℤ × ℤ) : Prop :=
  ∀ before after, range = some (before, after) → after ∈ c.commits →
    ∀ stop ∈ G.stopping c file lines, ∀ x ∈ G.introducer after file lines,
      ((G.seen c).Reaches after stop → (G.resolveRev c before).isSome) →
      ((G.seen c).IsNew (G.resolveRev c before) after stop ↔
        G.history.IsNew (before.resolve G.history) after x)

end Git

namespace BlameResolver

variable {B : BlameResolver} {c : Clone} {t : Turn} {file : String} {lines : ℤ × ℤ}
  {range : Option (Rev × String)}

/-! ### What is attributed -/

/-- The clone attributes a line to the commit where it stops. -/
theorem attributed_seen (G : Git) :
  (G.attributed (G.seen c) c.head file lines).bind G.dominant = G.stopping c file lines
  := by
  have horigin : (G.seen c).origin G.follow c.head = G.stop c := by
    funext line
    apply History.origin_cutOff
  rw [Git.attributed, horigin, Git.stopping]

theorem blame_eq :
  B.blame c file lines = (B.git.stopping c file lines).elim {} fun sha =>
    (B.git.info sha).blame B.iso sha
  := by
  rw [← attributed_seen, blame]
  cases B.git.attributed (B.git.seen c) c.head file lines with
  | none => rfl
  | some shas => apply parseBlamePorcelain_porcelain

theorem blame_commit :
  (B.blame c file lines).commit = B.git.stopping c file lines
  := by
  rw [blame_eq]
  cases B.git.stopping c file lines <;> rfl

theorem blame_introducedBy :
  (B.blame c file lines).introducedBy = none
  := by
  rw [blame_eq]
  cases B.git.stopping c file lines <;> rfl

/-! ### Caches -/

/-- Whether a commit is among the changes, as the clone shows it. -/
def verdict (B : BlameResolver) (c : Clone) (range : Option (Rev × String)) (commit : String) :
    Option String :=
  range.bind fun (before, after) => B.compare c before after commit

/-- The blame of a range of lines, as the clone shows it. -/
def answer (B : BlameResolver) (c : Clone) (range : Option (Rev × String)) (file : String)
    (lines : ℤ × ℤ) : Blame :=
  let blame := B.blame c file lines
  { blame with introducedBy := blame.commit.bind (B.verdict c range) }

/-- The caches hold what the clone shows. -/
structure Sound (B : BlameResolver) (c : Clone) (t : Turn) : Prop where
  ancestry : ∀ x r, t.ancestry.get x = some r → r = B.verdict c t.range x
  blames : ∀ file lines b, t.blames.get (file, lines) = some b → b = B.answer c t.range file lines

theorem Sound.start (event : Event) (mergeBase : Option String) :
  Sound B c { event, mergeBase }
  := by constructor <;> intros <;> contradiction

theorem Sound.introducedBy (h : Sound B c t) (x : String) :
  (B.introducedBy c t x).1 = B.verdict c t.range x ∧ Sound B c (B.introducedBy c t x).2 ∧
    (B.introducedBy c t x).2.range = t.range ∧ (B.introducedBy c t x).2.blames = t.blames
  := by
  rw [BlameResolver.introducedBy.eq_def]
  cases hr : t.range with
  | none => exact ⟨rfl, h, hr, rfl⟩
  | some range =>
      dsimp only
      cases hget : t.ancestry.get x with
      | some result =>
          refine ⟨?_, h, hr, rfl⟩
          rw [h.ancestry x result hget, hr]
      | none =>
          refine ⟨rfl, ⟨?_, h.blames⟩, hr, rfl⟩
          intro y r hy
          dsimp only at hy
          rw [Dict.get_set] at hy
          split at hy
          · rename_i hyx
            rw [hyx, ← Option.some.inj hy]
            change _ = B.verdict c t.range x
            rw [hr]
            rfl
          · apply h.ancestry y r hy

/-- A blame is what the clone shows, whatever has been asked before. -/
theorem Sound.resolve (h : Sound B c t) (file : String) (first : ℤ) (last : Option ℤ) :
  (B.resolve c t file first last).1 = B.answer c t.range file (lineRange first last) ∧
    Sound B c (B.resolve c t file first last).2
  := by
  have hstore : ∀ t', Sound B c t' → t'.range = t.range → ∀ b,
      b = B.answer c t.range file (lineRange first last) →
      Sound B c { t' with blames := t'.blames.set (file, lineRange first last) b } := by
    intro t' ht' hrange b hb
    refine ⟨ht'.ancestry, ?_⟩
    intro file' lines' b' hget
    change b' = B.answer c t'.range file' lines'
    dsimp only at hget
    rw [Dict.get_set] at hget
    split at hget
    · rename_i hkey
      rw [Prod.mk.injEq] at hkey
      rw [← Option.some.inj hget, hb, hrange, hkey.1, hkey.2]
    · apply ht'.blames file' lines' b' hget
  rw [BlameResolver.resolve.eq_def]
  dsimp only
  cases hget : t.blames.get (file, lineRange first last) with
  | some b => exact ⟨h.blames file _ b hget, h⟩
  | none =>
      have hnone : (B.blame c file (lineRange first last)).introducedBy = none := blame_introducedBy
      rw [answer] at hstore ⊢
      generalize B.blame c file (lineRange first last) = blame at hnone hstore ⊢
      obtain ⟨author, email, commit, date, message, introduced⟩ := blame
      obtain rfl : introduced = none := hnone
      cases commit with
      | none => exact ⟨rfl, hstore t h rfl _ rfl⟩
      | some x =>
          obtain ⟨hverdict, hsound, hrange, -⟩ := h.introducedBy x
          dsimp only
          rw [hverdict]
          exact ⟨rfl, hstore _ hsound hrange _ rfl⟩

/-! ### Runs -/

/-- The clone has the parents that are not cut off, and the caches hold what it shows. -/
structure Inv (B : BlameResolver) (s : State) : Prop where
  closed : ∀ c, s.clone = some c → c.Closed B.git
  sound : ∀ c t, s.clone = some c → s.turn = some t → Sound B c t

theorem Inv.act {s s' : State} {a : Act} (h : Inv B s) (hs : B.act s a = some s') :
  Inv B s'
  := by
  cases a with
  | process server event =>
      obtain rfl := Option.some.inj hs
      constructor
      · intro c hc
        apply Clone.Closed.processEvent h.closed hc
      · intro c t _ ht
        obtain ⟨mergeBase, -, rfl⟩ := Option.map_eq_some_iff.mp ht
        apply Sound.start
  | resolve file first last =>
      rw [BlameResolver.act.eq_def] at hs
      dsimp only at hs
      split at hs
      · rename_i c t hc ht
        obtain rfl := Option.some.inj hs
        refine ⟨h.closed, ?_⟩
        intro c' t' hc' ht'
        obtain rfl := Option.some.inj (hc.symm.trans hc')
        obtain rfl := Option.some.inj ht'
        apply ((h.sound c t hc ht).resolve file first last).2
      · contradiction
  | renew =>
      obtain rfl := Option.some.inj hs
      constructor <;> intros <;> contradiction

theorem inv {s : State} (h : B.sandbox.Reachable s) :
  Inv B s
  := by
  apply h.invariant
  · rintro s ⟨hc, ht⟩
    constructor
    · intro c hc'
      rw [hc] at hc'
      contradiction
    · intro c t hc'
      rw [hc] at hc'
      contradiction
  · intro s a s' hI _ hs
    apply hI.act hs

/-! ### The answer -/

/-- A verdict on a commit: nothing is said as far as the clone does not have the revisions, and
otherwise whether the commit is new there. -/
inductive Judged (G : Git) (c : Clone) (before : Rev) (after x : String) : Option String → Prop
  | unknown (h : after ∈ c.commits →
      (G.seen c).Reaches after x ∧ G.resolveRev c before = none) : Judged G c before after x none
  | thisEvent (ha : after ∈ c.commits) (hb : (G.resolveRev c before).isSome)
      (h : (G.seen c).IsNew (G.resolveRev c before) after x) :
      Judged G c before after x (some "this_event")
  | earlier (ha : after ∈ c.commits)
      (hb : (G.seen c).Reaches after x → (G.resolveRev c before).isSome)
      (h : ¬ (G.seen c).IsNew (G.resolveRev c before) after x) :
      Judged G c before after x (some "earlier")

/-- **The verdict on a commit that the clone has.** -/
theorem judged_compare {before : Rev} {after x : String} (hx : x ∈ c.commits) :
  Judged B.git c before after x (B.compare c before after x)
  := by
  rw [compare.eq_def, Git.isAncestor, if_pos hx, Git.isAncestor, if_pos hx, Git.resolveRev]
  by_cases hafter : after ∈ c.commits
  · rw [if_pos hafter, Option.map_some]
    by_cases hreach : (B.git.seen c).Reaches after x
    · rw [decide_eq_true hreach]
      dsimp only
      cases hbefore : B.git.resolveRev c before with
      | none => exact .unknown fun _ => ⟨hreach, hbefore⟩
      | some b =>
          rw [Option.map_some, Option.map_some]
          by_cases hold : (B.git.seen c).Reaches b x
          · rw [if_pos (decide_eq_true hold)]
            apply Judged.earlier hafter (by simp [hbefore])
            rw [hbefore]
            intro hnew
            apply hnew.2 b rfl hold
          · rw [if_neg (by simpa using hold)]
            apply Judged.thisEvent hafter (by simp [hbefore])
            rw [hbefore]
            refine ⟨hreach, ?_⟩
            rintro b' ⟨⟩
            apply hold
    · rw [decide_eq_false hreach]
      apply Judged.earlier hafter fun h => absurd h hreach
      intro hnew
      apply hreach hnew.1
  · rw [if_neg hafter]
    exact .unknown fun h => absurd h hafter

/-- The commit where most lines stop is one that the clone has. -/
theorem stopping_mem (hc : c.Closed B.git) {x : String}
    (hx : B.git.stopping c file lines = some x) :
  x ∈ c.commits
  := by
  rw [← attributed_seen, Option.bind_eq_some_iff] at hx
  obtain ⟨shas, hshas, hx⟩ := hx
  have hmem := Git.dominant_mem hx
  rw [Git.attributed, Git.ofLines, Option.bind_eq_some_iff] at hshas
  obtain ⟨text, -, hshas⟩ := hshas
  split at hshas
  · obtain rfl := Option.some.inj hshas
    obtain ⟨i, -, rfl⟩ := List.mem_map.mp hmem
    apply hc.mem hc.head History.reaches_origin
  · contradiction

/-- Nothing is said of lines that are not there. -/
theorem truthful_none :
  B.git.Truthful range file lines none
  := by constructor <;> simp

/-- A verdict on the commit where most lines stop is right exactly if the clone is faithful. -/
theorem Judged.truthful_iff {G : Git} {before : Rev} {after stop : String} {answer : Option String}
    (h : Judged G c before after stop answer) (hstop : G.stopping c file lines = some stop) :
  G.Truthful (some (before, after)) file lines answer ↔
    G.Faithful c (some (before, after)) file lines
  := by
  have hsame : ∀ stop' ∈ G.stopping c file lines, stop' = stop := by
    intro stop' hstop'
    apply Option.some.inj (hstop'.symm.trans hstop)
  cases h with
  | unknown hsilent =>
      constructor
      · rintro _ _ _ ⟨⟩ hafter stop' hstop' x _ hbefore
        obtain rfl := hsame stop' hstop'
        obtain ⟨hreach, hresolve⟩ := hsilent hafter
        have hsome := hbefore hreach
        rw [hresolve] at hsome
        contradiction
      · intro _
        constructor <;> simp
  | thisEvent hafter hbefore hnew =>
      constructor
      · rintro htrue _ _ ⟨⟩ _ stop' hstop' x hx _
        obtain rfl := hsame stop' hstop'
        obtain ⟨_, _, ⟨⟩, hall⟩ := htrue.thisEvent rfl
        exact ⟨fun _ => hall x hx, fun _ => hnew⟩
      · intro hfaithful
        refine ⟨by simp, ?_, by simp⟩
        intro _
        use before, after, rfl
        intro x hx
        apply (hfaithful before after rfl hafter stop hstop x hx fun _ => hbefore).mp hnew
  | earlier hafter hbefore hold =>
      constructor
      · rintro htrue _ _ ⟨⟩ _ stop' hstop' x hx _
        obtain rfl := hsame stop' hstop'
        obtain ⟨_, _, ⟨⟩, hall⟩ := htrue.earlier rfl
        exact ⟨fun h => absurd h hold, fun h => absurd h (hall x hx)⟩
      · intro hfaithful
        refine ⟨by simp, by simp, ?_⟩
        intro _
        use before, after, rfl
        intro x hx hintroduced
        apply hold
        apply (hfaithful before after rfl hafter stop hstop x hx hbefore).mpr hintroduced

/-- Of a range of lines the answer is right exactly if the clone is faithful. -/
theorem truthful_answer_iff (hc : c.Closed B.git) :
  B.git.Truthful range file lines (B.answer c range file lines).introducedBy ↔
    B.git.Faithful c range file lines
  := by
  rw [answer]
  dsimp only
  rw [blame_commit]
  cases hstop : B.git.stopping c file lines with
  | none =>
      refine iff_of_true truthful_none ?_
      intro before after _ _ stop hstop'
      rw [hstop] at hstop'
      contradiction
  | some stop =>
      cases range with
      | none =>
          refine iff_of_true truthful_none ?_
          intro before after hrange
          contradiction
      | some range =>
          obtain ⟨before, after⟩ := range
          apply (judged_compare (stopping_mem hc hstop)).truthful_iff hstop

theorem resolve_of_resolveRev {G : Git} {rev : Rev} {sha : String}
    (h : G.resolveRev c rev = some sha) :
  rev.resolve G.history = some sha
  := by
  cases rev with
  | commit x =>
      rw [Git.resolveRev] at h
      split at h
      · apply h
      · contradiction
  | parent x =>
      rw [Git.resolveRev] at h
      split at h
      · rw [Git.seen, History.cutOff] at h
        dsimp only at h
        split at h
        · contradiction
        · apply h
      · contradiction

/-- A clone from which nothing is cut off and in which the last of the changes is checked out is
faithful. -/
theorem faithful_of_whole {G : Git} {before : Rev} {after : String} (hwhole : c.shallow = [])
    (hhead : c.head = after) :
  G.Faithful c (some (before, after)) file lines
  := by
  have hseen : G.seen c = G.history := by
    rw [Git.seen, hwhole]
    apply History.cutOff_false
  rintro _ _ ⟨⟩ _ stop hstop x hx hbefore
  rw [← attributed_seen, hseen, hhead] at hstop
  obtain rfl := Option.some.inj (hstop.symm.trans hx)
  rw [hseen] at hbefore ⊢
  by_cases hreach : G.history.Reaches after stop
  · obtain ⟨b, hb⟩ := Option.isSome_iff_exists.mp (hbefore hreach)
    rw [hb, resolve_of_resolveRev hb]
  · exact ⟨fun h => absurd h.1 hreach, fun h => absurd h.1 hreach⟩

theorem ofLines_line {G : Git} {commit : String} {text : List String} {n : ℕ}
    {f : String × ℕ → String} (htext : G.content commit file = some text) (hn : n ≤ text.length) :
  G.ofLines commit file (n, n) f = some [f (file, n)]
  := by
  have hmin : (min (n : ℤ) text.length + 1 - n).toNat = 1 := by omega
  rw [Git.ofLines, htext, Option.bind_some, if_pos (Int.ofNat_le.mpr hn), hmin]
  rfl

/-- One line is attributed to one commit. -/
theorem dominant_ofLines_line {G : Git} {commit : String} {text : List String} {n : ℕ}
    {f : String × ℕ → String} (htext : G.content commit file = some text) (hn : n ≤ text.length)
    (hf : f (file, n) ≠ uncommitted) :
  (G.ofLines commit file (n, n) f).bind G.dominant = some (f (file, n))
  := by
  rw [ofLines_line htext hn]
  apply Git.dominant_of_forall (List.cons_ne_nil _ []) _ hf
  intro s hs
  apply List.mem_singleton.mp hs

/-- A commit that is reached from the last of the changes is new if it is not reached from the one
before them. -/
theorem isNew_iff {H : History String} {after b x : String} (h : H.Reaches after x) :
  H.IsNew (some b) after x ↔ ¬ H.Reaches b x
  := by
  constructor
  · intro hnew
    apply hnew.2 b rfl
  · intro hold
    refine ⟨h, ?_⟩
    rintro b' ⟨⟩
    apply hold

/-- **Which lines are misattributed**: if the last of the changes is checked out and the clone has
the revision before them, then of a line the answer is wrong exactly if the commit that introduced
it is not new, but the one where it stops cannot be reached from the revision before in the clone.
-/
theorem faithful_line_iff {G : Git} {before : Rev} {b : String} {text : List String} {n : ℕ}
    (hc : c.Closed G) (hb : G.resolveRev c before = some b)
    (htext : G.content c.head file = some text) (hn : n ≤ text.length)
    (hstop : G.stop c (file, n) ≠ uncommitted)
    (horigin : G.history.origin G.follow c.head (file, n) ≠ uncommitted) :
  G.Faithful c (some (before, c.head)) file (n, n) ↔
    (G.history.Reaches b (G.history.origin G.follow c.head (file, n)) →
      (G.seen c).Reaches b (G.stop c (file, n)))
  := by
  have hstopping : G.stopping c file (n, n) = some (G.stop c (file, n)) :=
    dominant_ofLines_line htext hn hstop
  have hintroducer : G.introducer c.head file (n, n) =
      some (G.history.origin G.follow c.head (file, n)) :=
    dominant_ofLines_line htext hn horigin
  have hfrom : (G.seen c).Reaches c.head (G.stop c (file, n)) := by
    rw [Git.stop, ← History.origin_cutOff]
    apply History.reaches_origin
  have hiff : ((G.seen c).IsNew (G.resolveRev c before) c.head (G.stop c (file, n)) ↔
        G.history.IsNew (before.resolve G.history) c.head
          (G.history.origin G.follow c.head (file, n))) ↔
      ((G.seen c).Reaches b (G.stop c (file, n)) ↔
        G.history.Reaches b (G.history.origin G.follow c.head (file, n))) := by
    rw [hb, resolve_of_resolveRev hb, isNew_iff hfrom, isNew_iff History.reaches_origin,
      not_iff_not]
  constructor
  · intro hfaithful
    apply (hiff.mp (hfaithful before c.head rfl hc.head _ hstopping _ hintroducer _)).mpr
    intro _
    rw [hb]
    rfl
  · rintro hline _ _ ⟨⟩ _ stop hs x hx _
    obtain rfl := Option.some.inj (hstopping.symm.trans hs)
    obtain rfl := Option.some.inj (hintroducer.symm.trans hx)
    apply hiff.mpr ⟨_, hline⟩
    intro h
    apply h.of_cutOff.trans (History.stop_reaches_origin _)

/-! ### A push of two commits -/

/-- A commit name of one letter. -/
def sampleSha (letter : Char) : String :=
  String.ofList (List.replicate 40 letter)

/-- Four commits, each the parent of the next. -/
def sampleHistory : History String where
  parents x := if x = sampleSha 'd' then [sampleSha 'c']
    else if x = sampleSha 'c' then [sampleSha 'b']
    else if x = sampleSha 'b' then [sampleSha 'a'] else []
  age x := if x = sampleSha 'd' then 3 else if x = sampleSha 'c' then 2
    else if x = sampleSha 'b' then 1 else 0
  age_lt := by
    intro x p hp
    by_cases hd : x = sampleSha 'd'
    · rw [if_pos hd, List.mem_singleton] at hp
      rw [hd, hp]
      decide
    · rw [if_neg hd] at hp
      by_cases hc : x = sampleSha 'c'
      · rw [if_pos hc, List.mem_singleton] at hp
        rw [hc, hp]
        decide
      · rw [if_neg hc] at hp
        by_cases hb : x = sampleSha 'b'
        · rw [if_pos hb, List.mem_singleton] at hp
          rw [hb, hp]
          decide
        · rw [if_neg hb] at hp
          contradiction

/-- One file with one line that the first commit introduced. -/
def sampleGit : Git where
  history := sampleHistory
  authorTime _ := 0
  texts _ := [("author", "Dev"), ("author-mail", "<dev@example.com>"),
    ("summary", "Initial commit")]
  content _ file := if file = "app.py" then some ["run(cmd)"] else none
  follow :=
    { follow := fun _ parents line => parents.head?.map fun p => (p, line)
      mem := by
        intro c parents l p l' h
        obtain ⟨q, hq, hpair⟩ := Option.map_eq_some_iff.mp h
        obtain rfl := (Prod.mk.inj hpair).1
        apply List.mem_of_mem_head? hq }
  mergeBase _ _ _ := none

/-- The resolver over these commits. -/
def sampleResolver : BlameResolver where
  git := sampleGit
  iso _ _ := none

/-- A push of the last commit onto an earlier one. -/
def samplePush (letter : Char) : Event where
  eventId := 1
  instanceId := 3
  action := "push"
  dedupKey := "k"
  commitSha := some (sampleSha 'd')
  beforeSha := some (sampleSha letter)

/-- A server that has the four commits. -/
def sampleServer : Server where
  tip := sampleSha 'd'
  branches := [sampleSha 'd']

/-- The answer for the line after an event. -/
def sampleAnswer (s : State) : Option String :=
  s.clone.bind fun c => s.turn.bind fun t =>
    (sampleResolver.resolve c t "app.py" 1 none).1.introducedBy

/-- What is known of a sandbox after a push: the range, the answer for the line, and the commit that
introduced it. -/
def samplePushed (letter : Char) (answer : String) (s : State) : Bool :=
  (s.clone.any fun _ => s.turn.any fun t =>
    t.range = some (.commit (sampleSha letter), sampleSha 'd')) ∧
  sampleAnswer s = some answer ∧
  sampleGit.introducer (sampleSha 'd') "app.py" (lineRange 1 none) = some (sampleSha 'a') ∧
  sampleHistory.Reaches (sampleSha letter) (sampleSha 'a')

theorem samplePushed.turn {letter : Char} {answer : String} {s : State}
    (h : samplePushed letter answer s = true) :
  ∃ c t, s.clone = some c ∧ s.turn = some t ∧
    t.range = some (.commit (sampleSha letter), sampleSha 'd') ∧
    (sampleResolver.resolve c t "app.py" 1 none).1.introducedBy = some answer
  := by
  obtain ⟨hrange, hanswer, -⟩ := of_decide_eq_true h
  obtain ⟨c, hc, hrange⟩ := (Option.any_eq_true _ _).mp hrange
  obtain ⟨t, ht, hrange⟩ := (Option.any_eq_true _ _).mp hrange
  rw [sampleAnswer, hc, ht] at hanswer
  exact ⟨c, t, hc, ht, of_decide_eq_true hrange, hanswer⟩

end BlameResolver

end Agent
