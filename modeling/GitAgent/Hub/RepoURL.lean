import Mathlib.Data.List.Infix
import GitAgent.Library.Percent
import GitAgent.Library.Segments
import GitAgent.Library.Trim
import GitAgent.Library.Utf8

/-!
# Addresses of repositories

How the address of a repository is read (`ParseRepoURL` in `internal/hub/app/repository.go`): its
provider, its owner and its name. The segments of what is read are not empty, and its canonical
address is read as the same, exactly if the path of the address is plain.
-/

namespace Hub

open Percent (unescape cut)

/-! ### Texts -/

/-- A text of the language, which is any bytes. -/
abbrev Bytes := List UInt8

/-- The bytes of a literal. -/
def bytes (s : String) : Bytes :=
  Utf8.encode s.toList

/-- A slash. -/
def slash : UInt8 :=
  0x2F

/-- The bytes of the characters that are spaces. -/
def spaces : List Bytes :=
  ["\t", "\n", "\u000b", "\u000c", "\r", " ", "\u0085", "\u00a0", "\u1680", "\u2000", "\u2001",
    "\u2002", "\u2003", "\u2004", "\u2005", "\u2006", "\u2007", "\u2008", "\u2009", "\u200a",
    "\u2028", "\u2029", "\u202f", "\u205f", "\u3000"].map bytes

/-- `strings.TrimSpace`. -/
def trimSpace (s : Bytes) : Bytes :=
  let s := Trim.peel spaces s.length s
  (Trim.peel (spaces.map List.reverse) s.length s.reverse).reverse

/-- `strings.TrimSuffix`. -/
def trimSuffix (suffix s : Bytes) : Bytes :=
  if suffix <:+ s then s.take (s.length - suffix.length) else s

/-- `strings.LastIndex`, of one byte. -/
def lastIndex (c : UInt8) : Bytes → Option ℕ
  | [] => none
  | b :: s =>
      match lastIndex c s with
      | some i => some (i + 1)
      | none => if b = c then some 0 else none

/-! ### The parser of the language -/

/-- The providers of repositories. -/
inductive RepoProvider
  | github
  | gitlab
  deriving DecidableEq, Repr

/-- The host of a provider. -/
def RepoProvider.host : RepoProvider → Bytes
  | github => bytes "github.com"
  | gitlab => bytes "gitlab.com"

/-- What is read of an address: its scheme, its host, and its decoded path. -/
structure Url where
  scheme : Bytes
  host : Bytes
  path : Bytes
  deriving DecidableEq

/-- A byte that an address may not have. -/
def isControl (b : UInt8) : Bool :=
  b < 0x20 || b = 0x7F

/-- The path of an address, of which `rest` is what comes after the host: a fragment and a query are
cut off, and what is left is decoded. -/
def urlPath (rest : Bytes) : Option Bytes :=
  let (u, fragment) := cut 0x23 rest
  if u.any isControl then none
  else do
    let _ ← unescape fragment
    unescape (cut 0x3F u).1

/-- `url.Parse`, as far as the code relies on it: what it gives for the address of a path at the
host of a provider. -/
structure UrlParser where
  parse : Bytes → Option Url
  parse_host : ∀ (p : RepoProvider) (rest : Bytes),
    parse (bytes "https://" ++ p.host ++ slash :: rest) =
      (urlPath (slash :: rest)).map fun path => ⟨bytes "https", p.host, path⟩

/-! ### The address of a repository -/

/-- A repository: its provider, its owner and its name. -/
structure RepoRef where
  provider : RepoProvider
  owner : Bytes
  name : Bytes
  deriving DecidableEq

/-- The owner and the name. -/
def RepoRef.path (r : RepoRef) : Bytes :=
  r.owner ++ slash :: r.name

/-- The canonical address of a repository. -/
def RepoRef.canonical (r : RepoRef) : Bytes :=
  bytes "https://" ++ r.provider.host ++ slash :: r.path

/-- The provider of a host. -/
def providerOf (host : Bytes) : Option RepoProvider :=
  if host = bytes "github.com" ∨ host = bytes "www.github.com" then some .github
  else if host = bytes "gitlab.com" ∨ host = bytes "www.gitlab.com" then some .gitlab
  else none

/-- `strings.Trim` of slashes. -/
def trimSlashes (s : Bytes) : Bytes :=
  Trim.trim (· = slash) s

/-- The path of a repository: without the slashes around it, and one ending. -/
def repoPath (path : Bytes) : Bytes :=
  trimSlashes (trimSuffix (bytes ".git") (trimSlashes path))

/-- `ParseRepoURL`. -/
def parseRepoURL (P : UrlParser) (raw : Bytes) : Except Bytes RepoRef :=
  let form := bytes ("url must be https://github.com/\x7bowner\x7d/\x7brepo\x7d or " ++
    "https://gitlab.com/\x7bgroup\x7d/\x7brepo\x7d")
  match P.parse (trimSpace raw) with
  | none => .error form
  | some u =>
      if u.scheme ≠ bytes "https" then .error form
      else
        match providerOf u.host with
        | none =>
            .error (bytes "unsupported host " ++ u.host ++ bytes " (github.com or gitlab.com)")
        | some provider =>
            let path := repoPath u.path
            let noRepository := bytes "url must point at a repository: https://" ++ u.host ++
              bytes "/\x7bowner\x7d/\x7brepo\x7d"
            match lastIndex slash path with
            | none => .error noRepository
            | some i =>
                if i = 0 ∨ i + 1 = path.length ∨ provider = .github ∧ path.count slash ≠ 1 then
                  .error noRepository
                else .ok ⟨provider, path.take i, path.drop (i + 1)⟩

/-! ### What is read of a path -/

theorem lastIndex_eq_none_iff {c : UInt8} {s : Bytes} :
  lastIndex c s = none ↔ c ∉ s
  := by
  induction s with
  | nil => simp [lastIndex]
  | cons b s ih =>
      rw [lastIndex, List.mem_cons, not_or]
      cases h : lastIndex c s with
      | none =>
          rw [h] at ih
          simp [ih.mp rfl, eq_comm]
      | some i =>
          rw [h] at ih
          simp only [reduceCtorEq, false_iff, not_not] at ih
          simp [ih]

/-- The last index splits a text where its last part begins. -/
theorem lastIndex_eq_some {c : UInt8} {s : Bytes} {i : ℕ} (h : lastIndex c s = some i) :
  s = s.take i ++ c :: s.drop (i + 1) ∧ c ∉ s.drop (i + 1)
  := by
  induction s generalizing i with
  | nil => contradiction
  | cons b s ih =>
      rw [lastIndex] at h
      split at h
      · rename_i j hj
        obtain rfl := Option.some.inj h
        obtain ⟨hs, hc⟩ := ih hj
        rw [List.take_succ_cons, List.drop_succ_cons, List.cons_append, ← hs]
        exact ⟨rfl, hc⟩
      · rename_i hnone
        split at h
        · rename_i hb
          obtain rfl := Option.some.inj h
          subst hb
          exact ⟨rfl, lastIndex_eq_none_iff.mp hnone⟩
        · contradiction

theorem lastIndex_append (c : UInt8) (l : Bytes) {r : Bytes} (h : c ∉ r) :
  lastIndex c (l ++ c :: r) = some l.length
  := by
  induction l with
  | nil => rw [List.nil_append, lastIndex, lastIndex_eq_none_iff.mpr h, if_pos rfl, List.length_nil]
  | cons b l ih => rw [List.cons_append, lastIndex, ih, List.length_cons]

/-- The path of a repository neither begins nor ends with a slash. -/
theorem bare_repoPath (path : Bytes) :
  Trim.Bare (· = slash) (repoPath path)
  := Trim.bare_trim _ _

/-- There is an owner and a name, if the path of a repository is bare. -/
theorem RepoRef.ne_nil_of_bare {r : RepoRef} (h : Trim.Bare (· = slash) r.path) :
  r.owner ≠ [] ∧ r.name ≠ []
  := by
  constructor
  · intro howner
    have := h.head slash (by rw [RepoRef.path, howner]; rfl)
    simp at this
  · intro hname
    have := h.last slash (by rw [RepoRef.path, hname, List.getLast?_concat]; rfl)
    simp at this

theorem RepoRef.count_path (r : RepoRef) :
  r.path.count slash = r.owner.count slash + r.name.count slash + 1
  := by
  rw [RepoRef.path, List.count_append, List.count_cons_self, Nat.add_assoc]

/-- **What is accepted**: an address of a host that is known, with a path of which the last part is
the name, and what is before it the owner. -/
theorem parseRepoURL_eq_ok {P : UrlParser} {raw : Bytes} {r : RepoRef} :
  parseRepoURL P raw = .ok r ↔
    ∃ u, P.parse (trimSpace raw) = some u ∧ u.scheme = bytes "https" ∧
      providerOf u.host = some r.provider ∧ repoPath u.path = r.path ∧ slash ∉ r.name ∧
      (r.provider = .github → slash ∉ r.owner)
  := by
  constructor
  · intro h
    unfold parseRepoURL at h
    simp only at h
    split at h
    · contradiction
    · rename_i u hparse
      split at h
      · contradiction
      · rename_i hscheme
        split at h
        · contradiction
        · rename_i provider hprovider
          split at h
          · contradiction
          · rename_i i hi
            split at h
            · contradiction
            · rename_i hcond
              obtain rfl := Except.ok.inj h
              obtain ⟨hpath, hname⟩ := lastIndex_eq_some hi
              refine ⟨u, hparse, not_not.mp hscheme, hprovider, hpath, hname, fun hgithub => ?_⟩
              have hcount : (repoPath u.path).count slash = 1 := by
                by_contra hne
                exact hcond (.inr (.inr ⟨hgithub, hne⟩))
              rw [hpath] at hcount
              have hsum := hcount.symm.trans (RepoRef.count_path ⟨provider, _, _⟩)
              apply List.count_eq_zero.mp
              omega
  · rintro ⟨u, hparse, hscheme, hprovider, hpath, hname, howner⟩
    have hbare := bare_repoPath u.path
    rw [hpath] at hbare
    obtain ⟨howner', hname'⟩ := r.ne_nil_of_bare hbare
    have hindex : lastIndex slash r.path = some r.owner.length := lastIndex_append _ _ hname
    have hcond : ¬ (r.owner.length = 0 ∨ r.owner.length + 1 = r.path.length ∨
        r.provider = .github ∧ r.path.count slash ≠ 1) := by
      rintro (h | h | ⟨hgithub, h⟩)
      · exact howner' (List.length_eq_zero_iff.mp h)
      · rw [RepoRef.path, List.length_append, List.length_cons] at h
        exact hname' (List.length_eq_zero_iff.mp (by omega))
      · rw [r.count_path, List.count_eq_zero.mpr hname,
          List.count_eq_zero.mpr (howner hgithub)] at h
        exact h rfl
    have htake : r.path.take r.owner.length = r.owner := List.take_left
    have hdrop : r.path.drop (r.owner.length + 1) = r.name := by
      rw [RepoRef.path, ← List.drop_drop, List.drop_left]
      rfl
    unfold parseRepoURL
    simp only [hparse, hscheme, hprovider, hpath, hindex, if_neg hcond, htake, hdrop, ne_eq,
      not_true_eq_false, if_false]

/-! ### The claim and its condition -/

/-- What is read of an address has no empty segment, one owner at GitHub and no ending left, and its
canonical address is read as the same. -/
structure WellRead (P : UrlParser) (r : RepoRef) : Prop where
  segments : ∀ segment ∈ r.path.splitOn slash, segment ≠ []
  owner : r.provider = .github → (r.owner.splitOn slash).length = 1
  name : ¬ bytes ".git" <:+ r.name
  canonical : parseRepoURL P r.canonical = .ok r

/-- What is accepted is well read. -/
def Grammatical (P : UrlParser) (raw : Bytes) : Prop :=
  ∀ r, parseRepoURL P raw = .ok r → WellRead P r

/-- What is left of a path without the slashes around it, and without one ending and the slashes
before that. -/
inductive Core (path core : Bytes) : Prop
  | ended (before between after : Bytes)
      (slashes : ∀ b ∈ before ++ between ++ after, b = slash)
      (eq : path = before ++ core ++ between ++ bytes ".git" ++ after)
      (bare : Trim.Bare (· = slash) core)
  | bare (before after : Bytes) (slashes : ∀ b ∈ before ++ after, b = slash)
      (eq : path = before ++ core ++ after) (bare : Trim.Bare (· = slash) core)
      (ending : ¬ bytes ".git" <:+ core)

/-- A byte of a path that is neither cut off, nor decoded, nor refused. -/
def PlainByte (b : UInt8) : Prop :=
  b ≠ 0x23 ∧ b ≠ 0x25 ∧ b ≠ 0x3F ∧ isControl b = false

instance : DecidablePred PlainByte := fun _ => inferInstanceAs (Decidable (_ ∧ _))

/-- A path that stands for itself in an address: no two slashes are next to each other, it does not
end with the ending or with a space, and it has no byte that is cut off, decoded or refused. -/
structure Plain (core : Bytes) : Prop where
  slashes : ¬ [slash, slash] <:+: core
  ending : ¬ bytes ".git" <:+ core
  space : ∀ space ∈ spaces, ¬ space <:+ core
  bytes : ∀ b ∈ core, PlainByte b

/-- An address whose path is plain, if it is one of a repository. -/
def PlainPath (P : UrlParser) (raw : Bytes) : Prop :=
  ∀ u, P.parse (trimSpace raw) = some u → u.scheme = bytes "https" →
    ∀ provider, providerOf u.host = some provider →
      ∀ core, Core u.path core → slash ∈ core → (provider = .github → core.count slash = 1) →
        Plain core

/-! ### What is left of a path -/

theorem bytes_ending :
  bytes ".git" = [0x2E, 0x67, 0x69, 0x74]
  := by decide

theorem trimSuffix_append (suffix s : Bytes) :
  trimSuffix suffix (s ++ suffix) = s
  := by
  rw [trimSuffix, if_pos (List.suffix_append _ _), List.length_append, Nat.add_sub_cancel,
    List.take_left]

theorem trimSuffix_of_not {suffix s : Bytes} (h : ¬ suffix <:+ s) :
  trimSuffix suffix s = s
  := if_neg h

theorem trim_slashes_append {before core after : Bytes} (h : Trim.Bare (· = slash) core)
    (hslash : ∀ b ∈ before ++ after, b = slash) :
  trimSlashes (before ++ core ++ after) = core
  := Trim.trim_append h fun b hb => decide_eq_true (hslash b hb)

/-- A text without slashes at its ends, and the ending, is bare. -/
theorem bare_append_ending {core between : Bytes} (h : Trim.Bare (· = slash) core)
    (hcore : core ≠ []) :
  Trim.Bare (· = slash) (core ++ between ++ bytes ".git")
  := by
  apply h.append _ hcore
  · rw [bytes_ending]
    decide
  · rw [bytes_ending]
    exact Trim.bare_of_any (by decide)

/-- What is left of a path is what the trims leave. -/
theorem core_iff {path core : Bytes} :
  Core path core ↔ repoPath path = core
  := by
  constructor
  · intro h
    rcases h with ⟨before, between, after, hslash, rfl, hbare⟩ |
      ⟨before, after, hslash, rfl, hbare, hending⟩
    · obtain ⟨hleft, hafter⟩ := List.forall_mem_append.mp hslash
      obtain ⟨hbefore, hbetween⟩ := List.forall_mem_append.mp hleft
      rw [repoPath]
      cases core with
      | nil =>
          have htrim : trimSlashes (before ++ [] ++ between ++ bytes ".git" ++ after) =
              [] ++ bytes ".git" := by
            rw [List.append_nil, List.nil_append]
            apply trim_slashes_append _ hslash
            rw [bytes_ending]
            exact Trim.bare_of_any (by decide)
          rw [htrim, trimSuffix_append]
          rfl
      | cons b core =>
          have htrim : trimSlashes (before ++ (b :: core) ++ between ++ bytes ".git" ++ after) =
              (b :: core) ++ between ++ bytes ".git" := by
            have hassoc : before ++ (b :: core) ++ between ++ bytes ".git" ++ after =
                before ++ ((b :: core) ++ between ++ bytes ".git") ++ after := by
              simp only [List.append_assoc]
            rw [hassoc]
            exact trim_slashes_append (bare_append_ending hbare (List.cons_ne_nil _ _))
              (List.forall_mem_append.mpr ⟨hbefore, hafter⟩)
          rw [htrim, trimSuffix_append]
          exact @trim_slashes_append [] _ _ hbare hbetween
    · have htrim := trim_slashes_append hbare hslash
      rw [repoPath, htrim, trimSuffix_of_not hending]
      exact Trim.trim_of_bare hbare
  · rintro rfl
    obtain ⟨before, after, hpath, hslash⟩ := Trim.exists_trim (p := (· = slash)) path
    have hbare := bare_repoPath path
    by_cases hending : bytes ".git" <:+ trimSlashes path
    · obtain ⟨rest, hrest⟩ := hending
      obtain ⟨before', between, hsplit, hslash'⟩ := Trim.exists_trim (p := (· = slash)) rest
      have hcore : repoPath path = trimSlashes rest := by
        rw [repoPath, ← hrest, trimSuffix_append]
      rw [hcore] at hbare ⊢
      apply Core.ended (before ++ before') between after _ _ hbare
      · intro b hb
        simp only [List.mem_append] at hb hslash hslash'
        rcases hb with ((hb | hb) | hb) | hb
        · exact of_decide_eq_true (hslash b (.inl hb))
        · exact of_decide_eq_true (hslash' b (.inl hb))
        · exact of_decide_eq_true (hslash' b (.inr hb))
        · exact of_decide_eq_true (hslash b (.inr hb))
      · calc
          path = before ++ trimSlashes path ++ after := hpath
          _ = before ++ (rest ++ bytes ".git") ++ after := by rw [hrest]
          _ = before ++ (before' ++ trimSlashes rest ++ between ++ bytes ".git") ++ after :=
            congrArg (fun s => before ++ (s ++ bytes ".git") ++ after) hsplit
          _ = before ++ before' ++ trimSlashes rest ++ between ++ bytes ".git" ++ after := by
            simp only [List.append_assoc]
    · have hcore : repoPath path = trimSlashes path := by
        rw [repoPath, trimSuffix_of_not hending]
        exact Trim.trim_trim path
      rw [hcore] at hbare ⊢
      apply Core.bare before after _ hpath hbare hending
      simpa using hslash

theorem length_trimSlashes (s : Bytes) :
  (trimSlashes s).length ≤ s.length ∧ ((trimSlashes s).length = s.length → trimSlashes s = s)
  := by
  obtain ⟨before, after, hs, -⟩ := Trim.exists_trim (p := (· = slash)) s
  have hlength := congrArg List.length hs
  rw [List.length_append, List.length_append, ← trimSlashes] at hlength
  constructor
  · omega
  · intro h
    have hbefore : before = [] := List.length_eq_zero_iff.mp (by omega)
    have hafter : after = [] := List.length_eq_zero_iff.mp (by omega)
    rw [hbefore, hafter, List.nil_append, List.append_nil] at hs
    exact hs.symm

theorem length_trimSuffix (suffix s : Bytes) :
  (trimSuffix suffix s).length ≤ s.length ∧
    (suffix <:+ s → suffix ≠ [] → (trimSuffix suffix s).length < s.length)
  := by
  rw [trimSuffix]
  split
  · rename_i h
    obtain ⟨rest, rfl⟩ := h
    rw [List.length_append, Nat.add_sub_cancel, List.take_left]
    refine ⟨Nat.le_add_right _ _, fun _ hne => ?_⟩
    have := List.length_pos_of_ne_nil hne
    omega
  · rename_i h
    exact ⟨Nat.le_refl _, fun h' => absurd h' h⟩

/-- What is left is shorter than the path, unless the path is left as it is. -/
theorem length_repoPath (path : Bytes) :
  (repoPath path).length ≤ path.length ∧
    ((repoPath path).length = path.length → repoPath path = path ∧ ¬ bytes ".git" <:+ path)
  := by
  have hsuffix := length_trimSuffix (bytes ".git") (trimSlashes path)
  have hinner := length_trimSlashes path
  have houter := length_trimSlashes (trimSuffix (bytes ".git") (trimSlashes path))
  constructor
  · rw [repoPath]
    omega
  · intro h
    rw [repoPath] at h ⊢
    have hpath := hinner.2 (by omega)
    rw [houter.2 (by omega), hpath]
    have hnot : ¬ bytes ".git" <:+ path := by
      intro hending
      have := hsuffix.2 (by rwa [hpath]) (by simp [bytes_ending])
      omega
    exact ⟨trimSuffix_of_not hnot, hnot⟩

theorem repoPath_slash (path : Bytes) :
  repoPath (slash :: path) = repoPath path
  := by
  have htrim : trimSlashes (slash :: path) = trimSlashes path := by
    rw [trimSlashes, trimSlashes, Trim.trim, List.dropWhile_cons_of_pos (by simp)]
    rfl
  rw [repoPath, repoPath, htrim]

/-! ### The canonical address -/

theorem urlPath_of_plain {s : Bytes} (h : ∀ b ∈ s, PlainByte b) :
  urlPath s = some s
  := by
  have hhash : (0x23 : UInt8) ∉ s := fun hmem => (h _ hmem).1 rfl
  have hpercent : (0x25 : UInt8) ∉ s := fun hmem => (h _ hmem).2.1 rfl
  have hquery : (0x3F : UInt8) ∉ s := fun hmem => (h _ hmem).2.2.1 rfl
  have hcontrol : s.any isControl = false := by
    rw [List.any_eq_false]
    exact fun b hb => Bool.eq_false_iff.mp (h b hb).2.2.2
  rw [urlPath, Percent.cut_of_not_mem hhash]
  simp only [hcontrol, Bool.false_eq_true, if_false, Percent.cut_of_not_mem hquery,
    Percent.unescape_of_not_mem hpercent]
  rfl

/-- A path is shorter than what is written, unless all of it is plain. -/
theorem length_urlPath {s path : Bytes} (h : urlPath s = some path) :
  path.length ≤ s.length ∧ (path.length = s.length → ∀ b ∈ s, PlainByte b)
  := by
  rw [urlPath] at h
  simp only at h
  split at h
  · contradiction
  · rename_i hcontrol
    obtain ⟨_, -, h⟩ := Option.bind_eq_some_iff.mp h
    obtain ⟨hhash, hhash'⟩ := Percent.length_cut 0x23 s
    obtain ⟨hquery, hquery'⟩ := Percent.length_cut 0x3F (cut 0x23 s).1
    obtain ⟨hpercent, hpercent'⟩ := Percent.length_unescape h
    constructor
    · omega
    · intro hlength
      -- Whatever is cut off or decoded makes the path shorter.
      have hmem : (0x23 : UInt8) ∉ s := fun hmem => by
        have := hhash' hmem
        omega
      simp only [Percent.cut_of_not_mem hmem] at hcontrol hquery hquery' hpercent hpercent'
      have hmem' : (0x3F : UInt8) ∉ s := fun hmem => by
        have := hquery' hmem
        omega
      simp only [Percent.cut_of_not_mem hmem'] at hpercent hpercent'
      have hmem'' : (0x25 : UInt8) ∉ s := fun hmem => by
        have := hpercent' hmem
        omega
      intro b hb
      refine ⟨?_, ?_, ?_, ?_⟩
      · rintro rfl
        exact hmem hb
      · rintro rfl
        exact hmem'' hb
      · rintro rfl
        exact hmem' hb
      · rw [List.any_eq_true] at hcontrol
        apply Bool.eq_false_iff.mpr
        exact fun hctl => hcontrol ⟨b, hb, hctl⟩

theorem urlPath_slash (s : Bytes) :
  urlPath (slash :: s) = (urlPath s).map (slash :: ·)
  := by
  have hcontrol : isControl slash = false := by decide
  rw [urlPath, urlPath, Percent.cut_cons (by decide)]
  simp only [Percent.cut_cons (show slash ≠ 0x3F by decide), List.any_cons, hcontrol,
    Bool.false_or, Percent.unescape_cons (show slash ≠ 0x25 by decide)]
  split
  · rfl
  · cases unescape (cut 0x23 s).2 <;> rfl

theorem spaces_spec :
  ∀ space ∈ spaces, space ≠ [] ∧ (0x68 : UInt8) ∉ space ∧ slash ∉ space
  := by decide

theorem bytes_https :
  bytes "https://" = 0x68 :: bytes "ttps://"
  := by decide

/-- An address is trimmed at its end only. -/
theorem trimSpace_https (rest : Bytes) :
  trimSpace (bytes "https://" ++ rest) =
    (Trim.peel (spaces.map List.reverse) (bytes "https://" ++ rest).length
      (bytes "https://" ++ rest).reverse).reverse
  := by
  have hpeel := @Trim.peel_of_forall _ _ spaces (bytes "https://" ++ rest)
  rw [trimSpace, hpeel]
  intro space hspace hstart
  obtain ⟨hne, hmem, -⟩ := spaces_spec space hspace
  rw [bytes_https, List.cons_append] at hstart
  cases space with
  | nil => contradiction
  | cons b space =>
      obtain ⟨rfl, -⟩ := List.cons_prefix_cons.mp hstart
      exact hmem List.mem_cons_self

/-- What is trimmed off has no slash. -/
theorem exists_trimSpace (rest : Bytes) :
  ∃ dropped, bytes "https://" ++ rest = trimSpace (bytes "https://" ++ rest) ++ dropped ∧
    slash ∉ dropped
  := by
  rw [trimSpace_https]
  obtain ⟨dropped, hdropped, hall⟩ := @Trim.exists_peel _ _ (spaces.map List.reverse)
    (bytes "https://" ++ rest).length (bytes "https://" ++ rest).reverse
  use dropped.reverse
  constructor
  · rw [← List.reverse_append, ← hdropped, List.reverse_reverse]
  · intro hmem
    obtain ⟨space', hspace', hslash⟩ := hall _ (List.mem_reverse.mp hmem)
    obtain ⟨space, hspace, rfl⟩ := List.mem_map.mp hspace'
    exact (spaces_spec space hspace).2.2 (List.mem_reverse.mp hslash)

/-- An address is left as it is exactly if it does not end with a space. -/
theorem trimSpace_https_iff (rest : Bytes) :
  trimSpace (bytes "https://" ++ rest) = bytes "https://" ++ rest ↔
    ∀ space ∈ spaces, ¬ space <:+ bytes "https://" ++ rest
  := by
  rw [trimSpace_https]
  constructor
  · intro h space hspace hsuffix
    have hne : ∀ space ∈ spaces.map List.reverse, space ≠ [] := by
      intro space' hspace'
      obtain ⟨space, hspace, rfl⟩ := List.mem_map.mp hspace'
      simpa using (spaces_spec space hspace).1
    have hpos : (bytes "https://" ++ rest).length ≠ 0 := by simp [bytes_https]
    have hlt := Trim.length_peel_lt (List.mem_map_of_mem hspace)
      (List.reverse_prefix.mpr hsuffix) hne hpos
    have hlength := congrArg List.length h
    rw [List.length_reverse] at hlength hlt
    omega
  · intro h
    rw [Trim.peel_of_forall, List.reverse_reverse]
    intro space' hspace' hstart
    obtain ⟨space, hspace, rfl⟩ := List.mem_map.mp hspace'
    exact h space hspace (List.reverse_prefix.mp hstart)

theorem providerOf_host (p : RepoProvider) :
  providerOf p.host = some p
  := by cases p <;> decide

/-- A suffix without slashes of a text after a slash is one of the text. -/
theorem suffix_of_suffix_append {suffix l r : Bytes} (hslash : slash ∉ suffix)
    (h : suffix <:+ l ++ slash :: r) :
  suffix <:+ r
  := by
  have hr : slash :: r <:+ l ++ slash :: r := List.suffix_append _ _
  rcases List.suffix_or_suffix_of_suffix h hr with h | h
  · rcases List.suffix_cons_iff.mp h with rfl | h
    · exact absurd List.mem_cons_self hslash
    · exact h
  · exact absurd (h.subset List.mem_cons_self) hslash

/-- **When the canonical address is read as the same**: if the path has no ending and no space at
its end, and its bytes are plain. -/
theorem parse_canonical_iff {P : UrlParser} {r : RepoRef} (hbare : Trim.Bare (· = slash) r.path)
    (hname : slash ∉ r.name) (howner : r.provider = .github → slash ∉ r.owner) :
  parseRepoURL P r.canonical = .ok r ↔
    ¬ bytes ".git" <:+ r.path ∧ (∀ space ∈ spaces, ¬ space <:+ r.path) ∧ ∀ b ∈ r.path, PlainByte b
  := by
  have hcanonical : r.canonical = bytes "https://" ++ (r.provider.host ++ slash :: r.path) :=
    List.append_assoc _ _ _
  have hspaces : (∀ space ∈ spaces, ¬ space <:+ r.canonical) ↔
      ∀ space ∈ spaces, ¬ space <:+ r.path := by
    have hiff : ∀ space ∈ spaces, space <:+ r.canonical ↔ space <:+ r.path := fun space hspace =>
      ⟨suffix_of_suffix_append (spaces_spec space hspace).2.2, fun h =>
        h.trans ((List.suffix_cons _ _).trans (List.suffix_append _ _))⟩
    exact forall₂_congr fun space hspace => not_congr (hiff space hspace)
  constructor
  · intro h
    obtain ⟨u, hparse, -, -, hpath, -, -⟩ := parseRepoURL_eq_ok.mp h
    obtain ⟨dropped, hdropped, hslash⟩ := exists_trimSpace (r.provider.host ++ slash :: r.path)
    rw [← hcanonical] at hdropped
    -- What is trimmed off is the end of the path.
    obtain ⟨rest, hrest, hsplit⟩ : ∃ rest,
        trimSpace r.canonical = bytes "https://" ++ r.provider.host ++ slash :: rest ∧
          r.path = rest ++ dropped := by
      rcases List.append_eq_append_iff.mp hdropped with ⟨kept, hkept, hpath'⟩ | ⟨kept, -, hdropped'⟩
      · cases kept with
        | nil =>
            rw [List.nil_append] at hpath'
            exact absurd (hpath' ▸ List.mem_cons_self) hslash
        | cons b rest =>
            obtain ⟨rfl, hrest⟩ := List.cons.inj hpath'
            exact ⟨rest, hkept, hrest⟩
      · rw [hdropped'] at hslash
        exact absurd (List.mem_append_right _ List.mem_cons_self) hslash
    rw [hrest, P.parse_host, urlPath_slash, Option.map_map, Option.map_eq_some_iff] at hparse
    obtain ⟨path, hurl, rfl⟩ := hparse
    simp only [Function.comp_apply, repoPath_slash] at hpath
    -- Each of the steps makes the path shorter, or leaves it as it is.
    obtain ⟨hurlLength, hurlPlain⟩ := length_urlPath hurl
    obtain ⟨hrepoLength, hrepoSelf⟩ := length_repoPath path
    have hlength := congrArg List.length hsplit
    rw [hpath] at hrepoLength hrepoSelf
    rw [List.length_append] at hlength
    have hnil : dropped = [] := List.length_eq_zero_iff.mp (by omega)
    obtain ⟨hself, hending⟩ := hrepoSelf (by omega)
    rw [hnil, List.append_nil] at hsplit hdropped
    refine ⟨hself ▸ hending, ?_, ?_⟩
    · rw [← hspaces, hcanonical, ← trimSpace_https_iff, ← hcanonical]
      exact hdropped.symm
    · rw [hsplit]
      exact hurlPlain (by omega)
  · rintro ⟨hending, hspace, hplain⟩
    have htrim : trimSpace r.canonical = r.canonical := by
      rw [hcanonical, trimSpace_https_iff, ← hcanonical, hspaces]
      exact hspace
    rw [parseRepoURL_eq_ok, htrim, RepoRef.canonical, P.parse_host, urlPath_slash,
      urlPath_of_plain hplain]
    refine ⟨_, rfl, rfl, providerOf_host _, ?_, hname, howner⟩
    rw [repoPath_slash, repoPath]
    have hself : trimSlashes r.path = r.path := Trim.trim_of_bare hbare
    rw [hself, trimSuffix_of_not hending, hself]

/-! ### The exact condition -/

/-- **When an address is well read.** What is accepted has no empty segment, one owner at GitHub and
no ending left, and its canonical address is read as the same, exactly if the path of the address is
plain. -/
theorem grammatical_iff (P : UrlParser) (raw : Bytes) :
  Grammatical P raw ↔ PlainPath P raw
  := by
  constructor
  · intro h u hparse hscheme provider hprovider core hcore hslash hcount
    have hpath := core_iff.mp hcore
    obtain ⟨i, hi⟩ := Option.ne_none_iff_exists'.mp
      (fun hnone => lastIndex_eq_none_iff.mp hnone hslash)
    obtain ⟨hsplit, hname⟩ := lastIndex_eq_some hi
    let r : RepoRef := ⟨provider, core.take i, core.drop (i + 1)⟩
    have hr : r.path = core := hsplit.symm
    have hcountPath := r.count_path
    have howner : r.provider = .github → slash ∉ r.owner := by
      intro hgithub
      rw [hr, hcount hgithub] at hcountPath
      apply List.count_eq_zero.mp
      omega
    have hok : parseRepoURL P raw = .ok r :=
      parseRepoURL_eq_ok.mpr ⟨u, hparse, hscheme, hprovider, hpath.trans hsplit, hname, howner⟩
    have hbare : Trim.Bare (· = slash) r.path := hr ▸ hpath ▸ bare_repoPath u.path
    obtain ⟨hsegments, -, -, hcanonical⟩ := h r hok
    obtain ⟨hending, hspace, hplain⟩ := (parse_canonical_iff hbare hname howner).mp hcanonical
    rw [Segments.forall_ne_nil_iff hbare (by simp [RepoRef.path])] at hsegments
    rw [hr] at hsegments hending hspace hplain
    exact ⟨hsegments, hending, hspace, hplain⟩
  · intro h r hok
    obtain ⟨u, hparse, hscheme, hprovider, hpath, hname, howner⟩ := parseRepoURL_eq_ok.mp hok
    have hbare : Trim.Bare (· = slash) r.path := hpath ▸ bare_repoPath u.path
    have hcount : r.provider = .github → r.path.count slash = 1 := by
      intro hgithub
      rw [r.count_path, List.count_eq_zero.mpr hname, List.count_eq_zero.mpr (howner hgithub)]
    obtain ⟨hslashes, hending, hspace, hplain⟩ := h u hparse hscheme r.provider hprovider r.path
      (core_iff.mpr hpath) (List.mem_append_right _ List.mem_cons_self) hcount
    constructor
    · rw [Segments.forall_ne_nil_iff hbare (by simp [RepoRef.path])]
      exact hslashes
    · rw [Segments.length_splitOn_eq_one_iff]
      exact howner
    · exact fun hsuffix =>
        hending (hsuffix.trans ((List.suffix_cons _ _).trans (List.suffix_append _ _)))
    · exact (parse_canonical_iff hbare hname howner).mpr ⟨hending, hspace, hplain⟩

/-! ### An address with two slashes -/

/-- A parser of addresses of a host and a path. -/
def UrlParser.simple : UrlParser where
  parse raw :=
    if bytes "https://" <+: raw then
      let rest := raw.drop 8
      (urlPath (rest.dropWhile (· ≠ slash))).map fun path =>
        ⟨bytes "https", rest.takeWhile (· ≠ slash), path⟩
    else none
  parse_host p rest := by
    have hlength : (bytes "https://").length = 8 := by decide
    have hdrop : (bytes "https://" ++ p.host ++ slash :: rest).drop 8 =
        p.host ++ slash :: rest := by
      rw [List.append_assoc, List.drop_left' hlength]
    have hhost : ∀ b ∈ p.host, decide (b ≠ slash) = true := by
      cases p <;> exact List.all_eq_true.mp (by decide)
    have hstart : bytes "https://" <+: bytes "https://" ++ p.host ++ slash :: rest := by
      rw [List.append_assoc]
      apply List.prefix_append
    rw [if_pos hstart, hdrop]
    simp only [List.dropWhile_append_of_pos hhost, List.takeWhile_append_of_pos hhost]
    simp

/-- An address with an empty segment is accepted, and the owner that is read of it ends with a
slash. -/
theorem not_grammatical_emptySegment :
  ¬ Grammatical .simple (bytes "https://gitlab.com/a//b")
  := by
  intro h
  let r : RepoRef := ⟨.gitlab, bytes "a/", bytes "b"⟩
  have hpath : r.path = [0x61, slash, slash, 0x62] := by decide
  have hcanonical : r.canonical = bytes "https://gitlab.com/a//b" := by decide
  have hbare : Trim.Bare (· = slash) r.path := by
    rw [hpath]
    exact Trim.bare_of_any (by decide)
  have hok : parseRepoURL .simple r.canonical = .ok r := by
    rw [parse_canonical_iff hbare (by decide) nofun, hpath, bytes_ending]
    refine ⟨by decide, by decide, ?_⟩
    simp only [List.forall_mem_cons]
    exact ⟨by decide, by decide, by decide, by decide, List.forall_mem_nil _⟩
  rw [hcanonical] at hok
  exact (h r hok).segments [] (by rw [hpath]; decide) rfl

end Hub
