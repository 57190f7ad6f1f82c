import GitAgent.Hub.Schema

/-!
# Subscriptions

Which builds receive an event (`domain/subscription.go`). The mask of a subscription is a
pattern that is matched against the short name of the ref.
-/

namespace Hub

/-! ### Patterns -/

/-- A term of a pattern: any run of characters without a slash, any character but a slash, a
character in or out of some ranges, or a character. -/
inductive Term
  | star
  | any
  | ranges (negated : Bool) (rs : List (Char × Char))
  | char (c : Char)
  deriving DecidableEq, Repr

/-- A character of a range, possibly escaped. Something has to follow it. -/
def getEsc : List Char → Option (Char × List Char)
  | [] => none
  | '-' :: _ => none
  | ']' :: _ => none
  | '\\' :: c :: d :: rest => some (c, d :: rest)
  | '\\' :: _ => none
  | c :: d :: rest => some (c, d :: rest)
  | [_] => none

/-- The ranges up to the closing bracket. There is at least one. Every range takes one of the
`fuel`. -/
def parseRanges : ℕ → List Char → Option (List (Char × Char) × List Char)
  | 0, _ => none
  | fuel + 1, p => do
      let (lo, p) ← getEsc p
      let (hi, p) ← match p with
        | '-' :: p => getEsc p
        | _ => some (lo, p)
      match p with
      | ']' :: p => some ([(lo, hi)], p)
      | _ =>
          let (rs, p) ← parseRanges fuel p
          return ((lo, hi) :: rs, p)

/-- The terms of a pattern, if it is well formed. Every term takes one of the `fuel`. -/
def parsePattern : ℕ → List Char → Option (List Term)
  | _, [] => some []
  | 0, _ => none
  | fuel + 1, '*' :: p => (parsePattern fuel p).map (.star :: ·)
  | fuel + 1, '?' :: p => (parsePattern fuel p).map (.any :: ·)
  | fuel + 1, '[' :: '^' :: p => do
      let (rs, p) ← parseRanges p.length p
      (parsePattern fuel p).map (.ranges true rs :: ·)
  | fuel + 1, '[' :: p => do
      let (rs, p) ← parseRanges p.length p
      (parsePattern fuel p).map (.ranges false rs :: ·)
  | fuel + 1, '\\' :: c :: p => (parsePattern fuel p).map (.char c :: ·)
  | _ + 1, ['\\'] => none
  | fuel + 1, c :: p => (parsePattern fuel p).map (.char c :: ·)

/-- What may be left of a name after a run of characters without a slash. -/
def rests : List Char → List (List Char)
  | [] => [[]]
  | c :: s => (c :: s) :: if c = '/' then [] else rests s

/-- Whether the terms match a whole name. -/
def matchTerms : List Term → List Char → Bool
  | [], s => s.isEmpty
  | .star :: ts, s => (rests s).any (matchTerms ts)
  | .any :: ts, c :: s => c ≠ '/' && matchTerms ts s
  | .ranges negated rs :: ts, c :: s =>
      (rs.any (fun (lo, hi) => lo ≤ c && c ≤ hi) != negated) && matchTerms ts s
  | .char d :: ts, c :: s => c = d && matchTerms ts s
  | _ :: _, [] => false

/-- `path.Match`. A pattern that is not well formed matches nothing. -/
def pathMatch (pattern name : String) : Bool :=
  (parsePattern pattern.length pattern.toList).any fun ts => matchTerms ts name.toList

/-! ### The subscriptions of a repository -/

/-- `ShortRef`: the name of a branch or a tag without its prefix. -/
def shortRef (ref : String) : String :=
  let drop (p : String) : Option String :=
    if p.toList.isPrefixOf ref.toList ∧ p.length < ref.length then
      some (String.ofList (ref.toList.drop p.length))
    else none
  ((drop "refs/heads/").or (drop "refs/tags/")).getD ref

/-- `Matches`: no actions stand for all of them, and no mask stands for any ref. -/
def SubscriptionRow.matches (s : SubscriptionRow) (action ref : String) : Bool :=
  if s.actions ≠ [] ∧ action ∉ s.actions then false
  else match s.refMask with
    | none => true
    | some mask => ref ≠ "" && pathMatch mask (shortRef ref)

/-- `MatchedBuilds`: the builds whose subscriptions match, without repetitions. -/
def matchedBuilds (subs : List SubscriptionRow) (action ref : String) : List BuildId :=
  subs.foldl
    (fun out s =>
      if s.buildId ∉ out ∧ s.matches action ref then out ++ [s.buildId] else out)
    []

/-- The query `SubscriptionsByRepo`. -/
def Db.subscriptionsByRepo (db : Db) (repositoryId : RepositoryId) : List SubscriptionRow :=
  db.subscriptions.rows.filter fun s => s.repositoryId = repositoryId

/-- Only builds of the subscriptions are matched. -/
theorem exists_of_mem_matchedBuilds {subs : List SubscriptionRow} {action ref : String}
    {buildId : BuildId} (h : buildId ∈ matchedBuilds subs action ref) :
  ∃ s ∈ subs, s.buildId = buildId
  := by
  have hfold : ∀ (subs : List SubscriptionRow) (out : List BuildId),
      buildId ∈ subs.foldl (fun out s =>
        if s.buildId ∉ out ∧ s.matches action ref then out ++ [s.buildId] else out) out →
      buildId ∈ out ∨ ∃ s ∈ subs, s.buildId = buildId := by
    intro subs
    induction subs with
    | nil => exact fun out h => .inl h
    | cons s subs ih =>
        intro out h
        rcases ih _ h with h | ⟨s', hs, he⟩
        · beta_reduce at h
          split at h
          · rcases List.mem_append.mp h with h | h
            · exact .inl h
            · exact .inr ⟨s, List.mem_cons_self .., (List.mem_singleton.mp h).symm⟩
          · exact .inl h
        · exact .inr ⟨s', List.mem_cons_of_mem _ hs, he⟩
  rcases hfold subs [] h with h | h
  · contradiction
  · apply h

example : pathMatch "release/*" "release/1.2" = true ∧ pathMatch "release/*" "main" = false ∧
    pathMatch "[" "main" = false ∧ pathMatch "v[0-9]*" "v1.0" = true := by
  decide

end Hub
