import GitAgent.Agent.Citation
import GitAgent.Library.Firsts

/-!
# What a report cites

The citations that a report was written with are the ones that are read from it, and each of them is
resolved, has failed or is unknown (`core/subagents/receipts.py`).
-/

namespace Agent

open Firsts (firsts)

/-! ### Reports -/

/-- `format_citation`. -/
def formatCitation (rid : String) (toolName : Option String) : String :=
  let name := toolName.getD ""
  if name ≠ "" then "[" ++ rid ++ " " ++ name ++ "]" else "[" ++ rid ++ "]"

/-- A piece of a report: prose, or a citation of a receipt. -/
inductive Piece
  | prose (text : String)
  | citation (n : ℕ) (tool : Option String)

namespace Piece

/-- The text of a piece. -/
def text : Piece → String
  | prose text => text
  | citation n tool => formatCitation (receiptId n) tool

/-- What a piece cites. -/
def cited : Piece → Option Citation
  | prose _ => none
  | citation n tool => some ⟨receiptId n, tool⟩

/-- What `CITATION_RE` matches in a piece. -/
def found : Piece → Option CitationMatch
  | prose _ => none
  | citation n tool =>
      some ⟨Nat.toDigits 10 n, tool.map String.toList, (citation n tool).text.toList.length⟩

end Piece

namespace Lexicon

variable (L : Lexicon)

/-- Whether a name is one that an anchor can be. -/
def IsToolName (name : String) : Prop :=
  ∃ c cs, name.toList = c :: cs ∧ isAnchorStart c = true ∧ ∀ c ∈ cs, L.isAnchor c = true

/-- Whether a piece is prose without brackets, or a citation of a receipt with at most ten digits
and, if it has an anchor, the name of a tool. -/
def IsPiece : Piece → Prop
  | .prose text => '[' ∉ text.toList ∧ ']' ∉ text.toList
  | .citation n tool => n < 10 ^ 10 ∧ ∀ name ∈ tool, L.IsToolName name

/-! ### What is found -/

variable {L}

/-- What belongs to the last match is skipped. -/
theorem findIter_append (as rest : List Char) :
  L.findIter as.length (as ++ rest) = L.findIter 0 rest
  := by
  induction as with
  | nil => rfl
  | cons a as ih => rw [List.length_cons, List.cons_append, findIter, ih]

theorem matchCitation_of_ne {c : Char} (h : c ≠ '[') (cs : List Char) :
  L.matchCitation (c :: cs) = none
  := by
  rw [matchCitation]
  rintro cs' heq
  exact h (List.cons.inj heq).1

/-- Nothing is found in prose. -/
theorem findIter_prose {as : List Char} (h : '[' ∉ as) (rest : List Char) :
  L.findIter 0 (as ++ rest) = L.findIter 0 rest
  := by
  induction as with
  | nil => rfl
  | cons a as ih =>
      rw [List.mem_cons, not_or] at h
      rw [List.cons_append, findIter, matchCitation_of_ne (Ne.symm h.1)]
      exact ih h.2

/-- What stands before the first character of another kind. -/
theorem takeWhile_append {p : Char → Bool} {as : List Char} (h : ∀ a ∈ as, p a = true) {b : Char}
    (hb : p b = false) (bs : List Char) :
  (as ++ b :: bs).takeWhile p = as ∧ (as ++ b :: bs).dropWhile p = b :: bs
  := by
  have hb : ¬ p b = true := Bool.eq_false_iff.mp hb
  constructor
  · rw [List.takeWhile_append_of_pos h, List.takeWhile_cons_of_neg hb, List.append_nil]
  · rw [List.dropWhile_append_of_pos h, List.dropWhile_cons_of_neg hb]

/-- A citation without an anchor is matched. -/
theorem matchCitation_bare {digits : List Char} (hne : digits ≠ [])
    (hdigits : ∀ c ∈ digits, (digit? c).isSome = true) (rest : List Char) :
  L.matchCitation ('[' :: 'r' :: (digits ++ ']' :: rest)) =
    some ⟨digits, none, digits.length + 3⟩
  := by
  obtain ⟨htake, hdrop⟩ := takeWhile_append hdigits (b := ']') (by decide) rest
  simp only [matchCitation, htake, hdrop, if_neg hne]

theorem isSpace_of_isAnchorStart {c : Char} (h : isAnchorStart c = true) :
  isSpace c = false
  := by
  simp only [isAnchorStart, isSpace, Bool.or_eq_true, Bool.and_eq_true, Bool.or_eq_false_iff,
    Bool.and_eq_false_iff, decide_eq_true_eq, decide_eq_false_iff_not, Char.le_def,
    UInt32.le_iff_toNat_le, Char.ext_iff, ← UInt32.toNat_inj] at *
  simp at *
  omega

/-- A citation with an anchor is matched. -/
theorem matchCitation_anchor {digits cs : List Char} {c : Char} (hbracket : L.isWord ']' = false)
    (hne : digits ≠ []) (hdigits : ∀ c ∈ digits, (digit? c).isSome = true)
    (hc : isAnchorStart c = true) (hcs : ∀ c ∈ cs, L.isAnchor c = true) (rest : List Char) :
  L.matchCitation ('[' :: 'r' :: (digits ++ ' ' :: c :: (cs ++ ']' :: rest))) =
    some ⟨digits, some (c :: cs), digits.length + cs.length + 5⟩
  := by
  obtain ⟨htake, hdrop⟩ := takeWhile_append hdigits (b := ' ') (by decide) (c :: (cs ++ ']' :: rest))
  have hspace : ¬ isSpace c = true := Bool.eq_false_iff.mp (isSpace_of_isAnchorStart hc)
  have hblank : isSpace ' ' = true := by decide
  have hclose : L.isAnchor ']' = false := by simp [isAnchor, hbracket]
  obtain ⟨htake', hdrop'⟩ := takeWhile_append hcs hclose rest
  simp only [matchCitation, htake, hdrop, if_neg hne, List.takeWhile_cons_of_pos hblank,
    List.takeWhile_cons_of_neg hspace, List.dropWhile_cons_of_pos hblank,
    List.dropWhile_cons_of_neg hspace]
  simp [hc, htake', hdrop']
  omega

/-- The characters of a citation without an anchor. -/
theorem toList_bare (n : ℕ) :
  (Piece.citation n none).text.toList = '[' :: 'r' :: (Nat.toDigits 10 n ++ [']'])
  := by
  have hid : (receiptId n).toList = 'r' :: Nat.toDigits 10 n := by
    rw [receiptId, String.toList_append, Decimal.toList_toString]
    rfl
  change ("[" ++ receiptId n ++ "]").toList = _
  rw [String.toList_append, String.toList_append, hid]
  rfl

/-- The characters of a citation with an anchor. -/
theorem toList_anchor (n : ℕ) {name : String} (h : name ≠ "") :
  (Piece.citation n (some name)).text.toList =
    '[' :: 'r' :: (Nat.toDigits 10 n ++ ' ' :: (name.toList ++ [']']))
  := by
  have hid : (receiptId n).toList = 'r' :: Nat.toDigits 10 n := by
    rw [receiptId, String.toList_append, Decimal.toList_toString]
    rfl
  change (if name ≠ "" then "[" ++ receiptId n ++ " " ++ name ++ "]" else _).toList = _
  rw [if_pos h, String.toList_append, String.toList_append, String.toList_append,
    String.toList_append, hid]
  simp

/-- A citation is found as it was written. -/
theorem matchCitation_piece (hbracket : L.isWord ']' = false) {n : ℕ} {tool : Option String}
    (h : ∀ name ∈ tool, L.IsToolName name) (rest : List Char) :
  L.matchCitation ((Piece.citation n tool).text.toList ++ rest) = (Piece.citation n tool).found
  := by
  have hdigits : ∀ c ∈ Nat.toDigits 10 n, (digit? c).isSome = true := by
    intro c hc
    have hdigit := Nat.isDigit_of_mem_toDigits (by decide) (by decide) hc
    rw [digit?_of_isDigit hdigit, Option.isSome_some]
  have hne : Nat.toDigits 10 n ≠ [] := Nat.toDigits_ne_nil
  rw [Piece.found]
  cases tool with
  | none =>
      have hmatch := matchCitation_bare (L := L) hne hdigits rest
      rw [toList_bare, List.cons_append, List.cons_append, List.append_assoc, List.singleton_append,
        hmatch]
      simp
  | some name =>
      obtain ⟨c, cs, hname, hc, hcs⟩ := h name rfl
      have hname' : name ≠ "" := by
        rintro rfl
        contradiction
      have hmatch := matchCitation_anchor hbracket hne hdigits hc hcs rest
      rw [toList_anchor n hname', hname]
      simp only [List.cons_append, List.append_assoc, List.nil_append]
      rw [hmatch]
      simp [hname]
      omega

/-- What is found in a report are its citations. -/
theorem findIter_pieces (hbracket : L.isWord ']' = false) {pieces : List Piece}
    (h : ∀ piece ∈ pieces, L.IsPiece piece) :
  L.findIter 0 (pieces.flatMap fun piece => piece.text.toList) = pieces.filterMap Piece.found
  := by
  induction pieces with
  | nil => rfl
  | cons piece pieces ih =>
      obtain ⟨hpiece, hpieces⟩ := List.forall_mem_cons.mp h
      rw [List.flatMap_cons]
      cases piece with
      | prose text =>
          rw [List.filterMap_cons_none rfl, ← ih hpieces]
          exact findIter_prose hpiece.1 _
      | citation n tool =>
          obtain ⟨m, hm⟩ : ∃ m, (Piece.citation n tool).found = some m := ⟨_, rfl⟩
          have hlength : (Piece.citation n tool).text.toList.length = m.length := by
            rw [← Option.some.inj hm]
          have hmatch := matchCitation_piece (n := n) hbracket hpiece.2
            (pieces.flatMap fun piece => piece.text.toList)
          obtain ⟨cs, hcs⟩ : ∃ cs, (Piece.citation n tool).text.toList = '[' :: cs := by
            cases tool with
            | none => exact ⟨_, toList_bare n⟩
            | some name =>
                obtain ⟨c, cs, hname, -, -⟩ := hpiece.2 name rfl
                refine ⟨_, toList_anchor n ?_⟩
                rintro rfl
                contradiction
          rw [List.filterMap_cons_some hm, ← ih hpieces]
          rw [hcs, List.length_cons] at hlength
          rw [hcs, List.cons_append] at hmatch ⊢
          rw [findIter, hmatch, hm]
          dsimp only
          rw [← hlength, Nat.add_sub_cancel, findIter_append]

/-- The citation that a match tells. -/
def citationOf (m : CitationMatch) : Citation :=
  ⟨receiptId (number m.digits), m.anchor.map String.ofList⟩

/-- Of the matches with at most ten digits the first of each citation is kept. -/
theorem foldl_citations {matches' : List CitationMatch}
    (h : ∀ m ∈ matches', m.digits.length ≤ 10) (citations : List Citation) :
  matches'.foldl (fun citations m =>
      if 10 < m.digits.length then citations
      else
        let citation := ⟨receiptId (number m.digits), m.anchor.map String.ofList⟩
        if citation ∈ citations then citations else citations ++ [citation]) citations =
    citations ++ firsts id citations (matches'.map citationOf)
  := by
  induction matches' generalizing citations with
  | nil => rw [List.foldl_nil, List.map_nil, firsts, List.append_nil]
  | cons m matches' ih =>
      obtain ⟨hm, hmatches⟩ := List.forall_mem_cons.mp h
      rw [List.foldl_cons, if_neg (Nat.not_lt_of_le hm), List.map_cons, firsts, ih hmatches]
      change (if citationOf m ∈ citations then citations else citations ++ [citationOf m]) ++
        firsts id (if citationOf m ∈ citations then citations else citations ++ [citationOf m]) _ =
        _
      by_cases hmem : citationOf m ∈ citations
      · simp only [if_pos hmem, id_eq]
      · simp only [if_neg hmem, id_eq, List.append_assoc, List.singleton_append]

/-- A citation that is found is the one that was written. -/
theorem citationOf_found {piece : Piece} {m : CitationMatch} (h : piece.found = some m) :
  some (citationOf m) = piece.cited
  := by
  cases piece with
  | prose text => contradiction
  | citation n tool =>
      obtain rfl := Option.some.inj h
      have hdigit : ∀ c ∈ Nat.toDigits 10 n, c.isDigit = true :=
        fun c hc => Nat.isDigit_of_mem_toDigits (by decide) (by decide) hc
      have hn : number (Nat.toDigits 10 n) = n := by
        rw [number_of_isDigit hdigit, Nat.ofDigitChars_ten_toDigits]
      rw [citationOf, Piece.cited, hn, Option.map_map]
      cases tool with
      | none => rfl
      | some name => simp

/-- **The citations of a report are read**: those it was written with, in the order in which they
first occur. -/
theorem parseCitations_pieces (hbracket : L.isWord ']' = false) {pieces : List Piece}
    (h : ∀ piece ∈ pieces, L.IsPiece piece) :
  L.parseCitations (String.join (pieces.map Piece.text)) =
    firsts id [] (pieces.filterMap Piece.cited)
  := by
  have htext : (String.join (pieces.map Piece.text)).toList =
      pieces.flatMap fun piece => piece.text.toList := by
    rw [String.toList_join, List.flatMap_map]
  have hlength : ∀ m ∈ pieces.filterMap Piece.found, m.digits.length ≤ 10 := by
    intro m hm
    obtain ⟨piece, hpiece, hfound⟩ := List.mem_filterMap.mp hm
    cases piece with
    | prose text => contradiction
    | citation n tool =>
        obtain rfl := Option.some.inj hfound
        exact (Nat.length_toDigits_le_iff (by decide) (by decide)).mpr (h _ hpiece).1
  have hcited : (pieces.filterMap Piece.found).map citationOf = pieces.filterMap Piece.cited := by
    rw [List.map_filterMap]
    apply List.filterMap_congr
    intro piece _
    cases hfound : piece.found with
    | none =>
        cases piece with
        | prose text => rfl
        | citation n tool => contradiction
    | some m => exact citationOf_found hfound
  rw [parseCitations, htext, findIter_pieces hbracket h, foldl_citations hlength, hcited,
    List.nil_append]

end Lexicon

/-! ### The verdict -/

/-- A receipt bears out a citation of it: it tells of a success of the tool that is named, if one
is. -/
def Citation.Holds (c : Citation) (r : ToolReceipt) : Prop :=
  r.status = "success" ∧ ∀ name ∈ c.anchor, name = r.toolName

instance (c : Citation) (r : ToolReceipt) : Decidable (c.Holds r) :=
  decidable_of_iff (r.status = "success" ∧ c.anchor.all (· = r.toolName) = true)
    (and_congr_right fun _ => by simp [Option.all_eq_true])

namespace Citation

section

variable (receipts : List ToolReceipt) (c : Citation)

/-- A receipt with the id bears out the citation. -/
def Resolves : Prop :=
  ∃ r ∈ receipts, r.id = c.id ∧ c.Holds r

/-- A receipt with the id does not bear out the citation. -/
def Fails : Prop :=
  ∃ r ∈ receipts, r.id = c.id ∧ ¬ c.Holds r

/-- No receipt has the id. -/
def IsUnknown : Prop :=
  ∀ r ∈ receipts, r.id ≠ c.id

instance : Decidable (c.Resolves receipts) :=
  inferInstanceAs (Decidable (∃ r ∈ receipts, _))

instance : Decidable (c.Fails receipts) :=
  inferInstanceAs (Decidable (∃ r ∈ receipts, _))

instance : Decidable (c.IsUnknown receipts) :=
  inferInstanceAs (Decidable (∀ r ∈ receipts, _))

end

variable {receipts : List ToolReceipt} {c : Citation}

/-- Among receipts with ids of their own the receipt with an id is found. -/
theorem byId_eq_some_iff (h : (receipts.map ToolReceipt.id).Nodup) {id : String}
    {r : ToolReceipt} :
  byId receipts id = some r ↔ r ∈ receipts ∧ r.id = id
  := by
  constructor
  · intro hr
    exact ⟨List.mem_reverse.mp (List.mem_of_find?_eq_some hr), by simpa using List.find?_some hr⟩
  · rintro ⟨hr, rfl⟩
    cases hb : byId receipts r.id with
    | none =>
        rw [byId, List.find?_eq_none] at hb
        exact absurd (decide_eq_true rfl) (hb r (List.mem_reverse.mpr hr))
    | some r' =>
        have hid : r'.id = r.id := by simpa using List.find?_some hb
        have hr' : r' ∈ receipts := List.mem_reverse.mp (List.mem_of_find?_eq_some hb)
        rw [List.inj_on_of_nodup_map h hr' hr hid]

/-- What becomes of a citation whose receipt is found. -/
theorem check_of_byId {r : ToolReceipt} (h : byId receipts c.id = some r) :
  (c.check receipts = .resolved ∧ c.Holds r) ∨
    ((∃ reason, c.check receipts = .failed reason) ∧ ¬ c.Holds r)
  := by
  rw [check, h]
  dsimp only
  by_cases hs : r.status = "success"
  · rw [if_neg (not_not_intro hs)]
    cases hanchor : c.anchor with
    | none => exact .inl ⟨rfl, hs, by simp [hanchor]⟩
    | some anchor =>
        dsimp only
        by_cases ha : anchor = r.toolName
        · rw [if_neg (not_not_intro ha)]
          exact .inl ⟨rfl, hs, by simp [hanchor, ha]⟩
        · rw [if_pos ha]
          refine .inr ⟨⟨_, rfl⟩, ?_⟩
          rintro ⟨-, hholds⟩
          exact ha (hholds anchor hanchor)
  · rw [if_pos hs]
    exact .inr ⟨⟨_, rfl⟩, fun hholds => hs hholds.1⟩

/-- A citation whose receipt is found is resolved or has failed. -/
theorem resolves_or_fails (h : (receipts.map ToolReceipt.id).Nodup) {r : ToolReceipt}
    (hr : byId receipts c.id = some r) :
  (c.Resolves receipts ↔ c.Holds r) ∧ (c.Fails receipts ↔ ¬ c.Holds r) ∧ ¬ c.IsUnknown receipts
  := by
  obtain ⟨hmem, hid⟩ := (byId_eq_some_iff h).mp hr
  have hsame : ∀ r' ∈ receipts, r'.id = c.id → r' = r := by
    intro r' hr' hid'
    have := (byId_eq_some_iff h).mpr ⟨hr', hid'⟩
    rw [hr] at this
    exact (Option.some.inj this).symm
  refine ⟨⟨?_, fun hholds => ⟨r, hmem, hid, hholds⟩⟩, ⟨?_, fun hnot => ⟨r, hmem, hid, hnot⟩⟩,
    fun hunknown => hunknown r hmem hid⟩
  · rintro ⟨r', hr', hid', hholds⟩
    rwa [← hsame r' hr' hid']
  · rintro ⟨r', hr', hid', hnot⟩
    rwa [← hsame r' hr' hid']

/-- What becomes of a citation among receipts with ids of their own is one of three things. -/
theorem check_cases (h : (receipts.map ToolReceipt.id).Nodup) (c : Citation) :
  (c.check receipts = .resolved ∧
      c.Resolves receipts ∧ ¬ c.Fails receipts ∧ ¬ c.IsUnknown receipts) ∨
    ((∃ reason, c.check receipts = .failed reason) ∧
      ¬ c.Resolves receipts ∧ c.Fails receipts ∧ ¬ c.IsUnknown receipts) ∨
    (c.check receipts = .unknown ∧
      ¬ c.Resolves receipts ∧ ¬ c.Fails receipts ∧ c.IsUnknown receipts)
  := by
  cases hb : byId receipts c.id with
  | none =>
      have hcheck : c.check receipts = .unknown := by rw [check, hb]
      have hunknown := check_eq_unknown_iff.mp hcheck
      refine .inr (.inr ⟨hcheck, ?_, ?_, hunknown⟩)
      · rintro ⟨r, hr, hid, -⟩
        exact hunknown r hr hid
      · rintro ⟨r, hr, hid, -⟩
        exact hunknown r hr hid
  | some r =>
      obtain ⟨hresolves, hfails, hunknown⟩ := resolves_or_fails h hb
      rw [hresolves, hfails]
      rcases check_of_byId hb with ⟨hcheck, hholds⟩ | ⟨hcheck, hnot⟩
      · exact .inl ⟨hcheck, hholds, not_not_intro hholds, hunknown⟩
      · exact .inr (.inl ⟨hcheck, hnot, hnot, hunknown⟩)

end Citation

/-- A verdict puts each citation into one of three lists, in order, and says of some citations that
they are resolved exactly if all of them are. -/
structure Partitions (receipts : List ToolReceipt) (citations : List Citation)
    (v : ReceiptVerdict) : Prop where
  cited : v.cited = citations.map Citation.id
  resolved : v.resolved = (citations.filter fun c => c.Resolves receipts).map Citation.id
  failed : v.failed.map CitationFailure.id =
    (citations.filter fun c => c.Fails receipts).map Citation.id
  unknown : v.unknown = (citations.filter fun c => c.IsUnknown receipts).map Citation.id
  one : ∀ c ∈ citations,
    (c.Resolves receipts ∧ ¬ c.Fails receipts ∧ ¬ c.IsUnknown receipts) ∨
    (¬ c.Resolves receipts ∧ c.Fails receipts ∧ ¬ c.IsUnknown receipts) ∨
    (¬ c.Resolves receipts ∧ ¬ c.Fails receipts ∧ c.IsUnknown receipts)
  all : citations ≠ [] → (v.citationResolved = true ↔ ∀ c ∈ citations, c.Resolves receipts)

/-- The failures that are listed. -/
def Citation.failure (receipts : List ToolReceipt) (c : Citation) : Option CitationFailure :=
  match c.check receipts with
  | .failed reason => some ⟨c.id, reason⟩
  | _ => none

/-- The ids of the failures are those of the citations that have failed. -/
theorem map_id_failures {receipts : List ToolReceipt} (h : (receipts.map ToolReceipt.id).Nodup)
    (citations : List Citation) :
  (citations.filterMap fun c => c.failure receipts).map CitationFailure.id =
    (citations.filter fun c => c.Fails receipts).map Citation.id
  := by
  induction citations with
  | nil => rfl
  | cons c citations ih =>
      rcases c.check_cases h with ⟨hcheck, -, hfails, -⟩ | ⟨⟨reason, hcheck⟩, -, hfails, -⟩ |
        ⟨hcheck, -, hfails, -⟩
      · rw [List.filterMap_cons_none (by rw [Citation.failure, hcheck]),
          List.filter_cons_of_neg (by simpa using hfails), ih]
      · rw [List.filterMap_cons_some (by rw [Citation.failure, hcheck]),
          List.filter_cons_of_pos (by simpa using hfails), List.map_cons, List.map_cons, ih]
      · rw [List.filterMap_cons_none (by rw [Citation.failure, hcheck]),
          List.filter_cons_of_neg (by simpa using hfails), ih]

/-- Where there is no failed and no unknown citation, all are resolved. -/
theorem resolves_iff {receipts : List ToolReceipt} (h : (receipts.map ToolReceipt.id).Nodup)
    {citations : List Citation} :
  ((citations.filter fun c => c.Fails receipts) = [] ∧
      (citations.filter fun c => c.IsUnknown receipts) = []) ↔
    ∀ c ∈ citations, c.Resolves receipts
  := by
  rw [List.filter_eq_nil_iff, List.filter_eq_nil_iff]
  simp only [decide_eq_true_eq]
  constructor
  · rintro ⟨hfails, hunknown⟩ c hc
    rcases c.check_cases h with ⟨-, hresolves, -⟩ | ⟨-, -, hfail, -⟩ | ⟨-, -, -, hnone⟩
    · exact hresolves
    · exact absurd hfail (hfails c hc)
    · exact absurd hnone (hunknown c hc)
  · intro hall
    constructor
    all_goals
      intro c hc
      rcases c.check_cases h with ⟨-, -, hfails, hunknown⟩ | ⟨-, hnot, -⟩ | ⟨-, hnot, -⟩
      · assumption
      · exact absurd (hall c hc) hnot
      · exact absurd (hall c hc) hnot

/-- **A verdict is a partition** of the citations, for every text and all receipts with ids of their
own. -/
theorem partitions_verifyReceiptCitations (L : Lexicon) (text : String)
    {receipts : List ToolReceipt} (h : (receipts.map ToolReceipt.id).Nodup) :
  Partitions receipts (L.parseCitations text) (L.verifyReceiptCitations text receipts)
  := by
  have hfailed := map_id_failures h (L.parseCitations text)
  have hunknown : ((L.parseCitations text).filter fun c => c.check receipts = .unknown) =
      (L.parseCitations text).filter fun c => c.IsUnknown receipts := by
    apply List.filter_congr
    intro c _
    exact decide_eq_decide.mpr Citation.check_eq_unknown_iff
  constructor
  · rfl
  · change ((L.parseCitations text).filter fun c => c.check receipts = .resolved).map _ = _
    congr 1
    apply List.filter_congr
    intro c _
    rw [decide_eq_decide]
    rcases c.check_cases h with ⟨hcheck, hresolves, -⟩ | ⟨⟨reason, hcheck⟩, hnot, -⟩ |
      ⟨hcheck, hnot, -⟩
    · exact iff_of_true hcheck hresolves
    · exact iff_of_false (by rw [hcheck]; simp) hnot
    · exact iff_of_false (by rw [hcheck]; simp) hnot
  · exact hfailed
  · change ((L.parseCitations text).filter fun c => c.check receipts = .unknown).map _ = _
    rw [hunknown]
  · intro c _
    rcases c.check_cases h with ⟨-, hone⟩ | ⟨-, hone⟩ | ⟨-, hone⟩
    · exact .inl hone
    · exact .inr (.inl hone)
    · exact .inr (.inr hone)
  · intro hne
    have hcited : ((L.parseCitations text).map Citation.id).isEmpty = false := by
      rw [List.isEmpty_map]
      exact List.isEmpty_eq_false_iff.mpr hne
    have hverdict : (L.verifyReceiptCitations text receipts).citationResolved =
        (((L.parseCitations text).filterMap fun c => c.failure receipts).isEmpty &&
          (((L.parseCitations text).filter fun c => c.check receipts = .unknown).map
            Citation.id).isEmpty) := by
      change (if ((L.parseCitations text).map Citation.id).isEmpty then _ else _) = _
      rw [hcited, if_neg Bool.false_ne_true]
      rfl
    rw [hverdict, hunknown, ← resolves_iff h, Bool.and_eq_true, List.isEmpty_iff, List.isEmpty_iff,
      List.map_eq_nil_iff, ← List.map_eq_nil_iff (f := CitationFailure.id), hfailed,
      List.map_eq_nil_iff]

/-- **Citations are read back, and judged one by one.** A report that is made of prose without
brackets and of citations is read as these citations, and the verdict on any text is a partition of
what is read from it. -/
theorem citations_read_and_judged (L : Lexicon) (hbracket : L.isWord ']' = false) :
  (∀ pieces : List Piece, (∀ piece ∈ pieces, L.IsPiece piece) →
    L.parseCitations (String.join (pieces.map Piece.text)) =
      firsts id [] (pieces.filterMap Piece.cited)) ∧
  ∀ (text : String) (receipts : List ToolReceipt), (receipts.map ToolReceipt.id).Nodup →
    Partitions receipts (L.parseCitations text) (L.verifyReceiptCitations text receipts)
  := ⟨fun _ => Lexicon.parseCitations_pieces hbracket,
    fun text _ => partitions_verifyReceiptCitations L text⟩

/-- Three citations in a row, two of them the same, and one of them unknown to the receipts. -/
theorem citations_read_and_judged_row :
  let L : Lexicon := ⟨fun c => c.isAlphanum || c = '_', fun _ => false⟩
  let pieces : List Piece :=
    [.prose "Done: ", .citation 1 (some "sandbox_run"), .citation 2 none,
      .citation 1 (some "sandbox_run"), .prose "."]
  let citations : List Citation := [⟨"r1", some "sandbox_run"⟩, ⟨"r2", none⟩]
  let receipts : List ToolReceipt :=
    [⟨"r1", "call_1", "sandbox_run", "success", "a", "b", 4, "now"⟩]
  L.parseCitations (String.join (pieces.map Piece.text)) = citations ∧
    Partitions receipts citations
      (L.verifyReceiptCitations (String.join (pieces.map Piece.text)) receipts)
  := by
  intro L pieces citations receipts
  obtain ⟨hread, hjudged⟩ := citations_read_and_judged L (by decide)
  have htool : L.IsToolName "sandbox_run" :=
    ⟨'s', "andbox_run".toList, rfl, by decide, List.all_eq_true.mp (by decide)⟩
  have hpieces : ∀ piece ∈ pieces, L.IsPiece piece := by
    simp only [pieces, List.forall_mem_cons]
    refine ⟨⟨by decide, by decide⟩, ⟨by decide, ?_⟩, ⟨by decide, ?_⟩, ⟨by decide, ?_⟩,
      ⟨by decide, by decide⟩, List.forall_mem_nil _⟩
    · rintro _ ⟨⟩
      exact htool
    · rintro _ ⟨⟩
    · rintro _ ⟨⟩
      exact htool
  have hcited : firsts id [] (pieces.filterMap Piece.cited) = citations := by decide
  have hparse := (hread pieces hpieces).trans hcited
  have hpartition := hjudged (String.join (pieces.map Piece.text)) receipts (by decide)
  rw [hparse] at hpartition
  exact ⟨hparse, hpartition⟩

end Agent
