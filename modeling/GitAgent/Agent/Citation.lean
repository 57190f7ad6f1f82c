import GitAgent.Agent.Receipt
import Mathlib.Data.List.Dedup

/-!
# Citations of receipts

The citations in the text of a report, and what becomes of each when it is looked up among the
receipts (`core/subagents/receipts.py`).
-/

namespace Agent

/-- What the regular expressions know of characters and words: the characters `\\w`, and whether a
text claims an action (`_has_action_claims`). -/
structure Lexicon where
  isWord : Char → Bool
  hasActionClaims : String → Bool

/-- A citation: the receipt id, and the name of the tool if it is given. -/
structure Citation where
  id : String
  anchor : Option String
  deriving DecidableEq, Repr

/-- What `CITATION_RE` matches: the digits, the anchor, and the number of characters. -/
structure CitationMatch where
  digits : List Char
  anchor : Option (List Char)
  length : ℕ

namespace Lexicon

variable (L : Lexicon)

/-- The first character of an anchor. -/
def isAnchorStart (c : Char) : Bool :=
  ('A' ≤ c && c ≤ 'Z') || ('a' ≤ c && c ≤ 'z') || c = '_'

/-- The other characters of an anchor. -/
def isAnchor (c : Char) : Bool :=
  L.isWord c || c = '.' || c = '-'

/-- The match of `CITATION_RE` at the first character of a text. -/
def matchCitation : List Char → Option CitationMatch
  | '[' :: 'r' :: cs =>
      let digits := cs.takeWhile fun c => (digit? c).isSome
      let rest := cs.dropWhile fun c => (digit? c).isSome
      let blanks := rest.takeWhile isSpace
      if digits = [] then none
      else
        match rest, rest.dropWhile isSpace with
        | ']' :: _, _ => some ⟨digits, none, digits.length + 3⟩
        | _, c :: cs =>
            let anchor := c :: cs.takeWhile L.isAnchor
            if blanks ≠ [] ∧ isAnchorStart c ∧ (cs.dropWhile L.isAnchor).head? = some ']' then
              some ⟨digits, some anchor, digits.length + blanks.length + anchor.length + 3⟩
            else none
        | _, [] => none
  | _ => none

/-- `finditer`: the matches from left to right, when the next `skip` characters belong to the
last one. -/
def findIter : ℕ → List Char → List CitationMatch
  | _, [] => []
  | skip + 1, _ :: cs => findIter skip cs
  | 0, c :: cs =>
      match L.matchCitation (c :: cs) with
      | none => findIter 0 cs
      | some m => m :: findIter (m.length - 1) cs

/-- `parse_citations`: the citations in the order in which they are first seen. -/
def parseCitations (text : String) : List Citation :=
  (L.findIter 0 text.toList).foldl (fun citations m =>
    if 10 < m.digits.length then citations
    else
      let citation := ⟨receiptId (number m.digits), m.anchor.map String.ofList⟩
      if citation ∈ citations then citations else citations ++ [citation]) []

end Lexicon

/-! ### The verdict -/

/-- `CitationFailure`. -/
structure CitationFailure where
  id : String
  reason : String
  deriving DecidableEq, Repr

/-- `ReceiptVerdict`. -/
structure ReceiptVerdict where
  source : String := "receipt_citations"
  requirement : String := "cited_ids_in_execution_record"
  citationResolved : Bool
  cited : List String
  resolved : List String
  failed : List CitationFailure
  unknown : List String
  noCitationClaims : Bool
  deriving DecidableEq, Repr

/-- What becomes of a citation. -/
inductive CitationOutcome
  | unknown
  | failed (reason : String)
  | resolved
  deriving DecidableEq, Repr

/-- The receipt with an id, the last one if there are several. -/
def byId (receipts : List ToolReceipt) (id : String) : Option ToolReceipt :=
  receipts.reverse.find? fun r => r.id = id

/-- What becomes of a citation among the receipts. -/
def Citation.check (receipts : List ToolReceipt) (c : Citation) : CitationOutcome :=
  match byId receipts c.id with
  | none => .unknown
  | some r =>
      if r.status ≠ "success" then .failed ("receipt status=" ++ r.status)
      else
        match c.anchor with
        | some anchor =>
            if anchor ≠ r.toolName then
              .failed ("anchor mismatch: cited as " ++ anchor ++ ", receipt " ++ c.id ++ " is " ++
                r.toolName)
            else .resolved
        | none => .resolved

/-- The number of characters of a text that are left after `strip`. -/
def strippedLength (text : String) : ℕ :=
  (((text.toList.dropWhile isSpace).reverse).dropWhile isSpace).length

/-- `verify_receipt_citations`. -/
def Lexicon.verifyReceiptCitations (L : Lexicon) (text : String) (receipts : List ToolReceipt) :
    ReceiptVerdict :=
  let citations := L.parseCitations text
  let cited := citations.map Citation.id
  let failed := citations.filterMap fun c =>
    match c.check receipts with
    | .failed reason => some ⟨c.id, reason⟩
    | _ => none
  let unknown := (citations.filter fun c => c.check receipts = .unknown).map Citation.id
  let noCitationClaims :=
    cited.isEmpty && (L.hasActionClaims text || (!receipts.isEmpty && 240 ≤ strippedLength text))
  { citationResolved :=
      if cited.isEmpty then !noCitationClaims else failed.isEmpty && unknown.isEmpty
    cited := cited
    resolved := (citations.filter fun c => c.check receipts = .resolved).map Citation.id
    failed := failed
    unknown := unknown
    noCitationClaims := noCitationClaims }

/-- A citation of an id that no receipt has is unknown, and only such a one is. -/
theorem Citation.check_eq_unknown_iff {receipts : List ToolReceipt} {c : Citation} :
  c.check receipts = .unknown ↔ ∀ r ∈ receipts, r.id ≠ c.id
  := by
  have hb : byId receipts c.id = none ↔ ∀ r ∈ receipts, r.id ≠ c.id := by
    rw [byId, List.find?_eq_none]
    simp
  rw [← hb, check]
  cases byId receipts c.id with
  | none => simp
  | some r =>
      simp only [reduceCtorEq, iff_false]
      split
      · simp
      · split
        · split <;> simp
        · simp

/-- The receipt with an id is found among receipts with ids of their own. -/
theorem byId_of_mem {n : ℕ} {receipts : List ToolReceipt} (h : Numbered n receipts) (hn : 0 < n)
    {r : ToolReceipt} (hr : r ∈ receipts) :
  byId receipts r.id = some r
  := by
  cases hb : byId receipts r.id with
  | none =>
      rw [byId, List.find?_eq_none] at hb
      apply absurd (decide_eq_true rfl) (hb r (List.mem_reverse.mpr hr))
  | some r' =>
      have hid : r'.id = r.id := by simpa using List.find?_some hb
      have hm : r' ∈ receipts := List.mem_reverse.mp (List.mem_of_find?_eq_some hb)
      rw [h.eq_of_id hn hm hr hid]

/-- A citation of a receipt that tells of a success is resolved if its anchor is missing or the name
of the tool. -/
theorem Citation.check_eq_resolved {receipts : List ToolReceipt} {c : Citation} {r : ToolReceipt}
    (h : byId receipts c.id = some r) (hs : r.status = "success")
    (ha : ∀ anchor ∈ c.anchor, anchor = r.toolName) :
  c.check receipts = .resolved
  := by
  rw [check, h]
  simp only
  rw [if_neg (not_not_intro hs)]
  cases hc : c.anchor with
  | none => rfl
  | some anchor =>
      simp only
      rw [if_neg (not_not_intro (ha anchor hc))]

theorem Lexicon.mem_resolved {L : Lexicon} {text : String} {receipts : List ToolReceipt}
    {c : Citation} (hc : c ∈ L.parseCitations text) (h : c.check receipts = .resolved) :
  c.id ∈ (L.verifyReceiptCitations text receipts).resolved
  := List.mem_map_of_mem (List.mem_filter.mpr ⟨hc, decide_eq_true h⟩)

/-- An id is reported unknown exactly if it is cited and no receipt has it. -/
theorem Lexicon.mem_unknown_iff {L : Lexicon} {text : String} {receipts : List ToolReceipt}
    {c : Citation} (hc : c ∈ L.parseCitations text) :
  c.id ∈ (L.verifyReceiptCitations text receipts).unknown ↔ ∀ r ∈ receipts, r.id ≠ c.id
  := by
  constructor
  · intro h
    obtain ⟨c', hc', he⟩ := List.mem_map.mp h
    have := Citation.check_eq_unknown_iff.mp (of_decide_eq_true (List.mem_filter.mp hc').2)
    rwa [he] at this
  · intro h
    apply List.mem_map_of_mem
    apply List.mem_filter.mpr
    exact ⟨hc, decide_eq_true (Citation.check_eq_unknown_iff.mpr h)⟩

end Agent
