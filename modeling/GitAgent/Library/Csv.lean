import Mathlib.Data.List.Basic

/-!
# Tables of comma-separated values

A table is written with a separator between the fields of a record and a line end after each record.
A field with one of the marks is quoted, and a quote in it is doubled. A reader that takes nothing
else for a table reads back what was written, up to the line ends inside of fields.
-/

namespace Csv

/-- The marks of a table, which differ from one another. -/
structure Marks (α : Type) where
  comma : α
  quote : α
  cr : α
  lf : α
  nodup : [comma, quote, cr, lf].Nodup

variable {α : Type} [DecidableEq α] (M : Marks α)

/-- Whether an element is a mark. -/
def Marks.isMark (a : α) : Bool :=
  a ∈ [M.comma, M.quote, M.cr, M.lf]

/-! ### The writer -/

/-- What is written in a quoted field for an element: a quote is doubled, and a line feed comes with a
carriage return, which is dropped elsewhere. -/
def escape (a : α) : List α :=
  if a = M.quote then [M.quote, M.quote]
  else if a = M.cr then []
  else if a = M.lf then [M.cr, M.lf]
  else [a]

/-- A field, in quotes if it needs them. -/
def field (needsQuotes : List α → Bool) (s : List α) : List α :=
  if needsQuotes s then M.quote :: s.flatMap (escape M) ++ [M.quote] else s

/-- A record with its line end. -/
def record (needsQuotes : List α → Bool) (fields : List (List α)) : List α :=
  [M.comma].intercalate (fields.map (field M needsQuotes)) ++ [M.cr, M.lf]

/-- An element as the line ends of a field are written. -/
def lineEnd (a : α) : List α :=
  if a = M.cr then [] else if a = M.lf then [M.cr, M.lf] else [a]

/-! ### The reader -/

/-- Where a reader is: before a record, before a field, in a field without quotes, in a quoted
field, after a quote in it, and after a carriage return that is to end the record. -/
inductive Mode
  | fresh
  | first
  | plain
  | quoted
  | closed
  | return
  deriving DecidableEq, Repr

/-- The records of a table, if it is one. `s` is what was read of the field, and `fields` are the
fields before it. -/
def read : Mode → (s : List α) → (fields : List (List α)) → List α → Option (List (List (List α)))
  | .fresh, _, _, [] => some []
  | .first, s, fields, [] | .plain, s, fields, [] | .closed, s, fields, [] => some [fields ++ [s]]
  | .quoted, _, _, [] | .return, _, _, [] => none
  | .quoted, s, fields, a :: as =>
      if a = M.quote then read .closed s fields as else read .quoted (s ++ [a]) fields as
  | .return, s, fields, a :: as =>
      if a = M.lf then (read .fresh [] [] as).map fun records => (fields ++ [s]) :: records else none
  | .closed, s, fields, a :: as =>
      if a = M.quote then read .quoted (s ++ [a]) fields as
      else if a = M.comma then read .first [] (fields ++ [s]) as
      else if a = M.cr then read .return s fields as
      else none
  | .plain, s, fields, a :: as =>
      if a = M.comma then read .first [] (fields ++ [s]) as
      else if a = M.cr then read .return s fields as
      else if a = M.quote ∨ a = M.lf then none
      else read .plain (s ++ [a]) fields as
  | .fresh, s, fields, a :: as | .first, s, fields, a :: as =>
      if a = M.quote then read .quoted s fields as
      else if a = M.comma then read .first [] (fields ++ [s]) as
      else if a = M.cr then read .return s fields as
      else if a = M.lf then none
      else read .plain (s ++ [a]) fields as

/-- The records of a table. -/
def parse (as : List α) : Option (List (List (List α))) :=
  read M .fresh [] [] as

/-! ### What was written is read -/

section

variable {M} {needsQuotes : List α → Bool} {s acc : List α} {fields : List (List α)} {a : α}

/-- What a reader does at the end of a field. -/
def next (M : Marks α) (s : List α) (fields : List (List α)) (a : α) (rest : List α) :
    Option (List (List (List α))) :=
  if a = M.comma then read M .first [] (fields ++ [s]) rest else read M .return s fields rest

theorem ne_of_isMark (h : M.isMark a = false) :
  a ≠ M.comma ∧ a ≠ M.quote ∧ a ≠ M.cr ∧ a ≠ M.lf
  := by simpa [Marks.isMark] using h

omit [DecidableEq α] in
theorem comma_ne :
  M.comma ≠ M.quote ∧ M.comma ≠ M.cr ∧ M.comma ≠ M.lf
  := by
  have h := (List.pairwise_cons.mp M.nodup).1
  exact ⟨h _ (by simp), h _ (by simp), h _ (by simp)⟩

omit [DecidableEq α] in
theorem quote_ne :
  M.quote ≠ M.cr ∧ M.quote ≠ M.lf
  := by
  have h := (List.pairwise_cons.mp (List.pairwise_cons.mp M.nodup).2).1
  exact ⟨h _ (by simp), h _ (by simp)⟩

omit [DecidableEq α] in
theorem cr_ne :
  M.cr ≠ M.lf
  := (List.pairwise_cons.mp (List.pairwise_cons.mp (List.pairwise_cons.mp M.nodup).2).2).1 _ (by simp)

/-- A quoted field is read to its end. -/
theorem read_quoted (acc s : List α) (fields : List (List α)) (rest : List α) :
  read M .quoted acc fields (s.flatMap (escape M) ++ M.quote :: rest) =
    read M .closed (acc ++ s.flatMap (lineEnd M)) fields rest
  := by
  induction s generalizing acc with
  | nil => rw [List.flatMap_nil, List.flatMap_nil, List.nil_append, List.append_nil, read, if_pos rfl]
  | cons a s ih =>
      rw [List.flatMap_cons, List.flatMap_cons, List.append_assoc]
      by_cases hquote : a = M.quote
      · rw [escape, if_pos hquote, lineEnd, hquote, if_neg quote_ne.1, if_neg quote_ne.2,
          List.cons_append, List.cons_append, List.nil_append, read, if_pos rfl, read, if_pos rfl, ih,
          List.append_assoc]
      by_cases hcr : a = M.cr
      · rw [escape, if_neg hquote, if_pos hcr, lineEnd, if_pos hcr, List.nil_append, ih,
          List.nil_append]
      by_cases hlf : a = M.lf
      · rw [escape, if_neg hquote, if_neg hcr, if_pos hlf, lineEnd, if_neg hcr, if_pos hlf,
          List.cons_append, List.cons_append, List.nil_append, read, if_neg quote_ne.1.symm, read,
          if_neg quote_ne.2.symm, ih, List.append_assoc, List.append_assoc]
        rfl
      · rw [escape, if_neg hquote, if_neg hcr, if_neg hlf, lineEnd, if_neg hcr, if_neg hlf,
          List.cons_append, List.nil_append, read, if_neg hquote, ih, List.append_assoc]

/-- A field without marks is read to its end. -/
theorem read_plain (hs : ∀ b ∈ s, M.isMark b = false) (ha : a = M.comma ∨ a = M.cr)
    (acc : List α) (fields : List (List α)) (rest : List α) :
  read M .plain acc fields (s ++ a :: rest) = next M (acc ++ s) fields a rest
  := by
  induction s generalizing acc with
  | nil =>
      rw [List.nil_append, List.append_nil, read, next]
      rcases ha with rfl | rfl
      · rw [if_pos rfl, if_pos rfl]
      · rw [if_neg comma_ne.2.1.symm, if_pos rfl, if_neg comma_ne.2.1.symm]
  | cons b s ih =>
      obtain ⟨hb, hrest⟩ := List.forall_mem_cons.mp hs
      obtain ⟨hcomma, hquote, hcr, hlf⟩ := ne_of_isMark hb
      rw [List.cons_append, read, if_neg hcomma, if_neg hcr, if_neg (by tauto), ih hrest,
        List.append_assoc, List.singleton_append]

/-- A field that was written is read to its end, if it is quoted where it has a mark. -/
theorem read_field {mode : Mode} (hmode : mode = .fresh ∨ mode = .first)
    (hquotes : needsQuotes s = false → ∀ b ∈ s, M.isMark b = false) (ha : a = M.comma ∨ a = M.cr)
    (fields : List (List α)) (rest : List α) :
  read M mode [] fields (field M needsQuotes s ++ a :: rest) =
    next M (s.flatMap (lineEnd M)) fields a rest
  := by
  have hquote : ∀ as, read M mode [] fields (M.quote :: as) = read M .quoted [] fields as := by
    intro as
    rcases hmode with rfl | rfl
    · rw [read, if_pos rfl]
    · rw [read, if_pos rfl]
  rw [field]
  cases hneeds : needsQuotes s with
  | true =>
      rw [if_pos rfl, List.cons_append, List.cons_append, List.append_assoc, hquote,
        List.singleton_append, read_quoted, read, next, List.nil_append]
      rcases ha with rfl | rfl
      · rw [if_neg comma_ne.1, if_pos rfl, if_pos rfl]
      · rw [if_neg quote_ne.1.symm, if_neg comma_ne.2.1.symm, if_pos rfl, if_neg comma_ne.2.1.symm]
  | false =>
      have hs := hquotes hneeds
      have hline : s.flatMap (lineEnd M) = s := by
        conv_rhs => rw [← List.flatMap_singleton' s]
        apply List.flatMap_congr
        intro b hb
        obtain ⟨-, -, hcr, hlf⟩ := ne_of_isMark (hs b hb)
        rw [lineEnd, if_neg hcr, if_neg hlf]
      rw [if_neg Bool.false_ne_true, hline]
      cases s with
      | nil =>
          rw [List.nil_append, next]
          rcases ha with rfl | rfl <;> rcases hmode with rfl | rfl
          · rw [read, if_neg comma_ne.1, if_pos rfl, if_pos rfl]
          · rw [read, if_neg comma_ne.1, if_pos rfl, if_pos rfl]
          · rw [read, if_neg quote_ne.1.symm, if_neg comma_ne.2.1.symm, if_pos rfl,
              if_neg comma_ne.2.1.symm]
          · rw [read, if_neg quote_ne.1.symm, if_neg comma_ne.2.1.symm, if_pos rfl,
              if_neg comma_ne.2.1.symm]
      | cons b s =>
          obtain ⟨hb, hrest⟩ := List.forall_mem_cons.mp hs
          obtain ⟨hcomma, hquote', hcr, hlf⟩ := ne_of_isMark hb
          have hfirst : read M mode [] fields (b :: s ++ a :: rest) =
              read M .plain [b] fields (s ++ a :: rest) := by
            rcases hmode with rfl | rfl
            · rw [List.cons_append, read, if_neg hquote', if_neg hcomma, if_neg hcr, if_neg hlf,
                List.nil_append]
            · rw [List.cons_append, read, if_neg hquote', if_neg hcomma, if_neg hcr, if_neg hlf,
                List.nil_append]
          rw [hfirst, read_plain hrest ha, List.singleton_append]

/-- A record that was written is read, and then what comes after it. -/
theorem read_record {mode : Mode} (hmode : mode = .fresh ∨ mode = .first) {record' : List (List α)}
    (hne : record' ≠ [])
    (hquotes : ∀ s ∈ record', needsQuotes s = false → ∀ b ∈ s, M.isMark b = false)
    (fields : List (List α)) (rest : List α) :
  read M mode [] fields (record M needsQuotes record' ++ rest) =
    (parse M rest).map fun records =>
      (fields ++ record'.map fun s => s.flatMap (lineEnd M)) :: records
  := by
  induction record' generalizing mode fields with
  | nil => exact absurd rfl hne
  | cons s record' ih =>
      obtain ⟨hs, hrest⟩ := List.forall_mem_cons.mp hquotes
      by_cases hnil : record' = []
      · subst hnil
        rw [record, List.map_singleton, List.intercalate_singleton, List.append_assoc,
          List.cons_append, read_field hmode hs (.inr rfl), next, if_neg comma_ne.2.1.symm,
          List.singleton_append, read, if_pos rfl]
        rfl
      · have hmap : record'.map (field M needsQuotes) ≠ [] := by simpa using hnil
        rw [record, List.map_cons, List.intercalate_cons_of_ne_nil hmap, List.append_assoc,
          List.append_assoc, List.append_assoc, List.singleton_append, read_field hmode hs (.inl rfl),
          next, if_pos rfl, ← List.append_assoc]
        change read M .first [] _ (record M needsQuotes record' ++ rest) = _
        rw [ih (.inr rfl) hnil hrest, List.map_cons, List.append_assoc, List.singleton_append]

/-- A table that was written is read, up to the line ends in the fields. -/
theorem parse_records {records : List (List (List α))} (hne : ∀ r ∈ records, r ≠ [])
    (hquotes : ∀ r ∈ records, ∀ s ∈ r, needsQuotes s = false → ∀ b ∈ s, M.isMark b = false) :
  parse M (records.flatMap (record M needsQuotes)) =
    some (records.map fun r => r.map fun s => s.flatMap (lineEnd M))
  := by
  induction records with
  | nil => rfl
  | cons r records ih =>
      obtain ⟨hr, hrest⟩ := List.forall_mem_cons.mp hne
      obtain ⟨hq, hqrest⟩ := List.forall_mem_cons.mp hquotes
      rw [List.flatMap_cons, parse, read_record (.inl rfl) hr hq, ih hrest hqrest]
      rfl

end

end Csv
