import Mathlib.Data.List.TakeWhile

/-!
# Lines

A text that is cut into lines at every element that is a boundary. The sequence of a carriage return
and a newline is one boundary, and nothing follows the last boundary of a text. What stands in a line
of a file can have boundaries other than the newline, and is cut into pieces by them.
-/

namespace Lines

variable {α : Type} [DecidableEq α] (cr nl : α) (brk : α → Bool)

/-- The lines of a text of which the first has begun. -/
def cut : List α → List α → List (List α)
  | acc, [] => if acc.isEmpty then [] else [acc]
  | acc, [a] => if brk a then [acc] else [acc ++ [a]]
  | acc, a :: b :: as =>
      if brk a then acc :: (if a = cr ∧ b = nl then cut [] as else cut [] (b :: as))
      else cut (acc ++ [a]) (b :: as)

/-- The lines of a text. -/
def splitlines (as : List α) : List (List α) :=
  cut cr nl brk [] as

/-- What a line that a newline ends is cut into, after its begin. -/
def pieces : List α → List α → List (List α)
  | acc, [] => [acc]
  | acc, [a] => if brk a then (if a = cr then [acc] else [acc, []]) else [acc ++ [a]]
  | acc, a :: b :: as =>
      if brk a then acc :: pieces [] (b :: as) else pieces (acc ++ [a]) (b :: as)

/-- What comes before the first boundary of a line. -/
def first (line : List α) : List α :=
  line.takeWhile fun a => !brk a

/-- The pieces of a line after its first boundary. -/
def rest (line : List α) : List (List α) :=
  (pieces cr brk [] line).tail

variable {cr nl brk}

theorem cut_newline (hcr : cr ≠ nl) (hnl : brk nl = true) (acc after : List α) :
  cut cr nl brk acc (nl :: after) = acc :: cut cr nl brk [] after
  := by
  cases after with
  | nil => simp [cut, hnl]
  | cons b as => rw [cut, if_pos hnl, if_neg fun h => hcr h.1.symm]

/-- A line that a newline ends gives its pieces. -/
theorem cut_line (hcr : cr ≠ nl) (hnl : brk nl = true) {line : List α} (h : nl ∉ line)
    (acc after : List α) :
  cut cr nl brk acc (line ++ nl :: after) = pieces cr brk acc line ++ cut cr nl brk [] after
  := by
  induction line generalizing acc with
  | nil => apply cut_newline hcr hnl
  | cons a line ih =>
      cases line with
      | nil =>
          rw [List.singleton_append, cut, pieces]
          split
          · by_cases ha : a = cr
            · rw [if_pos ⟨ha, rfl⟩, if_pos ha]
              rfl
            · rw [if_neg fun h => ha h.1, if_neg ha, cut_newline hcr hnl]
              rfl
          · rw [cut_newline hcr hnl]
            rfl
      | cons b line =>
          have hline : nl ∉ b :: line := fun h' => h (List.mem_cons_of_mem a h')
          have hb : ¬ (a = cr ∧ b = nl) := fun h' => hline (h'.2 ▸ List.mem_cons_self)
          rw [List.cons_append, List.cons_append, cut, pieces, if_neg hb, ← List.cons_append,
            ih hline, ih hline]
          split <;> rfl

/-- The lines of lines that newlines end are their pieces. -/
theorem splitlines_flatMap (hcr : cr ≠ nl) (hnl : brk nl = true) {lines : List (List α)}
    (h : ∀ line ∈ lines, nl ∉ line) :
  splitlines cr nl brk (lines.flatMap fun line => line ++ [nl]) =
    lines.flatMap (pieces cr brk [])
  := by
  induction lines with
  | nil => rfl
  | cons line lines ih =>
      obtain ⟨hline, hlines⟩ := List.forall_mem_cons.mp h
      rw [List.flatMap_cons, List.append_assoc, splitlines, List.singleton_append,
        cut_line hcr hnl hline, List.flatMap_cons, ← ih hlines, splitlines]

/-- The first piece of a line goes on from what was there, up to the first boundary. -/
theorem pieces_eq_cons (acc line : List α) :
  pieces cr brk acc line = (acc ++ first brk line) :: rest cr brk line
  := by
  induction line generalizing acc with
  | nil => rw [pieces, first, List.takeWhile_nil, List.append_nil, rest, pieces, List.tail_cons]
  | cons a line ih =>
      rw [rest, first, List.takeWhile_cons]
      cases line with
      | nil =>
          rw [pieces, pieces]
          cases brk a with
          | true =>
              rw [if_pos rfl, if_pos rfl]
              split <;> simp
          | false => simp
      | cons b line =>
          rw [pieces, pieces]
          cases brk a with
          | true => simp
          | false =>
              rw [if_neg Bool.false_ne_true, if_neg Bool.false_ne_true, ih, ih]
              simp [first]

/-- A line without a boundary is one piece. -/
theorem rest_of_forall {line : List α} (h : ∀ a ∈ line, brk a = false) :
  rest cr brk line = []
  := by
  induction line with
  | nil => rfl
  | cons a line ih =>
      obtain ⟨ha, hline⟩ := List.forall_mem_cons.mp h
      have ha : ¬ brk a = true := Bool.eq_false_iff.mp ha
      rw [rest]
      cases line with
      | nil => rw [pieces, if_neg ha, List.tail_cons]
      | cons b line => rw [pieces, if_neg ha, pieces_eq_cons, List.tail_cons, ih hline]

omit [DecidableEq α] in
theorem first_of_forall {line : List α} (h : ∀ a ∈ line, brk a = false) :
  first brk line = line
  := by
  rw [first, List.takeWhile_eq_self_iff]
  intro a ha
  rw [h a ha, Bool.not_false]

/-- A begin without a boundary goes into the first piece. -/
theorem pieces_append {begin : List α} (h : ∀ a ∈ begin, brk a = false) (line : List α) :
  pieces cr brk [] (begin ++ line) = (begin ++ first brk line) :: rest cr brk line
  := by
  have happend : ∀ acc, pieces cr brk acc (begin ++ line) = pieces cr brk (acc ++ begin) line := by
    induction begin with
    | nil =>
        intro acc
        rw [List.nil_append, List.append_nil]
    | cons a as ih =>
        obtain ⟨ha, has⟩ := List.forall_mem_cons.mp h
        have ha : ¬ brk a = true := Bool.eq_false_iff.mp ha
        intro acc
        rw [List.cons_append]
        cases hrest : as ++ line with
        | nil =>
            obtain ⟨rfl, rfl⟩ := List.append_eq_nil_iff.mp hrest
            simp [pieces, ha]
        | cons b bs =>
            rw [pieces, if_neg ha, ← hrest, ih has, List.append_assoc]
            rfl
  rw [happend, List.nil_append, pieces_eq_cons]

/-- The pieces of a line have nothing that is not in it. -/
theorem mem_of_mem_pieces {acc line piece : List α} (h : piece ∈ pieces cr brk acc line) {a : α}
    (ha : a ∈ piece) :
  a ∈ acc ++ line
  := by
  induction line generalizing acc with
  | nil =>
      rw [pieces, List.mem_singleton] at h
      rw [List.append_nil, ← h]
      apply ha
  | cons b line ih =>
      cases line with
      | nil =>
          rw [pieces] at h
          split at h
          · have hpiece : piece = acc ∨ piece = [] := by
              split at h
              · exact .inl (List.mem_singleton.mp h)
              · simpa using h
            rcases hpiece with rfl | rfl
            · apply List.mem_append_left _ ha
            · contradiction
          · rw [← List.mem_singleton.mp h]
            apply ha
      | cons c line =>
          rw [pieces] at h
          split at h
          · rcases List.mem_cons.mp h with rfl | h
            · apply List.mem_append_left _ ha
            · apply List.mem_append_right _ (List.mem_cons_of_mem b (ih h))
          · have hmem := ih h
            rwa [List.append_assoc] at hmem

/-- What stands in a piece after the first boundary stands in the line after the first boundary. -/
theorem exists_of_mem_rest {line piece : List α} (h : piece ∈ rest cr brk line) :
  ∃ b after, line = first brk line ++ b :: after ∧ brk b = true ∧ ∀ a ∈ piece, a ∈ after
  := by
  induction line with
  | nil => contradiction
  | cons a line ih =>
      rw [rest] at h
      cases hbrk : brk a with
      | true =>
          have hfirst : first brk (a :: line) = [] := by rw [first, List.takeWhile_cons, hbrk]; rfl
          refine ⟨a, line, by rw [hfirst]; rfl, hbrk, ?_⟩
          cases line with
          | nil =>
              rw [pieces, if_pos hbrk] at h
              split at h
              · contradiction
              · rw [List.mem_singleton.mp h]
                intro b hb
                contradiction
          | cons b line =>
              rw [pieces, if_pos hbrk, List.tail_cons] at h
              intro c hc
              apply mem_of_mem_pieces h hc
      | false =>
          have hneg : ¬ brk a = true := Bool.eq_false_iff.mp hbrk
          have hfirst : first brk (a :: line) = a :: first brk line := by
            rw [first, List.takeWhile_cons, hbrk]
            rfl
          cases line with
          | nil =>
              rw [pieces, if_neg hneg] at h
              contradiction
          | cons b line =>
              rw [pieces, if_neg hneg, pieces_eq_cons, List.tail_cons] at h
              obtain ⟨c, after, hline, hc, hafter⟩ := ih h
              refine ⟨c, after, ?_, hc, hafter⟩
              rw [hfirst, List.cons_append, ← hline]

end Lines
