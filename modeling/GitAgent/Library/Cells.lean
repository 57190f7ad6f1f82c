import Mathlib.Algebra.GroupWithZero.Nat
import Mathlib.Data.List.DropRight
import GitAgent.Library.Trim

/-!
# Rows of cells

A text that is split into cells at the separators that are not escaped. A separator is escaped if an
odd number of escapes stand right before it. Putting an escape before each separator of a text leaves
no separator that is not escaped exactly if none was escaped before.
-/

namespace Cells

variable {α : Type} [DecidableEq α] (esc sep : α)

/-- What stands between the separators of a text that are not escaped, when `n` escapes stand right
before it and `acc` is what stands before it since the last separator. -/
def splitFrom : (n : ℕ) → (acc as : List α) → List (List α)
  | _, acc, [] => [acc]
  | n, acc, a :: as =>
      if a = esc then splitFrom (n + 1) (acc ++ [a]) as
      else if a = sep ∧ n % 2 = 0 then acc :: splitFrom 0 [] as
      else splitFrom 0 (acc ++ [a]) as

/-- What stands between the separators of a text that are not escaped. -/
def split (as : List α) : List (List α) :=
  splitFrom esc sep 0 [] as

/-- The number of escapes at the end of a text, when `n` escapes stand right before it. -/
def runFrom : (n : ℕ) → (as : List α) → ℕ
  | n, [] => n
  | n, a :: as => if a = esc then runFrom (n + 1) as else runFrom 0 as

/-- The number of separators that are not escaped. -/
def stops : (n : ℕ) → (as : List α) → ℕ
  | _, [] => 0
  | n, a :: as =>
      if a = esc then stops (n + 1) as
      else if a = sep ∧ n % 2 = 0 then stops 0 as + 1
      else stops 0 as

/-- The number of separators that are escaped. -/
def escaped : (n : ℕ) → (as : List α) → ℕ
  | _, [] => 0
  | n, a :: as =>
      if a = esc then escaped (n + 1) as
      else if a = sep ∧ n % 2 = 1 then escaped 0 as + 1
      else escaped 0 as

/-- An even number of escapes stand right before each separator. -/
def Unescaped (as : List α) : Prop :=
  ∀ before after, as = before ++ sep :: after → (before.rtakeWhile (· = esc)).length % 2 = 0

/-- An element with an escape before it, if it is a separator. -/
def quote (a : α) : List α :=
  if a = sep then [esc, sep] else [a]

/-- A row of cells, with a blank at both ends of each. -/
def row (blank : α) (cells : List (List α)) : List α :=
  sep :: cells.flatMap fun cell => blank :: cell ++ [blank, sep]

/-- A text is a row of `n` cells. -/
def IsRow (n : ℕ) (as : List α) : Prop :=
  ∃ cells, cells.length = n ∧ split esc sep as = [] :: cells ++ [[]]

variable {esc sep} {n : ℕ} {acc as bs : List α} {a : α}

/-! ### Separators -/

theorem length_splitFrom (n : ℕ) (acc as : List α) :
  (splitFrom esc sep n acc as).length = stops esc sep n as + 1
  := by
  induction as generalizing n acc with
  | nil => rfl
  | cons a as ih =>
      rw [splitFrom, stops]
      split
      · apply ih
      · split
        · rw [List.length_cons, ih]
        · apply ih

/-- What has been read is put before the first piece. -/
theorem splitFrom_append (h : stops esc sep n as = 0) (hn : runFrom esc n as % 2 = 0)
    (hne : esc ≠ sep) (bs : List α) :
  splitFrom esc sep n acc (as ++ sep :: bs) = (acc ++ as) :: splitFrom esc sep 0 [] bs
  := by
  induction as generalizing n acc with
  | nil =>
      rw [runFrom] at hn
      rw [List.nil_append, splitFrom, if_neg hne.symm, if_pos ⟨rfl, hn⟩, List.append_nil]
  | cons a as ih =>
      rw [stops] at h
      rw [runFrom] at hn
      rw [List.cons_append, splitFrom]
      split
      · rename_i ha
        rw [if_pos ha] at h hn
        rw [ih h hn, List.append_assoc, List.singleton_append]
      · rename_i ha
        rw [if_neg ha] at h hn
        split
        · rename_i hstop
          rw [if_pos hstop] at h
          contradiction
        · rename_i hstop
          rw [if_neg hstop] at h
          rw [ih h hn, List.append_assoc, List.singleton_append]

theorem stops_append (n : ℕ) (as bs : List α) :
  stops esc sep n (as ++ bs) = stops esc sep n as + stops esc sep (runFrom esc n as) bs
  := by
  induction as generalizing n with
  | nil => rw [List.nil_append, stops, runFrom, Nat.zero_add]
  | cons a as ih =>
      rw [List.cons_append, stops, stops, runFrom]
      split
      · apply ih
      · split
        · rw [ih]
          omega
        · apply ih

theorem runFrom_append (n : ℕ) (as bs : List α) :
  runFrom esc n (as ++ bs) = runFrom esc (runFrom esc n as) bs
  := by
  induction as generalizing n with
  | nil => rfl
  | cons a as ih =>
      rw [List.cons_append, runFrom, runFrom]
      split <;> apply ih

theorem escaped_append (n : ℕ) (as bs : List α) :
  escaped esc sep n (as ++ bs) = escaped esc sep n as + escaped esc sep (runFrom esc n as) bs
  := by
  induction as generalizing n with
  | nil => rw [List.nil_append, escaped, runFrom, Nat.zero_add]
  | cons a as ih =>
      rw [List.cons_append, escaped, escaped, runFrom]
      split
      · apply ih
      · split
        · rw [ih]
          omega
        · apply ih

/-! ### Quoting -/

/-- **What is quoted is split where it was escaped.** -/
theorem stops_quote (hne : esc ≠ sep) (n : ℕ) (as : List α) :
  stops esc sep n (as.flatMap (quote esc sep)) = escaped esc sep n as
  := by
  induction as generalizing n with
  | nil => rfl
  | cons a as ih =>
      rw [List.flatMap_cons, quote, escaped]
      by_cases hsep : a = sep
      · rw [if_pos hsep, if_neg (hsep ▸ hne.symm), List.cons_append, List.singleton_append, stops,
          if_pos rfl, stops, if_neg hne.symm, ih]
        by_cases hn : n % 2 = 1
        · rw [if_pos ⟨rfl, by omega⟩, if_pos ⟨hsep, hn⟩]
        · rw [if_neg (by omega), if_neg fun h => hn h.2]
      · have hnot : ∀ m, ¬ (a = sep ∧ n % 2 = m) := fun m h => hsep h.1
        rw [if_neg hsep, List.singleton_append, stops, ih, ih, if_neg (hnot 0), if_neg (hnot 1)]

/-- The escapes at the end of a text. -/
theorem runFrom_zero (as : List α) :
  runFrom esc 0 as = (as.rtakeWhile (· = esc)).length
  := by
  induction as using List.reverseRecOn with
  | nil => rfl
  | append_singleton as a ih =>
      rw [runFrom_append, List.rtakeWhile_concat, runFrom, runFrom, ih]
      by_cases ha : a = esc
      · rw [if_pos ha, if_pos (decide_eq_true ha), List.length_append, List.length_singleton]
      · rw [if_neg ha, if_neg (by simpa using ha), runFrom, List.length_nil]

/-- No separator is escaped exactly if an even number of escapes stand before each. -/
theorem escaped_eq_zero_iff (hne : esc ≠ sep) :
  escaped esc sep 0 as = 0 ↔ Unescaped esc sep as
  := by
  have hgeneral : ∀ n, escaped esc sep n as = 0 ↔
      ∀ before after, as = before ++ sep :: after → runFrom esc n before % 2 = 0 := by
    induction as with
    | nil => simp [escaped]
    | cons a as ih =>
        intro n
        -- a separator in the list is its first element, or it stands after that
        have hcons : (∀ before after, a :: as = before ++ sep :: after →
              runFrom esc n before % 2 = 0) ↔
            (a = sep → n % 2 = 0) ∧ ∀ before after, as = before ++ sep :: after →
              runFrom esc n (a :: before) % 2 = 0 := by
          constructor
          · intro h
            constructor
            · rintro rfl
              exact h [] as rfl
            · rintro before after rfl
              exact h (a :: before) after rfl
          · rintro ⟨hfirst, hlater⟩ before after heq
            cases before with
            | nil => exact hfirst (List.cons.inj heq).1
            | cons b before =>
                obtain ⟨rfl, has⟩ := List.cons.inj heq
                exact hlater before after has
        rw [hcons, escaped]
        by_cases ha : a = esc
        · have hsep : a ≠ sep := ha ▸ hne
          simp only [if_pos ha, ih, runFrom, hsep, false_implies, true_and]
        · simp only [if_neg ha, runFrom, ← ih]
          by_cases hsep : a = sep
          · by_cases hn : n % 2 = 1
            · rw [if_pos ⟨hsep, hn⟩]
              constructor
              · intro h
                contradiction
              · rintro ⟨h, -⟩
                have := h hsep
                omega
            · rw [if_neg fun h => hn h.2]
              exact ⟨fun h => ⟨fun _ => by omega, h⟩, fun h => h.2⟩
          · rw [if_neg fun h => hsep h.1]
            exact ⟨fun h => ⟨fun heq => absurd heq hsep, h⟩, fun h => h.2⟩
  rw [hgeneral, Unescaped]
  simp only [runFrom_zero]

/-! ### Other elements -/

/-- A text without escapes and separators. -/
def Inert (esc sep : α) (as : List α) : Prop :=
  ∀ a ∈ as, a ≠ esc ∧ a ≠ sep

theorem inert_of_all (h : as.all (fun a => a ≠ esc && a ≠ sep) = true) :
  Inert esc sep as
  := by
  intro a ha
  have := List.all_eq_true.mp h a ha
  simpa using this

omit [DecidableEq α] in
theorem Inert.append (ha : Inert esc sep as) (hb : Inert esc sep bs) :
  Inert esc sep (as ++ bs)
  := List.forall_mem_append.mpr ⟨ha, hb⟩

/-- In a text without separators none is escaped. -/
theorem Inert.escaped (h : Inert esc sep as) (n : ℕ) :
  escaped esc sep n as = 0
  := by
  induction as generalizing n with
  | nil => rfl
  | cons a as ih =>
      obtain ⟨ha, has⟩ := List.forall_mem_cons.mp h
      rw [Cells.escaped, if_neg ha.1, if_neg fun h => ha.2 h.1, ih has]

/-- After a text without escapes the next separator is not escaped. -/
theorem Inert.runFrom (h : Inert esc sep as) (hne : as ≠ []) (n : ℕ) :
  runFrom esc n as = 0
  := by
  have hzero : ∀ {as}, Inert esc sep as → Cells.runFrom esc 0 as = 0 := by
    intro as h
    induction as with
    | nil => rfl
    | cons a as ih =>
        obtain ⟨ha, has⟩ := List.forall_mem_cons.mp h
        rw [Cells.runFrom, if_neg ha.1, ih has]
  obtain ⟨a, as, rfl⟩ := List.exists_cons_of_ne_nil hne
  obtain ⟨ha, has⟩ := List.forall_mem_cons.mp h
  rw [Cells.runFrom, if_neg ha.1, hzero has]

/-- What stands after a text without escapes and separators begins anew. -/
theorem escaped_inert_append (h : Inert esc sep as) (hne : as ≠ []) (n : ℕ) (bs : List α) :
  escaped esc sep n (as ++ bs) = escaped esc sep 0 bs
  := by rw [escaped_append, h.escaped, h.runFrom hne, Nat.zero_add]

/-- The separators of two texts with an inert one between them. -/
theorem escaped_append_inert (h : Inert esc sep bs) (hne : bs ≠ []) (n : ℕ) (as cs : List α) :
  escaped esc sep n (as ++ bs ++ cs) = escaped esc sep n as + escaped esc sep 0 cs
  := by rw [List.append_assoc, escaped_append, escaped_inert_append h hne]

/-- The separators of texts that are put together with an inert one between them. -/
theorem escaped_intercalate {gap : List α} (h : Inert esc sep gap) (hne : gap ≠ [])
    (parts : List (List α)) :
  escaped esc sep 0 (gap.intercalate parts) = (parts.map (escaped esc sep 0)).sum
  := by
  induction parts with
  | nil => rfl
  | cons part parts ih =>
      cases parts with
      | nil => simp
      | cons part' parts =>
          rw [List.intercalate_cons_cons, escaped_append_inert h hne, ih]
          rfl

/-- A text is quoted as well if other elements are replaced by others. -/
theorem escaped_flatMap {f : α → List α} (hesc : ∀ a, a = esc ∨ a = sep → f a = [a])
    (hother : ∀ a, a ≠ esc → a ≠ sep → f a ≠ [] ∧ Inert esc sep (f a)) (n : ℕ) (as : List α) :
  escaped esc sep n (as.flatMap f) = escaped esc sep n as
  := by
  induction as generalizing n with
  | nil => rfl
  | cons a as ih =>
      rw [List.flatMap_cons]
      by_cases ha : a = esc ∨ a = sep
      · rw [hesc a ha, List.singleton_append, escaped, escaped, ih, ih]
      · rw [not_or] at ha
        obtain ⟨hne, hinert⟩ := hother a ha.1 ha.2
        rw [escaped_inert_append hinert hne, ih, escaped, if_neg ha.1, if_neg fun h => ha.2 h.1]

/-- No separator is escaped if that is so without the inert elements at the ends. -/
theorem escaped_trim {p : α → Bool} (hp : ∀ a, p a = true → a ≠ esc ∧ a ≠ sep) (as : List α) :
  escaped esc sep 0 (Trim.trim p as) = escaped esc sep 0 as
  := by
  obtain ⟨before, after, has, hall⟩ := Trim.exists_trim (p := p) as
  obtain ⟨hbefore, hafter⟩ := List.forall_mem_append.mp hall
  have hstart : Inert esc sep before := fun a ha => hp a (hbefore a ha)
  have hend : Inert esc sep after := fun a ha => hp a (hafter a ha)
  conv_rhs => rw [has, escaped_append, hend.escaped, Nat.add_zero]
  by_cases hnil : before = []
  · rw [hnil, List.nil_append]
  · rw [escaped_inert_append hstart hnil]

/-! ### Rows -/

variable {blank : α} {cells : List (List α)}

/-- The separators of a row that are not escaped. -/
theorem stops_row (hblank : blank ≠ esc ∧ blank ≠ sep) (hne : esc ≠ sep) (cells : List (List α)) :
  stops esc sep 0 (row sep blank cells) =
    (cells.map fun cell => stops esc sep 0 cell + 1).sum + 1
  := by
  have hstep : ∀ (n : ℕ) (as : List α), stops esc sep n (blank :: as) = stops esc sep 0 as := by
    intro n as
    rw [stops, if_neg hblank.1, if_neg fun h => hblank.2 h.1]
  have hsep : ∀ as, stops esc sep 0 (sep :: as) = stops esc sep 0 as + 1 := by
    intro as
    rw [stops, if_neg hne.symm, if_pos ⟨rfl, rfl⟩]
  rw [row, hsep]
  congr 1
  induction cells with
  | nil => rfl
  | cons cell cells ih =>
      rw [List.flatMap_cons, List.map_cons, List.sum_cons, ← ih, List.cons_append, List.cons_append,
        List.append_assoc, hstep, stops_append, List.cons_append, List.singleton_append, hstep,
        hsep]
      omega

/-- A row of cells without separators of their own is split into them. -/
theorem split_row (hblank : blank ≠ esc ∧ blank ≠ sep) (hne : esc ≠ sep)
    (h : ∀ cell ∈ cells, stops esc sep 0 cell = 0) :
  split esc sep (row sep blank cells) =
    [] :: (cells.map fun cell => blank :: cell ++ [blank]) ++ [[]]
  := by
  have hcells : ∀ cells : List (List α), (∀ cell ∈ cells, stops esc sep 0 cell = 0) →
      splitFrom esc sep 0 [] (cells.flatMap fun cell => blank :: cell ++ [blank, sep]) =
        (cells.map fun cell => blank :: cell ++ [blank]) ++ [[]] := by
    intro cells h
    induction cells with
    | nil => rfl
    | cons cell cells ih =>
        obtain ⟨hcell, hcells⟩ := List.forall_mem_cons.mp h
        have hinert : Inert esc sep [blank] := List.forall_mem_singleton.mpr hblank
        have hstops : stops esc sep 0 (blank :: cell ++ [blank]) = 0 := by
          rw [List.cons_append, stops, if_neg hblank.1, if_neg fun h => hblank.2 h.1, stops_append,
            hcell, stops, if_neg hblank.1, if_neg fun h => hblank.2 h.1, stops]
        have hrun : runFrom esc 0 (blank :: cell ++ [blank]) = 0 := by
          rw [runFrom_append, hinert.runFrom (List.cons_ne_nil _ _)]
        have hsplit := @splitFrom_append _ _ esc sep 0 [] _ hstops (by rw [hrun]) hne
          (cells.flatMap fun cell => blank :: cell ++ [blank, sep])
        rw [List.nil_append, ih hcells] at hsplit
        rw [List.map_cons, List.cons_append, ← hsplit]
        simp
  rw [split, row, splitFrom, if_neg hne.symm, if_pos ⟨rfl, rfl⟩, hcells cells h]
  rfl

omit [DecidableEq α] in
/-- Numbers that are one more than others add up to how many they are exactly if the others are
zero. -/
theorem sum_map_succ {f : List α → ℕ} (cells : List (List α)) :
  cells.length ≤ (cells.map fun cell => f cell + 1).sum ∧
    ((cells.map fun cell => f cell + 1).sum = cells.length ↔ ∀ cell ∈ cells, f cell = 0)
  := by
  induction cells with
  | nil => simp
  | cons cell cells ih =>
      obtain ⟨hle, hiff⟩ := ih
      rw [List.map_cons, List.sum_cons, List.length_cons, List.forall_mem_cons, ← hiff]
      omega

/-- **A row has its cells** exactly if no cell has a separator of its own. -/
theorem isRow_row_iff (hblank : blank ≠ esc ∧ blank ≠ sep) (hne : esc ≠ sep) :
  IsRow esc sep cells.length (row sep blank cells) ↔ ∀ cell ∈ cells, stops esc sep 0 cell = 0
  := by
  constructor
  · rintro ⟨cells', hlength, hsplit⟩
    have hstops := @length_splitFrom _ _ esc sep 0 [] (row sep blank cells)
    rw [split] at hsplit
    rw [hsplit, stops_row hblank hne, List.cons_append, List.length_cons, List.length_append, hlength,
      List.length_singleton] at hstops
    apply (sum_map_succ cells).2.mp
    omega
  · intro h
    exact ⟨_, List.length_map _, split_row hblank hne h⟩

end Cells
