import GitAgent.Library.Table

/-!
# Selections of a table

What a statement leaves of the rows that satisfy a condition: an inserted row that does not satisfy
it, a deletion of rows that do not, and a rewriting of rows that neither do nor will, leave them as
they were.
-/

universe u v

/-- A selection within a wider one is a selection of the whole list. -/
theorem List.filter_filter_of_imp {α : Type u} {p q : α → Bool} {l : List α}
    (h : ∀ a ∈ l, q a = true → p a = true) :
  (l.filter p).filter q = l.filter q
  := by
  rw [List.filter_filter]
  apply List.filter_congr
  intro a ha
  cases hq : q a with
  | false => rfl
  | true => rw [h a ha hq, Bool.and_self]

theorem List.find?_filter_of_imp {α : Type u} {p q : α → Bool} {l : List α}
    (h : ∀ a ∈ l, q a = true → p a = true) :
  (l.filter p).find? q = l.find? q
  := by rw [← List.head?_filter, List.filter_filter_of_imp h, List.head?_filter]

namespace Table

variable {ρ : Type u} {κ : Type v} {key : ρ → κ} [DecidableEq κ]

theorem find_eq_some_iff {T : Table ρ key} {k : κ} {r : ρ} :
  T.find k = some r ↔ r ∈ T.rows ∧ key r = k
  := by
  constructor
  · intro h
    exact ⟨mem_of_find h, key_of_find h⟩
  · rintro ⟨h, rfl⟩
    apply find_of_mem h

/-- The row of a key satisfies a condition if some row does and has this key. -/
theorem find_any_iff {T : Table ρ key} {k : κ} {p : ρ → Bool} :
  (T.find k).any p = true ↔ ∃ r ∈ T.rows, key r = k ∧ p r = true
  := by
  rw [Option.any_eq_true]
  constructor
  · rintro ⟨r, h, hp⟩
    exact ⟨r, mem_of_find h, key_of_find h, hp⟩
  · rintro ⟨r, h, rfl, hp⟩
    exact ⟨r, find_of_mem h, hp⟩

end Table

namespace Serial

variable {ρ : Type u} {key : ρ → ℕ} {T : Serial ρ key} {p q : ρ → Bool}

/-- The key of a row that is found was handed out. -/
theorem lt_of_find {k : ℕ} {r : ρ} (h : T.find k = some r) :
  k < T.next
  := by
  rw [← Table.key_of_find h]
  apply T.lt_next r (Table.mem_of_find h)

theorem lt_of_isSome_find {k : ℕ} (h : (T.find k).isSome = true) :
  k < T.next
  := by
  obtain ⟨r, hr⟩ := Option.isSome_iff_exists.mp h
  apply lt_of_find hr

/-- A row of a table whose rows were rewritten, with the row that it comes from. -/
theorem exists_of_mem_update {f : ρ → ρ} {hf : ∀ r, key (f r) = key r} {r : ρ}
    (h : r ∈ (T.update q f hf).rows) :
  ∃ r' ∈ T.rows, r = r' ∨ (q r' = true ∧ r = f r')
  := by
  obtain ⟨r', hr', rfl⟩ := List.mem_map.mp h
  refine ⟨r', hr', ?_⟩
  split
  · rename_i hq
    exact .inr ⟨hq, rfl⟩
  · exact .inl rfl

theorem filter_insert {mk : ℕ → ρ} {h : ∀ n, key (mk n) = n} (hp : p (mk T.next) = false) :
  (T.insert mk h).rows.filter p = T.rows.filter p
  := by
  rw [rows_insert, List.filter_append, List.filter_cons_of_neg (by simp [hp]), List.filter_nil,
    List.append_nil]

theorem filter_delete (hp : ∀ r ∈ T.rows, q r = true → p r = false) :
  (T.delete q).rows.filter p = T.rows.filter p
  := by
  change (T.rows.filter fun r => !q r).filter p = _
  rw [List.filter_filter]
  apply List.filter_congr
  intro r hr
  cases hq : q r with
  | false => simp
  | true => simp [hp r hr hq]

theorem filter_update {f : ρ → ρ} {hf : ∀ r, key (f r) = key r}
    (hp : ∀ r ∈ T.rows, q r = true → p r = false ∧ p (f r) = false) :
  (T.update q f hf).rows.filter p = T.rows.filter p
  := by
  change (T.rows.map fun r => if q r then f r else r).filter p = _
  rw [List.filter_map]
  have hrows : T.rows.filter (p ∘ fun r => if q r then f r else r) = T.rows.filter p := by
    apply List.filter_congr
    intro r hr
    cases hq : q r with
    | false => simp [hq]
    | true => simp [hq, hp r hr hq]
  rw [hrows]
  conv_rhs => rw [← List.map_id (T.rows.filter p)]
  apply List.map_congr_left
  intro r hr
  obtain ⟨hr, hpr⟩ := List.mem_filter.mp hr
  cases hq : q r with
  | false => simp
  | true =>
      rw [(hp r hr hq).1] at hpr
      contradiction

/-- A row that does not satisfy a condition is inserted, so the same keys are found. -/
theorem find_any_insert {mk : ℕ → ρ} {h : ∀ n, key (mk n) = n} (hp : p (mk T.next) = false) (k : ℕ) :
  ((T.insert mk h).find k).any p = (T.find k).any p
  := by
  rw [find_insert]
  split
  · rename_i hk
    rw [hk, T.find_next, Option.any_some, hp, Option.any_none]
  · rfl

theorem find_any_insert_of_lt {mk : ℕ → ρ} {h : ∀ n, key (mk n) = n} {k : ℕ} (hk : k < T.next) :
  ((T.insert mk h).find k).any p = (T.find k).any p
  := by rw [find_insert, if_neg hk.ne]

theorem find_any_update {f : ρ → ρ} {hf : ∀ r, key (f r) = key r}
    (hp : ∀ r, q r = true → p (f r) = p r) (k : ℕ) :
  ((T.update q f hf).find k).any p = (T.find k).any p
  := by
  rw [find_update, Option.any_map]
  congr 1
  funext r
  split
  · rename_i hq
    apply hp r hq
  · rfl

theorem find_any_delete (hp : ∀ r ∈ T.rows, q r = true → p r = false) (k : ℕ) :
  ((T.delete q).find k).any p = (T.find k).any p
  := by
  change (Table.find (Table.delete T.toTable q) k).any p = _
  rw [Table.find_delete]
  cases hk : T.find k with
  | none => rfl
  | some r =>
      cases hq : q r with
      | false => simp [Option.filter, hq]
      | true => simp [Option.filter, hq, hp r (Table.mem_of_find hk) hq]

/-- A row that is not deleted is found as before. -/
theorem find_delete_of_not {k : ℕ} (hq : ∀ r, key r = k → q r = false) :
  (T.delete q).find k = T.find k
  := by
  change Table.find (Table.delete T.toTable q) k = _
  rw [Table.find_delete]
  cases hk : T.find k with
  | none => rfl
  | some r => simp [Option.filter, hq r (Table.key_of_find hk)]

/-- What is found after a deletion was found before. -/
theorem find_of_find_delete {k : ℕ} {r : ρ} (h : (T.delete q).find k = some r) :
  T.find k = some r
  := by
  obtain ⟨hr, hk⟩ := Table.find_eq_some_iff.mp h
  exact Table.find_eq_some_iff.mpr ⟨List.mem_of_mem_filter hr, hk⟩

/-- What is found after a deletion was found before. -/
theorem any_of_find_delete {k : ℕ} (h : ((T.delete q).find k).any p = true) :
  (T.find k).any p = true
  := by
  obtain ⟨r, hr, hk, hp⟩ := Table.find_any_iff.mp h
  exact Table.find_any_iff.mpr ⟨r, List.mem_of_mem_filter hr, hk, hp⟩

end Serial
