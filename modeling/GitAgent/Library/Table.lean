import Mathlib.Data.List.Nodup
import Mathlib.Data.List.Lemmas
import Mathlib.Order.Basic

/-!
# Tables with a primary key

A `Table ρ key` is a list of rows with pairwise different keys. `find` reads the row of a
key, `update` rewrites the rows that satisfy a condition without changing their keys,
`insert` appends a row with a new key and `delete` removes rows. In a `Serial` table the
keys are numbers handed out in increasing order and never reused, so the rows stay sorted by
key.
-/

universe u v

/-- Every element on the right is related to one on the left. -/
theorem List.Forall₂.exists_of_mem {α β : Type*} {R : α → β → Prop} {as : List α} {bs : List β}
    (h : List.Forall₂ R as bs) {b : β} (hb : b ∈ bs) :
  ∃ a ∈ as, R a b
  := by
  induction h with
  | nil => contradiction
  | @cons a _ as _ hab _ ih =>
      rcases List.mem_cons.mp hb with rfl | hb
      · exact ⟨a, List.mem_cons_self .., hab⟩
      · obtain ⟨a', ha', h⟩ := ih hb
        exact ⟨a', List.mem_cons_of_mem _ ha', h⟩

/-- Every element on the left is related to one on the right. -/
theorem List.Forall₂.exists_of_mem_left {α β : Type*} {R : α → β → Prop} {as : List α}
    {bs : List β} (h : List.Forall₂ R as bs) {a : α} (ha : a ∈ as) :
  ∃ b ∈ bs, R a b
  := h.flip.exists_of_mem ha

/-- The composition of the relations between three lists. -/
theorem List.Forall₂.comp {α β γ : Type*} {R : α → β → Prop} {S : β → γ → Prop} {as : List α}
    {bs : List β} {cs : List γ} (h : List.Forall₂ R as bs) (h' : List.Forall₂ S bs cs) :
  List.Forall₂ (fun a c => ∃ b, R a b ∧ S b c) as cs
  := by
  induction h generalizing cs with
  | nil =>
      cases h'
      exact .nil
  | cons hab _ ih =>
      cases h' with
      | cons hbc h' => exact .cons ⟨_, hab, hbc⟩ (ih h')

/-- A table of rows `ρ` with the primary key `key`. -/
structure Table (ρ : Type u) {κ : Type v} (key : ρ → κ) where
  rows : List ρ
  nodup : (rows.map key).Nodup

namespace Table

variable {ρ : Type u} {κ : Type v} {key : ρ → κ}

/-- The table without rows. -/
def empty : Table ρ key :=
  ⟨[], List.nodup_nil⟩

/-- Rewriting the rows that satisfy `p`; their keys stay. -/
def update (T : Table ρ key) (p : ρ → Bool) (f : ρ → ρ) (hf : ∀ r, key (f r) = key r) :
    Table ρ key where
  rows := T.rows.map fun r => if p r then f r else r
  nodup := by
    rw [List.map_map]
    convert T.nodup using 2
    funext r
    simp only [Function.comp_apply]
    split
    · apply hf
    · rfl

theorem mem_update {T : Table ρ key} {p : ρ → Bool} {f : ρ → ρ}
    {hf : ∀ r, key (f r) = key r} {r : ρ} :
  r ∈ (T.update p f hf).rows ↔ ∃ r' ∈ T.rows, (if p r' then f r' else r') = r
  := by simp [update]

/-- Removing the rows that satisfy `p`. -/
def delete (T : Table ρ key) (p : ρ → Bool) : Table ρ key where
  rows := T.rows.filter fun r => !p r
  nodup := (List.filter_sublist.map _).nodup T.nodup

variable [DecidableEq κ]

/-- The row with the key `k`. -/
def find (T : Table ρ key) (k : κ) : Option ρ :=
  T.rows.find? fun r => key r = k

/-- A row that is found has the key it was sought by. -/
theorem key_of_find {T : Table ρ key} {k : κ} {r : ρ} (h : T.find k = some r) :
  key r = k
  := by simpa using List.find?_some h

theorem mem_of_find {T : Table ρ key} {k : κ} {r : ρ} (h : T.find k = some r) :
  r ∈ T.rows
  := List.mem_of_find?_eq_some h

theorem find_eq_none_iff {T : Table ρ key} {k : κ} :
  T.find k = none ↔ ∀ r ∈ T.rows, key r ≠ k
  := by simp [find]

/-- Every row of the table is the row of its key. -/
theorem find_of_mem {T : Table ρ key} {r : ρ} (h : r ∈ T.rows) :
  T.find (key r) = some r
  := by
  cases hf : T.find (key r) with
  | none => apply absurd rfl (find_eq_none_iff.mp hf r h)
  | some r' =>
      congr 1
      apply List.inj_on_of_nodup_map T.nodup (mem_of_find hf) h (key_of_find hf)

/-- Appending a row with a new key. -/
def insert (T : Table ρ key) (r : ρ) (h : T.find (key r) = none) : Table ρ key where
  rows := T.rows ++ [r]
  nodup := by
    rw [List.map_append, List.nodup_append]
    refine ⟨T.nodup, by simp, ?_⟩
    intro a ha b hb
    obtain ⟨r', hr', rfl⟩ := List.mem_map.mp ha
    obtain rfl : b = key r := by simpa using hb
    apply find_eq_none_iff.mp h r' hr'

@[simp]
theorem find_empty (k : κ) :
  (empty : Table ρ key).find k = none
  := rfl

theorem find_update (T : Table ρ key) (p : ρ → Bool) (f : ρ → ρ)
    (hf : ∀ r, key (f r) = key r) (k : κ) :
  (T.update p f hf).find k = (T.find k).map fun r => if p r then f r else r
  := by
  simp only [find, update, List.find?_map]
  congr 2
  funext r
  simp only [Function.comp_apply]
  split
  · rw [hf]
  · rfl

theorem find_insert (T : Table ρ key) (r : ρ) (h : T.find (key r) = none) (k : κ) :
  (T.insert r h).find k = if k = key r then some r else T.find k
  := by
  simp only [find, insert, List.find?_append]
  by_cases e : k = key r
  · subst e
    rw [find] at h
    simp [h]
  · have e' : ¬ key r = k := fun he => e he.symm
    simp [e, e']

/-- A row that is not deleted is found as before. -/
theorem find_delete (T : Table ρ key) (p : ρ → Bool) (k : κ) :
  (T.delete p).find k = (T.find k).filter fun r => !p r
  := by
  cases h : T.find k with
  | none =>
      apply find_eq_none_iff.mpr
      intro r hr
      apply find_eq_none_iff.mp h r (List.mem_of_mem_filter hr)
  | some r =>
      obtain rfl := key_of_find h
      cases hp : p r with
      | false =>
          simp only [Option.filter, hp]
          apply find_of_mem
          rw [delete, List.mem_filter, hp]
          exact ⟨mem_of_find h, rfl⟩
      | true =>
          simp only [Option.filter, hp]
          apply find_eq_none_iff.mpr
          intro r' hr' e
          obtain ⟨hr', hp'⟩ := List.mem_filter.mp hr'
          have := find_of_mem hr'
          rw [e, h] at this
          obtain rfl := Option.some.inj this
          rw [hp] at hp'
          contradiction

end Table

/-- A table whose keys are handed out in increasing order. -/
structure Serial (ρ : Type u) (key : ρ → ℕ) extends Table ρ key where
  next : ℕ
  lt_next : ∀ r ∈ rows, key r < next
  sorted : rows.Pairwise fun r r' => key r < key r'

namespace Serial

variable {ρ : Type u} {key : ρ → ℕ}

/-- The table without rows, whose first key will be `1`. -/
def empty : Serial ρ key where
  toTable := Table.empty
  next := 1
  lt_next := by simp [Table.empty]
  sorted := List.Pairwise.nil

/-- Rewriting the rows that satisfy `p`; their keys stay. -/
def update (T : Serial ρ key) (p : ρ → Bool) (f : ρ → ρ) (hf : ∀ r, key (f r) = key r) :
    Serial ρ key where
  toTable := T.toTable.update p f hf
  next := T.next
  lt_next := by
    intro r hr
    obtain ⟨r', hr', rfl⟩ := Table.mem_update.mp hr
    split
    · rw [hf]
      apply T.lt_next r' hr'
    · apply T.lt_next r' hr'
  sorted := by
    have hk : ∀ r, key (if p r then f r else r) = key r := by
      intro r
      split
      · apply hf
      · rfl
    simp only [Table.update, List.pairwise_map, hk]
    apply T.sorted

/-- Removing the rows that satisfy `p`. -/
def delete (T : Serial ρ key) (p : ρ → Bool) : Serial ρ key where
  toTable := T.toTable.delete p
  next := T.next
  lt_next r hr := T.lt_next r (List.mem_of_mem_filter hr)
  sorted := T.sorted.filter _

/-- The next key is not in use. -/
theorem find_next (T : Serial ρ key) :
  T.find T.next = none
  := by
  apply Table.find_eq_none_iff.mpr
  intro r hr
  apply (T.lt_next r hr).ne

/-- Appending the row that `mk` makes of the next key. -/
def insert (T : Serial ρ key) (mk : ℕ → ρ) (h : ∀ n, key (mk n) = n) : Serial ρ key where
  toTable := T.toTable.insert (mk T.next) (by rw [h]; apply T.find_next)
  next := T.next + 1
  lt_next := by
    intro r hr
    rcases List.mem_append.mp hr with hr | hr
    · apply Nat.lt_succ_of_lt (T.lt_next r hr)
    · obtain rfl : r = mk T.next := by simpa using hr
      rw [h]
      apply Nat.lt_succ_self
  sorted := by
    simp only [Table.insert, List.pairwise_append]
    refine ⟨T.sorted, by simp, ?_⟩
    intro r hr r' hr'
    obtain rfl : r' = mk T.next := by simpa using hr'
    rw [h]
    apply T.lt_next r hr

theorem rows_insert (T : Serial ρ key) (mk : ℕ → ρ) (h : ∀ n, key (mk n) = n) :
  (T.insert mk h).rows = T.rows ++ [mk T.next]
  := rfl

theorem find_insert (T : Serial ρ key) (mk : ℕ → ρ) (h : ∀ n, key (mk n) = n) (k : ℕ) :
  (T.insert mk h).find k = if k = T.next then some (mk T.next) else T.find k
  := by
  rw [insert]
  simp only [Table.find_insert, h]

/-- The rows that come after those of another table have other keys. -/
theorem key_ne_of_append {T T' : Serial ρ key} {rows : List ρ} (h : T'.rows = T.rows ++ rows)
    {r r' : ρ} (hr : r ∈ T.rows) (hr' : r' ∈ rows) :
  key r ≠ key r'
  := by
  have hs := T'.sorted
  rw [h] at hs
  apply ((List.pairwise_append.mp hs).2.2 r hr r' hr').ne

/-- Appending a row for each `a` in a list. -/
def insertAll {α : Type*} (T : Serial ρ key) (mk : α → ℕ → ρ) (h : ∀ a n, key (mk a n) = n) :
    List α → Serial ρ key
  | [] => T
  | a :: as => (T.insert (mk a) (h a)).insertAll mk h as

/-- The rows that `insertAll` appends, one for each `a` in the list. -/
theorem rows_insertAll {α : Type*} (T : Serial ρ key) (mk : α → ℕ → ρ)
    (h : ∀ a n, key (mk a n) = n) (as : List α) :
  ∃ rows, (T.insertAll mk h as).rows = T.rows ++ rows ∧
    List.Forall₂ (fun a r => ∃ n, r = mk a n) as rows
  := by
  induction as generalizing T with
  | nil => exact ⟨[], (List.append_nil _).symm, .nil⟩
  | cons a as ih =>
      obtain ⟨rows, hr, hf⟩ := ih (T.insert (mk a) (h a))
      use mk a T.next :: rows
      constructor
      · rw [insertAll, hr, rows_insert, List.append_assoc]
        rfl
      · exact .cons ⟨_, rfl⟩ hf

theorem find_update (T : Serial ρ key) (p : ρ → Bool) (f : ρ → ρ)
    (hf : ∀ r, key (f r) = key r) (k : ℕ) :
  (T.update p f hf).find k = (T.find k).map fun r => if p r then f r else r
  := Table.find_update T.toTable p f hf k

end Serial
