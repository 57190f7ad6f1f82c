import Mathlib.Data.List.DropRight
import Mathlib.Data.List.TakeWhile

/-!
# Trimming

A list without the elements at its ends that satisfy a predicate. It begins and ends with an
element that does not, and such a list is left as it is. Where a space has more than one element,
what is dropped at an end is one space after the other (`peel`).
-/

namespace Trim

variable {α : Type} {p : α → Bool}

/-- The list without the elements that satisfy `p` at its two ends. -/
def trim (p : α → Bool) (as : List α) : List α :=
  (as.dropWhile p).rdropWhile p

/-- No element that satisfies `p` stands at an end. -/
structure Bare (p : α → Bool) (as : List α) : Prop where
  head : ∀ a ∈ as.head?, p a = false
  last : ∀ a ∈ as.getLast?, p a = false

theorem bare_nil :
  Bare p []
  := by constructor <;> rintro a ⟨⟩

/-- A list is bare if what stands at its ends does not satisfy `p`. -/
theorem bare_of_any {as : List α} (h : (as.head?.any p || as.getLast?.any p) = false) :
  Bare p as
  := by
  obtain ⟨hhead, hlast⟩ := Bool.or_eq_false_iff.mp h
  constructor
  · intro a ha
    rwa [ha] at hhead
  · intro a ha
    rwa [ha] at hlast

theorem dropWhile_of_head {as : List α} (h : ∀ a ∈ as.head?, p a = false) :
  as.dropWhile p = as
  := by
  cases as with
  | nil => rfl
  | cons a as => rw [List.dropWhile_cons_of_neg (by simp [h a rfl])]

theorem head_dropWhile {as : List α} :
  ∀ a ∈ (as.dropWhile p).head?, p a = false
  := by
  induction as with
  | nil => rintro a ⟨⟩
  | cons b as ih =>
      rw [List.dropWhile_cons]
      split
      · apply ih
      · rename_i h
        rintro a ⟨⟩
        exact Bool.eq_false_iff.mpr h

theorem rdropWhile_of_last {as : List α} (h : ∀ a ∈ as.getLast?, p a = false) :
  as.rdropWhile p = as
  := by
  rw [List.rdropWhile, dropWhile_of_head, List.reverse_reverse]
  rwa [List.head?_reverse]

theorem last_rdropWhile {as : List α} :
  ∀ a ∈ (as.rdropWhile p).getLast?, p a = false
  := by
  rw [List.rdropWhile, List.getLast?_reverse]
  apply head_dropWhile

/-- What begins a list still begins it when its end is dropped, if anything is left. -/
theorem head_rdropWhile {as : List α} {a : α} (h : a ∈ (as.rdropWhile p).head?) :
  a ∈ as.head?
  := by
  obtain ⟨bs, hbs⟩ := List.rdropWhile_prefix p as
  rw [← hbs]
  cases hd : as.rdropWhile p with
  | nil =>
      rw [hd] at h
      contradiction
  | cons b cs => rwa [hd] at h

/-- A list that is trimmed is bare. -/
theorem bare_trim (p : α → Bool) (as : List α) :
  Bare p (trim p as)
  := by
  constructor
  · intro a ha
    apply head_dropWhile a (head_rdropWhile ha)
  · apply last_rdropWhile

/-- A bare list is left as it is. -/
theorem trim_of_bare {as : List α} (h : Bare p as) :
  trim p as = as
  := by rw [trim, dropWhile_of_head h.head, rdropWhile_of_last h.last]

theorem trim_eq_self_iff {as : List α} :
  trim p as = as ↔ Bare p as
  := by
  constructor
  · intro h
    rw [← h]
    apply bare_trim
  · apply trim_of_bare

@[simp]
theorem trim_trim (as : List α) :
  trim p (trim p as) = trim p as
  := trim_of_bare (bare_trim p as)

/-- What comes before an element that stays is not dropped. -/
theorem rdropWhile_append {as : List α} (h : ∀ a ∈ as.getLast?, p a = false) (bs : List α) :
  (as ++ bs).rdropWhile p = as ++ bs.rdropWhile p
  := by
  have hreverse : as.reverse.dropWhile p = as.reverse := by
    apply dropWhile_of_head
    rwa [List.head?_reverse]
  rw [List.rdropWhile, List.reverse_append, List.dropWhile_append, List.rdropWhile]
  split
  · rename_i hempty
    rw [List.isEmpty_iff] at hempty
    rw [hempty, hreverse, List.reverse_reverse, List.reverse_nil, List.append_nil]
  · rw [List.reverse_append, List.reverse_reverse]

theorem trim_subset (as : List α) :
  trim p as ⊆ as
  := fun _ ha => List.dropWhile_subset p ((List.rdropWhile_prefix p _).subset ha)

/-- What does not satisfy the predicate is not dropped. -/
theorem filter_trim (as : List α) :
  (trim p as).filter (!p ·) = as.filter (!p ·)
  := by
  have hdrop : ∀ as : List α, (as.dropWhile p).filter (!p ·) = as.filter (!p ·) := by
    intro as
    induction as with
    | nil => rfl
    | cons a as ih =>
        rw [List.dropWhile_cons, List.filter_cons]
        cases h : p a with
        | true => simpa using ih
        | false => simp [h]
  rw [trim, List.rdropWhile, List.filter_reverse, hdrop, ← List.filter_reverse,
    List.reverse_reverse, hdrop]

/-- A list is bare if it begins and ends as bare lists that are not empty. -/
theorem Bare.append {as bs cs : List α} (ha : Bare p as) (hc : Bare p cs) (has : as ≠ [])
    (hcs : cs ≠ []) :
  Bare p (as ++ bs ++ cs)
  := by
  constructor
  · obtain ⟨a, as, rfl⟩ := List.exists_cons_of_ne_nil has
    apply ha.head
  · rw [List.getLast?_append_of_ne_nil _ hcs]
    apply hc.last

/-- What is dropped satisfies the predicate. -/
theorem exists_trim (as : List α) :
  ∃ before after, as = before ++ trim p as ++ after ∧ ∀ a ∈ before ++ after, p a = true
  := by
  have hreverse := List.takeWhile_append_dropWhile (p := p) (l := (as.dropWhile p).reverse)
  refine ⟨as.takeWhile p, ((as.dropWhile p).reverse.takeWhile p).reverse, ?_, ?_⟩
  · rw [trim, List.rdropWhile, List.append_assoc, ← List.reverse_append, hreverse,
      List.reverse_reverse, List.takeWhile_append_dropWhile]
  · intro a ha
    rcases List.mem_append.mp ha with ha | ha
    · exact List.mem_takeWhile_imp ha
    · exact List.mem_takeWhile_imp (List.mem_reverse.mp ha)

/-- A bare list is what is left of it between elements that satisfy the predicate. -/
theorem trim_append {before as after : List α} (h : Bare p as)
    (hp : ∀ a ∈ before ++ after, p a = true) :
  trim p (before ++ as ++ after) = as
  := by
  obtain ⟨hbefore, hafter⟩ := List.forall_mem_append.mp hp
  have hnil : after.rdropWhile p = [] := List.rdropWhile_eq_nil_iff.mpr hafter
  rw [trim, List.append_assoc, List.dropWhile_append_of_pos hbefore]
  cases as with
  | nil => rw [List.nil_append, List.dropWhile_eq_nil_iff.mpr hafter, List.rdropWhile_nil]
  | cons a as =>
      rw [dropWhile_of_head, rdropWhile_append h.last, hnil, List.append_nil]
      exact h.head

/-- What stands before and after an element that stays is trimmed at its outer end. -/
theorem trim_append_cons {as bs : List α} {a : α} (ha : p a = false) :
  trim p (as ++ a :: bs) = as.dropWhile p ++ a :: bs.rdropWhile p
  := by
  have hdrop : (as ++ a :: bs).dropWhile p = as.dropWhile p ++ a :: bs := by
    rw [List.dropWhile_append]
    split
    · rename_i hempty
      rw [List.isEmpty_iff.mp hempty, List.nil_append, List.dropWhile_cons_of_neg (by simp [ha])]
    · rfl
  have hlast : ∀ b ∈ (as.dropWhile p ++ [a]).getLast?, p b = false := by
    rw [List.getLast?_concat]
    rintro _ ⟨⟩
    exact ha
  rw [trim, hdrop, List.append_cons, rdropWhile_append hlast, ← List.append_cons]

/-- What is dropped at the begin of a list and an element that is dropped after it. -/
theorem mem_dropWhile_concat {as : List α} {a b : α} (hb : p b = true) (hne : a ≠ b) :
  a ∈ (as ++ [b]).dropWhile p ↔ a ∈ as.dropWhile p
  := by
  rw [List.dropWhile_append]
  split
  · rename_i hempty
    rw [List.isEmpty_iff.mp hempty, List.dropWhile_cons_of_pos hb, List.dropWhile_nil]
  · rw [List.mem_append, List.mem_singleton, or_iff_left hne]

theorem mem_rdropWhile_cons {as : List α} {a b : α} (hb : p b = true) (hne : a ≠ b) :
  a ∈ (b :: as).rdropWhile p ↔ a ∈ as.rdropWhile p
  := by
  rw [List.rdropWhile, List.rdropWhile, List.mem_reverse, List.mem_reverse, List.reverse_cons,
    mem_dropWhile_concat hb hne]

/-- Elements can be replaced before or after a list is trimmed, if those that are dropped are
replaced by such ones, and others by lists that are bare. -/
theorem trim_flatMap {β : Type} {q : β → Bool} {f : α → List β}
    (hdrop : ∀ a, p a = true → ∀ b ∈ f a, q b = true)
    (hkeep : ∀ a, p a = false → f a ≠ [] ∧ Bare q (f a)) (as : List α) :
  trim q (as.flatMap f) = (trim p as).flatMap f
  := by
  obtain ⟨before, after, has, hall⟩ := exists_trim (p := p) as
  have hbare := bare_trim p as
  have hends : Bare q ((trim p as).flatMap f) := by
    constructor
    · cases htrim : trim p as with
      | nil => rintro b ⟨⟩
      | cons a cs =>
          obtain ⟨hne, hf⟩ := hkeep a (hbare.head a (by rw [htrim]; rfl))
          rw [List.flatMap_cons, List.head?_append_of_ne_nil _ hne]
          exact hf.head
    · obtain htrim | ⟨cs, a, htrim⟩ := (trim p as).eq_nil_or_concat'
      · rw [htrim]
        rintro b ⟨⟩
      · obtain ⟨hne, hf⟩ := hkeep a (hbare.last a (by rw [htrim, List.getLast?_concat]; rfl))
        rw [htrim, List.flatMap_append, List.flatMap_singleton, List.getLast?_append_of_ne_nil _ hne]
        exact hf.last
  conv_lhs => rw [has, List.flatMap_append, List.flatMap_append]
  apply trim_append hends
  intro b hb
  rw [← List.flatMap_append] at hb
  obtain ⟨a, ha, hb⟩ := List.mem_flatMap.mp hb
  exact hdrop a (hall a ha) b hb

/-! ### Spaces of several elements -/

section

variable [DecidableEq α]

/-- The list without the spaces at its beginning, at most `n` of them. -/
def peel (spaces : List (List α)) : ℕ → List α → List α
  | 0, as => as
  | n + 1, as =>
      match spaces.find? fun space => space.isPrefixOf as with
      | some space => peel spaces n (as.drop space.length)
      | none => as

variable {spaces : List (List α)}

/-- What is dropped is made of spaces. -/
theorem exists_peel (n : ℕ) (as : List α) :
  ∃ dropped, as = dropped ++ peel spaces n as ∧ ∀ a ∈ dropped, ∃ space ∈ spaces, a ∈ space
  := by
  induction n generalizing as with
  | zero => exact ⟨[], rfl, List.forall_mem_nil _⟩
  | succ n ih =>
      rw [peel]
      split
      · rename_i space hspace
        have hstart : space <+: as := by simpa using List.find?_some hspace
        obtain ⟨rest, rfl⟩ := hstart
        obtain ⟨dropped, hdropped, hall⟩ := ih rest
        rw [List.drop_left]
        use space ++ dropped
        constructor
        · rw [List.append_assoc, ← hdropped]
        · intro a ha
          rcases List.mem_append.mp ha with ha | ha
          · exact ⟨space, List.mem_of_find?_eq_some hspace, ha⟩
          · exact hall a ha
      · exact ⟨[], rfl, List.forall_mem_nil _⟩

/-- A list that begins with no space is left as it is. -/
theorem peel_of_forall {as : List α} (h : ∀ space ∈ spaces, ¬ space <+: as) (n : ℕ) :
  peel spaces n as = as
  := by
  cases n with
  | zero => rfl
  | succ n =>
      have hfind : spaces.find? (fun space => space.isPrefixOf as) = none := by
        rw [List.find?_eq_none]
        exact fun space hspace hstart => h space hspace (List.isPrefixOf_iff_prefix.mp hstart)
      rw [peel, hfind]

/-- A space at the beginning is dropped. -/
theorem length_peel_lt {as space : List α} (hspace : space ∈ spaces) (hstart : space <+: as)
    (hne : ∀ space ∈ spaces, space ≠ []) {n : ℕ} (hn : n ≠ 0) :
  (peel spaces n as).length < as.length
  := by
  obtain ⟨n, rfl⟩ := Nat.exists_eq_succ_of_ne_zero hn
  rw [peel]
  split
  · rename_i space' hspace'
    have hstart' : space' <+: as := by simpa using List.find?_some hspace'
    obtain ⟨rest, rfl⟩ := hstart'
    obtain ⟨dropped, hdropped, -⟩ := @exists_peel _ _ spaces n rest
    have hlength := congrArg List.length hdropped
    have hpos := List.length_pos_of_ne_nil (hne space' (List.mem_of_find?_eq_some hspace'))
    rw [List.length_append] at hlength
    rw [List.drop_left, List.length_append]
    omega
  · rename_i hnone
    have hnot := List.find?_eq_none.mp hnone space hspace
    exact absurd (List.isPrefixOf_iff_prefix.mpr hstart) hnot

end

end Trim
