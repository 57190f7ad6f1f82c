import Mathlib.Data.List.DropRight
import Mathlib.Order.Basic

/-!
# Pages

A list that is read in pages from its end on. A page with as many elements as the limit is followed
by another one, and only such a page is; so the last page can be empty.
-/

namespace Paging

variable {α : Type}

/-- The pages of a list, from its end on. -/
inductive Pages (limit : ℕ) : List α → List (List α) → Prop
  | last {as : List α} (h : as.length < limit) : Pages limit as [as]
  | more {as page : List α} {pages : List (List α)} (hpage : page.length = limit)
      (h : Pages limit as pages) : Pages limit (as ++ page) (page :: pages)

variable {limit : ℕ} {as : List α} {pages : List (List α)}

/-- **The pages, from the last one on, are the list.** -/
theorem Pages.flatten (h : Pages limit as pages) :
  pages.reverse.flatten = as
  := by
  induction h with
  | last h => simp
  | more hpage h ih => rw [List.reverse_cons, List.flatten_concat, ih]

/-- The number of pages. -/
theorem Pages.length (h : Pages limit as pages) (hlimit : 0 < limit) :
  pages.length = as.length / limit + 1
  := by
  induction h with
  | last h => rw [List.length_singleton, Nat.div_eq_of_lt h]
  | more hpage h ih =>
      rw [List.length_cons, ih, List.length_append, hpage, Nat.add_div_right _ hlimit]

/-- What stands on a page stands in the list. -/
theorem Pages.mem (h : Pages limit as pages) {page : List α} (hpage : page ∈ pages) {a : α}
    (ha : a ∈ page) :
  a ∈ as
  := by
  rw [← h.flatten]
  exact List.mem_flatten.mpr ⟨page, List.mem_reverse.mpr hpage, ha⟩

/-- A relation between the elements of a list and later ones holds on each page. -/
theorem Pages.pairwise {R : α → α → Prop} (h : Pages limit as pages) (hR : as.Pairwise R) :
  ∀ page ∈ pages, page.Pairwise R
  := by
  intro page hpage
  rw [← h.flatten, List.pairwise_flatten] at hR
  exact hR.1 page (List.mem_reverse.mpr hpage)

/-- A relation between the elements of a list and later ones holds between a page and the pages
before it. -/
theorem Pages.pairwise_pages {R : α → α → Prop} (h : Pages limit as pages) (hR : as.Pairwise R) :
  pages.Pairwise fun page page' => ∀ a ∈ page', ∀ b ∈ page, R a b
  := by
  rw [← h.flatten, List.pairwise_flatten, List.pairwise_reverse] at hR
  exact hR.2

/-- A list is its last elements after the others. -/
theorem rdrop_append_rtake (as : List α) (n : ℕ) :
  as.rdrop n ++ as.rtake n = as
  := by rw [List.rdrop, List.rtake, List.take_append_drop]

/-- The last elements are as many as the limit, if there are so many. -/
theorem length_rtake (as : List α) (n : ℕ) :
  (as.rtake n).length = min n as.length
  := by
  rw [List.rtake, List.length_drop]
  omega

/-- The elements of a sorted list with a key below that of one of them are those before it. -/
theorem filter_key_lt {key : α → ℕ} {as bs : List α} {a : α}
    (h : (as ++ a :: bs).Pairwise fun b c => key b < key c) :
  (as ++ a :: bs).filter (fun b => key b < key a) = as
  := by
  obtain ⟨-, hbs, has⟩ := List.pairwise_append.mp h
  have hbefore : as.filter (fun b => key b < key a) = as := by
    rw [List.filter_eq_self]
    exact fun b hb => decide_eq_true (has b hb a List.mem_cons_self)
  have hafter : (a :: bs).filter (fun b => key b < key a) = [] := by
    rw [List.filter_eq_nil_iff]
    intro b hb
    rw [decide_eq_true_eq, not_lt]
    rcases List.mem_cons.mp hb with rfl | hb
    · rfl
    · exact ((List.pairwise_cons.mp hbs).1 b hb).le
  rw [List.filter_append, hbefore, hafter, List.append_nil]

end Paging
