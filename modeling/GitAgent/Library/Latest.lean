import Mathlib.Algebra.GroupWithZero.Nat
import Mathlib.Algebra.Order.Group.Nat
import Mathlib.Algebra.Order.BigOperators.Group.List

/-!
# The last versions

A sequence in which an entry can have a key, and is replaced by the entries with its key that come
after it. What is left are the last versions, and the entries without a key.
-/

namespace Latest

variable {α κ : Type} [DecidableEq κ] (key : α → Option κ)

/-- Whether an entry with a key has a later version. -/
def replaced (after : List α) (a : α) : Bool :=
  (key a).isSome && after.any fun b => key b = key a

/-- The entries of a list that are not replaced in it or in what comes after it. -/
def latest (after : List α) : List α → List α
  | [] => []
  | a :: as => if replaced key (as ++ after) a then latest after as else a :: latest after as

variable {key}

theorem replaced_iff {after : List α} {a : α} :
  replaced key after a = true ↔ (key a).isSome ∧ ∃ b ∈ after, key b = key a
  := by simp [replaced]

theorem latest_append (after as bs : List α) :
  latest key after (as ++ bs) = latest key (bs ++ after) as ++ latest key after bs
  := by
  induction as with
  | nil => rfl
  | cons a as ih =>
      rw [List.cons_append, latest, latest, ih, List.append_assoc]
      split <;> rfl

theorem latest_sublist (after as : List α) :
  (latest key after as).Sublist as
  := by
  induction as with
  | nil => apply List.Sublist.refl
  | cons a as ih =>
      rw [latest]
      split
      · apply ih.cons
      · apply ih.cons_cons

/-- Whether every entry that is replaced satisfies `P`. -/
def EachReplaced (key : α → Option κ) (P : α → Prop) (as : List α) : Prop :=
  ∀ before a after, as = before ++ a :: after → replaced key after a = true → P a

/-- The entries that are replaced in a list after a first one, and that one. -/
theorem eachReplaced_cons {P : α → Prop} {a : α} {as : List α} :
  EachReplaced key P (a :: as) ↔ (replaced key as a = true → P a) ∧ EachReplaced key P as
  := by
  constructor
  · intro h
    constructor
    · apply h [] a as rfl
    · rintro before b after rfl
      apply h (a :: before) b after rfl
  · rintro ⟨ha, has⟩ before b after h
    cases before with
    | nil =>
        obtain ⟨rfl, rfl⟩ := List.cons.inj h
        apply ha
    | cons c before => apply has before b after (List.cons.inj h).2

/-- Weights add up to the same over the last versions exactly if what is replaced has none. -/
theorem sum_latest_eq_iff (w : α → ℕ) (as : List α) :
  ((latest key [] as).map w).sum = (as.map w).sum ↔ EachReplaced key (fun a => w a = 0) as
  := by
  induction as with
  | nil =>
      apply iff_of_true rfl
      rintro (_ | _) _ _ h <;> contradiction
  | cons a as ih =>
      have hle : ((latest key [] as).map w).sum ≤ (as.map w).sum :=
        ((latest_sublist [] as).map w).sum_le_sum (by simp)
      rw [eachReplaced_cons, ← ih, latest, List.append_nil]
      split
      · rename_i h
        rw [imp_iff_right h, List.map_cons, List.sum_cons]
        omega
      · rename_i h
        rw [List.map_cons, List.map_cons, List.sum_cons, List.sum_cons, Nat.add_left_cancel_iff]
        simp [h]

/-- Nothing changes if nothing is replaced. -/
theorem latest_eq_self {as : List α} (h : EachReplaced key (fun _ => False) as) :
  latest key [] as = as
  := by
  induction as with
  | nil => rfl
  | cons a as ih =>
      obtain ⟨ha, has⟩ := eachReplaced_cons.mp h
      rw [latest, List.append_nil, if_neg ha, ih has]

/-- Each key has a last version. -/
theorem exists_latest {as : List α} {a : α} (h : a ∈ as) (hkey : (key a).isSome) :
  ∃ b ∈ latest key [] as, key b = key a
  := by
  induction as generalizing a with
  | nil => contradiction
  | cons c as ih =>
      rw [latest, List.append_nil]
      rcases List.mem_cons.mp h with rfl | h
      · by_cases hr : replaced key as a = true
        · obtain ⟨-, b, hb, hba⟩ := replaced_iff.mp hr
          obtain ⟨b', hb', hbb'⟩ := ih hb (hba ▸ hkey)
          rw [if_pos hr]
          exact ⟨b', hb', hbb'.trans hba⟩
        · rw [if_neg hr]
          exact ⟨a, List.mem_cons_self, rfl⟩
      · obtain ⟨b, hb, hba⟩ := ih h hkey
        split
        · exact ⟨b, hb, hba⟩
        · exact ⟨b, List.mem_cons_of_mem c hb, hba⟩

/-- A key has one last version. -/
theorem latest_unique {as : List α} {a b : α} (ha : a ∈ latest key [] as)
    (hb : b ∈ latest key [] as) (hkey : (key a).isSome) (h : key a = key b) :
  a = b
  := by
  induction as with
  | nil => contradiction
  | cons c as ih =>
      rw [latest, List.append_nil] at ha hb
      split at ha
      · rename_i hr
        rw [if_pos hr] at hb
        apply ih ha hb
      · rename_i hr
        rw [if_neg hr] at hb
        have hno : ∀ d ∈ latest key [] as, (key c).isSome → key d ≠ key c := by
          intro d hd hc e
          exact hr (replaced_iff.mpr ⟨hc, d, (latest_sublist [] as).subset hd, e⟩)
        rcases List.mem_cons.mp ha with hac | hmem
        · rcases List.mem_cons.mp hb with hbc | hmem
          · rw [hac, hbc]
          · rw [hac] at h hkey
            apply absurd h.symm (hno b hmem hkey)
        · rcases List.mem_cons.mp hb with hbc | hmem'
          · rw [hbc] at h
            apply absurd h (hno a hmem (h ▸ hkey))
          · apply ih hmem hmem'

end Latest
