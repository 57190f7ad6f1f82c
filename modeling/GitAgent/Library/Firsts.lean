import Mathlib.Data.List.Nodup
import Mathlib.Algebra.BigOperators.Group.Finset.Basic

/-!
# The first of each key

A list of which of the entries with one key only the first is kept, and none whose key was seen
before the list began.
-/

namespace Firsts

variable {α κ : Type} [DecidableEq κ] (key : α → κ)

/-- The entries whose key has not been seen before. -/
def firsts (seen : List κ) : List α → List α
  | [] => []
  | a :: as => if key a ∈ seen then firsts seen as else a :: firsts (seen ++ [key a]) as

variable {key}

/-- After some entries their keys are seen. -/
theorem firsts_append (seen : List κ) (as bs : List α) :
  firsts key seen (as ++ bs) =
    firsts key seen as ++ firsts key (seen ++ (firsts key seen as).map key) bs
  := by
  induction as generalizing seen with
  | nil => rw [List.nil_append, firsts, List.map_nil, List.append_nil, List.nil_append]
  | cons a as ih =>
      rw [List.cons_append, firsts, firsts]
      split
      · apply ih
      · rw [ih, List.map_cons, List.append_assoc, List.singleton_append, List.cons_append]

/-- Entries whose keys are seen are not kept. -/
theorem firsts_eq_nil {seen : List κ} {as : List α} (h : ∀ a ∈ as, key a ∈ seen) :
  firsts key seen as = []
  := by
  induction as with
  | nil => rfl
  | cons a as ih =>
      obtain ⟨ha, has⟩ := List.forall_mem_cons.mp h
      rw [firsts, if_pos ha, ih has]

/-- The keys that are kept are those that have not been seen before. -/
theorem mem_map_firsts {seen : List κ} {as : List α} {k : κ} :
  k ∈ (firsts key seen as).map key ↔ k ∉ seen ∧ k ∈ as.map key
  := by
  induction as generalizing seen with
  | nil => simp [firsts]
  | cons a as ih =>
      rw [firsts, List.map_cons, List.mem_cons]
      split
      · rename_i ha
        rw [ih]
        constructor
        · exact fun h => ⟨h.1, .inr h.2⟩
        · rintro ⟨hk, rfl | h⟩
          · contradiction
          · exact ⟨hk, h⟩
      · rename_i ha
        rw [List.map_cons, List.mem_cons, ih, List.mem_append, List.mem_singleton, not_or]
        constructor
        · rintro (rfl | ⟨⟨hk, -⟩, h⟩)
          · exact ⟨ha, .inl rfl⟩
          · exact ⟨hk, .inr h⟩
        · rintro ⟨hk, h⟩
          by_cases heq : k = key a
          · exact .inl heq
          · exact .inr ⟨⟨hk, heq⟩, h.resolve_left heq⟩

/-- No key is kept twice. -/
theorem nodup_map_firsts (seen : List κ) (as : List α) :
  ((firsts key seen as).map key).Nodup
  := by
  induction as generalizing seen with
  | nil => apply List.nodup_nil
  | cons a as ih =>
      rw [firsts]
      split
      · apply ih
      · rw [List.map_cons, List.nodup_cons]
        constructor
        · intro h
          apply (mem_map_firsts.mp h).1
          simp
        · apply ih

/-- An entry is kept if it is the first of its key, and the key has not been seen before. -/
theorem mem_firsts_iff {seen : List κ} {as : List α} {a : α} :
  a ∈ firsts key seen as ↔ key a ∉ seen ∧ as.find? (key · = key a) = some a
  := by
  induction as generalizing seen with
  | nil => simp [firsts]
  | cons b as ih =>
      rw [firsts, List.find?_cons]
      by_cases hab : key b = key a
      · rw [decide_eq_true hab, hab]
        split
        · rename_i hseen
          rw [ih]
          simp [hseen]
        · rename_i hseen
          rw [List.mem_cons, ih]
          simp [hseen, eq_comm]
      · rw [decide_eq_false hab]
        split
        · apply ih
        · rw [List.mem_cons, ih, List.mem_append, List.mem_singleton]
          have hne : a ≠ b := fun h => hab (congrArg key h.symm)
          have hne' : ¬ key a = key b := fun h => hab h.symm
          simp [hne, hne']

/-- A sum over the entries that are kept is one over the keys, each with its first entry. -/
theorem sum_map_firsts {M : Type} [AddCommMonoid M] (as : List α) (f : α → M) :
  ((firsts key [] as).map f).sum =
    ∑ k ∈ (as.map key).toFinset, (as.find? (key · = k)).elim 0 f
  := by
  have hkeys : (as.map key).toFinset = ((firsts key [] as).map key).toFinset := by
    ext k
    simp only [List.mem_toFinset, mem_map_firsts, List.not_mem_nil, not_false_eq_true, true_and]
  rw [hkeys, List.sum_toFinset _ (nodup_map_firsts [] as), List.map_map]
  congr 1
  apply List.map_congr_left
  intro a ha
  rw [Function.comp_apply, (mem_firsts_iff.mp ha).2]
  rfl

/-- Where entries with one key are the same, the entries that are kept depend on the order of the
entries only in their own order. -/
theorem perm_firsts {as bs : List α} (h : as.Perm bs)
    (hkey : ∀ a ∈ as, ∀ b ∈ as, key a = key b → a = b) :
  (firsts key [] as).Perm (firsts key [] bs)
  := by
  have hmem : ∀ {cs : List α}, (∀ a ∈ cs, ∀ b ∈ cs, key a = key b → a = b) →
      ∀ a, a ∈ firsts key [] cs ↔ a ∈ cs := by
    intro cs hcs a
    rw [mem_firsts_iff]
    constructor
    · exact fun h => List.mem_of_find?_eq_some h.2
    · intro ha
      refine ⟨List.not_mem_nil, ?_⟩
      have hsome : (cs.find? (key · = key a)).isSome :=
        List.find?_isSome.mpr ⟨a, ha, decide_eq_true rfl⟩
      obtain ⟨b, hb⟩ := Option.isSome_iff_exists.mp hsome
      have hkeys : key b = key a := by simpa using List.find?_some hb
      rw [hb, hcs b (List.mem_of_find?_eq_some hb) a ha hkeys]
  apply (List.perm_ext_iff_of_nodup (nodup_map_firsts [] as).of_map
    (nodup_map_firsts [] bs).of_map).mpr
  intro a
  rw [hmem hkey, hmem, h.mem_iff]
  intro b hb c hc
  exact hkey b (h.mem_iff.mpr hb) c (h.mem_iff.mpr hc)

end Firsts
