import Mathlib.Data.List.Infix

/-!
# Escaping the first letter of every match

A text is read from left to right, and wherever a letter is followed by what matches, other letters
are put in its place; what has matched is kept and not looked at again. If what matches has no such
letter in it, and a match cannot tell the letter from the first of those in its place, then nothing
matches in the text that results.
-/

universe u

/-- The lists agree up to where one has `a` and the other has `b`. -/
inductive Alike {α : Type u} (a b : α) : List α → List α → Prop
  | nil : Alike a b [] []
  | stop (cs ds : List α) : Alike a b (a :: cs) (b :: ds)
  | cons (c : α) {cs ds : List α} (h : Alike a b cs ds) : Alike a b (c :: cs) (c :: ds)

/-- What is escaped: the letter, the letters that are put in its place, and how many letters after
it match. -/
structure Escaper (α : Type u) where
  lead : α
  first : α
  others : List α
  matchAt : List α → Option ℕ
  clean : lead ∉ first :: others
  span : ∀ cs n, matchAt cs = some n → lead ∉ cs.take n
  blind : ∀ cs ds, Alike lead first cs ds → matchAt cs = matchAt ds

namespace Escaper

variable {α : Type u} [DecidableEq α] (E : Escaper α)

/-- The text after escaping, when the next `skip` letters belong to the last match, and the number
of matches. -/
def subFrom : ℕ → List α → List α × ℕ
  | _, [] => ([], 0)
  | skip + 1, c :: cs => (c :: (subFrom skip cs).1, (subFrom skip cs).2)
  | 0, c :: cs =>
      if c = E.lead then
        match E.matchAt cs with
        | some n => (E.first :: E.others ++ (subFrom n cs).1, (subFrom n cs).2 + 1)
        | none => (c :: (subFrom 0 cs).1, (subFrom 0 cs).2)
      else (c :: (subFrom 0 cs).1, (subFrom 0 cs).2)

/-- The text after escaping, and the number of matches. -/
def sub (cs : List α) : List α × ℕ :=
  E.subFrom 0 cs

/-- Whether the first letter of a text is that of a match. -/
def leads : List α → Bool
  | [] => false
  | c :: cs => c = E.lead && (E.matchAt cs).isSome

/-- Whether there is a match somewhere in a text. -/
def HasMatch (cs : List α) : Prop :=
  ∃ rest, rest <:+ cs ∧ E.leads rest = true

/-- What stands in the place of the first letter of a text. -/
def place : List α → List α
  | [] => []
  | c :: cs => if E.leads (c :: cs) then E.first :: E.others else [c]

variable {E} {c : α} {cs : List α}

theorem hasMatch_cons :
  E.HasMatch (c :: cs) ↔ E.leads (c :: cs) = true ∨ E.HasMatch cs
  := by
  constructor
  · rintro ⟨rest, hsuffix, hleads⟩
    obtain rfl | hsuffix := List.suffix_cons_iff.mp hsuffix
    · apply Or.inl hleads
    · exact .inr ⟨rest, hsuffix, hleads⟩
  · rintro (hleads | ⟨rest, hsuffix, hleads⟩)
    · exact ⟨c :: cs, List.suffix_refl _, hleads⟩
    · exact ⟨rest, hsuffix.trans (List.suffix_cons c cs), hleads⟩

theorem not_hasMatch_nil :
  ¬ E.HasMatch []
  := by
  rintro ⟨rest, hsuffix, hleads⟩
  obtain rfl := List.suffix_nil.mp hsuffix
  contradiction

/-- A text in which the letter does not occur is no beginning of a match. -/
theorem hasMatch_append {ds : List α} (h : E.lead ∉ ds) :
  E.HasMatch (ds ++ cs) ↔ E.HasMatch cs
  := by
  induction ds with
  | nil => rfl
  | cons d ds ih =>
      rw [List.mem_cons, not_or] at h
      have hleads : ¬ E.leads (d :: (ds ++ cs)) = true := by
        simp [leads, Ne.symm h.1]
      rw [List.cons_append, hasMatch_cons, or_iff_right hleads, ih h.2]

/-- Nothing is lost by not looking again at what has matched. -/
theorem subFrom_eq {skip : ℕ} (h : E.lead ∉ cs.take skip) :
  E.subFrom skip cs = E.sub cs
  := by
  induction cs generalizing skip with
  | nil => cases skip <;> rfl
  | cons c cs ih =>
      cases skip with
      | zero => rfl
      | succ skip =>
          rw [List.take_succ_cons, List.mem_cons, not_or] at h
          rw [sub, subFrom, subFrom, if_neg (Ne.symm h.1), ih h.2]
          rfl

/-- **What is escaped of a text**: its first letter if a match begins there, and then the rest. -/
theorem sub_cons :
  E.sub (c :: cs) = (E.place (c :: cs) ++ (E.sub cs).1,
    (E.sub cs).2 + if E.leads (c :: cs) then 1 else 0)
  := by
  rw [sub, subFrom, place, leads]
  by_cases hc : c = E.lead
  · rw [if_pos hc]
    cases hmatch : E.matchAt cs with
    | none => simp [sub]
    | some n => simp [hc, subFrom_eq (E.span cs n hmatch)]
  · simp [hc, sub]

/-- Each letter stays in its place, but the first of a match. -/
theorem sub_eq_flatMap :
  (E.sub cs).1 = cs.tails.flatMap E.place
  := by
  induction cs with
  | nil => rfl
  | cons c cs ih => rw [sub_cons, List.tails_cons, List.flatMap_cons, ih]

theorem sub_of_not_hasMatch (h : ¬ E.HasMatch cs) :
  E.sub cs = (cs, 0)
  := by
  induction cs with
  | nil => rfl
  | cons c cs ih =>
      rw [hasMatch_cons, not_or] at h
      rw [sub_cons, ih h.2, place, if_neg h.1, if_neg h.1]
      rfl

theorem sub_count_eq_zero_iff :
  (E.sub cs).2 = 0 ↔ ¬ E.HasMatch cs
  := by
  induction cs with
  | nil => exact ⟨fun _ => not_hasMatch_nil, fun _ => rfl⟩
  | cons c cs ih =>
      rw [sub_cons, hasMatch_cons, not_or, Nat.add_eq_zero_iff, ih, and_comm]
      simp

/-- A match cannot tell a text from what it becomes. -/
theorem alike_sub :
  Alike E.lead E.first cs (E.sub cs).1
  := by
  induction cs with
  | nil => apply Alike.nil
  | cons c cs ih =>
      rw [sub_cons, place]
      split
      · rename_i hleads
        rw [leads, Bool.and_eq_true, decide_eq_true_eq] at hleads
        rw [hleads.1]
        apply Alike.stop
      · apply Alike.cons c ih

/-- **Nothing matches in a text that was escaped.** -/
theorem not_hasMatch_sub :
  ¬ E.HasMatch (E.sub cs).1
  := by
  induction cs with
  | nil => apply not_hasMatch_nil
  | cons c cs ih =>
      rw [sub_cons, place]
      split
      · rw [hasMatch_append E.clean]
        apply ih
      · rename_i hleads
        rw [List.singleton_append, hasMatch_cons, not_or]
        refine ⟨?_, ih⟩
        rw [leads, ← E.blind cs _ alike_sub]
        apply hleads

/-- Escaping a second time changes nothing. -/
theorem sub_sub :
  E.sub (E.sub cs).1 = ((E.sub cs).1, 0)
  := sub_of_not_hasMatch not_hasMatch_sub

end Escaper
