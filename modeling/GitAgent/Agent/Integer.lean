import GitAgent.Agent.Toolset
import GitAgent.Library.Decimal
import GitAgent.Library.Trim

/-!
# The text of an integer

An integer is read from the text that it is printed as, if it has not too many digits.
-/

namespace Agent

/-- A number as it is printed. -/
def intText (n : ℤ) : List Char :=
  if n < 0 then '-' :: Nat.toDigits 10 n.natAbs else Nat.toDigits 10 n.natAbs

theorem solid_of_isDigit {c : Char} (h : c.isDigit = true) :
  isSpace c = false ∧ isLineBreak c = false
  := by
  rw [Char.isDigit_iff_toNat] at h
  simp only [isSpace, isLineBreak, Bool.or_eq_false_iff, Bool.and_eq_false_iff,
    decide_eq_false_iff_not]
  simp only [Char.le_def, UInt32.le_iff_toNat_le, Char.ext_iff, ← UInt32.toNat_inj, Char.toNat]
    at h ⊢
  simp at h ⊢
  omega

/-- The text of a number has no blanks and no line breaks. -/
theorem intText_solid (n : ℤ) :
  ∀ c ∈ intText n, isSpace c = false ∧ isLineBreak c = false
  := by
  have hdigits : ∀ c ∈ Nat.toDigits 10 n.natAbs, isSpace c = false ∧ isLineBreak c = false := by
    intro c hc
    apply solid_of_isDigit (Decimal.isDigit_of_mem hc)
  rw [intText]
  split
  · apply List.forall_mem_cons.mpr ⟨by decide, hdigits⟩
  · exact hdigits

theorem strip_intText (n : ℤ) :
  strip (String.ofList (intText n)) = String.ofList (intText n)
  := by
  rw [strip, String.toList_ofList]
  apply congrArg String.ofList
  apply Trim.trim_of_bare
  constructor
  · intro c hc
    apply (intText_solid n c (List.mem_of_mem_head? hc)).1
  · intro c hc
    apply (intText_solid n c (List.mem_of_mem_getLast? hc)).1

/-- The characters of a number. -/
theorem toList_toString (code : ℤ) :
  (toString code).toList = intText code
  := by
  cases code with
  | ofNat n =>
      rw [Decimal.toList_toString_ofNat, intText, if_neg (by simp)]
      rfl
  | negSucc n =>
      rw [Decimal.toList_toString_negSucc, intText, if_pos (Int.negSucc_lt_zero n)]
      rfl

/-- Decimal digits are read as the number they write, after others. -/
theorem intDigits_of_isDigit {cs : List Char} (h : ∀ c ∈ cs, c.isDigit = true) (n : ℕ) :
  intDigits true n cs = some (Nat.ofDigitChars 10 cs n)
  := by
  induction cs generalizing n with
  | nil => rfl
  | cons c cs ih =>
      obtain ⟨hc, hcs⟩ := List.forall_mem_cons.mp h
      have hunderscore : c ≠ '_' := by
        rintro rfl
        contradiction
      rw [intDigits, if_neg hunderscore, digit?_of_isDigit hc, Nat.ofDigitChars_cons]
      apply ih hcs

theorem intDigits_toDigits (n : ℕ) :
  intDigits false 0 (Nat.toDigits 10 n) = some n
  := by
  have hdigits : ∀ c ∈ Nat.toDigits 10 n, c.isDigit = true := fun c => Decimal.isDigit_of_mem
  have hn : Nat.ofDigitChars 10 (Nat.toDigits 10 n) 0 = n := Nat.ofDigitChars_ten_toDigits
  obtain ⟨c, cs, hcs⟩ := List.exists_cons_of_ne_nil (Nat.toDigits_ne_nil (n := n) (b := 10))
  rw [hcs] at hdigits hn ⊢
  obtain ⟨hc, hdigits⟩ := List.forall_mem_cons.mp hdigits
  have hunderscore : c ≠ '_' := by
    rintro rfl
    contradiction
  rw [intDigits, if_neg hunderscore, digit?_of_isDigit hc]
  dsimp only
  rw [intDigits_of_isDigit hdigits, ← hn, Nat.ofDigitChars_cons]

/-- A number that is printed is read back, if it has not too many digits. -/
theorem parseInt_intText {n : ℤ} (h : (Nat.toDigits 10 n.natAbs).length ≤ 4300) :
  parseInt (String.ofList (intText n)) = some n
  := by
  have hstrip : stripChars isSpace (intText n) = intText n := by
    have hstrip := congrArg String.toList (strip_intText n)
    rwa [strip, String.toList_ofList, String.toList_ofList] at hstrip
  have hcount : (intText n).countP (fun c => (digit? c).isSome) ≤ 4300 := by
    have hle := List.countP_le_length (p := fun c => (digit? c).isSome)
      (l := Nat.toDigits 10 n.natAbs)
    rw [intText]
    split
    · rw [List.countP_cons_of_neg (by decide)]
      omega
    · omega
  have hdigits := intDigits_toDigits n.natAbs
  rw [parseInt, String.toList_ofList, hstrip, if_neg (Nat.not_lt_of_le hcount), intText]
  by_cases hneg : n < 0
  · rw [if_pos hneg]
    change Option.map (fun n => -n) ((intDigits false 0 (Nat.toDigits 10 n.natAbs)).bind
      fun a => some (a : ℤ)) = some n
    rw [hdigits, Option.bind_some, Option.map_some]
    apply congrArg some
    omega
  · have hn : ((n.natAbs : ℕ) : ℤ) = n := by omega
    have hdigit : ∀ c ∈ Nat.toDigits 10 n.natAbs, c.isDigit = true :=
      fun c => Decimal.isDigit_of_mem
    rw [if_neg hneg]
    split
    · rename_i heq
      rw [heq] at hdigit
      have := hdigit '-' List.mem_cons_self
      contradiction
    · rename_i heq
      rw [heq] at hdigit
      have := hdigit '+' List.mem_cons_self
      contradiction
    · rw [hdigits, Option.map_some, hn]

end Agent
