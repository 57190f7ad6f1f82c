import Mathlib.Data.List.TakeWhile

/-!
# Percent encoding

The bytes of a text in which a percent sign and two hexadecimal digits stand for a byte. Decoding it
makes it shorter where there is a percent sign, and leaves it as it is where there is none.
-/

namespace Percent

/-- The number that a hexadecimal digit stands for. -/
def hexValue (b : UInt8) : Option UInt8 :=
  if 0x30 ≤ b ∧ b ≤ 0x39 then some (b - 0x30)
  else if 0x61 ≤ b ∧ b ≤ 0x66 then some (b - 0x61 + 10)
  else if 0x41 ≤ b ∧ b ≤ 0x46 then some (b - 0x41 + 10)
  else none

/-- The bytes that a text stands for, if its percent signs are followed by digits. -/
def unescape : List UInt8 → Option (List UInt8)
  | [] => some []
  | b :: bs =>
      if b = 0x25 then
        match bs with
        | high :: low :: bs => do
            let decoded ← unescape bs
            let h ← hexValue high
            let l ← hexValue low
            return (16 * h + l) :: decoded
        | _ => none
      else (unescape bs).map (b :: ·)

theorem unescape_cons {b : UInt8} (hb : b ≠ 0x25) (bs : List UInt8) :
  unescape (b :: bs) = (unescape bs).map (b :: ·)
  := by
  rw [unescape.eq_def]
  exact if_neg hb

/-- A text without percent signs stands for itself. -/
theorem unescape_of_not_mem {bs : List UInt8} (h : 0x25 ∉ bs) :
  unescape bs = some bs
  := by
  induction bs with
  | nil => rfl
  | cons b bs ih =>
      obtain ⟨hb, hbs⟩ := List.ne_and_not_mem_of_not_mem_cons h
      rw [unescape_cons hb.symm, ih hbs]
      rfl

/-- What a text stands for is no longer than the text, and shorter where there is a percent sign. -/
theorem length_unescape {bs decoded : List UInt8} (h : unescape bs = some decoded) :
  decoded.length ≤ bs.length ∧ (0x25 ∈ bs → decoded.length < bs.length)
  := by
  fun_induction unescape bs generalizing decoded with
  | case1 =>
      obtain rfl := Option.some.inj h
      simp
  | case2 high low bs ih =>
      obtain ⟨rest, hrest, h⟩ := Option.bind_eq_some_iff.mp h
      obtain ⟨_, -, h⟩ := Option.bind_eq_some_iff.mp h
      obtain ⟨_, -, h⟩ := Option.bind_eq_some_iff.mp h
      obtain rfl := Option.some.inj h
      have := (ih hrest).1
      simp only [List.length_cons]
      omega
  | case3 => contradiction
  | case4 b bs hb ih =>
      obtain ⟨rest, hrest, rfl⟩ := Option.map_eq_some_iff.mp h
      obtain ⟨hle, hlt⟩ := ih hrest
      simp only [List.length_cons, List.mem_cons]
      constructor
      · omega
      · rintro (rfl | hmem)
        · contradiction
        · have := hlt hmem
          omega

/-- What stands before the first `sep`, and what stands after it. -/
def cut (sep : UInt8) (bs : List UInt8) : List UInt8 × List UInt8 :=
  (bs.takeWhile (· ≠ sep), (bs.dropWhile (· ≠ sep)).drop 1)

theorem cut_of_not_mem {sep : UInt8} {bs : List UInt8} (h : sep ∉ bs) :
  cut sep bs = (bs, [])
  := by
  have hall : ∀ b ∈ bs, decide (b ≠ sep) = true := fun b hb =>
    decide_eq_true fun heq => h (heq ▸ hb)
  rw [cut, List.takeWhile_eq_self_iff.mpr hall, List.dropWhile_eq_nil_iff.mpr hall]
  rfl

theorem cut_cons {sep b : UInt8} (hb : b ≠ sep) (bs : List UInt8) :
  cut sep (b :: bs) = (b :: (cut sep bs).1, (cut sep bs).2)
  := by
  simp [cut, hb]

/-- What stands before the first `sep` is shorter where there is one. -/
theorem length_cut (sep : UInt8) (bs : List UInt8) :
  (cut sep bs).1.length ≤ bs.length ∧ (sep ∈ bs → (cut sep bs).1.length < bs.length)
  := by
  have hstart : (cut sep bs).1 <+: bs := List.takeWhile_prefix _
  refine ⟨hstart.length_le, fun hmem => ?_⟩
  apply Nat.lt_of_le_of_ne hstart.length_le
  intro hlength
  have hself : (cut sep bs).1 = bs := hstart.eq_of_length hlength
  have := List.takeWhile_eq_self_iff.mp hself sep hmem
  simp at this

end Percent
