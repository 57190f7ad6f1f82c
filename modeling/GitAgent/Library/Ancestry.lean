import Mathlib.Data.List.Basic

/-!
# Histories with parents cut off

A `History` is a graph of commits, each with its parents, which are older. `cutOff` is the same
graph without the parents of some commits. A line of a file is followed from a commit to one of its
parents as long as one of them has it (`Tracker`); the commit where that ends is the line's origin.
In a graph with parents cut off a line stops at the first commit on its way whose parents are
missing (`origin_cutOff`). Reviews that start where an earlier one ended leave no commit out between
them (`Chained.covers`).
-/

universe u v

/-- The commits and their parents, of which each is older. -/
structure History (κ : Type u) where
  parents : κ → List κ
  age : κ → ℕ
  age_lt : ∀ c, ∀ p ∈ parents c, age p < age c

namespace History

variable {κ : Type u} (H : History κ)

/-- The history without the parents of some commits. -/
def cutOff (cut : κ → Bool) : History κ where
  parents c := if cut c then [] else H.parents c
  age := H.age
  age_lt := by
    intro c p hp
    split at hp
    · contradiction
    · apply H.age_lt c p hp

/-- The commits at most `n` generations before a commit. -/
def ancestors : ℕ → κ → List κ
  | 0, c => [c]
  | n + 1, c => c :: (H.parents c).flatMap (ancestors n)

/-- Whether `d` is reached from `c` along the parents. -/
def Reaches (c d : κ) : Prop :=
  d ∈ H.ancestors (H.age c) c

instance [DecidableEq κ] (c d : κ) : Decidable (H.Reaches c d) :=
  inferInstanceAs (Decidable (_ ∈ _))

/-- The commits that are reached from some. -/
def reached (tips : List κ) : List κ :=
  tips.flatMap fun t => H.ancestors (H.age t) t

/-- The first `n` generations, a commit and those before it. -/
def generations : ℕ → κ → List κ
  | 0, _ => []
  | n + 1, c => c :: (H.parents c).flatMap (generations n)

/-- A commit is new if it is reached from the last of some changes and not from the commit before
them, if there is one. -/
def IsNew (before : Option κ) (after x : κ) : Prop :=
  H.Reaches after x ∧ ∀ b ∈ before, ¬ H.Reaches b x

variable {H} {c d e p : κ}

theorem parents_eq_nil (h : H.age c = 0) :
  H.parents c = []
  := by
  apply List.eq_nil_iff_forall_not_mem.mpr
  intro p hp
  have hlt := H.age_lt c p hp
  omega

/-- More generations than a commit has reach nothing new. -/
theorem mem_ancestors_iff {n : ℕ} (h : H.age c ≤ n) :
  d ∈ H.ancestors n c ↔ H.Reaches c d
  := by
  rw [Reaches]
  generalize hk : H.age c = k at h ⊢
  induction k using Nat.strongRecOn generalizing c n with
  | ind k ih =>
      cases k with
      | zero =>
          cases n with
          | zero => rfl
          | succ n => simp [ancestors, parents_eq_nil hk]
      | succ k =>
          obtain ⟨n, rfl⟩ := Nat.exists_eq_add_one_of_ne_zero (Nat.ne_zero_of_lt h)
          rw [ancestors, ancestors, List.mem_cons, List.mem_cons, List.mem_flatMap, List.mem_flatMap]
          apply or_congr_right
          apply exists_congr
          intro p
          apply and_congr_right
          intro hp
          have hlt := H.age_lt c p hp
          rw [ih (H.age p) (by omega) rfl (by omega),
            ih (H.age p) (by omega) rfl (n := k) (by omega)]

theorem reaches_iff :
  H.Reaches c d ↔ d = c ∨ ∃ p ∈ H.parents c, H.Reaches p d
  := by
  rw [← mem_ancestors_iff (Nat.le_succ (H.age c)), ancestors, List.mem_cons, List.mem_flatMap]
  apply or_congr_right
  apply exists_congr
  intro p
  apply and_congr_right
  intro hp
  apply mem_ancestors_iff (Nat.le_of_lt (H.age_lt c p hp))

theorem Reaches.refl (c : κ) :
  H.Reaches c c
  := reaches_iff.mpr (.inl rfl)

theorem Reaches.parent (hp : p ∈ H.parents c) (h : H.Reaches p d) :
  H.Reaches c d
  := reaches_iff.mpr (.inr ⟨p, hp, h⟩)

/-- What holds of a commit, and of every commit with a parent of which it holds, holds of all from
which the commit is reached. -/
@[elab_as_elim]
theorem Reaches.induct {motive : ∀ c, H.Reaches c d → Prop} (refl : motive d (Reaches.refl d))
    (parent : ∀ c p (hp : p ∈ H.parents c) (h : H.Reaches p d), motive p h →
      motive c (Reaches.parent hp h))
    (h : H.Reaches c d) :
  motive c h
  := by
  generalize hk : H.age c = k
  induction k using Nat.strongRecOn generalizing c with
  | ind k ih =>
      obtain rfl | ⟨p, hp, h⟩ := reaches_iff.mp h
      · apply refl
      · apply parent c p hp h
        apply ih (H.age p) _ h rfl
        rw [← hk]
        apply H.age_lt c p hp

theorem Reaches.trans (h : H.Reaches c d) (h' : H.Reaches d e) :
  H.Reaches c e
  := by
  induction h using Reaches.induct with
  | refl => apply h'
  | parent c p hp _ ih => apply Reaches.parent hp ih

/-- What is closed under the parents and has a commit has all that is reached from it. -/
theorem Reaches.mem {commits : List κ} (h : H.Reaches c d)
    (hclosed : ∀ c ∈ commits, ∀ p ∈ H.parents c, p ∈ commits) (hc : c ∈ commits) :
  d ∈ commits
  := by
  induction h using Reaches.induct with
  | refl => apply hc
  | parent c p hp _ ih => apply ih (hclosed c hc p hp)

/-- What is reached along the parents that are left is reached along all. -/
theorem Reaches.of_cutOff {cut : κ → Bool} (h : (H.cutOff cut).Reaches c d) :
  H.Reaches c d
  := by
  induction h using Reaches.induct with
  | refl => apply Reaches.refl
  | parent c p hp _ ih =>
      rw [cutOff] at hp
      dsimp only at hp
      split at hp
      · contradiction
      · apply Reaches.parent hp ih

/-- The parents of the first generations are among the first and one more. -/
theorem generations_parent {n : ℕ} (h : d ∈ H.generations n c) (hp : p ∈ H.parents d) :
  p ∈ H.generations (n + 1) c
  := by
  induction n generalizing c with
  | zero => contradiction
  | succ n ih =>
      rw [generations] at h ⊢
      apply List.mem_cons_of_mem
      apply List.mem_flatMap.mpr
      obtain rfl | h := List.mem_cons.mp h
      · exact ⟨p, hp, List.mem_cons_self⟩
      · obtain ⟨q, hq, h⟩ := List.mem_flatMap.mp h
        exact ⟨q, hq, ih h⟩

/-- What is reached from some commits. -/
theorem mem_reached {tips : List κ} :
  d ∈ H.reached tips ↔ ∃ t ∈ tips, H.Reaches t d
  := List.mem_flatMap

theorem reached_parent {tips : List κ} (h : d ∈ H.reached tips) (hp : p ∈ H.parents d) :
  p ∈ H.reached tips
  := by
  obtain ⟨t, ht, h⟩ := mem_reached.mp h
  apply mem_reached.mpr ⟨t, ht, h.trans (Reaches.parent hp (Reaches.refl p))⟩

/-- Where nothing is cut off all parents are left. -/
theorem cutOff_false :
  H.cutOff (fun _ => false) = H
  := rfl

/-! ### Reviews that continue one another -/

section

variable {ι : Type v} (same : ι → ι → Prop) (continued : ι → Option κ) (tip : ι → κ)

/-- Of some reviews, each that continues from a commit comes after one whose last commit it is. -/
def Chained (xs : List ι) : Prop :=
  ∀ pre x post, xs = pre ++ x :: post → ∀ b ∈ continued x, ∃ y ∈ pre, same y x ∧ tip y = b

variable {same continued tip} {xs : List ι}

theorem Chained.nil :
  Chained same continued tip []
  := by
  intro pre x post h
  simp at h

theorem Chained.append {x : ι} (h : Chained same continued tip xs)
    (hx : ∀ b ∈ continued x, ∃ y ∈ xs, same y x ∧ tip y = b) :
  Chained same continued tip (xs ++ [x])
  := by
  intro pre z post hz
  rcases List.eq_nil_or_concat post with rfl | ⟨post, w, rfl⟩
  · obtain ⟨rfl, h⟩ := List.append_inj' hz rfl
    obtain rfl := List.singleton_inj.mp h
    apply hx
  · rw [List.concat_eq_append, ← List.cons_append, ← List.append_assoc] at hz
    obtain ⟨hz, -⟩ := List.append_inj' hz rfl
    apply h pre z post hz

/-- What is reached from the last commit of a review is new to one that continues, or is reached
from the last commit of one that does not. -/
theorem Chained.covers (h : Chained same continued tip xs) (refl : ∀ x, same x x)
    (trans : ∀ {x y z}, same x y → same y z → same x z) {x : ι} (hx : x ∈ xs)
    (hd : H.Reaches (tip x) d) :
  (∃ y ∈ xs, same y x ∧ ∃ b ∈ continued y, H.IsNew (some b) (tip y) d) ∨
    ∃ y ∈ xs, same y x ∧ continued y = none ∧ H.Reaches (tip y) d
  := by
  obtain ⟨pre, post, hxs⟩ := List.append_of_mem hx
  generalize hn : pre.length = n
  induction n using Nat.strongRecOn generalizing pre x post with
  | ind n ih =>
      cases hb : continued x with
      | none => exact .inr ⟨x, hx, refl x, hb, hd⟩
      | some b =>
          by_cases hold : H.Reaches b d
          · -- It was reached before: the review that is continued comes earlier.
            obtain ⟨y, hy, hs, rfl⟩ := h pre x post hxs b hb
            obtain ⟨pre', post', rfl⟩ := List.append_of_mem hy
            rw [List.append_assoc, List.cons_append] at hxs
            have hlt : pre'.length < n := by
              rw [← hn, List.length_append, List.length_cons]
              omega
            rcases ih pre'.length hlt (hxs ▸ by simp) hold pre' _ hxs rfl with hz | hz
            · obtain ⟨z, hz, hs', hnew⟩ := hz
              exact .inl ⟨z, hz, trans hs' hs, hnew⟩
            · obtain ⟨z, hz, hs', hnew⟩ := hz
              exact .inr ⟨z, hz, trans hs' hs, hnew⟩
          · refine .inl ⟨x, hx, refl x, b, hb, hd, ?_⟩
            intro b' hb'
            obtain rfl := Option.some.inj hb'
            apply hold

end

end History

/-- How a line is followed from a commit to one of its parents, if one of them has it. -/
structure Tracker (κ : Type u) (ℓ : Type v) where
  follow : κ → List κ → ℓ → Option (κ × ℓ)
  mem : ∀ {c parents l p l'}, follow c parents l = some (p, l') → p ∈ parents

namespace History

variable {κ : Type u} {ℓ : Type v} (H : History κ) (F : Tracker κ ℓ)

/-- The commit at which a line is found, followed for at most `n` generations. -/
def originWithin : ℕ → κ → ℓ → κ
  | 0, c, _ => c
  | n + 1, c, l => match F.follow c (H.parents c) l with
      | some (p, l') => originWithin n p l'
      | none => c

/-- The commit that introduced a line. -/
def origin (c : κ) (l : ℓ) : κ :=
  H.originWithin F (H.age c) c l

/-- The commits through which a line is followed, for at most `n` generations. -/
def wayWithin : ℕ → κ → ℓ → List κ
  | 0, c, _ => [c]
  | n + 1, c, l => c :: match F.follow c (H.parents c) l with
      | some (p, l') => wayWithin n p l'
      | none => []

/-- The commits through which a line is followed. -/
def way (c : κ) (l : ℓ) : List κ :=
  H.wayWithin F (H.age c) c l

/-- The first commit on the way of a line whose parents are cut off, or else the one that introduced
it. -/
def stop (cut : κ → Bool) (c : κ) (l : ℓ) : κ :=
  ((H.way F c l).find? cut).getD (H.origin F c l)

variable {H F} {c : κ} {l : ℓ}

/-- **Where a line is found in a history with parents cut off**: at the first commit on its way
whose parents are missing. -/
theorem origin_cutOff (cut : κ → Bool) :
  (H.cutOff cut).origin F c l = H.stop F cut c l
  := by
  have hwithin : ∀ n c l, (H.cutOff cut).originWithin F n c l =
      ((H.wayWithin F n c l).find? cut).getD (H.originWithin F n c l) := by
    intro n
    induction n with
    | zero =>
        intro c l
        rw [originWithin, wayWithin, originWithin, List.find?_singleton]
        split <;> rfl
    | succ n ih =>
        intro c l
        rw [originWithin, wayWithin, originWithin, List.find?_cons]
        cases hc : cut c with
        | true =>
            have hparents : (H.cutOff cut).parents c = [] := if_pos hc
            cases hf : F.follow c ((H.cutOff cut).parents c) l with
            | none => rfl
            | some next =>
                apply absurd (F.mem hf)
                rw [hparents]
                apply List.not_mem_nil
        | false =>
            have hparents : (H.cutOff cut).parents c = H.parents c := if_neg (by simp [hc])
            rw [hparents]
            cases F.follow c (H.parents c) l with
            | none => rfl
            | some next => apply ih
  apply hwithin

/-- The commit at which a line stops reaches the one that introduced it. -/
theorem stop_reaches_origin (cut : κ → Bool) :
  H.Reaches (H.stop F cut c l) (H.origin F c l)
  := by
  have hwithin : ∀ n c l, ∀ d ∈ H.wayWithin F n c l, H.Reaches d (H.originWithin F n c l) := by
    intro n
    induction n with
    | zero =>
        intro c l d hd
        obtain rfl := List.mem_singleton.mp hd
        apply Reaches.refl
    | succ n ih =>
        intro c l d hd
        rw [wayWithin] at hd
        rw [originWithin]
        cases hf : F.follow c (H.parents c) l with
        | none =>
            rw [hf] at hd
            obtain rfl := List.mem_singleton.mp hd
            apply Reaches.refl
        | some next =>
            rw [hf] at hd
            obtain rfl | hd := List.mem_cons.mp hd
            · have hnext : next.1 ∈ H.wayWithin F n next.1 next.2 := by
                cases n <;> apply List.mem_cons_self
              apply Reaches.parent (F.mem hf) (ih next.1 next.2 next.1 hnext)
            · apply ih next.1 next.2 d hd
  rw [stop]
  cases hcut : (H.way F c l).find? cut with
  | none => apply Reaches.refl
  | some d => apply hwithin (H.age c) c l d (List.mem_of_find?_eq_some hcut)

/-- A line is introduced by a commit that is reached from the one where it is followed from. -/
theorem reaches_origin :
  H.Reaches c (H.origin F c l)
  := by
  have hwithin : ∀ n c l, H.originWithin F n c l ∈ H.ancestors n c := by
    intro n
    induction n with
    | zero =>
        intro c l
        apply List.mem_singleton_self
    | succ n ih =>
        intro c l
        rw [originWithin, ancestors]
        cases hf : F.follow c (H.parents c) l with
        | none => apply List.mem_cons_self
        | some next =>
            apply List.mem_cons_of_mem
            apply List.mem_flatMap.mpr ⟨next.1, F.mem hf, ih next.1 next.2⟩
  apply hwithin

end History
