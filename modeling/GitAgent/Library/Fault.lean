/-!
# Statements that may fail

A program writes to a store by statements. The store accepts a statement with a new state and a
result, or refuses it. A statement may also fail for another reason, without an effect, or after it
was done, when its answer is lost. What is left is the old state or the new one, and a result is
that of the statement (`Fault.attempt_cases`).
-/

universe u v w

namespace Fault

variable {σ : Type u} {α : Type v} {ε : Type w}

/-- A statement on the state `s`, which is accepted with the result `next` or refused. If it fails,
`fault` says whether it was done all the same, and the error. -/
def attempt (fault : Option (Bool × ε)) (refusal : ε) (s : σ) (next : Option (σ × α)) :
    σ × Except ε α :=
  match next, fault with
  | some (s', a), none => (s', .ok a)
  | some (s', _), some (true, e) => (s', .error e)
  | _, some (_, e) => (s, .error e)
  | none, none => (s, .error refusal)

variable {fault : Option (Bool × ε)} {refusal : ε} {s s' : σ} {a : α} {next : Option (σ × α)}

/-- A statement that is accepted and does not fail. -/
theorem attempt_ok :
  attempt none refusal s (some (s', a)) = (s', .ok a)
  := rfl

/-- A statement that fails after it was done. -/
theorem attempt_lost (e : ε) :
  attempt (some (true, e)) refusal s (some (s', a)) = (s', .error e)
  := rfl

/-- A statement that fails without an effect. -/
theorem attempt_failed (e : ε) :
  attempt (some (false, e)) refusal s next = (s, .error e)
  := by
  cases next <;> rfl

/-- A statement that is refused fails in any case. -/
theorem attempt_refused (fault : Option (Bool × ε)) (refusal : ε) (s : σ) :
  ∃ e, attempt (α := α) fault refusal s none = (s, .error e)
  := by
  cases fault with
  | none => exact ⟨_, rfl⟩
  | some fault => exact ⟨_, rfl⟩

/-- A statement is done, or leaves the state as it was and has no result. -/
theorem attempt_cases {r : Except ε α} (h : attempt fault refusal s next = (s', r)) :
  (s' = s ∧ ∀ a, r ≠ .ok a) ∨ ∃ a, next = some (s', a) ∧ ∀ a', r = .ok a' → a' = a
  := by
  rw [attempt.eq_def] at h
  split at h <;> obtain ⟨rfl, rfl⟩ := Prod.mk.inj h
  · exact .inr ⟨_, rfl, fun _ h => (Except.ok.inj h).symm⟩
  · exact .inr ⟨_, rfl, nofun⟩
  · exact .inl ⟨rfl, nofun⟩
  · exact .inl ⟨rfl, nofun⟩

end Fault
