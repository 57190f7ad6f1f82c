import Mathlib.Data.List.Basic

/-!
# A queue that is handed out

Entries that are put into a queue are handed to someone, all that are in the queue at once, or are
dropped, the oldest first. An account of them gives each entry one fate (`Handout.Account`), and is
kept by what is done with the queue.
-/

namespace Handout

variable {α π : Type}

/-- The entries that were handed to someone, each with the one to whom. -/
def handed (past : List (α × Option π)) : List (π × α) :=
  past.filterMap fun e => e.2.map fun p => (p, e.1)

/-- The entries that were dropped. -/
def dropped (past : List (α × Option π)) : List α :=
  (past.filter fun e => e.2.isNone).map Prod.fst

/-- The entries of some handouts, each with the one to whom. -/
def entries (handouts : List (π × List α)) : List (π × α) :=
  handouts.flatMap fun h => h.2.map fun a => (h.1, a)

/-- What was put into a queue, in order, has been dropped or handed to someone, and the rest is
still in the queue. -/
def Account (put lost : List α) (handouts : List (π × List α)) (queue : List α) : Prop :=
  ∃ past : List (α × Option π), past.map Prod.fst ++ queue = put ∧
    handed past = entries handouts ∧ dropped past = lost

theorem handed_append (past past' : List (α × Option π)) :
  handed (past ++ past') = handed past ++ handed past'
  := List.filterMap_append

theorem dropped_append (past past' : List (α × Option π)) :
  dropped (past ++ past') = dropped past ++ dropped past'
  := by rw [dropped, List.filter_append, List.map_append, dropped, dropped]

theorem entries_append (handouts handouts' : List (π × List α)) :
  entries (handouts ++ handouts') = entries handouts ++ entries handouts'
  := List.flatMap_append

theorem entries_singleton (p : π) (as : List α) :
  entries [(p, as)] = as.map fun a => (p, a)
  := by rw [entries, List.flatMap_singleton]

theorem handed_none (as : List α) :
  handed (as.map fun a => (a, (none : Option π))) = []
  := by simp [handed, List.filterMap_map]

theorem dropped_none (as : List α) :
  dropped (as.map fun a => (a, (none : Option π))) = as
  := by simp [dropped, List.filter_map, Function.comp_def]

theorem handed_some (as : List α) (p : π) :
  handed (as.map fun a => (a, some p)) = as.map fun a => (p, a)
  := by simp [handed, List.filterMap_map]

theorem dropped_some (as : List α) (p : π) :
  dropped (as.map fun a => (a, some p)) = []
  := by simp [dropped, List.filter_map, Function.comp_def]

/-- What was handed to someone was there in that order. -/
theorem handed_sublist (past : List (α × Option π)) :
  ((handed past).map Prod.snd).Sublist (past.map Prod.fst)
  := by
  induction past with
  | nil => apply List.Sublist.refl
  | cons e past ih =>
      obtain ⟨a, fate⟩ := e
      cases fate with
      | none => apply ih.cons
      | some p => apply ih.cons_cons

namespace Account

variable {put lost queue : List α} {handouts : List (π × List α)}

theorem start :
  Account (π := π) ([] : List α) [] [] []
  := ⟨[], rfl, rfl, rfl⟩

/-- One more entry is put into the queue. -/
theorem put_one (h : Account put lost handouts queue) (a : α) :
  Account (put ++ [a]) lost handouts (queue ++ [a])
  := by
  obtain ⟨past, hput, hhanded, hdropped⟩ := h
  exact ⟨past, by rw [← hput, List.append_assoc], hhanded, hdropped⟩

/-- The oldest entries are dropped. -/
theorem drop (h : Account put lost handouts queue) (n : ℕ) :
  Account put (lost ++ queue.take n) handouts (queue.drop n)
  := by
  obtain ⟨past, hput, hhanded, hdropped⟩ := h
  refine ⟨past ++ (queue.take n).map fun a => (a, none), ?_, ?_, ?_⟩
  · rw [List.map_append, List.map_map, List.append_assoc, ← hput]
    simp [Function.comp_def]
  · rw [handed_append, handed_none, List.append_nil, hhanded]
  · rw [dropped_append, dropped_none, hdropped]

/-- All entries of the queue are handed to someone. -/
theorem hand (h : Account put lost handouts queue) (p : π) :
  Account put lost (handouts ++ [(p, queue)]) []
  := by
  obtain ⟨past, hput, hhanded, hdropped⟩ := h
  refine ⟨past ++ queue.map fun a => (a, some p), ?_, ?_, ?_⟩
  · rw [List.map_append, List.map_map, List.append_nil, ← hput]
    simp [Function.comp_def]
  · rw [handed_append, handed_some, hhanded, entries_append, entries_singleton]
  · rw [dropped_append, dropped_some, List.append_nil, hdropped]

/-- What was handed out and is in the queue was put into it in that order. -/
theorem sublist (h : Account put lost handouts queue) :
  (handouts.flatMap Prod.snd ++ queue).Sublist put
  := by
  obtain ⟨past, hput, hhanded, -⟩ := h
  have hentries : handouts.flatMap Prod.snd = (entries handouts).map Prod.snd := by
    simp [entries, List.map_flatMap, Function.comp_def]
  rw [← hput, hentries, ← hhanded]
  apply (handed_sublist past).append_right

/-- The queue has the last entries that were put into it. -/
theorem suffix (h : Account put lost handouts queue) :
  queue <:+ put
  := by
  obtain ⟨past, hput, -, -⟩ := h
  rw [← hput]
  apply List.suffix_append

end Account

end Handout
