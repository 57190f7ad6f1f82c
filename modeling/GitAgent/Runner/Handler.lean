import GitAgent.Runner.System

/-!
# The events that a runner handles

A task handles one event from the call of `handle_event` to its end, and what it handles is
still to be processed until it marks it, as far as the journal knows.
-/

namespace Runner

open Hub (Db RunnerId Reaction)
open Store (Unprocessed)

namespace Await

/-- The reaction to the event that the task handles. -/
def reaction (p : Await) : Option Reaction :=
  p.handles.map Event.reaction

theorem handles_handOff (e : Event) (claim : ClaimResult) :
  (handOff e claim).handles = some e ∨ (handOff e claim).handles = none
  := by
  unfold handOff
  split
  · split
    · exact .inl rfl
    · exact .inr rfl
  · exact .inr rfl

theorem handles_raised (c : Caller) (r : Ref) :
  (c.raised r).handles = c.handles
  := by
  unfold Caller.raised
  split <;> rfl

theorem handles_refused (c : Caller) (claim : ClaimResult) :
  (c.refused claim).handles = c.handles ∨ (c.refused claim).handles = none
  := by
  unfold Caller.refused
  split
  · exact .inr rfl
  · apply handles_handOff
  · exact .inr rfl
  · exact .inr rfl

theorem handles_cancelExec (p : Await) :
  p.cancelExec.handles = p.handles
  := cancelExec_eq (fun _ _ _ => rfl) p

/-- A quiet move goes on with the event or is the end of it. -/
theorem Quiet.handles {p q : Await} (h : p.Quiet q) :
  q.handles = p.handles ∨ q.handles = none
  := by
  cases h with
  | skip h e he => exact .inl he.symm
  | peek h e he => exact .inl he.symm
  | handOff e claim _ => apply handles_handOff
  | ended h result _ => exact .inr rfl
  | notSkipped e result => exact .inr rfl
  | skipMarked e result => exact .inr rfl
  | forwarded e address result => exact .inr rfl
  | _ => exact .inl rfl

/-- Whether the next stretch of the task, or the answer of the holder to which it forwards the
event, is the end of its handling. -/
def last : Await → Bool
  | claim c (.replied result) => !result.isClaimed && (c.refused result).handles.isNone
  | peek e (some result) =>
      (result.outcome = .heldByOther || result.outcome = .missing) &&
        (handOff e result).handles.isNone
  | skipBegin _ (some false) | skipMark _ true | forward _ _ | begin _ _ (some false) => true
  | context _ _ (some false) | mark _ _ true => true
  | closing _ _ how => how ≠ .finished
  | _ => false

end Await

/-- Whether the step is the end of the handling of the event of the task `t` at the await
point `p`: its code returns, or an exception or a cancellation leaves it. -/
def Label.ends (ℓ : Label) (t : TaskId) (p : Await) : Bool :=
  match ℓ with
  | fail t' => t' = t
  | cancel t' => t' = t && !p.defers
  | ℓ => ℓ.task = some t && p.last

/-- The next stretch of a task is not the end where a step of the task is not. -/
theorem Label.last_of_not_ends {ℓ : Label} {t : TaskId} {p : Await} (hℓ : ℓ.task = some t)
    (hn : ℓ.ends t p = false) :
  p.last = false
  := by
  cases ℓ with
  | fail t' =>
      obtain rfl := Option.some.inj hℓ
      simp [ends] at hn
  | cancel t' =>
      obtain rfl := Option.some.inj hℓ
      have hd : p.defers = true := by simpa [ends] using hn
      unfold Await.defers at hd
      split at hd
      · rfl
      · rfl
      · contradiction
  | call c => contradiction
  | tick n => contradiction
  | _ => simpa [ends, hℓ] using hn

namespace Service

variable {s s' : Service} {ℓ : Label} {t : TaskId} {p q : Await}

/-- A move goes on with the event or is the end of it. -/
theorem Move.handles (h : Move s ℓ t p q s') :
  q.handles = p.handles ∨ q.handles = none
  := by
  cases h with
  | present hp hc hr he => exact .inl ((Await.handles_raised _ _).trans he)
  | wait hp hc hr he => exact .inl he
  | found hl hr => exact .inl (Await.handles_raised _ _)
  | insert hc => exact .inl (Await.handles_raised _ _)
  | refuse hc => apply Await.handles_refused
  | @released _ k _ _ =>
      right
      cases k <;> rfl
  | unwind hℓ hq =>
      right
      rcases hq with ⟨_, rfl⟩ | ⟨_, _, _, _, rfl⟩ <;> rfl
  | quiet h => apply h.handles
  | duplicate => exact .inr rfl
  | missing => exact .inr rfl
  | chatted => exact .inr rfl
  | broken hh => exact .inr rfl
  | processed => exact .inr rfl
  | pop hp hr _ => exact .inr rfl
  | spawned hp _ => exact .inr rfl
  | _ => exact .inl rfl

/-- A new task leaves what the others handle. -/
theorem handles_spawn (s : Service) (c : Call) {e : Event}
    (he : Pool.attr Await.handles s.tasks t = some e) :
  Pool.attr Await.handles (s.spawn (.called c)).tasks t = some e
  := by
  obtain ⟨p, hp, -⟩ := Pool.exists_of_attr he
  rw [spawn, Pool.attr_concat, if_neg, he]
  apply (List.getElem?_eq_some_iff.mp hp).1.ne

/-- A move goes on with the event unless it is the end of its handling. -/
theorem Move.goesOn (h : Move s ℓ t p q s') (hℓ : ℓ.task = some t) {e : Event}
    (he : p.handles = some e) (hn : ℓ.ends t p = false) :
  q.handles = some e
  := by
  have hlast := Label.last_of_not_ends hℓ hn
  have hnone : ∀ {α : Prop}, p.handles = none → α := by
    intro α h
    rw [he] at h
    contradiction
  cases h with
  | present hp hc hr hc' => apply (Await.handles_raised _ _).trans (hc'.trans he)
  | wait hp hc hr hc' => apply hc'.trans he
  | found hl hr => apply (Await.handles_raised _ _).trans he
  | insert hc => apply (Await.handles_raised _ _).trans he
  | @refuse _ c claim hc =>
      rcases Await.handles_refused c claim with hq | hq
      · apply hq.trans he
      · simp [Await.last, hq, hc] at hlast
  | duplicate => contradiction
  | missing => contradiction
  | chatted => contradiction
  | broken hh =>
      apply absurd hh
      simpa [Await.last] using hlast
  | processed => contradiction
  | pop hp hr hpn => apply hnone hpn
  | spawned hp hpn => apply hnone hpn
  | unwind hℓ' hq hd =>
      rcases hℓ' with rfl | rfl
      · simp [Label.ends] at hn
      · simp [Label.ends, hd rfl] at hn
  | quiet h =>
      cases h with
      | skip h e' he' => apply he'.symm.trans he
      | peek h e' he' => apply he'.symm.trans he
      | handOff e' claim hc =>
          rcases Await.handles_handOff e' claim with hq | hq
          · apply hq.trans he
          · simp [Await.last, hq] at hlast
            rcases hc with hc | hc
            · apply absurd hc hlast.1
            · apply absurd hc hlast.2
      | ended h result hpn => apply hnone hpn
      | notSkipped e' result => contradiction
      | skipMarked e' result => contradiction
      | forwarded e' address result => contradiction
      | _ => apply he
  | _ => first | exact he | contradiction

/-- A step goes on with every event of which it does not end the handling. -/
theorem Steps.goesOn (h : s.Steps ℓ s') {e : Event}
    (he : Pool.attr Await.handles s.tasks t = some e)
    (hn : ∀ p, s.tasks[t]? = some p → ℓ.ends t p = false) :
  Pool.attr Await.handles s'.tasks t = some e
  := by
  cases h with
  | call c _ => apply handles_spawn s c he
  | tick n _ => apply he
  | @move t' p q s' ht h hℓ =>
      rw [h.attr_of (fun _ => rfl) Await.handles_cancelExec ht, Function.update_apply]
      split
      · rename_i e'
        subst e'
        rw [Pool.attr_of_getElem? ht] at he
        apply h.goesOn hℓ he (hn p ht)
      · apply he

/-- An event that is handled after a step was handled before it, unless its handling is what
the step begins. -/
theorem Steps.handles (h : s.Steps ℓ s') {e : Event}
    (he : Pool.attr Await.handles s'.tasks t = some e) :
  Pool.attr Await.handles s.tasks t = some e ∨ ℓ = .call (.handleEvent e)
  := by
  cases h with
  | call c hℓ =>
      rw [spawn, Pool.attr_concat] at he
      split at he
      · cases c with
        | handleEvent e' =>
            obtain rfl : e' = e := Option.some.inj he
            exact .inr hℓ
        | _ => contradiction
      · exact .inl he
  | tick n _ => exact .inl he
  | move ht h =>
      left
      rw [h.attr_of (fun _ => rfl) Await.handles_cancelExec ht] at he
      apply Pool.attr_of_set ht h.handles he

/-- A call of `handle_event` is a task that handles the event. -/
theorem Steps.handles_called {e : Event} (h : s.Steps (.call (.handleEvent e)) s') :
  Pool.attr Await.handles s'.tasks s.tasks.length = some e
  := by
  cases h with
  | call c hℓ =>
      obtain rfl := Label.call.inj hℓ
      rw [spawn, Pool.attr_concat, if_pos rfl]
      rfl
  | tick n hℓ => contradiction
  | move ht h hℓ => contradiction

end Service

variable {db db' : Db} {R : RunnerId} {p q : Await}

/-- A task goes on with its event while a statement is executed. -/
theorem Reply.handles (h : Reply db R p db' q) :
  q.handles = p.handles
  := by cases h <;> rfl

/-- The runners write no messages. -/
theorem Reply.outbox (h : Reply db R p db' q) :
  db'.outbox = db.outbox
  := by
  have hbegin : ∀ {e : Event} {fresh : Bool}, Store.beginEvent db e = some (db', fresh) →
      db'.outbox = db.outbox := by
    intro e fresh hb
    obtain ⟨⟨_, rfl⟩, -⟩ := Store.beginEvent_frame hb
    rfl
  cases h with
  | skipBegin hb => apply hbegin hb
  | begin hb => apply hbegin hb
  | claimed hc =>
      obtain ⟨rfl, -⟩ := Store.claimInstance_hit hc
      rfl
  | release =>
      rw [Store.releaseInstance_eq]
      split <;> rfl
  | _ => rfl

/-- A reaction that a statement leaves unprocessed was so before, or is that of its task. -/
theorem Reply.unprocessed (h : Reply db R p db' q) {k : Reaction} (hk : Unprocessed db' k) :
  Unprocessed db k ∨ p.reaction = some k
  := by
  have hbegin : ∀ {e : Event} {fresh : Bool}, Store.beginEvent db e = some (db', fresh) →
      Unprocessed db k ∨ e.reaction = k := by
    intro e fresh hb
    rcases Store.beginEvent_cases hb with ⟨_, _, _, rfl⟩ | ⟨hn, -, -, rfl⟩
    · exact .inl hk
    · obtain ⟨r, hr, hp⟩ := hk
      rw [Table.find_insert] at hr
      split at hr
      · rename_i e'
        exact .inr e'.symm
      · exact .inl ⟨r, hr, hp⟩
  have hmark : ∀ {k'}, Unprocessed (Store.markProcessed db k') k → Unprocessed db k := by
    rintro k' ⟨r, hr, hp⟩
    rw [Store.find_markProcessed] at hr
    obtain ⟨r', hr', rfl⟩ := Option.map_eq_some_iff.mp hr
    split at hp
    · contradiction
    · exact ⟨r', hr', hp⟩
  cases h with
  | skipBegin hb => apply (hbegin hb).imp_right (congrArg some)
  | begin hb => apply (hbegin hb).imp_right (congrArg some)
  | skipMark => exact .inl (hmark hk)
  | mark => exact .inl (hmark hk)
  | claimed hc =>
      obtain ⟨rfl, -⟩ := Store.claimInstance_hit hc
      exact .inl hk
  | release =>
      rw [Store.releaseInstance_eq] at hk
      split at hk <;> exact .inl hk
  | _ => exact .inl hk

end Runner
