import GitAgent.Runner.System

/-!
# The reactions of an instance

`begin_event` reads whether a reaction was processed, before the turn waits for its lock, and
`mark_processed` records it after the turn has executed. Two deliveries that both read the
reaction as unprocessed both execute it, and so does a delivery after one whose execution
finished but was never marked. Where neither happens, nothing is executed after it was
marked, and at most one execution of a reaction finishes.
-/

namespace Runner

open Hub (InstanceId EventId RunnerId Db Reaction)
open Store (Unprocessed)

namespace Await

/-- The reaction that the task has read as unprocessed and has not marked. -/
def pending : Await → Option Reaction
  | begin e _ (some true) | turnLock (.event e) _ | context (.event e) _ _ => some e.reaction
  | opened (.event e) _ | turn (.event e) _ _ | closing (.event e) _ _ => some e.reaction
  | mark e _ false | skipBegin e (some true) | skipMark e false => some e.reaction
  | _ => none

/-- The reaction of which the task has finished the execution and which it has not marked. -/
def succeeded : Await → Option Reaction
  | turn (.event e) _ (.ended .finished) | closing (.event e) _ .finished => some e.reaction
  | mark e _ false => some e.reaction
  | _ => none

/-- The event that the task is to look up in the journal. -/
def reads : Await → Option Event
  | begin e _ none | skipBegin e none => some e
  | _ => none

theorem stable_pending : Stable pending :=
  ⟨fun _ => rfl, fun _ => rfl, cancelExec_eq fun _ _ _ => rfl⟩

theorem stable_succeeded : Stable succeeded :=
  ⟨fun _ => rfl, fun _ => rfl, cancelExec_eq fun _ _ _ => rfl⟩

/-- An execution that finished is of a reaction that is still to be marked. -/
theorem pending_of_succeeded {p : Await} {k : Reaction} (h : p.succeeded = some k) :
  p.pending = some k
  := by
  unfold succeeded at h
  split at h <;> first | apply h | contradiction

/-- A task without a reaction still to be marked. -/
theorem succeeded_of_pending {p : Await} (h : p.pending = none) :
  p.succeeded = none
  := by
  cases hs : p.succeeded with
  | none => rfl
  | some k =>
      rw [pending_of_succeeded hs] at h
      contradiction

theorem Idle.pending {p : Await} (h : p.Idle) : p.pending = none := by
  cases h <;> rfl

theorem pending_handOff (e : Event) (claim : ClaimResult) : (handOff e claim).pending = none := by
  rw [handOff]
  split
  · split <;> rfl
  · rfl

theorem pending_raised (c : Caller) (r : Ref) : (c.raised r).pending = none := by
  unfold Caller.raised
  split <;> rfl

theorem pending_refused (c : Caller) (claim : ClaimResult) : (c.refused claim).pending = none := by
  unfold Caller.refused
  split
  · rfl
  · apply pending_handOff
  · rfl
  · rfl

theorem pending_next (k : Stopper) : k.next.pending = none := by
  cases k <;> rfl

end Await

namespace Service

variable {s s' : Service} {ℓ : Label} {t : TaskId} {p q : Await}

/-- What a move does to the reaction of its task: the task goes on with it, or gives it up
before its execution has finished or by a fault, or finishes its execution. -/
inductive Reacting (s : Service) (ℓ : Label) (t : TaskId) (p q : Await) (s' : Service) : Prop
  | keep (hp : q.pending = p.pending) (hs : q.succeeded = p.succeeded)
      (he : s'.executed = s.executed)
  | drop (hq : q.pending = none)
      (hs : p.succeeded = none ∨ (ℓ = .fail t ∨ ℓ = .cancel t))
      (he : s'.executed = s.executed)
  | finish (e : Event) (hp : p.pending = some e.reaction) (hps : p.succeeded = none)
      (hq : q.pending = some e.reaction) (hqs : q.succeeded = some e.reaction)
      (he : s'.executed = s.executed ++ [e.reaction])

/-- A quiet move goes on with the reaction, or has none. -/
theorem reacting_quiet (h : p.Quiet q) :
  Reacting s ℓ t p q (s.await t q)
  := by
  cases h with
  | skip h e => exact .drop rfl (.inl (Await.succeeded_of_pending h.pending)) rfl
  | peek h e => exact .drop rfl (.inl (Await.succeeded_of_pending h.pending)) rfl
  | handOff e claim _ =>
      exact .drop (Await.pending_handOff _ _) (.inl (Await.succeeded_of_pending rfl)) rfl
  | ended h result => exact .drop rfl (.inl (Await.succeeded_of_pending h.pending)) rfl
  | context k r => cases k <;> exact .keep rfl rfl rfl
  | cancelling k r b => cases k <;> exact .keep rfl rfl rfl
  | closing k r how => cases k <;> cases how <;> exact .keep rfl rfl rfl
  | _ => exact .keep rfl rfl rfl

/-- What a move does to the reaction of its task. -/
theorem Move.reacting (h : Move s ℓ t p q s') :
  Reacting s ℓ t p q s'
  := by
  cases h with
  | present hp hc hr =>
      exact .drop (Await.pending_raised _ _) (.inl (Await.succeeded_of_pending hp.pending)) rfl
  | wait hp hc hr => exact .drop rfl (.inl (Await.succeeded_of_pending hp.pending)) rfl
  | found hl hr => exact .drop (Await.pending_raised _ _) (.inl rfl) rfl
  | insert hc => exact .drop (Await.pending_raised _ _) (.inl rfl) rfl
  | refuse hc => exact .drop (Await.pending_refused _ _) (.inl rfl) rfl
  | enter hl =>
      rename_i k r
      cases k <;> exact .keep rfl rfl rfl
  | start =>
      rename_i k r
      cases k <;> exact .keep rfl rfl rfl
  | @ends _ k r b how hb =>
      cases k with
      | event e =>
          cases how with
          | finished => exact .finish e rfl rfl rfl rfl rfl
          | _ => exact .keep rfl rfl (List.append_nil _)
      | chat id message => exact .keep rfl rfl (List.append_nil _)
  | marking => exact .keep rfl rfl rfl
  | @broken _ k r how hh =>
      refine .drop rfl (.inl ?_) rfl
      cases k <;> cases how <;> first | rfl | contradiction
  | pop hp hr =>
      apply Reacting.drop rfl (.inl (Await.succeeded_of_pending hp.pending))
      rw [stop, cancelTurn]
      split <;> rfl
  | released => exact .drop (Await.pending_next _) (.inl rfl) rfl
  | unwind hℓ hq =>
      have hn : q.pending = none := by
        rcases hq with ⟨_, rfl⟩ | ⟨_, _, _, _, rfl⟩ <;> rfl
      apply Reacting.drop hn (.inr hℓ)
      cases p <;> rfl
  | spawned hp => exact .drop rfl (.inl (Await.succeeded_of_pending hp.pending)) rfl
  | quiet h => apply reacting_quiet h
  | fresh => exact .keep rfl rfl rfl
  | _ => exact .drop rfl (.inl rfl) rfl

/-- The task `t` has no execution that finished and is still to be marked. -/
def NotSucceeded (s : Service) (t : TaskId) : Prop :=
  ∀ p ∈ s.tasks[t]?, p.succeeded = none

instance (s : Service) (t : TaskId) : Decidable (s.NotSucceeded t) :=
  inferInstanceAs (Decidable (∀ p ∈ s.tasks[t]?, _))

end Service

/-- What a statement does to the journal and the reaction of its task: nothing, or the task
reads the reaction as unprocessed, or marks it. -/
inductive JournalReply (db : Db) (p : Await) (db' : Db) (q : Await) : Prop
  | same (hp : q.pending = p.pending) (hs : q.succeeded = p.succeeded)
      (hu : ∀ k, Unprocessed db k → Unprocessed db' k) (ha : db'.processedAt = db.processedAt)
  | read (e : Event) (hp : p.reads = some e) (hq : q.pending = some e.reaction)
      (hs : q.succeeded = p.succeeded) (hk : Unprocessed db' e.reaction)
      (hu : ∀ k, Unprocessed db k → Unprocessed db' k) (ha : db'.processedAt = db.processedAt)
  | mark (k : Reaction) (hp : p.pending = some k) (hq : q.pending = none)
      (hd : db' = Store.markProcessed db k)

/-- What a statement does to the journal. -/
theorem Reply.journal {db db' : Db} {R : RunnerId} {p q : Await} (h : Reply db R p db' q) :
  JournalReply db p db' q
  := by
  cases h with
  | claimed h =>
      obtain ⟨rfl, -, -⟩ := Store.claimInstance_hit h
      exact .same rfl rfl (fun k hk => hk) rfl
  | @skipBegin e db' fresh h =>
      have ha := (Store.beginEvent_frame h).2
      cases fresh with
      | true => exact .read e rfl rfl rfl (Store.beginEvent_true h) (fun k hk => hk.beginEvent h) ha
      | false => exact .same rfl rfl (fun k hk => hk.beginEvent h) ha
  | @begin e r db' fresh h =>
      have ha := (Store.beginEvent_frame h).2
      cases fresh with
      | true => exact .read e rfl rfl rfl (Store.beginEvent_true h) (fun k hk => hk.beginEvent h) ha
      | false => exact .same rfl rfl (fun k hk => hk.beginEvent h) ha
  | skipMark => exact .mark _ rfl rfl rfl
  | mark => exact .mark _ rfl rfl rfl
  | @context k r =>
      cases k <;> exact .same rfl rfl (fun k hk => hk) rfl
  | release =>
      rw [Store.releaseInstance_eq]
      split <;> exact .same rfl rfl (fun k hk => hk) rfl
  | _ => exact .same rfl rfl (fun k hk => hk) rfl

namespace State

/-- No execution of a reaction that was marked as processed is about to start, and at most one
execution of a reaction has finished. A task that has opened its turn starts the execution by
its next step. -/
def ReactsOnce (s : State) : Prop :=
  (∀ (t : TaskId) (e : Event) (r : Ref), s.service.tasks[t]? = some (.opened (.event e) r) →
    s.db.processedAt e.reaction = none) ∧
  ∀ k, s.service.executed.count k ≤ 1

/-- The action does not read a reaction as unprocessed that another task has read so and has
not marked, and is no fault of a task whose execution finished and is still to be marked. -/
def ReadsApart (s : State) : Action → Prop
  | .stmt t =>
      ∀ e ∈ s.service.tasks[t]?.bind Await.reads, s.db.processedAt e.reaction = none →
        ∀ p ∈ s.service.tasks, p.pending ≠ some e.reaction
  | .step (.fail t) => s.service.NotSucceeded t
  | .step (.cancel t) => s.service.NotSucceeded t
  | .step _ => True

instance (s : State) (a : Action) : Decidable (s.ReadsApart a) := by
  delta ReadsApart
  rcases a with ℓ | t
  · rcases ℓ <;> dsimp only <;> infer_instance
  · dsimp only
    infer_instance

/-- The invariant of these runs: a reaction that is still to be marked is recorded as
unprocessed and is that of one task, and where an execution finished the reaction is marked
or still to be marked. -/
structure Reactive (s : State) : Prop where
  unprocessed : ∀ t k, Pool.attr Await.pending s.service.tasks t = some k → Unprocessed s.db k
  unique : ∀ t t' k, Pool.attr Await.pending s.service.tasks t = some k →
    Pool.attr Await.pending s.service.tasks t' = some k → t = t'
  once : ∀ k, s.service.executed.count k ≤ 1
  finished : ∀ k, s.service.executed.count k ≠ 0 →
    s.db.processedAt k ≠ none ∨ ∃ t, Pool.attr Await.succeeded s.service.tasks t = some k

namespace Reactive

variable {s : State} {service : Service} {ℓ : Label} {t : TaskId} {p q : Await}

/-- A task whose execution finished has its reaction still to mark. -/
theorem pending_of_succeeded {l : List Await} {k : Reaction}
    (h : Pool.attr Await.succeeded l t = some k) :
  Pool.attr Await.pending l t = some k
  := by
  obtain ⟨p, hp, hs⟩ := Pool.exists_of_attr h
  rw [Pool.attr_of_getElem? hp, Await.pending_of_succeeded hs]

/-- Where a task has a reaction still to mark and its execution has not finished, none of the
reaction has. -/
theorem count_eq_zero (hs : s.Reactive) {k : Reaction}
    (hp : Pool.attr Await.pending s.service.tasks t = some k)
    (hn : Pool.attr Await.succeeded s.service.tasks t = none) :
  s.service.executed.count k = 0
  := by
  by_contra hc
  rcases hs.finished k hc with ha | ⟨t', ht'⟩
  · apply ha (hs.unprocessed t k hp).processedAt
  · obtain rfl := hs.unique t t' k hp (pending_of_succeeded ht')
    rw [hn] at ht'
    contradiction

/-- A move that keeps to the condition keeps the invariant. -/
theorem move (hs : s.Reactive) (hG : s.ReadsApart (.step ℓ)) (ht : s.service.tasks[t]? = some p)
    (h : s.service.Move ℓ t p q service) :
  Reactive ⟨s.db, service⟩
  := by
  have hp := Pool.attr_of_getElem? (f := Await.pending) ht
  have hps := Pool.attr_of_getElem? (f := Await.succeeded) ht
  have hsucc := h.attr Await.stable_succeeded ht
  have hold : q.pending = p.pending ∨ q.pending = none := by
    cases h.reacting with
    | keep hq _ _ => exact .inl hq
    | drop hq _ _ => exact .inr hq
    | finish e hp _ hq _ _ => exact .inl (hq.trans hp.symm)
  have hpend : ∀ {t' k}, Pool.attr Await.pending service.tasks t' = some k →
      Pool.attr Await.pending s.service.tasks t' = some k :=
    h.attr_old Await.stable_pending ht hold
  have hne : ∀ {e : Event} (k), e.reaction ≠ k → k ∉ [e.reaction] := by
    intro e k hk hm
    apply hk (List.mem_singleton.mp hm).symm
  constructor
  · exact fun t' k h' => hs.unprocessed t' k (hpend h')
  · exact fun t₁ t₂ k h₁ h₂ => hs.unique t₁ t₂ k (hpend h₁) (hpend h₂)
  · intro k
    cases h.reacting with
    | keep _ _ he =>
        simp only [he]
        apply hs.once
    | drop _ _ he =>
        simp only [he]
        apply hs.once
    | finish e hpp hpn _ _ he =>
        simp only [he, List.count_append]
        by_cases e' : e.reaction = k
        · subst e'
          rw [hs.count_eq_zero (hp.trans hpp) (hps.trans hpn), List.count_singleton_self]
        · rw [List.count_eq_zero_of_not_mem (hne k e')]
          apply hs.once
  · intro k hc
    cases h.reacting with
    | keep _ hq he =>
        simp only [he] at hc
        rw [hsucc, hq, ← hps, Function.update_eq_self]
        apply hs.finished k hc
    | drop hq hd he =>
        simp only [he] at hc
        rcases hs.finished k hc with ha | ⟨t', ht'⟩
        · exact .inl ha
        · right
          use t'
          rw [hsucc, Function.update_of_ne, ht']
          rintro rfl
          rw [hps] at ht'
          rcases hd with hd | rfl | rfl
          · rw [hd] at ht'
            contradiction
          · have := hG p ht
            rw [this] at ht'
            contradiction
          · have := hG p ht
            rw [this] at ht'
            contradiction
    | finish e hpp hpn _ hqs he =>
        by_cases e' : e.reaction = k
        · right
          use t
          rw [hsucc, Function.update_self, hqs, e']
        · simp only [he, List.count_append] at hc
          rw [List.count_eq_zero_of_not_mem (hne k e')] at hc
          rcases hs.finished k hc with ha | ⟨t', ht'⟩
          · exact .inl ha
          · right
            use t'
            rw [hsucc, Function.update_of_ne, ht']
            rintro rfl
            rw [hps, hpn] at ht'
            contradiction

/-- A statement that keeps to the condition keeps the invariant. -/
theorem reply {db : Db} (hs : s.Reactive) (hG : s.ReadsApart (.stmt t))
    (ht : s.service.tasks[t]? = some p) (h : Reply s.db s.service.runnerId p db q) :
  Reactive ⟨db, s.service.await t q⟩
  := by
  have hps := Pool.attr_of_getElem? (f := Await.succeeded) ht
  cases h.journal with
  | same hq hqs hu ha =>
      constructor
      · rw [Service.await, Pool.attr_set_of_eq ht hq]
        exact fun t' k h' => hu k (hs.unprocessed t' k h')
      · rw [Service.await, Pool.attr_set_of_eq ht hq]
        apply hs.unique
      · apply hs.once
      · rw [Service.await, Pool.attr_set_of_eq ht hqs, ha]
        apply hs.finished
  | read e hp hq hqs hk hu ha =>
      -- Nobody else has the reaction still to mark.
      have hapart : ∀ t', Pool.attr Await.pending s.service.tasks t' ≠ some e.reaction := by
        intro t' h'
        obtain ⟨p', hp', hpend⟩ := Pool.exists_of_attr h'
        have hreads : e ∈ s.service.tasks[t]?.bind Await.reads := by
          rw [ht]
          apply hp
        apply hG e hreads _ p' (List.mem_of_getElem? hp') hpend
        rw [← ha]
        apply hk.processedAt
      constructor
      · intro t' k h'
        simp only [Service.await, Pool.attr_set ht, Function.update_apply] at h'
        split at h'
        · rw [hq] at h'
          obtain rfl := Option.some.inj h'
          apply hk
        · apply hu k (hs.unprocessed t' k h')
      · intro t₁ t₂ k h₁ h₂
        simp only [Service.await, Pool.attr_set ht, Function.update_apply, hq] at h₁ h₂
        split at h₁ <;> split at h₂
        · rename_i e₁ e₂
          rw [e₁, e₂]
        · obtain rfl := Option.some.inj h₁
          apply absurd h₂ (hapart t₂)
        · obtain rfl := Option.some.inj h₂
          apply absurd h₁ (hapart t₁)
        · apply hs.unique t₁ t₂ k h₁ h₂
      · apply hs.once
      · rw [Service.await, Pool.attr_set_of_eq ht hqs, ha]
        apply hs.finished
  | mark k hp hq hd =>
      have hpp := (Pool.attr_of_getElem? (f := Await.pending) ht).trans hp
      have hpend : ∀ {t' k'}, Pool.attr Await.pending (s.service.await t q).tasks t' = some k' →
          k' ≠ k ∧ Pool.attr Await.pending s.service.tasks t' = some k' := by
        intro t' k' h'
        simp only [Service.await, Pool.attr_set ht, Function.update_apply, hq] at h'
        split at h'
        · contradiction
        · rename_i hne
          refine ⟨?_, h'⟩
          rintro rfl
          apply hne (hs.unique t' t k' h' hpp)
      constructor
      · intro t' k' h'
        obtain ⟨hne, h'⟩ := hpend h'
        rw [hd]
        apply (hs.unprocessed t' k' h').markProcessed hne
      · exact fun t₁ t₂ k' h₁ h₂ => hs.unique t₁ t₂ k' (hpend h₁).2 (hpend h₂).2
      · apply hs.once
      · intro k' hc
        by_cases e : k' = k
        · left
          subst e
          rw [hd]
          apply (hs.unprocessed t k' hpp).processedAt_markProcessed
        · rcases hs.finished k' hc with ha | ⟨t', ht'⟩
          · left
            rw [hd]
            apply Store.processedAt_markProcessed ha
          · right
            use t'
            rw [Service.await, Pool.attr_set ht, Function.update_of_ne, ht']
            rintro rfl
            have := pending_of_succeeded ht'
            rw [hpp] at this
            apply e (Option.some.inj this).symm

end Reactive

end State

section

variable {R : RunnerId} {slots : ℕ} {P : Db → Prop} {s : State}

/-- The invariant holds in the runs that keep to the condition. -/
theorem reactive_of_reach (h : (system R slots P).Reach State.ReadsApart s) :
  s.Reactive
  := by
  apply h.invariant (I := State.Reactive)
  · rintro ⟨db, service⟩ ⟨_, idleTimeout, clock, rfl⟩
    constructor
    · intro t k h
      contradiction
    · intro t t' k h
      contradiction
    · intro k
      apply Nat.zero_le
    · intro k hc
      contradiction
  · intro s a s' hs hG ha
    cases State.act_cases ha with
    | step h =>
        cases h with
        | call c _ =>
            have hp := Pool.attr_append (l := s.service.tasks) (Await.stable_pending.called c)
            have hq := Pool.attr_append (l := s.service.tasks) (Await.stable_succeeded.called c)
            constructor
            · rw [Service.spawn, hp]
              apply hs.unprocessed
            · rw [Service.spawn, hp]
              apply hs.unique
            · apply hs.once
            · rw [Service.spawn, hq]
              apply hs.finished
        | tick n _ => exact ⟨hs.unprocessed, hs.unique, hs.once, hs.finished⟩
        | move ht h => apply hs.move hG ht h
    | stmt ht h => apply hs.reply hG ht h

/-- **A reaction runs once**: in a run in which no reaction is read as unprocessed while
another task that read it so has not marked it, and no fault meets a task between the end of
a successful execution and its mark, no execution starts after the reaction was marked, and
at most one execution of it finishes. -/
theorem reactsOnce_of_readsApart (h : (system R slots P).Reach State.ReadsApart s) :
  s.ReactsOnce
  := by
  have hs := reactive_of_reach h
  refine ⟨?_, hs.once⟩
  intro t e r ht
  apply (hs.unprocessed t e.reaction _).processedAt
  rw [Pool.attr_of_getElem? ht]
  rfl

end

/-- An event is executed and marked, and its second delivery is a duplicate. -/
theorem reactsOnce_of_readsApart_duplicate :
  ∃ s, (system 1 1 fun _ => True).Reach State.ReadsApart s ∧
    s.service.tasks[1]? = some (.done (.outcome .duplicate)) ∧ s.ReactsOnce
  := by
  obtain ⟨s, hs, hp⟩ := Transition.exists_reach_of_run (T := system 1 1 fun _ => True)
    (G := State.ReadsApart) (s := ⟨.single, .start 1 1 10 0⟩) ⟨trivial, 10, 0, rfl⟩
    [.step (.call (.handleEvent .single)), .step (.run 0), .stmt 0, .step (.run 0),
      .step (.run 0), .step (.run 0), .stmt 0, .step (.run 0), .stmt 0, .step (.run 0),
      .step (.run 0), .stmt 0, .step (.run 0), .step (.run 0), .step (.turnEnds 0 .finished),
      .step (.run 0), .step (.run 0), .stmt 0, .step (.run 0),
      .step (.call (.handleEvent .single)), .step (.run 1), .stmt 1, .step (.run 1)]
    (fun s => s.service.tasks[1]? = some (.done (.outcome .duplicate))) (by decide)
  exact ⟨s, hs, of_decide_eq_true hp, reactsOnce_of_readsApart hs⟩

/-- Two deliveries of an event both read it as unprocessed before the first takes the lock of
the turns, and both are executed to the end. -/
theorem not_reactsOnce_reachable :
  ∃ s, (system 1 1 fun _ => True).Reachable s ∧ ¬ s.ReactsOnce
  := by
  obtain ⟨s, hs, hp⟩ := Transition.exists_reach_of_run (T := system 1 1 fun _ => True)
    (G := fun _ _ => True) (s := ⟨.single, .start 1 1 10 0⟩) ⟨trivial, 10, 0, rfl⟩
    [.step (.call (.handleEvent .single)), .step (.run 0), .stmt 0, .step (.run 0),
      .step (.run 0), .step (.run 0), .stmt 0, .step (.run 0),
      .step (.call (.handleEvent .single)), .step (.run 1), .stmt 0, .stmt 1, .step (.run 0),
      .step (.run 0), .step (.run 1), .stmt 0, .step (.run 0), .step (.run 0),
      .step (.turnEnds 0 .finished), .step (.run 0), .step (.run 0), .stmt 0, .step (.run 0),
      .step (.run 1), .stmt 1, .step (.run 1), .step (.run 1), .step (.turnEnds 1 .finished)]
    (fun s => s.service.executed.count (Event.reaction .single) = 2) (by decide)
  refine ⟨s, hs, ?_⟩
  intro ho
  have := ho.2 (Event.reaction .single)
  rw [of_decide_eq_true hp] at this
  contradiction

end Runner
