import GitAgent.Runner.Turns

/-!
# The idle instances

A pass of `reap_idle` walks a snapshot of the raised instances, and looks at the objects of the
snapshot. What it stops is the object that is raised under the same id when its turn comes. If
that is the object it has looked at, no turn and no command of the terminal is executing on
it, and it was last active longer ago than the timeout.
-/

namespace Runner

open Hub (InstanceId EventId RunnerId Db)
open Sync (Lock)

namespace Await

/-- The object on which a turn is executing. -/
def executesOn : Await → Option Ref
  | turn _ r (.running _) | turn _ r .yielded => some r
  | _ => none

/-- The object whose terminal is in use: the task is inside its lock. -/
def commands : Await → Option Ref
  | termContext _ _ r _ | terminal _ _ r => some r
  | _ => none

/-- The object to whose terminal the task refers. -/
def termRef : Await → Option Ref
  | termLock _ _ r => some r
  | p => p.commands

/-- The time at which the pass of `reap_idle` began. -/
def pass : Await → Option ℕ
  | scan (.reap now _) | stopLock (.reap now _) _ _ | release (.reap now _) _ _ _ => some now
  | _ => none

theorem stable_commands : Stable commands :=
  ⟨fun _ => rfl, fun _ => rfl, cancelExec_eq fun _ _ _ => rfl⟩

theorem stable_termRef : Stable termRef :=
  ⟨fun _ => rfl, fun _ => rfl, cancelExec_eq fun _ _ _ => rfl⟩

theorem stable_pass : Stable pass :=
  ⟨fun _ => rfl, fun _ => rfl, cancelExec_eq fun _ _ _ => rfl⟩

/-- An executing turn holds the lock of the turns. -/
theorem holds_of_executesOn {p : Await} {r : Ref} (h : p.executesOn = some r) :
  p.holds = some r
  := by
  cases p with
  | turn k r' x =>
      cases x with
      | ended how => contradiction
      | _ => apply h
  | _ => contradiction

/-- Who uses the terminal refers to it. -/
theorem termRef_of_commands {p : Await} {r : Ref} (h : p.commands = some r) :
  p.termRef = some r
  := by cases p <;> first | contradiction | apply h

/-- A task that has nothing to do with the terminal. -/
structure Offline (p : Await) : Prop where
  commands : p.commands = none
  termRef : p.termRef = none

theorem Idle.offline {p : Await} (h : p.Idle) : p.Offline := by
  cases h <;> constructor <;> rfl

theorem Offline.handOff (e : Event) (claim : ClaimResult) : Offline (handOff e claim) := by
  rw [Runner.handOff]
  split
  · split <;> constructor <;> rfl
  · constructor <;> rfl

theorem Offline.refused (c : Caller) (claim : ClaimResult) : Offline (c.refused claim) := by
  unfold Caller.refused
  split
  · constructor <;> rfl
  · apply Offline.handOff
  · constructor <;> rfl
  · constructor <;> rfl

theorem Offline.next (k : Stopper) : Offline k.next := by
  cases k <;> constructor <;> rfl

/-- A caller that goes on with the object `r` refers to no other. -/
theorem terminal_raised (c : Caller) (r : Ref) :
  (c.raised r).commands = none ∧ ((c.raised r).termRef = none ∨ (c.raised r).termRef = some r)
  := by
  unfold Caller.raised
  split
  · exact ⟨rfl, .inl rfl⟩
  · exact ⟨rfl, .inl rfl⟩
  · exact ⟨rfl, .inl rfl⟩
  · exact ⟨rfl, .inr rfl⟩

/-- A quiet move refers to the terminal that the task referred to before. -/
theorem Quiet.terminal_eq {p q : Await} (h : p.Quiet q) :
  q.commands = p.commands ∧ q.termRef = p.termRef
  := by
  cases h with
  | handOff e claim _ => exact ⟨(Offline.handOff _ _).commands, (Offline.handOff _ _).termRef⟩
  | skip h _ => exact ⟨h.offline.commands.symm, h.offline.termRef.symm⟩
  | peek h _ => exact ⟨h.offline.commands.symm, h.offline.termRef.symm⟩
  | ended h _ => exact ⟨h.offline.commands.symm, h.offline.termRef.symm⟩
  | _ => exact ⟨rfl, rfl⟩

end Await

namespace Service

variable {s s' : Service} {ℓ : Label} {t : TaskId} {p q : Await}

/-- What a move does to the locks of the terminals: nothing, unless the task takes the lock of
an object or gives it up. The object that is created last is new. -/
inductive TermLock (s : Service) (t : TaskId) (p q : Await) (s' : Service) : Prop
  | same (hq : q.commands = p.commands) (ho : ∀ r, r ≠ s.nextRef →
      (s'.objects r).termLock.owner = (s.objects r).termLock.owner)
  | acquire (r : Ref) (hq : q.commands = some r) (hl : (s.objects r).termLock.Ready t)
      (ho : ∀ r', (s'.objects r').termLock =
        if r' = r then (s.objects r).termLock.acquire t else (s.objects r').termLock)
  | release (r : Ref) (hp : p.commands = some r) (hq : q.commands = none)
      (ho : ∀ r', (s'.objects r').termLock =
        if r' = r then (s.objects r).termLock.release else (s.objects r').termLock)

/-- Suspending a task changes no lock. -/
theorem TermLock.await {p' : Await} (h : TermLock s t p q s') :
  TermLock s t p q (s'.await t p')
  := by
  cases h with
  | same hq ho => exact .same hq ho
  | acquire r hq hl ho => exact .acquire r hq hl ho
  | release r hp hq ho => exact .release r hp hq ho

/-- Modifying an object so that its lock keeps its owner changes no owner. -/
theorem termOwner_modify {r : Ref} {f : LocalInstance → LocalInstance}
    (hf : (f (s.objects r)).termLock.owner = (s.objects r).termLock.owner) (r' : Ref) :
  ((s.modify r f).objects r').termLock.owner = (s.objects r').termLock.owner
  := by
  rw [modify_objects]
  split
  · rename_i h
    rw [h, hf]
  · rfl

/-- Modifying the lock of the terminal of an object. -/
theorem termLock_modify {r : Ref} {f : LocalInstance → LocalInstance} {l : Lock TaskId}
    (hf : (f (s.objects r)).termLock = l) (r' : Ref) :
  ((s.modify r f).objects r').termLock = if r' = r then l else (s.objects r').termLock
  := by
  rw [modify_objects]
  split
  · apply hf
  · rfl

theorem queue_termOwner (c : Caller) (t : TaskId) (o : LocalInstance) :
  (c.queue t o).termLock.owner = o.termLock.owner
  := by
  unfold Caller.queue
  split <;> rfl

theorem finally_termLock (k : Turn) (o : LocalInstance) :
  (k.finally o).termLock = o.termLock
  := by cases k <;> rfl

theorem begin_termLock (k : Turn) (t : TaskId) (o : LocalInstance) :
  (k.begin t o).termLock = o.termLock
  := by cases k <;> rfl

/-- A caller that goes on with an object takes no lock. -/
theorem termOwner_resume (s : Service) (t : TaskId) (c : Caller) (r r' : Ref) :
  ((s.resume t c r).objects r').termLock.owner = (s.objects r').termLock.owner
  := termOwner_modify (queue_termOwner c t _) r'

/-- A turn that ends leaves the lock of the terminal. -/
theorem termOwner_leave {r : Ref} {f : LocalInstance → LocalInstance} {result : Result}
    (hf : (f (s.objects r)).termLock = (s.objects r).termLock) (r' : Ref) :
  (((s.modify r f).leave t r result).objects r').termLock.owner = (s.objects r').termLock.owner
  := (termOwner_modify rfl r').trans (termOwner_modify (by rw [hf]) r')

/-- An exception gives up exactly the lock of the terminal that the task holds. -/
theorem termLock_unwind (hq : q.commands = none) :
  TermLock s t p q (s.unwind t p)
  := by
  cases p with
  | termContext id command r reply =>
      rw [unwind]
      exact .release r rfl hq (termLock_modify rfl)
  | terminal id command r =>
      rw [unwind]
      exact .release r rfl hq (termLock_modify rfl)
  | turnLock k r =>
      rw [unwind]
      exact .same hq fun r _ => termOwner_modify rfl r
  | context k r reply =>
      rw [unwind]
      exact .same hq fun r _ => termOwner_modify rfl r
  | opened k r =>
      rw [unwind]
      exact .same hq fun r _ => termOwner_modify rfl r
  | turn k r x =>
      rw [unwind]
      exact .same hq fun r _ => termOwner_modify
        (by simp [LocalInstance.leave, finally_termLock]) r
  | closing k r how =>
      rw [unwind]
      exact .same hq fun r _ => termOwner_modify
        (by simp [LocalInstance.leave, finally_termLock]) r
  | mark e r replied =>
      rw [unwind]
      exact .same hq fun r _ => termOwner_modify rfl r
  | termLock id command r =>
      rw [unwind]
      exact .same hq fun r _ => termOwner_modify rfl r
  | stopLock k id r =>
      rw [unwind]
      exact .same hq fun r _ => termOwner_modify rfl r
  | release k id r replied =>
      rw [unwind]
      exact .same hq fun r _ => termOwner_modify rfl r
  | _ => exact .same hq fun _ _ => rfl

/-- What a move does to the locks of the terminals. -/
theorem Move.termLock (h : Move s ℓ t p q s') :
  TermLock s t p q s'
  := by
  cases h with
  | present hp hc hr =>
      apply TermLock.same
      · rw [(Await.terminal_raised _ _).1, hp.offline.commands]
      · intro r _
        rw [termOwner_resume, termOwner_modify rfl]
  | wait hp hc hr => exact .same hp.offline.commands.symm fun _ _ => rfl
  | found hl hr =>
      apply TermLock.same (Await.terminal_raised _ _).1
      intro r _
      rw [termOwner_resume, termOwner_modify rfl]
  | insert hc =>
      apply TermLock.same (Await.terminal_raised _ _).1
      intro r hr
      rw [termOwner_resume]
      simp only [Function.update_of_ne hr]
  | refuse hc => exact .same (Await.Offline.refused _ _).commands fun _ _ => rfl
  | fresh => exact .await (.same rfl fun r _ => termOwner_modify rfl r)
  | duplicate => exact .await (.same rfl fun r _ => termOwner_modify rfl r)
  | enter hl => exact .await (.same rfl fun r _ => termOwner_modify rfl r)
  | missing => exact .await (.same rfl fun r _ => termOwner_modify rfl r)
  | start => exact .await (.same rfl fun r _ => termOwner_modify (by rw [begin_termLock]) r)
  | marking => exact .await (.same rfl fun r _ => termOwner_modify (by rw [finally_termLock]) r)
  | chatted => exact .same rfl fun r _ => termOwner_leave rfl r
  | broken hh => exact .same rfl fun r _ => termOwner_leave (finally_termLock _ _) r
  | processed => exact .same rfl fun r _ => termOwner_leave rfl r
  | termEnter hl => exact .await (.acquire _ rfl hl (termLock_modify rfl))
  | termMissing => exact .await (.release _ rfl rfl (termLock_modify rfl))
  | termRan => exact .await (.release _ rfl rfl (termLock_modify rfl))
  | @pop _ _ k id r hp hr =>
      apply TermLock.await
      refine TermLock.same hp.offline.commands.symm fun r' _ => ?_
      rw [termOwner_modify rfl, cancelTurn_objects]
  | stopEnter hl => exact .await (.same rfl fun r _ => termOwner_modify rfl r)
  | released =>
      exact .await (.same (Await.Offline.next _).commands fun r _ => termOwner_modify rfl r)
  | unwind hℓ hq =>
      apply TermLock.await
      apply termLock_unwind
      rcases hq with ⟨_, rfl⟩ | ⟨_, _, _, _, rfl⟩ <;> rfl
  | spawned hp => exact .same hp.offline.commands.symm fun _ _ => rfl
  | quiet h => exact .same h.terminal_eq.1 fun _ _ => rfl
  | _ => exact .same rfl fun _ _ => rfl

/-- What a task refers to after a move: the terminal it referred to before, or the object of a
raised instance. -/
theorem Move.termRef (h : Move s ℓ t p q s') :
  q.termRef = none ∨ q.termRef = p.termRef ∨
    ∃ id r, q.termRef = some r ∧ s'.instances.get id = some r
  := by
  have raised : ∀ (c : Caller) (r : Ref), s'.instances.get c.instanceId = some r →
      (c.raised r).termRef = none ∨ (c.raised r).termRef = p.termRef ∨
        ∃ id r', (c.raised r).termRef = some r' ∧ s'.instances.get id = some r' := by
    intro c r hr
    rcases (Await.terminal_raised c r).2 with h | h
    · exact .inl h
    · exact .inr (.inr ⟨_, _, h, hr⟩)
  cases h with
  | present hp hc hr => apply raised _ _ hr
  | found hl hr => apply raised _ _ hr
  | insert hc => apply raised _ _ ((Dict.get_set _ _ _ _).trans (if_pos rfl))
  | refuse hc => exact .inl (Await.Offline.refused _ _).termRef
  | released => exact .inl (Await.Offline.next _).termRef
  | termEnter hl => exact .inr (.inl rfl)
  | unwind hℓ hq =>
      left
      rcases hq with ⟨_, rfl⟩ | ⟨_, _, _, _, rfl⟩ <;> rfl
  | quiet h => exact .inr (.inl h.terminal_eq.2)
  | _ => exact .inl rfl

/-! ### The clock -/

/-- A move leaves the clock and the timeout as they are. -/
theorem Move.clock (h : Move s ℓ t p q s') :
  s'.clock = s.clock ∧ s'.idleTimeout = s.idleTimeout
  := by
  cases h with
  | pop hp hr =>
      rw [stop, cancelTurn]
      split <;> exact ⟨rfl, rfl⟩
  | unwind hℓ hq => cases p <;> exact ⟨rfl, rfl⟩
  | _ => exact ⟨rfl, rfl⟩

/-- A pass of `reap_idle` begins at the time of the clock. -/
theorem Move.pass (h : Move s ℓ t p q s') :
  q.pass = none ∨ q.pass = p.pass ∨ q.pass = some s.clock
  := by
  cases h with
  | @present _ _ _ c r =>
      left
      unfold Caller.raised
      split <;> rfl
  | @found _ c r =>
      left
      unfold Caller.raised
      split <;> rfl
  | @insert _ c =>
      left
      unfold Caller.raised
      split <;> rfl
  | @refuse _ c claim =>
      left
      unfold Caller.refused handOff
      repeat' split
      all_goals rfl
  | @pop _ _ k id r hp hr he hk =>
      cases k with
      | reap now rest =>
          right
          obtain ⟨r', l, hn, ⟨-, rfl, -⟩ | rfl⟩ := hk now rest rfl
          · exact .inr rfl
          · exact .inl rfl
      | _ => exact .inl rfl
  | stopEnter hl => exact .inr (.inl (by cases ‹Stopper› <;> rfl))
  | @released _ k =>
      cases k with
      | reap now rest => exact .inr (.inl rfl)
      | _ => exact .inl rfl
  | unwind hℓ hq =>
      left
      rcases hq with ⟨_, rfl⟩ | ⟨_, _, _, _, rfl⟩ <;> rfl
  | quiet h =>
      left
      cases h with
      | handOff e claim _ =>
          unfold handOff
          repeat' split
          all_goals rfl
      | _ => rfl
  | _ => exact .inl rfl

/-! ### The invariant -/

/-- Who is inside the lock of the terminal of an object owns it, a pass of `reap_idle` began in
the past, and no chat was left behind. -/
structure Watched (s : Service) : Prop where
  refs : ∀ t r, Pool.attr Await.termRef s.tasks t = some r → r < s.nextRef
  termLock : ∀ r, (s.objects r).termLock.Held fun t =>
    Pool.attr Await.commands s.tasks t = some r
  pass : ∀ t now, Pool.attr Await.pass s.tasks t = some now → now ≤ s.clock
  attended : ∀ t, Pool.attr Await.orphan s.tasks t = none

/-- A reply to a task that goes on to refer to the same terminal keeps the invariant. -/
theorem Watched.await (hs : s.Watched) (ht : s.tasks[t]? = some p) (hr : q.termRef = p.termRef)
    (hc : q.commands = p.commands) (hp : q.pass = p.pass) (ho : q.orphan = p.orphan) :
  (s.await t q).Watched
  := by
  constructor
  · rw [Service.await, Pool.attr_set_of_eq ht hr]
    apply hs.refs
  · rw [Service.await, Pool.attr_set_of_eq ht hc]
    apply hs.termLock
  · rw [Service.await, Pool.attr_set_of_eq ht hp]
    apply hs.pass
  · rw [Service.await, Pool.attr_set_of_eq ht ho]
    apply hs.attended

/-- After a move every task inside the lock of the terminal of an object owns it. -/
theorem Watched.termLock_move (hs : s.Watched) (ht : s.tasks[t]? = some p)
    (h : Move s ℓ t p q s') (r : Ref) :
  (s'.objects r).termLock.Held fun t' => Pool.attr Await.commands s'.tasks t' = some r
  := by
  have ha := h.attr Await.stable_commands ht
  have hp := Pool.attr_of_getElem? (f := Await.commands) ht
  -- Another task is where it was before.
  have hother : ∀ t' r', q.commands ≠ some r' → Pool.attr Await.commands s'.tasks t' = some r' →
      t' ≠ t ∧ Pool.attr Await.commands s.tasks t' = some r' := by
    intro t' r' hq ht'
    rw [ha, Function.update_apply] at ht'
    split at ht'
    · contradiction
    · rename_i hne
      exact ⟨hne, ht'⟩
  cases h.termLock with
  | same hq ho =>
      intro t' ht'
      have hold : Pool.attr Await.commands s.tasks t' = some r := by
        rwa [ha, hq, ← hp, Function.update_eq_self] at ht'
      obtain ⟨p', hp', hc⟩ := Pool.exists_of_attr hold
      have hlt : r < s.nextRef := by
        apply hs.refs t'
        rw [Pool.attr_of_getElem? hp', Await.termRef_of_commands hc]
      rw [ho r hlt.ne]
      apply hs.termLock r t' hold
  | acquire r' hq hl ho =>
      by_cases e : r = r'
      · subst e
        rw [ho, if_pos rfl]
        apply (hs.termLock r).acquire hl
        intro t' ht'
        rw [ha, Function.update_apply] at ht'
        split at ht'
        · rename_i e
          exact .inl e
        · exact .inr ht'
      · rw [ho, if_neg e]
        apply (hs.termLock r).mono rfl
        intro t' ht'
        apply (hother t' r (by rw [hq]; simp [Ne.symm e]) ht').2
  | release r' hr' hq ho =>
      have hn : ∀ r, q.commands ≠ some r := by simp [hq]
      by_cases e : r = r'
      · subst e
        rw [ho, if_pos rfl]
        apply (hs.termLock r).release (t := t) (by rw [hp, hr'])
        intro t' ht'
        apply hother t' r (hn r) ht'
      · rw [ho, if_neg e]
        apply (hs.termLock r).mono rfl
        intro t' ht'
        apply (hother t' r (hn r) ht').2

/-- A move that cancels no chat at a `yield` keeps the invariant. -/
theorem Watched.move (hs : s.Watched) (hI : s.Inv) (ht : s.tasks[t]? = some p)
    (h : Move s ℓ t p q s') (hy : ℓ = .cancel t → ¬ s.AtYield t) :
  s'.Watched
  := by
  constructor
  · intro t' r hr
    have hn : s.nextRef ≤ s'.nextRef := by
      cases h.entries with
      | same hi hn hr hs => rw [hn]
      | insert c hp hq hi hn => rw [hn]; apply Nat.le_succ
      | pop k id r hr hp hq hi hn => rw [hn]
    rw [h.attr Await.stable_termRef ht, Function.update_apply] at hr
    split at hr
    · rcases h.termRef with hq | hq | ⟨id, r', hq, hg⟩
      · rw [hq] at hr
        contradiction
      · apply lt_of_lt_of_le _ hn
        apply hs.refs t
        rw [Pool.attr_of_getElem? ht, ← hq, hr]
      · rw [hq] at hr
        obtain rfl := Option.some.inj hr
        apply hI.entries_move h hg
    · apply lt_of_lt_of_le (hs.refs t' r hr) hn
  · apply hs.termLock_move ht h
  · intro t' now hnow
    rw [h.clock.1]
    rw [h.attr Await.stable_pass ht, Function.update_apply] at hnow
    split at hnow
    · rcases h.pass with hq | hq | hq
      · rw [hq] at hnow
        contradiction
      · apply hs.pass t
        rw [Pool.attr_of_getElem? ht, ← hq, hnow]
      · rw [hq] at hnow
        apply (Option.some.inj hnow).ge
    · apply hs.pass t' now hnow
  · intro t'
    rw [h.attr Await.stable_orphan ht, Function.update_apply]
    split
    · rcases h.orphan ht with hq | ⟨rfl, ha⟩
      · apply hq
      · apply absurd ha (hy rfl)
    · apply hs.attended

/-- The task that moves is where it moves to. -/
theorem Move.getElem? (ht : s.tasks[t]? = some p) (h : Move s ℓ t p q s') :
  s'.tasks[t]? = some q
  := by
  have hlt := (List.getElem?_eq_some_iff.mp ht).1
  rcases h.tasks with h | ⟨t', h⟩ | ⟨id, h⟩
  · rw [h, List.getElem?_set_self hlt]
  · rw [h, List.getElem?_set_self (by rwa [List.length_modify])]
  · rw [h, List.getElem?_set_self (by rw [List.length_append]; apply Nat.lt_add_right _ hlt)]

/-- A task that comes to stop an instance removes its object. -/
theorem Move.of_stopLock {k : Stopper} {id : InstanceId} {r : Ref} (h : Move s ℓ t p q s')
    (hq : q = .stopLock k id r) :
  s.instances.get id = some r ∧
    ∀ now rest, k = .reap now rest → ∃ r', s.Reaps p now id r' rest
  := by
  have hst : q.stopping = some (id, r) := by rw [hq]; rfl
  have hbare : ¬ q.Bare := by
    intro hb
    rw [hb.stopping] at hst
    contradiction
  cases h with
  | pop hp hr he hk =>
      obtain ⟨rfl, rfl, rfl⟩ := Await.stopLock.inj hq
      exact ⟨hr, hk⟩
  | present hp hc hr => apply absurd (Await.Bare.raised _ _) hbare
  | found hl hr => apply absurd (Await.Bare.raised _ _) hbare
  | insert hc => apply absurd (Await.Bare.raised _ _) hbare
  | refuse hc => apply absurd (Await.Bare.refused _ _) hbare
  | released => apply absurd (Await.Bare.next _) hbare
  | unwind hℓ hu =>
      rcases hu with ⟨_, rfl⟩ | ⟨_, _, _, _, rfl⟩ <;> contradiction
  | quiet h =>
      cases h with
      | handOff e claim _ => apply absurd (Await.Bare.handOff _ _) hbare
      | _ => contradiction
  | _ => contradiction

/-- A pass of `reap_idle` that goes on stops the object of its snapshot, and no chat is
cancelled at a `yield`. -/
def ReapsOwn (s : Service) : Label → Prop
  | .run t =>
      match s.tasks[t]? with
      | some (.scan (.reap now rest)) =>
          ∀ e ∈ s.nextIdle now rest, s.instances.get e.1.1 = some e.1.2
      | _ => True
  | .cancel t => ¬ s.AtYield t
  | _ => True

instance (s : Service) (ℓ : Label) : Decidable (s.ReapsOwn ℓ) := by
  delta ReapsOwn
  rcases ℓ
  case run t =>
    dsimp only
    generalize s.tasks[t]? = o
    rcases o with _ | p
    · exact instDecidableTrue
    · rcases p
      case scan k => rcases k <;> dsimp only <;> infer_instance
      all_goals exact instDecidableTrue
  all_goals
    dsimp only
    infer_instance

/-- A pass of `reap_idle` passes over no entry that it stops. -/
theorem isActive_of_nextIdle {now : ℕ} {l rest : List (InstanceId × Ref)} {id : InstanceId}
    {r : Ref} (h : s.nextIdle now l = some ((id, r), rest)) :
  (id, r) ∈ l ∧ s.isActive now r = false
  := by
  induction l with
  | nil => contradiction
  | cons e l ih =>
      obtain ⟨id', r'⟩ := e
      rw [nextIdle] at h
      split at h
      · rename_i ha
        obtain ⟨he, -⟩ := Prod.mk.inj (Option.some.inj h)
        obtain ⟨rfl, rfl⟩ := Prod.mk.inj he
        exact ⟨List.mem_cons_self .., Bool.not_eq_true _ ▸ ha.1⟩
      · obtain ⟨hm, ha⟩ := ih h
        exact ⟨List.mem_cons_of_mem _ hm, ha⟩

/-- A pass that stops the object of its snapshot has looked at it. -/
theorem isActive_of_reaps (hG : s.ReapsOwn (.run t)) (ht : s.tasks[t]? = some p) {now : ℕ}
    {id : InstanceId} {r r' : Ref} {rest : List (InstanceId × Ref)} (h : s.Reaps p now id r' rest)
    (hr : s.instances.get id = some r) :
  s.isActive now r = false
  := by
  obtain ⟨l, hn, hl⟩ := h
  obtain ⟨hm, ha⟩ := isActive_of_nextIdle hn
  have hr' : s.instances.get id = some r' := by
    rcases hl with ⟨-, -, rfl⟩ | rfl
    · apply Dict.get_of_mem hm
    · simp only [ReapsOwn, ht] at hG
      apply hG _ hn
  rw [hr] at hr'
  obtain rfl := Option.some.inj hr'
  apply ha

end Service

namespace State

/-- By the action a pass of `reap_idle` removes the entry of the instance `id`, with the
object `r`, to stop it. -/
def Unloads (s : State) (a : Action) (id : InstanceId) (r : Ref) : Prop :=
  ∃ t now rest, a = .step (.run t) ∧
    ((s.act a).bind fun s' => s'.service.tasks[t]?) = some (.stopLock (.reap now rest) id r)

/-- No turn and no command of the terminal is executing on the object `r` of the instance
`id`, and it was last active longer ago than the timeout. -/
structure Unused (s : State) (id : InstanceId) (r : Ref) : Prop where
  turn : ∀ t, Pool.attr Await.executesOn s.service.tasks t ≠ some r
  orphan : ∀ t, Pool.attr Await.orphan s.service.tasks t ≠ some id
  command : ∀ t, Pool.attr Await.commands s.service.tasks t ≠ some r
  idle : s.service.idleTimeout < s.service.clock - (s.service.objects r).lastActivity

/-- A pass of `reap_idle` that goes on stops the object of its snapshot, and no chat is
cancelled at a `yield`. -/
def ReapsOwn (s : State) : Action → Prop
  | .step ℓ => s.service.ReapsOwn ℓ
  | .stmt _ => True

instance (s : State) (a : Action) : Decidable (s.ReapsOwn a) := by
  delta ReapsOwn
  rcases a <;> dsimp only <;> infer_instance

end State

section

variable {R : RunnerId} {slots : ℕ} {P : Db → Prop} {s : State}

/-- In a run in which no chat is cancelled at a `yield`, the objects are watched. -/
theorem watched_of_reach (h : (system R slots P).Reach State.ReapsOwn s) :
  s.service.Watched
  := by
  apply h.invariant_of (I := fun s => s.service.Watched) (J := fun s => s.service.Inv)
    fun s => inv_of_reach
  · rintro ⟨db, service⟩ ⟨_, idleTimeout, clock, rfl⟩
    constructor
    · intro t r h
      contradiction
    · intro r t h
      contradiction
    · intro t now h
      contradiction
    · intro t
      rfl
  · intro s a s' hI hs hG ha
    cases State.act_cases ha with
    | step h =>
        cases h with
        | call c _ =>
            have ha : ∀ {α : Type} {f : Await → Option α}, Await.Stable f →
                Pool.attr f (s.service.spawn (.called c)).tasks = Pool.attr f s.service.tasks :=
              fun hf => Pool.attr_append (hf.called c)
            constructor
            · rw [ha Await.stable_termRef]
              apply hs.refs
            · rw [ha Await.stable_commands]
              apply hs.termLock
            · rw [ha Await.stable_pass]
              apply hs.pass
            · rw [ha Await.stable_orphan]
              apply hs.attended
        | tick n _ =>
            exact ⟨hs.refs, hs.termLock,
              fun t now h => Nat.le_add_right_of_le (hs.pass t now h), hs.attended⟩
        | move ht h =>
            apply hs.move hI ht h
            rintro rfl
            apply hG
    | stmt ht h =>
        apply hs.await ht <;> cases h <;> first | rfl | skip
        all_goals cases ‹Stopper› <;> rfl

/-- **The reaper unloads no active instance**: in a run in which a pass of `reap_idle` stops the
objects of its snapshot, and no chat is cancelled at a `yield`, no turn and no command of the
terminal is executing on an object that a pass removes, and its idle timeout has passed. -/
theorem unused_of_reapsOwn (h : (system R slots P).Reach State.ReapsOwn s) {a : Action}
    (hG : s.ReapsOwn a) {id : InstanceId} {r : Ref} (hu : s.Unloads a id r) :
  s.Unused id r
  := by
  have hI := inv_of_reach h
  have hs := watched_of_reach h
  obtain ⟨t, now, rest, rfl, hu⟩ := hu
  obtain ⟨s', ha, hu⟩ := Option.bind_eq_some_iff.mp hu
  rw [State.act] at ha
  obtain ⟨service, hstep, rfl⟩ := Option.map_eq_some_iff.mp ha
  cases Service.step_cases hstep with
  | call c hℓ => contradiction
  | tick n hℓ => contradiction
  | @move _ p q _ ht hm hℓ =>
      obtain rfl := Option.some.inj hℓ
      obtain rfl := Option.some.inj ((hm.getElem? ht).symm.trans hu)
      obtain ⟨hr, hk⟩ := hm.of_stopLock rfl
      obtain ⟨r', hreap⟩ := hk now rest rfl
      have hidle := Service.isActive_of_reaps hG ht hreap hr
      -- A pass that goes on began in the past.
      have hnow : now ≤ s.service.clock := by
        obtain ⟨l, -, ⟨-, rfl, -⟩ | rfl⟩ := hreap
        · apply le_rfl
        · apply hs.pass t
          rw [Pool.attr_of_getElem? ht]
          rfl
      simp only [Service.isActive, Bool.or_eq_false_iff, decide_eq_false_iff_not] at hidle
      obtain ⟨⟨hlock, hterm⟩, hlast⟩ := hidle
      constructor
      · intro t' h'
        obtain ⟨p', hp', he⟩ := Pool.exists_of_attr h'
        have hh : Pool.attr Await.holds s.service.tasks t' = some r := by
          rw [Pool.attr_of_getElem? hp', Await.holds_of_executesOn he]
        rw [Lock.locked, hI.turnLock r t' hh] at hlock
        contradiction
      · intro t' h'
        rw [hs.attended t'] at h'
        contradiction
      · intro t' h'
        rw [Lock.locked, hs.termLock r t' h'] at hterm
        contradiction
      · omega

end

/-- Two instances, which are down. -/
def twoInstances : Db :=
  { Db.single with
    instances := Db.single.instances.insert (fun n =>
      ⟨n, 1, 2, Hub.threadId 1 2, .down, none, 0, Hub.InstanceRow.check_down⟩)
      fun n => (rfl : n = n) }

/-- The instance `id` is raised by a call whose task is `t`. -/
def raises (id : InstanceId) (t : TaskId) : List Action :=
  [.step (.call (.raiseInstance id)), .step (.run t), .step (.run (t + 1)), .step (.run (t + 1)),
    .step (.run (t + 1)), .stmt (t + 1), .step (.run (t + 1))]

/-- An instance is raised, and the timeout passes. Then a pass stops it. -/
theorem unused_of_reapsOwn_single :
  ∃ s, (system 1 1 fun _ => True).Reach State.ReapsOwn s ∧ s.Unloads (.step (.run 2)) 1 0 ∧
    s.Unused 1 0
  := by
  obtain ⟨s, hs, hp⟩ := Transition.exists_reach_of_run (T := system 1 1 fun _ => True)
    (G := State.ReapsOwn) (s := ⟨.single, .start 1 1 10 0⟩) ⟨trivial, 10, 0, rfl⟩
    (raises 1 0 ++ [.step (.tick 20), .step (.call .reapIdle)])
    (fun s => s.ReapsOwn (.step (.run 2)) ∧
      ((s.act (.step (.run 2))).bind fun s' => s'.service.tasks[2]?) =
        some (.stopLock (.reap 20 []) 1 0)) (by decide)
  obtain ⟨hG, hu⟩ := of_decide_eq_true hp
  have hu : s.Unloads (.step (.run 2)) 1 0 := ⟨2, 20, [], rfl, hu⟩
  exact ⟨s, hs, hu, unused_of_reapsOwn hs hG hu⟩

/-- Two instances are idle. While a pass releases the first, the second is stopped, and raised
again by a chat, which executes. The pass goes on to the second, looks at its old object, and
stops the new one. -/
theorem not_unused_reachable :
  ∃ s a id r, (system 1 2 fun _ => True).Reachable s ∧ s.Unloads a id r ∧ ¬ s.Unused id r
  := by
  obtain ⟨s, hs, hp⟩ := Transition.exists_reach_of_run (T := system 1 2 fun _ => True)
    (G := fun _ _ => True) (s := ⟨twoInstances, .start 1 2 10 0⟩) ⟨trivial, 10, 0, rfl⟩
    (raises 1 0 ++ raises 2 2 ++ [.step (.tick 20),
      .step (.call .reapIdle), .step (.run 4), .step (.run 4), .stmt 4,
      .step (.call (.stopInstance 2)), .step (.run 5), .step (.run 5), .stmt 5, .step (.run 5),
      .step (.call (.chat 2 "hello")), .step (.run 6), .step (.run 6), .step (.run 6), .stmt 6,
      .step (.run 6), .step (.run 6), .stmt 6, .step (.run 6), .step (.run 6), .step (.run 4)])
    (fun s => ((s.act (.step (.run 4))).bind fun s' => s'.service.tasks[4]?) =
        some (.stopLock (.reap 20 []) 2 2) ∧
      Pool.attr Await.executesOn s.service.tasks 6 = some 2) (by decide)
  obtain ⟨hu, he⟩ := of_decide_eq_true hp
  exact ⟨s, _, 2, 2, hs, ⟨4, 20, [], rfl, hu⟩, fun h => h.turn 6 he⟩

end Runner
