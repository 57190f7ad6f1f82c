import GitAgent.Runner.System

/-!
# The locks of a runner

The invariant of the service that holds in every run (`Service.Inv`): a task inside the lock
of the turns of an object owns that lock, a task that claims an instance owns the lock of the
raises, objects are handed out once, and an instance that is being claimed is not raised.
-/

namespace Runner

open Hub (InstanceId EventId RunnerId Db)
open Sync (Lock Semaphore)

namespace Await

/-- The object that a turn or a stop refers to. -/
def ref : Await → Option Ref
  | begin _ r _ | turnLock _ r | context _ r _ | opened _ r | turn _ r _ => some r
  | closing _ r _ | mark _ r _ | stopLock _ _ r | release _ _ r _ => some r
  | _ => none

theorem stable_ref : Stable ref :=
  ⟨fun _ => rfl, fun _ => rfl, cancelExec_eq fun _ _ _ => rfl⟩

/-- A task that holds the lock of an object refers to it. -/
theorem ref_of_holds {p : Await} {r : Ref} (h : p.holds = some r) :
  p.ref = some r
  := by
  cases p <;> first | contradiction | apply h

/-- A turn that uses an object refers to it. -/
theorem ref_of_uses {p : Await} {id : InstanceId} {r : Ref} (h : p.uses = some (id, r)) :
  p.ref = some r
  := by
  cases p <;> first | contradiction | apply congrArg (Option.map Prod.snd) h

/-- A task that has claimed an instance is claiming it. -/
theorem claiming_of_claimed {p : Await} {id : InstanceId} (h : p.claimed = some id) :
  p.claiming = some id
  := by
  cases p with
  | claim c x =>
      cases x with
      | replied result =>
          rw [claimed] at h
          split at h
          · apply h
          · contradiction
      | _ => contradiction
  | _ => contradiction

/-- A turn inside the lock of the turns uses the object. -/
theorem uses_of_inside {p : Await} {id : InstanceId} {r : Ref} (h : p.inside = some (id, r)) :
  p.uses = some (id, r)
  := by
  cases p <;> first | contradiction | apply h

/-- A turn inside the lock of the turns holds it. -/
theorem holds_of_inside {p : Await} {id : InstanceId} {r : Ref} (h : p.inside = some (id, r)) :
  p.holds = some r
  := by
  cases p <;> first | contradiction | apply congrArg (Option.map Prod.snd) h

end Await

namespace Service

variable {s s' : Service} {ℓ : Label} {t : TaskId} {p q : Await}

/-- What a move does to the locks of the turns: nothing, unless the task takes the lock of an
object, gives it up, or creates an object. -/
inductive TurnLock (s : Service) (t : TaskId) (p q : Await) (s' : Service) : Prop
  | same (hq : q.holds = p.holds)
      (ho : ∀ r, (s'.objects r).lock.owner = (s.objects r).lock.owner)
  | acquire (r : Ref) (hp : p.ref = some r) (hq : q.holds = some r)
      (hl : (s.objects r).lock.Ready t)
      (ho : ∀ r', (s'.objects r').lock =
        if r' = r then (s.objects r).lock.acquire t else (s.objects r').lock)
  | release (r : Ref) (hp : p.holds = some r) (hq : q.holds = none)
      (ho : ∀ r', (s'.objects r').lock =
        if r' = r then (s.objects r).lock.release else (s.objects r').lock)
  | create (hp : p.holds = none) (hq : q.holds = none)
      (ho : ∀ r, r ≠ s.nextRef → (s'.objects r).lock.owner = (s.objects r).lock.owner)

/-- Suspending a task changes no lock. -/
theorem TurnLock.await {p' : Await} (h : TurnLock s t p q s') :
  TurnLock s t p q (s'.await t p')
  := by
  cases h with
  | same hq ho => exact .same hq ho
  | acquire r hp hq hl ho => exact .acquire r hp hq hl ho
  | release r hp hq ho => exact .release r hp hq ho
  | create hp hq ho => exact .create hp hq ho

theorem modify_objects (s : Service) (r : Ref) (f : LocalInstance → LocalInstance) (r' : Ref) :
  (s.modify r f).objects r' = if r' = r then f (s.objects r) else s.objects r'
  := Function.update_apply _ _ _ _

/-- Modifying an object so that its lock keeps its owner changes no owner. -/
theorem owner_modify {r : Ref} {f : LocalInstance → LocalInstance}
    (hf : (f (s.objects r)).lock.owner = (s.objects r).lock.owner) (r' : Ref) :
  ((s.modify r f).objects r').lock.owner = (s.objects r').lock.owner
  := by
  rw [modify_objects]
  split
  · rename_i h
    rw [h, hf]
  · rfl

/-- Modifying the lock of an object. -/
theorem lock_modify {r : Ref} {f : LocalInstance → LocalInstance} {l : Lock TaskId}
    (hf : (f (s.objects r)).lock = l) (r' : Ref) :
  ((s.modify r f).objects r').lock = if r' = r then l else (s.objects r').lock
  := by
  rw [modify_objects]
  split
  · apply hf
  · rfl

@[simp]
theorem finally_lock (k : Turn) (o : LocalInstance) :
  (k.finally o).lock = o.lock
  := by cases k <;> rfl

@[simp]
theorem begin_lock (k : Turn) (t : TaskId) (o : LocalInstance) :
  (k.begin t o).lock = o.lock
  := by cases k <;> rfl

@[simp]
theorem queue_owner (c : Caller) (t : TaskId) (o : LocalInstance) :
  (c.queue t o).lock.owner = o.lock.owner
  := by
  unfold Caller.queue
  split <;> rfl

/-- A caller that goes on with an object takes no lock. -/
theorem owner_resume (s : Service) (t : TaskId) (c : Caller) (r r' : Ref) :
  ((s.resume t c r).objects r').lock.owner = (s.objects r').lock.owner
  := owner_modify (queue_owner c t _) r'

/-- A turn that ends gives up the lock of its object. -/
theorem lock_leave {r : Ref} {f : LocalInstance → LocalInstance} {result : Result}
    (hf : (f (s.objects r)).lock = (s.objects r).lock) (r' : Ref) :
  (((s.modify r f).leave t r result).objects r').lock =
    if r' = r then (s.objects r).lock.release else (s.objects r').lock
  := by
  have hl : (((s.modify r f).objects r).leave).lock = (s.objects r).lock.release := by
    rw [LocalInstance.leave, lock_modify rfl, if_pos rfl, hf]
  apply (lock_modify hl r').trans
  split
  · rfl
  · rename_i h
    rw [lock_modify rfl, if_neg h]

/-- The request to cancel an execution changes no object. -/
theorem cancelTurn_objects (s : Service) (r : Ref) :
  (s.cancelTurn r).objects = s.objects
  := by
  rw [cancelTurn]
  split <;> rfl

/-- An exception gives up exactly the lock of the turns that the task holds. -/
theorem turnLock_unwind (hq : q.holds = none) :
  TurnLock s t p q (s.unwind t p)
  := by
  cases p with
  | context k r reply =>
      rw [unwind]
      exact .release r rfl hq (lock_modify rfl)
  | opened k r =>
      rw [unwind]
      exact .release r rfl hq (lock_modify rfl)
  | mark e r replied =>
      rw [unwind]
      exact .release r rfl hq (lock_modify rfl)
  | release k id r replied =>
      rw [unwind]
      exact .release r rfl hq (lock_modify rfl)
  | turn k r x =>
      rw [unwind]
      exact .release r rfl hq (lock_modify (by simp [LocalInstance.leave]))
  | closing k r how =>
      rw [unwind]
      exact .release r rfl hq (lock_modify (by simp [LocalInstance.leave]))
  | turnLock k r =>
      rw [unwind]
      exact .same hq (owner_modify rfl)
  | stopLock k id r =>
      rw [unwind]
      exact .same hq (owner_modify rfl)
  | termLock id command r =>
      rw [unwind]
      exact .same hq (owner_modify rfl)
  | termContext id command r reply =>
      rw [unwind]
      exact .same hq (owner_modify rfl)
  | terminal id command r =>
      rw [unwind]
      exact .same hq (owner_modify rfl)
  | _ => exact .same hq fun _ => rfl

/-- What a move does to the locks of the turns. -/
theorem Move.turnLock (h : Move s ℓ t p q s') :
  TurnLock s t p q s'
  := by
  cases h with
  | present hp hc hr =>
      apply TurnLock.same
      · rw [(Await.Bare.raised _ _).holds, hp.bare.holds]
      · intro r
        rw [owner_resume, owner_modify rfl]
  | wait hp hc hr => exact .same hp.bare.holds.symm fun _ => rfl
  | slot hf => exact .same rfl fun _ => rfl
  | found hl hr =>
      apply TurnLock.same (Await.Bare.raised _ _).holds
      intro r
      rw [owner_resume, owner_modify rfl]
  | claim hl hr => exact .same rfl fun _ => rfl
  | insert hc =>
      apply TurnLock.create rfl (Await.Bare.raised _ _).holds
      intro r hr
      rw [owner_resume]
      simp only [Function.update_of_ne hr]
  | refuse hc => exact .same (Await.Bare.refused _ _).holds fun _ => rfl
  | fresh => exact .await (.same rfl (owner_modify rfl))
  | duplicate => exact .await (.same rfl (owner_modify rfl))
  | enter hl => exact .await (.acquire _ rfl rfl hl (lock_modify rfl))
  | missing => exact .await (.release _ rfl rfl (lock_modify rfl))
  | start => exact .await (.same rfl (owner_modify (by rw [begin_lock])))
  | ends hb => exact .same rfl fun _ => rfl
  | marking => exact .await (.same rfl (owner_modify (by rw [finally_lock])))
  | chatted => exact .release _ rfl rfl (lock_leave rfl)
  | broken hh => exact .release _ rfl rfl (lock_leave (finally_lock _ _))
  | processed => exact .release _ rfl rfl (lock_leave rfl)
  | termEnter hl => exact .await (.same rfl (owner_modify rfl))
  | termMissing => exact .await (.same rfl (owner_modify rfl))
  | termRan => exact .await (.same rfl (owner_modify rfl))
  | pop hp hr =>
      apply TurnLock.await
      refine TurnLock.same hp.bare.holds.symm ?_
      intro r
      rw [owner_modify rfl, cancelTurn_objects]
  | stopEnter hl => exact .await (.acquire _ rfl rfl hl (lock_modify rfl))
  | released => exact .await (.release _ rfl (Await.Bare.next _).holds (lock_modify rfl))
  | unwind hℓ hq =>
      apply TurnLock.await
      apply turnLock_unwind
      rcases hq with ⟨_, rfl⟩ | ⟨_, _, _, _, rfl⟩ <;> rfl
  | spawned hp => exact .same hp.bare.holds.symm fun _ => rfl
  | quiet h => exact .same h.keeps.holds fun _ => rfl

/-! ### The lock of the raises -/

/-- What a move does to the lock of the raises: nothing, unless the task takes it for an
instance that is not raised, or gives it up. -/
inductive RaiseLock (s : Service) (t : TaskId) (p q : Await) (s' : Service) : Prop
  | same (hq : q.claiming = p.claiming) (ho : s'.raiseLock.owner = s.raiseLock.owner)
  | acquire (id : InstanceId) (hq : q.claiming = some id) (hr : s.instances.get id = none)
      (hl : s.raiseLock.Ready t) (ho : s'.raiseLock = s.raiseLock.acquire t)
  | release (hp : p.claiming ≠ none) (hq : q.claiming = none)
      (ho : s'.raiseLock = s.raiseLock.release)

/-- What a move does to the lock of the raises. -/
theorem Move.raiseLock (h : Move s ℓ t p q s') :
  RaiseLock s t p q s'
  := by
  cases h with
  | present hp hc hr =>
      exact .same ((Await.Bare.raised _ _).claiming.trans hp.bare.claiming.symm) rfl
  | wait hp hc hr => exact .same hp.bare.claiming.symm rfl
  | found hl hr => exact .same (Await.Bare.raised _ _).claiming hl.1.symm
  | claim hl hr => exact .acquire _ rfl hr hl rfl
  | insert hc => exact .release (Option.some_ne_none _) (Await.Bare.raised _ _).claiming rfl
  | refuse hc => exact .release (Option.some_ne_none _) (Await.Bare.refused _ _).claiming rfl
  | pop hp hr =>
      refine RaiseLock.same hp.bare.claiming.symm ?_
      rw [stop, cancelTurn]
      split <;> rfl
  | released => exact .same (Await.Bare.next _).claiming rfl
  | unwind hℓ hq =>
      have hn : q.claiming = none := by
        rcases hq with ⟨_, rfl⟩ | ⟨_, _, _, _, rfl⟩ <;> rfl
      clear hq
      cases p with
      | claim c x => exact .release (Option.some_ne_none _) hn rfl
      | _ => exact .same hn rfl
  | spawned hp => exact .same hp.bare.claiming.symm rfl
  | quiet h => exact .same h.keeps.claiming rfl
  | _ => exact .same rfl rfl

/-! ### The raised instances -/

/-- What a task refers to after a move: nothing, what it referred to before, or the object
of a raised instance. -/
def Refers (s : Service) (p q : Await) : Prop :=
  q.ref = none ∧ q.uses = none ∨ q.ref = p.ref ∧ q.uses = p.uses ∨
    ∃ id r, q.uses = some (id, r) ∧ s.instances.get id = some r

/-- What a move does to the raised instances: nothing, unless the task enters one that it
has claimed, or removes one to stop it. -/
inductive Entries (s : Service) (ℓ : Label) (t : TaskId) (p q : Await) (s' : Service) : Prop
  | same (hi : s'.instances = s.instances) (hn : s'.nextRef = s.nextRef)
      (hr : Refers s p q) (hs : q.stopping = p.stopping ∨ q.stopping = none)
  | insert (c : Caller) (hp : p.claimed = some c.instanceId) (hq : q = c.raised s.nextRef)
      (hi : s'.instances = s.instances.set c.instanceId s.nextRef)
      (hn : s'.nextRef = s.nextRef + 1) (hℓ : ℓ = .run t)
  | pop (k : Stopper) (id : InstanceId) (r : Ref) (hr : s.instances.get id = some r)
      (hp : p.Idle) (hq : q = .stopLock k id r) (hi : s'.instances = s.instances.erase id)
      (hn : s'.nextRef = s.nextRef)

end Service

namespace Await

theorem Idle.uses {p : Await} (h : p.Idle) : p.ref = none ∧ p.uses = none := by
  cases h <;> exact ⟨rfl, rfl⟩

theorem uses_handOff (e : Event) (claim : ClaimResult) :
  (handOff e claim).ref = none ∧ (handOff e claim).uses = none
  := by
  rw [handOff]
  split
  · split <;> exact ⟨rfl, rfl⟩
  · exact ⟨rfl, rfl⟩

/-- A caller that goes on with an object uses it as a turn, or does not refer to it. -/
theorem uses_raised (c : Caller) (r : Ref) :
  (c.raised r).ref = none ∧ (c.raised r).uses = none ∨
    (c.raised r).uses = some (c.instanceId, r)
  := by
  unfold Caller.raised
  split
  · exact .inl ⟨rfl, rfl⟩
  · exact .inr rfl
  · exact .inr rfl
  · exact .inl ⟨rfl, rfl⟩

theorem uses_refused (c : Caller) (claim : ClaimResult) :
  (c.refused claim).ref = none ∧ (c.refused claim).uses = none
  := by
  unfold Caller.refused
  split
  · exact ⟨rfl, rfl⟩
  · apply uses_handOff
  · exact ⟨rfl, rfl⟩
  · exact ⟨rfl, rfl⟩

theorem uses_next (k : Stopper) : k.next.ref = none ∧ k.next.uses = none := by
  cases k <;> exact ⟨rfl, rfl⟩

/-- A quiet move refers to what the task referred to before. -/
theorem Quiet.uses {p q : Await} (h : p.Quiet q) : q.ref = p.ref ∧ q.uses = p.uses := by
  cases h with
  | handOff e claim _ => apply uses_handOff
  | skip h _ =>
      rw [h.uses.1, h.uses.2]
      exact ⟨rfl, rfl⟩
  | peek h _ =>
      rw [h.uses.1, h.uses.2]
      exact ⟨rfl, rfl⟩
  | ended h _ =>
      rw [h.uses.1, h.uses.2]
      exact ⟨rfl, rfl⟩
  | _ => exact ⟨rfl, rfl⟩

end Await

namespace Service

variable {s s' : Service} {ℓ : Label} {t : TaskId} {p q : Await}

/-- What a move does to the raised instances. -/
theorem Move.entries (h : Move s ℓ t p q s') :
  Entries s ℓ t p q s'
  := by
  have raised : ∀ (c : Caller) (r : Ref), s.instances.get c.instanceId = some r →
      Refers s p (c.raised r) := by
    intro c r hr
    rcases Await.uses_raised c r with h | h
    · exact .inl h
    · exact .inr (.inr ⟨_, _, h, hr⟩)
  cases h with
  | present hp hc hr =>
      exact .same rfl rfl (raised _ _ hr) (.inr (Await.Bare.raised _ _).stopping)
  | wait hp hc hr => exact .same rfl rfl (.inl ⟨rfl, rfl⟩) (.inr rfl)
  | slot hf => exact .same rfl rfl (.inl ⟨rfl, rfl⟩) (.inr rfl)
  | found hl hr => exact .same rfl rfl (raised _ _ hr) (.inr (Await.Bare.raised _ _).stopping)
  | claim hl hr => exact .same rfl rfl (.inl ⟨rfl, rfl⟩) (.inr rfl)
  | insert hc => exact .insert _ (if_pos hc) rfl rfl rfl rfl
  | refuse hc =>
      exact .same rfl rfl (.inl (Await.uses_refused _ _)) (.inr (Await.Bare.refused _ _).stopping)
  | pop hp hr =>
      apply Entries.pop _ _ _ hr hp rfl
      · rw [stop, cancelTurn]
        split <;> rfl
      · rw [stop, cancelTurn]
        split <;> rfl
  | stopEnter hl => exact .same rfl rfl (.inr (.inl ⟨rfl, rfl⟩)) (.inl rfl)
  | released =>
      exact .same rfl rfl (.inl (Await.uses_next _)) (.inr (Await.Bare.next _).stopping)
  | unwind hℓ hq =>
      have hi : (s.unwind t p).instances = s.instances ∧
          (s.unwind t p).nextRef = s.nextRef := by cases p <;> exact ⟨rfl, rfl⟩
      rcases hq with ⟨_, rfl⟩ | ⟨_, _, _, _, rfl⟩
      · exact .same hi.1 hi.2 (.inl ⟨rfl, rfl⟩) (.inr rfl)
      · exact .same hi.1 hi.2 (.inl ⟨rfl, rfl⟩) (.inr rfl)
  | spawned hp => exact .same rfl rfl (.inl ⟨rfl, rfl⟩) (.inr rfl)
  | quiet h => exact .same rfl rfl (.inr (.inl h.uses)) (.inl h.keeps.stopping)
  | enter hl => exact .same rfl rfl (.inr (.inl ⟨rfl, rfl⟩)) (.inr rfl)
  | start => exact .same rfl rfl (.inr (.inl ⟨rfl, rfl⟩)) (.inr rfl)
  | ends hb => exact .same rfl rfl (.inr (.inl ⟨rfl, rfl⟩)) (.inr rfl)
  | fresh => exact .same rfl rfl (.inr (.inl ⟨rfl, rfl⟩)) (.inr rfl)
  | marking => exact .same rfl rfl (.inr (.inl ⟨rfl, rfl⟩)) (.inr rfl)
  | _ => exact .same rfl rfl (.inl ⟨rfl, rfl⟩) (.inr rfl)

/-! ### The invariant -/

/-- The invariant of the service. -/
structure Inv (s : Service) : Prop where
  refs : ∀ t r, Pool.attr Await.ref s.tasks t = some r → r < s.nextRef
  entries : ∀ id r, s.instances.get id = some r → r < s.nextRef
  turnLock : ∀ r, (s.objects r).lock.Held fun t => Pool.attr Await.holds s.tasks t = some r
  raiseLock : s.raiseLock.Held fun t => Pool.attr Await.claiming s.tasks t ≠ none
  claiming : ∀ t id, Pool.attr Await.claiming s.tasks t = some id →
    s.instances.get id = none

namespace Inv

theorem start (R : RunnerId) (slots idleTimeout clock : ℕ) :
  (Service.start R slots idleTimeout clock).Inv
  := by
  constructor
  · intro t r h
    contradiction
  · intro id r h
    contradiction
  · intro r t h
    contradiction
  · intro t h
    apply absurd rfl h
  · intro t id h
    contradiction

/-- A task that holds the lock of an object refers to an object that exists. -/
theorem holds_lt (hs : s.Inv) {r : Ref} (h : Pool.attr Await.holds s.tasks t = some r) :
  r < s.nextRef
  := by
  obtain ⟨p, hp, hr⟩ := Pool.exists_of_attr h
  apply hs.refs t
  rw [Pool.attr_of_getElem? hp]
  apply Await.ref_of_holds hr

/-- A new task, and the passing of time, keep the invariant. -/
theorem call (hs : s.Inv) (c : Call) :
  (s.spawn (.called c)).Inv
  := by
  have ha : ∀ {α : Type} {f : Await → Option α}, Await.Stable f →
      Pool.attr f (s.spawn (.called c)).tasks = Pool.attr f s.tasks :=
    fun hf => Pool.attr_append (hf.called c)
  constructor
  · rw [ha Await.stable_ref]
    apply hs.refs
  · apply hs.entries
  · rw [ha Await.stable_holds]
    apply hs.turnLock
  · rw [ha Await.stable_claiming]
    apply hs.raiseLock
  · rw [ha Await.stable_claiming]
    apply hs.claiming

/-- A reply to a task that goes on to refer to the same object and to hold the same locks
keeps the invariant. -/
theorem await (hs : s.Inv) (ht : s.tasks[t]? = some p) (hr : q.ref = p.ref)
    (hh : q.holds = p.holds) (hc : q.claiming = p.claiming) :
  (s.await t q).Inv
  := by
  constructor
  · rw [Service.await, Pool.attr_set_of_eq ht hr]
    apply hs.refs
  · apply hs.entries
  · rw [Service.await, Pool.attr_set_of_eq ht hh]
    apply hs.turnLock
  · rw [Service.await, Pool.attr_set_of_eq ht hc]
    apply hs.raiseLock
  · rw [Service.await, Pool.attr_set_of_eq ht hc]
    apply hs.claiming

/-- After a move every task refers to an object that exists. -/
theorem refs_move (hs : s.Inv) (ht : s.tasks[t]? = some p) (h : Move s ℓ t p q s') {t' : TaskId}
    {r : Ref} (hr : Pool.attr Await.ref s'.tasks t' = some r) :
  r < s'.nextRef
  := by
  have hn : s.nextRef ≤ s'.nextRef := by
    cases h.entries with
    | same hi hn hr hs => rw [hn]
    | insert c hp hq hi hn => rw [hn]; apply Nat.le_succ
    | pop k id r hr hp hq hi hn => rw [hn]
  rw [h.attr Await.stable_ref ht, Function.update_apply] at hr
  split at hr
  · cases h.entries with
    | same hi hn hrefs _ =>
        rw [hn]
        rcases hrefs with ⟨hq, -⟩ | ⟨hq, -⟩ | ⟨id, r', hq, hg⟩
        · rw [hq] at hr
          contradiction
        · apply hs.refs t
          rw [Pool.attr_of_getElem? ht, ← hq, hr]
        · rw [Await.ref_of_uses hq] at hr
          obtain rfl := Option.some.inj hr
          apply hs.entries id _ hg
    | insert c hp hq hi hn =>
        subst hq
        rcases Await.uses_raised c s.nextRef with ⟨hq, -⟩ | hq
        · rw [hq] at hr
          contradiction
        · rw [Await.ref_of_uses hq] at hr
          obtain rfl := Option.some.inj hr
          rw [hn]
          apply Nat.lt_succ_self
    | pop k id r' hg hp hq hi hn =>
        subst hq
        obtain rfl : r' = r := Option.some.inj hr
        rw [hn]
        apply hs.entries id _ hg
  · apply lt_of_lt_of_le (hs.refs t' r hr) hn

/-- After a move every raised instance has an object that exists. -/
theorem entries_move (hs : s.Inv) (h : Move s ℓ t p q s') {id : InstanceId} {r : Ref}
    (hr : s'.instances.get id = some r) :
  r < s'.nextRef
  := by
  cases h.entries with
  | same hi hn _ _ =>
      rw [hi] at hr
      rw [hn]
      apply hs.entries id r hr
  | insert c hp hq hi hn =>
      rw [hi, Dict.get_set] at hr
      rw [hn]
      split at hr
      · obtain rfl := Option.some.inj hr
        apply Nat.lt_succ_self
      · apply Nat.lt_succ_of_lt (hs.entries id r hr)
  | pop k id' r' hg hp hq hi hn =>
      rw [hi, Dict.get_erase] at hr
      rw [hn]
      split at hr
      · contradiction
      · apply hs.entries id r hr

/-- After a move every task inside the lock of the turns of an object owns it. -/
theorem turnLock_move (hs : s.Inv) (ht : s.tasks[t]? = some p) (h : Move s ℓ t p q s') (r : Ref) :
  (s'.objects r).lock.Held fun t' => Pool.attr Await.holds s'.tasks t' = some r
  := by
  have ha := h.attr Await.stable_holds ht
  have hp := Pool.attr_of_getElem? (f := Await.holds) ht
  -- Another task holds what it held before.
  have hother : ∀ t' r', q.holds ≠ some r' → Pool.attr Await.holds s'.tasks t' = some r' →
      t' ≠ t ∧ Pool.attr Await.holds s.tasks t' = some r' := by
    intro t' r' hq ht'
    rw [ha, Function.update_apply] at ht'
    split at ht'
    · contradiction
    · rename_i hne
      exact ⟨hne, ht'⟩
  cases h.turnLock with
  | same hq ho =>
      apply (hs.turnLock r).mono (ho r)
      rw [ha, hq, ← hp, Function.update_eq_self]
      intro t' ht'
      apply ht'
  | acquire r' _ hq hl ho =>
      by_cases e : r = r'
      · subst e
        rw [ho, if_pos rfl]
        apply (hs.turnLock r).acquire hl
        intro t' ht'
        rw [ha, Function.update_apply] at ht'
        split at ht'
        · rename_i e
          exact .inl e
        · exact .inr ht'
      · rw [ho, if_neg e]
        apply (hs.turnLock r).mono rfl
        intro t' ht'
        apply (hother t' r (by rw [hq]; simp [Ne.symm e]) ht').2
  | release r' hr' hq ho =>
      have hn : ∀ r, q.holds ≠ some r := by simp [hq]
      by_cases e : r = r'
      · subst e
        rw [ho, if_pos rfl]
        apply (hs.turnLock r).release (t := t) (by rw [hp, hr'])
        intro t' ht'
        apply hother t' r (hn r) ht'
      · rw [ho, if_neg e]
        apply (hs.turnLock r).mono rfl
        intro t' ht'
        apply (hother t' r (hn r) ht').2
  | create _ hq ho =>
      have hn : ∀ r, q.holds ≠ some r := by simp [hq]
      intro t' ht'
      have hr := (hother t' r (hn r) ht').2
      rw [ho r (hs.holds_lt hr).ne]
      apply hs.turnLock r t' hr

/-- After a move every task that claims an instance owns the lock of the raises. -/
theorem raiseLock_move (hs : s.Inv) (ht : s.tasks[t]? = some p) (h : Move s ℓ t p q s') :
  s'.raiseLock.Held fun t' => Pool.attr Await.claiming s'.tasks t' ≠ none
  := by
  have ha := h.attr Await.stable_claiming ht
  have hp := Pool.attr_of_getElem? (f := Await.claiming) ht
  cases h.raiseLock with
  | same hq ho =>
      apply hs.raiseLock.mono ho
      rw [ha, hq, ← hp, Function.update_eq_self]
      intro t' ht'
      apply ht'
  | acquire id hq hr hl ho =>
      rw [ho]
      apply hs.raiseLock.acquire hl
      intro t' ht'
      rw [ha, Function.update_apply] at ht'
      split at ht'
      · rename_i e
        exact .inl e
      · exact .inr ht'
  | release hc hq ho =>
      rw [ho]
      apply hs.raiseLock.release (t := t) (by rw [hp]; apply hc)
      intro t' ht'
      rw [ha, Function.update_apply, hq] at ht'
      split at ht'
      · contradiction
      · rename_i e
        exact ⟨e, ht'⟩

/-- After a move an instance that is being claimed is not raised. -/
theorem claiming_move (hs : s.Inv) (ht : s.tasks[t]? = some p) (h : Move s ℓ t p q s')
    {t' : TaskId} {id : InstanceId} (hc : Pool.attr Await.claiming s'.tasks t' = some id) :
  s'.instances.get id = none
  := by
  have ha := h.attr Await.stable_claiming ht
  have hp := Pool.attr_of_getElem? (f := Await.claiming) ht
  have hnone : s.instances.get id = none := by
    rw [ha, Function.update_apply] at hc
    split at hc
    · cases h.raiseLock with
      | same hq ho =>
          apply hs.claiming t
          rw [hp, ← hq, hc]
      | acquire id' hq hr hl ho =>
          rw [hq] at hc
          obtain rfl := Option.some.inj hc
          apply hr
      | release _ hq ho =>
          rw [hq] at hc
          contradiction
    · apply hs.claiming t' id hc
  cases h.entries with
  | same hi hn _ _ => rw [hi, hnone]
  | pop k id' r' hg _ hq hi hn =>
      rw [hi, Dict.get_erase, hnone, ite_self]
  | insert c hclaimed hq hi hn =>
      -- The task itself was the only one that claimed.
      subst hq
      have hpc : Pool.attr Await.claiming s.tasks t ≠ none := by
        rw [hp, Await.claiming_of_claimed hclaimed]
        apply Option.some_ne_none
      rw [ha, Function.update_apply, (Await.Bare.raised _ _).claiming] at hc
      split at hc
      · contradiction
      · rename_i e
        have hne : Pool.attr Await.claiming s.tasks t' ≠ none := by simp [hc]
        apply absurd (hs.raiseLock.unique hne hpc) e

/-- A step keeps the invariant. -/
theorem steps (hs : s.Inv) (h : s.Steps ℓ s') :
  s'.Inv
  := by
  cases h with
  | call c _ => apply hs.call c
  | tick n _ => exact ⟨hs.refs, hs.entries, hs.turnLock, hs.raiseLock, hs.claiming⟩
  | move ht h =>
      constructor
      · intro t' r
        apply hs.refs_move ht h
      · intro id r
        apply hs.entries_move h
      · apply hs.turnLock_move ht h
      · apply hs.raiseLock_move ht h
      · intro t' id
        apply hs.claiming_move ht h

end Inv

end Service

/-- A statement keeps what its task refers to. -/
theorem Reply.ref {db db' : Db} {R : RunnerId} {p q : Await} (h : Reply db R p db' q) :
  q.ref = p.ref
  := by cases h <;> rfl

/-- The invariant of the service holds in every run. -/
theorem inv_of_reach {R : RunnerId} {slots : ℕ} {P : Db → Prop} {G : State → Action → Prop}
    {s : State} (h : (system R slots P).Reach G s) :
  s.service.Inv
  := by
  apply h.invariant (I := fun s => s.service.Inv)
  · rintro ⟨db, service⟩ ⟨_, idleTimeout, clock, rfl⟩
    apply Service.Inv.start
  · intro s a s' hs _ ha
    cases State.act_cases ha with
    | step h => apply hs.steps h
    | stmt ht h =>
        have hk := h.keeps
        apply hs.await ht h.ref hk.2.1 hk.2.2.2.2.1

end Runner
