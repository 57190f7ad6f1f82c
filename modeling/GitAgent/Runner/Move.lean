import GitAgent.Runner.Service

/-!
# The moves of a runner

Every step of the service but the beginning of a call and the passing of time moves one task
from an await point to the next. `Service.Move` lists the moves with everything they change,
and `Service.step_cases` states that the steps are these; every invariant is derived from the
list. What a suspended task keeps is an attribute of its await point, and a move updates an
attribute at the task that moves (`Service.Move.attr`).
-/

namespace Runner

open Hub (InstanceId EventId RunnerId)
open Sync (Lock Semaphore)

/-- The task that a step moves. -/
def Label.task : Label → Option TaskId
  | run t | forwarded t _ | terminalRan t _ | timeout t | yield t | turnEnds t _ | fail t
  | cancel t => some t
  | call _ | tick _ => none

/-! ### What a suspended task keeps -/

/-- The event that a turn executes. -/
def Turn.handles : Turn → Option Event
  | event e => some e
  | chat _ _ => none

/-- The event for which an instance is raised. -/
def Caller.handles : Caller → Option Event
  | turn k => k.handles
  | _ => none

namespace Await

/-- The event that the task handles, from the call of `handle_event` to its end. -/
def handles : Await → Option Event
  | called (.handleEvent e) => some e
  | slot c | raiseLock c | claim c _ => c.handles
  | skipBegin e _ | skipMark e _ | peek e _ | forward e _ | begin e _ _ => some e
  | turnLock k _ | context k _ _ | opened k _ | turn k _ _ | closing k _ _ => k.handles
  | mark e _ _ => some e
  | _ => none

/-- The number of slots that the task keeps. -/
def permits : Await → ℕ
  | raiseLock _ | claim _ _ | stopLock _ _ _ | release _ _ _ _ => 1
  | _ => 0

/-- The object whose lock of the turns the task holds. -/
def holds : Await → Option Ref
  | context _ r _ | opened _ r | turn _ r _ | closing _ r _ | mark _ r _ => some r
  | release _ _ r _ => some r
  | _ => none

/-- The instance and the object of a turn that is inside the lock of the turns. -/
def inside : Await → Option (InstanceId × Ref)
  | context k r _ | opened k r | turn k r _ | closing k r _ => some (k.instanceId, r)
  | mark e r _ => some (e.instanceId, r)
  | _ => none

/-- The instance and the object that a `handle_event` or a `chat` uses. -/
def uses : Await → Option (InstanceId × Ref)
  | begin e r _ => some (e.instanceId, r)
  | turnLock k r => some (k.instanceId, r)
  | p => p.inside

/-- The instance that the task claims. Such a task holds the lock of the raises. -/
def claiming : Await → Option InstanceId
  | claim c _ => some c.instanceId
  | _ => none

/-- The instance that the task has claimed and has still to enter among the raised ones. -/
def claimed : Await → Option InstanceId
  | claim c (.replied result) => if result.isClaimed then some c.instanceId else none
  | _ => none

/-- The instance that the task raises: it waits for a slot or has one. -/
def raises : Await → Option InstanceId
  | slot c | raiseLock c | claim c _ => some c.instanceId
  | _ => none

/-- The instance and the object that the task stops and has still to release. -/
def stopping : Await → Option (InstanceId × Ref)
  | stopLock _ id r | release _ id r false => some (id, r)
  | _ => none

/-- Whether a cancellation of the task first asks the execution of its turn to cancel, or is
taken for the end of an execution that was asked to. -/
def defers : Await → Bool
  | turn _ _ (.running _) | turn (.event _) _ (.ended .cancelled) => true
  | _ => false

/-- The instance of which a turn is executing. -/
def executing : Await → Option InstanceId
  | turn k _ (.running _) | turn k _ .yielded => some k.instanceId
  | abandoned id => some id
  | _ => none

/-- A task that keeps nothing: it was just called, awaits another task or the reply of
`peek_holder`, or is between two stops. -/
inductive Idle : Await → Prop
  | called (c : Call) : Idle (called c)
  | raiseTask (id : InstanceId) : Idle (raiseTask id)
  | raising (a : Opener) (child : TaskId) : Idle (raising a child)
  | peek (e : Event) (reply : Option ClaimResult) : Idle (peek e reply)
  | scan (k : Stopper) : Idle (scan k)

/-- The moves that change nothing but the await point. -/
inductive Quiet : Await → Await → Prop
  | skip {p : Await} (h : p.Idle) (e : Event) (he : p.handles = some e) :
      Quiet p (skipBegin e none)
  | peek {p : Await} (h : p.Idle) (e : Event) (he : p.handles = some e) : Quiet p (peek e none)
  | handOff (e : Event) (claim : ClaimResult)
      (hc : claim.outcome = .heldByOther ∨ claim.outcome = .missing) :
      Quiet (peek e (some claim)) (handOff e claim)
  | ended {p : Await} (h : p.Idle) (result : Result) (he : p.handles = none) :
      Quiet p (done result)
  | skipped (e : Event) : Quiet (skipBegin e (some true)) (skipMark e false)
  | notSkipped (e : Event) (result : Result) : Quiet (skipBegin e (some false)) (done result)
  | skipMarked (e : Event) (result : Result) : Quiet (skipMark e true) (done result)
  | forwarded (e : Event) (address : String) (result : Result) :
      Quiet (forward e address) (done result)
  | context (k : Turn) (r : Ref) : Quiet (context k r (some true)) (opened k r)
  | yield (id : InstanceId) (message : String) (r : Ref) (cancelling : Bool) :
      Quiet (turn (.chat id message) r (.running cancelling))
        (turn (.chat id message) r .yielded)
  | next (id : InstanceId) (message : String) (r : Ref) :
      Quiet (turn (.chat id message) r .yielded)
        (turn (.chat id message) r (.running false))
  | cancelling (k : Turn) (r : Ref) (b : Bool) :
      Quiet (turn k r (.running b)) (turn k r (.running true))
  | closing (k : Turn) (r : Ref) (how : TurnEnd) :
      Quiet (turn k r (.ended how)) (closing k r how)
  | terminal (id : InstanceId) (command : String) (r : Ref) :
      Quiet (termContext id command r (some true)) (terminal id command r)

/-- A task that keeps no slot and no lock, and neither raises, runs nor stops an instance. -/
structure Bare (p : Await) : Prop where
  permits : p.permits = 0
  holds : p.holds = none
  inside : p.inside = none
  claiming : p.claiming = none
  claimed : p.claimed = none
  raises : p.raises = none
  stopping : p.stopping = none
  executing : p.executing = none

theorem Bare.done (result : Result) : Bare (done result) := by
  constructor <;> rfl

theorem Bare.begin (e : Event) (r : Ref) (reply : Option Bool) : Bare (begin e r reply) := by
  constructor <;> rfl

theorem Bare.turnLock (k : Turn) (r : Ref) : Bare (turnLock k r) := by
  constructor <;> rfl

theorem Idle.bare {p : Await} (h : p.Idle) : p.Bare := by
  cases h <;> constructor <;> rfl

theorem Bare.handOff (e : Event) (claim : ClaimResult) : Bare (handOff e claim) := by
  unfold Runner.handOff
  split
  · split
    · constructor <;> rfl
    · apply Bare.done
  · apply Bare.done

theorem Bare.raised (c : Caller) (r : Ref) : Bare (c.raised r) := by
  unfold Caller.raised
  split <;> constructor <;> rfl

theorem Bare.refused (c : Caller) (claim : ClaimResult) : Bare (c.refused claim) := by
  unfold Caller.refused
  split
  · apply Bare.done
  · apply Bare.handOff
  · apply Bare.done
  · apply Bare.done

theorem Bare.next (k : Stopper) : Bare k.next := by
  cases k <;> constructor <;> rfl

/-- The attributes that a task keeps. -/
structure Keeps (p q : Await) : Prop where
  permits : q.permits = p.permits
  holds : q.holds = p.holds
  inside : q.inside = p.inside
  claiming : q.claiming = p.claiming
  claimed : q.claimed = p.claimed
  raises : q.raises = p.raises
  stopping : q.stopping = p.stopping
  executing : q.executing = p.executing

theorem Bare.keeps {p q : Await} (hp : p.Bare) (hq : q.Bare) : Keeps p q where
  permits := hq.permits.trans hp.permits.symm
  holds := hq.holds.trans hp.holds.symm
  inside := hq.inside.trans hp.inside.symm
  claiming := hq.claiming.trans hp.claiming.symm
  claimed := hq.claimed.trans hp.claimed.symm
  raises := hq.raises.trans hp.raises.symm
  stopping := hq.stopping.trans hp.stopping.symm
  executing := hq.executing.trans hp.executing.symm

/-- A quiet move keeps everything. -/
theorem Quiet.keeps {p q : Await} (h : p.Quiet q) : Keeps p q := by
  cases h with
  | handOff e claim _ => apply (Idle.peek _ _).bare.keeps (.handOff e claim)
  | skip h _ => apply h.bare.keeps (by constructor <;> rfl)
  | peek h _ => apply h.bare.keeps (by constructor <;> rfl)
  | ended h _ _ => apply h.bare.keeps (.done _)
  | _ => constructor <;> rfl

end Await

/-! ### The moves -/

namespace Service

/-- The caller for whom the step runs into `_raise`. -/
def callsRaise (s : Service) : Label → Option Caller
  | .run t =>
      match s.tasks[t]? with
      | some (.called (.handleEvent e)) =>
          if e.hasCodeTarget ∧ s.instances.get e.instanceId ≠ none then some (.turn (.event e))
          else none
      | some (.called (.chat id message)) => some (.turn (.chat id message))
      | some (.called (.terminal id command)) => some (.terminal id command)
      | some (.raiseTask id) => some (.task id)
      | some (.raising a child) =>
          match s.tasks[child]?, a with
          | some (.done (.raised _)), .chat id message => some (.turn (.chat id message))
          | some (.done (.raised _)), .terminal id command => some (.terminal id command)
          | _, _ => none
      | some (.peek e (some claim)) =>
          if claim.outcome = .heldByOther ∨ claim.outcome = .missing then none
          else some (.turn (.event e))
      | _ => none
  | .timeout t =>
      match s.tasks[t]? with
      | some (.raising (.chat id message) _) => some (.turn (.chat id message))
      | some (.raising (.terminal id command) _) => some (.terminal id command)
      | _ => none
  | _ => none

/-- The first entry of a snapshot that a pass of `reap_idle` does not pass over and whose
instance is raised, with the entries after it. -/
def nextIdle (s : Service) (now : ℕ) :
    List (InstanceId × Ref) → Option ((InstanceId × Ref) × List (InstanceId × Ref))
  | [] => none
  | (id, r) :: rest =>
      if ¬ s.isActive now r ∧ (s.instances.get id).isSome then some ((id, r), rest)
      else s.nextIdle now rest

/-- A pass of `reap_idle` at `p`, which began at `now`, comes to the entry of `id` and `r` in
its snapshot, and has `rest` still ahead. -/
def Reaps (s : Service) (p : Await) (now : ℕ) (id : InstanceId) (r : Ref)
    (rest : List (InstanceId × Ref)) : Prop :=
  ∃ l, s.nextIdle now l = some ((id, r), rest) ∧
    (p = .called .reapIdle ∧ now = s.clock ∧ l = s.instances.items ∨ p = .scan (.reap now l))

/-- `Move s ℓ t p q s'`: by the step `ℓ` the task `t` moves from `p` to `q`, and the service
from `s` to `s'`. -/
inductive Move (s : Service) : Label → TaskId → Await → Await → Service → Prop
  | present {ℓ : Label} {t : TaskId} {p : Await} {c : Caller} {r : Ref} (hp : p.Idle)
      (hc : s.callsRaise ℓ = some c) (hr : s.instances.get c.instanceId = some r)
      (he : c.handles = p.handles) :
      Move s ℓ t p (c.raised r) ((s.modify r (·.touch s.clock)).resume t c r)
  | wait {ℓ : Label} {t : TaskId} {p : Await} {c : Caller} (hp : p.Idle)
      (hc : s.callsRaise ℓ = some c) (hr : s.instances.get c.instanceId = none)
      (he : c.handles = p.handles) :
      Move s ℓ t p (.slot c) ({ s with free := s.free.wait t }.await t (.slot c))
  | slot {t : TaskId} {c : Caller} (hf : s.free.Ready t) :
      Move s (.run t) t (.slot c) (.raiseLock c)
        ({ s with free := s.free.acquire,
                  raiseLock := s.raiseLock.wait t }.await t (.raiseLock c))
  | found {t : TaskId} {c : Caller} {r : Ref} (hl : s.raiseLock.Ready t)
      (hr : s.instances.get c.instanceId = some r) :
      Move s (.run t) t (.raiseLock c) (c.raised r)
        (({ s with raiseLock := (s.raiseLock.acquire t).release,
                   free := s.free.release }.modify r (·.touch s.clock)).resume t c r)
  | claim {t : TaskId} {c : Caller} (hl : s.raiseLock.Ready t)
      (hr : s.instances.get c.instanceId = none) :
      Move s (.run t) t (.raiseLock c) (.claim c .update)
        ({ s with raiseLock := s.raiseLock.acquire t }.await t (.claim c .update))
  | insert {t : TaskId} {c : Caller} {claim : ClaimResult} (hc : claim.isClaimed) :
      Move s (.run t) t (.claim c (.replied claim)) (c.raised s.nextRef)
        ({ s with
          raiseLock := s.raiseLock.release
          objects := Function.update s.objects s.nextRef
            { id := c.instanceId, lastActivity := s.clock }
          nextRef := s.nextRef + 1
          instances := s.instances.set c.instanceId s.nextRef }.resume t c s.nextRef)
  | refuse {t : TaskId} {c : Caller} {claim : ClaimResult} (hc : ¬ claim.isClaimed) :
      Move s (.run t) t (.claim c (.replied claim)) (c.refused claim)
        ({ s with raiseLock := s.raiseLock.release,
                  free := s.free.release }.await t (c.refused claim))
  | fresh {t : TaskId} {e : Event} {r : Ref} :
      Move s (.run t) t (.begin e r (some true)) (.turnLock (.event e) r)
        ((s.modify r (·.wait t)).await t (.turnLock (.event e) r))
  | duplicate {t : TaskId} {e : Event} {r : Ref} :
      Move s (.run t) t (.begin e r (some false)) (.done (.outcome .duplicate))
        ((s.modify r (·.touch s.clock)).await t (.done (.outcome .duplicate)))
  | enter {t : TaskId} {k : Turn} {r : Ref} (hl : (s.objects r).lock.Ready t) :
      Move s (.run t) t (.turnLock k r) (.context k r none)
        ((s.modify r fun o => (o.enter t).touch s.clock).await t (.context k r none))
  | missing {t : TaskId} {k : Turn} {r : Ref} :
      Move s (.run t) t (.context k r (some false)) (.done k.missing) (s.leave t r k.missing)
  | start {t : TaskId} {k : Turn} {r : Ref} :
      Move s (.run t) t (.opened k r) (.turn k r (.running false))
        ((s.modify r (k.begin t)).await t (.turn k r (.running false)))
  | ends {t : TaskId} {k : Turn} {r : Ref} {b : Bool} {how : TurnEnd}
      (hb : how = .cancelled → b) :
      Move s (.turnEnds t how) t (.turn k r (.running b)) (.turn k r (.ended how))
        ({ s with executed := s.executed ++ k.executed how }.await t (.turn k r (.ended how)))
  | marking {t : TaskId} {e : Event} {r : Ref} :
      Move s (.run t) t (.closing (.event e) r .finished) (.mark e r false)
        ((s.modify r (Turn.event e).finally).await t (.mark e r false))
  | chatted {t : TaskId} {id : InstanceId} {message : String} {r : Ref} :
      Move s (.run t) t (.closing (.chat id message) r .finished) (.done .finished)
        ((s.modify r (·.touch s.clock)).leave t r .finished)
  | broken {t : TaskId} {k : Turn} {r : Ref} {how : TurnEnd} (hh : how ≠ .finished) :
      Move s (.run t) t (.closing k r how) (.done (k.broken how))
        ((s.modify r k.finally).leave t r (k.broken how))
  | processed {t : TaskId} {e : Event} {r : Ref} :
      Move s (.run t) t (.mark e r true) (.done (.outcome .processed))
        ((s.modify r (·.touch s.clock)).leave t r (.outcome .processed))
  | termEnter {t : TaskId} {id : InstanceId} {command : String} {r : Ref}
      (hl : (s.objects r).termLock.Ready t) :
      Move s (.run t) t (.termLock id command r) (.termContext id command r none)
        ((s.modify r fun o => (o.termEnter t).touch s.clock).await t
          (.termContext id command r none))
  | termMissing {t : TaskId} {id : InstanceId} {command : String} {r : Ref} :
      Move s (.run t) t (.termContext id command r (some false)) (.done (.unavailable id))
        ((s.modify r (·.termLeave)).await t (.done (.unavailable id)))
  | termRan {t : TaskId} {id : InstanceId} {command : String} {r : Ref}
      {cwd : Option String} :
      Move s (.terminalRan t cwd) t (.terminal id command r) (.done .finished)
        ((s.modify r fun o =>
          ({ o with termCwd := if Event.truthy cwd then cwd else o.termCwd }.touch
            s.clock).termLeave).await t (.done .finished))
  | pop {t : TaskId} {p : Await} {k : Stopper} {id : InstanceId} {r : Ref} (hp : p.Idle)
      (hr : s.instances.get id = some r) (he : p.handles = none)
      (hk : ∀ now rest, k = .reap now rest → ∃ r', s.Reaps p now id r' rest) :
      Move s (.run t) t p (.stopLock k id r) (s.stop t k id r)
  | stopEnter {t : TaskId} {k : Stopper} {id : InstanceId} {r : Ref}
      (hl : (s.objects r).lock.Ready t) :
      Move s (.run t) t (.stopLock k id r) (.release k id r false)
        ((s.modify r (·.enter t)).await t (.release k id r false))
  | released {t : TaskId} {k : Stopper} {id : InstanceId} {r : Ref} :
      Move s (.run t) t (.release k id r true) k.next
        (({ s with free := s.free.release }.modify r (·.leave)).await t k.next)
  | unwind {ℓ : Label} {t : TaskId} {p q : Await} (hℓ : ℓ = .fail t ∨ ℓ = .cancel t)
      (hq : (∃ result, q = .done result) ∨
        ∃ k r, ℓ = .cancel t ∧ p = .turn k r .yielded ∧ q = .abandoned k.instanceId)
      (hd : ℓ = .cancel t → p.defers = false) :
      Move s ℓ t p q ((s.unwind t p).await t q)
  | spawned {t : TaskId} {p : Await} {id : InstanceId} {a : Opener} (hp : p.Idle)
      (he : p.handles = none) :
      Move s (.run t) t p (.raising a s.tasks.length)
        ((s.spawn (.raiseTask id)).await t (.raising a s.tasks.length))
  | quiet {ℓ : Label} {t : TaskId} {p q : Await} (h : p.Quiet q) :
      Move s ℓ t p q (s.await t q)

/-- A step of the service begins a call, lets time pass, or moves a task. -/
inductive Steps (s : Service) (ℓ : Label) : Service → Prop
  | call (c : Call) (hℓ : ℓ = .call c) : Steps s ℓ (s.spawn (.called c))
  | tick (n : ℕ) (hℓ : ℓ = .tick n) : Steps s ℓ { s with clock := s.clock + n }
  | move {t : TaskId} {p q : Await} {s' : Service} (ht : s.tasks[t]? = some p)
      (h : Move s ℓ t p q s') (hℓ : ℓ.task = some t) : Steps s ℓ s'

/-! ### The steps are moves -/

section

variable {s s' : Service} {ℓ : Label} {t : TaskId} {p : Await} {c : Caller}

/-- `_raise` returns the object of a raised instance or waits for a slot. -/
theorem move_raise (hp : p.Idle) (hc : s.callsRaise ℓ = some c)
    (he : c.handles = p.handles) :
  ∃ q, Move s ℓ t p q (s.raise t c)
  := by
  unfold raise
  split
  · rename_i hr
    exact ⟨_, Move.present hp hc hr he⟩
  · rename_i hr
    exact ⟨_, Move.wait hp hc hr he⟩

/-- A pass of `reap_idle` stops the instance that is next. -/
theorem reap_eq (s : Service) (t : TaskId) (now : ℕ) (l : List (InstanceId × Ref)) :
  s.nextIdle now l = none ∧ s.reap t now l = s.await t (.done .finished) ∨
    ∃ id r rest r', s.nextIdle now l = some ((id, r), rest) ∧ s.instances.get id = some r' ∧
      s.reap t now l = s.stop t (.reap now rest) id r'
  := by
  induction l with
  | nil => exact .inl ⟨rfl, rfl⟩
  | cons i l ih =>
      obtain ⟨id, r⟩ := i
      rw [nextIdle, reap]
      by_cases ha : s.isActive now r
      · rw [if_neg (fun h => h.1 ha), if_pos ha]
        apply ih
      · rw [if_neg ha]
        cases hr : s.instances.get id with
        | some r' =>
            right
            exact ⟨id, r, l, r', if_pos ⟨ha, rfl⟩, hr, rfl⟩
        | none =>
            rw [if_neg (by simp)]
            apply ih

/-- A pass of `reap_idle` ends or stops an instance. -/
theorem move_reap (hp : p.Idle) (he : p.handles = none) {now : ℕ} {l : List (InstanceId × Ref)}
    (hl : p = .called .reapIdle ∧ now = s.clock ∧ l = s.instances.items ∨
      p = .scan (.reap now l)) :
  ∃ q, Move s (.run t) t p q (s.reap t now l)
  := by
  rcases s.reap_eq t now l with ⟨-, h⟩ | ⟨id, r, rest, r', hn, hr, h⟩
  · rw [h]
    exact ⟨_, Move.quiet (.ended hp _ he)⟩
  · rw [h]
    refine ⟨_, Move.pop hp hr he ?_⟩
    rintro now' rest' hk
    obtain ⟨rfl, rfl⟩ := Stopper.reap.inj hk
    exact ⟨r, l, hn, hl⟩

/-- `shutdown` ends or stops an instance. -/
theorem move_shutdown (hp : p.Idle) (he : p.handles = none) (l : List InstanceId) :
  ∃ q, Move s (.run t) t p q (s.shutdown t l)
  := by
  induction l with
  | nil => exact ⟨_, Move.quiet (.ended hp _ he)⟩
  | cons id l ih =>
      unfold shutdown
      split
      · rename_i hr
        exact ⟨_, Move.pop hp hr he nofun⟩
      · apply ih

/-- A call runs to its first suspension. -/
theorem move_begin (c : Call) (ht : s.tasks[t]? = some (.called c)) :
  ∃ q, Move s (.run t) t (.called c) q (s.begin t c)
  := by
  have hp : (Await.called c).Idle := .called c
  cases c with
  | handleEvent e =>
      rw [begin]
      split
      · exact ⟨_, Move.quiet (.skip hp e rfl)⟩
      · rename_i he
        split
        · rename_i hr
          apply move_raise hp _ rfl
          simp only [callsRaise, ht]
          rw [if_pos ⟨not_not.mp he, by simp [hr]⟩]
        · exact ⟨_, Move.quiet (.peek hp e rfl)⟩
  | chat id message =>
      apply move_raise hp _ rfl
      simp only [callsRaise, ht]
  | terminal id command =>
      apply move_raise hp _ rfl
      simp only [callsRaise, ht]
  | raiseInstance id => exact ⟨_, Move.spawned hp rfl⟩
  | chatEndpoint id message => exact ⟨_, Move.spawned hp rfl⟩
  | terminalEndpoint id command => exact ⟨_, Move.spawned hp rfl⟩
  | stopInstance id =>
      rw [begin]
      split
      · rename_i hr
        refine ⟨_, Move.pop hp hr rfl ?_⟩
        intros
        contradiction
      · exact ⟨_, Move.quiet (.ended hp _ rfl)⟩
  | reapIdle => apply move_reap hp rfl (.inl ⟨rfl, rfl, rfl⟩)
  | shutdown => apply move_shutdown hp rfl

/-- `raise_instance` ends or goes on once its task has ended. -/
theorem move_raiseEnded {a : Opener} {child : TaskId} {result : Result}
    (ht : s.tasks[t]? = some (.raising a child))
    (hd : s.tasks[child]? = some (.done result)) :
  ∃ q, Move s (.run t) t (.raising a child) q (s.raiseEnded t a result)
  := by
  have hp : (Await.raising a child).Idle := .raising a child
  have hend : ∀ result, ∃ q, Move s (.run t) t (.raising a child) q
      (s.await t (.done result)) :=
    fun result => ⟨_, Move.quiet (.ended hp result rfl)⟩
  cases result with
  | raised r =>
      cases a with
      | caller id => apply hend
      | chat id message =>
          apply move_raise hp _ rfl
          simp only [callsRaise, ht, hd]
      | terminal id command =>
          apply move_raise hp _ rfl
          simp only [callsRaise, ht, hd]
  | refused claim => cases a <;> apply hend
  | _ => apply hend

/-- A turn whose last frame was emitted ends, or is marked. -/
theorem move_close (k : Turn) (r : Ref) (how : TurnEnd) :
  ∃ q, Move s (.run t) t (.closing k r how) q (s.close t k r how)
  := by
  by_cases hh : how = .finished
  · subst hh
    cases k with
    | event e => exact ⟨_, Move.marking⟩
    | chat id message => exact ⟨_, Move.chatted⟩
  · have hc : s.close t k r how = (s.modify r k.finally).leave t r (k.broken how) := by
      unfold close
      split
      · contradiction
      · contradiction
      · rfl
    rw [hc]
    exact ⟨_, Move.broken hh⟩

/-- What a task runs when what it awaits is there is a move. -/
theorem move_run (ht : s.tasks[t]? = some p) (h : s.run t p = some s') :
  ∃ q, Move s (.run t) t p q s'
  := by
  unfold run at h
  split at h
  · obtain rfl := Option.some.inj h
    apply move_begin _ ht
  · obtain rfl := Option.some.inj h
    apply move_raise (.raiseTask _) _ rfl
    simp only [callsRaise, ht]
  · split at h
    · rename_i hd
      obtain rfl := Option.some.inj h
      apply move_raiseEnded ht hd
    · contradiction
  · split at h
    · rename_i hf
      obtain rfl := Option.some.inj h
      exact ⟨_, Move.slot hf⟩
    · contradiction
  · split at h
    · rename_i hl
      obtain rfl := Option.some.inj h
      unfold raiseLocked
      split
      · rename_i hr
        exact ⟨_, Move.found hl hr⟩
      · rename_i hr
        exact ⟨_, Move.claim hl hr⟩
    · contradiction
  · obtain rfl := Option.some.inj h
    unfold claimed
    split
    · rename_i hc
      exact ⟨_, Move.insert hc⟩
    · rename_i hc
      exact ⟨_, Move.refuse hc⟩
  · obtain rfl := Option.some.inj h
    split
    · rename_i hb
      subst hb
      exact ⟨_, Move.quiet (.skipped _)⟩
    · rename_i hb
      rw [Bool.not_eq_true] at hb
      subst hb
      exact ⟨_, Move.quiet (.notSkipped _ _)⟩
  · obtain rfl := Option.some.inj h
    exact ⟨_, Move.quiet (.skipMarked _ _)⟩
  · split at h
    · rename_i hc
      obtain rfl := Option.some.inj h
      exact ⟨_, Move.quiet (.handOff _ _ hc)⟩
    · rename_i hc
      obtain rfl := Option.some.inj h
      apply move_raise (.peek _ _) _ rfl
      simp only [callsRaise, ht]
      rw [if_neg hc]
  · split at h
    · rename_i hb
      subst hb
      obtain rfl := Option.some.inj h
      exact ⟨_, Move.fresh⟩
    · rename_i hb
      rw [Bool.not_eq_true] at hb
      subst hb
      obtain rfl := Option.some.inj h
      exact ⟨_, Move.duplicate⟩
  · split at h
    · rename_i hl
      obtain rfl := Option.some.inj h
      exact ⟨_, Move.enter hl⟩
    · contradiction
  · obtain rfl := Option.some.inj h
    split
    · rename_i hb
      subst hb
      exact ⟨_, Move.quiet (.context _ _)⟩
    · rename_i hb
      rw [Bool.not_eq_true] at hb
      subst hb
      exact ⟨_, Move.missing⟩
  · obtain rfl := Option.some.inj h
    exact ⟨_, Move.start⟩
  · obtain rfl := Option.some.inj h
    exact ⟨_, Move.quiet (.next _ _ _)⟩
  · obtain rfl := Option.some.inj h
    exact ⟨_, Move.quiet (.closing _ _ _)⟩
  · obtain rfl := Option.some.inj h
    apply move_close
  · obtain rfl := Option.some.inj h
    exact ⟨_, Move.processed⟩
  · split at h
    · rename_i hl
      obtain rfl := Option.some.inj h
      exact ⟨_, Move.termEnter hl⟩
    · contradiction
  · obtain rfl := Option.some.inj h
    split
    · rename_i hb
      subst hb
      exact ⟨_, Move.quiet (.terminal _ _ _)⟩
    · rename_i hb
      rw [Bool.not_eq_true] at hb
      subst hb
      exact ⟨_, Move.termMissing⟩
  · obtain rfl := Option.some.inj h
    apply move_reap (.scan _) rfl (.inr rfl)
  · obtain rfl := Option.some.inj h
    apply move_shutdown (.scan _) rfl
  · split at h
    · rename_i hl
      obtain rfl := Option.some.inj h
      exact ⟨_, Move.stopEnter hl⟩
    · contradiction
  · obtain rfl := Option.some.inj h
    exact ⟨_, Move.released⟩
  · contradiction

/-- A cancellation is a move. -/
theorem move_cancel (h : s.cancel t p = some s') :
  ∃ q, Move s (.cancel t) t p q s'
  := by
  unfold cancel at h
  split at h
  · obtain rfl := Option.some.inj h
    exact ⟨_, Move.quiet (.cancelling _ _ _)⟩
  · obtain rfl := Option.some.inj h
    exact ⟨_, Move.quiet (.closing _ _ _)⟩
  · obtain rfl := Option.some.inj h
    exact ⟨_, Move.unwind (.inr rfl) (.inr ⟨_, _, rfl, rfl, rfl⟩) fun _ => rfl⟩
  · contradiction
  · contradiction
  · rename_i hr hc _ _ _
    obtain rfl := Option.some.inj h
    refine ⟨_, Move.unwind (.inr rfl) (.inl ⟨_, rfl⟩) fun _ => ?_⟩
    unfold Await.defers
    split
    · apply (hr _ _ _ rfl).elim
    · apply (hc _ _ rfl).elim
    · rfl

/-- Every step of the service begins a call, lets time pass, or moves a task. -/
theorem step_cases (h : s.step ℓ = some s') :
  s.Steps ℓ s'
  := by
  cases ℓ with
  | call c =>
      obtain rfl := Option.some.inj h
      apply Steps.call c rfl
  | tick n =>
      obtain rfl := Option.some.inj h
      apply Steps.tick n rfl
  | run t =>
      obtain ⟨p, ht, h⟩ := Option.bind_eq_some_iff.mp h
      obtain ⟨q, hm⟩ := move_run ht h
      apply Steps.move ht hm rfl
  | forwarded t ok =>
      rw [step] at h
      split at h
      · rename_i ht
        obtain rfl := Option.some.inj h
        apply Steps.move ht (.quiet (.forwarded _ _ _)) rfl
      · contradiction
  | terminalRan t cwd =>
      obtain ⟨p, ht, h⟩ := Option.bind_eq_some_iff.mp h
      unfold terminalRan at h
      split at h
      · obtain rfl := Option.some.inj h
        apply Steps.move ht .termRan rfl
      · contradiction
  | timeout t =>
      rw [step] at h
      split at h
      · rename_i a child ht
        split at h
        · contradiction
        · obtain rfl := Option.some.inj h
          cases a with
          | caller id => apply Steps.move ht (.quiet (.ended (.raising _ _) _ rfl)) rfl
          | chat id message =>
              have hc : s.callsRaise (.timeout t) = some (.turn (.chat id message)) := by
                simp only [callsRaise, ht]
              obtain ⟨q, hm⟩ := move_raise (t := t) (.raising (.chat id message) child) hc rfl
              apply Steps.move ht hm rfl
          | terminal id command =>
              have hc : s.callsRaise (.timeout t) = some (.terminal id command) := by
                simp only [callsRaise, ht]
              obtain ⟨q, hm⟩ := move_raise (t := t) (.raising (.terminal id command) child) hc rfl
              apply Steps.move ht hm rfl
      · contradiction
  | yield t =>
      rw [step] at h
      split at h
      · rename_i ht
        obtain rfl := Option.some.inj h
        apply Steps.move ht (.quiet (.yield _ _ _ _)) rfl
      · contradiction
  | turnEnds t how =>
      obtain ⟨p, ht, h⟩ := Option.bind_eq_some_iff.mp h
      unfold turnEnds at h
      split at h
      · split at h
        · rename_i hb
          obtain rfl := Option.some.inj h
          apply Steps.move ht (.ends hb) rfl
        · contradiction
      · contradiction
  | fail t =>
      obtain ⟨p, ht, h⟩ := Option.bind_eq_some_iff.mp h
      unfold fail at h
      split at h
      · obtain rfl := Option.some.inj h
        apply Steps.move ht (.unwind (.inl rfl) (.inl ⟨_, rfl⟩) Label.noConfusion) rfl
      · contradiction
  | cancel t =>
      obtain ⟨p, ht, h⟩ := Option.bind_eq_some_iff.mp h
      obtain ⟨q, hm⟩ := move_cancel h
      apply Steps.move ht hm rfl

end

end Service

/-! ### The attributes of the tasks -/

/-- An attribute that a new task lacks and a request to cancel an execution keeps. -/
structure Await.Stable {α : Type} (f : Await → Option α) : Prop where
  called : ∀ c, f (.called c) = none
  raiseTask : ∀ id, f (.raiseTask id) = none
  cancelExec : ∀ p, f p.cancelExec = f p

namespace Await

/-- A function of the await points that does not look at whether the execution of an event
is asked to cancel. -/
theorem cancelExec_eq {β : Type} {f : Await → β}
    (hf : ∀ e r b, f (.turn (.event e) r (.running true)) = f (.turn (.event e) r (.running b)))
    (p : Await) :
  f p.cancelExec = f p
  := by
  unfold cancelExec
  split
  · apply hf
  · rfl

theorem stable_holds : Stable holds :=
  ⟨fun _ => rfl, fun _ => rfl, cancelExec_eq fun _ _ _ => rfl⟩

theorem stable_inside : Stable inside :=
  ⟨fun _ => rfl, fun _ => rfl, cancelExec_eq fun _ _ _ => rfl⟩

theorem stable_uses : Stable uses :=
  ⟨fun _ => rfl, fun _ => rfl, cancelExec_eq fun _ _ _ => rfl⟩

theorem stable_claiming : Stable claiming :=
  ⟨fun _ => rfl, fun _ => rfl, cancelExec_eq fun _ _ _ => rfl⟩

theorem stable_claimed : Stable claimed :=
  ⟨fun _ => rfl, fun _ => rfl, cancelExec_eq fun _ _ _ => rfl⟩

theorem stable_raises : Stable raises :=
  ⟨fun _ => rfl, fun _ => rfl, cancelExec_eq fun _ _ _ => rfl⟩

theorem stable_stopping : Stable stopping :=
  ⟨fun _ => rfl, fun _ => rfl, cancelExec_eq fun _ _ _ => rfl⟩

theorem permits_cancelExec (p : Await) :
  p.cancelExec.permits = p.permits
  := cancelExec_eq (fun _ _ _ => rfl) p

end Await

namespace Service

variable {s s' : Service} {ℓ : Label} {t : TaskId} {p q : Await}

/-- Besides the task that moves, a move rewrites at most the execution that it asks to
cancel, and creates at most one `_raise`. -/
theorem Move.tasks (h : Move s ℓ t p q s') :
  s'.tasks = s.tasks.set t q ∨
    (∃ t', s'.tasks = (s.tasks.modify t' Await.cancelExec).set t q) ∨
    ∃ id, s'.tasks = (s.tasks ++ [Await.raiseTask id]).set t q
  := by
  cases h with
  | @pop _ _ k id r hp hr =>
      cases ht : (s.objects r).turnTask with
      | none =>
          left
          simp [stop, cancelTurn, ht, modify, await]
      | some t' =>
          right
          left
          use t'
          simp [stop, cancelTurn, ht, modify, await]
  | unwind hℓ hq =>
      left
      cases p <;> rfl
  | spawned hp =>
      right
      right
      exact ⟨_, rfl⟩
  | _ =>
      left
      rfl

/-- A move updates an attribute at the task that moves. -/
theorem Move.attr_of {α : Type} {f : Await → Option α} (hr : ∀ id, f (.raiseTask id) = none)
    (hc : ∀ p, f p.cancelExec = f p) (ht : s.tasks[t]? = some p) (h : Move s ℓ t p q s') :
  Pool.attr f s'.tasks = Function.update (Pool.attr f s.tasks) t (f q)
  := by
  rcases h.tasks with h | ⟨t', h⟩ | ⟨id, h⟩
  · rw [h, Pool.attr_set ht]
  · obtain ⟨p', hp'⟩ : ∃ p', (s.tasks.modify t' Await.cancelExec)[t]? = some p' := by
      rw [List.getElem?_modify, ht]
      exact ⟨_, rfl⟩
    rw [h, Pool.attr_set hp', Pool.attr_modify hc]
  · have ht' : (s.tasks ++ [Await.raiseTask id])[t]? = some p := by
      rw [List.getElem?_append_left (List.getElem?_eq_some_iff.mp ht).1, ht]
    rw [h, Pool.attr_set ht', Pool.attr_append (hr id)]

theorem Move.attr {α : Type} {f : Await → Option α} (hf : Await.Stable f)
    (ht : s.tasks[t]? = some p) (h : Move s ℓ t p q s') :
  Pool.attr f s'.tasks = Function.update (Pool.attr f s.tasks) t (f q)
  := h.attr_of hf.raiseTask hf.cancelExec ht

/-- A move that keeps or drops an attribute of the task makes no new value of it. -/
theorem Move.attr_old {α : Type} {f : Await → Option α} (hf : Await.Stable f)
    (ht : s.tasks[t]? = some p) (h : Move s ℓ t p q s') (hq : f q = f p ∨ f q = none)
    {t' : TaskId} {a : α} (ha : Pool.attr f s'.tasks t' = some a) :
  Pool.attr f s.tasks t' = some a
  := by
  rw [h.attr hf ht] at ha
  apply Pool.attr_of_set ht hq ha

/-- A move leaves the configuration as it is. -/
theorem Move.config (h : Move s ℓ t p q s') :
  s'.slots = s.slots ∧ s'.runnerId = s.runnerId
  := by
  cases h with
  | pop hp hr =>
      rw [stop, cancelTurn]
      split <;> exact ⟨rfl, rfl⟩
  | unwind hℓ hq => cases p <;> exact ⟨rfl, rfl⟩
  | _ => exact ⟨rfl, rfl⟩

/-- A step leaves the configuration as it is. -/
theorem Steps.config (h : s.Steps ℓ s') :
  s'.slots = s.slots ∧ s'.runnerId = s.runnerId
  := by
  cases h with
  | call c _ => exact ⟨rfl, rfl⟩
  | tick n _ => exact ⟨rfl, rfl⟩
  | move ht h => apply h.config

/-- A reply that keeps or drops an attribute of the task makes no new value of it. -/
theorem attr_await_old {α : Type} {f : Await → Option α} (ht : s.tasks[t]? = some p)
    (hq : f q = f p ∨ f q = none) {t' : TaskId} {a : α}
    (ha : Pool.attr f (s.await t q).tasks t' = some a) :
  Pool.attr f s.tasks t' = some a
  := by
  rw [await, Pool.attr_set ht] at ha
  apply Pool.attr_of_set ht hq ha

/-- A move trades the slots that the task keeps before for those that it keeps after. -/
theorem Move.weight_permits (ht : s.tasks[t]? = some p) (h : Move s ℓ t p q s') :
  Pool.weight Await.permits s'.tasks + p.permits =
    Pool.weight Await.permits s.tasks + q.permits
  := by
  rcases h.tasks with h | ⟨t', h⟩ | ⟨id, h⟩
  · rw [h, Pool.weight_set ht]
  · obtain ⟨p', hp', hpp⟩ : ∃ p', (s.tasks.modify t' Await.cancelExec)[t]? = some p' ∧
        p'.permits = p.permits := by
      rw [List.getElem?_modify, ht]
      refine ⟨_, rfl, ?_⟩
      split
      · apply Await.permits_cancelExec
      · rfl
    have hw := Pool.weight_set (f := Await.permits) (q := q) hp'
    rw [Pool.weight_modify Await.permits_cancelExec, hpp] at hw
    rw [h, hw]
  · have ht' : (s.tasks ++ [Await.raiseTask id])[t]? = some p := by
      rw [List.getElem?_append_left (List.getElem?_eq_some_iff.mp ht).1, ht]
    have hw := Pool.weight_set (f := Await.permits) (q := q) ht'
    rw [Pool.weight_append] at hw
    rw [h, hw]
    rfl

end Service

end Runner
