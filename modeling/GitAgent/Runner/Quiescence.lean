import GitAgent.Runner.Row
import GitAgent.Runner.Slots

/-!
# The runner at rest

Once every operation of a runner has ended, its slots, its raised instances and the rows that
it holds are to agree. An exception or a cancellation that cuts a stop short loses a slot and
may leave the row, one that meets a `_raise` after its claim took effect leaves the row, and
a claim that is executed while a stop has still to release the row loses it. Otherwise they
agree.
-/

namespace Runner

open Hub (InstanceId EventId RunnerId Db)

/-- Whether the operation has ended: the task is done, or was left behind by its chat. -/
def Await.isOver : Await → Bool
  | done _ | abandoned _ => true
  | _ => false

/-- A task whose operation has ended keeps nothing but an execution left behind. -/
theorem Await.attrs_of_isOver {p : Await} (h : p.isOver) :
  p.permits = 0 ∧ p.claimed = none ∧ p.stopping = none
  := by cases p <;> first | contradiction | exact ⟨rfl, rfl, rfl⟩

namespace Service

variable {s s' : Service} {ℓ : Label} {t : TaskId} {p q : Await} {id : InstanceId}

/-- A claim that succeeded is entered among the raised instances, unless a fault meets it. -/
theorem Move.of_claimed (h : Move s ℓ t p q s') (hp : p.claimed = some id) :
  (ℓ = .fail t ∨ ℓ = .cancel t) ∨ s'.instances = s.instances.set id s.nextRef
  := by
  cases h with
  | insert hc =>
      rw [Await.claimed, if_pos hc] at hp
      obtain rfl := Option.some.inj hp
      exact .inr rfl
  | refuse hc =>
      rw [Await.claimed, if_neg hc] at hp
      contradiction
  | present hi hc hr =>
      rw [hi.bare.claimed] at hp
      contradiction
  | wait hi hc hr =>
      rw [hi.bare.claimed] at hp
      contradiction
  | pop hi hr =>
      rw [hi.bare.claimed] at hp
      contradiction
  | spawned hi =>
      rw [hi.bare.claimed] at hp
      contradiction
  | unwind hℓ hq => exact .inl hℓ
  | quiet hq =>
      have := (Move.quiet (s := s) (ℓ := ℓ) (t := t) hq).claimed
      rw [hq.keeps.claimed, hp] at this
      contradiction
  | _ => contradiction

/-- A stop that has still to release the row goes on, unless a fault cuts it short. -/
theorem Move.of_stopping (h : Move s ℓ t p q s') (hp : p.stopping ≠ none) :
  (ℓ = .fail t ∨ ℓ = .cancel t) ∨ q.stopping = p.stopping
  := by
  cases h with
  | stopEnter hl => exact .inr rfl
  | quiet h => exact .inr h.keeps.stopping
  | present hi hc hr => apply absurd hi.bare.stopping hp
  | wait hi hc hr => apply absurd hi.bare.stopping hp
  | pop hi hr => apply absurd hi.bare.stopping hp
  | spawned hi => apply absurd hi.bare.stopping hp
  | unwind hℓ hq => exact .inl hℓ
  | _ => apply absurd rfl hp

/-- The service stands for the instance: it is raised, a task has claimed it, or a task has
still to release it. -/
def Standing (s : Service) (id : InstanceId) : Prop :=
  s.instances.get id ≠ none ∨ (∃ t, Pool.attr Await.claimed s.tasks t = some id) ∨
    ∃ t r, Pool.attr Await.stopping s.tasks t = some (id, r)

/-- A task is not met by a fault while it stops an instance, or after it claimed one. -/
def FaultApart (s : Service) (t : TaskId) : Prop :=
  match s.tasks[t]? with
  | some p => ¬ p.stops ∧ p.claimed = none
  | none => True

instance (s : Service) (t : TaskId) : Decidable (s.FaultApart t) := by
  delta FaultApart
  generalize s.tasks[t]? = o
  rcases o <;> dsimp only <;> infer_instance

/-- Whether the step meets a task with a fault that this allows. -/
def FaultsApart (s : Service) : Label → Prop
  | .fail t => s.FaultApart t
  | .cancel t => s.FaultApart t
  | _ => True

instance (s : Service) (ℓ : Label) : Decidable (s.FaultsApart ℓ) := by
  delta FaultsApart
  rcases ℓ <;> dsimp only <;> infer_instance

/-- A task that has still to release an instance stops it. -/
theorem stops_of_stopping (h : p.stopping ≠ none) :
  p.stops
  := by cases p <;> first | rfl | apply absurd rfl h

/-- Where faults are apart, the task that moves is not met by one while it stops an instance
or after it claimed one. -/
theorem FaultsApart.not_fault (hG : s.FaultsApart ℓ) (ht : s.tasks[t]? = some p)
    (hℓ : ℓ = .fail t ∨ ℓ = .cancel t) :
  ¬ p.stops ∧ p.claimed = none
  := by
  rcases hℓ with rfl | rfl <;> simpa [FaultsApart, FaultApart, ht] using hG

/-- A move without such a fault stands for the same instances. -/
theorem standing_move (hG : s.FaultsApart ℓ) (ht : s.tasks[t]? = some p)
    (h : Move s ℓ t p q s') :
  s'.Standing id ↔ s.Standing id
  := by
  have hclaim := h.attr Await.stable_claimed ht
  have hstop := h.attr Await.stable_stopping ht
  constructor
  · rintro (hr | ⟨t', hc⟩ | ⟨t', r, hst⟩)
    · cases h.entries with
      | same hi _ _ _ =>
          left
          rw [← hi]
          apply hr
      | insert c hp _ hi _ =>
          rw [hi, Dict.get_set] at hr
          split at hr
          · rename_i e
            right
            left
            use t
            rw [Pool.attr_of_getElem? ht, hp, e]
          · exact .inl hr
      | pop k id' r _ _ _ hi _ =>
          left
          rw [hi, Dict.get_erase] at hr
          split at hr
          · contradiction
          · apply hr
    · exact .inr (.inl ⟨t', h.attr_old Await.stable_claimed ht (.inr h.claimed) hc⟩)
    · cases h.entries with
      | same _ _ _ hq =>
          exact .inr (.inr ⟨t', r, h.attr_old Await.stable_stopping ht hq hst⟩)
      | insert c _ hq _ _ =>
          subst hq
          exact .inr (.inr ⟨t', r, h.attr_old Await.stable_stopping ht
            (.inr (Await.Bare.raised _ _).stopping) hst⟩)
      | pop k id' r' hg _ hq _ _ =>
          subst hq
          rw [hstop, Function.update_apply] at hst
          split at hst
          · left
            obtain ⟨rfl, rfl⟩ := Prod.mk.inj (Option.some.inj hst)
            rw [hg]
            apply Option.some_ne_none
          · exact .inr (.inr ⟨t', r, hst⟩)
  · rintro (hr | ⟨t', hc⟩ | ⟨t', r, hst⟩)
    · cases h.entries with
      | same hi _ _ _ =>
          left
          rw [hi]
          apply hr
      | insert c _ _ hi _ =>
          left
          rw [hi, Dict.get_set]
          split
          · apply Option.some_ne_none
          · apply hr
      | pop k id' r hg _ hq hi _ =>
          by_cases e : id = id'
          · subst e hq
            right
            right
            use t, r
            rw [hstop, Function.update_self]
            rfl
          · left
            rw [hi, Dict.get_erase, if_neg e]
            apply hr
    · by_cases e : t' = t
      · subst e
        rw [Pool.attr_of_getElem? ht] at hc
        rcases h.of_claimed hc with hℓ | hi
        · rw [(hG.not_fault ht hℓ).2] at hc
          contradiction
        · left
          rw [hi, Dict.get_set, if_pos rfl]
          apply Option.some_ne_none
      · right
        left
        use t'
        rw [hclaim, Function.update_of_ne e, hc]
    · right
      right
      use t', r
      rw [hstop, Function.update_apply]
      split
      · rename_i e
        subst e
        rw [Pool.attr_of_getElem? ht] at hst
        have hne : p.stopping ≠ none := by simp [hst]
        rcases h.of_stopping hne with hℓ | hq
        · apply absurd (stops_of_stopping hne) (hG.not_fault ht hℓ).1
        · rw [hq, hst]
      · apply hst

/-- A move without such a fault loses no slot. -/
theorem accounted_move (hs : s.Inv) (hG : s.FaultsApart ℓ) (ht : s.tasks[t]? = some p)
    (h : Move s ℓ t p q s') :
  s'.accounted = s.accounted
  := by
  rcases h.accounted hs ht with ha | ⟨hℓ, hst, _⟩
  · apply ha
  · apply absurd hst (hG.not_fault ht hℓ).1

end Service

namespace State

/-- The action is not a fault that cuts a stop short or meets a `_raise` after its claim took
effect, nor a claim of an instance that a stop has still to release. -/
def FaultsApart (s : State) : Action → Prop
  | .step ℓ => s.service.FaultsApart ℓ
  | .stmt t => s.service.ClaimsApart t

instance (s : State) (a : Action) : Decidable (s.FaultsApart a) := by
  delta FaultsApart
  rcases a <;> dsimp only <;> infer_instance

/-- Every operation has ended. -/
def Quiescent (s : State) : Prop :=
  ∀ p ∈ s.service.tasks, p.isOver

/-- The free permits are the slots that no raised instance takes, and the rows held are those
of the raised instances. -/
def Consistent (s : State) (slots : ℕ) : Prop :=
  s.service.free.value + s.service.instances.size = slots ∧
    ∀ id, s.db.holder id = some s.service.runnerId ↔ s.service.instances.get id ≠ none

/-- The invariant of the runs without such faults: no slot is lost, and the rows held are
those of the instances that the service stands for. -/
structure Faithful (s : State) (slots : ℕ) : Prop where
  accounted : s.service.accounted = slots
  holder : ∀ id, s.db.holder id = some s.service.runnerId ↔ s.service.Standing id

variable {s : State} {slots : ℕ}

/-- A statement that claims no instance with a pending release holds the rows of the
instances that the service then stands for. -/
theorem Faithful.reply {t : TaskId} {p q : Await} {db : Db} (hs : s.Faithful slots)
    (hE : s.service.Exclusive) (ht : s.service.tasks[t]? = some p)
    (h : Reply s.db s.service.runnerId p db q) :
  Faithful ⟨db, s.service.await t q⟩ slots
  := by
  refine ⟨(Service.accounted_await ht h.keeps.1).trans hs.accounted, ?_⟩
  intro id
  have hs := hs.holder id
  unfold Service.Standing at hs ⊢
  cases h.row with
  | same hd hc hst =>
      simp only [Service.await, Pool.attr_set_of_eq ht hc, Pool.attr_set_of_eq ht hst, hd]
      apply hs
  | claim c hp hq _ hd =>
      have hst : q.stopping = p.stopping := by rw [hp, hq]; rfl
      have hc : q.claimed = some c.instanceId := by rw [hq]; rfl
      have hpc : Pool.attr Await.claimed s.service.tasks t = none := by
        rw [Pool.attr_of_getElem? ht, hp]
        rfl
      simp only [Service.await, Pool.attr_set (f := Await.claimed) ht,
        Pool.attr_set_of_eq (f := Await.stopping) ht hst, hd, Function.update_apply, hc]
      by_cases e : id = c.instanceId
      · rw [if_pos e]
        refine ⟨fun _ => .inr (.inl ⟨t, by rw [if_pos rfl, e]⟩), fun _ => rfl⟩
      · rw [if_neg e, hs]
        apply or_congr_right
        apply or_congr_left
        constructor
        · rintro ⟨t', h'⟩
          use t'
          rw [if_neg, h']
          rintro rfl
          rw [hpc] at h'
          contradiction
        · rintro ⟨t', h'⟩
          split at h'
          · apply absurd (Option.some.inj h').symm e
          · exact ⟨t', h'⟩
  | release k id₀ r₀ hp hq hd =>
      have hc : q.claimed = p.claimed := by rw [hp, hq]; rfl
      have hst : q.stopping = none := by rw [hq]; rfl
      have hpst : Pool.attr Await.stopping s.service.tasks t = some (id₀, r₀) := by
        rw [Pool.attr_of_getElem? ht, hp]
        rfl
      simp only [Service.await, Pool.attr_set (f := Await.stopping) ht,
        Pool.attr_set_of_eq (f := Await.claimed) ht hc, Function.update_apply, hst]
      by_cases e : id = id₀
      · -- The release was the last to stand for the instance.
        subst e
        have hdown : db.holder id ≠ some s.service.runnerId := by
          rw [hd]
          split
          · rw [Function.update_self]
            apply (Option.some_ne_none _).symm
          · assumption
        refine ⟨fun h => absurd h hdown, ?_⟩
        rintro (hr | ⟨t', h'⟩ | ⟨t', r, h'⟩)
        · apply absurd (hE.absent t id r₀ hpst) hr
        · apply absurd h' (hE.unclaimed t id r₀ hpst t')
        · split at h'
          · contradiction
          · rename_i hne
            apply absurd (hE.unique t id r₀ hpst t' r h') hne
      · have hsame : db.holder id = s.db.holder id := by
          rw [hd]
          split
          · apply Function.update_of_ne e
          · rfl
        rw [hsame, hs]
        apply or_congr_right
        apply or_congr_right
        constructor
        · rintro ⟨t', r, h'⟩
          use t', r
          rw [if_neg, h']
          rintro rfl
          rw [hpst] at h'
          apply e (Prod.mk.inj (Option.some.inj h')).1.symm
        · rintro ⟨t', r, h'⟩
          split at h'
          · contradiction
          · exact ⟨t', r, h'⟩

/-- At rest the service stands for the raised instances only, and no task keeps a slot. -/
theorem Faithful.consistent (hs : s.Faithful slots) (hq : s.Quiescent) :
  s.Consistent slots
  := by
  constructor
  · have hw : Pool.weight Await.permits s.service.tasks = 0 :=
      Pool.weight_eq_zero fun p hp => (Await.attrs_of_isOver (hq p hp)).1
    have ha := hs.accounted
    unfold Service.accounted at ha
    omega
  · intro id
    rw [hs.holder id]
    constructor
    · rintro (hr | ⟨t, h⟩ | ⟨t, r, h⟩)
      · apply hr
      · obtain ⟨p, hp, h⟩ := Pool.exists_of_attr h
        rw [(Await.attrs_of_isOver (hq p (List.mem_of_getElem? hp))).2.1] at h
        contradiction
      · obtain ⟨p, hp, h⟩ := Pool.exists_of_attr h
        rw [(Await.attrs_of_isOver (hq p (List.mem_of_getElem? hp))).2.2] at h
        contradiction
    · exact fun hr => .inl hr

end State

section

variable {R : RunnerId} {slots : ℕ} {s : State}

/-- In a run without such faults no slot is lost and the rows are those of the instances that
the service stands for. -/
theorem faithful_of_reach
    (h : (system R slots fun db => ∀ id, db.holder id ≠ some R).Reach State.FaultsApart s) :
  s.service.Exclusive ∧ s.Faithful slots
  := by
  apply h.invariant_of (fun s => inv_of_reach)
    (I := fun s => s.service.Exclusive ∧ s.Faithful slots)
  · rintro ⟨db, service⟩ ⟨hdb, idleTimeout, clock, rfl⟩
    refine ⟨Service.Exclusive.start _ _ _ _, rfl, ?_⟩
    intro id
    refine ⟨fun h => absurd h (hdb id), ?_⟩
    rintro (hr | ⟨t, h⟩ | ⟨t, r, h⟩) <;> contradiction
  · intro s a s' hI ⟨hE, hs⟩ hG ha
    cases State.act_cases ha with
    | step h =>
        refine ⟨hE.steps hI h, ?_⟩
        cases h with
        | call c _ =>
            have hc := Pool.attr_append (l := s.service.tasks) (Await.stable_claimed.called c)
            have hst := Pool.attr_append (l := s.service.tasks) (Await.stable_stopping.called c)
            refine ⟨(Service.accounted_call _ c).trans hs.accounted, ?_⟩
            simp only [Service.Standing, Service.spawn, hc, hst]
            apply hs.holder
        | tick n _ => exact ⟨hs.accounted, hs.holder⟩
        | move ht h =>
            refine ⟨(Service.accounted_move hI hG ht h).trans hs.accounted, ?_⟩
            intro id
            rw [Service.standing_move hG ht h, ← hs.holder id]
            simp only [h.config.2]
    | stmt ht h => exact ⟨hE.reply hG ht h, hs.reply hE ht h⟩

/-- **Quiescent consistency**: from a runner that holds no row, in a run in which no fault
cuts a stop short or meets a `_raise` after its claim took effect, and no instance is claimed
while a stop has still to release it, the slots, the raised instances and the rows agree once
every operation has ended. -/
theorem consistent_of_faultsApart
    (h : (system R slots fun db => ∀ id, db.holder id ≠ some R).Reach State.FaultsApart s)
    (hq : s.Quiescent) :
  s.Consistent slots
  := (faithful_of_reach h).2.consistent hq

end

/-- An instance is raised and stopped, and the runner is at rest with its slot free. -/
theorem consistent_of_faultsApart_stop :
  ∃ s, (system 1 1 fun db => ∀ id, db.holder id ≠ some 1).Reach State.FaultsApart s ∧
    s.service.tasks[2]? = some (.done (.stopped true)) ∧ s.Consistent 1
  := by
  have hdb : ∀ id, Db.single.holder id ≠ some 1 := by simp [Db.holder_single]
  obtain ⟨s, hs, hp⟩ := Transition.exists_reach_of_run
    (T := system 1 1 fun db => ∀ id, db.holder id ≠ some 1)
    (G := State.FaultsApart) (s := ⟨.single, .start 1 1 10 0⟩) ⟨hdb, 10, 0, rfl⟩
    [.step (.call (.raiseInstance 1)), .step (.run 0), .step (.run 1), .step (.run 1),
      .step (.run 1), .stmt 1, .step (.run 1), .step (.run 0),
      .step (.call (.stopInstance 1)), .step (.run 2), .step (.run 2), .stmt 2, .step (.run 2)]
    (fun s => s.service.tasks[2]? = some (.done (.stopped true)) ∧
      ∀ p ∈ s.service.tasks, p.isOver) (by decide)
  obtain ⟨ht, hq⟩ := of_decide_eq_true hp
  exact ⟨s, hs, ht, consistent_of_faultsApart hs hq⟩

/-- A stop is cancelled while the database is to release the instance. The runner comes to
rest without a free slot and without an instance. -/
theorem not_consistent_reachable :
  ∃ s, (system 1 1 fun db => ∀ id, db.holder id ≠ some 1).Reachable s ∧
    s.Quiescent ∧ ¬ s.Consistent 1
  := by
  have hdb : ∀ id, Db.single.holder id ≠ some 1 := by simp [Db.holder_single]
  obtain ⟨s, hs, hp⟩ := Transition.exists_reach_of_run
    (T := system 1 1 fun db => ∀ id, db.holder id ≠ some 1)
    (G := fun _ _ => True) (s := ⟨.single, .start 1 1 10 0⟩) ⟨hdb, 10, 0, rfl⟩
    [.step (.call (.raiseInstance 1)), .step (.run 0), .step (.run 1), .step (.run 1),
      .step (.run 1), .stmt 1, .step (.run 1), .step (.run 0),
      .step (.call (.stopInstance 1)), .step (.run 2), .step (.run 2), .step (.cancel 2)]
    (fun s => (∀ p ∈ s.service.tasks, p.isOver) ∧
      s.service.free.value + s.service.instances.size = 0) (by decide)
  obtain ⟨hq, hv⟩ := of_decide_eq_true hp
  refine ⟨s, hs, hq, ?_⟩
  intro hc
  have := hc.1
  omega

end Runner
