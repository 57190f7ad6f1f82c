import GitAgent.Runner.Row
import GitAgent.Runner.Slots
import GitAgent.Runner.Turns

/-!
# The holder of an instance inside a runner

A runner that has raised an instance, or executes a turn of it, is to hold its row. This
fails when an instance is claimed again while an earlier stop of it has still to release it,
or while a turn goes on with the object of an earlier raise, and when a turn begins on an
object that was stopped. In a run without these the row is held throughout.
-/

namespace Runner

open Hub (InstanceId EventId RunnerId Db)

namespace State

/-- The row of an instance that is raised, or of which a turn is executing, is `running` under
this runner. -/
def SingleHolder (s : State) : Prop :=
  ∀ id, (s.service.instances.get id ≠ none ∨
      ∃ t, Pool.attr Await.executing s.service.tasks t = some id) →
    s.db.holder id = some s.service.runnerId

/-- The statement of `t` claims no instance of which a turn is inside its lock. -/
def ClaimsOutside (s : State) (t : TaskId) : Prop :=
  match s.service.tasks[t]? with
  | some (.claim c .update) => ∀ p ∈ s.service.tasks, p.inside.map Prod.fst ≠ some c.instanceId
  | _ => True

/-- The action does not claim an instance that an earlier stop has still to release or of
which an earlier turn is inside its lock, does not let a turn take the lock of an object that
is neither raised nor still to be released, and does not cancel a chat at a `yield`. -/
def HoldsApart (s : State) : Action → Prop
  | .stmt t => s.service.ClaimsApart t ∧ s.ClaimsOutside t
  | .step (.run t) =>
      match s.service.tasks[t]? with
      | some (.turnLock k r) =>
          s.service.instances.get k.instanceId = some r ∨
            ∃ p ∈ s.service.tasks, p.stopping = some (k.instanceId, r)
      | _ => True
  | .step (.cancel t) => ¬ s.service.AtYield t
  | _ => True

instance (s : State) (t : TaskId) : Decidable (s.ClaimsOutside t) := by
  delta ClaimsOutside
  generalize s.service.tasks[t]? = o
  rcases o with _ | p
  · exact instDecidableTrue
  · rcases p
    case claim c q => rcases q <;> dsimp only <;> infer_instance
    all_goals exact instDecidableTrue

instance (s : State) (a : Action) : Decidable (s.HoldsApart a) := by
  delta HoldsApart
  rcases a with ℓ | t
  · rcases ℓ
    case run t =>
      dsimp only
      generalize s.service.tasks[t]? = o
      rcases o with _ | p
      · exact instDecidableTrue
      · rcases p <;> dsimp only <;> infer_instance
    all_goals
      dsimp only
      infer_instance
  · dsimp only
    infer_instance

/-- The invariant of the runs in which these conflicts do not occur: whatever stands for an
instance has its row, and a turn inside its lock is on the object that is raised, or on one
that is stopped and is at most still to be released. -/
structure Holding (s : State) : Prop where
  entry : ∀ id r, s.service.instances.get id = some r →
    s.db.holder id = some s.service.runnerId
  claimed : ∀ t id, Pool.attr Await.claimed s.service.tasks t = some id →
    s.db.holder id = some s.service.runnerId
  stopping : ∀ t id r, Pool.attr Await.stopping s.service.tasks t = some (id, r) →
    s.db.holder id = some s.service.runnerId
  inside : ∀ t id r, Pool.attr Await.inside s.service.tasks t = some (id, r) →
    s.db.holder id = some s.service.runnerId
  current : ∀ t id r, Pool.attr Await.inside s.service.tasks t = some (id, r) →
    s.service.instances.get id = some r ∨
      s.service.instances.get id = none ∧
        (∀ t', Pool.attr Await.claimed s.service.tasks t' ≠ some id) ∧
        ∀ t' r', Pool.attr Await.stopping s.service.tasks t' = some (id, r') → r' = r
  attended : ∀ t, Pool.attr Await.orphan s.service.tasks t = none

namespace Holding

variable {s : State} {service : Service} {ℓ : Label} {t : TaskId} {p q : Await}

/-- A turn inside the lock of the turns after a move was inside before, or has taken the lock
of an object that is raised or still to be released. -/
theorem inside_move (hG : s.HoldsApart (.step ℓ)) (ht : s.service.tasks[t]? = some p)
    (h : s.service.Move ℓ t p q service) {t' : TaskId} {id : InstanceId} {r : Ref}
    (hi : Pool.attr Await.inside service.tasks t' = some (id, r)) :
  Pool.attr Await.inside s.service.tasks t' = some (id, r) ∨
    service.instances = s.service.instances ∧ (s.service.instances.get id = some r ∨
      ∃ t'', Pool.attr Await.stopping s.service.tasks t'' = some (id, r))
  := by
  rcases h.inside with hq | hq | ⟨k, r', rfl, rfl, hq⟩
  · exact .inl (h.attr_old Await.stable_inside ht (.inl hq) hi)
  · exact .inl (h.attr_old Await.stable_inside ht (.inr hq) hi)
  · rw [h.attr Await.stable_inside ht, Function.update_apply] at hi
    split at hi
    · right
      rw [hq] at hi
      obtain ⟨rfl, rfl⟩ := Prod.mk.inj (Option.some.inj hi)
      have hsame : service.instances = s.service.instances := by
        cases h.entries with
        | same hi _ _ _ => apply hi
        | insert c hp _ _ _ => contradiction
        | pop k id r _ hp _ _ _ => contradiction
      simp only [HoldsApart, ht] at hG
      refine ⟨hsame, ?_⟩
      rcases hG with hg | ⟨p', hp', hst⟩
      · exact .inl hg
      · obtain ⟨t'', ht''⟩ := List.mem_iff_getElem?.mp hp'
        right
        use t''
        rw [Pool.attr_of_getElem? ht'', hst]
    · exact .inl hi

/-- After a move that keeps to the condition, a turn inside its lock is on the current
object. -/
theorem current_move (hs : s.Holding) (hI : s.service.Inv) (hE : s.service.Exclusive)
    (hG : s.HoldsApart (.step ℓ)) (ht : s.service.tasks[t]? = some p)
    (h : s.service.Move ℓ t p q service) {t' : TaskId} {id : InstanceId} {r : Ref}
    (hi : Pool.attr Await.inside service.tasks t' = some (id, r)) :
  service.instances.get id = some r ∨
    service.instances.get id = none ∧
      (∀ t', Pool.attr Await.claimed service.tasks t' ≠ some id) ∧
      ∀ t' r', Pool.attr Await.stopping service.tasks t' = some (id, r') → r' = r
  := by
  have hclaim : ∀ t', Pool.attr Await.claimed service.tasks t' = some id →
      Pool.attr Await.claimed s.service.tasks t' = some id :=
    fun t' => h.attr_old Await.stable_claimed ht (.inr h.claimed)
  -- Before the move the turn was on the current object, or takes the lock of such a one.
  have hbefore : s.service.instances.get id = some r ∨
      s.service.instances.get id = none ∧
        (∀ t', Pool.attr Await.claimed s.service.tasks t' ≠ some id) ∧
        ∀ t' r', Pool.attr Await.stopping s.service.tasks t' = some (id, r') → r' = r := by
    rcases inside_move hG ht h hi with hi | ⟨_, hg | ⟨t'', hst⟩⟩
    · apply hs.current t' id r hi
    · exact .inl hg
    · right
      refine ⟨hE.absent t'' id r hst, hE.unclaimed t'' id r hst, ?_⟩
      intro t₁ r' h₁
      obtain rfl := hE.unique t'' id r hst t₁ r' h₁
      rw [hst] at h₁
      apply (Prod.mk.inj (Option.some.inj h₁)).2.symm
  cases h.entries with
  | same hi' _ _ hstop =>
      rw [hi']
      rcases hbefore with hg | ⟨hg, hc, hst⟩
      · exact .inl hg
      · right
        refine ⟨hg, fun t' h' => hc t' (hclaim t' h'), ?_⟩
        intro t' r' h'
        apply hst t' r' (h.attr_old Await.stable_stopping ht hstop h')
  | insert c hp hq hi' _ =>
      have hpc := Pool.attr_of_getElem? (f := Await.claimed) ht
      have hne : id ≠ c.instanceId := by
        rintro rfl
        rcases hbefore with hg | ⟨_, hc, _⟩
        · have := hI.claiming t c.instanceId (by
            rw [Pool.attr_of_getElem? ht, Await.claiming_of_claimed hp])
          rw [this] at hg
          contradiction
        · apply hc t
          rw [hpc, hp]
      have hstop : q.stopping = none := by
        rw [hq]
        apply (Await.Bare.raised _ _).stopping
      rw [hi', Dict.get_set, if_neg hne]
      rcases hbefore with hg | ⟨hg, hc, hst⟩
      · exact .inl hg
      · right
        refine ⟨hg, fun t' h' => hc t' (hclaim t' h'), ?_⟩
        intro t' r' h'
        apply hst t' r' (h.attr_old Await.stable_stopping ht (.inr hstop) h')
  | pop k id' r₀ hr hp hq hi' _ =>
      subst hq
      have hstop := h.attr Await.stable_stopping ht
      rw [hi', Dict.get_erase]
      by_cases e : id = id'
      · subst e
        right
        rw [if_pos rfl]
        obtain rfl : r₀ = r := by
          rcases hbefore with hg | ⟨hg, _⟩
          · rw [hg] at hr
            apply (Option.some.inj hr).symm
          · rw [hg] at hr
            contradiction
        refine ⟨rfl, ?_, ?_⟩
        · intro t' h'
          obtain ⟨p', hp', hc'⟩ := Pool.exists_of_attr (hclaim t' h')
          have := hI.claiming t' id (by
            rw [Pool.attr_of_getElem? hp', Await.claiming_of_claimed hc'])
          rw [this] at hr
          contradiction
        · intro t' r' h'
          rw [hstop, Function.update_apply] at h'
          split at h'
          · apply (Prod.mk.inj (Option.some.inj h')).2.symm
          · have := hE.absent t' id r' h'
            rw [this] at hr
            contradiction
      · rw [if_neg e]
        rcases hbefore with hg | ⟨hg, hc, hst⟩
        · exact .inl hg
        · right
          refine ⟨hg, fun t' h' => hc t' (hclaim t' h'), ?_⟩
          intro t' r' h'
          rw [hstop, Function.update_apply] at h'
          split at h'
          · apply absurd (Prod.mk.inj (Option.some.inj h')).1.symm e
          · apply hst t' r' h'

/-- A move that keeps to the condition keeps the invariant. -/
theorem move (hs : s.Holding) (hI : s.service.Inv) (hE : s.service.Exclusive)
    (hG : s.HoldsApart (.step ℓ)) (ht : s.service.tasks[t]? = some p)
    (h : s.service.Move ℓ t p q service) :
  Holding ⟨s.db, service⟩
  := by
  have hR : service.runnerId = s.service.runnerId := h.config.2
  constructor
  · intro id r hr
    simp only [hR] at hr ⊢
    cases h.entries with
    | same hi _ _ _ =>
        rw [hi] at hr
        apply hs.entry id r hr
    | insert c hp _ hi _ =>
        rw [hi, Dict.get_set] at hr
        split at hr
        · rename_i e
          apply hs.claimed t
          rw [Pool.attr_of_getElem? ht, hp, e]
        · apply hs.entry id r hr
    | pop k id' r' hg _ _ hi _ =>
        rw [hi, Dict.get_erase] at hr
        split at hr
        · contradiction
        · apply hs.entry id r hr
  · intro t' id hc
    simp only [hR] at hc ⊢
    apply hs.claimed t' id (h.attr_old Await.stable_claimed ht (.inr h.claimed) hc)
  · intro t' id r hst
    simp only [hR] at hst ⊢
    cases h.entries with
    | same _ _ _ hstop =>
        apply hs.stopping t' id r (h.attr_old Await.stable_stopping ht hstop hst)
    | insert c _ hq _ _ =>
        subst hq
        apply hs.stopping t' id r
        apply h.attr_old Await.stable_stopping ht (.inr (Await.Bare.raised _ _).stopping) hst
    | pop k id' r' hg _ hq _ _ =>
        subst hq
        rw [h.attr Await.stable_stopping ht, Function.update_apply] at hst
        split at hst
        · obtain ⟨rfl, rfl⟩ := Prod.mk.inj (Option.some.inj hst)
          apply hs.entry _ _ hg
        · apply hs.stopping t' id r hst
  · intro t' id r hi
    simp only [hR] at hi ⊢
    rcases inside_move hG ht h hi with hi | ⟨_, hg | ⟨t'', hst⟩⟩
    · apply hs.inside t' id r hi
    · apply hs.entry id r hg
    · apply hs.stopping t'' id r hst
  · intro t' id r hi
    apply hs.current_move hI hE hG ht h hi
  · intro t'
    rw [h.attr Await.stable_orphan ht, Function.update_apply]
    split
    · rcases h.orphan ht with hq | ⟨rfl, hy⟩
      · apply hq
      · apply absurd hy hG
    · apply hs.attended

section

variable {db : Db} (hs : s.Holding) (ht : s.service.tasks[t]? = some p)
  (h : Reply s.db s.service.runnerId p db q)

include ht h

/-- A turn inside its lock after a statement was inside before. -/
theorem inside_reply {t' : TaskId} {id : InstanceId} {r : Ref}
    (hi : Pool.attr Await.inside (s.service.await t q).tasks t' = some (id, r)) :
  Pool.attr Await.inside s.service.tasks t' = some (id, r)
  := Service.attr_await_old ht (.inl h.keeps.2.2.1) hi

include hs

/-- No turn is orphaned by a statement. -/
theorem attended_reply (t' : TaskId) :
  Pool.attr Await.orphan (s.service.await t q).tasks t' = none
  := by
  have hq : q.orphan = p.orphan := by cases h <;> rfl
  rw [Service.await, Pool.attr_set_of_eq ht hq]
  apply hs.attended

/-- A turn stays on its object if a statement claims nothing and stops nothing. -/
theorem current_reply
    (hclaim : ∀ {t' id}, Pool.attr Await.claimed (s.service.await t q).tasks t' = some id →
      Pool.attr Await.claimed s.service.tasks t' = some id)
    (hstop : ∀ {t' id r}, Pool.attr Await.stopping (s.service.await t q).tasks t' = some (id, r) →
      Pool.attr Await.stopping s.service.tasks t' = some (id, r))
    (t' : TaskId) (id : InstanceId) (r : Ref)
    (hi : Pool.attr Await.inside (s.service.await t q).tasks t' = some (id, r)) :
  s.service.instances.get id = some r ∨
    s.service.instances.get id = none ∧
      (∀ t'', Pool.attr Await.claimed (s.service.await t q).tasks t'' ≠ some id) ∧
      ∀ t'' r', Pool.attr Await.stopping (s.service.await t q).tasks t'' = some (id, r') → r' = r
  := by
  rcases hs.current t' id r (inside_reply ht h hi) with hg | ⟨hg, hcl, hs'⟩
  · exact .inl hg
  · exact .inr ⟨hg, fun t'' h'' => hcl t'' (hclaim h''),
      fun t'' r'' h'' => hs' t'' r'' (hstop h'')⟩

/-- A statement about no row of an instance keeps the invariant. -/
theorem same_reply (hd : db.holder = s.db.holder) (hc : q.claimed = p.claimed)
    (hst : q.stopping = p.stopping) :
  Holding ⟨db, s.service.await t q⟩
  := by
  have hclaim : ∀ {t' id}, Pool.attr Await.claimed (s.service.await t q).tasks t' = some id →
      Pool.attr Await.claimed s.service.tasks t' = some id :=
    Service.attr_await_old ht (.inl hc)
  have hstop : ∀ {t' id r},
      Pool.attr Await.stopping (s.service.await t q).tasks t' = some (id, r) →
      Pool.attr Await.stopping s.service.tasks t' = some (id, r) :=
    Service.attr_await_old ht (.inl hst)
  constructor
  · rw [hd]
    apply hs.entry
  · rw [hd]
    exact fun t' id h' => hs.claimed t' id (hclaim h')
  · rw [hd]
    exact fun t' id r h' => hs.stopping t' id r (hstop h')
  · rw [hd]
    exact fun t' id r h' => hs.inside t' id r (inside_reply ht h h')
  · apply hs.current_reply ht h hclaim hstop
  · apply hs.attended_reply ht h

/-- A claim that keeps to the condition keeps the invariant. -/
theorem claim_reply (hG : s.HoldsApart (.stmt t)) (c : Caller) (hp : p = .claim c .update)
    (hq : q = .claim c (.replied ⟨.claimed, none⟩))
    (hd : db.holder = Function.update s.db.holder c.instanceId (some s.service.runnerId)) :
  Holding ⟨db, s.service.await t q⟩
  := by
  have hst : q.stopping = p.stopping := by rw [hp, hq]; rfl
  have hstop : ∀ {t' id r},
      Pool.attr Await.stopping (s.service.await t q).tasks t' = some (id, r) →
      Pool.attr Await.stopping s.service.tasks t' = some (id, r) :=
    Service.attr_await_old ht (.inl hst)
  -- Whoever holds its row before the claim holds it after.
  have hkeep : ∀ {id}, s.db.holder id = some s.service.runnerId →
      db.holder id = some s.service.runnerId := by
    intro id hid
    rw [hd, Function.update_apply]
    split
    · rfl
    · apply hid
  have hclaim : ∀ {t' id}, Pool.attr Await.claimed (s.service.await t q).tasks t' = some id →
      id = c.instanceId ∨ Pool.attr Await.claimed s.service.tasks t' = some id := by
    intro t' id h'
    rw [Service.await, Pool.attr_set ht, Function.update_apply] at h'
    split at h'
    · rw [hq] at h'
      exact .inl (Option.some.inj h').symm
    · exact .inr h'
  constructor
  · exact fun id r h' => hkeep (hs.entry id r h')
  · intro t' id h'
    rcases hclaim h' with rfl | h'
    · rw [hd, Function.update_self]
      rfl
    · apply hkeep (hs.claimed t' id h')
  · exact fun t' id r h' => hkeep (hs.stopping t' id r (hstop h'))
  · exact fun t' id r h' => hkeep (hs.inside t' id r (inside_reply ht h h'))
  · intro t' id r h'
    have h' := inside_reply ht h h'
    rcases hs.current t' id r h' with hg | ⟨hg, hcl, hs'⟩
    · exact .inl hg
    · right
      refine ⟨hg, ?_, fun t'' r'' h'' => hs' t'' r'' (hstop h'')⟩
      intro t'' h''
      rcases hclaim h'' with rfl | h''
      · obtain ⟨p', hp', hi⟩ := Pool.exists_of_attr h'
        simp only [HoldsApart, ClaimsOutside, ht, hp] at hG
        apply hG.2 p' (List.mem_of_getElem? hp')
        rw [hi]
        rfl
      · apply hcl t'' h''
  · apply hs.attended_reply ht h

/-- A release keeps the invariant, since nobody else has the instance. -/
theorem release_reply (hI : s.service.Inv) (hE : s.service.Exclusive) (k : Stopper)
    (id₀ : InstanceId) (r₀ : Ref) (hp : p = .release k id₀ r₀ false)
    (hq : q = .release k id₀ r₀ true)
    (hd : db.holder = if s.db.holder id₀ = some s.service.runnerId then
      Function.update s.db.holder id₀ none else s.db.holder) :
  Holding ⟨db, s.service.await t q⟩
  := by
  have hpst : Pool.attr Await.stopping s.service.tasks t = some (id₀, r₀) := by
    rw [Pool.attr_of_getElem? ht, hp]
    rfl
  have hpin : Pool.attr Await.inside s.service.tasks t = none := by
    rw [Pool.attr_of_getElem? ht, hp]
    rfl
  have hpho : Pool.attr Await.holds s.service.tasks t = some r₀ := by
    rw [Pool.attr_of_getElem? ht, hp]
    rfl
  have hqst : q.stopping = none := by rw [hq]; rfl
  have hqc : q.claimed = p.claimed := by rw [hp, hq]; rfl
  have hclaim : ∀ {t' id}, Pool.attr Await.claimed (s.service.await t q).tasks t' = some id →
      Pool.attr Await.claimed s.service.tasks t' = some id :=
    Service.attr_await_old ht (.inl hqc)
  have hstop : ∀ {t' id r},
      Pool.attr Await.stopping (s.service.await t q).tasks t' = some (id, r) →
      Pool.attr Await.stopping s.service.tasks t' = some (id, r) :=
    Service.attr_await_old ht (.inr hqst)
  -- The row of any other instance stays.
  have hkeep : ∀ {id}, id ≠ id₀ → s.db.holder id = some s.service.runnerId →
      db.holder id = some s.service.runnerId := by
    intro id hne hid
    rw [hd]
    split
    · rw [Function.update_of_ne hne, hid]
    · apply hid
  constructor
  · intro id r h'
    apply hkeep _ (hs.entry id r h')
    rintro rfl
    have hg : s.service.instances.get id = some r := h'
    rw [hE.absent t id r₀ hpst] at hg
    contradiction
  · intro t' id h'
    have h' := hclaim h'
    apply hkeep _ (hs.claimed t' id h')
    rintro rfl
    apply hE.unclaimed t id r₀ hpst t' h'
  · intro t' id r h'
    apply hkeep _ (hs.stopping t' id r (hstop h'))
    rintro rfl
    obtain rfl := hE.unique t id r₀ hpst t' r (hstop h')
    rw [Service.await, Pool.attr_set ht, Function.update_self, hqst] at h'
    contradiction
  · intro t' id r h'
    have hi' := inside_reply ht h h'
    apply hkeep _ (hs.inside t' id r hi')
    rintro rfl
    -- The turn would be inside the lock that the stop holds.
    rcases hs.current t' id r hi' with hg | ⟨_, _, hs'⟩
    · rw [hE.absent t id r₀ hpst] at hg
      contradiction
    · obtain rfl := hs' t r₀ hpst
      have hho : Pool.attr Await.holds s.service.tasks t' = some r₀ := by
        obtain ⟨p', hp', hi⟩ := Pool.exists_of_attr hi'
        rw [Pool.attr_of_getElem? hp', Await.holds_of_inside hi]
      obtain rfl := (hI.turnLock r₀).unique hho hpho
      rw [hpin] at hi'
      contradiction
  · apply hs.current_reply ht h hclaim hstop
  · apply hs.attended_reply ht h

end

/-- A statement that keeps to the condition keeps the invariant. -/
theorem reply {db : Db} (hs : s.Holding) (hI : s.service.Inv) (hE : s.service.Exclusive)
    (hG : s.HoldsApart (.stmt t)) (ht : s.service.tasks[t]? = some p)
    (h : Reply s.db s.service.runnerId p db q) :
  Holding ⟨db, s.service.await t q⟩
  := by
  cases h.row with
  | same hd hc hst => apply hs.same_reply ht h hd hc hst
  | claim c hp hq _ hd => apply hs.claim_reply ht h hG c hp hq hd
  | release k id r hp hq hd => apply hs.release_reply ht h hI hE k id r hp hq hd

end Holding

end State

section

variable {R : RunnerId} {slots : ℕ} {P : Db → Prop} {s : State}

/-- In a run that keeps to the condition, pending releases exclude the rest, and the
invariant holds. -/
theorem holding_of_reach (h : (system R slots P).Reach State.HoldsApart s) :
  s.service.Exclusive ∧ s.Holding
  := by
  apply h.invariant_of (fun s => inv_of_reach) (I := fun s => s.service.Exclusive ∧ s.Holding)
  · rintro ⟨db, service⟩ ⟨_, idleTimeout, clock, rfl⟩
    refine ⟨Service.Exclusive.start _ _ _ _, ?_⟩
    constructor
    · intro id r h
      contradiction
    · intro t id h
      contradiction
    · intro t id r h
      contradiction
    · intro t id r h
      contradiction
    · intro t id r h
      contradiction
    · intro t
      rfl
  · intro s a s' hI ⟨hE, hs⟩ hG ha
    cases State.act_cases ha with
    | step h =>
        refine ⟨hE.steps hI h, ?_⟩
        cases h with
        | call c _ =>
            have ha : ∀ {α : Type} {f : Await → Option α}, Await.Stable f →
                Pool.attr f (s.service.spawn (.called c)).tasks = Pool.attr f s.service.tasks :=
              fun hf => Pool.attr_append (hf.called c)
            constructor
            · apply hs.entry
            · rw [ha Await.stable_claimed]
              apply hs.claimed
            · rw [ha Await.stable_stopping]
              apply hs.stopping
            · rw [ha Await.stable_inside]
              apply hs.inside
            · rw [ha Await.stable_inside, ha Await.stable_claimed, ha Await.stable_stopping]
              apply hs.current
            · rw [ha Await.stable_orphan]
              apply hs.attended
        | tick n _ =>
            exact ⟨hs.entry, hs.claimed, hs.stopping, hs.inside, hs.current, hs.attended⟩
        | move ht h => apply hs.move hI hE hG ht h
    | stmt ht h => exact ⟨hE.reply hG.1 ht h, hs.reply hI hE hG ht h⟩

end

end Runner
