import GitAgent.Runner.Locks

/-!
# The row of an instance

What a statement of a runner does to the holder of an instance (`Reply.row`), and the three
ways in which a service stands for an instance: the instance is raised, a task has claimed
it, or a task has still to release it. As long as no claim is executed while a stop of the
instance has still to release it, a pending release excludes the other two
(`Service.Exclusive`).
-/

namespace Runner

open Hub (InstanceId EventId RunnerId Db)

variable {db db' : Db} {R : RunnerId} {p q : Await}

/-- What a statement does to the holders of the instances: nothing, unless it claims an
instance or releases one. -/
inductive Row (db : Db) (R : RunnerId) (p : Await) (db' : Db) (q : Await) : Prop
  | same (hd : db'.holder = db.holder) (hc : q.claimed = p.claimed)
      (hs : q.stopping = p.stopping)
  | claim (c : Caller) (hp : p = .claim c .update)
      (hq : q = .claim c (.replied ⟨.claimed, none⟩))
      (hh : db.holder c.instanceId = none ∨ db.holder c.instanceId = some R)
      (hd : db'.holder = Function.update db.holder c.instanceId (some R))
  | release (k : Stopper) (id : InstanceId) (r : Ref) (hp : p = .release k id r false)
      (hq : q = .release k id r true)
      (hd : db'.holder =
        if db.holder id = some R then Function.update db.holder id none else db.holder)

/-- A holder that is looked up is not claimed. -/
theorem isClaimed_claimHolder (db : Db) (id : InstanceId) :
  (Store.claimHolder db id).isClaimed = false
  := by
  rw [Store.claimHolder]
  split <;> rfl

/-- The journal has no part in who holds an instance. -/
theorem holder_beginEvent {e : Event} {fresh : Bool}
    (h : Store.beginEvent db e = some (db', fresh)) :
  db'.holder = db.holder
  := by
  obtain ⟨⟨journal, rfl⟩, -⟩ := Store.beginEvent_frame h
  rfl

/-- What a statement does to the holders of the instances. -/
theorem Reply.row (h : Reply db R p db' q) :
  Row db R p db' q
  := by
  cases h with
  | claimed h =>
      obtain ⟨rfl, hr, hh⟩ := Store.claimInstance_hit h
      exact .claim _ rfl rfl hh (Db.holder_runInstance hr)
  | select =>
      refine Row.same rfl ?_ rfl
      rw [Await.claimed, isClaimed_claimHolder]
      rfl
  | skipBegin h => exact .same (holder_beginEvent h) rfl rfl
  | begin h => exact .same (holder_beginEvent h) rfl rfl
  | @release k id r =>
      apply Row.release k id r rfl rfl
      rw [Store.releaseInstance_eq]
      split
      · apply Db.holder_downInstance
      · rfl
  | _ => exact .same rfl rfl rfl

/-- A statement takes the row of an instance from no other runner. -/
theorem Reply.holder_keep (h : Reply db R p db' q) {R' : RunnerId} {id : InstanceId} (hR : R' ≠ R)
    (hh : db.holder id = some R') :
  db'.holder id = some R'
  := by
  cases h.row with
  | same hd _ _ => rw [hd, hh]
  | claim c _ _ hc hd =>
      rw [hd, Function.update_of_ne, hh]
      rintro rfl
      rw [hh] at hc
      rcases hc with hc | hc
      · contradiction
      · apply hR (Option.some.inj hc)
  | release k id' r _ _ hd =>
      rw [hd]
      split
      · rename_i hc
        rw [Function.update_of_ne, hh]
        rintro rfl
        rw [hh] at hc
        apply hR (Option.some.inj hc)
      · apply hh

namespace Service

variable {s s' : Service} {ℓ : Label} {t : TaskId}

/-- A pending release of an instance excludes that the instance is raised, that a task has
claimed it, and that another task has still to release it. -/
structure Exclusive (s : Service) : Prop where
  absent : ∀ t id r, Pool.attr Await.stopping s.tasks t = some (id, r) →
    s.instances.get id = none
  unclaimed : ∀ t id r, Pool.attr Await.stopping s.tasks t = some (id, r) →
    ∀ t', Pool.attr Await.claimed s.tasks t' ≠ some id
  unique : ∀ t id r, Pool.attr Await.stopping s.tasks t = some (id, r) →
    ∀ t' r', Pool.attr Await.stopping s.tasks t' = some (id, r') → t' = t

/-- The statement of `t` claims no instance that a task has still to release. -/
def ClaimsApart (s : Service) (t : TaskId) : Prop :=
  match s.tasks[t]? with
  | some (.claim c .update) =>
      ∀ p ∈ s.tasks, p.stopping.map Prod.fst ≠ some c.instanceId
  | _ => True

instance (s : Service) (t : TaskId) : Decidable (s.ClaimsApart t) := by
  delta ClaimsApart
  generalize s.tasks[t]? = o
  rcases o with _ | p
  · exact instDecidableTrue
  · rcases p
    case claim c q => rcases q <;> dsimp only <;> infer_instance
    all_goals exact instDecidableTrue

/-- No move claims an instance. -/
theorem Move.claimed (h : Move s ℓ t p q s') :
  q.claimed = none
  := by
  cases h with
  | present hp hc hr => apply (Await.Bare.raised _ _).claimed
  | found hl hr => apply (Await.Bare.raised _ _).claimed
  | insert hc => apply (Await.Bare.raised _ _).claimed
  | refuse hc => apply (Await.Bare.refused _ _).claimed
  | released => apply (Await.Bare.next _).claimed
  | unwind hℓ hq => rcases hq with ⟨_, rfl⟩ | ⟨_, _, _, _, rfl⟩ <;> rfl
  | quiet h =>
      cases h with
      | handOff e claim _ => apply (Await.Bare.handOff _ _).claimed
      | _ => rfl
  | _ => rfl

namespace Exclusive

theorem start (R : RunnerId) (slots idleTimeout clock : ℕ) :
  (Service.start R slots idleTimeout clock).Exclusive
  := by
  constructor
  · intro t id r h
    contradiction
  · intro t id r h
    contradiction
  · intro t id r h
    contradiction

/-- Where the pending releases and the claims are old ones and no such instance is newly
raised, releases still exclude the rest. -/
theorem of_old (hs : s.Exclusive)
    (hstop : ∀ t id r, Pool.attr Await.stopping s'.tasks t = some (id, r) →
      Pool.attr Await.stopping s.tasks t = some (id, r))
    (hclaim : ∀ t id, Pool.attr Await.claimed s'.tasks t = some id →
      Pool.attr Await.claimed s.tasks t = some id)
    (hget : ∀ t id r, Pool.attr Await.stopping s.tasks t = some (id, r) →
      s'.instances.get id = none) :
  s'.Exclusive
  := by
  constructor
  · intro t id r h
    apply hget t id r (hstop t id r h)
  · intro t id r h t' h'
    apply hs.unclaimed t id r (hstop t id r h) t' (hclaim t' id h')
  · intro t id r h t' r' h'
    apply hs.unique t id r (hstop t id r h) t' r' (hstop t' id r' h')

/-- A move keeps the exclusion. -/
theorem move (hs : s.Exclusive) (hI : s.Inv) (ht : s.tasks[t]? = some p)
    (h : Move s ℓ t p q s') :
  s'.Exclusive
  := by
  have hclaim : ∀ t' id, Pool.attr Await.claimed s'.tasks t' = some id →
      Pool.attr Await.claimed s.tasks t' = some id :=
    fun t' id => h.attr_old Await.stable_claimed ht (.inr h.claimed)
  cases h.entries with
  | same hi hn hr hstop =>
      apply hs.of_old (fun t' id r => h.attr_old Await.stable_stopping ht hstop) hclaim
      rw [hi]
      apply hs.absent
  | insert c hp hq hi hn =>
      have hstop : q.stopping = none := by
        rw [hq]
        apply (Await.Bare.raised _ _).stopping
      apply hs.of_old (fun t' id r => h.attr_old Await.stable_stopping ht (.inr hstop)) hclaim
      intro t' id r h'
      rw [hi, Dict.get_set, if_neg, hs.absent t' id r h']
      rintro rfl
      apply hs.unclaimed t' _ r h' t
      rw [Pool.attr_of_getElem? ht, hp]
  | pop k id r hr hp hq hi hn =>
      subst hq
      have hc := h.attr Await.stable_stopping ht
      -- The instance was raised, so no release of it was pending and no task had claimed it.
      have hold : ∀ t' id' r', Pool.attr Await.stopping s'.tasks t' = some (id', r') →
          t' = t ∧ id' = id ∨
            t' ≠ t ∧ id' ≠ id ∧ Pool.attr Await.stopping s.tasks t' = some (id', r') := by
        intro t' id' r' h'
        rw [hc, Function.update_apply] at h'
        split at h'
        · rename_i e
          exact .inl ⟨e, (congrArg Prod.fst (Option.some.inj h')).symm⟩
        · rename_i e
          right
          refine ⟨e, ?_, h'⟩
          rintro rfl
          have := hs.absent t' _ r' h'
          rw [this] at hr
          contradiction
      have hget : s'.instances.get id = none := by
        rw [hi, Dict.get_erase, if_pos rfl]
      constructor
      · intro t' id' r' h'
        rcases hold t' id' r' h' with ⟨rfl, rfl⟩ | ⟨_, hne, h'⟩
        · apply hget
        · rw [hi, Dict.get_erase, if_neg hne]
          apply hs.absent t' id' r' h'
      · intro t' id' r' h' t'' hc''
        have hc'' := hclaim t'' id' hc''
        rcases hold t' id' r' h' with ⟨rfl, rfl⟩ | ⟨_, hne, h'⟩
        · obtain ⟨p', hp', hcl⟩ := Pool.exists_of_attr hc''
          have := hI.claiming t'' id' (by
            rw [Pool.attr_of_getElem? hp', Await.claiming_of_claimed hcl])
          rw [this] at hr
          contradiction
        · apply hs.unclaimed t' id' r' h' t'' hc''
      · intro t' id' r' h' t'' r'' h''
        rcases hold t' id' r' h' with ⟨rfl, rfl⟩ | ⟨_, hne, h'⟩
        · rcases hold t'' id' r'' h'' with ⟨rfl, _⟩ | ⟨_, hne, _⟩
          · rfl
          · contradiction
        · rcases hold t'' id' r'' h'' with ⟨_, e⟩ | ⟨_, _, h''⟩
          · contradiction
          · apply hs.unique t' id' r' h' t'' r'' h''

/-- A new task keeps the exclusion. -/
theorem call (hs : s.Exclusive) (c : Call) :
  (s.spawn (.called c)).Exclusive
  := by
  have hstop := Pool.attr_append (l := s.tasks) (Await.stable_stopping.called c)
  have hclaim := Pool.attr_append (l := s.tasks) (Await.stable_claimed.called c)
  apply hs.of_old
  · intro t id r h
    rw [Service.spawn, hstop] at h
    apply h
  · intro t id h
    rw [Service.spawn, hclaim] at h
    apply h
  · apply hs.absent

/-- A step keeps the exclusion. -/
theorem steps (hs : s.Exclusive) (hI : s.Inv) (h : s.Steps ℓ s') :
  s'.Exclusive
  := by
  cases h with
  | call c _ => apply hs.call
  | tick n _ => exact ⟨hs.absent, hs.unclaimed, hs.unique⟩
  | move ht h => apply hs.move hI ht h

/-- A statement that claims no instance with a pending release keeps the exclusion. -/
theorem reply (hs : s.Exclusive) (hG : s.ClaimsApart t) (ht : s.tasks[t]? = some p)
    (h : Reply db R p db' q) :
  (s.await t q).Exclusive
  := by
  cases h.row with
  | same hd hc hstop =>
      apply hs.of_old (fun _ _ _ => attr_await_old ht (.inl hstop))
        (fun _ _ => attr_await_old ht (.inl hc)) hs.absent
  | release k id r hp hq hd =>
      have hstop : q.stopping = none := by rw [hq]; rfl
      have hc : q.claimed = p.claimed := by rw [hp, hq]; rfl
      apply hs.of_old (fun _ _ _ => attr_await_old ht (.inr hstop))
        (fun _ _ => attr_await_old ht (.inl hc)) hs.absent
  | claim c hp hq hh hd =>
      have hst : q.stopping = p.stopping := by rw [hp, hq]; rfl
      have hstop : ∀ t' id r, Pool.attr Await.stopping (s.await t q).tasks t' = some (id, r) →
          Pool.attr Await.stopping s.tasks t' = some (id, r) :=
        fun _ _ _ => attr_await_old ht (.inl hst)
      constructor
      · intro t' id r h'
        apply hs.absent t' id r (hstop t' id r h')
      · intro t' id r h' t'' hc'
        have h' := hstop t' id r h'
        rw [Service.await, Pool.attr_set ht, Function.update_apply] at hc'
        split at hc'
        · rw [hq] at hc'
          obtain rfl : c.instanceId = id := Option.some.inj hc'
          obtain ⟨p', hp', hst'⟩ := Pool.exists_of_attr h'
          rw [ClaimsApart, ht, hp] at hG
          apply hG p' (List.mem_of_getElem? hp')
          rw [hst']
          rfl
        · apply hs.unclaimed t' id r h' t'' hc'
      · intro t' id r h' t'' r' h''
        apply hs.unique t' id r (hstop t' id r h') t'' r' (hstop t'' id r' h'')

end Exclusive

end Service

end Runner
