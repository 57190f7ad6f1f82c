import GitAgent.Runner.Locks

/-!
# The turns of an instance

The turns of an instance exclude one another by the lock inside its `LocalInstance`. A call
that still uses the object of an earlier raise once the instance has a new object may run
beside the turns of the new one, and a chat that is cancelled at a `yield` leaves its
execution behind after the lock is given up. Otherwise at most one turn of an instance is
executing.
-/

namespace Runner

open Hub (InstanceId EventId RunnerId Db)

/-- The instance of a chat that was left behind while it was executing. -/
def Await.orphan : Await → Option InstanceId
  | abandoned id => some id
  | _ => none

theorem Await.stable_orphan : Stable orphan :=
  ⟨fun _ => rfl, fun _ => rfl, cancelExec_eq fun _ _ _ => rfl⟩

namespace Service

variable {s s' : Service} {ℓ : Label} {t : TaskId} {p q : Await}

/-- What a move does to the turns inside their lock: the task goes on inside or outside, or
takes the lock. -/
theorem Move.inside (h : Move s ℓ t p q s') :
  q.inside = p.inside ∨ q.inside = none ∨
    ∃ k r, ℓ = .run t ∧ p = .turnLock k r ∧ q.inside = some (k.instanceId, r)
  := by
  cases h with
  | present hp hc hr => exact .inr (.inl (Await.Bare.raised _ _).inside)
  | found hl hr => exact .inr (.inl (Await.Bare.raised _ _).inside)
  | insert hc => exact .inr (.inl (Await.Bare.raised _ _).inside)
  | refuse hc => exact .inr (.inl (Await.Bare.refused _ _).inside)
  | released => exact .inr (.inl (Await.Bare.next _).inside)
  | enter hl => exact .inr (.inr ⟨_, _, rfl, rfl, rfl⟩)
  | start => exact .inl rfl
  | ends hb => exact .inl rfl
  | marking => exact .inl rfl
  | unwind hℓ hq =>
      right
      left
      rcases hq with ⟨_, rfl⟩ | ⟨_, _, _, _, rfl⟩ <;> rfl
  | quiet h => exact .inl h.keeps.inside
  | _ => exact .inr (.inl rfl)

/-- The task `t` is a turn that has handed a chunk to its consumer. -/
def AtYield (s : Service) (t : TaskId) : Prop :=
  match s.tasks[t]? with
  | some (.turn _ _ .yielded) => True
  | _ => False

instance (s : Service) (t : TaskId) : Decidable (s.AtYield t) := by
  delta AtYield
  generalize s.tasks[t]? = o
  rcases o with _ | p
  · exact instDecidableFalse
  · rcases p
    case turn k r x => rcases x <;> dsimp only <;> infer_instance
    all_goals exact instDecidableFalse

/-- A chat is left behind only when it is cancelled at a `yield`. -/
theorem Move.orphan (ht : s.tasks[t]? = some p) (h : Move s ℓ t p q s') :
  q.orphan = none ∨ ℓ = .cancel t ∧ s.AtYield t
  := by
  have hq : ∀ {q : Await}, q.executing = none → q.orphan = none := by
    intro q hq
    cases q <;> first | rfl | contradiction
  cases h with
  | present hp hc hr => exact .inl (hq (Await.Bare.raised _ _).executing)
  | found hl hr => exact .inl (hq (Await.Bare.raised _ _).executing)
  | insert hc => exact .inl (hq (Await.Bare.raised _ _).executing)
  | refuse hc => exact .inl (hq (Await.Bare.refused _ _).executing)
  | released => exact .inl (hq (Await.Bare.next _).executing)
  | unwind hℓ hu =>
      rcases hu with ⟨_, rfl⟩ | ⟨k, r, hc, hp, _⟩
      · exact .inl rfl
      · right
        refine ⟨hc, ?_⟩
        simp only [AtYield, ht, hp]
  | quiet h =>
      left
      cases h with
      | handOff e claim _ => apply hq (Await.Bare.handOff _ _).executing
      | _ => rfl
  | _ => exact .inl rfl

end Service

/-- An executing turn is inside the lock of the turns, or was left behind by its chat. -/
theorem Await.inside_of_executing {p : Await} {id : InstanceId} (h : p.executing = some id) :
  (∃ r, p.inside = some (id, r)) ∨ p.orphan = some id
  := by
  cases p with
  | turn k r x =>
      left
      use r
      cases x with
      | ended how => contradiction
      | _ =>
          obtain rfl : k.instanceId = id := Option.some.inj h
          rfl
  | abandoned id' =>
      exact .inr h
  | _ => contradiction

namespace Service

variable {s s' : Service} {ℓ : Label} {t : TaskId} {p q : Await}

/-- The step enters no instance among the raised ones while a call uses an earlier object of
it, and cancels no chat at a `yield`. -/
def TurnsApart (s : Service) : Label → Prop
  | .run t =>
      match s.tasks[t]? with
      | some (.claim c (.replied claim)) =>
          claim.isClaimed → ∀ p ∈ s.tasks, p.uses.map Prod.fst ≠ some c.instanceId
      | _ => True
  | .cancel t => ¬ s.AtYield t
  | _ => True

instance (s : Service) (ℓ : Label) : Decidable (s.TurnsApart ℓ) := by
  delta TurnsApart
  rcases ℓ
  case run t =>
    dsimp only
    generalize s.tasks[t]? = o
    rcases o with _ | p
    · exact instDecidableTrue
    · rcases p
      case claim c q => rcases q <;> dsimp only <;> infer_instance
      all_goals exact instDecidableTrue
  all_goals
    dsimp only
    infer_instance

/-- All calls that use an object of an instance use the same one, which is the one that is
raised if the instance is. -/
structure OneObject (s : Service) : Prop where
  unique : ∀ t t' id r r', Pool.attr Await.uses s.tasks t = some (id, r) →
    Pool.attr Await.uses s.tasks t' = some (id, r') → r = r'
  current : ∀ t id r r', Pool.attr Await.uses s.tasks t = some (id, r) →
    s.instances.get id = some r' → r = r'
  attended : ∀ t, Pool.attr Await.orphan s.tasks t = none

/-- A claim that is entered among the raised instances was of an instance whose objects
nobody uses. -/
theorem not_uses_of_insert (hG : s.TurnsApart (.run t)) (ht : s.tasks[t]? = some p) {c : Caller}
    (hp : p.claimed = some c.instanceId) {t' : TaskId} {r : Ref} :
  Pool.attr Await.uses s.tasks t' ≠ some (c.instanceId, r)
  := by
  intro h
  obtain ⟨p', hp', hu⟩ := Pool.exists_of_attr h
  cases p with
  | claim c' x =>
      cases x with
      | replied claim =>
          rw [Await.claimed] at hp
          split at hp
          · rename_i hc
            have hid : c'.instanceId = c.instanceId := Option.some.inj hp
            simp only [TurnsApart, ht] at hG
            apply hG hc p' (List.mem_of_getElem? hp')
            rw [hu, hid]
            rfl
          · contradiction
      | _ => contradiction
  | _ => contradiction

/-- A move by which no call outlives the object that it uses keeps the calls of an instance
on one object. -/
theorem OneObject.move (hs : s.OneObject) (hG : s.TurnsApart ℓ) (ht : s.tasks[t]? = some p)
    (h : Move s ℓ t p q s') :
  s'.OneObject
  := by
  have hu := h.attr Await.stable_uses ht
  have horphan : ∀ t', Pool.attr Await.orphan s'.tasks t' = none := by
    intro t'
    rw [h.attr Await.stable_orphan ht, Function.update_apply]
    split
    · rcases h.orphan ht with hq | ⟨rfl, hy⟩
      · apply hq
      · apply absurd hy hG
    · apply hs.attended
  cases h.entries with
  | same hi _ hr _ =>
      -- What a call uses after the move it used before, or is the raised object.
      have hold : ∀ t' id r, Pool.attr Await.uses s'.tasks t' = some (id, r) →
          Pool.attr Await.uses s.tasks t' = some (id, r) ∨ s.instances.get id = some r := by
        intro t' id r h'
        rcases hr with ⟨_, hq⟩ | ⟨_, hq⟩ | ⟨id', r', hq, hg⟩
        · exact .inl (h.attr_old Await.stable_uses ht (.inr hq) h')
        · exact .inl (h.attr_old Await.stable_uses ht (.inl hq) h')
        · rw [hu, Function.update_apply] at h'
          split at h'
          · rw [hq] at h'
            obtain ⟨rfl, rfl⟩ := Prod.mk.inj (Option.some.inj h')
            exact .inr hg
          · exact .inl h'
      constructor
      · intro t₁ t₂ id r₁ r₂ h₁ h₂
        rcases hold t₁ id r₁ h₁ with h₁ | h₁ <;> rcases hold t₂ id r₂ h₂ with h₂ | h₂
        · apply hs.unique t₁ t₂ id r₁ r₂ h₁ h₂
        · apply hs.current t₁ id r₁ r₂ h₁ h₂
        · symm
          apply hs.current t₂ id r₂ r₁ h₂ h₁
        · rw [h₁] at h₂
          apply Option.some.inj h₂
      · intro t₁ id r₁ r₂ h₁ h₂
        rw [hi] at h₂
        rcases hold t₁ id r₁ h₁ with h₁ | h₁
        · apply hs.current t₁ id r₁ r₂ h₁ h₂
        · rw [h₁] at h₂
          apply Option.some.inj h₂
      · apply horphan
  | insert c hp hq hi _ hℓ =>
      subst hℓ hq
      have hfresh : ∀ t' r, Pool.attr Await.uses s.tasks t' ≠ some (c.instanceId, r) :=
        fun _ _ => not_uses_of_insert hG ht hp
      -- A call that uses an object of the instance is the one that has just entered it.
      have hold : ∀ t' id r, Pool.attr Await.uses s'.tasks t' = some (id, r) →
          id = c.instanceId ∧ r = s.nextRef ∨
            id ≠ c.instanceId ∧ Pool.attr Await.uses s.tasks t' = some (id, r) := by
        intro t' id r h'
        rw [hu, Function.update_apply] at h'
        split at h'
        · rcases Await.uses_raised c s.nextRef with ⟨_, hn⟩ | hn
          · rw [hn] at h'
            contradiction
          · rw [hn] at h'
            obtain ⟨rfl, rfl⟩ := Prod.mk.inj (Option.some.inj h')
            exact .inl ⟨rfl, rfl⟩
        · right
          refine ⟨?_, h'⟩
          rintro rfl
          apply hfresh _ _ h'
      constructor
      · intro t₁ t₂ id r₁ r₂ h₁ h₂
        rcases hold t₁ id r₁ h₁ with ⟨e, rfl⟩ | ⟨hne, h₁⟩
        · rcases hold t₂ id r₂ h₂ with ⟨_, rfl⟩ | ⟨hne, _⟩
          · rfl
          · contradiction
        · rcases hold t₂ id r₂ h₂ with ⟨e, _⟩ | ⟨_, h₂⟩
          · contradiction
          · apply hs.unique t₁ t₂ id r₁ r₂ h₁ h₂
      · intro t₁ id r₁ r₂ h₁ h₂
        rw [hi, Dict.get_set] at h₂
        rcases hold t₁ id r₁ h₁ with ⟨rfl, rfl⟩ | ⟨hne, h₁⟩
        · rw [if_pos rfl] at h₂
          apply Option.some.inj h₂
        · rw [if_neg hne] at h₂
          apply hs.current t₁ id r₁ r₂ h₁ h₂
      · apply horphan
  | pop k id r hr _ hq hi _ =>
      subst hq
      have hold : ∀ {t' id r}, Pool.attr Await.uses s'.tasks t' = some (id, r) →
          Pool.attr Await.uses s.tasks t' = some (id, r) :=
        h.attr_old Await.stable_uses ht (.inr rfl)
      constructor
      · exact fun t₁ t₂ id r₁ r₂ h₁ h₂ => hs.unique t₁ t₂ id r₁ r₂ (hold h₁) (hold h₂)
      · intro t₁ id₁ r₁ r₂ h₁ h₂
        rw [hi, Dict.get_erase] at h₂
        split at h₂
        · contradiction
        · apply hs.current t₁ id₁ r₁ r₂ (hold h₁) h₂
      · apply horphan

end Service

namespace State

/-- At most one turn of each instance is executing. -/
def OneTurn (s : State) : Prop :=
  ∀ id t t', Pool.attr Await.executing s.service.tasks t = some id →
    Pool.attr Await.executing s.service.tasks t' = some id → t = t'

/-- The action enters no instance among the raised ones while a call uses an earlier object
of it, and cancels no chat at a `yield`. -/
def TurnsApart (s : State) : Action → Prop
  | .step ℓ => s.service.TurnsApart ℓ
  | .stmt _ => True

instance (s : State) (a : Action) : Decidable (s.TurnsApart a) := by
  delta TurnsApart
  rcases a <;> dsimp only <;> infer_instance

end State

section

variable {R : RunnerId} {slots : ℕ} {P : Db → Prop} {s : State}

/-- In a run in which no call outlives the object that it uses, the calls of an instance are
on one object. -/
theorem oneObject_of_reach (h : (system R slots P).Reach State.TurnsApart s) :
  s.service.OneObject
  := by
  apply h.invariant (I := fun s => s.service.OneObject)
  · rintro ⟨db, service⟩ ⟨_, idleTimeout, clock, rfl⟩
    constructor
    · intro t t' id r r' h
      contradiction
    · intro t id r r' h
      contradiction
    · intro t
      rfl
  · intro s a s' hs hG ha
    cases State.act_cases ha with
    | step h =>
        cases h with
        | call c _ =>
            have hu := Pool.attr_append (l := s.service.tasks) (Await.stable_uses.called c)
            have ho := Pool.attr_append (l := s.service.tasks) (Await.stable_orphan.called c)
            constructor
            · rw [Service.spawn, hu]
              apply hs.unique
            · rw [Service.spawn, hu]
              apply hs.current
            · rw [Service.spawn, ho]
              apply hs.attended
        | tick n _ => exact ⟨hs.unique, hs.current, hs.attended⟩
        | move ht h => apply hs.move hG ht h
    | @stmt t p q db ht h =>
        have hu := Pool.attr_set_of_eq ht h.keeps.2.2.2.1
        have ho : Pool.attr Await.orphan (s.service.tasks.set t q) =
            Pool.attr Await.orphan s.service.tasks :=
          Pool.attr_set_of_eq ht (by cases h <;> rfl)
        constructor
        · rw [Service.await, hu]
          apply hs.unique
        · rw [Service.await, hu]
          apply hs.current
        · rw [Service.await, ho]
          apply hs.attended

/-- **One turn per thread**: in a run in which no instance is entered among the raised ones
while a call uses an earlier object of it, and no chat is cancelled at a `yield`, at most one
turn of each instance is executing. -/
theorem oneTurn_of_turnsApart (h : (system R slots P).Reach State.TurnsApart s) :
  s.OneTurn
  := by
  have hs := oneObject_of_reach h
  have hI := inv_of_reach h
  -- An executing turn is inside the lock of the object that it uses.
  have hin : ∀ {id t}, Pool.attr Await.executing s.service.tasks t = some id →
      ∃ r, Pool.attr Await.uses s.service.tasks t = some (id, r) ∧
        Pool.attr Await.holds s.service.tasks t = some r := by
    intro id t ht
    obtain ⟨p, hp, he⟩ := Pool.exists_of_attr ht
    simp only [Pool.attr_of_getElem? hp]
    rcases Await.inside_of_executing he with ⟨r, hi⟩ | ho
    · exact ⟨r, Await.uses_of_inside hi, Await.holds_of_inside hi⟩
    · have := hs.attended t
      rw [Pool.attr_of_getElem? hp, ho] at this
      contradiction
  intro id t t' ht ht'
  obtain ⟨r, hu, hh⟩ := hin ht
  obtain ⟨r', hu', hh'⟩ := hin ht'
  obtain rfl := hs.unique t t' id r r' hu hu'
  apply (hI.turnLock r).unique hh hh'

end

/-- Two chats of an instance share its object, and one waits while the other executes. -/
theorem oneTurn_of_turnsApart_chats :
  ∃ s, (system 1 1 fun _ => True).Reach State.TurnsApart s ∧
    Pool.attr Await.executing s.service.tasks 0 = some 1 ∧
    Pool.attr Await.uses s.service.tasks 1 = some (1, 0) ∧ s.OneTurn
  := by
  obtain ⟨s, hs, hp⟩ := Transition.exists_reach_of_run (T := system 1 1 fun _ => True)
    (G := State.TurnsApart) (s := ⟨.single, .start 1 1 10 0⟩) ⟨trivial, 10, 0, rfl⟩
    [.step (.call (.chat 1 "hello")), .step (.run 0), .step (.run 0), .step (.run 0), .stmt 0,
      .step (.run 0), .step (.run 0), .stmt 0, .step (.run 0), .step (.run 0),
      .step (.call (.chat 1 "and")), .step (.run 1)]
    (fun s => Pool.attr Await.executing s.service.tasks 0 = some 1 ∧
      Pool.attr Await.uses s.service.tasks 1 = some (1, 0)) (by decide)
  obtain ⟨h₀, h₁⟩ := of_decide_eq_true hp
  exact ⟨s, hs, h₀, h₁, oneTurn_of_turnsApart hs⟩

/-- On a runner with one slot an event raises an instance and reads the journal. Meanwhile
the instance is stopped, and raised again by a chat, which executes on a new object. The
event then takes the lock of the old object and executes beside it. -/
theorem not_oneTurn_reachable :
  ∃ s, (system 1 1 fun _ => True).Reachable s ∧ ¬ s.OneTurn
  := by
  obtain ⟨s, hs, hp⟩ := Transition.exists_reach_of_run (T := system 1 1 fun _ => True)
    (G := fun _ _ => True) (s := ⟨.single, .start 1 1 10 0⟩) ⟨trivial, 10, 0, rfl⟩
    [.step (.call (.handleEvent .single)), .step (.run 0), .stmt 0, .step (.run 0),
      .step (.run 0), .step (.run 0), .stmt 0, .step (.run 0),
      .step (.call (.stopInstance 1)), .step (.run 1), .step (.run 1), .stmt 1, .step (.run 1),
      .step (.call (.chat 1 "hello")), .step (.run 2), .step (.run 2), .step (.run 2), .stmt 2,
      .step (.run 2), .step (.run 2), .stmt 2, .step (.run 2), .step (.run 2),
      .stmt 0, .step (.run 0), .step (.run 0), .stmt 0, .step (.run 0), .step (.run 0)]
    (fun s => Pool.attr Await.executing s.service.tasks 0 = some 1 ∧
      Pool.attr Await.executing s.service.tasks 2 = some 1) (by decide)
  obtain ⟨h₀, h₂⟩ := of_decide_eq_true hp
  refine ⟨s, hs, ?_⟩
  intro hone
  have := hone 1 0 2 h₀ h₂
  contradiction

end Runner
