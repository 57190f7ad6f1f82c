import GitAgent.Cluster.System
import GitAgent.Runner.Row

/-!
# The holder of an instance among many runners

A runner writes the row of an instance only by a comparison with its own name in the row. The
hub writes the row without a comparison, by what it read several awaits before. As long as the
hub takes the row from no runner that has the instance raised, or has claimed it and is about
to enter it, and no runner claims an instance that it has still to release, the row of every
raised instance is that of its runner.
-/

namespace Runner

/-- The instance that the task stops. -/
def Await.stopOf : Await → Option Hub.InstanceId
  | stopLock _ id _ | release _ id _ _ => some id
  | _ => none

namespace Service

/-- The service has the instance raised, or a task has claimed it and is about to enter it. -/
def Has (s : Service) (id : Hub.InstanceId) : Prop :=
  s.instances.get id ≠ none ∨ ∃ p ∈ s.tasks, p.claimed = some id

instance (s : Service) (id : Hub.InstanceId) : Decidable (s.Has id) :=
  inferInstanceAs (Decidable (_ ∨ _))

variable {s s' : Service} {ℓ : Label} {t : TaskId} {p q : Await} {id : Hub.InstanceId}

theorem has_iff :
  s.Has id ↔ s.instances.get id ≠ none ∨ ∃ t, Pool.attr Await.claimed s.tasks t = some id
  := by
  refine or_congr_right ?_
  constructor
  · rintro ⟨p, hp, hc⟩
    obtain ⟨t, ht⟩ := List.mem_iff_getElem?.mp hp
    use t
    rw [Pool.attr_of_getElem? ht, hc]
  · rintro ⟨t, hc⟩
    obtain ⟨p, hp, hc⟩ := Pool.exists_of_attr hc
    exact ⟨p, List.mem_of_getElem? hp, hc⟩

/-- A move makes the service have no instance that it did not have. -/
theorem Move.has (h : Move s ℓ t p q s') (ht : s.tasks[t]? = some p) (hid : s'.Has id) :
  s.Has id
  := by
  rw [has_iff] at hid ⊢
  rcases hid with hr | ⟨t', hc⟩
  · cases h.entries with
    | same hi _ _ _ =>
        left
        rw [← hi]
        apply hr
    | insert c hp _ hi _ _ =>
        rw [hi, Dict.get_set] at hr
        split at hr
        · rename_i e
          right
          use t
          rw [Pool.attr_of_getElem? ht, hp, e]
        · exact .inl hr
    | pop k id' r _ _ _ hi _ =>
        left
        rw [hi, Dict.get_erase] at hr
        split at hr
        · contradiction
        · apply hr
  · exact .inr ⟨t', h.attr_old Await.stable_claimed ht (.inr h.claimed) hc⟩

/-- A step makes the service have no instance that it did not have. -/
theorem Steps.has (h : s.Steps ℓ s') (hid : s'.Has id) :
  s.Has id
  := by
  cases h with
  | call c _ =>
      rw [has_iff, spawn, Pool.attr_append (Await.stable_claimed.called c)] at hid
      rw [has_iff]
      apply hid
  | tick n _ => apply hid
  | move ht h => apply h.has ht hid

end Service

end Runner

namespace Cluster

open Hub (InstanceId RunnerId Db)
open Runner (Service Await Reply Row)

namespace State

/-- Every instance that a runner has raised and does not stop is running under that
runner. -/
def HolderSafe (s : State) : Prop :=
  ∀ n service, s.live n = some service → ∀ id, service.instances.get id ≠ none →
    (∀ p ∈ service.tasks, p.stopOf ≠ some id) → s.db.holder id = some service.runnerId

/-- The processes are runners that are alive: no two share a registration, and none is found
stale. -/
def Alive (s : State) : Action → Prop
  | .start name address slots _ =>
      ∀ node ∈ s.nodes, ∀ service ∈ node.live,
        service.runnerId ≠ (s.db.upsertRunner name address slots).2
  | .requeueStale timeout =>
      ∀ node ∈ s.nodes, ∀ service ∈ node.live, ¬ s.db.staleRunner timeout service.runnerId
  | _ => True

/-- The hub takes the row of an instance from no runner that has it, and a runner claims no
instance that it has still to release. -/
def WritesApart (s : State) : Action → Prop
  | .query h _ _ =>
      match s.requests[h]? with
      | some (_, .setRunning _ id R _) =>
          ∀ node ∈ s.nodes, ∀ service ∈ node.live, service.runnerId ≠ R → ¬ service.Has id
      | some (_, .setDown id) => ∀ node ∈ s.nodes, ∀ service ∈ node.live, ¬ service.Has id
      | _ => True
  | .stmt n t => ∀ service ∈ s.live n, service.ClaimsApart t
  | _ => True

instance (s : State) (a : Action) : Decidable (s.Alive a) := by
  delta Alive
  rcases a <;> dsimp only <;> infer_instance

instance (s : State) (a : Action) : Decidable (s.WritesApart a) := by
  delta WritesApart
  rcases a
  case query h within R =>
    dsimp only
    generalize s.requests[h]? = o
    rcases o with _ | ⟨userId, p⟩
    · exact instDecidableTrue
    · rcases p <;> dsimp only <;> infer_instance
  all_goals
    dsimp only
    infer_instance

end State

/-- The invariant of these runs, on the live services and the holders of the instances. -/
structure Held (live : NodeId → Option Service) (holder : InstanceId → Option RunnerId) :
    Prop where
  inv : ∀ n service, live n = some service → service.Inv ∧ service.Exclusive
  apart : State.Apart live
  holds : ∀ n service id, live n = some service → service.Has id →
    holder id = some service.runnerId

namespace Held

variable {live live' : NodeId → Option Service} {holder holder' : InstanceId → Option RunnerId}
  {n : NodeId} {service service' : Service}

/-- Fewer services. -/
theorem mono (h : Held live holder) (hl : ∀ n service, live' n = some service →
    live n = some service) :
  Held live' holder
  := ⟨fun n service hn => h.inv n service (hl n service hn),
      fun n n' service service' hn hn' => h.apart n n' service service' (hl _ _ hn) (hl _ _ hn'),
      fun n service id hn => h.holds n service id (hl n service hn)⟩

/-- One service goes on to another one of the same runner. -/
theorem update (h : Held live holder) (hn : live n = some service)
    (hR : service'.runnerId = service.runnerId) (hI : service'.Inv) (hE : service'.Exclusive)
    (hh : ∀ id, service'.Has id → holder' id = some service.runnerId)
    (hother : ∀ n' service id, n' ≠ n → live n' = some service → service.Has id →
      holder' id = holder id) :
  Held (Function.update live n (some service')) holder'
  := by
  constructor
  · intro m σ hm
    rcases State.live_update_cases hm with ⟨-, rfl⟩ | ⟨-, hm⟩
    · exact ⟨hI, hE⟩
    · apply h.inv m σ hm
  · apply h.apart.update hn hR
  · intro m σ id hm hid
    rcases State.live_update_cases hm with ⟨rfl, rfl⟩ | ⟨hne, hm⟩
    · rw [hR]
      apply hh id hid
    · rw [hother m σ id hne hm hid]
      apply h.holds m σ id hm hid

/-- A service takes a step. -/
theorem steps {ℓ : Runner.Label} (h : Held live holder) (hn : live n = some service)
    (hs : service.Steps ℓ service') :
  Held (Function.update live n (some service')) holder
  := by
  obtain ⟨hI, hE⟩ := h.inv n service hn
  apply h.update hn hs.config.2 (hI.steps hs) (hE.steps hI hs)
  · exact fun id hid => h.holds n service id hn (hs.has hid)
  · intros
    rfl

/-- A service executes a statement. -/
theorem reply {t : Runner.TaskId} {p q : Await} {db db' : Db} (h : Held live db.holder)
    (hn : live n = some service) (hG : service.ClaimsApart t) (ht : service.tasks[t]? = some p)
    (hr : Reply db service.runnerId p db' q) :
  Held (Function.update live n (some (service.await t q))) db'.holder
  := by
  obtain ⟨hI, hE⟩ := h.inv n service hn
  have hk := hr.keeps
  have hI' : (service.await t q).Inv := hI.await ht hr.ref hk.2.1 hk.2.2.2.2.1
  have hR : (service.await t q).runnerId = service.runnerId := rfl
  apply h.update hn hR hI' (hE.reply hG ht hr)
  · intro id hid
    rw [Service.has_iff] at hid
    cases hr.row with
    | same hd hc hst =>
        rw [hd]
        rw [Service.await, Pool.attr_set_of_eq ht hc] at hid
        apply h.holds n service id hn (Service.has_iff.mpr hid)
    | claim c hp hq hh hd =>
        rw [hd, Function.update_apply]
        split
        · rfl
        · rename_i hne
          apply h.holds n service id hn (Service.has_iff.mpr (hid.imp_right _))
          rintro ⟨t', hc⟩
          rw [Service.await, Pool.attr_set ht, Function.update_apply] at hc
          split at hc
          · rw [hq] at hc
            apply absurd (Option.some.inj hc).symm hne
          · exact ⟨t', hc⟩
    | release k id₀ r hp hq hd =>
        have hst : Pool.attr Await.stopping service.tasks t = some (id₀, r) := by
          rw [Pool.attr_of_getElem? ht, hp]
          rfl
        have hc : q.claimed = p.claimed := by rw [hp, hq]; rfl
        rw [Service.await, Pool.attr_set_of_eq ht hc] at hid
        have hold := h.holds n service id hn (Service.has_iff.mpr hid)
        rw [hd]
        split
        · rw [Function.update_of_ne, hold]
          -- An instance that is still to be released is neither raised nor claimed.
          rintro rfl
          rcases hid with hr | ⟨t', hc⟩
          · apply hr (hE.absent t id r hst)
          · apply hE.unclaimed t id r hst t' hc
        · apply hold
  · intro m σ id hne hm hid
    have hold := h.holds m σ id hm hid
    have hR : σ.runnerId ≠ service.runnerId := fun e => hne (h.apart _ _ _ _ hm hn e)
    cases hr.row with
    | same hd _ _ => rw [hd]
    | claim c _ _ hh hd =>
        rw [hd, Function.update_of_ne]
        rintro rfl
        rw [hold] at hh
        rcases hh with hh | hh
        · contradiction
        · apply hR (Option.some.inj hh)
    | release k id₀ r _ _ hd =>
        rw [hd]
        split
        · rename_i hh
          rw [Function.update_of_ne]
          rintro rfl
          rw [hold] at hh
          apply hR (Option.some.inj hh)
        · rfl

/-- The hub writes the row of an instance that no other runner has. -/
theorem write {db : Db} {holder₀ : Option RunnerId} {id : InstanceId}
    (h : Held live db.holder) (hh : holder' = db.holder ∨
      holder' = Function.update db.holder id holder₀)
    (hG : ∀ n service, live n = some service → service.Has id →
      holder₀ = some service.runnerId) :
  Held live holder'
  := by
  refine ⟨h.inv, h.apart, ?_⟩
  intro n service id' hn hid
  rcases hh with rfl | rfl
  · apply h.holds n service id' hn hid
  · rw [Function.update_apply]
    split
    · rename_i e
      rw [e] at hid
      apply hG n service hn hid
    · apply h.holds n service id' hn hid

end Held

namespace State

variable {s : State} {n : NodeId} {service : Service}

/-- The live services are those of the processes. -/
theorem mem_of_live (h : s.live n = some service) :
  ∃ node ∈ s.nodes, service ∈ node.live
  := by
  obtain ⟨node, hn, hl⟩ := Pool.exists_of_attr h
  exact ⟨node, List.mem_of_getElem? hn, hl⟩

/-- A step of the service of a process keeps the invariant. -/
theorem held_put {ℓ : Runner.Label} {service' : Service} {holder : InstanceId → Option RunnerId}
    (hs : Held s.live holder) (hn : s.live n = some service) (h : service.Steps ℓ service') :
  Held (s.put n service').live holder
  := by
  rw [live_put hn]
  apply hs.steps hn h

/-- Every action that keeps to the conditions keeps the invariant. -/
theorem Acts.held {a : Action} {s' : State} (h : s.Acts a s') (hs : Held s.live s.db.holder)
    (hA : s.Alive a) (hG : s.WritesApart a) :
  Held s'.live s'.db.holder
  := by
  cases h with
  | ingest hi =>
      rw [Db.holder_ingest hi]
      apply hs
  | publish ho hp => apply hs
  | markPublished hc => apply hs
  | @requeueStale timeout =>
      refine ⟨hs.inv, hs.apart, ?_⟩
      intro n service id hn hid
      have hold := hs.holds n service id hn hid
      obtain ⟨node, hnode, hl⟩ := mem_of_live hn
      rw [Db.holder_requeueStale, hold, if_neg]
      simpa using hA node hnode service hl
  | @query h within R userId p q db hp hq =>
      rw [WritesApart] at hG
      have hw := (Hub.Await.stmt_spec hq).1
      cases hw with
      | same hh =>
          simp only [hh]
          apply hs
      | running g id R' address hpr hd =>
          simp only [hp, hpr] at hG
          have hcases : db.holder = s.db.holder ∨
              db.holder = Function.update s.db.holder id (some R') :=
            hd ▸ Db.holder_runInstance_cases _ _ _
          apply hs.write hcases
          intro n service hn hid
          obtain ⟨node, hnode, hl⟩ := mem_of_live hn
          by_contra hne
          apply hG node hnode service hl _ hid
          rintro rfl
          apply hne rfl
      | down id hpd hd =>
          simp only [hp, hpd] at hG
          apply hs.write (.inr (hd ▸ Db.holder_downInstance _ _))
          intro n service hn hid
          obtain ⟨node, hnode, hl⟩ := mem_of_live hn
          apply absurd hid (hG node hnode service hl)
  | requests requests => apply hs
  | call requests hn hc => apply held_put hs hn (.call _ rfl)
  | @start name address slots idleTimeout =>
      have hold : ∀ {m σ}, (s.start name address slots idleTimeout).live m = some σ →
          m = s.nodes.length ∧
            σ = .start (s.db.upsertRunner name address slots).2 slots idleTimeout 0 ∨
          s.live m = some σ := by
        intro m σ hm
        rw [live_start] at hm
        split at hm
        · rename_i e
          exact .inl ⟨e, (Option.some.inj hm).symm⟩
        · exact .inr hm
      have hnew : ∀ {m σ}, s.live m = some σ →
          σ.runnerId ≠ (s.db.upsertRunner name address slots).2 := by
        intro m σ hm
        obtain ⟨node, hnode, hl⟩ := mem_of_live hm
        apply hA node hnode σ hl
      constructor
      · intro m σ hm
        rcases hold hm with ⟨-, rfl⟩ | hm
        · exact ⟨.start _ _ _ _, .start _ _ _ _⟩
        · apply hs.inv m σ hm
      · intro m m' σ σ' hm hm' he
        rcases hold hm with ⟨e, rfl⟩ | hm <;> rcases hold hm' with ⟨e', rfl⟩ | hm'
        · rw [e, e']
        · apply absurd he.symm (hnew hm')
        · apply absurd he (hnew hm)
        · apply hs.apart m m' σ σ' hm hm' he
      · intro m σ id hm hid
        have hh : (s.start name address slots idleTimeout).db.holder = s.db.holder :=
          Db.holder_upsertRunner _ _ _ _
        rw [hh]
        rcases hold hm with ⟨-, rfl⟩ | hm
        · rcases hid with hr | ⟨p, hp, -⟩ <;> contradiction
        · apply hs.holds m σ id hm hid
  | crash =>
      apply hs.mono
      intro m σ hm
      rw [live_crash] at hm
      split at hm
      · contradiction
      · apply hm
  | heartbeat hn => apply hs
  | consume hn hq => apply held_put hs hn (.call _ rfl)
  | step hn hℓ h => apply held_put hs hn h
  | @stmt n t service p q db hn ht h =>
      have h' := hs.reply hn (hG _ hn) ht h
      rw [← live_put hn] at h'
      apply h'
  | forward hn ht hn' => apply held_put hs hn' (.call _ rfl)
  | tick => apply hs

end State

section

variable {storable : Hub.Event → String → Bool} {P : Db → Prop} {s : State}

/-- The invariant holds in the runs that keep to the conditions. -/
theorem held_of_reach
    (h : (system storable P).Reach (fun s a => s.Alive a ∧ s.WritesApart a) s) :
  Held s.live s.db.holder
  := by
  apply h.invariant (I := fun s => Held s.live s.db.holder)
  · rintro s ⟨-, hn, -⟩
    have hl : ∀ n service, s.live n ≠ some service := by
      intro n service hn'
      rw [State.live, Pool.attr, hn] at hn'
      contradiction
    exact ⟨fun n service hn => absurd hn (hl n service),
      fun n _ service _ hn => absurd hn (hl n service),
      fun n service _ hn => absurd hn (hl n service)⟩
  · exact fun s a s' hs hG ha => (State.act_cases ha).held hs hG.1 hG.2

/-- **Safety of the holders**: in a run of live runners in which the hub takes the row of an
instance from no runner that has it, and no runner claims an instance that it has still to
release, every instance that a runner has raised is running under that runner. -/
theorem holderSafe_of_writesApart
    (h : (system storable P).Reach (fun s a => s.Alive a ∧ s.WritesApart a) s) :
  s.HolderSafe
  := by
  intro n service hn id hid _
  apply (held_of_reach h).holds n service id hn (.inl hid)

end

/-- A user raises an instance, a runner claims it, and the hub writes the row once more. -/
theorem holderSafe_of_writesApart_raise :
  ∃ s, (system (fun _ _ => true) (· = Db.single)).Reach
      (fun s a => s.Alive a ∧ s.WritesApart a) s ∧
    s.requests = [(1, .done true)] ∧ s.db.holder 1 = some 1 ∧ s.HolderSafe
  := by
  obtain ⟨s, hs, hp⟩ := Transition.exists_reach_of_run
    (T := system (fun _ _ => true) (· = Db.single))
    (G := fun s a => s.Alive a ∧ s.WritesApart a) (s := ⟨.single, [], [], [], [], []⟩)
    ⟨rfl, rfl, rfl, rfl, rfl, rfl⟩
    [.start "a" "http://a" 1 10, .start "b" "http://b" 1 10, .request 1 (.raise 1),
      .query 0 30 0, .provisioned 0, .query 0 30 1, .send 0 0, .step 0 (.run 0),
      .step 0 (.run 1), .step 0 (.run 1), .step 0 (.run 1), .stmt 0 1, .step 0 (.run 1),
      .step 0 (.run 0), .answered 0, .query 0 30 0]
    (fun s => s.requests = [(1, .done true)] ∧ s.db.holder 1 = some 1) (by decide)
  obtain ⟨hr, hh⟩ := of_decide_eq_true hp
  exact ⟨s, hs, hr, hh, holderSafe_of_writesApart hs⟩

/-- The runner that raised the instance for the hub unloads it, and another runner raises it,
before the hub writes the row: the row is then that of the first runner. -/
theorem not_holderSafe_reachable :
  ∃ s, (system (fun _ _ => true) (· = Db.single)).Reach State.Alive s ∧ ¬ s.HolderSafe
  := by
  obtain ⟨s, hs, hp⟩ := Transition.exists_reach_of_run
    (T := system (fun _ _ => true) (· = Db.single)) (G := State.Alive)
    (s := ⟨.single, [], [], [], [], []⟩) ⟨rfl, rfl, rfl, rfl, rfl, rfl⟩
    [.start "a" "http://a" 1 10, .start "b" "http://b" 1 10, .request 1 (.raise 1),
      .query 0 30 0, .provisioned 0, .query 0 30 1, .send 0 0, .step 0 (.run 0),
      .step 0 (.run 1), .step 0 (.run 1), .step 0 (.run 1), .stmt 0 1, .step 0 (.run 1),
      .step 0 (.run 0), .answered 0, .step 0 (.call (.stopInstance 1)), .step 0 (.run 2),
      .step 0 (.run 2), .stmt 0 2, .step 0 (.run 2), .step 1 (.call (.raiseInstance 1)),
      .step 1 (.run 0), .step 1 (.run 1), .step 1 (.run 1), .step 1 (.run 1), .stmt 1 1,
      .step 1 (.run 1), .query 0 30 0]
    (fun s => (s.live 1).any fun service => service.instances.get 1 ≠ none ∧
      (∀ p ∈ service.tasks, p.stopOf ≠ some 1) ∧ s.db.holder 1 ≠ some service.runnerId)
    (by decide)
  refine ⟨s, hs, ?_⟩
  obtain ⟨service, hn, hp⟩ := (Option.any_eq_true _ _).mp hp
  obtain ⟨hi, hst, hh⟩ := of_decide_eq_true hp
  exact fun hsafe => hh (hsafe 1 service hn 1 hi hst)

end Cluster
