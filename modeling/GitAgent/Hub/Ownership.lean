import GitAgent.Library.Guard
import GitAgent.Hub.Isolation

/-!
# Whose builds run

An instance calls the model of its build, with the key of the connection that the build names. The
requests that name a connection or a build do not ask whose it is: along a run, what runs on the
repositories of a user is the user's own exactly as long as every request names what is its user's.
-/

namespace Hub.Accounts

namespace State

variable (s : State)

/-- The builds of a user call models of the user, and what is subscribed to a repository or runs on
it is a build of the owner of the repository. -/
structure Chained : Prop where
  build : ∀ b ∈ s.builds.rows, ∀ c, s.llmConnections.find b.llmConnectionId = some c →
    c.userId = b.userId
  subscription : ∀ r ∈ s.subscriptions.rows, ∀ b, s.builds.find r.buildId = some b →
    s.ownsRepository b.userId r.repositoryId = true
  «instance» : ∀ i ∈ s.instances.rows, ∀ b, s.builds.find i.buildId = some b →
    s.ownsRepository b.userId i.repositoryId = true

/-- Whether a request names a connection or a build of its user, if it names one. -/
def own : Action → Bool
  | .createBuild v input | .updateBuild v _ input =>
      (s.llmConnections.find input.llmConnectionId).any fun c => c.userId = v
  | .upsertSubscription v _ buildId _ _ => (s.builds.find buildId).any fun b => b.userId = v
  | _ => true

/-- What is referred to has come before. -/
structure Referred : Prop where
  build : ∀ b ∈ s.builds.rows, b.llmConnectionId < s.llmConnections.next
  subscription : ∀ r ∈ s.subscriptions.rows,
    r.buildId < s.builds.next ∧ r.repositoryId < s.repositories.next
  «instance» : ∀ i ∈ s.instances.rows,
    i.buildId < s.builds.next ∧ i.repositoryId < s.repositories.next
  matched : ∀ v id buildId, (v, .matched id buildId) ∈ s.found → buildId < s.builds.next

/-- What is chained, and the builds that triggers have matched. -/
structure Linked : Prop extends s.Chained where
  matched : ∀ v id buildId, (v, .matched id buildId) ∈ s.found →
    ∀ b, s.builds.find buildId = some b → b.userId = v

variable {s} {s' : State}

/-! ### What is referred to -/

theorem Referred.find {v : UserId} {f : Found} (h : s.Referred) (hf : s.finds v f = true) :
  ({ s with found := (v, f) :: s.found } : State).Referred
  := by
  refine ⟨h.build, h.subscription, h.instance, ?_⟩
  intro w id buildId hw
  rcases List.mem_cons.mp hw with hw | hw
  · obtain ⟨rfl, rfl⟩ := Prod.mk.inj hw
    obtain ⟨-, hf⟩ := Bool.and_eq_true_iff.mp hf
    obtain ⟨r, hr, hrid⟩ := List.any_eq_true.mp hf
    obtain ⟨-, hbuild⟩ := Bool.and_eq_true_iff.mp hrid
    rw [← of_decide_eq_true hbuild]
    exact (h.subscription r hr).1
  · apply h.matched w id buildId hw

theorem Referred.createRepository {v : UserId} {input : RepositoryInput} (h : s.Referred)
    (ha : s.act (.createRepository v input) = some s') :
  s'.Referred
  := by
  obtain ⟨-, ⟨⟩⟩ := Option.ite_none_right_eq_some.mp ha
  refine ⟨h.build, fun r hr => ?_, fun i hi => ?_, fun w id buildId hw => ?_⟩
  · exact (h.subscription r hr).imp_right Nat.lt_succ_of_lt
  · exact (h.instance i hi).imp_right Nat.lt_succ_of_lt
  · rcases List.mem_cons.mp hw with hw | hw
    · obtain ⟨-, hw⟩ := Prod.mk.inj hw
      contradiction
    · apply h.matched w id buildId hw

theorem Referred.subscribe {id : RepositoryId} {buildId : BuildId} {actions : List String}
    {refMask : Option String} (h : s.Referred) (hb : buildId < s.builds.next)
    (hr : id < s.repositories.next) :
  (s.subscribe id buildId actions refMask).Referred
  := by
  refine ⟨h.build, fun r hmem => ?_, h.instance, h.matched⟩
  rw [State.subscribe] at hmem
  dsimp only at hmem
  split at hmem
  · obtain ⟨r', hr', rfl | ⟨-, rfl⟩⟩ := Serial.exists_of_mem_update hmem
    · apply h.subscription r hr'
    · apply h.subscription r' hr'
  · rcases List.mem_append.mp hmem with hmem | hmem
    · apply h.subscription r hmem
    · rw [List.mem_singleton.mp hmem]
      exact ⟨hb, hr⟩

theorem Referred.setInstance {id : InstanceId} {f : AgentInstance → AgentInstance}
    {hf : ∀ i, (f i).id = i.id} (h : s.Referred)
    (hsame : ∀ i, (f i).buildId = i.buildId ∧ (f i).repositoryId = i.repositoryId) :
  (s.setInstance id f hf).Referred
  := by
  refine ⟨h.build, h.subscription, fun i hi => ?_, h.matched⟩
  obtain ⟨j, hj, rfl | ⟨-, rfl⟩⟩ := Serial.exists_of_mem_update hi
  · apply h.instance i hj
  · rw [(hsame j).1, (hsame j).2]
    apply h.instance j hj

/-- Whatever the statement, keys that are referred to were handed out. -/
theorem Referred.step {a : Action} (h : s.Referred) (ha : s.act a = some s') :
  s'.Referred
  := by
  cases a with
  | find v f =>
      obtain ⟨hf, ⟨⟩⟩ := Option.ite_none_right_eq_some.mp ha
      apply h.find hf
  | createRepository v input => apply h.createRepository ha
  | deleteRepository v id =>
      obtain ⟨-, ⟨⟩⟩ := Option.ite_none_right_eq_some.mp ha
      exact ⟨h.build, fun r hr => h.subscription r (List.mem_of_mem_filter hr),
        fun i hi => h.instance i (List.mem_of_mem_filter hi), h.matched⟩
  | upsertSubscription v id buildId actions refMask =>
      obtain ⟨⟨-, hr, hb⟩, ⟨⟩⟩ := Option.ite_none_right_eq_some.mp ha
      exact h.subscribe (Serial.lt_of_isSome_find hb) (lt_of_isSome_owner hr)
  | deleteSubscription v id =>
      obtain ⟨-, ⟨⟩⟩ := Option.ite_none_right_eq_some.mp ha
      exact ⟨h.build, fun r hr => h.subscription r (List.mem_of_mem_filter hr), h.instance, h.matched⟩
  | createBuild v input =>
      obtain ⟨⟨hc, -⟩, ⟨⟩⟩ := Option.ite_none_right_eq_some.mp ha
      refine ⟨fun b hb => ?_, fun r hr => (h.subscription r hr).imp_left Nat.lt_succ_of_lt,
        fun i hi => (h.instance i hi).imp_left Nat.lt_succ_of_lt,
        fun w id buildId hw => Nat.lt_succ_of_lt (h.matched w id buildId hw)⟩
      rcases List.mem_append.mp hb with hb | hb
      · apply h.build b hb
      · rw [List.mem_singleton.mp hb]
        exact Serial.lt_of_isSome_find (Bool.and_eq_true_iff.mp hc).1
  | updateBuild v id input =>
      obtain ⟨⟨-, hc, -⟩, ⟨⟩⟩ := Option.ite_none_right_eq_some.mp ha
      refine ⟨fun b hb => ?_, h.subscription, h.instance, h.matched⟩
      obtain ⟨b', hb', rfl | ⟨-, rfl⟩⟩ := Serial.exists_of_mem_update hb
      · apply h.build b hb'
      · exact Serial.lt_of_isSome_find (Bool.and_eq_true_iff.mp hc).1
  | deleteBuild v id =>
      obtain ⟨-, ⟨⟩⟩ := Option.ite_none_right_eq_some.mp ha
      exact ⟨fun b hb => h.build b (List.mem_of_mem_filter hb),
        fun r hr => h.subscription r (List.mem_of_mem_filter hr), h.instance, h.matched⟩
  | createLlmConnection v name apiBase apiKeyEnc model params =>
      obtain rfl := Option.some.inj ha
      exact ⟨fun b hb => Nat.lt_succ_of_lt (h.build b hb), h.subscription, h.instance, h.matched⟩
  | killSandbox v id =>
      obtain rfl := Option.some.inj ha
      exact ⟨h.build, h.subscription, h.instance, h.matched⟩
  | upsertInstance v id buildId =>
      obtain ⟨⟨-, hr, hb⟩, ha⟩ := Option.ite_none_right_eq_some.mp ha
      split at ha
      · rw [← Option.some.inj ha]
        exact h
      · rw [← Option.some.inj ha]
        refine ⟨h.build, h.subscription, fun i hi => ?_, h.matched⟩
        rcases List.mem_append.mp hi with hi | hi
        · apply h.instance i hi
        · rw [List.mem_singleton.mp hi]
          exact ⟨Serial.lt_of_isSome_find hb, lt_of_isSome_owner hr⟩
  | linkSandbox v id sandboxId =>
      obtain ⟨-, ⟨⟩⟩ := Option.ite_none_right_eq_some.mp ha
      exact h.setInstance fun _ => ⟨rfl, rfl⟩
  | setRunning v id runnerId =>
      obtain ⟨-, ⟨⟩⟩ := Option.ite_none_right_eq_some.mp ha
      exact h.setInstance fun _ => ⟨rfl, rfl⟩
  | setDown v id =>
      obtain ⟨-, ⟨⟩⟩ := Option.ite_none_right_eq_some.mp ha
      exact h.setInstance fun _ => ⟨rfl, rfl⟩
  | runner id runnerId =>
      obtain ⟨-, ⟨⟩⟩ := Option.ite_none_right_eq_some.mp ha
      exact h.setInstance fun _ => ⟨rfl, rfl⟩
  | _ =>
      -- the other statements write neither builds nor what refers to them
      obtain ⟨-, ⟨⟩⟩ := Option.ite_none_right_eq_some.mp ha
      exact ⟨h.build, h.subscription, h.instance, h.matched⟩

/-! ### What is chained -/

/-- What there is of a connection is of the user. -/
def Calls (llmConnectionId : ℕ) (u : UserId) : Prop :=
  llmConnectionId < s.llmConnections.next ∧
    ∀ c, s.llmConnections.find llmConnectionId = some c → c.userId = u

/-- What there is of a build is of the user. -/
def Builds (buildId : BuildId) (u : UserId) : Prop :=
  buildId < s.builds.next ∧ ∀ b, s.builds.find buildId = some b → b.userId = u

/-- What there is of a build is of the owner of the repository. -/
def Fits (buildId : BuildId) (id : RepositoryId) : Prop :=
  buildId < s.builds.next ∧ id < s.repositories.next ∧
    ∀ b, s.builds.find buildId = some b → s.ownsRepository b.userId id = true

/-- Rows after a statement come from rows of the same user that refer to the same, or refer to what
they should. -/
structure Descends (s s' : State) : Prop where
  connection : ∀ k < s.llmConnections.next, ∀ c, s'.llmConnections.find k = some c →
    ∃ c', s.llmConnections.find k = some c' ∧ c'.userId = c.userId
  build : ∀ k < s.builds.next, ∀ b, s'.builds.find k = some b →
    ∃ b', s.builds.find k = some b' ∧ b'.userId = b.userId
  repository : ∀ u, ∀ k < s.repositories.next, s.ownsRepository u k = true →
    (∃ r ∈ s'.subscriptions.rows, r.repositoryId = k) ∨
      (∃ i ∈ s'.instances.rows, i.repositoryId = k) →
    s'.ownsRepository u k = true
  builds : ∀ b ∈ s'.builds.rows, b ∈ s.builds.rows ∨ s.Calls b.llmConnectionId b.userId
  subscriptions : ∀ r ∈ s'.subscriptions.rows, (∃ r' ∈ s.subscriptions.rows,
      r.buildId = r'.buildId ∧ r.repositoryId = r'.repositoryId) ∨ s.Fits r.buildId r.repositoryId
  instances : ∀ i ∈ s'.instances.rows, (∃ i' ∈ s.instances.rows,
      i.buildId = i'.buildId ∧ i.repositoryId = i'.repositoryId) ∨ s.Fits i.buildId i.repositoryId
  matched : ∀ v id buildId, (v, .matched id buildId) ∈ s'.found →
    (v, .matched id buildId) ∈ s.found ∨ s.Builds buildId v

theorem Descends.refl (s : State) :
  s.Descends s
  := by
  constructor
  · exact fun _ _ c hc => ⟨c, hc, rfl⟩
  · exact fun _ _ b hb => ⟨b, hb, rfl⟩
  · exact fun _ _ _ hu _ => hu
  · exact fun _ hb => .inl hb
  · exact fun r hr => .inl ⟨r, hr, rfl, rfl⟩
  · exact fun i hi => .inl ⟨i, hi, rfl, rfl⟩
  · exact fun _ _ _ hv => .inl hv

/-- A build that fits a repository does so after the statement, where the repository is still
referred to. -/
theorem Descends.owns (hd : s.Descends s') {buildId : BuildId} {id : RepositoryId}
    (h : s.Fits buildId id) {b : AgentBuild} (hb : s'.builds.find buildId = some b)
    (hrow : (∃ r ∈ s'.subscriptions.rows, r.repositoryId = id) ∨
      (∃ i ∈ s'.instances.rows, i.repositoryId = id)) :
  s'.ownsRepository b.userId id = true
  := by
  obtain ⟨hltb, hltr, howns⟩ := h
  obtain ⟨b', hb', hu⟩ := hd.build _ hltb b hb
  rw [← hu]
  exact hd.repository _ _ hltr (howns b' hb') hrow

theorem Linked.descends (h : s.Linked) (hr : s.Referred) (hd : s.Descends s') :
  s'.Linked
  := by
  refine ⟨⟨?_, ?_, ?_⟩, ?_⟩
  · intro b hb c hc
    have hcalls : s.Calls b.llmConnectionId b.userId := by
      rcases hd.builds b hb with hb | hb
      · exact ⟨hr.build b hb, h.build b hb⟩
      · exact hb
    obtain ⟨c', hc', hu⟩ := hd.connection _ hcalls.1 c hc
    rw [← hu, hcalls.2 c' hc']
  · intro r hmem b hb
    apply hd.owns _ hb (.inl ⟨r, hmem, rfl⟩)
    rcases hd.subscriptions r hmem with ⟨r', hmem', hbuild, hrepo⟩ | hnew
    · obtain ⟨hltb, hltr⟩ := hr.subscription r' hmem'
      rw [hbuild, hrepo]
      exact ⟨hltb, hltr, h.subscription r' hmem'⟩
    · exact hnew
  · intro i hi b hb
    apply hd.owns _ hb (.inr ⟨i, hi, rfl⟩)
    rcases hd.instances i hi with ⟨i', hi', hbuild, hrepo⟩ | hnew
    · obtain ⟨hltb, hltr⟩ := hr.instance i' hi'
      rw [hbuild, hrepo]
      exact ⟨hltb, hltr, h.instance i' hi'⟩
    · exact hnew
  · intro v id buildId hv b hb
    have hbuilds : s.Builds buildId v := by
      rcases hd.matched v id buildId hv with hv | hnew
      · exact ⟨hr.matched v id buildId hv, h.matched v id buildId hv⟩
      · exact hnew
    obtain ⟨b', hb', hu⟩ := hd.build _ hbuilds.1 b hb
    rw [← hu, hbuilds.2 b' hb']

/-- A repository that a handler has found and that is still there belongs to its user. -/
theorem ownsRepository_of_found (hs : s.Sound) {v : UserId} {id : RepositoryId}
    (hv : (v, .repository id) ∈ s.found) (ho : (s.owner id).isSome = true) :
  s.ownsRepository v id = true
  := by
  obtain ⟨u, hu⟩ := Option.isSome_iff_exists.mp ho
  rw [owner_eq_some_iff] at hu
  rwa [← (hs.repository v id hv).2 u hu]

theorem descends_find (hs : s.Sound) (hr : s.Referred) (h : s.Linked) {v : UserId} {f : Found}
    (hf : s.finds v f = true) :
  s.Descends { s with found := (v, f) :: s.found }
  := { Descends.refl s with
    matched := by
      intro w id buildId hw
      rcases List.mem_cons.mp hw with hw | hw
      · right
        obtain ⟨rfl, rfl⟩ := Prod.mk.inj hw
        obtain ⟨hw, hsub⟩ := Bool.and_eq_true_iff.mp hf
        obtain ⟨r, hmem, hrid⟩ := List.any_eq_true.mp hsub
        obtain ⟨hrepo, hbuild⟩ := Bool.and_eq_true_iff.mp hrid
        rw [← of_decide_eq_true hbuild]
        refine ⟨(hr.subscription r hmem).1, fun b hb => ?_⟩
        apply (hs.repository w id (of_decide_eq_true hw)).2
        rw [← of_decide_eq_true hrepo]
        apply h.subscription r hmem b hb
      · exact .inl hw }

theorem descends_setInstance {id : InstanceId} {f : AgentInstance → AgentInstance}
    {hf : ∀ i, (f i).id = i.id}
    (hsame : ∀ i, (f i).buildId = i.buildId ∧ (f i).repositoryId = i.repositoryId) :
  s.Descends (s.setInstance id f hf)
  := { Descends.refl s with
    repository := fun _ _ _ hu _ => hu
    instances := by
      intro i hi
      left
      obtain ⟨j, hj, rfl | ⟨-, rfl⟩⟩ := Serial.exists_of_mem_update hi
      · exact ⟨i, hj, rfl, rfl⟩
      · exact ⟨j, hj, hsame j⟩ }

theorem descends_createRepository {v : UserId} {input : RepositoryInput}
    (ha : s.act (.createRepository v input) = some s') :
  s.Descends s'
  := by
  obtain ⟨-, ⟨⟩⟩ := Option.ite_none_right_eq_some.mp ha
  refine { Descends.refl s with repository := fun u k hk hu _ => ?_, matched := fun w id buildId hw => ?_ }
  · exact (Serial.find_any_insert_of_lt hk).trans hu
  · rcases List.mem_cons.mp hw with hw | hw
    · obtain ⟨-, hw⟩ := Prod.mk.inj hw
      contradiction
    · exact .inl hw

theorem descends_dropRepository (id : RepositoryId) :
  s.Descends (s.dropRepository id)
  := by
  refine { Descends.refl s with
    repository := fun u k _ hu hrow => ?_
    subscriptions := fun r hr => .inl ⟨r, List.mem_of_mem_filter hr, rfl, rfl⟩
    instances := fun i hi => .inl ⟨i, List.mem_of_mem_filter hi, rfl, rfl⟩ }
  have hne : k ≠ id := by
    rintro rfl
    obtain ⟨r, hr, hk⟩ | ⟨i, hi, hk⟩ := hrow
    · simpa [hk] using (List.mem_filter.mp hr).2
    · simpa [hk] using (List.mem_filter.mp hi).2
  rw [ownsRepository, dropRepository, Serial.find_delete_of_not]
  · exact hu
  · rintro r rfl
    exact decide_eq_false hne

theorem descends_subscribe (hs : s.Sound) {v : UserId} {id : RepositoryId} {buildId : BuildId}
    {actions : List String} {refMask : Option String} (hv : (v, .repository id) ∈ s.found)
    (ho : (s.owner id).isSome = true)
    (hown : (s.builds.find buildId).any (fun b => b.userId = v) = true) :
  s.Descends (s.subscribe id buildId actions refMask)
  := { Descends.refl s with
    repository := fun _ _ _ hu _ => hu
    subscriptions := by
      intro r hr
      rw [State.subscribe] at hr
      dsimp only at hr
      split at hr
      · left
        obtain ⟨r', hr', rfl | ⟨-, rfl⟩⟩ := Serial.exists_of_mem_update hr
        · exact ⟨r, hr', rfl, rfl⟩
        · exact ⟨r', hr', rfl, rfl⟩
      · rcases List.mem_append.mp hr with hr | hr
        · exact .inl ⟨r, hr, rfl, rfl⟩
        · right
          rw [List.mem_singleton.mp hr]
          obtain ⟨b, hb, hu⟩ := (Option.any_eq_true ..).mp hown
          refine ⟨s.builds.lt_of_find hb, (hs.repository v id hv).1, fun b' hb' => ?_⟩
          obtain rfl := Option.some.inj (hb.symm.trans hb')
          rw [of_decide_eq_true hu]
          exact ownsRepository_of_found hs hv ho }

/-- A connection that a request of the user may name. -/
theorem calls_of_any {k : ℕ} {v : UserId}
    (h : (s.llmConnections.find k).any (fun c => c.userId = v) = true) :
  s.Calls k v
  := by
  obtain ⟨c, hc, hu⟩ := (Option.any_eq_true ..).mp h
  refine ⟨s.llmConnections.lt_of_find hc, fun c' hc' => ?_⟩
  obtain rfl := Option.some.inj (hc.symm.trans hc')
  exact of_decide_eq_true hu

theorem descends_createBuild {v : UserId} {input : BuildInput}
    (ha : s.act (.createBuild v input) = some s') (hown : s.own (.createBuild v input) = true) :
  s.Descends s'
  := by
  obtain ⟨-, ⟨⟩⟩ := Option.ite_none_right_eq_some.mp ha
  refine { Descends.refl s with build := fun k hk b hb => ?_, builds := fun b hb => ?_ }
  · rw [Serial.find_insert, if_neg hk.ne] at hb
    exact ⟨b, hb, rfl⟩
  · rcases List.mem_append.mp hb with hb | hb
    · exact .inl hb
    · right
      rw [List.mem_singleton.mp hb]
      apply calls_of_any hown

theorem descends_updateBuild {v : UserId} {id : BuildId} {input : BuildInput}
    (ha : s.act (.updateBuild v id input) = some s')
    (hown : s.own (.updateBuild v id input) = true) :
  s.Descends s'
  := by
  obtain ⟨⟨hb, -⟩, ⟨⟩⟩ := Option.ite_none_right_eq_some.mp ha
  refine { Descends.refl s with build := fun k _ b hb => ?_, builds := fun b hmem => ?_ }
  · rw [Serial.find_update] at hb
    obtain ⟨b', hb', rfl⟩ := Option.map_eq_some_iff.mp hb
    refine ⟨b', hb', ?_⟩
    split <;> rfl
  · obtain ⟨b', hb', rfl | ⟨hid, rfl⟩⟩ := Serial.exists_of_mem_update hmem
    · exact .inl hb'
    · right
      rw [← of_decide_eq_true hid, s.builds.find_of_mem hb', Option.any_some] at hb
      rw [of_decide_eq_true hb]
      apply calls_of_any hown

theorem descends_upsertInstance (hs : s.Sound) (hr : s.Referred) (h : s.Linked) {v : UserId} {id : RepositoryId}
    {buildId : BuildId} (ha : s.act (.upsertInstance v id buildId) = some s') :
  s.Descends s'
  := by
  obtain ⟨⟨hv, ho, -⟩, ha⟩ := Option.ite_none_right_eq_some.mp ha
  split at ha
  · rw [← Option.some.inj ha]
    exact { Descends.refl s with }
  · rw [← Option.some.inj ha]
    refine { Descends.refl s with repository := fun _ _ _ hu _ => hu, instances := fun i hi => ?_ }
    rcases List.mem_append.mp hi with hi | hi
    · exact .inl ⟨i, hi, rfl, rfl⟩
    · right
      rw [List.mem_singleton.mp hi]
      have hfound := hs.matched v id buildId hv
      refine ⟨hr.matched v id buildId hv, (hs.repository v id hfound).1, fun b hb => ?_⟩
      rw [h.matched v id buildId hv b hb]
      exact ownsRepository_of_found hs hfound ho

/-- A statement that names what is its user's keeps the chain. -/
theorem descends_of_own {a : Action} (hs : s.Sound) (hr : s.Referred) (h : s.Linked) (ha : s.act a = some s')
    (hown : s.own a = true) :
  s.Descends s'
  := by
  cases a with
  | find v f =>
      obtain ⟨hf, ⟨⟩⟩ := Option.ite_none_right_eq_some.mp ha
      apply descends_find hs hr h hf
  | createRepository v input => apply descends_createRepository ha
  | setWebhook v id hookId =>
      obtain ⟨-, ⟨⟩⟩ := Option.ite_none_right_eq_some.mp ha
      refine { Descends.refl s with repository := fun u k _ hu _ => ?_ }
      rw [ownsRepository, Serial.find_any_update]
      · exact hu
      · exact fun _ _ => rfl
  | deleteRepository v id =>
      obtain ⟨-, ⟨⟩⟩ := Option.ite_none_right_eq_some.mp ha
      apply descends_dropRepository
  | upsertSubscription v id buildId actions refMask =>
      obtain ⟨⟨hv, ho, -⟩, ⟨⟩⟩ := Option.ite_none_right_eq_some.mp ha
      apply descends_subscribe hs hv ho hown
  | deleteSubscription v id =>
      obtain ⟨-, ⟨⟩⟩ := Option.ite_none_right_eq_some.mp ha
      exact { Descends.refl s with
        repository := fun _ _ _ hu _ => hu
        subscriptions := fun r hr => .inl ⟨r, List.mem_of_mem_filter hr, rfl, rfl⟩ }
  | createBuild v input => apply descends_createBuild ha hown
  | updateBuild v id input => apply descends_updateBuild ha hown
  | deleteBuild v id =>
      obtain ⟨-, ⟨⟩⟩ := Option.ite_none_right_eq_some.mp ha
      exact { Descends.refl s with
        repository := fun _ _ _ hu _ => hu
        build := fun _ _ b hb => ⟨b, Serial.find_of_find_delete hb, rfl⟩
        builds := fun b hb => .inl (List.mem_of_mem_filter hb)
        subscriptions := fun r hr => .inl ⟨r, List.mem_of_mem_filter hr, rfl, rfl⟩
        matched := fun _ _ _ hv => .inl hv }
  | createLlmConnection v name apiBase apiKeyEnc model params =>
      obtain rfl := Option.some.inj ha
      refine { Descends.refl s with connection := fun k hk c hc => ?_ }
      rw [Serial.find_insert, if_neg hk.ne] at hc
      exact ⟨c, hc, rfl⟩
  | updateLlmConnection v id name apiBase apiKeyEnc model params =>
      obtain ⟨-, ⟨⟩⟩ := Option.ite_none_right_eq_some.mp ha
      refine { Descends.refl s with connection := fun k _ c hc => ?_ }
      rw [Serial.find_update] at hc
      obtain ⟨c', hc', rfl⟩ := Option.map_eq_some_iff.mp hc
      refine ⟨c', hc', ?_⟩
      split <;> rfl
  | deleteLlmConnection v id =>
      obtain ⟨-, ⟨⟩⟩ := Option.ite_none_right_eq_some.mp ha
      exact { Descends.refl s with connection := fun _ _ c hc => ⟨c, Serial.find_of_find_delete hc, rfl⟩ }
  | upsertInstance v id buildId => apply descends_upsertInstance hs hr h ha
  | killSandbox v id =>
      obtain rfl := Option.some.inj ha
      exact { Descends.refl s with }
  | linkSandbox v id sandboxId =>
      obtain ⟨-, ⟨⟩⟩ := Option.ite_none_right_eq_some.mp ha
      exact descends_setInstance fun _ => ⟨rfl, rfl⟩
  | setRunning v id runnerId =>
      obtain ⟨-, ⟨⟩⟩ := Option.ite_none_right_eq_some.mp ha
      exact descends_setInstance fun _ => ⟨rfl, rfl⟩
  | setDown v id =>
      obtain ⟨-, ⟨⟩⟩ := Option.ite_none_right_eq_some.mp ha
      exact descends_setInstance fun _ => ⟨rfl, rfl⟩
  | runner id runnerId =>
      obtain ⟨-, ⟨⟩⟩ := Option.ite_none_right_eq_some.mp ha
      exact descends_setInstance fun _ => ⟨rfl, rfl⟩
  | _ =>
      -- the other statements write neither builds nor what refers to them
      obtain ⟨-, ⟨⟩⟩ := Option.ite_none_right_eq_some.mp ha
      exact { Descends.refl s with }

/-! ### What breaks the chain -/

theorem mem_subscribe (id : RepositoryId) (buildId : BuildId) (actions : List String)
    (refMask : Option String) :
  ∃ r ∈ (s.subscribe id buildId actions refMask).subscriptions.rows,
    r.buildId = buildId ∧ r.repositoryId = id
  := by
  rw [State.subscribe]
  dsimp only
  split
  · rename_i h
    obtain ⟨r, hr, h⟩ := List.any_eq_true.mp h
    refine ⟨{ r with actions, refMask }, List.mem_map.mpr ⟨r, hr, if_pos h⟩, ?_⟩
    obtain ⟨hb, hr⟩ := Bool.and_eq_true_iff.mp h
    exact ⟨of_decide_eq_true hb, of_decide_eq_true hr⟩
  · exact ⟨_, List.mem_append_right _ (List.mem_singleton_self _), rfl, rfl⟩

/-- A statement that names what is another user's breaks the chain. -/
theorem not_chained_of_not_own {a : Action} (hs : s.Sound) (ha : s.act a = some s')
    (hown : s.own a = false) :
  ¬ s'.Chained
  := by
  intro hchained
  cases a with
  | createBuild v input =>
      obtain ⟨⟨hc, -⟩, ⟨⟩⟩ := Option.ite_none_right_eq_some.mp ha
      obtain ⟨c, hc⟩ := Option.isSome_iff_exists.mp (Bool.and_eq_true_iff.mp hc).1
      have hu := hchained.build _ (List.mem_append_right _ (List.mem_singleton_self _)) c hc
      rw [own, hc, Option.any_some, decide_eq_false_iff_not] at hown
      apply hown hu
  | updateBuild v id input =>
      obtain ⟨⟨hb, hc, -⟩, ⟨⟩⟩ := Option.ite_none_right_eq_some.mp ha
      obtain ⟨c, hc⟩ := Option.isSome_iff_exists.mp (Bool.and_eq_true_iff.mp hc).1
      obtain ⟨b, hb, hid, hv⟩ := Table.find_any_iff.mp hb
      have hu := hchained.build { input with id := b.id, userId := b.userId }
        (List.mem_map.mpr ⟨b, hb, if_pos (decide_eq_true hid)⟩) c hc
      rw [own, hc, Option.any_some, decide_eq_false_iff_not] at hown
      apply hown
      rw [hu, of_decide_eq_true hv]
  | upsertSubscription v id buildId actions refMask =>
      obtain ⟨⟨hv, -, hb⟩, ⟨⟩⟩ := Option.ite_none_right_eq_some.mp ha
      obtain ⟨b, hb⟩ := Option.isSome_iff_exists.mp hb
      obtain ⟨r, hr, hbuild, hrepo⟩ := mem_subscribe id buildId actions refMask
      have hu := hchained.subscription r hr b (by rw [hbuild]; exact hb)
      rw [hrepo] at hu
      rw [own, hb, Option.any_some, decide_eq_false_iff_not] at hown
      apply hown ((hs.repository v id hv).2 _ hu)
  | _ => contradiction

/-- Naming what is one's own is exact for the chain. -/
theorem exact_own :
  system.Exact (fun s a => s.own a = true) (fun s => s.Sound ∧ s.Referred) Linked Chained
  := {
    always := fun _ _ _ ⟨hs, hr⟩ ha => ⟨hs.step ha, hr.step ha⟩
    kept := fun _ _ _ ⟨hs, hr⟩ h hown ha => h.descends hr (descends_of_own hs hr h ha hown)
    holds := fun _ h => h.toChained
    broken := fun _ _ _ ⟨hs, _⟩ hown ha =>
      not_chained_of_not_own hs ha (Bool.eq_false_iff.mpr hown) }

end State

/-- In every run of the hub, the builds of a user call only models of the user and only builds of the
owner are subscribed to a repository or run on it, exactly if every request that names a connection
for a build names one of its user, and every subscription a build of its user. -/
theorem chained_iff_own {s : State} (actions : List Action)
    (h : system.run (fun _ _ => True) {} actions = some s) :
  (∀ n s', system.run (fun _ _ => True) {} (actions.take n) = some s' → s'.Chained) ↔
    (system.run (fun s a => s.own a = true) {} actions).isSome = true
  := by
  apply State.exact_own.run_iff _ _ h
  · constructor
    · apply State.sound_of_reachable (.start rfl)
    · constructor <;> simp [Serial.empty, Table.empty]
  · refine ⟨?_, ?_⟩
    · constructor <;> simp [Serial.empty, Table.empty]
    · simp

/-- A user connects a repository and subscribes to it the build of another user. -/
def borrowedActions : List Action :=
  [.createLlmConnection 1 "llm" "https://api" [] "m" "", .createSandboxConnection 1 "box" "d" none none,
    .createBuild 1 ⟨"lead", 1, 1, none, none, ""⟩,
    .createRepository 2 ⟨none, "rw", "github", "7", "a", "b", none⟩,
    .upsertSubscription 2 1 1 ["push"] none, .find 2 (.matched 1 1), .upsertInstance 2 1 1]

/-- The instance then calls the model with the key of the other user. -/
theorem chained_iff_own_borrowed :
  (system.run (fun _ _ => True) {} borrowedActions).isSome = true ∧
    ¬ ∀ n s', system.run (fun _ _ => True) {} (borrowedActions.take n) = some s' → s'.Chained
  := by
  have hrun : (system.run (fun _ _ => True) {} borrowedActions).isSome = true := by decide +kernel
  obtain ⟨s, hs⟩ := Option.isSome_iff_exists.mp hrun
  refine ⟨hrun, fun h => ?_⟩
  have hown := (chained_iff_own borrowedActions hs).mp h
  revert hown
  decide +kernel

end Hub.Accounts
