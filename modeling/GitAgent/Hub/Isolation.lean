import GitAgent.Library.Selection
import GitAgent.Hub.Accounts

/-!
# What a user has

The requests of a user read the rows of the user and what belongs to the repositories of the user.
The statements of the others leave all of this as it was, but for two kinds: a build that its owner
deletes takes with it its subscriptions to the repositories of others, and a sandbox that anybody
kills is shown as dead on the instances that run in it.
-/

namespace Hub.Accounts

open State (Query Reading InstanceView)

/-- What a user has. -/
@[ext]
structure View where
  identities : List IdentityRow
  builds : List AgentBuild
  llmConnections : List LlmConnection
  repositories : List RepositoryRow
  subscriptions : List BuildSubscription
  events : List EventRecord
  instances : List InstanceView
  outputs : List OutputRow

namespace View

variable (V : View)

def owns (id : RepositoryId) : Bool :=
  V.repositories.any fun r => r.id = id

/-- What is answered to a user who has this. -/
def read : Query → Reading
  | .identities => .identities V.identities
  | .builds => .builds V.builds
  | .llmConnections => .llmConnections V.llmConnections
  | .repositories => .repositories <| V.repositories.map fun r =>
      (r, (V.subscriptions.find? fun b => b.repositoryId = r.id).map BuildSubscription.buildId)
  | .subscriptions id =>
      if V.owns id then .subscriptions (V.subscriptions.filter fun r => r.repositoryId = id)
      else .notFound
  | .events id =>
      if V.owns id then
        .events ((V.events.filter fun r => r.repositoryId = id).reverse.take 100)
      else .notFound
  | .instances id =>
      .instances (V.instances.filter fun i => id.all fun id => i.1.repositoryId = id)
  | .instance id =>
      match V.instances.find? fun i => i.1.id = id with
      | some i => .instances [i]
      | none => .notFound
  | .outputs table id =>
      if V.instances.any fun i => i.1.id = id then
        .outputs (V.outputs.filter fun r => r.table = table && r.instanceId = id).reverse
      else .notFound
  | .repositoryOutputs table id =>
      if V.owns id then
        .outputs (V.outputs.filter fun r => r.table = table &&
          V.instances.any fun i => i.1.id = r.instanceId && i.1.repositoryId = id).reverse
      else .notFound

/-- A subscription to a repository of the user. -/
def Subscribed (k : ℕ) : Prop :=
  ∃ r ∈ V.subscriptions, r.id = k

/-- An instance of the user whose sandbox is alive. -/
def Alive (id : InstanceId) : Prop :=
  ∃ i ∈ V.instances, i.1.id = id ∧ (i.2.any fun b => b.2) = true

/-- No subscription and no live sandbox has come. -/
structure Fades (V V' : View) : Prop where
  subscribed : ∀ k, V'.Subscribed k → V.Subscribed k
  alive : ∀ id, V'.Alive id → V.Alive id

/-- A subscription or a live sandbox has gone. -/
def Loses (V V' : View) : Prop :=
  (∃ k, V.Subscribed k ∧ ¬ V'.Subscribed k) ∨ ∃ id, V.Alive id ∧ ¬ V'.Alive id

variable {V} {V' V'' : View}

theorem Fades.refl (V : View) :
  V.Fades V
  := ⟨fun _ h => h, fun _ h => h⟩

theorem Fades.trans (h : V.Fades V') (h' : V'.Fades V'') :
  V.Fades V''
  := ⟨fun k hk => h.subscribed k (h'.subscribed k hk), fun id hid => h.alive id (h'.alive id hid)⟩

/-- What has gone does not come back. -/
theorem Loses.fades (h : V.Loses V') (h' : V'.Fades V'') :
  V.Loses V''
  := by
  obtain ⟨k, hk, hn⟩ | ⟨id, hid, hn⟩ := h
  · exact .inl ⟨k, hk, fun hk' => hn (h'.subscribed k hk')⟩
  · exact .inr ⟨id, hid, fun hid' => hn (h'.alive id hid')⟩

theorem Fades.loses (h : V.Fades V') (h' : V'.Loses V'') :
  V.Loses V''
  := by
  obtain ⟨k, hk, hn⟩ | ⟨id, hid, hn⟩ := h'
  · exact .inl ⟨k, h.subscribed k hk, hn⟩
  · exact .inr ⟨id, h.alive id hid, hn⟩

end View

namespace State

variable (s : State)

/-- Whether a repository belongs to a user. -/
def ownsRepository (u : UserId) (id : RepositoryId) : Bool :=
  (s.repositories.find id).any fun r => r.userId = u

/-- Whether an instance belongs to a user. -/
def ownsInstance (u : UserId) (id : InstanceId) : Bool :=
  (s.instances.find id).any fun i => s.ownsRepository u i.repositoryId

/-- The rows of a user, and what belongs to some repositories. -/
def viewOf (u : UserId) (own : RepositoryId → Bool) : View where
  identities := s.identities.rows.filter fun r => r.userId = u
  builds := s.builds.rows.filter fun r => r.userId = u
  llmConnections := s.llmConnections.rows.filter fun r => r.userId = u
  repositories := s.repositories.rows.filter fun r => r.userId = u
  subscriptions := s.subscriptions.rows.filter fun r => own r.repositoryId
  events := s.events.rows.filter fun r => own r.repositoryId
  instances := (s.instances.rows.filter fun i => own i.repositoryId).map fun i => (i, s.sandboxOf i)
  outputs := s.outputs.rows.filter fun r =>
    (s.instances.find r.instanceId).any fun i => own i.repositoryId

/-- What a user has. -/
def view (u : UserId) : View :=
  s.viewOf u (s.ownsRepository u)

/-- The statements of others that reach what a user has. -/
def touches (u : UserId) : Action → Bool
  | .deleteBuild _ id =>
      s.subscriptions.rows.any fun r => r.buildId = id && s.ownsRepository u r.repositoryId
  | .killSandbox _ id =>
      s.instances.rows.any fun i =>
        i.sandboxInstanceId = some id && s.ownsRepository u i.repositoryId &&
          (s.sandboxOf i).any fun b => b.2
  | _ => false

variable {s} {u : UserId}

theorem owner_eq_some_iff {id : RepositoryId} :
  s.owner id = some u ↔ s.ownsRepository u id = true
  := by simp [owner, ownsRepository, Option.any_eq_true]

theorem instanceOwner_eq_some_iff {id : InstanceId} :
  s.instanceOwner id = some u ↔ s.ownsInstance u id = true
  := by
  simp only [instanceOwner, ownsInstance, Option.bind_eq_some_iff, Option.any_eq_true,
    owner_eq_some_iff]

/-- A repository belongs to one user. -/
theorem ownsRepository_unique {v : UserId} {id : RepositoryId} (hu : s.ownsRepository u id = true)
    (hv : s.ownsRepository v id = true) :
  u = v
  := by
  rw [← owner_eq_some_iff] at hu hv
  rw [hu] at hv
  exact Option.some.inj hv

theorem ownsRepository_of_mem {r : RepositoryRow} (hr : r ∈ s.repositories.rows) :
  s.ownsRepository r.userId r.id = true
  := Table.find_any_iff.mpr ⟨r, hr, rfl, decide_eq_true rfl⟩

theorem ownsInstance_of_mem {i : AgentInstance} (hi : i ∈ s.instances.rows)
    (ho : s.ownsRepository u i.repositoryId = true) :
  s.ownsInstance u i.id = true
  := Table.find_any_iff.mpr ⟨i, hi, rfl, ho⟩

theorem owns_view {id : RepositoryId} :
  (s.view u).owns id = s.ownsRepository u id
  := by
  rw [Bool.eq_iff_iff, View.owns, List.any_eq_true, ownsRepository, Table.find_any_iff]
  simp only [view, viewOf, List.mem_filter, decide_eq_true_eq]
  constructor
  · rintro ⟨r, ⟨hr, hu⟩, hid⟩
    exact ⟨r, hr, hid, hu⟩
  · rintro ⟨r, hr, hid, hu⟩
    exact ⟨r, ⟨hr, hu⟩, hid⟩

theorem mem_instances_view {i : InstanceView} :
  i ∈ (s.view u).instances ↔
    ∃ j ∈ s.instances.rows, s.ownsRepository u j.repositoryId = true ∧ (j, s.sandboxOf j) = i
  := by
  simp only [view, viewOf, List.mem_map, List.mem_filter, and_assoc]

theorem any_instances_view {p : AgentInstance → Bool} :
  ((s.view u).instances.any fun i => p i.1) = true ↔
    ∃ i ∈ s.instances.rows, s.ownsRepository u i.repositoryId = true ∧ p i = true
  := by
  rw [List.any_eq_true]
  simp only [mem_instances_view]
  constructor
  · rintro ⟨_, ⟨i, hi, ho, rfl⟩, hp⟩
    exact ⟨i, hi, ho, hp⟩
  · rintro ⟨i, hi, ho, hp⟩
    exact ⟨_, ⟨i, hi, ho, rfl⟩, hp⟩

/-- What is read is read from what the user has. -/
theorem read_eq (q : Query) :
  s.read u q = (s.view u).read q
  := by
  cases q with
  | identities => rfl
  | builds => rfl
  | llmConnections => rfl
  | repositories =>
      change Reading.repositories (List.map _ _) = Reading.repositories (List.map _ _)
      congr 1
      apply List.map_congr_left
      intro r hr
      obtain ⟨hr, hu⟩ := List.mem_filter.mp hr
      rw [view, viewOf, List.find?_filter_of_imp]
      intro b _ hb
      rw [of_decide_eq_true hb, ← of_decide_eq_true hu]
      apply ownsRepository_of_mem hr
  | subscriptions id =>
      simp only [read, View.read, owner_eq_some_iff, owns_view]
      split
      · rename_i ho
        rw [view, viewOf, List.filter_filter_of_imp]
        intro r _ hr
        rw [of_decide_eq_true hr, ho]
      · rfl
  | events id =>
      simp only [read, View.read, owner_eq_some_iff, owns_view]
      split
      · rename_i ho
        rw [view, viewOf, List.filter_filter_of_imp]
        intro r _ hr
        rw [of_decide_eq_true hr, ho]
      · rfl
  | instances id =>
      change Reading.instances (s.instancesOf u id) = _
      rw [View.read, view, viewOf, List.filter_map, List.filter_filter, instancesOf]
      congr 2
      apply List.filter_congr
      intro i _
      rw [Bool.and_comm, Function.comp_apply, Bool.eq_iff_iff]
      simp only [Bool.and_eq_true, decide_eq_true_eq, owner_eq_some_iff]
  | «instance» id =>
      have hown : s.instancesOf u none = (s.view u).instances := by
        rw [instancesOf, view, viewOf]
        congr 1
        apply List.filter_congr
        intro i _
        rw [Option.all_none, Bool.and_true, Bool.eq_iff_iff, decide_eq_true_eq, owner_eq_some_iff]
      rw [read, View.read, hown] <;> rfl
  | outputs table id =>
      have hown : s.instanceOwner id = some u ↔
          ((s.view u).instances.any fun i => i.1.id = id) = true := by
        rw [any_instances_view (p := fun i => i.id = id), instanceOwner_eq_some_iff, ownsInstance,
          Table.find_any_iff]
        simp only [decide_eq_true_eq, and_comm]
      simp only [read, View.read, hown]
      split
      · rename_i ho
        obtain ⟨i, hi, ho, hid⟩ := (any_instances_view (p := fun i => i.id = id)).mp ho
        rw [view, viewOf, List.filter_filter_of_imp]
        intro r _ hr
        obtain ⟨-, hr⟩ := Bool.and_eq_true_iff.mp hr
        rw [of_decide_eq_true hr, ← of_decide_eq_true hid]
        apply ownsInstance_of_mem hi ho
      · rfl
  | repositoryOutputs table id =>
      simp only [read, View.read, owner_eq_some_iff, owns_view]
      split
      · rename_i ho
        have hat : ∀ r : OutputRow,
            ((s.instances.find r.instanceId).any fun i => decide (i.repositoryId = id)) =
              (s.view u).instances.any fun i =>
                decide (i.1.id = r.instanceId) && decide (i.1.repositoryId = id) := by
          intro r
          rw [Bool.eq_iff_iff, Table.find_any_iff,
            any_instances_view (p := fun i => i.id = r.instanceId && i.repositoryId = id)]
          simp only [Bool.and_eq_true, decide_eq_true_eq]
          constructor
          · rintro ⟨i, hi, hid, rfl⟩
            exact ⟨i, hi, ho, hid, rfl⟩
          · rintro ⟨i, hi, -, hid, hr⟩
            exact ⟨i, hi, hid, hr⟩
        simp only [← hat]
        rw [view, viewOf, List.filter_filter_of_imp]
        intro r _ hr
        obtain ⟨-, hr⟩ := Bool.and_eq_true_iff.mp hr
        obtain ⟨i, hi, hid, hrepo⟩ := Table.find_any_iff.mp hr
        rw [← of_decide_eq_true hrepo] at ho
        rw [← hid]
        apply ownsInstance_of_mem hi ho
      · rfl

/-! ### What handlers have found -/

variable (s) in
/-- What a handler has found belongs to its user, or is deleted; and keys of repositories and of
sandboxes that are referred to were handed out. -/
structure Sound : Prop where
  repository : ∀ v id, (v, .repository id) ∈ s.found →
    id < s.repositories.next ∧ ∀ u, s.ownsRepository u id = true → u = v
  «instance» : ∀ v id, (v, .instance id) ∈ s.found →
    id < s.instances.next ∧ ∀ u, s.ownsInstance u id = true → u = v
  matched : ∀ v id buildId, (v, .matched id buildId) ∈ s.found → (v, .repository id) ∈ s.found
  placed : ∀ i ∈ s.instances.rows, i.repositoryId < s.repositories.next
  linked : ∀ i ∈ s.instances.rows, ∀ id, i.sandboxInstanceId = some id → id < s.sandboxes.next

/-- What is found, as it has come about. -/
structure Ages (s s' : State) : Prop where
  repositories : s.repositories.next ≤ s'.repositories.next
  instances : s.instances.next ≤ s'.instances.next
  repository : ∀ u id, id < s.repositories.next → s'.ownsRepository u id = true →
    s.ownsRepository u id = true
  «instance» : ∀ u id, id < s.instances.next → s'.ownsInstance u id = true →
    s.ownsInstance u id = true
  placed : ∀ i ∈ s'.instances.rows, i.repositoryId < s'.repositories.next
  linked : ∀ i ∈ s'.instances.rows, ∀ id, i.sandboxInstanceId = some id → id < s'.sandboxes.next

variable {s' : State}

/-- What was found stays sound, however rows have come and gone. -/
theorem Sound.ages (h : s.Sound) (hs : s.Ages s') (hf : s'.found = s.found) :
  s'.Sound
  := by
  refine ⟨?_, ?_, ?_, hs.placed, hs.linked⟩
  · intro v id hv
    rw [hf] at hv
    obtain ⟨hlt, hv⟩ := h.repository v id hv
    exact ⟨hlt.trans_le hs.repositories, fun u hu => hv u (hs.repository u id hlt hu)⟩
  · intro v id hv
    rw [hf] at hv
    obtain ⟨hlt, hv⟩ := h.instance v id hv
    exact ⟨hlt.trans_le hs.instances, fun u hu => hv u (hs.instance u id hlt hu)⟩
  · rw [hf]
    apply h.matched

/-- A statement about other tables. -/
theorem Sound.ages_of_eq (h : s.Sound) (hr : s'.repositories = s.repositories)
    (hi : s'.instances = s.instances) (hb : s'.sandboxes = s.sandboxes) :
  s.Ages s'
  := by
  refine ⟨by rw [hr], by rw [hi], ?_, ?_, ?_, ?_⟩
  · intro u id _ hu
    rwa [ownsRepository, hr] at hu
  · intro u id _ hu
    rwa [ownsInstance, hi, show s'.ownsRepository u = s.ownsRepository u by
      funext id; rw [ownsRepository, hr, ownsRepository]] at hu
  · rw [hi, hr]
    apply h.placed
  · rw [hi, hb]
    apply h.linked

/-- The rows of instances are rewritten. -/
theorem Sound.ages_setInstance (h : s.Sound) {id : InstanceId} {f : AgentInstance → AgentInstance}
    {hf : ∀ i, (f i).id = i.id} (hrepo : ∀ i, (f i).repositoryId = i.repositoryId)
    (hbox : ∀ i k, (f i).sandboxInstanceId = some k →
      i.sandboxInstanceId = some k ∨ k < s.sandboxes.next) :
  s.Ages (s.setInstance id f hf)
  := by
  refine ⟨le_rfl, le_rfl, fun _ _ _ hu => hu, ?_, ?_, ?_⟩
  · intro u k _ hu
    rw [ownsInstance, setInstance, Serial.find_any_update fun i _ => by rw [hrepo]] at hu
    exact hu
  · intro i hi
    obtain ⟨j, hj, rfl | ⟨-, rfl⟩⟩ := Serial.exists_of_mem_update hi
    · apply h.placed i hj
    · rw [hrepo]
      apply h.placed j hj
  · intro i hi k hk
    obtain ⟨j, hj, rfl | ⟨-, rfl⟩⟩ := Serial.exists_of_mem_update hi
    · apply h.linked i hj k hk
    · rcases hbox j k hk with hk | hk
      · apply h.linked j hj k hk
      · exact hk

/-- A finding is kept. -/
theorem Sound.find {v : UserId} {f : Found} (h : s.Sound) (hf : s.finds v f = true) :
  ({ s with found := (v, f) :: s.found } : State).Sound
  := by
  refine ⟨?_, ?_, ?_, h.placed, h.linked⟩
  · intro w id hw
    rcases List.mem_cons.mp hw with hw | hw
    · obtain ⟨rfl, rfl⟩ := Prod.mk.inj hw
      have ho : s.ownsRepository w id = true :=
        owner_eq_some_iff.mp (of_decide_eq_true hf)
      obtain ⟨r, hr, -⟩ := (Option.any_eq_true ..).mp ho
      exact ⟨Serial.lt_of_find hr, fun u hu => ownsRepository_unique hu ho⟩
    · apply h.repository w id hw
  · intro w id hw
    rcases List.mem_cons.mp hw with hw | hw
    · obtain ⟨rfl, rfl⟩ := Prod.mk.inj hw
      have ho : s.ownsInstance w id = true :=
        instanceOwner_eq_some_iff.mp (of_decide_eq_true hf)
      obtain ⟨i, hi, ho⟩ := (Option.any_eq_true ..).mp ho
      refine ⟨Serial.lt_of_find hi, fun u hu => ?_⟩
      obtain ⟨j, hj, hu⟩ := (Option.any_eq_true ..).mp hu
      rw [hi] at hj
      obtain rfl := Option.some.inj hj
      apply ownsRepository_unique hu ho
    · apply h.instance w id hw
  · intro w id buildId hw
    rcases List.mem_cons.mp hw with hw | hw
    · obtain ⟨rfl, rfl⟩ := Prod.mk.inj hw
      obtain ⟨hw, -⟩ := Bool.and_eq_true_iff.mp hf
      exact List.mem_cons_of_mem _ (of_decide_eq_true hw)
    · exact List.mem_cons_of_mem _ (h.matched w id buildId hw)

/-- Rows of repositories are added. -/
theorem Sound.ages_createRepository (h : s.Sound) (mk : ℕ → RepositoryRow)
    (hmk : ∀ n, (mk n).id = n) :
  s.Ages { s with repositories := s.repositories.insert mk hmk }
  := by
  have hown : ∀ u id, id < s.repositories.next →
      ({ s with repositories := s.repositories.insert mk hmk } : State).ownsRepository u id =
        s.ownsRepository u id :=
    fun u id hlt => Serial.find_any_insert_of_lt (h := hmk) hlt
  refine ⟨Nat.le_succ _, le_rfl, fun u id hlt hu => hown u id hlt ▸ hu, ?_, ?_, h.linked⟩
  · intro u id _ hu
    obtain ⟨i, hi, hid, hu⟩ := Table.find_any_iff.mp hu
    rw [hown u _ (h.placed i hi)] at hu
    exact Table.find_any_iff.mpr ⟨i, hi, hid, hu⟩
  · intro i hi
    apply Nat.lt_succ_of_lt (h.placed i hi)

/-- Repositories keep their owners. -/
theorem Sound.ages_updateRepository (h : s.Sound) {q : RepositoryRow → Bool}
    {f : RepositoryRow → RepositoryRow} {hf : ∀ r, (f r).id = r.id}
    (huser : ∀ r, (f r).userId = r.userId) :
  s.Ages { s with repositories := s.repositories.update q f hf }
  := by
  have hown : ({ s with repositories := s.repositories.update q f hf } : State).ownsRepository =
      s.ownsRepository := by
    funext u id
    apply Serial.find_any_update
    intro r _
    rw [huser]
  refine ⟨le_rfl, le_rfl, fun u id _ hu => hown ▸ hu, ?_, h.placed, h.linked⟩
  intro u id _ hu
  rw [ownsInstance, hown] at hu
  exact hu

theorem Sound.ages_dropRepository (h : s.Sound) (id : RepositoryId) :
  s.Ages (s.dropRepository id)
  := by
  refine ⟨le_rfl, le_rfl, fun u id _ hu => Serial.any_of_find_delete hu, ?_, ?_, ?_⟩
  · intro u k _ hu
    obtain ⟨i, hi, hk, hu⟩ := Table.find_any_iff.mp hu
    exact Table.find_any_iff.mpr
      ⟨i, List.mem_of_mem_filter hi, hk, Serial.any_of_find_delete hu⟩
  · intro i hi
    apply h.placed i (List.mem_of_mem_filter hi)
  · intro i hi
    apply h.linked i (List.mem_of_mem_filter hi)

theorem Sound.ages_createSandbox (h : s.Sound) (mk : ℕ → SandboxInstance)
    (hmk : ∀ n, (mk n).id = n) :
  s.Ages { s with sandboxes := s.sandboxes.insert mk hmk }
  := by
  refine ⟨le_rfl, le_rfl, fun _ _ _ hu => hu, fun _ _ _ hu => hu, h.placed, ?_⟩
  intro i hi k hk
  apply Nat.lt_succ_of_lt (h.linked i hi k hk)

theorem Sound.ages_insertInstance (h : s.Sound) {mk : ℕ → AgentInstance}
    {hmk : ∀ n, (mk n).id = n} (hrepo : (mk s.instances.next).repositoryId < s.repositories.next)
    (hbox : (mk s.instances.next).sandboxInstanceId = none) :
  s.Ages { s with instances := s.instances.insert mk hmk }
  := by
  refine ⟨le_rfl, Nat.le_succ _, fun _ _ _ hu => hu, ?_, ?_, ?_⟩
  · intro u id hlt hu
    rw [ownsInstance, Serial.find_any_insert_of_lt hlt] at hu
    exact hu
  · intro i hi
    rcases List.mem_append.mp hi with hi | hi
    · apply h.placed i hi
    · rw [List.mem_singleton.mp hi]
      exact hrepo
  · intro i hi k hk
    rcases List.mem_append.mp hi with hi | hi
    · apply h.linked i hi k hk
    · rw [List.mem_singleton.mp hi, hbox] at hk
      contradiction

theorem lt_of_isSome_owner {id : RepositoryId} (h : (s.owner id).isSome = true) :
  id < s.repositories.next
  := by
  rw [owner, Option.isSome_map] at h
  obtain ⟨r, hr⟩ := Option.isSome_iff_exists.mp h
  apply Serial.lt_of_find hr

/-- Whatever the statement, what handlers have found stays sound. -/
theorem Sound.step {a : Action} (h : s.Sound) (ha : s.act a = some s') :
  s'.Sound
  := by
  cases a with
  | find v f =>
      obtain ⟨hf, ⟨⟩⟩ := Option.ite_none_right_eq_some.mp ha
      apply h.find hf
  | createRepository v input =>
      obtain ⟨-, ⟨⟩⟩ := Option.ite_none_right_eq_some.mp ha
      have hs := h.ages (h.ages_createRepository (fun n => { input with id := n, userId := v })
        fun _ => rfl) rfl
      apply hs.find (f := .repository s.repositories.next)
      apply decide_eq_true
      rw [owner_eq_some_iff]
      apply ownsRepository_of_mem (r := { input with id := s.repositories.next, userId := v })
      exact List.mem_append_right _ (List.mem_singleton_self _)
  | setWebhook v id hookId =>
      obtain ⟨-, ⟨⟩⟩ := Option.ite_none_right_eq_some.mp ha
      exact h.ages (h.ages_updateRepository fun _ => rfl) rfl
  | deleteRepository v id =>
      obtain ⟨-, ⟨⟩⟩ := Option.ite_none_right_eq_some.mp ha
      exact h.ages (h.ages_dropRepository id) rfl
  | createSandbox v externalId connectionId =>
      obtain ⟨-, ⟨⟩⟩ := Option.ite_none_right_eq_some.mp ha
      exact h.ages (h.ages_createSandbox _ fun _ => rfl) rfl
  | killSandbox v id =>
      obtain rfl := Option.some.inj ha
      exact ⟨h.repository, h.instance, h.matched, h.placed, h.linked⟩
  | linkSandbox v id sandboxId =>
      obtain ⟨⟨-, hbox⟩, ⟨⟩⟩ := Option.ite_none_right_eq_some.mp ha
      obtain ⟨r, hr⟩ := Option.isSome_iff_exists.mp hbox
      have hnew : ∀ (i : AgentInstance) k,
          ({ i with sandboxInstanceId := some sandboxId } : AgentInstance).sandboxInstanceId =
            some k → i.sandboxInstanceId = some k ∨ k < s.sandboxes.next := by
        intro i k hk
        rw [← Option.some.inj hk]
        exact .inr (Serial.lt_of_find hr)
      exact h.ages (h.ages_setInstance (fun _ => rfl) hnew) rfl
  | upsertInstance v id buildId =>
      obtain ⟨⟨-, ho, -⟩, ha⟩ := Option.ite_none_right_eq_some.mp ha
      split at ha
      · obtain rfl := Option.some.inj ha
        exact h
      · obtain rfl := Option.some.inj ha
        exact h.ages (h.ages_insertInstance (lt_of_isSome_owner ho) rfl) rfl
  | setRunning v id runnerId =>
      obtain ⟨-, ⟨⟩⟩ := Option.ite_none_right_eq_some.mp ha
      exact h.ages (h.ages_setInstance (fun _ => rfl) fun _ _ hk => .inl hk) rfl
  | setDown v id =>
      obtain ⟨-, ⟨⟩⟩ := Option.ite_none_right_eq_some.mp ha
      exact h.ages (h.ages_setInstance (fun _ => rfl) fun _ _ hk => .inl hk) rfl
  | runner id runnerId =>
      obtain ⟨-, ⟨⟩⟩ := Option.ite_none_right_eq_some.mp ha
      exact h.ages (h.ages_setInstance (fun _ => rfl) fun _ _ hk => .inl hk) rfl
  | createLlmConnection v name apiBase apiKeyEnc model params =>
      obtain rfl := Option.some.inj ha
      exact h.ages (h.ages_of_eq rfl rfl rfl) rfl
  | _ =>
      -- the other statements write neither repositories nor instances nor sandboxes
      obtain ⟨-, ⟨⟩⟩ := Option.ite_none_right_eq_some.mp ha
      exact h.ages (h.ages_of_eq rfl rfl rfl) rfl

theorem sound_of_reachable (h : system.Reachable s) :
  s.Sound
  := by
  apply h.invariant
  · rintro _ rfl
    constructor <;> simp [Serial.empty, Table.empty]
  · intro s a s' h _ ha
    apply h.step ha

/-! ### What the others do -/

/-- A statement that changes no owner of a repository. -/
theorem view_eq (hown : s'.ownsRepository u = s.ownsRepository u)
    (h : s'.viewOf u (s.ownsRepository u) = s.viewOf u (s.ownsRepository u)) :
  s'.view u = s.view u
  := by rw [view, hown, h, view]

theorem not_ownsInstance {i : AgentInstance} (hi : i ∈ s.instances.rows)
    (h : s.ownsInstance u i.id = false) :
  s.ownsRepository u i.repositoryId = false
  := by
  rw [← Bool.not_eq_true]
  intro ho
  rw [ownsInstance_of_mem hi ho] at h
  contradiction

/-- The row of an instance of another user is rewritten. -/
theorem view_setInstance {id : InstanceId} {f : AgentInstance → AgentInstance}
    {hf : ∀ i, (f i).id = i.id} (hrepo : ∀ i, (f i).repositoryId = i.repositoryId)
    (h : s.ownsInstance u id = false) :
  (s.setInstance id f hf).view u = s.view u
  := by
  refine view_eq rfl (View.ext rfl rfl rfl rfl rfl rfl ?_ ?_)
  · apply congrArg (List.map _) (Serial.filter_update _)
    intro i hi hid
    rw [hrepo, and_self]
    apply not_ownsInstance hi
    rw [of_decide_eq_true hid, h]
  · apply List.filter_congr
    intro r _
    apply Serial.find_any_update
    intro i _
    rw [hrepo]

/-- An instance of another user is raised for the first time. -/
theorem view_insertInstance {mk : ℕ → AgentInstance} {hmk : ∀ n, (mk n).id = n}
    (h : s.ownsRepository u (mk s.instances.next).repositoryId = false) :
  ({ s with instances := s.instances.insert mk hmk } : State).view u = s.view u
  := by
  refine view_eq rfl (View.ext rfl rfl rfl rfl rfl rfl ?_ ?_)
  · exact congrArg (List.map _) (Serial.filter_insert (h := hmk) h)
  · apply List.filter_congr
    intro r _
    exact Serial.find_any_insert (h := hmk) h _

/-- A repository of another user is deleted, with what belongs to it. -/
theorem view_dropRepository {id : RepositoryId} (h : s.ownsRepository u id = false) :
  (s.dropRepository id).view u = s.view u
  := by
  have hrepo : ∀ r ∈ s.repositories.rows, decide (r.id = id) = true →
      decide (r.userId = u) = false := by
    intro r hr hid
    rw [decide_eq_false_iff_not]
    rintro rfl
    rw [← of_decide_eq_true hid, ownsRepository_of_mem hr] at h
    contradiction
  have hid : ∀ k, decide (k = id) = true → s.ownsRepository u k = false := by
    intro k hk
    rw [of_decide_eq_true hk, h]
  apply view_eq
  · funext k
    apply Serial.find_any_delete hrepo
  · refine View.ext rfl rfl rfl (Serial.filter_delete hrepo)
      (Serial.filter_delete fun r _ => hid r.repositoryId)
      (Serial.filter_delete fun r _ => hid r.repositoryId)
      (congrArg (List.map _) (Serial.filter_delete fun i _ => hid i.repositoryId)) ?_
    have hfind : ∀ k, ((s.dropRepository id).instances.find k).any
        (fun i => s.ownsRepository u i.repositoryId) =
          (s.instances.find k).any fun i => s.ownsRepository u i.repositoryId :=
      Serial.find_any_delete fun i _ => hid i.repositoryId
    simp only [viewOf, hfind]
    apply Serial.filter_delete
    intro r _ hr
    obtain ⟨i, hi, hrepo⟩ := (Option.any_eq_true ..).mp hr
    rw [hi, Option.any_some, hid i.repositoryId hrepo]

/-- The sandbox of an instance of the user is as it was. -/
theorem view_sandboxes {sandboxes : Serial SandboxInstance SandboxInstance.id}
    (h : ∀ i ∈ s.instances.rows, s.ownsRepository u i.repositoryId = true →
      ({ s with sandboxes } : State).sandboxOf i = s.sandboxOf i) :
  ({ s with sandboxes } : State).view u = s.view u
  := by
  refine view_eq rfl (View.ext rfl rfl rfl rfl rfl rfl ?_ rfl)
  apply List.map_congr_left
  intro i hi
  obtain ⟨hi, ho⟩ := List.mem_filter.mp hi
  rw [h i hi ho]

/-- A new sandbox is linked to no instance yet. -/
theorem view_createSandbox (hs : s.Sound) {mk : ℕ → SandboxInstance} {hmk : ∀ n, (mk n).id = n} :
  ({ s with sandboxes := s.sandboxes.insert mk hmk } : State).view u = s.view u
  := by
  apply view_sandboxes
  intro i hi _
  rw [sandboxOf, sandboxOf]
  cases hk : i.sandboxInstanceId with
  | none => rfl
  | some k =>
      rw [Option.bind_some, Option.bind_some, Serial.find_insert,
        if_neg (hs.linked i hi k hk).ne]

/-- A sandbox is killed in which no instance of the user lives. -/
theorem view_killSandbox {v : UserId} {id : ℕ} (h : s.touches u (.killSandbox v id) = false)
    (ha : s.act (.killSandbox v id) = some s') :
  s'.view u = s.view u
  := by
  obtain rfl := Option.some.inj ha
  apply view_sandboxes
  intro i hi ho
  have hnot := List.any_eq_false.mp h i hi
  rw [sandboxOf, sandboxOf]
  cases hk : i.sandboxInstanceId with
  | none => rfl
  | some k =>
      rw [Option.bind_some, Option.bind_some, Serial.find_update, Option.map_map]
      cases hb : s.sandboxes.find k with
      | none => rfl
      | some b =>
          rw [Option.map_some, Option.map_some, Function.comp_apply]
          split
          · rename_i hid
            have hbox : s.sandboxOf i = some (b.externalId, b.alive) := by
              rw [sandboxOf, hk, Option.bind_some, hb, Option.map_some]
            have hk' : k = id := by rw [← Table.key_of_find hb, of_decide_eq_true hid]
            rw [hk, hk', ho, hbox] at hnot
            have halive : b.alive = false := by simpa using hnot
            rw [halive]
          · rfl

theorem not_ownsRepository_of_found (hs : s.Sound) {v : UserId} {id : RepositoryId}
    (hv : (v, .repository id) ∈ s.found) (h : v ≠ u) :
  s.ownsRepository u id = false
  := by
  rw [← Bool.not_eq_true]
  intro ho
  apply h ((hs.repository v id hv).2 u ho).symm

theorem not_ownsInstance_of_found (hs : s.Sound) {v : UserId} {id : InstanceId}
    (hv : (v, .instance id) ∈ s.found) (h : v ≠ u) :
  s.ownsInstance u id = false
  := by
  rw [← Bool.not_eq_true]
  intro ho
  apply h ((hs.instance v id hv).2 u ho).symm

theorem not_ownsInstance_of_owner {id : InstanceId} (h : s.instanceOwner id ≠ some u) :
  s.ownsInstance u id = false
  := by
  rw [← Bool.not_eq_true]
  intro ho
  apply h (instanceOwner_eq_some_iff.mpr ho)

/-- A build of another user is deleted that is subscribed to no repository of the user. -/
theorem view_deleteBuild {v : UserId} {id : BuildId} (hv : v ≠ u)
    (h : s.touches u (.deleteBuild v id) = false) (ha : s.act (.deleteBuild v id) = some s') :
  s'.view u = s.view u
  := by
  obtain ⟨⟨hb, -⟩, ⟨⟩⟩ := Option.ite_none_right_eq_some.mp ha
  obtain ⟨b, hb, hbid, hbuser⟩ := Table.find_any_iff.mp hb
  refine view_eq rfl (View.ext rfl (Serial.filter_delete ?_) rfl rfl (Serial.filter_delete ?_)
    rfl rfl rfl)
  · intro r hr hid
    have hrb : r = b := by
      have hfind := s.builds.find_of_mem hr
      rw [of_decide_eq_true hid, ← hbid, s.builds.find_of_mem hb] at hfind
      exact (Option.some.inj hfind).symm
    rw [hrb, of_decide_eq_true hbuser]
    exact decide_eq_false hv
  · intro r hr hid
    have hnot := List.any_eq_false.mp h r hr
    rw [hid, Bool.true_and, Bool.not_eq_true] at hnot
    exact hnot

/-- A statement of another user that does not reach what a user has leaves it as it was. -/
theorem view_step {a : Action} (hs : s.Sound) (ha : s.act a = some s') (hother : s.actor a ≠ some u)
    (ht : s.touches u a = false) :
  s'.view u = s.view u
  := by
  have hne : ∀ {v : UserId}, s.actor a = some v → v ≠ u := by
    rintro v hv rfl
    apply hother hv
  cases a with
  | addIdentity v provider providerUserId username =>
      obtain ⟨-, ⟨⟩⟩ := Option.ite_none_right_eq_some.mp ha
      exact View.ext (Serial.filter_insert (decide_eq_false (hne rfl))) rfl rfl rfl rfl rfl rfl rfl
  | updateIdentity id username =>
      obtain ⟨-, ⟨⟩⟩ := Option.ite_none_right_eq_some.mp ha
      refine View.ext (Serial.filter_update ?_) rfl rfl rfl rfl rfl rfl rfl
      intro r hr hid
      rw [and_self, decide_eq_false_iff_not]
      rintro rfl
      apply hother
      rw [actor, identityOwner, ← of_decide_eq_true hid, s.identities.find_of_mem hr,
        Option.map_some]
  | deleteIdentity v id =>
      obtain ⟨⟨ho, -⟩, ⟨⟩⟩ := Option.ite_none_right_eq_some.mp ha
      refine View.ext (Serial.filter_delete ?_) rfl rfl rfl rfl rfl rfl rfl
      intro r hr hid
      rw [decide_eq_false_iff_not]
      rintro rfl
      rw [identityOwner, ← of_decide_eq_true hid, s.identities.find_of_mem hr, Option.map_some] at ho
      exact hne rfl (Option.some.inj ho).symm
  | find v f =>
      obtain ⟨-, ⟨⟩⟩ := Option.ite_none_right_eq_some.mp ha
      rfl
  | createRepository v input =>
      obtain ⟨-, ⟨⟩⟩ := Option.ite_none_right_eq_some.mp ha
      have hv : decide (v = u) = false := decide_eq_false (hne rfl)
      apply view_eq
      · funext id
        exact Serial.find_any_insert hv id
      · exact View.ext rfl rfl rfl (Serial.filter_insert hv) rfl rfl rfl rfl
  | setWebhook v id hookId =>
      obtain ⟨hv, ⟨⟩⟩ := Option.ite_none_right_eq_some.mp ha
      have hnot := not_ownsRepository_of_found hs hv (hne rfl)
      apply view_eq
      · funext id
        apply Serial.find_any_update
        exact fun _ _ => rfl
      · refine View.ext rfl rfl rfl (Serial.filter_update ?_) rfl rfl rfl rfl
        intro r hr hid
        rw [and_self, decide_eq_false_iff_not]
        rintro rfl
        rw [← of_decide_eq_true hid, ownsRepository_of_mem hr] at hnot
        contradiction
  | deleteRepository v id =>
      obtain ⟨hv, ⟨⟩⟩ := Option.ite_none_right_eq_some.mp ha
      apply view_dropRepository (not_ownsRepository_of_found hs hv (hne rfl))
  | upsertSubscription v id buildId actions refMask =>
      obtain ⟨⟨hv, -⟩, ⟨⟩⟩ := Option.ite_none_right_eq_some.mp ha
      have hnot := not_ownsRepository_of_found hs hv (hne rfl)
      refine view_eq rfl (View.ext rfl rfl rfl rfl ?_ rfl rfl rfl)
      change List.filter _ (ite _ _ _ : Serial _ _).rows = _
      split
      · apply Serial.filter_update
        intro r hr hid
        obtain ⟨-, hid⟩ := Bool.and_eq_true_iff.mp hid
        rw [of_decide_eq_true hid, hnot, and_self]
      · exact Serial.filter_insert hnot
  | deleteSubscription v id =>
      obtain ⟨ho, ⟨⟩⟩ := Option.ite_none_right_eq_some.mp ha
      refine view_eq rfl (View.ext rfl rfl rfl rfl (Serial.filter_delete ?_) rfl rfl rfl)
      intro r hr hid
      rw [← of_decide_eq_true hid, s.subscriptions.find_of_mem hr, Option.any_some,
        decide_eq_true_eq, owner_eq_some_iff] at ho
      rw [← Bool.not_eq_true]
      intro hu
      exact hne rfl (ownsRepository_unique ho hu)
  | createBuild v input =>
      obtain ⟨-, ⟨⟩⟩ := Option.ite_none_right_eq_some.mp ha
      exact View.ext rfl (Serial.filter_insert (decide_eq_false (hne rfl))) rfl rfl rfl rfl rfl rfl
  | updateBuild v id input =>
      obtain ⟨⟨hb, -⟩, ⟨⟩⟩ := Option.ite_none_right_eq_some.mp ha
      refine View.ext rfl (Serial.filter_update ?_) rfl rfl rfl rfl rfl rfl
      intro r hr hid
      rw [← of_decide_eq_true hid, s.builds.find_of_mem hr, Option.any_some] at hb
      rw [and_self, of_decide_eq_true hb]
      exact decide_eq_false (hne rfl)
  | deleteBuild v id => apply view_deleteBuild (hne rfl) ht ha
  | createLlmConnection v name apiBase apiKeyEnc model params =>
      obtain rfl := Option.some.inj ha
      exact View.ext rfl rfl (Serial.filter_insert (decide_eq_false (hne rfl))) rfl rfl rfl rfl rfl
  | updateLlmConnection v id name apiBase apiKeyEnc model params =>
      obtain ⟨hc, ⟨⟩⟩ := Option.ite_none_right_eq_some.mp ha
      refine View.ext rfl rfl (Serial.filter_update ?_) rfl rfl rfl rfl rfl
      intro r hr hid
      rw [← of_decide_eq_true hid, s.llmConnections.find_of_mem hr, Option.any_some] at hc
      rw [and_self, of_decide_eq_true hc]
      exact decide_eq_false (hne rfl)
  | deleteLlmConnection v id =>
      obtain ⟨⟨hc, -⟩, ⟨⟩⟩ := Option.ite_none_right_eq_some.mp ha
      refine View.ext rfl rfl (Serial.filter_delete ?_) rfl rfl rfl rfl rfl
      intro r hr hid
      rw [← of_decide_eq_true hid, s.llmConnections.find_of_mem hr, Option.any_some] at hc
      rw [of_decide_eq_true hc]
      exact decide_eq_false (hne rfl)
  | createSandboxConnection v name domain apiKeyEnc image =>
      obtain ⟨-, ⟨⟩⟩ := Option.ite_none_right_eq_some.mp ha
      rfl
  | deleteSandboxConnection v id =>
      obtain ⟨-, ⟨⟩⟩ := Option.ite_none_right_eq_some.mp ha
      rfl
  | createSandbox v externalId connectionId =>
      obtain ⟨-, ⟨⟩⟩ := Option.ite_none_right_eq_some.mp ha
      apply view_createSandbox hs
  | killSandbox v id => apply view_killSandbox ht ha
  | linkSandbox v id sandboxId =>
      obtain ⟨⟨ho, -⟩, ⟨⟩⟩ := Option.ite_none_right_eq_some.mp ha
      exact view_setInstance (fun _ => rfl) (not_ownsInstance_of_owner (ho ▸ hother))
  | upsertInstance v id buildId =>
      obtain ⟨⟨hv, -⟩, ha⟩ := Option.ite_none_right_eq_some.mp ha
      split at ha
      · rw [← Option.some.inj ha]
      · rw [← Option.some.inj ha]
        apply view_insertInstance
        exact not_ownsRepository_of_found hs (hs.matched v id buildId hv) (hne rfl)
  | setRunning v id runnerId =>
      obtain ⟨hv, ⟨⟩⟩ := Option.ite_none_right_eq_some.mp ha
      exact view_setInstance (fun _ => rfl) (not_ownsInstance_of_found hs hv (hne rfl))
  | setDown v id =>
      obtain ⟨hv, ⟨⟩⟩ := Option.ite_none_right_eq_some.mp ha
      exact view_setInstance (fun _ => rfl) (not_ownsInstance_of_found hs hv (hne rfl))
  | ingest id content =>
      obtain ⟨-, ⟨⟩⟩ := Option.ite_none_right_eq_some.mp ha
      refine view_eq rfl (View.ext rfl rfl rfl rfl rfl (Serial.filter_insert ?_) rfl rfl)
      rw [← Bool.not_eq_true]
      intro ho
      apply hother (owner_eq_some_iff.mpr ho)
  | runner id runnerId =>
      obtain ⟨-, ⟨⟩⟩ := Option.ite_none_right_eq_some.mp ha
      exact view_setInstance (fun _ => rfl) (not_ownsInstance_of_owner hother)
  | output table id content =>
      obtain ⟨-, ⟨⟩⟩ := Option.ite_none_right_eq_some.mp ha
      refine view_eq rfl (View.ext rfl rfl rfl rfl rfl rfl rfl (Serial.filter_insert ?_))
      exact not_ownsInstance_of_owner hother

/-! ### What reaches a user -/

theorem subscribed_view {k : ℕ} :
  (s.view u).Subscribed k ↔
    ∃ r ∈ s.subscriptions.rows, s.ownsRepository u r.repositoryId = true ∧ r.id = k
  := by simp only [View.Subscribed, view, viewOf, List.mem_filter, and_assoc]

theorem alive_view {id : InstanceId} :
  (s.view u).Alive id ↔ ∃ i ∈ s.instances.rows, s.ownsRepository u i.repositoryId = true ∧
    i.id = id ∧ ((s.sandboxOf i).any fun b => b.2) = true
  := by
  simp only [View.Alive, mem_instances_view]
  constructor
  · rintro ⟨_, ⟨i, hi, ho, rfl⟩, hid, hb⟩
    exact ⟨i, hi, ho, hid, hb⟩
  · rintro ⟨i, hi, ho, hid, hb⟩
    exact ⟨_, ⟨i, hi, ho, rfl⟩, hid, hb⟩

/-- A build is deleted that is subscribed to a repository of another user. -/
theorem loses_deleteBuild {v : UserId} {id : BuildId} (h : s.touches u (.deleteBuild v id) = true)
    (ha : s.act (.deleteBuild v id) = some s') :
  (s.view u).Fades (s'.view u) ∧ (s.view u).Loses (s'.view u)
  := by
  obtain ⟨-, ⟨⟩⟩ := Option.ite_none_right_eq_some.mp ha
  constructor
  · refine ⟨fun k hk => ?_, fun _ hid => hid⟩
    obtain ⟨r, hr, ho, hk⟩ := subscribed_view.mp hk
    exact subscribed_view.mpr ⟨r, List.mem_of_mem_filter hr, ho, hk⟩
  · obtain ⟨r, hr, h⟩ := List.any_eq_true.mp h
    obtain ⟨hid, ho⟩ := Bool.and_eq_true_iff.mp h
    refine .inl ⟨r.id, subscribed_view.mpr ⟨r, hr, ho, rfl⟩, fun hk => ?_⟩
    obtain ⟨r', hr', -, hk⟩ := subscribed_view.mp hk
    obtain ⟨hr', hid'⟩ := List.mem_filter.mp hr'
    obtain rfl := List.inj_on_of_nodup_map s.subscriptions.nodup hr' hr hk
    exact absurd hid (by simpa using hid')

/-- After a sandbox is killed, what it shows is as before, or it is dead. -/
theorem sandboxOf_kill (i : AgentInstance) (id : ℕ) {s' : State} {v : UserId}
    (ha : s.act (.killSandbox v id) = some s') :
  s'.sandboxOf i =
    (s.sandboxOf i).map fun b => (b.1, b.2 && i.sandboxInstanceId ≠ some id)
  := by
  obtain rfl := Option.some.inj ha
  rw [sandboxOf, sandboxOf]
  cases hk : i.sandboxInstanceId with
  | none => rfl
  | some k =>
      rw [Option.bind_some, Option.bind_some, Serial.find_update]
      cases hb : s.sandboxes.find k with
      | none => rfl
      | some b =>
          obtain rfl := Table.key_of_find hb
          by_cases hid : b.id = id <;> simp [hid]

/-- A sandbox is killed in which an instance of another user lives. -/
theorem loses_killSandbox {v : UserId} {id : ℕ} (h : s.touches u (.killSandbox v id) = true)
    (ha : s.act (.killSandbox v id) = some s') :
  (s.view u).Fades (s'.view u) ∧ (s.view u).Loses (s'.view u)
  := by
  have hbox := fun i => sandboxOf_kill i id ha
  obtain rfl := Option.some.inj ha
  constructor
  · refine ⟨fun _ hk => hk, fun k hk => ?_⟩
    obtain ⟨i, hi, ho, hid, hb⟩ := alive_view.mp hk
    refine alive_view.mpr ⟨i, hi, ho, hid, ?_⟩
    rw [hbox, Option.any_map] at hb
    obtain ⟨b, hb, halive⟩ := (Option.any_eq_true ..).mp hb
    exact (Option.any_eq_true ..).mpr ⟨b, hb, (Bool.and_eq_true_iff.mp halive).1⟩
  · obtain ⟨i, hi, h⟩ := List.any_eq_true.mp h
    obtain ⟨h, halive⟩ := Bool.and_eq_true_iff.mp h
    obtain ⟨hid, ho⟩ := Bool.and_eq_true_iff.mp h
    refine .inr ⟨i.id, alive_view.mpr ⟨i, hi, ho, rfl, halive⟩, fun hk => ?_⟩
    obtain ⟨j, hj, -, hk, hb⟩ := alive_view.mp hk
    obtain rfl := List.inj_on_of_nodup_map s.instances.nodup hj hi hk
    rw [hbox, Option.any_map] at hb
    obtain ⟨b, -, halive⟩ := (Option.any_eq_true ..).mp hb
    obtain ⟨-, hne⟩ := Bool.and_eq_true_iff.mp halive
    apply of_decide_eq_true hne (of_decide_eq_true hid)

/-- A statement of another user reaches what a user has, or leaves it as it was. -/
theorem loses_or_eq {a : Action} (hs : s.Sound) (ha : s.act a = some s')
    (hother : s.actor a ≠ some u) :
  (s.touches u a = true ∧ (s.view u).Fades (s'.view u) ∧ (s.view u).Loses (s'.view u)) ∨
    (s.touches u a = false ∧ s'.view u = s.view u)
  := by
  cases ht : s.touches u a with
  | false => exact .inr ⟨rfl, view_step hs ha hother ht⟩
  | true =>
      cases a with
      | deleteBuild v id => exact .inl ⟨rfl, loses_deleteBuild ht ha⟩
      | killSandbox v id => exact .inl ⟨rfl, loses_killSandbox ht ha⟩
      | _ => contradiction

/-- The others run, and reach what a user has in no step, or something of it has gone. -/
theorem run_others {actions : List Action} (hs : s.Sound)
    (h : system.run (fun s a => s.actor a ≠ some u) s actions = some s') :
  (s.view u).Fades (s'.view u) ∧
    ((system.run (fun s a => s.actor a ≠ some u ∧ s.touches u a = false) s actions = some s' ∧
        s'.view u = s.view u) ∨
      (system.run (fun s a => s.actor a ≠ some u ∧ s.touches u a = false) s actions = none ∧
        (s.view u).Loses (s'.view u)))
  := by
  induction actions generalizing s with
  | nil =>
      obtain rfl := Option.some.inj h
      exact ⟨.refl _, .inl ⟨rfl, rfl⟩⟩
  | cons a actions ih =>
      rw [Transition.System.run] at h ⊢
      obtain ⟨hother, h⟩ := Option.ite_none_right_eq_some.mp h
      obtain ⟨t, ht, h⟩ := Option.bind_eq_some_iff.mp h
      obtain ⟨hfades, hrun⟩ := ih (hs.step ht) h
      obtain ⟨htouch, hfade, hlose⟩ | ⟨htouch, hview⟩ := loses_or_eq hs ht hother
      · refine ⟨hfade.trans hfades, .inr ⟨?_, hlose.fades hfades⟩⟩
        rw [if_neg (by simp [htouch])]
      · rw [if_pos ⟨hother, htouch⟩]
        rw [hview] at hfades hrun
        refine ⟨hfades, ?_⟩
        rw [show system.step s a = some t from ht, Option.bind_some]
        exact hrun

/-- What is read tells which subscriptions a user has, and which of the sandboxes are alive. -/
theorem not_loses_of_read (h : ∀ q, s'.read u q = s.read u q) :
  ¬ (s.view u).Loses (s'.view u)
  := by
  simp only [read_eq] at h
  rintro (⟨k, hk, hn⟩ | ⟨id, hid, hn⟩)
  · obtain ⟨r, hr, hk⟩ := hk
    have ho : (s.view u).owns r.repositoryId = true := by
      rw [owns_view]
      exact (List.mem_filter.mp hr).2
    have hread := h (.subscriptions r.repositoryId)
    rw [View.read, View.read, if_pos ho] at hread
    split at hread
    · rw [Reading.subscriptions.injEq] at hread
      apply hn
      refine ⟨r, List.mem_of_mem_filter (hread ▸ List.mem_filter.mpr ⟨hr, ?_⟩), hk⟩
      exact decide_eq_true rfl
    · contradiction
  · have hread := h (.instances none)
    rw [View.read, View.read, Reading.instances.injEq] at hread
    simp only [Option.all_none, List.filter_true] at hread
    rw [View.Alive, hread] at hn
    apply hn hid

end State

/-- A user connects a repository, subscribes a build to it and raises an instance in a sandbox. -/
def sampleActions : List Action :=
  [.createLlmConnection 1 "llm" "https://api" [] "m" "", .createSandboxConnection 1 "box" "d" none none,
    .createBuild 1 ⟨"lead", 1, 1, none, none, ""⟩,
    .createRepository 1 ⟨none, "rw", "github", "7", "a", "b", none⟩,
    .upsertSubscription 1 1 1 ["push"] none, .find 1 (.matched 1 1), .upsertInstance 1 1 1,
    .createSandbox 1 "x" 1, .linkSandbox 1 1 1]

end Hub.Accounts
