import GitAgent.Hub.Deliveries
import GitAgent.Library.Unwinding

/-!
# Tenants

The hub as a machine whose actions are deliveries. The deliveries about the repositories of one
user do not change what the others get, as long as no delivery of another user comes under the
id of a delivery of theirs that was recorded first: the journal holds a delivery id once for
each provider, whatever the repository.
-/

namespace Hub

/-- The hub, as a machine that takes deliveries. -/
def hub (config : Config) : Machine Db Delivery (Option Fanned) where
  next db a := (db.deliver config a).1
  out db a := (db.deliver config a).2

/-- Two messages are the same up to the ids of the event and of the rows. -/
def SameMessage (m m' : Option (BuildId × RepositoryId × String) × OutboxRow) : Prop :=
  m.1 = m'.1 ∧ ∃ routingKey threadId repo e eventId eventId' id id' n n',
    m.2 = .fresh eventId routingKey (eventMessage eventId id threadId repo e) n ∧
    m'.2 = .fresh eventId' routingKey (eventMessage eventId' id' threadId repo e) n'

/-- Both deliveries are duplicates, or the same instances get the same messages. -/
def Fanned.Same (f f' : Fanned) : Prop :=
  f.duplicate = f'.duplicate ∧ List.Forall₂ SameMessage f.messages f'.messages

namespace Db

/-- The user that a repository belongs to. -/
def owner (db : Db) (repositoryId : RepositoryId) : Option UserId :=
  (db.repositories.find repositoryId).map Repository.userId

/-- The deliveries that are not about a repository of the user `A`. -/
def othersThan (db : Db) (A : UserId) (a : Delivery) : Bool :=
  db.owner a.repositoryId ≠ some A

/-- An event that was recorded after `db`, about a repository of the user `A`. -/
def Foreign (db : Db) (A : UserId) (r : EventRow) : Prop :=
  db.events.next ≤ r.id ∧ db.owner r.repositoryId = some A

/-- What is offered does not come under the delivery id of an event that was recorded after
`db₀` about a repository of the user `A`. -/
def Unclaimed (config : Config) (db₀ : Db) (A : UserId) (db : Db) (a : Delivery) : Prop :=
  ∀ p ∈ db.offered config a, ∀ r ∈ db.delivered p.1.provider p.2.1.deliveryId,
    ¬ db₀.Foreign A r

/-- The databases of two runs from `db₀`, where the second run lacks the deliveries about the
repositories of `A`: they are alike but for the events of these deliveries. -/
structure Purged (db₀ : Db) (A : UserId) (db db' : Db) : Prop where
  alike : Alike db db'
  sound : db.Sound
  sound' : db'.Sound
  repositories : db.repositories = db₀.repositories
  next : db₀.events.next ≤ db.events.next
  delivered : ∀ provider deliveryId, (db'.delivered provider deliveryId).isSome ↔
    ∃ r, db.delivered provider deliveryId = some r ∧ ¬ db₀.Foreign A r

instance (db : Db) (A : UserId) (r : EventRow) : Decidable (db.Foreign A r) :=
  inferInstanceAs (Decidable (_ ∧ _))

instance (config : Config) (db₀ : Db) (A : UserId) (db : Db) (a : Delivery) :
    Decidable (Unclaimed config db₀ A db a) :=
  inferInstanceAs (Decidable (∀ p ∈ db.offered config a,
    ∀ r ∈ db.delivered p.1.provider p.2.1.deliveryId, ¬ db₀.Foreign A r))

variable {db₀ db db' : Db} {A : UserId} {repo : Repository} {e : Event} {payload : String}

theorem delivered_congr (h : db'.events = db.events) :
  db'.delivered = db.delivered
  := by
  funext provider deliveryId
  rw [delivered, h, delivered]

/-- What was delivered after the insertion of an event. -/
theorem delivered_insertEvent (provider deliveryId : String) :
  (db.insertEvent repo e payload).delivered provider deliveryId =
    (db.delivered provider deliveryId).or
      (if repo.provider = provider ∧ e.deliveryId = deliveryId then
        some (EventRow.of repo e payload db.events.next) else none)
  := by
  rw [delivered, insertEvent, Serial.rows_insert, List.find?_append, ← delivered]
  congr 1
  simp only [List.find?_cons, List.find?_nil, EventRow.of]
  split <;> simp_all

/-- At the start the two runs are in the same database. -/
theorem Purged.refl (hs : db₀.Sound) (A : UserId) :
  Purged db₀ A db₀ db₀
  := by
  refine ⟨Alike.refl db₀, hs, hs, rfl, le_rfl, ?_⟩
  intro provider deliveryId
  constructor
  · intro h
    obtain ⟨r, hr⟩ := Option.isSome_iff_exists.mp h
    refine ⟨r, hr, fun hf => ?_⟩
    apply absurd hf.1 (Nat.not_le.mpr (db₀.events.lt_next r (List.mem_of_find?_eq_some hr)))
  · rintro ⟨r, hr, -⟩
    rw [hr]
    rfl

/-- What was delivered after a delivery. -/
theorem delivered_deliver (config : Config) (hs : db.Sound) (a : Delivery)
    (provider deliveryId : String) :
  (db.deliver config a).1.delivered provider deliveryId =
    (db.delivered provider deliveryId).or ((db.offered config a).bind fun p =>
      if p.1.provider = provider ∧ p.2.1.deliveryId = deliveryId then
        some (EventRow.of p.1 p.2.1 p.2.2 db.events.next) else none)
  := by
  obtain ⟨-, -, ⟨hn, hev, -⟩ | ⟨repo, e, payload, f, ho, -, hT⟩⟩ := deliver_spec config hs a
  · rw [delivered_congr hev, hn, Option.bind_none, Option.or_none]
  · rw [ho, Option.bind_some]
    cases hT with
    | @duplicate r hd hev =>
        rw [delivered_congr hev]
        split
        · rename_i h
          rw [← h.1, ← h.2, hd, Option.some_or]
        · rw [Option.or_none]
    | fresh hd hev hf => rw [delivered_congr hev, delivered_insertEvent]

/-- The events are handed out in increasing order. -/
theorem next_deliver (config : Config) (hs : db.Sound) (a : Delivery) :
  db.events.next ≤ (db.deliver config a).1.events.next
  := by
  obtain ⟨-, -, ⟨-, hev, -⟩ | ⟨repo, e, payload, f, -, -, hT⟩⟩ := deliver_spec config hs a
  · rw [hev]
  · cases hT with
    | duplicate hd hev => rw [hev]
    | fresh hd hev hf =>
        rw [hev]
        apply Nat.le_succ

/-- The row of what is offered is foreign exactly if the delivery is about a repository of
`A`. -/
theorem Purged.foreign_iff {config : Config} {a : Delivery} (h : Purged db₀ A db db')
    (ho : db.offered config a = some (repo, e, payload)) :
  db₀.Foreign A (EventRow.of repo e payload db.events.next) ↔ db₀.othersThan A a = false
  := by
  have hid : (EventRow.of repo e payload db.events.next).repositoryId = a.repositoryId :=
    (find_of_offered ho).1
  have hnext : db₀.events.next ≤ (EventRow.of repo e payload db.events.next).id := h.next
  rw [Foreign, hid, othersThan, and_iff_right hnext]
  simp

/-- A delivery about a repository of `A` in the first run only. -/
theorem Purged.purge {config : Config} {a : Delivery} (h : Purged db₀ A db db')
    (ha : db₀.othersThan A a = false) :
  Purged db₀ A (db.deliver config a).1 db'
  := by
  obtain ⟨hal, hs, -⟩ := deliver_spec config h.sound a
  refine ⟨hal.symm.trans h.alike, hs, h.sound', hal.repositories.trans h.repositories,
    h.next.trans (next_deliver config h.sound a), ?_⟩
  intro provider deliveryId
  rw [h.delivered, delivered_deliver config h.sound]
  cases db.delivered provider deliveryId with
  | some r => rw [Option.some_or]
  | none =>
      rw [Option.none_or]
      constructor
      · rintro ⟨r, hr, -⟩
        contradiction
      · rintro ⟨r, hr, hf⟩
        obtain ⟨⟨repo, e, payload⟩, ho, hr⟩ := Option.bind_eq_some_iff.mp hr
        obtain ⟨-, hr⟩ := Option.ite_none_right_eq_some.mp hr
        rw [← Option.some.inj hr] at hf
        apply absurd ((h.foreign_iff ho).mpr ha) hf

/-- A delivery about another repository in both runs. -/
theorem Purged.keep {config : Config} {a : Delivery} (h : Purged db₀ A db db')
    (ha : db₀.othersThan A a = true) (hG : Unclaimed config db₀ A db a) :
  Purged db₀ A (db.deliver config a).1 (db'.deliver config a).1
  := by
  obtain ⟨hal, hs, -⟩ := deliver_spec config h.sound a
  obtain ⟨hal', hs', -⟩ := deliver_spec config h.sound' a
  refine ⟨(hal.symm.trans h.alike).trans hal', hs, hs', hal.repositories.trans h.repositories,
    h.next.trans (next_deliver config h.sound a), ?_⟩
  intro provider deliveryId
  have hd := h.delivered provider deliveryId
  rw [delivered_deliver config h.sound', delivered_deliver config h.sound,
    h.alike.offered config h.sound h.sound']
  cases ho : db.offered config a with
  | none => simpa using hd
  | some p =>
      rw [Option.bind_some, Option.bind_some]
      split
      · rename_i hk
        rw [Option.isSome_or, Option.isSome_some, Bool.or_true, eq_self_iff_true, true_iff]
        cases hr : db.delivered provider deliveryId with
        | some r =>
            refine ⟨r, Option.some_or .., hG p ho r ?_⟩
            rw [hk.1, hk.2, hr]
            rfl
        | none =>
            refine ⟨_, Option.none_or .., fun hf => ?_⟩
            rw [(h.foreign_iff ho).mp hf] at ha
            contradiction
      · rw [Option.or_none, Option.or_none, hd]

/-- The messages of a new delivery in the two runs. -/
theorem sameMessages
    {messages messages' : List (Option (BuildId × RepositoryId × String) × OutboxRow)}
    {buildIds : List BuildId} {routingKey : String} {threadId : BuildId → String}
    {eventId eventId' : EventId}
    (h : List.Forall₂ (fun buildId m => ∃ id n, m = (some (buildId, repo.id, threadId buildId),
      .fresh eventId routingKey (eventMessage eventId id (threadId buildId) repo e) n))
      buildIds messages)
    (h' : List.Forall₂ (fun buildId m => ∃ id n, m = (some (buildId, repo.id, threadId buildId),
      .fresh eventId' routingKey (eventMessage eventId' id (threadId buildId) repo e) n))
      buildIds messages') :
  List.Forall₂ SameMessage messages messages'
  := by
  apply (h.flip.comp h').imp
  rintro m m' ⟨buildId, ⟨id, n, rfl⟩, id', n', rfl⟩
  exact ⟨rfl, routingKey, threadId buildId, repo, e, eventId, eventId', id, id', n, n', rfl, rfl⟩

/-- A delivery about another repository does the same in both runs exactly if its id was not
claimed by a delivery about a repository of `A`. -/
theorem Purged.same {config : Config} {a : Delivery} (h : Purged db₀ A db db') :
  Option.Rel Fanned.Same (db.deliver config a).2 (db'.deliver config a).2 ↔
    Unclaimed config db₀ A db a
  := by
  have hoff := h.alike.offered config h.sound h.sound' a
  obtain ⟨-, -, ⟨hn, -, hf⟩ | ⟨repo, e, payload, f, ho, hf, hT⟩⟩ := deliver_spec config h.sound a
  · obtain ⟨-, -, ⟨-, -, hf'⟩ | ⟨_, _, _, _, ho', -⟩⟩ := deliver_spec config h.sound' a
    · rw [hf, hf']
      refine ⟨fun _ p hp => ?_, fun _ => .none⟩
      rw [hn] at hp
      contradiction
    · rw [hoff, hn] at ho'
      contradiction
  · obtain ⟨-, -, ⟨hn', -⟩ | ⟨repo', e', payload', f', ho', hf', hT'⟩⟩ :=
      deliver_spec config h.sound' a
    · rw [hoff, ho] at hn'
      contradiction
    rw [hoff, ho] at ho'
    obtain ⟨rfl, hp⟩ := Prod.mk.inj (Option.some.inj ho')
    obtain ⟨rfl, rfl⟩ := Prod.mk.inj hp
    have hd := h.delivered repo.provider e.deliveryId
    have hG : Unclaimed config db₀ A db a ↔
        ∀ r ∈ db.delivered repo.provider e.deliveryId, ¬ db₀.Foreign A r := by
      rw [Unclaimed, ho]
      simp
    rw [hf, hf', hG]
    cases hT with
    | @duplicate r hr hev =>
        rw [hr] at hd ⊢
        cases hT' with
        | duplicate hr' hev' =>
            rw [hr'] at hd
            obtain ⟨r', hr', hnf⟩ := hd.mp rfl
            obtain rfl := Option.some.inj hr'
            refine ⟨fun _ r' hr' => ?_, fun _ => .some ⟨rfl, .nil⟩⟩
            obtain rfl := Option.some.inj hr'
            apply hnf
        | fresh hr' hev' hm =>
            rw [hr'] at hd
            constructor
            · intro hrel
              cases hrel with
              | some hs => apply absurd hs.1 Bool.noConfusion
            · intro hnf
              apply absurd (hd.mpr ⟨r, rfl, hnf r rfl⟩) Bool.false_ne_true
    | fresh hr hev hm =>
        rw [hr] at hd ⊢
        cases hT' with
        | duplicate hr' hev' =>
            rw [hr'] at hd
            obtain ⟨r', hr', -⟩ := hd.mp rfl
            contradiction
        | fresh hr' hev' hm' =>
            refine ⟨fun _ r hr => absurd hr (Option.not_mem_none r), fun _ => .some ⟨rfl, ?_⟩⟩
            rw [h.alike.thread, fanOutBuilds, subscriptionsByRepo, h.alike.subscriptions] at hm'
            apply sameMessages hm hm'

/-- The unwinding of the deliveries of the others. -/
theorem unwinding (config : Config) (db₀ : Db) (A : UserId) :
  (hub config).Unwinding (db₀.othersThan A) (Unclaimed config db₀ A) (Purged db₀ A)
    (Option.Rel Fanned.Same)
  := ⟨Purged.purge, Purged.keep, fun h _ => h.same⟩

/-- **Tenants interfere only through delivery ids.** The deliveries about the repositories of
the others do the same with and without those about the repositories of `A`, exactly if
none of them comes under the id of one about a repository of `A` that was recorded first. -/
theorem forall₂_same_iff_unclaimed (config : Config) {db₀ : Db} (hs : db₀.Sound) (A : UserId)
    (as : List Delivery) :
  List.Forall₂ (Option.Rel Fanned.Same)
      ((hub config).outputs (db₀.othersThan A) db₀ as)
      ((hub config).outputs (db₀.othersThan A) db₀ (as.filter (db₀.othersThan A))) ↔
    (hub config).Guarded (db₀.othersThan A) (Unclaimed config db₀ A) db₀ as
  := (unwinding config db₀ A).forall₂_outputs_iff (Purged.refl hs A) as

/-- Two users with a repository each, and a build that reacts to the triggers of the second
repository. -/
def tenants : Db :=
  let repository (n : ℕ) : Repository :=
    { id := n, userId := n, provider := "gitlab", webhookSecretEnc := "secret" }
  { Db.empty with
    builds := Serial.empty.insert (fun n => ⟨n, 2⟩) fun _ => rfl
    repositories := (Serial.empty.insert repository fun _ => rfl).insert repository fun _ => rfl
    subscriptions := Serial.empty.insert (fun n => ⟨n, 1, 2, ["manual"], none⟩) fun _ => rfl }

theorem sound_tenants : tenants.Sound
  := by
  constructor
  · intro s hs
    obtain rfl := List.mem_singleton.mp hs
    rfl
  · exact fun j hj => absurd hj List.not_mem_nil

/-- A configuration without sandboxes, whose secrets are not encrypted. -/
def plain : Config where
  storable _ _ := true
  decrypt := some
  hmac _ _ := []
  lower := Char.toLower
  sandboxes := false

/-- A push to the repository of the first user, under a delivery id of the sender's choice. -/
def push (uuid : String) : Delivery :=
  .webhook "gitlab" 1 { gitlabEventUuid := uuid, gitlabEvent := "Push Hook", gitlabToken := "secret" }
    "\x7b\x7d" (some (.obj [("object_kind", .str "push"), ("checkout_sha", .str "d")])) "trace"

/-- The second user triggers a commit of the own repository. -/
def manual : Delivery :=
  .trigger { userId := 2, id := 2, ref := "main", commitSha := "c", mode := "", branchHead := none,
             ensured := [], nanos := 0 } "trace"

/-- A push under a random delivery id does not change what the trigger does. -/
theorem forall₂_same_push_manual :
  List.Forall₂ (Option.Rel Fanned.Same)
    ((hub plain).outputs (tenants.othersThan 1) tenants [push "5b2f", manual])
    ((hub plain).outputs (tenants.othersThan 1) tenants [manual])
  := by
  have h := forall₂_same_iff_unclaimed plain sound_tenants 1 [push "5b2f", manual]
  apply h.mpr
  decide

/-- A push under the delivery id of the trigger makes the trigger a duplicate. -/
theorem not_forall₂_same :
  ¬ ∀ (config : Config) (db₀ : Db) (A : UserId) (as : List Delivery), db₀.Sound →
    List.Forall₂ (Option.Rel Fanned.Same)
      ((hub config).outputs (db₀.othersThan A) db₀ as)
      ((hub config).outputs (db₀.othersThan A) db₀ (as.filter (db₀.othersThan A)))
  := by
  intro h
  have h := h plain tenants 1 [push "manual-2-c", manual] sound_tenants
  rw [(unwinding plain tenants 1).forall₂_outputs_iff (Purged.refl sound_tenants 1)] at h
  revert h
  decide

end Db

end Hub
