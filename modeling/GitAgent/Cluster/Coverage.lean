import GitAgent.Library.Ancestry
import GitAgent.Library.Decimal
import GitAgent.Hub.Webhook
import GitAgent.Agent.Introduced
import GitAgent.Cluster.Outbox

/-!
# What the reviews leave out

A manual run reviews the changes since the commit that was processed last (`Trigger` in
`internal/hub/app/repository.go`, `scope_range` in `core/runner/executor.py`). The trigger reads that
commit in one transaction and records its event in a later one, and the event may reach a runner at
any time after that. Still such a run continues from the commit of an event that was processed before
it, so what it leaves out was up for review before.
-/

namespace Cluster.Coverage

open Hub (EventId InstanceId RepositoryId BuildId UserId Db Message JournalRow Repository filled)
open Runner (parseEvent optSha optStr)

/-- The state of the outbox, the answers of `LastProcessedCommit` to triggers, and the messages that
were processed, in this order. -/
structure State where
  outbox : Outbox.State
  asked : List (RepositoryId × String)
  processed : List Message

/-- A trigger asks for the commit that was processed last, or has asked for it and fans its event out;
or there is an action of the outbox. -/
inductive Action
  | ask (id : RepositoryId)
  | trigger (userId : UserId) (repo : Repository) (ref commitSha mode before : String) (nanos : ℕ)
      (buildIds : List BuildId)
  | run (a : Outbox.Action)

/-- The message that an action marks as processed. -/
def marked : Outbox.Action → List Message
  | .markProcessed m => [m]
  | _ => []

namespace State

/-- The state after an action, if it is enabled. -/
def act (storable : Hub.Event → String → Bool) (s : State) : Action → Option State
  | .ask id => some { s with asked := (id, s.outbox.db.lastProcessedCommit id) :: s.asked }
  | .trigger userId repo ref commitSha mode before nanos buildIds =>
      if (repo.id, before) ∈ s.asked then
        let e := Hub.triggerEvent repo ref commitSha mode before nanos
        (s.outbox.act storable (.ingest repo e (Hub.triggerPayload userId e) buildIds)).map
          fun outbox => { s with outbox }
      else none
  | .run a =>
      (s.outbox.act storable a).map fun outbox =>
        { s with outbox, processed := s.processed ++ marked a }

end State

/-- The runs from a database without reactions and messages on. -/
def system (storable : Hub.Event → String → Bool) : Transition.System State Action where
  init s := (Outbox.system storable).init s.outbox ∧ s.asked = [] ∧ s.processed = []
  step := State.act storable

/-- A text that is no number and does not begin like the key of a full scan, as the name of a commit
that has a letter. -/
def IsCommit (sha : String) : Prop :=
  (∃ c ∈ sha.toList, c.isDigit = false) ∧ ¬ "full-".toList <+: sha.toList

instance (sha : String) : Decidable (IsCommit sha) :=
  inferInstanceAs (Decidable (_ ∧ _))

/-- The events are about commits, and only those of triggers are manual. -/
def Usual (_ : State) : Action → Prop
  | .trigger _ _ _ commitSha _ _ _ _ => IsCommit commitSha
  | .run (.ingest _ e _ _) => e.action ≠ "manual" ∧ (e.commitSha = "" ∨ IsCommit e.commitSha)
  | _ => True

instance (s : State) (a : Action) : Decidable (Usual s a) := by
  unfold Usual
  split <;> infer_instance

/-! ### What a message is about -/

/-- The commit from which a manual run continues, if it continues from one. -/
def continued (m : Message) : Option String :=
  match Agent.scopeRange (parseEvent m) none with
  | some (.commit b, _) => if m.action = "manual" then some b else none
  | _ => none

/-- Whether a commit is one that the run on a message reviews: one of the changes of its range, or for
a full scan any. The merge base of the clone is `mergeBase`. -/
def Reviews (H : History String) (mergeBase : Message → Option String) (m : Message) (c : String) :
    Prop :=
  match Agent.scopeRange (parseEvent m) (mergeBase m) with
  | some (rev, head) => H.IsNew (rev.resolve H) head c
  | none => m.action = "full_scan" ∧ H.Reaches m.commitSha c

variable {m m' : Message} {b : String}

theorem of_optStr {value : Option String} {s : String} (h : optStr value = some s) :
  value = some s
  := (Option.filter_eq_some_iff.mp h).1

theorem of_optSha {value : Option String} {s : String} (h : optSha value = some s) :
  value = some s
  := of_optStr (Option.filter_eq_some_iff.mp h).1

/-- The range of a manual run. -/
theorem scopeRange_manual (hm : m.action = "manual") (mergeBase : Option String) :
  Agent.scopeRange (parseEvent m) mergeBase = (Agent.eventHead (parseEvent m)).map fun head =>
    ((optStr (optSha m.beforeSha)).elim (.parent head) .commit, head)
  := by
  have ha : (parseEvent m).action = "manual" := hm
  rw [Agent.scopeRange, ha]
  cases Agent.eventHead (parseEvent m) with
  | none => rfl
  | some head =>
      dsimp only
      rw [if_neg (by decide), if_neg (by decide), if_pos (by decide)]
      rfl

/-- The range of a manual run that continues from a commit. -/
theorem continued_spec (h : continued m = some b) :
  m.action = "manual" ∧ m.beforeSha = some b ∧
    (m.headSha = none → ∀ mergeBase,
      Agent.scopeRange (parseEvent m) mergeBase = some (.commit b, m.commitSha))
  := by
  rw [continued] at h
  split at h
  case h_2 => contradiction
  case h_1 b' head hr =>
    split at h
    case isFalse => contradiction
    case isTrue hm =>
      obtain rfl := Option.some.inj h
      have hr' := hr
      rw [scopeRange_manual hm] at hr
      obtain ⟨head', hhead, hr⟩ := Option.map_eq_some_iff.mp hr
      obtain ⟨hb, rfl⟩ := Prod.mk.inj hr
      refine ⟨hm, ?_, ?_⟩
      · cases hs : optStr (optSha m.beforeSha) with
        | none =>
            rw [hs] at hb
            contradiction
        | some b =>
            rw [hs] at hb
            obtain rfl := Agent.Rev.commit.inj hb
            apply of_optSha (of_optStr hs)
      · intro hn mergeBase
        have hc : head' = m.commitSha := by
          have hs : (parseEvent m).headSha = none := by
            rw [parseEvent, hn]
            rfl
          rw [Agent.eventHead, hs] at hhead
          apply (Option.some.inj (of_optSha (of_optStr hhead))).symm
        rw [scopeRange_manual hm, hhead, Option.map_some, hb, hc]

/-! ### The keys of the reactions -/

theorem IsCommit.ne_toString {sha : String} (h : IsCommit sha) (n : ℕ) :
  sha ≠ toString n
  := by
  rintro rfl
  obtain ⟨c, hc, hd⟩ := h.1
  rw [Decimal.toList_toString] at hc
  apply Decimal.not_mem hd hc

theorem IsCommit.ne_full {sha : String} (h : IsCommit sha) (s : String) :
  sha ≠ "full-" ++ s
  := by
  rintro rfl
  apply h.2
  rw [String.toList_append]
  apply List.prefix_append

theorem full_ne_toString (s : String) (n : ℕ) :
  "full-" ++ s ≠ toString n
  := by
  intro h
  have hf : 'f' ∈ (toString n).toList := by
    rw [← h, String.toList_append]
    apply List.mem_cons_self
  rw [Decimal.toList_toString] at hf
  apply Decimal.not_mem (by decide) hf

/-- A message has the key of its event, and its commit is the name of one. -/
structure Keyed (m : Message) : Prop where
  key : m.dedupKey =
    if m.action = "full_scan" then "full-" ++ toString m.eventId
    else if m.commitSha ≠ "" then m.commitSha
    else toString m.eventId
  usual : m.commitSha = "" ∨ IsCommit m.commitSha

/-- Messages with the same key are about the same commit, if one of them is about a commit. -/
theorem Keyed.commit_eq (hm : Keyed m) (hm' : Keyed m') (hk : m'.dedupKey = m.dedupKey)
    (hc : m.commitSha ≠ "") (he : m'.eventId = m.eventId → m'.commitSha = m.commitSha) :
  m'.commitSha = m.commitSha
  := by
  have hcommit : IsCommit m.commitSha := hm.usual.resolve_left hc
  rw [hm.key, hm'.key, if_pos hc] at hk
  by_cases hf' : m'.action = "full_scan"
  · rw [if_pos hf'] at hk
    by_cases hf : m.action = "full_scan"
    · rw [if_pos hf] at hk
      apply he
      have hk := congrArg String.toList hk
      rw [String.toList_append, String.toList_append, Decimal.toList_toString,
        Decimal.toList_toString] at hk
      have hk := congrArg (fun cs => Nat.ofDigitChars 10 cs 0) (List.append_cancel_left hk)
      rwa [Nat.ofDigitChars_ten_toDigits, Nat.ofDigitChars_ten_toDigits] at hk
    · rw [if_neg hf] at hk
      apply absurd hk.symm (hcommit.ne_full _)
  · rw [if_neg hf'] at hk
    by_cases hc' : m'.commitSha = ""
    · rw [if_neg (not_not.mpr hc')] at hk
      by_cases hf : m.action = "full_scan"
      · rw [if_pos hf] at hk
        apply absurd hk.symm (full_ne_toString _ _)
      · rw [if_neg hf] at hk
        apply absurd hk.symm (hcommit.ne_toString _)
    · rw [if_pos hc'] at hk
      by_cases hf : m.action = "full_scan"
      · rw [if_pos hf] at hk
        apply absurd hk ((hm'.usual.resolve_left hc').ne_full _)
      · rw [if_neg hf] at hk
        apply hk

/-! ### Rows that stay -/

variable {db db' : Db}

/-- The rows of `db'` with the numbers of `db` are rows of `db`. -/
structure Older (db db' : Db) : Prop where
  nextEvent : db.events.next ≤ db'.events.next
  event : ∀ id < db.events.next, ∀ e, db'.events.find id = some e → db.events.find id = some e
  nextInstance : db.instances.next ≤ db'.instances.next
  origin : ∀ id < db.instances.next, ∀ o, db'.origin id = some o → db.origin id = some o

theorem Older.of_eq (he : db'.events = db.events) (hn : db'.instances.next = db.instances.next)
    (ho : db'.origin = db.origin) :
  Older db db'
  := by
  constructor
  · rw [he]
  · intro id _ e h
    rwa [he] at h
  · rw [hn]
  · intro id _ o h
    rwa [ho] at h

theorem Older.trans {db'' : Db} (h : Older db db') (h' : Older db' db'') :
  Older db db''
  := by
  constructor
  · apply h.nextEvent.trans h'.nextEvent
  · intro id hid e he
    apply h.event id hid e (h'.event id (hid.trans_le h.nextEvent) e he)
  · apply h.nextInstance.trans h'.nextInstance
  · intro id hid o ho
    apply h.origin id hid o (h'.origin id (hid.trans_le h.nextInstance) o ho)

/-- What neither ingests nor begins nor marks leaves the messages and the reactions as they are, or
deletes some. -/
structure Quiet (db db' : Db) : Prop where
  older : Older db db'
  outbox : ∀ o ∈ db'.outbox.rows, ∃ o' ∈ db.outbox.rows, o'.payload = o.payload
  journal : ∀ j ∈ db'.journal.rows, j ∈ db.journal.rows ∧
    ((db.origin j.instanceId).isSome → (db'.origin j.instanceId).isSome)

theorem Quiet.of_follows (hf : Follows db db') (hj : db'.journal = db.journal)
    (hn : db'.instances.next = db.instances.next) (ho : db'.origin = db.origin) :
  Quiet db db'
  := by
  constructor
  · apply Older.of_eq hf.events hn ho
  · intro o hm
    obtain ⟨o', hm', -, -, hp⟩ := hf.publishes.mp ⟨o, hm, rfl, rfl, rfl⟩
    exact ⟨o', hm', hp⟩
  · intro j hm
    rw [hj] at hm
    rw [ho]
    exact ⟨hm, id⟩

/-- An update of instances that keeps what they are instances of. -/
theorem origin_update (db : Db) (p : Hub.InstanceRow → Bool)
    (f : Hub.InstanceRow → Hub.InstanceRow) (hf : ∀ r, (f r).id = r.id)
    (hsame : ∀ r, ((f r).buildId, (f r).repositoryId, (f r).threadId) =
      (r.buildId, r.repositoryId, r.threadId)) :
  Db.origin { db with instances := db.instances.update p f hf } = db.origin
  := by
  funext id
  simp only [Db.origin, Serial.find_update, Option.map_map]
  congr 1
  funext r
  rw [Function.comp_apply]
  split
  · apply hsame
  · rfl

theorem quiet_update (db : Db) (p : Hub.InstanceRow → Bool)
    (f : Hub.InstanceRow → Hub.InstanceRow) (hf : ∀ r, (f r).id = r.id)
    (hsame : ∀ r, ((f r).buildId, (f r).repositoryId, (f r).threadId) =
      (r.buildId, r.repositoryId, r.threadId)) :
  Quiet db { db with instances := db.instances.update p f hf }
  := Quiet.of_follows (follows_of_eq rfl rfl rfl) rfl rfl (origin_update db p f hf hsame)

theorem quiet_runInstance (db : Db) (id : InstanceId) (R : Hub.RunnerId) :
  Quiet db (db.runInstance id R)
  := quiet_update _ _ _ _ fun _ => rfl

theorem quiet_downInstance (db : Db) (id : InstanceId) :
  Quiet db (db.downInstance id)
  := quiet_update _ _ _ _ fun _ => rfl

theorem Quiet.refl (db : Db) :
  Quiet db db
  := Quiet.of_follows (follows_of_eq rfl rfl rfl) rfl rfl rfl

theorem quiet_requeueStale (db : Db) (timeout : ℕ) :
  Quiet db (db.requeueStale timeout).1
  := by
  apply Quiet.of_follows (Outbox.follows_requeueStale db timeout) rfl rfl
  exact origin_update db _ _ _ fun _ => rfl

theorem quiet_requeueInstance (db : Db) (id : InstanceId) :
  Quiet db (db.requeueInstance id).1
  := Quiet.of_follows (Outbox.follows_requeueInstance db id) rfl rfl rfl

/-- The instances that are left after a deletion. -/
theorem find_instances_cascade (db : Db) (id : InstanceId) :
  db.cascade.instances.find id =
    (db.instances.find id).filter fun r => !(db.repositories.find r.repositoryId).isNone
  := by
  rw [Db.cascade]
  simp only [Serial.delete, Table.find_delete]

theorem quiet_cascade (hd : Quiet db db') :
  Quiet db db'.cascade
  := by
  constructor
  · apply hd.older.trans
    refine ⟨le_rfl, ?_, le_rfl, ?_⟩
    · intro id _ e he
      rw [Db.cascade] at he
      simp only [Serial.delete, Table.find_delete] at he
      apply (Option.filter_eq_some_iff.mp he).1
    · intro id _ o ho
      rw [Db.origin, find_instances_cascade] at ho
      obtain ⟨r, hr, rfl⟩ := Option.map_eq_some_iff.mp ho
      rw [Db.origin, (Option.filter_eq_some_iff.mp hr).1]
      rfl
  · exact fun o ho => hd.outbox o (List.mem_of_mem_filter ho)
  · intro j hj
    obtain ⟨hj, hkept⟩ := List.mem_filter.mp hj
    obtain ⟨hj, -⟩ := hd.journal j hj
    refine ⟨hj, fun _ => ?_⟩
    rw [Db.origin, Option.isSome_map, find_instances_cascade]
    simp only [Bool.not_or, Bool.and_eq_true, Bool.not_eq_true', Option.isNone_eq_false_iff,
      Serial.delete, Table.find_delete] at hkept
    apply hkept.2

theorem older_upsertInstance {buildId : BuildId} {repositoryId : RepositoryId} {id : InstanceId}
    {threadId : String} (h : db.upsertInstance buildId repositoryId = some (db', id, threadId)) :
  Older db db'
  := by
  rw [Db.upsertInstance] at h
  split at h
  · obtain ⟨rfl, -⟩ := Prod.mk.inj (Option.some.inj h)
    exact Older.of_eq rfl rfl (db.origin_touchInstance _)
  · split at h
    · obtain ⟨rfl, -⟩ := Prod.mk.inj (Option.some.inj h)
      refine ⟨le_rfl, fun _ _ _ h => h, Nat.le_succ _, ?_⟩
      intro id hid o ho
      rwa [Db.origin, Db.insertInstance, Serial.find_insert, if_neg hid.ne] at ho
    · contradiction

theorem older_ingestBuilds {eventId : EventId} {repo : Repository} {e : Hub.Event}
    {buildIds : List BuildId} {ids : List InstanceId}
    (h : db.ingestBuilds eventId repo e buildIds = some (db', ids)) :
  Older db db'
  := by
  induction buildIds generalizing db ids with
  | nil =>
      obtain ⟨rfl, -⟩ := Prod.mk.inj (Option.some.inj h)
      apply Older.of_eq rfl rfl rfl
  | cons buildId buildIds ih =>
      obtain ⟨⟨db₁, id⟩, hb, h⟩ := Option.bind_eq_some_iff.mp h
      obtain ⟨⟨db₂, ids⟩, hbs, h⟩ := Option.bind_eq_some_iff.mp h
      obtain ⟨rfl, -⟩ := Prod.mk.inj (Option.some.inj h)
      obtain ⟨⟨db₃, id', threadId⟩, hu, hb⟩ := Option.bind_eq_some_iff.mp hb
      obtain ⟨rfl, -⟩ := Prod.mk.inj (Option.some.inj hb)
      apply (older_upsertInstance hu).trans
      apply Older.trans _ (ih hbs)
      obtain ⟨⟨journal, hj⟩, -⟩ := Db.insertInstanceEvent_spec db₃ id' eventId
        (Hub.dedupKey eventId e)
      rw [hj]
      exact Older.of_eq rfl rfl rfl

/-- A reaction that is recorded for an event that is ingested is not processed. -/
theorem unprocessed_ingestBuilds {eventId : EventId} {repo : Repository} {e : Hub.Event}
    {buildIds : List BuildId} {ids : List InstanceId}
    (h : db.ingestBuilds eventId repo e buildIds = some (db', ids)) :
  ∀ j ∈ db'.journal.rows, j ∈ db.journal.rows ∨ j.processedAt = none
  := by
  induction buildIds generalizing db ids with
  | nil =>
      obtain ⟨rfl, -⟩ := Prod.mk.inj (Option.some.inj h)
      exact fun j hj => .inl hj
  | cons buildId buildIds ih =>
      obtain ⟨⟨db₁, id⟩, hb, h⟩ := Option.bind_eq_some_iff.mp h
      obtain ⟨⟨db₂, ids⟩, hbs, h⟩ := Option.bind_eq_some_iff.mp h
      obtain ⟨rfl, -⟩ := Prod.mk.inj (Option.some.inj h)
      obtain ⟨⟨db₃, id', threadId⟩, hu, hb⟩ := Option.bind_eq_some_iff.mp hb
      obtain ⟨rfl, -⟩ := Prod.mk.inj (Option.some.inj hb)
      obtain ⟨⟨instances, rfl⟩, -⟩ := Db.upsertInstance_spec hu
      obtain ⟨-, hj, -⟩ := Db.insertInstanceEvent_spec { db with instances } id' eventId
        (Hub.dedupKey eventId e)
      intro j hm
      rcases ih hbs j hm with hm | hn
      · rcases hj j hm with hm | rfl
        · exact .inl hm
        · exact .inr rfl
      · exact .inr hn

/-! ### The invariant -/

/-- A message agrees with the rows of its event and its instance as long as they exist. -/
structure Sited (db : Db) (m : Message) : Prop where
  eventId_lt : m.eventId < db.events.next
  event : ∀ e, db.events.find m.eventId = some e →
    e.commitSha = filled m.commitSha ∧ e.repositoryId = m.repositoryId
  instanceId_lt : m.instanceId < db.instances.next
  origin : ∀ o, db.origin m.instanceId = some o → o.2.1 = m.repositoryId

theorem Sited.older (h : Sited db m) (ho : Older db db') :
  Sited db' m
  := by
  constructor
  · apply h.eventId_lt.trans_le ho.nextEvent
  · exact fun e he => h.event e (ho.event _ h.eventId_lt e he)
  · apply h.instanceId_lt.trans_le ho.nextInstance
  · exact fun o he => h.origin o (ho.origin _ h.instanceId_lt o he)

/-- A message that was published, or is in the outbox. -/
def Sends (s : Outbox.State) (m : Message) : Prop :=
  m ∈ s.sent ∨ ∃ o ∈ s.db.outbox.rows, o.payload = m

/-- A message about a commit of a repository was processed. -/
def State.Processed (s : State) (id : RepositoryId) (sha : String) : Prop :=
  ∃ m ∈ s.processed, m.repositoryId = id ∧ m.commitSha = sha

/-- What is known of a message: a manual run continues from a commit that was processed. -/
structure Known (s : State) (m : Message) : Prop where
  sited : Sited s.outbox.db m
  keyed : Keyed m
  head : m.action = "manual" → m.headSha = none
  before : m.action = "manual" → ∀ b ∈ m.beforeSha, s.Processed m.repositoryId b

/-- A reaction is one of an instance that exists, and if it is processed, so was a message with its
key. -/
structure Journaled (s : State) (j : JournalRow) : Prop where
  sited : (s.outbox.db.origin j.instanceId).isSome
  marked : j.processedAt.isSome →
    ∃ m ∈ s.processed, m.instanceId = j.instanceId ∧ m.dedupKey = j.dedupKey

/-- Messages about the same repository. -/
def Same (m m' : Message) : Prop :=
  m.repositoryId = m'.repositoryId

structure Inv (s : State) : Prop where
  consistent : Outbox.Consistent s.outbox
  sent : ∀ m ∈ s.processed, m ∈ s.outbox.sent
  known : ∀ m, Sends s.outbox m → Known s m
  journal : ∀ j ∈ s.outbox.db.journal.rows, Journaled s j
  asked : ∀ p ∈ s.asked, p.2 = "" ∨ s.Processed p.1 p.2
  chained : History.Chained Same continued Message.commitSha s.processed

namespace Inv

variable {s : State} {outbox : Outbox.State}

/-- What is known of a message stays known. -/
theorem known_of_older (hs : Inv s) (ho : Older s.outbox.db outbox.db) (hm : Sends s.outbox m) :
  Known { s with outbox } m
  := by
  obtain ⟨hsited, hkeyed, hhead, hbefore⟩ := hs.known m hm
  exact ⟨hsited.older ho, hkeyed, hhead, hbefore⟩

theorem quiet (hs : Inv s) (hc : Outbox.Consistent outbox) (hq : Quiet s.outbox.db outbox.db)
    (hsent : outbox.sent = s.outbox.sent) :
  Inv { s with outbox }
  := by
  refine ⟨hc, ?_, ?_, ?_, hs.asked, hs.chained⟩
  · intro m hm
    rw [hsent]
    apply hs.sent m hm
  · rintro m (hm | ⟨o, ho, rfl⟩)
    · rw [hsent] at hm
      apply hs.known_of_older hq.older (.inl hm)
    · obtain ⟨o', ho', hp⟩ := hq.outbox o ho
      apply hs.known_of_older hq.older (.inr ⟨o', ho', hp⟩)
  · intro j hj
    obtain ⟨hj, hsite⟩ := hq.journal j hj
    exact ⟨hsite (hs.journal j hj).sited, (hs.journal j hj).marked⟩

section

variable {storable : Hub.Event → String → Bool} {repo : Repository} {e : Hub.Event}
  {payload : String} {buildIds : List BuildId} {duplicate : Bool} {ids : List InstanceId}

theorem older_insertEvent (db : Db) (repo : Repository) (e : Hub.Event) (payload : String) :
  Older db (db.insertEvent repo e payload)
  := by
  refine ⟨Nat.le_succ _, ?_, le_rfl, fun _ _ _ h => h⟩
  intro id hid e he
  rwa [find_insertEvent, if_neg hid.ne] at he

/-- What is known of the message about an event that is ingested. -/
theorem known_eventMessage {id : InstanceId} {threadId : String} {buildId : BuildId}
    {eventId : EventId} (hlt : eventId < outbox.db.events.next)
    (he : outbox.db.events.find eventId = some (.of repo e payload eventId))
    (hid : outbox.db.origin id = some (buildId, repo.id, threadId))
    (hu : e.commitSha = "" ∨ IsCommit e.commitSha)
    (hm : e.action = "manual" →
      e.headSha = "" ∧ (e.beforeSha = "" ∨ s.Processed repo.id e.beforeSha)) :
  Known { s with outbox } (Hub.eventMessage eventId id threadId repo e)
  := by
  refine ⟨⟨hlt, ?_, ?_, ?_⟩, ⟨rfl, hu⟩, ?_, ?_⟩
  · intro e' he'
    obtain rfl := Option.some.inj (he.symm.trans he')
    exact ⟨rfl, rfl⟩
  · obtain ⟨r, hr, -⟩ := Option.map_eq_some_iff.mp hid
    have hlt := outbox.db.instances.lt_next r (Table.mem_of_find hr)
    rwa [Table.key_of_find hr] at hlt
  · intro o ho
    obtain rfl := Option.some.inj (hid.symm.trans ho)
    rfl
  · intro ha
    change filled e.headSha = none
    rw [(hm ha).1]
    rfl
  · intro ha b hb
    obtain ⟨hne, rfl⟩ : e.beforeSha ≠ "" ∧ e.beforeSha = b := by
      simpa [Hub.eventMessage, filled] using hb
    apply (hm ha).2.resolve_left hne

theorem ingest (hs : Inv s) (hc : Outbox.Consistent { s.outbox with db })
    (h : s.outbox.db.ingest storable repo e payload buildIds = some (db, duplicate, ids))
    (hu : e.commitSha = "" ∨ IsCommit e.commitSha)
    (hm : e.action = "manual" →
      e.headSha = "" ∧ (e.beforeSha = "" ∨ s.Processed repo.id e.beforeSha)) :
  Inv { s with outbox := { s.outbox with db } }
  := by
  rcases Db.ingestBuilds_of_ingest h with ⟨-, rfl, -⟩ | ⟨-, -, hb⟩
  · apply hs
  have hi := Db.ingested_builds hb
  have holder : Older s.outbox.db db :=
    (older_insertEvent _ repo e payload).trans (older_ingestBuilds hb)
  obtain ⟨rows, ho, rfl, hf⟩ := hi.outbox
  have hevents : db.events = (s.outbox.db.insertEvent repo e payload).events := by
    obtain ⟨_, _, _, rfl⟩ := hi.frame
    rfl
  have hlt : s.outbox.db.events.next < db.events.next := by
    rw [hevents]
    apply Nat.lt_succ_self
  have hfind : db.events.find s.outbox.db.events.next =
      some (.of repo e payload s.outbox.db.events.next) := by
    rw [hevents, find_insertEvent, if_pos rfl]
  refine ⟨hc, hs.sent, ?_, ?_, hs.asked, hs.chained⟩
  · rintro m (hm' | ⟨o, ho', rfl⟩)
    · apply hs.known_of_older holder (.inl hm')
    · dsimp only at ho'
      rw [ho] at ho'
      rcases List.mem_append.mp ho' with ho' | ho'
      · apply hs.known_of_older holder (.inr ⟨o, ho', rfl⟩)
      · obtain ⟨buildId, -, n, id, threadId, hid, rfl⟩ := hf.exists_of_mem ho'
        apply known_eventMessage hlt hfind hid hu hm
  · intro j hj
    constructor
    · rcases hi.journal j hj with hj | ⟨hid, -⟩
      · obtain ⟨o, ho⟩ := Option.isSome_iff_exists.mp (hs.journal j hj).sited
        exact Option.isSome_of_eq_some (hi.origin _ _ ho)
      · obtain ⟨o, ho', hid⟩ := List.mem_map.mp hid
        obtain ⟨buildId, -, n, id, threadId, hid', rfl⟩ := hf.exists_of_mem ho'
        obtain rfl : id = j.instanceId := hid
        exact Option.isSome_of_eq_some hid'
    · intro hp
      rcases unprocessed_ingestBuilds hb j hj with hj | hn
      · apply (hs.journal j hj).marked hp
      · rw [hn] at hp
        contradiction

end

end Inv

end Cluster.Coverage
