import GitAgent.Hub.Schema
import GitAgent.Runner.Event

/-!
# The store of a runner

The statements that a runner executes in the database of the hub
(`infra/db/hub_store.py`), each of them atomic. `claim_instance` is an update followed, when
it hits no row, by a separate query for the holder.
-/

namespace Runner

open Hub (InstanceId EventId RunnerId Db JournalRow InstanceRow Reaction)

/-- How a claim or a look at the holder of an instance ended. -/
inductive ClaimOutcome
  | claimed
  | heldBySelf
  | heldByOther
  | missing
  | free
  deriving DecidableEq, Repr

/-- The result of a claim, with the address of the holder where it is another runner. -/
structure ClaimResult where
  outcome : ClaimOutcome
  holderAddress : Option String := none
  deriving DecidableEq, Repr

/-- Whether a claim succeeded. -/
def ClaimResult.isClaimed (claim : ClaimResult) : Bool :=
  claim.outcome = .claimed || claim.outcome = .heldBySelf

namespace Store

/-! ### The row of an instance -/

/-- `claim_instance`, its update: the row goes to `running` under the runner `R` unless
another runner holds it. Returns whether there was such a row. -/
def claimInstance (db : Db) (id : InstanceId) (R : RunnerId) : Db × Bool :=
  match db.instances.find id with
  | some r =>
      if r.status = .down ∨ r.runnerId = some R then
        (db.runInstance id R, true)
      else (db, false)
  | none => (db, false)

/-- `claim_instance`, its query for the holder once the update hit no row. -/
def claimHolder (db : Db) (id : InstanceId) : ClaimResult :=
  match db.instances.find id with
  | none => ⟨.missing, none⟩
  | some r => ⟨.heldByOther, r.runnerId.bind db.address⟩

/-- `peek_holder`. -/
def peekHolder (db : Db) (id : InstanceId) (R : RunnerId) : ClaimResult :=
  match db.instances.find id with
  | none => ⟨.missing, none⟩
  | some r =>
      if r.status ≠ .running then ⟨.free, none⟩
      else if r.runnerId = some R then ⟨.heldBySelf, none⟩
      else ⟨.heldByOther, r.runnerId.bind db.address⟩

/-- `release_instance`: the row goes to `down` if the runner `R` holds it. Returns whether it
did. -/
def releaseInstance (db : Db) (id : InstanceId) (R : RunnerId) : Db × Bool :=
  match db.instances.find id with
  | some r =>
      if r.runnerId = some R ∧ r.status = .running then
        (db.downInstance id, true)
      else (db, false)
  | none => (db, false)

/-- `load_context` finds the instance. The rows it is joined with exist whenever the row of
the instance does. -/
def loadContext (db : Db) (id : InstanceId) : Bool :=
  (db.instances.find id).isSome

/-- A claim that hits the row runs the instance under `R`, and nobody else held it. -/
theorem claimInstance_hit {db db' : Db} {id : InstanceId} {R : RunnerId}
    (h : claimInstance db id R = (db', true)) :
  db' = db.runInstance id R ∧ db.instances.find id ≠ none ∧
    (db.holder id = none ∨ db.holder id = some R)
  := by
  rw [claimInstance] at h
  split at h
  · rename_i r hr
    split at h
    · rename_i hc
      obtain ⟨rfl, -⟩ := Prod.mk.inj h
      refine ⟨rfl, by simp [hr], ?_⟩
      rw [Db.holder, hr]
      apply InstanceRow.claimable_iff.mp hc
    · cases (Prod.mk.inj h).2
  · cases (Prod.mk.inj h).2

/-- A claim that hits no row changes nothing. -/
theorem claimInstance_miss {db db' : Db} {id : InstanceId} {R : RunnerId}
    (h : claimInstance db id R = (db', false)) :
  db' = db
  := by
  rw [claimInstance] at h
  split at h
  · split at h
    · cases (Prod.mk.inj h).2
    · apply (Prod.mk.inj h).1.symm
  · apply (Prod.mk.inj h).1.symm

/-- A release lowers the row of an instance that `R` holds, and changes nothing otherwise. -/
theorem releaseInstance_eq (db : Db) (id : InstanceId) (R : RunnerId) :
  releaseInstance db id R =
    if db.holder id = some R then (db.downInstance id, true) else (db, false)
  := by
  rw [releaseInstance, Db.holder]
  split
  · rename_i r hr
    have hc : r.runnerId = some R ∧ r.status = .running ↔ r.holder = some R := by
      rw [InstanceRow.holder]
      cases r.status <;> simp
    rw [hr]
    apply if_congr hc rfl rfl
  · rename_i hr
    rw [hr]
    rfl

/-! ### The journal -/

/-- The row by which `begin_event` first records a reaction. -/
def journalRow (e : Event) : JournalRow :=
  ⟨e.instanceId, e.eventId, e.dedupKey, none⟩

theorem key_journalRow (e : Event) :
  (journalRow e).key = e.reaction
  := rfl

/-- `begin_event`: reads the row of the reaction and inserts it where there is none. Returns
whether the reaction is still to be processed. The insertion fails when the event or the
instance does not exist any more. -/
def beginEvent (db : Db) (e : Event) : Option (Db × Bool) :=
  match h : db.journal.find (journalRow e).key with
  | some r => some (db, r.processedAt.isNone)
  | none =>
      if (db.events.find e.eventId).isSome ∧ (db.instances.find e.instanceId).isSome then
        some ({ db with journal := db.journal.insert (journalRow e) h }, true)
      else none

/-- `mark_processed`. -/
def markProcessed (db : Db) (k : Reaction) : Db :=
  { db with
    journal := db.journal.update (fun r => r.key = k) (fun r => r.mark db.now)
      fun r => r.key_mark db.now }

/-- A reaction that is recorded and not marked as processed. -/
def Unprocessed (db : Db) (k : Reaction) : Prop :=
  ∃ r, db.journal.find k = some r ∧ r.processedAt = none

theorem unprocessed_iff {db : Db} {k : Reaction} :
  Unprocessed db k ↔ (db.journal.find k).any (fun r => r.processedAt.isNone) = true
  := by
  rw [Option.any_eq_true]
  simp only [Unprocessed, Option.isNone_iff_eq_none]

instance (db : Db) (k : Reaction) : Decidable (Unprocessed db k) :=
  decidable_of_iff _ unprocessed_iff.symm

theorem Unprocessed.processedAt {db : Db} {k : Reaction} (h : Unprocessed db k) :
  db.processedAt k = none
  := by
  obtain ⟨r, hr, hp⟩ := h
  rw [Db.processedAt, hr]
  apply hp

/-- `begin_event` finds the row of the reaction, or inserts it. -/
theorem beginEvent_cases {db db' : Db} {e : Event} {b : Bool}
    (h : beginEvent db e = some (db', b)) :
  (∃ r, db.journal.find e.reaction = some r ∧ b = r.processedAt.isNone ∧ db' = db) ∨
    ∃ hn : db.journal.find (journalRow e).key = none,
      (db.events.find e.eventId).isSome ∧ b = true ∧
        db' = { db with journal := db.journal.insert (journalRow e) hn }
  := by
  rw [beginEvent] at h
  split at h
  · rename_i r hr
    obtain ⟨rfl, rfl⟩ := Prod.mk.inj (Option.some.inj h)
    exact .inl ⟨r, hr, rfl, rfl⟩
  · rename_i hn
    split at h
    · rename_i he
      obtain ⟨rfl, rfl⟩ := Prod.mk.inj (Option.some.inj h)
      exact .inr ⟨hn, he.1, rfl, rfl⟩
    · contradiction

/-- A reaction that `begin_event` finds unprocessed is recorded as such. -/
theorem beginEvent_true {db db' : Db} {e : Event}
    (h : beginEvent db e = some (db', true)) :
  Unprocessed db' e.reaction
  := by
  rcases beginEvent_cases h with ⟨r, hr, hp, rfl⟩ | ⟨hn, -, -, rfl⟩
  · use r, hr
    apply Option.isNone_iff_eq_none.mp hp.symm
  · use journalRow e
    constructor
    · rw [← key_journalRow, Table.find_insert, if_pos rfl]
    · rfl

/-- `begin_event` leaves what is unprocessed as it is. -/
theorem Unprocessed.beginEvent {db db' : Db} {e : Event} {b : Bool} {k : Reaction}
    (hk : Unprocessed db k) (h : Store.beginEvent db e = some (db', b)) :
  Unprocessed db' k
  := by
  rcases beginEvent_cases h with ⟨r, hr, hp, rfl⟩ | ⟨hn, -, -, rfl⟩
  · apply hk
  · obtain ⟨r, hr, hp⟩ := hk
    use r
    rw [Table.find_insert, if_neg]
    · exact ⟨hr, hp⟩
    · rintro rfl
      rw [hn] at hr
      contradiction

theorem find_markProcessed (db : Db) (k k' : Reaction) :
  (markProcessed db k).journal.find k' =
    (db.journal.find k').map fun r => if k' = k then r.mark db.now else r
  := by
  rw [markProcessed, Table.find_update]
  cases h : db.journal.find k' with
  | none => rfl
  | some r =>
      obtain rfl := Table.key_of_find h
      simp

/-- `mark_processed` leaves the other reactions as they are. -/
theorem Unprocessed.markProcessed {db : Db} {k k' : Reaction} (h : Unprocessed db k')
    (hne : k' ≠ k) :
  Unprocessed (markProcessed db k) k'
  := by
  obtain ⟨r, hr, hp⟩ := h
  use r
  rw [find_markProcessed, hr, Option.map_some, if_neg hne]
  exact ⟨rfl, hp⟩

/-- `mark_processed` marks a recorded reaction. -/
theorem Unprocessed.processedAt_markProcessed {db : Db} {k : Reaction} (h : Unprocessed db k) :
  (Store.markProcessed db k).processedAt k ≠ none
  := by
  obtain ⟨r, hr, -⟩ := h
  rw [Db.processedAt, find_markProcessed, hr, Option.map_some, if_pos rfl]
  apply Option.some_ne_none

/-- What is marked as processed stays so. -/
theorem processedAt_markProcessed {db : Db} {k k' : Reaction} (h : db.processedAt k' ≠ none) :
  (markProcessed db k).processedAt k' ≠ none
  := by
  rw [Db.processedAt] at h ⊢
  rw [find_markProcessed]
  cases hr : db.journal.find k' with
  | none =>
      rw [hr] at h
      contradiction
  | some r =>
      rw [hr] at h
      rw [Option.map_some]
      split
      · apply Option.some_ne_none
      · apply h

/-- `begin_event` writes nothing but the journal, and marks nothing as processed. -/
theorem beginEvent_frame {db db' : Db} {e : Event} {b : Bool}
    (h : beginEvent db e = some (db', b)) :
  (∃ journal, db' = { db with journal }) ∧ db'.processedAt = db.processedAt
  := by
  rcases beginEvent_cases h with ⟨r, hr, hp, rfl⟩ | ⟨hn, -, -, rfl⟩
  · exact ⟨⟨_, rfl⟩, rfl⟩
  · refine ⟨⟨_, rfl⟩, ?_⟩
    funext k
    simp only [Db.processedAt, Table.find_insert]
    split
    · rename_i hk
      rw [hk, hn]
      rfl
    · rfl

end Store

end Runner
