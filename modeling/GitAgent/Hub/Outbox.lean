import Mathlib.Data.List.Infix
import GitAgent.Library.Transition
import GitAgent.Hub.Runners

/-!
# The outbox worker

One worker publishes the messages of the outbox (`OutboxService` in `internal/hub/app/outbox.go`):
it reads a batch of unpublished rows in the order of their ids, publishes each and marks it when
the publication is confirmed, and stops at the first failure, until the next tick. A call that
fails may have had its effect.
-/

namespace Hub

open Transition

namespace OutboxService

/-- How a call ends: without an error, or with one, and then with its effect or without. -/
inductive Reply
  | ok
  | failed (effect : Bool)
  deriving DecidableEq, Repr

/-- Whether a call had its effect. -/
def Reply.effect : Reply → Bool
  | .ok => true
  | .failed effect => effect

/-- What becomes of each call of the worker: whether the query fails, and how `Publish` and
`MarkPublished` end. -/
structure Environment where
  unpublished : ℕ → Bool
  publish : ℕ → Reply
  markPublished : ℕ → Reply

/-- A row that the worker tried to publish, and, if the publication was confirmed, to mark. -/
structure Attempt where
  row : OutboxRow
  publish : Reply
  mark : Option Reply := none
  deriving DecidableEq, Repr

namespace Attempt

variable (a : Attempt)

/-- The broker has the message. -/
def Sent : Prop :=
  a.publish.effect = true

/-- The publication was confirmed, and the row was marked. -/
def Marks : Prop :=
  a.publish = .ok ∧ a.mark.any Reply.effect = true

/-- Nothing failed. -/
def Done : Prop :=
  a.publish = .ok ∧ a.mark = some .ok

instance : Decidable a.Sent :=
  inferInstanceAs (Decidable (_ = _))

instance : Decidable a.Marks :=
  inferInstanceAs (Decidable (_ ∧ _))

end Attempt

/-- The database, the number of calls that the worker has made, and the rows it has tried to
publish, in order. -/
structure State where
  db : Db
  calls : ℕ := 0
  attempts : List Attempt := []

end OutboxService

namespace Db

/-- The rows that are not published, in the order of their ids. -/
def pending (db : Db) : List OutboxRow :=
  db.outbox.rows.filter fun o => o.publishedAt = none

/-- `Unpublished`. -/
def unpublished (db : Db) (limit : ℕ) : List OutboxRow :=
  db.pending.take limit

end Db

namespace OutboxService

variable (E : Environment)

namespace State

variable (s : State)

/-- The worker has tried to publish a row. -/
def tried (a : Attempt) (db : Db) : State where
  db
  calls := s.calls + 1
  attempts := s.attempts ++ [a]

/-- The publication of a row, and whether the worker goes on. -/
def publish (m : OutboxRow) : State × Bool :=
  match E.publish s.calls with
  | .failed sent => (s.tried ⟨m, .failed sent, none⟩ s.db, false)
  | .ok =>
      let s := { s with calls := s.calls + 1 }
      match E.markPublished s.calls with
      | .failed marked =>
          (s.tried ⟨m, .ok, some (.failed marked)⟩ (if marked then s.db.markPublished m.id else s.db),
            false)
      | .ok => (s.tried ⟨m, .ok, some .ok⟩ (s.db.markPublished m.id), true)

/-- The publication of a batch, and whether the worker goes on. -/
def publishBatch (s : State) : List OutboxRow → State × Bool
  | [] => (s, true)
  | m :: batch =>
      match s.publish E m with
      | (s, true) => s.publishBatch batch
      | (s, false) => (s, false)

end State

/-- The loop of `drain`, for at most `n` rounds. -/
def drainLoop (batchSize : ℕ) : ℕ → State → Option State
  | 0, _ => none
  | n + 1, s =>
      if E.unpublished s.calls then some { s with calls := s.calls + 1 }
      else
        let batch := s.db.unpublished batchSize
        let s := { s with calls := s.calls + 1 }
        if batch = [] then some s
        else match s.publishBatch E batch with
          | (s, false) => some s
          | (s, true) => if batch.length < batchSize then some s else drainLoop batchSize n s

/-- `drain`, which needs no more rounds than there are rows, and one. -/
def drain (batchSize : ℕ) (s : State) : Option State :=
  drainLoop E batchSize (s.db.outbox.rows.length + 1) s

/-- What happens to the table: the worker drains it, and between two drains a message is inserted.
-/
inductive Act
  | drain
  | insert (eventId : EventId) (routingKey : String) (payload : Message)

/-- The worker, from any table. -/
def worker (batchSize : ℕ) : System State Act where
  init s := s.attempts = []
  step s
    | .drain => drain E batchSize s
    | .insert eventId routingKey payload =>
        some { s with db := s.db.insertOutbox eventId routingKey payload }

end OutboxService

/-! ### Marked rows -/

namespace Db

/-- Rows are marked one after the other. -/
def markAll (db : Db) (ids : List ℕ) : Db :=
  ids.foldl markPublished db

variable {db : Db}

theorem outbox_markAll (db : Db) (ids : List ℕ) :
  (db.markAll ids).now = db.now ∧ (db.markAll ids).outbox.next = db.outbox.next ∧
    (db.markAll ids).outbox.rows =
      db.outbox.rows.map fun o => if o.id ∈ ids then { o with publishedAt := some db.now } else o
  := by
  induction ids generalizing db with
  | nil =>
      refine ⟨rfl, rfl, ?_⟩
      simp [markAll]
  | cons id ids ih =>
      obtain ⟨hnow, hnext, hrows⟩ := ih (db.markPublished id)
      refine ⟨hnow, hnext, ?_⟩
      rw [markAll, List.foldl_cons, ← markAll, hrows, markPublished]
      dsimp only [Serial.update, Table.update]
      rw [List.map_map]
      apply List.map_congr_left
      intro o _
      rw [Function.comp_apply]
      by_cases hid : o.id = id
      · simp [hid]
      · simp [hid]

/-- The rows that are marked are pending no more. -/
theorem pending_markAll (db : Db) (ids : List ℕ) :
  (db.markAll ids).pending = db.pending.filter fun o => o.id ∉ ids
  := by
  rw [pending, (outbox_markAll db ids).2.2, pending, List.filter_map, List.filter_filter]
  apply (List.map_congr_left _).trans _
  · exact id
  · intro o ho
    have hmem := (List.mem_filter.mp ho).2
    rw [Function.comp_apply] at hmem
    split at hmem
    · contradiction
    · rename_i hid
      rw [if_neg hid, id]
  · rw [List.map_id]
    apply List.filter_congr
    intro o _
    rw [Function.comp_apply]
    by_cases hid : o.id ∈ ids
    · simp [hid]
    · simp [hid]

theorem sorted_pending (db : Db) :
  db.pending.Pairwise fun o o' => o.id < o'.id
  := db.outbox.sorted.filter _

theorem length_pending_le (db : Db) :
  db.pending.length ≤ db.outbox.rows.length
  := List.length_filter_le _ _

/-- When the first of the pending rows are marked, the others are pending. -/
theorem pending_markAll_of_append {rows rest : List OutboxRow} (h : db.pending = rows ++ rest) :
  (db.markAll (rows.map OutboxRow.id)).pending = rest
  := by
  have hsorted := sorted_pending db
  rw [h] at hsorted
  obtain ⟨-, -, hlt⟩ := List.pairwise_append.mp hsorted
  rw [pending_markAll, h, List.filter_append, List.filter_eq_nil_iff.mpr, List.nil_append,
    List.filter_eq_self.mpr]
  · intro o ho
    rw [decide_eq_true_eq]
    intro hid
    obtain ⟨o', ho', heq⟩ := List.mem_map.mp hid
    apply (hlt o' ho' o ho).ne heq
  · intro o ho
    rw [decide_eq_true_eq, not_not]
    apply List.mem_map_of_mem ho

end Db

/-! ### One drain -/

namespace OutboxService

variable {E : Environment} {s s' s'' : State} {as as' : List Attempt} {rows : List OutboxRow}

/-- What the worker does to pending rows: it tries the first of them, in order, and goes on while
nothing fails. -/
inductive Pass : List OutboxRow → List Attempt → Prop
  | nil (rows : List OutboxRow) : Pass rows []
  | last {a : Attempt} {rows : List OutboxRow} (h : ¬ a.Done) : Pass (a.row :: rows) [a]
  | next {a : Attempt} {rows : List OutboxRow} {as : List Attempt} (h : a.Done) (hs : Pass rows as) :
      Pass (a.row :: rows) (a :: as)

/-- The worker has tried rows, and those are marked whose publication was confirmed and whose mark
succeeded. -/
structure Extends (s s' : State) (as : List Attempt) : Prop where
  attempts : s'.attempts = s.attempts ++ as
  db : s'.db = s.db.markAll ((as.filter fun a => a.Marks).map fun a => a.row.id)

theorem Attempt.Done.marks {a : Attempt} (h : a.Done) :
  a.Marks
  := ⟨h.1, by rw [h.2]; rfl⟩

theorem filter_marks_of_done (h : ∀ a ∈ as, a.Done) :
  as.filter (fun a => a.Marks) = as
  := by
  apply List.filter_eq_self.mpr
  intro a ha
  apply decide_eq_true (h a ha).marks

theorem Extends.nil (hs : s'.attempts = s.attempts) (hdb : s'.db = s.db) :
  Extends s s' []
  := ⟨by rw [hs, List.append_nil], hdb⟩

theorem Extends.trans (h : Extends s s' as) (h' : Extends s' s'' as') :
  Extends s s'' (as ++ as')
  := by
  constructor
  · rw [h'.attempts, h.attempts, List.append_assoc]
  · rw [h'.db, h.db, List.filter_append, List.map_append, Db.markAll, Db.markAll, Db.markAll,
      List.foldl_append]

namespace Pass

/-- The rows that were tried are the first ones. -/
theorem tried (h : Pass rows as) :
  as.map Attempt.row <+: rows
  := by
  induction h with
  | nil rows => apply List.nil_prefix
  | last _ => exact ⟨_, rfl⟩
  | next _ _ ih =>
      obtain ⟨rest, hrest⟩ := ih
      exact ⟨rest, by rw [List.map_cons, List.cons_append, hrest]⟩

/-- At most one row is published and not marked. -/
theorem unmarked (h : Pass rows as) :
  as.countP (fun a => a.Sent ∧ ¬ a.Marks) ≤ 1
  := by
  induction h with
  | nil rows => apply Nat.zero_le
  | last _ => apply List.countP_le_length
  | @next a _ as hdone _ ih =>
      rw [List.countP_cons_of_neg]
      · apply ih
      · rw [decide_eq_true_eq]
        intro hmarks
        apply hmarks.2 hdone.marks

/-- Before a row is tried, nothing failed. -/
theorem done (h : Pass rows as) {before after : List Attempt} {a : Attempt}
    (has : as = before ++ a :: after) :
  ∀ b ∈ before, b.Done
  := by
  induction h generalizing before with
  | nil rows => simp at has
  | last _ =>
      intro b hb
      cases before with
      | nil => contradiction
      | cons _ before => simp at has
  | next hdone _ ih =>
      cases before with
      | nil =>
          intro b hb
          contradiction
      | cons b' before =>
          obtain ⟨rfl, hrest⟩ := List.cons.inj has
          apply List.forall_mem_cons.mpr ⟨hdone, ih hrest⟩

theorem append_right (h : Pass rows as) (rest : List OutboxRow) :
  Pass (rows ++ rest) as
  := by
  induction h with
  | nil rows => exact .nil _
  | last hd => exact .last hd
  | next hd _ ih => exact .next hd ih

/-- After rows of which none failed the worker goes on. -/
theorem append (hd : ∀ a ∈ as, a.Done) (h : Pass rows as') :
  Pass (as.map Attempt.row ++ rows) (as ++ as')
  := by
  induction as with
  | nil => apply h
  | cons a as ih =>
      exact .next (hd a List.mem_cons_self) (ih fun b hb => hd b (List.mem_cons_of_mem _ hb))

end Pass

/-- The publication of one row. -/
theorem publish_spec (E : Environment) (s : State) (m : OutboxRow) :
  ∃ a, a.row = m ∧ Extends s (s.publish E m).1 [a] ∧ ((s.publish E m).2 = true ↔ a.Done)
  := by
  rw [State.publish]
  cases hp : E.publish s.calls with
  | failed sent =>
      refine ⟨⟨m, .failed sent, none⟩, rfl, ⟨rfl, rfl⟩, ?_⟩
      simp [Attempt.Done]
  | ok =>
      dsimp only
      cases hm : E.markPublished (s.calls + 1) with
      | failed marked =>
          refine ⟨⟨m, .ok, some (.failed marked)⟩, rfl, ⟨rfl, ?_⟩, ?_⟩
          · cases marked with
            | true => rfl
            | false => rfl
          · simp [Attempt.Done]
      | ok =>
          refine ⟨⟨m, .ok, some .ok⟩, rfl, ⟨rfl, rfl⟩, ?_⟩
          simp [Attempt.Done]

/-- The publication of a batch. -/
theorem publishBatch_spec (E : Environment) (s : State) (batch : List OutboxRow) :
  ∃ as, Extends s (s.publishBatch E batch).1 as ∧ Pass batch as ∧
    ((s.publishBatch E batch).2 = true → as.map Attempt.row = batch ∧ ∀ a ∈ as, a.Done)
  := by
  induction batch generalizing s with
  | nil => exact ⟨[], .nil rfl rfl, .nil _, fun _ => ⟨rfl, by simp⟩⟩
  | cons m batch ih =>
      obtain ⟨a, rfl, hext, hgo⟩ := publish_spec E s m
      rw [State.publishBatch]
      rcases hs₁ : s.publish E a.row with ⟨s₁, go⟩
      rw [hs₁] at hext hgo
      cases go with
      | false =>
          refine ⟨[a], hext, .last ?_, fun h => absurd h Bool.false_ne_true⟩
          intro hdone
          apply absurd (hgo.mpr hdone) Bool.false_ne_true
      | true =>
          have hdone := hgo.mp rfl
          obtain ⟨as, hext', hpass, hall⟩ := ih s₁
          refine ⟨a :: as, hext.trans hext', .next hdone hpass, fun h => ?_⟩
          obtain ⟨hrows, hd⟩ := hall h
          exact ⟨by rw [List.map_cons, hrows], List.forall_mem_cons.mpr ⟨hdone, hd⟩⟩

/-- The rows that are pending once the first ones are marked. -/
theorem Extends.pending (h : Extends s s' as) (hd : ∀ a ∈ as, a.Done) {rest : List OutboxRow}
    (hrows : s.db.pending = as.map Attempt.row ++ rest) :
  s'.db.pending = rest
  := by
  have hids : as.map (fun a => a.row.id) = (as.map Attempt.row).map OutboxRow.id := by
    rw [List.map_map]
    rfl
  rw [h.db, filter_marks_of_done hd, hids]
  apply Db.pending_markAll_of_append hrows

/-- One round of the loop: it is the last, or all of its rows are marked and the next ones follow.
-/
theorem drainLoop_succ (E : Environment) (batchSize : ℕ) (s : State) :
  (∃ s' as, (∀ n, drainLoop E batchSize (n + 1) s = some s') ∧ Extends s s' as ∧
      Pass s.db.pending as) ∨
    ∃ s' as, (∀ n, drainLoop E batchSize (n + 1) s = drainLoop E batchSize n s') ∧
      Extends s s' as ∧ as ≠ [] ∧ (∀ a ∈ as, a.Done) ∧
      s.db.pending = as.map Attempt.row ++ s'.db.pending
  := by
  by_cases hpoll : E.unpublished s.calls = true
  · refine .inl ⟨{ s with calls := s.calls + 1 }, [], fun n => ?_, .nil rfl rfl, .nil _⟩
    rw [drainLoop, if_pos hpoll]
  by_cases hbatch : s.db.unpublished batchSize = []
  · refine .inl ⟨{ s with calls := s.calls + 1 }, [], fun n => ?_, .nil rfl rfl, .nil _⟩
    rw [drainLoop, if_neg hpoll]
    dsimp only
    rw [if_pos hbatch]
  obtain ⟨as, hext, hpass, hall⟩ :=
    publishBatch_spec E { s with calls := s.calls + 1 } (s.db.unpublished batchSize)
  rcases hs' : State.publishBatch E { s with calls := s.calls + 1 } (s.db.unpublished batchSize)
    with ⟨s', go⟩
  rw [hs'] at hext hall
  replace hext : Extends s s' as := ⟨hext.attempts, hext.db⟩
  have hpending : s.db.pending = s.db.unpublished batchSize ++ s.db.pending.drop batchSize :=
    (List.take_append_drop batchSize s.db.pending).symm
  by_cases hstop : go = false ∨ (s.db.unpublished batchSize).length < batchSize
  · refine .inl ⟨s', as, fun n => ?_, hext, ?_⟩
    · rw [drainLoop, if_neg hpoll]
      dsimp only
      rw [if_neg hbatch, hs']
      rcases hstop with rfl | hshort
      · rfl
      · cases go with
        | false => rfl
        | true =>
            dsimp only
            rw [if_pos hshort]
    · rw [hpending]
      apply hpass.append_right
  · rw [not_or, Bool.not_eq_false] at hstop
    obtain ⟨rfl, hfull⟩ := hstop
    obtain ⟨hrows, hd⟩ := hall rfl
    rw [← hrows] at hpending hbatch
    refine .inr ⟨s', as, fun n => ?_, hext, fun hnil => hbatch (by rw [hnil]; rfl), hd, ?_⟩
    · rw [drainLoop, if_neg hpoll]
      dsimp only
      rw [if_neg (hrows ▸ hbatch), hs']
      dsimp only
      rw [if_neg hfull]
    · rwa [hext.pending hd hpending]

/-- **The loop ends**, after no more rounds than rows are pending, and one. -/
theorem drainLoop_spec (E : Environment) (batchSize : ℕ) (s : State) :
  ∃ s' as, (∀ n, s.db.pending.length < n → drainLoop E batchSize n s = some s') ∧
    Extends s s' as ∧ Pass s.db.pending as
  := by
  generalize hk : s.db.pending.length = k
  induction k using Nat.strong_induction_on generalizing s with
  | h k ih =>
      obtain ⟨s', as, hround, hext, hpass⟩ | ⟨s', as, hround, hext, hne, hd, hpending⟩ :=
        drainLoop_succ E batchSize s
      · refine ⟨s', as, fun n hn => ?_, hext, hpass⟩
        obtain ⟨m, rfl⟩ := Nat.exists_eq_add_one_of_ne_zero (Nat.ne_zero_of_lt hn)
        apply hround
      · have hlt : s'.db.pending.length < k := by
          rw [← hk, hpending, List.length_append, List.length_map]
          apply Nat.lt_add_of_pos_left (List.length_pos_iff.mpr hne)
        obtain ⟨s'', as', hloop, hext', hpass⟩ := ih _ hlt s' rfl
        refine ⟨s'', as ++ as', fun n hn => ?_, hext.trans hext', ?_⟩
        · obtain ⟨m, rfl⟩ := Nat.exists_eq_add_one_of_ne_zero (Nat.ne_zero_of_lt hn)
          rw [hround]
          apply hloop m (by omega)
        · rw [hpending]
          apply Pass.append hd hpass

/-! ### Many drains -/

/-- One of the attempts has marked a row. -/
def MarkedBy (as : List Attempt) (o : OutboxRow) : Prop :=
  ∃ b ∈ as, b.Marks ∧ b.row.id = o.id

/-- A row was published before the worker began. -/
def State.PublishedBefore (s : State) (o : OutboxRow) : Prop :=
  o.publishedAt ≠ none ∧ ∀ b ∈ s.attempts, b.row.id ≠ o.id

/-- No row is skipped: when the worker tries a row, the rows with smaller ids are marked. -/
def State.InOrder (s : State) : Prop :=
  ∀ before a after, s.attempts = before ++ a :: after →
    ∀ o ∈ s.db.outbox.rows, o.id < a.row.id → MarkedBy before o ∨ s.PublishedBefore o

/-- What is known of the table after some drains. -/
structure Kept (s : State) : Prop where
  known : ∀ a ∈ s.attempts, a.row.id < s.db.outbox.next
  settled : ∀ o ∈ s.db.outbox.rows, o.publishedAt ≠ none →
    MarkedBy s.attempts o ∨ s.PublishedBefore o
  inOrder : s.InOrder

theorem MarkedBy.mono {o o' : OutboxRow} (h : MarkedBy as o) (hsub : as ⊆ as') (hid : o'.id = o.id) :
  MarkedBy as' o'
  := by
  obtain ⟨b, hb, hmarks, hb'⟩ := h
  exact ⟨b, hsub hb, hmarks, hb'.trans hid.symm⟩

/-- The rows that were tried were pending. -/
theorem Pass.pending (h : Pass s.db.pending as) {b : Attempt} (hb : b ∈ as) :
  b.row ∈ s.db.outbox.rows ∧ b.row.publishedAt = none
  := by
  have hmem := h.tried.subset (List.mem_map_of_mem hb)
  simpa [Db.pending] using hmem

/-- The rows after a drain. -/
theorem Extends.table (h : Extends s s' as) {o' : OutboxRow} (ho' : o' ∈ s'.db.outbox.rows) :
  ∃ o ∈ s.db.outbox.rows, o'.id = o.id ∧ (o.publishedAt ≠ none → o'.publishedAt ≠ none) ∧
    (MarkedBy as o ∨ o' = o)
  := by
  rw [h.db, (Db.outbox_markAll _ _).2.2] at ho'
  obtain ⟨o, ho, rfl⟩ := List.mem_map.mp ho'
  use o, ho
  split
  · rename_i hid
    obtain ⟨b, hb, hb'⟩ := List.mem_map.mp hid
    obtain ⟨hb, hmarks⟩ := List.mem_filter.mp hb
    refine ⟨rfl, fun _ => Option.some_ne_none _, .inl ⟨b, hb, of_decide_eq_true hmarks, hb'⟩⟩
  · exact ⟨rfl, id, .inr rfl⟩

/-- A row that was published before the worker began still was. -/
theorem Extends.publishedBefore (h : Extends s s' as) (hpass : Pass s.db.pending as)
    {o o' : OutboxRow} (ho : o ∈ s.db.outbox.rows) (hid : o'.id = o.id)
    (hpub : o.publishedAt ≠ none → o'.publishedAt ≠ none) (hb : s.PublishedBefore o) :
  s'.PublishedBefore o'
  := by
  refine ⟨hpub hb.1, ?_⟩
  rw [h.attempts]
  intro b hmem
  rw [hid]
  rcases List.mem_append.mp hmem with hmem | hmem
  · apply hb.2 b hmem
  · obtain ⟨hrow, hnone⟩ := hpass.pending hmem
    intro heq
    obtain rfl := List.inj_on_of_nodup_map s.db.outbox.nodup hrow ho heq
    apply hb.1 hnone

/-- The rows with smaller ids than a pending one are tried before it, or are published. -/
theorem Pass.before (h : Pass s.db.pending as) {before after : List Attempt} {a : Attempt}
    (has : as = before ++ a :: after) {o : OutboxRow} (ho : o ∈ s.db.outbox.rows)
    (hlt : o.id < a.row.id) (hnone : o.publishedAt = none) :
  MarkedBy before o
  := by
  obtain ⟨rest, hrest⟩ := h.tried
  rw [has, List.map_append, List.map_cons, List.append_assoc, List.cons_append] at hrest
  have hsorted := Db.sorted_pending s.db
  have hmem : o ∈ s.db.pending := List.mem_filter.mpr ⟨ho, decide_eq_true hnone⟩
  rw [← hrest] at hsorted hmem
  obtain ⟨-, hafter, -⟩ := List.pairwise_append.mp hsorted
  rcases List.mem_append.mp hmem with hmem | hmem
  · obtain ⟨b, hb, rfl⟩ := List.mem_map.mp hmem
    exact ⟨b, hb, (h.done has b hb).marks, rfl⟩
  · rcases List.mem_cons.mp hmem with rfl | hmem
    · omega
    · have hgt := List.rel_of_pairwise_cons hafter hmem
      omega

/-- A place in two lists is in the first or in the second. -/
theorem append_eq_append_cons {α : Type} {xs ys before after : List α} {a : α}
    (h : xs ++ ys = before ++ a :: after) :
  (∃ mid, xs = before ++ a :: mid) ∨ ∃ new, before = xs ++ new ∧ ys = new ++ a :: after
  := by
  rcases List.append_eq_append_iff.mp h with ⟨new, hbefore, hys⟩ | ⟨mid, hxs, hmid⟩
  · exact .inr ⟨new, hbefore, hys⟩
  · cases mid with
    | nil =>
        right
        rw [List.append_nil] at hxs
        exact ⟨[], by rw [List.append_nil, hxs], hmid.symm⟩
    | cons b mid =>
        obtain ⟨rfl, -⟩ := List.cons.inj hmid
        exact .inl ⟨mid, hxs⟩

namespace Kept

/-- A drain skips no row. -/
theorem extend (h : Kept s) (hext : Extends s s' as) (hpass : Pass s.db.pending as) :
  Kept s'
  := by
  have hsub : s.attempts ⊆ s'.attempts := by
    rw [hext.attempts]
    apply List.subset_append_left
  constructor
  · rw [hext.attempts, hext.db, (Db.outbox_markAll _ _).2.1]
    apply List.forall_mem_append.mpr ⟨h.known, fun b hb => _⟩
    intro b hb
    apply s.db.outbox.lt_next _ (hpass.pending hb).1
  · intro o' ho' hpub'
    obtain ⟨o, ho, hid, hpub, hmarked | rfl⟩ := hext.table ho'
    · left
      apply hmarked.mono _ hid
      rw [hext.attempts]
      apply List.subset_append_right
    · rcases h.settled o' ho hpub' with hmarked | hbefore
      · exact .inl (hmarked.mono hsub rfl)
      · exact .inr (hext.publishedBefore hpass ho rfl id hbefore)
  · intro before a after heq o' ho' hlt
    obtain ⟨o, ho, hid, hpub, -⟩ := hext.table ho'
    rw [hid] at hlt
    rw [hext.attempts] at heq
    rcases append_eq_append_cons heq with ⟨mid, hold⟩ | ⟨new, rfl, has⟩
    · -- a row of an earlier drain
      rcases h.inOrder before a mid hold o ho hlt with hmarked | hbefore
      · exact .inl (hmarked.mono (List.Subset.refl _) hid)
      · exact .inr (hext.publishedBefore hpass ho hid hpub hbefore)
    · -- a row of this drain
      by_cases hnone : o.publishedAt = none
      · left
        apply (hpass.before has ho hlt hnone).mono _ hid
        apply List.subset_append_right
      · rcases h.settled o ho hnone with hmarked | hbefore
        · left
          apply hmarked.mono _ hid
          apply List.subset_append_left
        · exact .inr (hext.publishedBefore hpass ho hid hpub hbefore)

/-- A row that is inserted comes after all others. -/
theorem insert (h : Kept s) (eventId : EventId) (routingKey : String) (payload : Message) :
  Kept { s with db := s.db.insertOutbox eventId routingKey payload }
  := by
  have hrows : (s.db.insertOutbox eventId routingKey payload).outbox.rows =
      s.db.outbox.rows ++ [.fresh eventId routingKey payload s.db.outbox.next] := rfl
  constructor
  · intro a ha
    apply Nat.lt_succ_of_lt (h.known a ha)
  · intro o ho hpub
    dsimp only at ho
    rw [hrows] at ho
    rcases List.mem_append.mp ho with ho | ho
    · apply h.settled o ho hpub
    · obtain rfl := List.mem_singleton.mp ho
      apply absurd rfl hpub
  · intro before a after heq o ho hlt
    dsimp only at ho
    rw [hrows] at ho
    rcases List.mem_append.mp ho with ho | ho
    · apply h.inOrder before a after heq o ho hlt
    · obtain rfl := List.mem_singleton.mp ho
      have hknown := h.known a (heq ▸ List.mem_append_right _ List.mem_cons_self)
      rw [OutboxRow.id_fresh] at hlt
      omega

end Kept

variable {batchSize : ℕ}

theorem kept_of_reachable (h : (worker E batchSize).Reachable s) :
  Kept s
  := by
  apply h.invariant
  · intro s hs
    change s.attempts = [] at hs
    refine ⟨by simp [hs], fun o _ hpub => .inr ⟨hpub, by simp [hs]⟩, ?_⟩
    intro before a after heq
    simp [hs] at heq
  · intro s a s' hkept _ hs
    cases a with
    | drain =>
        obtain ⟨s'', as, hloop, hext, hpass⟩ := drainLoop_spec E batchSize s
        have hdrain := hloop (s.db.outbox.rows.length + 1)
          (Nat.lt_succ_of_le (Db.length_pending_le s.db))
        obtain rfl := Option.some.inj (hdrain.symm.trans hs)
        apply hkept.extend hext hpass
    | insert eventId routingKey payload =>
        obtain rfl := Option.some.inj hs
        apply hkept.insert

/-- **What a drain does**, to any table and whatever fails: it ends, and it has tried rows that are
the first of the pending ones, with increasing ids; exactly those rows are marked whose publication
was confirmed and whose mark succeeded; and at most one row is published and not marked. Over many
drains no row is skipped: when a row is tried, all rows with smaller ids are marked. -/
theorem drain_inOrder (h : (worker E batchSize).Reachable s) :
  (∃ s' as, (∀ n, s.db.outbox.rows.length < n → drainLoop E batchSize n s = some s') ∧
      s'.attempts = s.attempts ++ as ∧ as.map Attempt.row <+: s.db.pending ∧
      (as.map fun a => a.row.id).Pairwise (· < ·) ∧
      s'.db.outbox.rows = (s.db.outbox.rows.map fun o =>
        if ∃ a ∈ as, a.Marks ∧ a.row.id = o.id then { o with publishedAt := some s.db.now } else o) ∧
      as.countP (fun a => a.Sent ∧ ¬ a.Marks) ≤ 1) ∧
    s.InOrder
  := by
  refine ⟨?_, (kept_of_reachable h).inOrder⟩
  obtain ⟨s', as, hloop, hext, hpass⟩ := drainLoop_spec E batchSize s
  refine ⟨s', as, fun n hn => ?_, hext.attempts, hpass.tried, ?_, ?_, hpass.unmarked⟩
  · apply hloop n (Nat.lt_of_le_of_lt (Db.length_pending_le s.db) hn)
  · have hsorted := (Db.sorted_pending s.db).sublist hpass.tried.sublist
    rw [List.pairwise_map] at hsorted ⊢
    apply hsorted
  · rw [hext.db, (Db.outbox_markAll _ _).2.2]
    apply List.map_congr_left
    intro o _
    apply if_congr _ rfl rfl
    simp only [List.mem_map, List.mem_filter, decide_eq_true_eq, and_assoc]

/-- The second mark fails without an effect. -/
def sampleEnvironment : Environment where
  unpublished _ := false
  publish _ := .ok
  markPublished n := if n = 4 then .failed false else .ok

/-- Three messages are inserted and drained twice; the second of them is published twice. -/
theorem drain_inOrder_sample :
  ∃ s, (worker sampleEnvironment 2).Reachable s ∧
    s.attempts.map (fun a => a.row.id) = [1, 2, 2, 3] ∧ s.InOrder
  := by
  let message := eventMessage 1 1 "hub-1-1" { id := 1, userId := 1, provider := "github" }
    { deliveryId := "delivery", action := "push", commitSha := "c" }
  obtain ⟨s, hs, hp⟩ := exists_reach_of_run (T := worker sampleEnvironment 2)
    (G := fun _ _ => True) (s := { db := Db.empty }) rfl
    [.insert 1 "push" message, .insert 1 "push" message, .insert 1 "push" message, .drain, .drain]
    (fun s => s.attempts.map (fun a => a.row.id) = [1, 2, 2, 3]) (by decide +kernel)
  exact ⟨s, hs, of_decide_eq_true hp, (drain_inOrder hs).2⟩

end OutboxService

end Hub
