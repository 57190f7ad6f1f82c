import Mathlib.Data.List.Nodup
import Mathlib.Logic.Function.Basic
import GitAgent.Library.Transition

/-!
# A topic with replay

Items are published on a topic until it is closed. A reader that joins a topic that is not closed
subscribes a queue, and in the same step takes the items published so far; it reads these, and then
its queue, to which each further item is put, and at last the end. A reader that joins a closed
topic only reads the items. No reader loses an item or is given one twice, whenever it joins and
however slowly it reads.
-/

universe u

/-- Where a reader is: at the items that were published when it joined, at its queue, at the end, or
gone before the end. -/
inductive Broadcast.Phase (α : Type u)
  | replay (snapshot : List α)
  | live
  | ended
  | left
  deriving DecidableEq, Repr

/-- A reader, with its queue, where `none` is the end, and what it has received. -/
structure Broadcast.Reader (α : Type u) where
  phase : Broadcast.Phase α
  queue : List (Option α) := []
  received : List α := []
  deriving DecidableEq, Repr

/-- A topic, with the readers that subscribe to it, and all readers. -/
structure Broadcast (α : Type u) where
  items : List α := []
  closed : Bool := false
  subscribers : List ℕ := []
  readers : ℕ → Option (Broadcast.Reader α) := fun _ => none

namespace Broadcast

variable {α : Type u}

/-! ### Steps -/

section

variable (T : Broadcast α)

/-- Putting an item in the queue of a reader. -/
def put (item : Option α) (k : ℕ) : Broadcast α :=
  { T with
    readers := Function.update T.readers k
      ((T.readers k).map fun r => { r with queue := r.queue ++ [item] }) }

/-- Putting an item in the queues of the subscribers, one after the other. -/
def notify (item : Option α) : Broadcast α :=
  T.subscribers.foldl (fun T k => T.put item k) T

/-- An item is published. -/
def publish (a : α) : Broadcast α :=
  notify { T with items := T.items ++ [a] } (some a)

/-- The topic is closed. -/
def close : Broadcast α :=
  notify { T with closed := true } none

/-- What a reader is changed to. -/
def set (k : ℕ) (r : Reader α) : Broadcast α :=
  { T with readers := Function.update T.readers k (some r) }

/-- A reader joins, and subscribes unless the topic is closed. -/
def join (k : ℕ) : Broadcast α :=
  set { T with subscribers := if T.closed then T.subscribers else T.subscribers ++ [k] } k
    { phase := .replay T.items }

/-- A reader stops, and subscribes no longer. -/
def stop (k : ℕ) (r : Reader α) (p : Phase α) : Broadcast α :=
  set { T with subscribers := T.subscribers.erase k } k { r with phase := p }

/-- A reader reads on, if there is something to be read. -/
def advance (k : ℕ) : Option (Broadcast α) :=
  match T.readers k with
  | none => some (T.join k)
  | some r =>
      match r.phase, r.queue with
      | .replay (a :: snapshot), _ =>
          some (T.set k { r with phase := .replay snapshot, received := r.received ++ [a] })
      | .replay [], _ =>
          if T.closed ∧ k ∉ T.subscribers then some (T.stop k r .ended)
          else some (T.set k { r with phase := .live })
      | .live, some a :: queue =>
          some (T.set k { r with queue, received := r.received ++ [a] })
      | .live, none :: queue => some (T.stop k { r with queue } .ended)
      | _, _ => none

/-- A reader goes before the end. -/
def leave (k : ℕ) : Option (Broadcast α) :=
  match T.readers k with
  | some r =>
      match r.phase with
      | .replay _ | .live => some (T.stop k r .left)
      | _ => none
  | none => none

end

/-- The steps: an item is published, or the topic is closed, while it is open; and a reader reads
on, or goes. -/
inductive Action (α : Type u)
  | publish (a : α)
  | close
  | advance (k : ℕ)
  | leave (k : ℕ)
  deriving DecidableEq, Repr

/-- The topic after an action, if it is enabled. -/
def act (T : Broadcast α) : Action α → Option (Broadcast α)
  | .publish a => if T.closed then none else some (T.publish a)
  | .close => if T.closed then none else some T.close
  | .advance k => T.advance k
  | .leave k => T.leave k

/-! ### What the steps do -/

section

variable {T : Broadcast α}

theorem foldl_put (item : Option α) (ks : List ℕ) (h : ks.Nodup) (T : Broadcast α) :
  ks.foldl (fun T k => T.put item k) T = { T with
    readers := fun k =>
      if k ∈ ks then (T.readers k).map fun r => { r with queue := r.queue ++ [item] }
      else T.readers k }
  := by
  induction ks generalizing T with
  | nil =>
      rw [List.foldl_nil]
      simp only [List.not_mem_nil, if_false]
  | cons k ks ih =>
      obtain ⟨hk, hks⟩ := List.nodup_cons.mp h
      rw [List.foldl_cons, ih hks, put]
      dsimp only
      congr 1
      funext k'
      by_cases hkk : k' = k
      · subst hkk
        rw [if_neg hk, if_pos List.mem_cons_self, Function.update_self]
      · rw [Function.update_of_ne hkk]
        simp only [List.mem_cons, hkk, false_or]

/-- Each subscriber is given an item once. -/
theorem notify_eq (item : Option α) (h : T.subscribers.Nodup) :
  T.notify item = { T with
    readers := fun k =>
      if k ∈ T.subscribers then (T.readers k).map fun r => { r with queue := r.queue ++ [item] }
      else T.readers k }
  := foldl_put item T.subscribers h T

/-- What a queue ends with. -/
def ending (closed : Bool) : List (Option α) :=
  if closed then [none] else []

/-- What a reader has received, and what it will, is what was published. -/
def Sound (T : Broadcast α) (k : ℕ) (r : Reader α) : Prop :=
  match r.phase with
  | .replay snapshot =>
      if k ∈ T.subscribers then
        ∃ items, r.queue = items.map some ++ ending T.closed ∧
          r.received ++ snapshot ++ items = T.items
      else T.closed = true ∧ r.received ++ snapshot = T.items
  | .live => k ∈ T.subscribers ∧ ∃ items, r.queue = items.map some ++ ending T.closed ∧
      r.received ++ items = T.items
  | .ended => k ∉ T.subscribers ∧ T.closed = true ∧ r.received = T.items
  | .left => k ∉ T.subscribers

/-- The invariant of a topic. -/
structure Inv (T : Broadcast α) : Prop where
  nodup : T.subscribers.Nodup
  joined : ∀ k ∈ T.subscribers, (T.readers k).isSome
  sound : ∀ k r, T.readers k = some r → T.Sound k r

end

variable {T T' : Broadcast α}

/-- What is known of a reader depends on no other reader. -/
theorem Sound.congr {k : ℕ} {r : Reader α} (h : T.Sound k r) (hi : T'.items = T.items)
    (hc : T'.closed = T.closed) (hs : k ∈ T'.subscribers ↔ k ∈ T.subscribers) :
  T'.Sound k r
  := by
  rw [Sound] at h ⊢
  rw [hi, hc]
  split at h <;> simp only [hs] <;> apply h

/-- A reader that subscribes is at the snapshot or at its queue. -/
theorem Sound.queue {k : ℕ} {r : Reader α} (h : T.Sound k r) (hk : k ∈ T.subscribers) :
  ∃ items given, r.queue = items.map some ++ ending T.closed ∧ given ++ items = T.items ∧
    ((∃ snapshot, r.phase = .replay snapshot ∧ given = r.received ++ snapshot) ∨
      r.phase = .live ∧ given = r.received)
  := by
  rw [Sound] at h
  split at h
  · rename_i snapshot hp
    rw [if_pos hk] at h
    obtain ⟨items, hq, hi⟩ := h
    exact ⟨items, _, hq, hi, .inl ⟨snapshot, hp, rfl⟩⟩
  · rename_i hp
    obtain ⟨-, items, hq, hi⟩ := h
    exact ⟨items, _, hq, hi, .inr ⟨hp, rfl⟩⟩
  · apply absurd hk h.1
  · apply absurd hk h

/-- A reader whose queue holds the rest of the items. -/
theorem sound_of_queue {k : ℕ} {r : Reader α} (items given : List α) (hk : k ∈ T.subscribers)
    (hq : r.queue = items.map some ++ ending T.closed) (hi : given ++ items = T.items)
    (hp : (∃ snapshot, r.phase = .replay snapshot ∧ given = r.received ++ snapshot) ∨
      r.phase = .live ∧ given = r.received) :
  T.Sound k r
  := by
  rw [Sound]
  rcases hp with ⟨snapshot, hp, rfl⟩ | ⟨hp, rfl⟩
  · rw [hp]
    dsimp only
    rw [if_pos hk]
    exact ⟨items, hq, hi⟩
  · rw [hp]
    exact ⟨hk, items, hq, hi⟩

namespace Inv

/-- An item, or the end, is put in the queues. -/
theorem notify (h : Inv T) (T' : Broadcast α) {item : Option α} (hopen : T.closed = false)
    (hs : T'.subscribers = T.subscribers) (hr : T'.readers = T.readers)
    (hq : ∀ items, items.map some ++ ending T.closed ++ [item] =
      (items ++ item.toList).map some ++ ending T'.closed)
    (hi : T'.items = T.items ++ item.toList) :
  Inv (T'.notify item)
  := by
  rw [notify_eq item (by rw [hs]; apply h.nodup)]
  constructor
  · dsimp only
    rw [hs]
    apply h.nodup
  · intro k hk
    dsimp only at hk ⊢
    rw [if_pos hk, Option.isSome_map, hr]
    apply h.joined k (hs ▸ hk)
  · intro k r hread
    dsimp only at hread
    rw [hs, hr] at hread
    split at hread
    · rename_i hk
      obtain ⟨r₀, hr₀, rfl⟩ := Option.map_eq_some_iff.mp hread
      obtain ⟨items, given, hqueue, hitems, hp⟩ := (h.sound k r₀ hr₀).queue hk
      apply sound_of_queue (items ++ item.toList) given
      · rw [hs]
        apply hk
      · dsimp only
        rw [hqueue, hq]
      · dsimp only
        rw [hi, ← hitems, List.append_assoc]
      · apply hp
    · rename_i hk
      have hsound := h.sound k r hread
      -- a reader that does not subscribe to an open topic has left it
      rw [Sound] at hsound ⊢
      split at hsound
      · rw [if_neg hk] at hsound
        rw [hopen] at hsound
        apply absurd hsound.1 Bool.false_ne_true
      · apply absurd hsound.1 hk
      · rw [hopen] at hsound
        apply absurd hsound.2.1 Bool.false_ne_true
      · dsimp only
        rw [hs]
        apply hk

theorem publish (h : Inv T) (hopen : T.closed = false) (a : α) :
  Inv (T.publish a)
  := by
  apply h.notify { T with items := T.items ++ [a] } hopen rfl rfl
  · intro items
    rw [ending, hopen]
    simp
  · rfl

theorem close (h : Inv T) (hopen : T.closed = false) :
  Inv T.close
  := by
  apply h.notify { T with closed := true } hopen rfl rfl
  · intro items
    rw [ending, hopen]
    simp [ending]
  · apply (List.append_nil _).symm

/-- A reader changes, and perhaps whether it subscribes. -/
theorem change (h : Inv T) (T' : Broadcast α) {k : ℕ} {r : Reader α} (hi : T'.items = T.items)
    (hc : T'.closed = T.closed) (hread : T'.readers = Function.update T.readers k (some r))
    (hn : T'.subscribers.Nodup)
    (hs : ∀ k', k' ≠ k → (k' ∈ T'.subscribers ↔ k' ∈ T.subscribers)) (hr : T'.Sound k r) :
  Inv T'
  := by
  refine ⟨hn, ?_, ?_⟩
  · intro k' hk'
    rw [hread]
    by_cases hk : k' = k
    · rw [hk, Function.update_self]
      rfl
    · rw [Function.update_of_ne hk]
      apply h.joined k' ((hs k' hk).mp hk')
  · intro k' r' hread'
    rw [hread] at hread'
    by_cases hk : k' = k
    · rw [hk, Function.update_self] at hread'
      obtain rfl := Option.some.inj hread'
      rw [hk]
      apply hr
    · rw [Function.update_of_ne hk] at hread'
      apply (h.sound k' r' hread').congr hi hc (hs k' hk)

/-- A reader changes. -/
theorem set (h : Inv T) {k : ℕ} {r : Reader α} (hr : T.Sound k r) :
  Inv (Broadcast.set T k r)
  := h.change (T.set k r) rfl rfl rfl h.nodup (fun _ _ => Iff.rfl) (hr.congr rfl rfl Iff.rfl)

/-- A reader stops. -/
theorem stop (h : Inv T) {k : ℕ} {r : Reader α} {p : Phase α}
    (hr : (T.stop k r p).Sound k { r with phase := p }) :
  Inv (T.stop k r p)
  := by
  apply h.change (T.stop k r p) rfl rfl rfl (h.nodup.erase k) _ hr
  intro k' hk
  apply List.mem_erase_of_ne hk

theorem join (h : Inv T) {k : ℕ} (hk : T.readers k = none) :
  Inv (T.join k)
  := by
  have hnot : k ∉ T.subscribers := by
    intro hmem
    apply absurd (h.joined k hmem)
    rw [hk]
    exact Bool.false_ne_true
  have hsub : (T.join k).subscribers =
      if T.closed then T.subscribers else T.subscribers ++ [k] := rfl
  by_cases hc : T.closed = true
  · rw [if_pos hc] at hsub
    apply h.change (T.join k) rfl rfl rfl
    · rw [hsub]
      apply h.nodup
    · intro _ _
      rw [hsub]
    · rw [Sound]
      dsimp only
      rw [hsub, if_neg hnot]
      exact ⟨hc, List.nil_append _⟩
  · rw [if_neg hc] at hsub
    apply h.change (T.join k) rfl rfl rfl
    · rw [hsub]
      apply h.nodup.append (List.nodup_singleton k)
      simpa using hnot
    · intro k' hne
      rw [hsub, List.mem_append, List.mem_singleton]
      exact ⟨fun hmem => hmem.resolve_right hne, Or.inl⟩
    · apply sound_of_queue [] T.items
      · rw [hsub]
        apply List.mem_append_right _ (List.mem_singleton_self k)
      · rw [ending, if_neg (show ¬ (T.join k).closed = true from hc)]
        rfl
      · apply List.append_nil
      · exact .inl ⟨T.items, rfl, rfl⟩

/-- A reader reads on. -/
theorem advance (h : Inv T) {k : ℕ} (ha : T.advance k = some T') :
  Inv T'
  := by
  have hgone : k ∉ T.subscribers.erase k := by
    intro hmem
    apply absurd rfl (h.nodup.mem_erase_iff.mp hmem).1
  rw [Broadcast.advance] at ha
  cases hread : T.readers k with
  | none =>
      rw [hread] at ha
      obtain rfl := Option.some.inj ha
      apply h.join hread
  | some r =>
      rw [hread] at ha
      have hsound := h.sound k r hread
      dsimp only at ha
      split at ha
      · rename_i a snapshot _ hp
        obtain rfl := Option.some.inj ha
        apply h.set
        rw [Sound, hp] at hsound
        rw [Sound]
        dsimp only at hsound ⊢
        rw [List.append_assoc, List.singleton_append]
        apply hsound
      · rename_i hp
        rw [Sound, hp] at hsound
        dsimp only at hsound
        split at ha
        · rename_i hend
          obtain rfl := Option.some.inj ha
          rw [if_neg hend.2, List.append_nil] at hsound
          exact h.stop ⟨hgone, hsound⟩
        · rename_i hend
          obtain rfl := Option.some.inj ha
          have hk : k ∈ T.subscribers := by
            by_contra hk
            rw [if_neg hk] at hsound
            apply hend ⟨hsound.1, hk⟩
          rw [if_pos hk, List.append_nil] at hsound
          exact h.set ⟨hk, hsound⟩
      · rename_i a queue hp hq
        obtain rfl := Option.some.inj ha
        rw [Sound, hp] at hsound
        obtain ⟨hk, items, hqueue, hitems⟩ := hsound
        cases items with
        | nil =>
            rw [hq, ending] at hqueue
            split at hqueue <;> simp at hqueue
        | cons b items =>
            rw [hq, List.map_cons, List.cons_append] at hqueue
            obtain ⟨hab, hrest⟩ := List.cons.inj hqueue
            obtain rfl := Option.some.inj hab
            apply h.set
            rw [Sound, hp]
            refine ⟨hk, items, hrest, ?_⟩
            rw [List.append_assoc, List.singleton_append, hitems]
      · rename_i queue hp hq
        obtain rfl := Option.some.inj ha
        rw [Sound, hp] at hsound
        obtain ⟨hk, items, hqueue, hitems⟩ := hsound
        cases items with
        | nil =>
            rw [List.append_nil] at hitems
            rw [hq, ending] at hqueue
            split at hqueue
            · rename_i hc
              exact h.stop ⟨hgone, hc, hitems⟩
            · contradiction
        | cons b items =>
            rw [hq, List.map_cons, List.cons_append] at hqueue
            obtain ⟨hab, -⟩ := List.cons.inj hqueue
            contradiction
      · contradiction

theorem leave (h : Inv T) {k : ℕ} (ha : T.leave k = some T') :
  Inv T'
  := by
  have hgone : k ∉ T.subscribers.erase k := by
    intro hmem
    apply absurd rfl (h.nodup.mem_erase_iff.mp hmem).1
  rw [Broadcast.leave] at ha
  split at ha
  · split at ha
    · obtain rfl := Option.some.inj ha
      apply h.stop
      apply hgone
    · obtain rfl := Option.some.inj ha
      apply h.stop
      apply hgone
    · contradiction
  · contradiction

theorem act (h : Inv T) {a : Action α} (ha : T.act a = some T') :
  Inv T'
  := by
  cases a with
  | publish a =>
      rw [Broadcast.act] at ha
      split at ha
      · contradiction
      · rename_i hopen
        obtain rfl := Option.some.inj ha
        apply h.publish (eq_false_of_ne_true hopen)
  | close =>
      rw [Broadcast.act] at ha
      split at ha
      · contradiction
      · rename_i hopen
        obtain rfl := Option.some.inj ha
        apply h.close (eq_false_of_ne_true hopen)
  | advance k => apply h.advance ha
  | leave k => apply h.leave ha

end Inv

/-- A topic on which nothing was published. -/
theorem inv_init :
  Inv ({} : Broadcast α)
  := by
  refine ⟨List.nodup_nil, ?_, ?_⟩
  · intro k hk
    contradiction
  · intro k r hr
    contradiction

/-- Readers do not close a topic. -/
theorem closed_advance {k : ℕ} (h : T.advance k = some T') :
  T'.closed = T.closed
  := by
  rw [Broadcast.advance] at h
  split at h
  · rw [← Option.some.inj h]
    rfl
  · split at h
    · rw [← Option.some.inj h]
      rfl
    · split at h <;> rw [← Option.some.inj h] <;> rfl
    · rw [← Option.some.inj h]
      rfl
    · rw [← Option.some.inj h]
      rfl
    · contradiction

theorem closed_leave {k : ℕ} (h : T.leave k = some T') :
  T'.closed = T.closed
  := by
  rw [Broadcast.leave] at h
  split at h
  · split at h
    · rw [← Option.some.inj h]
      rfl
    · rw [← Option.some.inj h]
      rfl
    · contradiction
  · contradiction

/-! ### Reading to the end -/

/-- How often a reader reads on, at a closed topic, before its end. -/
def remaining (T : Broadcast α) (k : ℕ) : ℕ :=
  match T.readers k with
  | none => T.items.length + 2
  | some r =>
      match r.phase with
      | .replay snapshot => snapshot.length + r.queue.length + 1
      | .live => r.queue.length
      | _ => 0

/-- A reader that has not gone. -/
def Stays (T : Broadcast α) (k : ℕ) : Prop :=
  ∀ r, T.readers k = some r → r.phase ≠ .left

/-- A reader that has read to the end. -/
def HasEnded (T : Broadcast α) (k : ℕ) : Prop :=
  ∃ r, T.readers k = some r ∧ r.phase = .ended

/-- A reader reads on so many times. -/
def reads (k : ℕ) : ℕ → Broadcast α → Option (Broadcast α)
  | 0, T => some T
  | n + 1, T => (T.advance k).bind (reads k n)

/-- A reader is changed, so that it has less to read. -/
theorem near_of_set {k n : ℕ} {r : Reader α} (hread : T'.readers k = some r)
    (hp : r.phase ≠ .left) (hn : T'.remaining k < n) :
  T'.Stays k ∧ T'.remaining k < n
  := by
  refine ⟨?_, hn⟩
  intro r' hr'
  rw [hread] at hr'
  rwa [← Option.some.inj hr']

theorem readers_set (T : Broadcast α) (k : ℕ) (r : Reader α) :
  (T.set k r).readers k = some r
  := Function.update_self ..

theorem remaining_set (T : Broadcast α) (k : ℕ) (r : Reader α) :
  (T.set k r).remaining k =
    match r.phase with
    | .replay snapshot => snapshot.length + r.queue.length + 1
    | .live => r.queue.length
    | _ => 0
  := by rw [remaining, readers_set]

/-- At a closed topic a reader that has not ended comes nearer to the end when it reads on. -/
theorem Inv.advance_closed (h : Inv T) (hc : T.closed = true) {k : ℕ} (hs : T.Stays k)
    (he : ¬ T.HasEnded k) :
  ∃ T', T.advance k = some T' ∧ T'.items = T.items ∧ T'.closed = true ∧ T'.Stays k ∧
    T'.remaining k < T.remaining k
  := by
  rw [Broadcast.advance, remaining]
  cases hread : T.readers k with
  | none =>
      refine ⟨_, rfl, rfl, hc, near_of_set (readers_set ..) (by rintro ⟨⟩) ?_⟩
      rw [Broadcast.join, remaining_set]
      apply Nat.lt_succ_self
  | some r =>
      obtain ⟨phase, queue, received⟩ := r
      have hsound := h.sound k _ hread
      cases phase with
      | replay snapshot =>
          cases snapshot with
          | nil =>
              dsimp only
              split
              · refine ⟨_, rfl, rfl, hc, near_of_set (readers_set ..) (by rintro ⟨⟩) ?_⟩
                rw [Broadcast.stop, remaining_set]
                apply Nat.succ_pos
              · refine ⟨_, rfl, rfl, hc, near_of_set (readers_set ..) (by rintro ⟨⟩) ?_⟩
                rw [remaining_set]
                dsimp only [List.length_nil]
                omega
          | cons a snapshot =>
              refine ⟨_, rfl, rfl, hc, near_of_set (readers_set ..) (by rintro ⟨⟩) ?_⟩
              rw [remaining_set]
              dsimp only [List.length_cons]
              omega
      | live =>
          obtain ⟨-, items, hqueue, -⟩ := hsound
          rw [ending, hc, if_pos rfl] at hqueue
          cases queue with
          | nil =>
              apply absurd hqueue
              simp
          | cons item queue =>
              cases item with
              | none =>
                  refine ⟨_, rfl, rfl, hc, near_of_set (readers_set ..) (by rintro ⟨⟩) ?_⟩
                  rw [Broadcast.stop, remaining_set]
                  apply Nat.succ_pos
              | some a =>
                  refine ⟨_, rfl, rfl, hc, near_of_set (readers_set ..) (by rintro ⟨⟩) ?_⟩
                  rw [remaining_set]
                  apply Nat.lt_succ_self
      | ended => apply absurd ⟨_, hread, rfl⟩ he
      | left => apply absurd rfl (hs _ hread)

/-- At a closed topic a reader that reads on comes to the end. -/
theorem Inv.exists_reads (h : Inv T) (hc : T.closed = true) {k : ℕ} (hs : T.Stays k) :
  ∃ n T', reads k n T = some T' ∧ T'.HasEnded k ∧ Inv T' ∧ T'.items = T.items
  := by
  induction hn : T.remaining k using Nat.strongRecOn generalizing T with
  | ind n ih =>
      by_cases he : T.HasEnded k
      · exact ⟨0, T, rfl, he, h, rfl⟩
      · obtain ⟨T₁, ha, hi, hc₁, hs₁, hlt⟩ := h.advance_closed hc hs he
        obtain ⟨m, T', hreads, he', h', hi'⟩ := ih _ (hn ▸ hlt) (h.advance ha) hc₁ hs₁ rfl
        refine ⟨m + 1, T', ?_, he', h', hi'.trans hi⟩
        rw [reads, ha]
        apply hreads

/-- A reader that has read to the end has received every item, once and in order. -/
theorem Inv.received_of_ended (h : Inv T) {k : ℕ} {r : Reader α} (hr : T.readers k = some r)
    (hp : r.phase = .ended) :
  T.closed = true ∧ r.received = T.items
  := by
  have hsound := h.sound k r hr
  rw [Sound, hp] at hsound
  apply hsound.2

/-- What a reader has received that has not gone is the first items. -/
theorem Inv.received_isPrefix (h : Inv T) {k : ℕ} {r : Reader α} (hr : T.readers k = some r)
    (hp : r.phase ≠ .left) :
  r.received <+: T.items
  := by
  have hsound := h.sound k r hr
  rw [Sound] at hsound
  split at hsound
  · rename_i snapshot _
    split at hsound
    · obtain ⟨items, -, hi⟩ := hsound
      exact ⟨snapshot ++ items, by rw [← hi, List.append_assoc]⟩
    · exact ⟨snapshot, hsound.2⟩
  · obtain ⟨-, items, -, hi⟩ := hsound
    exact ⟨items, hi⟩
  · exact ⟨[], by rw [List.append_nil, hsound.2.2]⟩
  · rename_i hleft
    apply absurd hleft hp

end Broadcast
