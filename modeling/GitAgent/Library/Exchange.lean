import Mathlib.Data.List.Infix
import Mathlib.Logic.Function.Basic

/-!
# Topic exchanges

A broker with topic exchanges and queues, both durable. A queue is bound to an exchange with a pattern,
and a message that is published with a routing key is put into every queue that is bound to the exchange
with a pattern that matches the key. A consumer takes the messages of a queue from its front. What was
declared stays, and a queue that is bound with the pattern for all keys receives every message from then
on.
-/

universe u

namespace Exchange

/-! ### Patterns -/

/-- The words of a pattern or a key, between its dots. -/
def words (s : String) : List (List Char) :=
  s.toList.splitOn '.'

/-- Whether the words of a pattern match those of a key: `*` stands for one word, and `#` for any number
of words. -/
def wordsMatch : List (List Char) → List (List Char) → Bool
  | [], ws => ws.isEmpty
  | p :: ps, ws =>
      if p = ['#'] then ws.tails.any (wordsMatch ps)
      else ws.head?.any (fun w => p = ['*'] || p = w) && wordsMatch ps ws.tail

/-- Whether a pattern matches a routing key. -/
def matchesKey (pattern key : String) : Bool :=
  wordsMatch (words pattern) (words key)

/-- The pattern `#` matches every key. -/
theorem matchesKey_hash (key : String) :
  matchesKey "#" key = true
  := by
  change wordsMatch [['#']] (words key) = true
  rw [wordsMatch, if_pos rfl, List.any_eq_true]
  exact ⟨[], (List.mem_tails ..).mpr List.nil_suffix, rfl⟩

end Exchange

/-! ### Brokers -/

/-- A queue: the exchanges it is bound to, each with a pattern, and its messages. -/
structure Exchange.Queue (α : Type u) where
  bindings : List (String × String) := []
  messages : List α := []

/-- The exchanges and the queues of a broker, by their names. -/
structure Exchange (α : Type u) where
  exchanges : List String := []
  queues : String → Option (Exchange.Queue α) := fun _ => none

namespace Exchange

variable {α : Type u}

/-- Whether a message that is published on an exchange with a key goes to the queue. -/
def Queue.receives (Q : Queue α) (exchange key : String) : Bool :=
  Q.bindings.any fun b => b.1 = exchange && matchesKey b.2 key

/-- What a client asks of a broker, other than to consume: a request that is only about its connection
leaves the broker as it is. -/
inductive Request (α : Type u)
  | session
  | declareExchange (exchange : String)
  | declareQueue (queue : String)
  | bind (queue pattern exchange : String)
  | publish (exchange key : String) (m : α)

section

variable (b : Exchange α)

/-- The messages of a queue, if there is one. -/
def messages (queue : String) : List α :=
  ((b.queues queue).map Queue.messages).getD []

/-- The broker with a changed queue. -/
def setQueue (queue : String) (Q : Queue α) : Exchange α :=
  { b with queues := Function.update b.queues queue (some Q) }

/-- A message is put into the queues it goes to. -/
def route (exchange key : String) (m : α) : Exchange α :=
  { b with
    queues := fun queue => (b.queues queue).map fun Q =>
      if Q.receives exchange key then { Q with messages := Q.messages ++ [m] } else Q }

/-- The broker after a request, which is refused if it names what is not there. -/
def handle : Request α → Option (Exchange α)
  | .session => some b
  | .declareExchange exchange => some { b with exchanges := exchange :: b.exchanges }
  | .declareQueue queue => some (if (b.queues queue).isSome then b else b.setQueue queue {})
  | .bind queue pattern exchange =>
      if exchange ∈ b.exchanges then
        (b.queues queue).map fun Q =>
          b.setQueue queue { Q with bindings := (exchange, pattern) :: Q.bindings }
      else none
  | .publish exchange key m => if exchange ∈ b.exchanges then some (b.route exchange key m) else none

/-- The first message of a queue is taken from it. -/
def take (queue : String) : Option (α × Exchange α) :=
  match b.queues queue with
  | none => none
  | some Q =>
      match Q.messages with
      | [] => none
      | m :: rest => some (m, b.setQueue queue { Q with messages := rest })

/-- What a request asked for is there. -/
def Holds : Request α → Prop
  | .declareExchange exchange => exchange ∈ b.exchanges
  | .declareQueue queue => (b.queues queue).isSome = true
  | .bind queue pattern exchange => ∃ Q, b.queues queue = some Q ∧ (exchange, pattern) ∈ Q.bindings
  | .session | .publish .. => True

/-- What a request needs to be accepted. -/
def Request.needs : Request α → List (Request α)
  | .bind queue _ exchange => [.declareExchange exchange, .declareQueue queue]
  | .publish exchange _ _ => [.declareExchange exchange]
  | .session | .declareExchange _ | .declareQueue _ => []

/-- A queue receives every message of an exchange. -/
def Bound (queue exchange : String) : Prop :=
  b.Holds (.bind queue "#" exchange)

instance (queue exchange : String) : Decidable (b.Bound queue exchange) :=
  decidable_of_iff ((b.queues queue).any (fun Q => (exchange, "#") ∈ Q.bindings) = true) <| by
    rw [Bound, Holds, Option.any_eq_true]
    simp only [decide_eq_true_eq]

/-- A queue receives no messages. -/
def Unbound (queue : String) : Prop :=
  ∀ Q, b.queues queue = some Q → Q.bindings = []

end

variable {b b' : Exchange α} {queue exchange key : String} {m : α}

theorem queues_setQueue (Q : Queue α) (q : String) :
  (b.setQueue queue Q).queues q = if q = queue then some Q else b.queues q
  := Function.update_apply ..

theorem queues_route (q : String) :
  (b.route exchange key m).queues q = (b.queues q).map fun Q =>
    if Q.receives exchange key then { Q with messages := Q.messages ++ [m] } else Q
  := rfl

/-! ### What stays -/

/-- What is declared in one broker is declared in the other, with the same bindings at least. -/
structure Grows (b b' : Exchange α) : Prop where
  exchanges : ∀ e ∈ b.exchanges, e ∈ b'.exchanges
  queues : ∀ q Q, b.queues q = some Q → ∃ Q', b'.queues q = some Q' ∧ Q.bindings ⊆ Q'.bindings

theorem Grows.refl (b : Exchange α) :
  b.Grows b
  := ⟨fun _ he => he, fun _ Q hQ => ⟨Q, hQ, List.Subset.refl _⟩⟩

/-- What holds of a broker holds of one that has grown. -/
theorem Grows.holds (h : b.Grows b') {r : Request α} (hr : b.Holds r) :
  b'.Holds r
  := by
  cases r with
  | session => trivial
  | declareExchange e => apply h.exchanges e hr
  | declareQueue q =>
      obtain ⟨Q, hQ⟩ := Option.isSome_iff_exists.mp hr
      obtain ⟨Q', hQ', -⟩ := h.queues q Q hQ
      exact Option.isSome_iff_exists.mpr ⟨Q', hQ'⟩
  | bind q p e =>
      obtain ⟨Q, hQ, hmem⟩ := hr
      obtain ⟨Q', hQ', hsub⟩ := h.queues q Q hQ
      exact ⟨Q', hQ', hsub hmem⟩
  | publish e k m => trivial

theorem grows_setQueue {Q : Queue α}
    (h : ∀ Q₀, b.queues queue = some Q₀ → Q₀.bindings ⊆ Q.bindings) :
  b.Grows (b.setQueue queue Q)
  := by
  refine ⟨fun _ he => he, fun q Q₀ hQ₀ => ?_⟩
  rw [queues_setQueue]
  split_ifs with hq
  · subst hq
    exact ⟨Q, rfl, h Q₀ hQ₀⟩
  · exact ⟨Q₀, hQ₀, List.Subset.refl _⟩

/-- A request takes nothing away. -/
theorem grows_handle {r : Request α} (h : b.handle r = some b') :
  b.Grows b'
  := by
  cases r with
  | session =>
      obtain rfl := Option.some.inj h
      apply Grows.refl
  | declareExchange e =>
      obtain rfl := Option.some.inj h
      exact ⟨fun _ he => List.mem_cons_of_mem _ he, fun _ Q hQ => ⟨Q, hQ, List.Subset.refl _⟩⟩
  | declareQueue q =>
      obtain rfl := Option.some.inj h
      split_ifs with hq
      · apply Grows.refl
      · apply grows_setQueue
        intro Q₀ hQ₀
        rw [hQ₀] at hq
        contradiction
  | bind q p e =>
      rw [handle, Option.ite_none_right_eq_some] at h
      obtain ⟨Q, hQ, rfl⟩ := Option.map_eq_some_iff.mp h.2
      apply grows_setQueue
      intro Q₀ hQ₀
      obtain rfl := Option.some.inj (hQ.symm.trans hQ₀)
      apply List.subset_cons_self
  | publish e k m =>
      rw [handle, Option.ite_none_right_eq_some] at h
      obtain rfl := Option.some.inj h.2
      refine ⟨fun _ he => he, fun q Q hQ => ⟨_, by rw [queues_route, hQ, Option.map_some], ?_⟩⟩
      split_ifs <;> apply List.Subset.refl

/-- After a request, what it asked for is there. -/
theorem holds_handle {r : Request α} (h : b.handle r = some b') :
  b'.Holds r
  := by
  cases r with
  | session => trivial
  | declareExchange e =>
      obtain rfl := Option.some.inj h
      apply List.mem_cons_self
  | declareQueue q =>
      obtain rfl := Option.some.inj h
      split_ifs with hq
      · apply hq
      · rw [Holds, queues_setQueue, if_pos rfl]
        rfl
  | bind q p e =>
      rw [handle, Option.ite_none_right_eq_some] at h
      obtain ⟨Q, -, rfl⟩ := Option.map_eq_some_iff.mp h.2
      exact ⟨_, (queues_setQueue ..).trans (if_pos rfl), List.mem_cons_self⟩
  | publish e k m => trivial

/-- A request is accepted if what it needs is there. -/
theorem isSome_handle {r : Request α} (h : ∀ n ∈ r.needs, b.Holds n) :
  (b.handle r).isSome = true
  := by
  cases r with
  | session => rfl
  | declareExchange e => rfl
  | declareQueue q => rfl
  | bind q p e =>
      have he : e ∈ b.exchanges := h (.declareExchange e) List.mem_cons_self
      have hq : (b.queues q).isSome = true :=
        h (.declareQueue q) (List.mem_cons_of_mem _ List.mem_cons_self)
      rw [handle, if_pos he, Option.isSome_map, hq]
  | publish e k m =>
      have he : e ∈ b.exchanges := h (.declareExchange e) List.mem_cons_self
      rw [handle, if_pos he]
      rfl

/-- A queue without bindings has none until it is bound. -/
theorem Unbound.handle (h : b.Unbound queue) {r : Request α} (hr : ∀ p e, r ≠ .bind queue p e)
    (hb : b.handle r = some b') :
  b'.Unbound queue
  := by
  intro Q hQ
  cases r with
  | session =>
      obtain rfl := Option.some.inj hb
      apply h Q hQ
  | declareExchange e =>
      obtain rfl := Option.some.inj hb
      apply h Q hQ
  | declareQueue q =>
      obtain rfl := Option.some.inj hb
      split_ifs at hQ with hq
      · apply h Q hQ
      · rw [queues_setQueue] at hQ
        split_ifs at hQ
        · obtain rfl := Option.some.inj hQ
          rfl
        · apply h Q hQ
  | bind q p e =>
      rw [Exchange.handle, Option.ite_none_right_eq_some] at hb
      obtain ⟨Q', -, rfl⟩ := Option.map_eq_some_iff.mp hb.2
      rw [queues_setQueue] at hQ
      split_ifs at hQ with hq
      · subst hq
        exact absurd rfl (hr p e)
      · apply h Q hQ
  | publish e k m =>
      rw [Exchange.handle, Option.ite_none_right_eq_some] at hb
      obtain rfl := Option.some.inj hb.2
      rw [queues_route] at hQ
      obtain ⟨Q', hQ', rfl⟩ := Option.map_eq_some_iff.mp hQ
      split_ifs <;> apply h Q' hQ'

/-! ### The messages of a queue -/

theorem messages_setQueue (Q : Queue α) (q : String) :
  (b.setQueue queue Q).messages q = if q = queue then Q.messages else b.messages q
  := by
  rw [messages, queues_setQueue]
  split_ifs with hq
  · rfl
  · rw [messages]

/-- Only a publication changes the messages of a queue. -/
theorem messages_handle {r : Request α} (hr : ∀ e k m, r ≠ .publish e k m) (h : b.handle r = some b')
    (q : String) :
  b'.messages q = b.messages q
  := by
  cases r with
  | session => rw [Option.some.inj h]
  | declareExchange e =>
      obtain rfl := Option.some.inj h
      rfl
  | declareQueue q' =>
      obtain rfl := Option.some.inj h
      split_ifs with hq
      · rfl
      · rw [messages_setQueue]
        split_ifs with hqq
        · rw [hqq, messages, Option.not_isSome_iff_eq_none.mp hq]
          rfl
        · rfl
  | bind q' p e =>
      rw [handle, Option.ite_none_right_eq_some] at h
      obtain ⟨Q, hQ, rfl⟩ := Option.map_eq_some_iff.mp h.2
      rw [messages_setQueue]
      split_ifs with hqq
      · rw [hqq, messages, hQ]
        rfl
      · rfl
  | publish e k m => exact absurd rfl (hr e k m)

/-- A queue that is bound receives the message. -/
theorem messages_route_of_bound (h : b.Bound queue exchange) :
  (b.route exchange key m).messages queue = b.messages queue ++ [m]
  := by
  obtain ⟨Q, hQ, hmem⟩ := h
  have hreceives : Q.receives exchange key = true := by
    rw [Queue.receives, List.any_eq_true]
    refine ⟨_, hmem, ?_⟩
    rw [Bool.and_eq_true]
    exact ⟨decide_eq_true rfl, matchesKey_hash key⟩
  rw [messages, messages, queues_route, hQ, Option.map_some, Option.map_some, Option.map_some,
    if_pos hreceives]
  rfl

/-- A queue without bindings receives nothing. -/
theorem messages_route_of_unbound (h : b.Unbound queue) :
  (b.route exchange key m).messages queue = b.messages queue
  := by
  rw [messages, messages, queues_route]
  cases hQ : b.queues queue with
  | none => rfl
  | some Q =>
      rw [Option.map_some, Option.map_some, Option.map_some, Queue.receives, h Q hQ, List.any_nil,
        if_neg Bool.false_ne_true]

/-! ### Consuming -/

/-- What is taken is the first message, and the other queues and all bindings are as they were. -/
theorem take_eq_some (h : b.take queue = some (m, b')) :
  b.messages queue = m :: b'.messages queue ∧ (∀ q, q ≠ queue → b'.messages q = b.messages q) ∧
    b.Grows b'
  := by
  unfold take at h
  cases hQ : b.queues queue with
  | none =>
      rw [hQ] at h
      contradiction
  | some Q =>
      cases hm : Q.messages with
      | nil =>
          simp only [hQ, hm] at h
          contradiction
      | cons m' rest =>
          simp only [hQ, hm] at h
          obtain ⟨rfl, rfl⟩ := Prod.mk.inj (Option.some.inj h)
          refine ⟨?_, fun q hq => ?_, ?_⟩
          · rw [messages_setQueue, if_pos rfl, messages, hQ]
            exact hm
          · rw [messages_setQueue, if_neg hq]
          · apply grows_setQueue
            intro Q₀ hQ₀
            obtain rfl := Option.some.inj (hQ.symm.trans hQ₀)
            apply List.Subset.refl

end Exchange
