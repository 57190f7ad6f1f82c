import Mathlib.Data.List.Pairwise
import GitAgent.Hub.Sandbox

/-!
# The provision of sandboxes

No sandbox that was made for an instance is forgotten, and no two of an instance live at a time, in
every run in which `Ensure` does not ask for a sandbox while another call does so or the instance
has a living one, and in which nothing fails between the request and the link.
-/

namespace Hub.Sandbox

/-! ### What is shown -/

/-- The row is that of the sandbox. -/
def Row.Records (r : Row) (s : Provided) : Prop :=
  r.externalId = s.externalId ∧ r.sandboxConnectionId = s.created.connectionId

instance (r : Row) (s : Provided) : Decidable (r.Records s) :=
  inferInstanceAs (Decidable (_ ∧ _))

/-- Whether a call has ended. -/
def Call.hasEnded (call : Call) : Bool :=
  match call.await with
  | .ended _ => true
  | _ => false

/-- Whether a call has been given a sandbox and has not ended. -/
def Call.holds (call : Call) : Bool :=
  match call.await with
  | .insert .. | .select _ | .link _ => true
  | _ => false

/-- Two sandboxes were made for different calls and are known to a provider by different ids. -/
def Provided.Differs (s s' : Provided) : Prop :=
  s.call ≠ s'.call ∧ (s.host, s.externalId) ≠ (s'.host, s'.externalId)

instance : Std.Symm Provided.Differs :=
  ⟨fun _ _ h => ⟨h.1.symm, h.2.symm⟩⟩

namespace World

variable (w : World)

/-- The sandbox has not been destroyed. -/
def Alive (s : Provided) : Prop :=
  (s.host, s.externalId) ∉ w.destroyed

instance (s : Provided) : Decidable (w.Alive s) :=
  inferInstanceAs (Decidable (¬ _))

/-- The sandbox is recorded in a row that is linked to the instance. -/
def Linked (id : InstanceId) (s : Provided) : Prop :=
  ∃ r ∈ w.sandboxes.rows, r.Records s ∧ w.linkOf id = some r.id

instance (id : InstanceId) (s : Provided) : Decidable (w.Linked id s) :=
  inferInstanceAs (Decidable (∃ r ∈ _, _))

/-- The call that asked for the sandbox has ended. -/
def Ended (s : Provided) : Prop :=
  (w.calls s.call).any Call.hasEnded = true

/-- The call that asked for the sandbox has not ended. -/
def Held (s : Provided) : Prop :=
  (w.calls s.call).any Call.holds = true

instance (s : Provided) : Decidable (w.Held s) :=
  inferInstanceAs (Decidable (_ = true))

/-- There are no orphans and no doubles: when the call is over, a sandbox is recorded, and if it was
made for an instance it is linked to it or destroyed; and no two sandboxes of an instance are
alive. -/
structure Provisioned : Prop where
  recorded : ∀ s ∈ w.provided, w.Ended s → ∃ r ∈ w.sandboxes.rows, r.Records s
  linked : ∀ s ∈ w.provided, w.Ended s → ∀ id ∈ s.instanceId, w.Alive s → w.Linked id s
  single : ∀ s ∈ w.provided, ∀ s' ∈ w.provided, ∀ id ∈ s.instanceId, s'.instanceId = some id →
    w.Alive s → w.Alive s' → s = s'

/-! ### The condition -/

/-- No sandbox of the instance is held by a call, or linked to the instance and alive. -/
def Vacant (id : InstanceId) : Prop :=
  ∀ s ∈ w.provided, s.instanceId = some id → ¬ w.Held s ∧ (w.Alive s → ¬ w.Linked id s)

/-- What must not fail at an await point: nothing between the request to the provider and the link,
unless it fails after the link was made. -/
def mayFail (call : Call) (effect : Bool) : Bool :=
  match call.await with
  | .insert .. => effect && call.target.isNone
  | .select _ => call.target.isNone
  | .link _ => effect
  | _ => true

/-- A sandbox is made for an instance only while it has none, neither its answer nor a step between
it and the link is lost, and no living sandbox of an instance is replaced by hand. -/
def ProvisionsApart : Action → Prop
  | .created c _ => ∀ call ∈ w.calls c, ∀ target ∈ call.target, w.Vacant target.1
  | .lost _ _ => False
  | .failed c effect => ∀ call ∈ w.calls c, mayFail call effect = true
  | .link id sandboxInstanceId _ =>
      ∀ s ∈ w.provided, s.instanceId = some id → w.Alive s → w.Linked id s →
        ∃ r ∈ w.sandboxes.rows, r.Records s ∧ r.id = sandboxInstanceId
  | _ => True

instance (id : InstanceId) : Decidable (w.Vacant id) :=
  inferInstanceAs (Decidable (∀ s ∈ _, _))

instance (a : Action) : Decidable (w.ProvisionsApart a) := by
  cases a <;> unfold ProvisionsApart <;> infer_instance

/-! ### The invariant -/

/-- What is known of a sandbox when the call that asked for it is at an await point. -/
def Made (call : Call) (s : Provided) : Prop :=
  match call.await with
  | .insert connectionId externalId =>
      connectionId = s.created.connectionId ∧ externalId = s.externalId
  | .select id | .link id => ∃ r ∈ w.sandboxes.rows, r.id = id ∧ r.Records s
  | .ended _ =>
      (∃ r ∈ w.sandboxes.rows, r.Records s) ∧
        ∀ id ∈ s.instanceId, w.Alive s → w.Linked id s
  | _ => False

/-- The invariant of a run that provisions apart. -/
structure Inv (T : Config) : Prop where
  made : ∀ s ∈ w.provided, ∃ call, w.calls s.call = some call ∧
    s.instanceId = call.target.map Prod.fst ∧ w.Made call s
  given : ∀ c call, w.calls c = some call → call.holds = true → ∃ s ∈ w.provided, s.call = c
  coordinates : ∀ s ∈ w.provided, T.coordinates s.created.connectionId = some s.created
  asked : ∀ c call k, w.calls c = some call → call.await = .create k →
    T.coordinates k.connectionId = some k
  distinct : w.provided.Pairwise Provided.Differs
  apart : ∀ s ∈ w.provided, w.Held s → ∀ s' ∈ w.provided, ∀ id ∈ s.instanceId,
    s'.instanceId = some id → w.Alive s' → s' = s
  targets : ∀ c call target, w.calls c = some call → call.target = some target →
    ∃ r, w.instances.find target.1 = some r ∧ T.owner r.repositoryId = target.2

/-- How a call is after a step: as before, or just begun, or at another await point, where the same
is known of its sandbox. -/
inductive Goes (T : Config) (w' : World) (c : CallId) : Prop
  | same (h : w'.calls c = w.calls c)
  | start (call : Call) (h : w.calls c = none) (h' : w'.calls c = some call)
      (hh : call.holds = false) (ha : ∀ k, call.await ≠ .create k)
      (ht : ∀ target, call.target = some target →
        ∃ r, w.instances.find target.1 = some r ∧ T.owner r.repositoryId = target.2)
  | next (call : Call) (q : Await) (h : w.calls c = some call)
      (h' : w'.calls c = some ⟨call.target, q⟩)
      (hh : (⟨call.target, q⟩ : Call).holds = true → call.holds = true)
      (ha : ∀ k, q = .create k → T.coordinates k.connectionId = some k)
      (hm : ∀ s ∈ w.provided, s.call = c → s.instanceId = call.target.map Prod.fst →
        w.Made call s → w'.Made ⟨call.target, q⟩ s)

variable {T : Config} {w w' : World} {a : Action}

/-- A row is still recorded. -/
theorem Grows.records (h : w.Grows w') {r : Row} {s : Provided} (hr : r ∈ w.sandboxes.rows)
    (hs : r.Records s) :
  ∃ r' ∈ w'.sandboxes.rows, r'.id = r.id ∧ r'.Records s
  := by
  obtain ⟨r', hr', hid, he, hc⟩ := h.rows r hr
  exact ⟨r', hr', hid, he.trans hs.1, hc.trans hs.2⟩

/-- What lives has lived before. -/
theorem Grows.alive (h : w.Grows w') {s : Provided} (hs : w'.Alive s) :
  w.Alive s
  := fun hd => hs (h.destroyed hd)

/-- A sandbox stays linked to an instance that keeps its link. -/
theorem Grows.linked (h : w.Grows w') {id : InstanceId} (hl : w'.linkOf id = w.linkOf id)
    {s : Provided} (hs : w.Linked id s) :
  w'.Linked id s
  := by
  obtain ⟨r, hr, hrec, hlink⟩ := hs
  obtain ⟨r', hr', hid, hrec'⟩ := h.records hr hrec
  refine ⟨r', hr', hrec', ?_⟩
  rw [hl, hlink, hid]

/-- What is known of a sandbox is known after a step that keeps its link. -/
theorem Grows.made (h : w.Grows w') {call : Call} {s : Provided}
    (hl : ∀ id ∈ s.instanceId, call.hasEnded = true → w'.Alive s → w.Linked id s → w'.Linked id s)
    (hs : w.Made call s) :
  w'.Made call s
  := by
  obtain ⟨target, p⟩ := call
  cases p with
  | insert connectionId externalId => apply hs
  | select id =>
      obtain ⟨r, hr, hid, hrec⟩ := hs
      obtain ⟨r', hr', hid', hrec'⟩ := h.records hr hrec
      exact ⟨r', hr', hid'.trans hid, hrec'⟩
  | link id =>
      obtain ⟨r, hr, hid, hrec⟩ := hs
      obtain ⟨r', hr', hid', hrec'⟩ := h.records hr hrec
      exact ⟨r', hr', hid'.trans hid, hrec'⟩
  | ended ok =>
      obtain ⟨⟨r, hr, hrec⟩, hlinked⟩ := hs
      obtain ⟨r', hr', -, hrec'⟩ := h.records hr hrec
      refine ⟨⟨r', hr', hrec'⟩, ?_⟩
      intro id hid halive
      apply hl id hid rfl halive (hlinked id hid (h.alive halive))
  | _ => contradiction

/-- The call that asked for a sandbox. -/
theorem Inv.call_of_ended (h : w.Inv T) {s : Provided} (hs : s ∈ w.provided) (he : w.Ended s) :
  ∃ call, w.calls s.call = some call ∧ call.hasEnded = true ∧ w.Made call s
  := by
  obtain ⟨call, hcall, -, hm⟩ := h.made s hs
  rw [Ended, hcall] at he
  exact ⟨call, hcall, he, hm⟩

/-- The call that asked for a sandbox holds it, or has ended. -/
theorem Inv.held_or_ended (h : w.Inv T) {s : Provided} (hs : s ∈ w.provided) :
  w.Held s ∨ w.Ended s
  := by
  obtain ⟨⟨target, p⟩, hcall, -, hm⟩ := h.made s hs
  rw [Held, Ended, hcall]
  cases p with
  | insert _ _ => exact .inl rfl
  | select _ => exact .inl rfl
  | link _ => exact .inl rfl
  | ended _ => exact .inr rfl
  | _ => apply hm.elim

/-- A step that makes no sandbox keeps the invariant if the links of living sandboxes stay and each
call goes on as it may. -/
theorem Inv.frame (h : w.Inv T) (hg : w.Grows w')
    (hl : ∀ s ∈ w.provided, ∀ id ∈ s.instanceId, w.Ended s → w'.Alive s → w.Linked id s →
      w'.Linked id s)
    (hc : ∀ c, w.Goes T w' c) :
  w'.Inv T
  := by
  have hheld : ∀ c call', w'.calls c = some call' → call'.holds = true →
      ∃ call, w.calls c = some call ∧ call.holds = true := by
    intro c call' hcall' hh'
    cases hc c with
    | same hs => exact ⟨call', hs ▸ hcall', hh'⟩
    | start call hs hs' hh =>
        obtain rfl := Option.some.inj (hs'.symm.trans hcall')
        rw [hh] at hh'
        contradiction
    | next call q hs hs' hh =>
        obtain rfl := Option.some.inj (hs'.symm.trans hcall')
        exact ⟨call, hs, hh hh'⟩
  constructor
  · intro s hs
    rw [hg.provided] at hs
    obtain ⟨call, hcall, htarget, hm⟩ := h.made s hs
    cases hc s.call with
    | same hsame =>
        refine ⟨call, hsame.trans hcall, htarget, ?_⟩
        apply hg.made _ hm
        intro id hid he
        apply hl s hs id hid
        rw [Ended, hcall]
        apply he
    | start _ hnone =>
        rw [hnone] at hcall
        contradiction
    | next call₁ q hsome hnext _ _ hmade =>
        obtain rfl := Option.some.inj (hsome.symm.trans hcall)
        exact ⟨_, hnext, htarget, hmade s hs rfl htarget hm⟩
  · intro c call' hcall' hh'
    obtain ⟨call, hcall, hh⟩ := hheld c call' hcall' hh'
    rw [hg.provided]
    apply h.given c call hcall hh
  · rw [hg.provided]
    apply h.coordinates
  · intro c call' k hcall' hk
    cases hc c with
    | same hs => apply h.asked c call' k (hs ▸ hcall') hk
    | start call hs hs' _ ha =>
        obtain rfl := Option.some.inj (hs'.symm.trans hcall')
        apply absurd hk (ha k)
    | next call q hs hs' _ ha =>
        obtain rfl := Option.some.inj (hs'.symm.trans hcall')
        apply ha k hk
  · rw [hg.provided]
    apply h.distinct
  · rw [hg.provided]
    intro s hs hheld' s' hs' id hid hid' halive
    apply h.apart s hs _ s' hs' id hid hid' (hg.alive halive)
    rw [Held] at hheld' ⊢
    cases hcall' : w'.calls s.call with
    | none =>
        rw [hcall'] at hheld'
        contradiction
    | some call' =>
        rw [hcall'] at hheld'
        obtain ⟨call, hcall, hh⟩ := hheld s.call call' hcall' hheld'
        rw [hcall]
        apply hh
  · intro c call' target hcall' ht
    have hfound : ∃ r, w.instances.find target.1 = some r ∧ T.owner r.repositoryId = target.2 := by
      cases hc c with
      | same hs => apply h.targets c call' target (hs ▸ hcall') ht
      | start call hs hs' _ _ ht' =>
          obtain rfl := Option.some.inj (hs'.symm.trans hcall')
          apply ht' target ht
      | next call q hs hs' =>
          obtain rfl := Option.some.inj (hs'.symm.trans hcall')
          apply h.targets c call target hs ht
    obtain ⟨r, hr, howner⟩ := hfound
    obtain ⟨r', hr', hrepo⟩ := hg.instances _ r hr
    exact ⟨r', hr', hrepo ▸ howner⟩

/-! ### Steps -/

/-- A call that is at an early await point has no sandbox. -/
theorem not_made_of_early {call : Call} (h : Early call.await) (s : Provided) :
  ¬ w.Made call s
  := by
  obtain ⟨target, p⟩ := call
  cases h <;> exact id

/-- A call goes on, and the others stay. -/
theorem goes_await {c : CallId} {call : Call} (hcall : w.calls c = some call) {q : Await}
    (hw : w'.calls = w.calls)
    (hh : (⟨call.target, q⟩ : Call).holds = true → call.holds = true)
    (ha : ∀ k, q = .create k → T.coordinates k.connectionId = some k)
    (hm : ∀ s ∈ w.provided, s.call = c → s.instanceId = call.target.map Prod.fst →
      w.Made call s → (w'.await c call.target q).Made ⟨call.target, q⟩ s) (c' : CallId) :
  w.Goes T (w'.await c call.target q) c'
  := by
  by_cases hc : c' = c
  · subst hc
    apply Goes.next call q hcall _ hh ha hm
    apply Function.update_self ..
  · apply Goes.same
    rw [await]
    dsimp only
    rw [Function.update_of_ne hc, hw]

/-- A call goes on after a step that makes no sandbox. -/
theorem Inv.await (h : w.Inv T) {c : CallId} {call : Call} (hcall : w.calls c = some call)
    {q : Await}
    (hg : w.Grows w') (hw : w'.calls = w.calls)
    (hl : ∀ s ∈ w.provided, ∀ id ∈ s.instanceId, w.Ended s → w'.Alive s → w.Linked id s →
      w'.Linked id s)
    (hh : (⟨call.target, q⟩ : Call).holds = true → call.holds = true)
    (ha : ∀ k, q = .create k → T.coordinates k.connectionId = some k)
    (hm : ∀ s ∈ w.provided, s.call = c → s.instanceId = call.target.map Prod.fst →
      w.Made call s → w'.Made ⟨call.target, q⟩ s) :
  (w'.await c call.target q).Inv T
  := by
  apply h.frame (hg.await ..) hl
  apply goes_await hcall hw hh ha hm

/-- The sandbox that a call holds. -/
theorem Inv.sandbox_of_holds (h : w.Inv T) {c : CallId} {call : Call}
    (hcall : w.calls c = some call) (hh : call.holds = true) :
  ∃ s ∈ w.provided, s.call = c ∧ s.instanceId = call.target.map Prod.fst ∧ w.Made call s
  := by
  obtain ⟨s, hs, rfl⟩ := h.given c call hcall hh
  obtain ⟨call', hcall', htarget, hm⟩ := h.made s hs
  rw [hcall] at hcall'
  obtain rfl := Option.some.inj hcall'
  exact ⟨s, hs, rfl, htarget, hm⟩

/-- A sandbox for no instance needs no link. -/
theorem made_of_none {target : Option (InstanceId × UserId)} (ht : target = none) {ok : Bool}
    {r : Row} {s : Provided} (hr : r ∈ w.sandboxes.rows) (hrec : r.Records s)
    (hs : s.instanceId = target.map Prod.fst) :
  w.Made ⟨target, .ended ok⟩ s
  := by
  refine ⟨⟨r, hr, hrec⟩, ?_⟩
  intro id hid
  rw [hs, ht] at hid
  contradiction

/-- A statement that is about no sandbox keeps the invariant. -/
theorem Inv.early (h : w.Inv T) {c : CallId} {call : Call} (hcall : w.calls c = some call)
    (hp : Early call.await) {q : Await} (hq : Early q ∨ ∃ ok, q = .ended ok)
    (hk : ∀ k, q = .create k → T.coordinates k.connectionId = some k) (hg : w.Grows w')
    (hi : w'.instances = w.instances) (hc : w'.calls = w.calls) :
  (w'.await c call.target q).Inv T
  := by
  apply h.await hcall hg hc _ _ hk
  · intro s _ _ _ hm
    apply absurd hm (not_made_of_early hp s)
  · intro s hs id hid _ _ hlinked
    apply hg.linked _ hlinked
    rw [linkOf, linkOf, hi]
  · intro hh
    rcases hq with hq | ⟨ok, rfl⟩
    · cases hq <;> contradiction
    · contradiction

/-- The row of a sandbox is written. -/
theorem Inv.insert (h : w.Inv T) {c : CallId} {target : Option (InstanceId × UserId)}
    {connectionId : ℕ} {externalId : String}
    (hcall : w.calls c = some ⟨target, .insert connectionId externalId⟩) {q : Await}
    (hq : q = .select w.sandboxes.next ∨ q = .ended false ∧ target = none) :
  ((w.createSandboxInstance externalId connectionId).await c target q).Inv T
  := by
  have hg := grows_createSandboxInstance w externalId connectionId
  apply h.await hcall hg rfl _ (fun _ => rfl)
  · intro k hk
    rcases hq with rfl | ⟨rfl, -⟩ <;> contradiction
  · rintro s - - htarget ⟨hconn, hext⟩
    have hr : (⟨w.sandboxes.next, externalId, connectionId, .alive⟩ : Row) ∈
        (w.createSandboxInstance externalId connectionId).sandboxes.rows :=
      List.mem_append_right _ (List.mem_singleton_self _)
    rcases hq with rfl | ⟨rfl, hnone⟩
    · exact ⟨_, hr, rfl, hext, hconn⟩
    · apply made_of_none hnone hr ⟨hext, hconn⟩ htarget
  · intro s hs id hid _ _ hlinked
    apply hg.linked rfl hlinked

/-- The row of a sandbox is read. -/
theorem Inv.select (h : w.Inv T) {c : CallId} {target : Option (InstanceId × UserId)} {id : ℕ}
    {row : Row} (hcall : w.calls c = some ⟨target, .select id⟩)
    (hrow : w.sandboxes.find id = some row) {q : Await}
    (hq : q = .link row.id ∨ target = none ∧ ∃ ok, q = .ended ok) :
  (w.await c target q).Inv T
  := by
  apply h.await hcall (Grows.refl w) rfl (fun _ _ _ _ _ _ hlinked => hlinked) (fun _ => rfl)
  · intro k hk
    rcases hq with rfl | ⟨-, ok, rfl⟩ <;> contradiction
  · rintro s - - htarget ⟨r, hr, hid, hrec⟩
    rcases hq with rfl | ⟨hnone, ok, rfl⟩
    · exact ⟨r, hr, hid.trans (Table.key_of_find hrow).symm, hrec⟩
    · apply made_of_none hnone hr hrec htarget

/-- The row of a sandbox that was written is found. -/
theorem Inv.find_ne_none (h : w.Inv T) {c : CallId} {target : Option (InstanceId × UserId)} {id : ℕ}
    (hcall : w.calls c = some ⟨target, .select id⟩) :
  w.sandboxes.find id ≠ none
  := by
  obtain ⟨s, -, -, -, r, hr, rfl, -⟩ := h.sandbox_of_holds hcall rfl
  rw [Table.find_of_mem hr]
  apply Option.some_ne_none

/-- A sandbox is linked to its instance. No other living sandbox is linked to it, since the call
holds this one. -/
theorem Inv.link (h : w.Inv T) {c : CallId} {i : InstanceId} {userId : UserId} {id : ℕ}
    (hcall : w.calls c = some ⟨some (i, userId), .link id⟩) (ok : Bool) :
  ((w.linkInstanceSandbox T i id userId).await c (some (i, userId)) (.ended ok)).Inv T
  := by
  have hg := grows_linkInstanceSandbox (T := T) w i id userId
  obtain ⟨s₀, hs₀, hsc, htarget₀, -⟩ := h.sandbox_of_holds hcall rfl
  have hheld : w.Held s₀ := by
    rw [Held, hsc, hcall]
    rfl
  apply h.await hcall hg rfl
  · intro s hs i' hid he halive hlinked
    obtain hsame | ⟨rfl, -⟩ := w.linkOf_linkInstanceSandbox_or (T := T) i id userId i'
    · apply hg.linked hsame hlinked
    · have heq := h.apart s₀ hs₀ hheld s hs i' htarget₀ hid (hg.alive halive)
      rw [heq, Ended, hsc, hcall] at he
      contradiction
  · intro hh
    contradiction
  · intro k hk
    contradiction
  · rintro s - - htarget ⟨r, hr, hid, hrec⟩
    refine ⟨⟨r, hr, hrec⟩, ?_⟩
    intro i' hi' _
    rw [htarget] at hi'
    obtain rfl := Option.some.inj hi'
    obtain ⟨r', hr', ho⟩ := h.targets c _ _ hcall rfl
    refine ⟨r, hr, hrec, ?_⟩
    rw [hid]
    apply w.linkOf_linkInstanceSandbox hr' ho

/-- A statement keeps the invariant, also if the call fails after it and may. -/
theorem Inv.stmt (h : w.Inv T) {c : CallId} {call : Call} (hcall : w.calls c = some call)
    {p q : Await} (hd : Does T w call.target call.await w' p)
    (hq : q = p ∨ q = .ended false ∧ mayFail call true = true) :
  (w'.await c call.target q).Inv T
  := by
  obtain ⟨target, a⟩ := call
  cases hd with
  | early hp hearly hk hg hi hc =>
      rcases hq with rfl | ⟨rfl, -⟩
      · apply h.early hcall hp hearly hk hg hi hc
      · apply h.early hcall hp (.inr ⟨_, rfl⟩) (by simp) hg hi hc
  | insert connectionId externalId =>
      apply h.insert hcall
      rcases hq with rfl | ⟨rfl, hmay⟩
      · exact .inl rfl
      · exact .inr ⟨rfl, by simpa [mayFail] using hmay⟩
  | select hrow =>
      apply h.select hcall hrow
      rcases hq with rfl | ⟨rfl, hmay⟩
      · cases target with
        | none => exact .inr ⟨rfl, _, rfl⟩
        | some target => exact .inl rfl
      · exact .inr ⟨by simpa [mayFail] using hmay, _, rfl⟩
  | missing hrow => apply absurd hrow (h.find_ne_none hcall)
  | link ht _ =>
      dsimp only at ht
      subst ht
      rcases hq with rfl | ⟨rfl, -⟩ <;> apply h.link hcall
  | unlinked ht hi =>
      obtain ⟨r, hr, ho⟩ := h.targets c _ _ hcall ht
      rw [instance?, hr, Option.filter_some, if_pos (decide_eq_true ho)] at hi
      contradiction

/-- A call that begins keeps the invariant. -/
theorem Inv.start (h : w.Inv T) {c : CallId} (hc : w.calls c = none)
    {target : Option (InstanceId × UserId)} {p : Await} (hp : Early p) (ha : ∀ k, p ≠ .create k)
    (ht : ∀ t, target = some t →
      ∃ r, w.instances.find t.1 = some r ∧ T.owner r.repositoryId = t.2) :
  (w.await c target p).Inv T
  := by
  have hg := (Grows.refl w).await c target p
  apply h.frame hg
  · intro s hs id hid he halive hlinked
    apply hg.linked rfl hlinked
  · intro c'
    by_cases he : c' = c
    · subst he
      apply Goes.start ⟨target, p⟩ hc (Function.update_self ..) _ ha ht
      cases hp <;> rfl
    · apply Goes.same
      apply Function.update_of_ne he ..

/-- A call that fails before what it awaits is done, and may, keeps the invariant, and so does one
that needs no sandbox. -/
theorem Inv.failed (h : w.Inv T) {c : CallId} {call : Call} (hcall : w.calls c = some call)
    (hend : call.hasEnded = false) (hmay : mayFail call false = true) (ok : Bool) :
  (w.await c call.target (.ended ok)).Inv T
  := by
  apply h.await hcall (Grows.refl w) rfl fun _ _ _ _ _ _ hlinked => hlinked
  · intro hh
    contradiction
  · intro k hk
    contradiction
  · intro s _ _ htarget hm
    obtain ⟨target, p⟩ := call
    cases p with
    | insert connectionId externalId => contradiction
    | select id =>
        obtain ⟨r, hr, -, hrec⟩ := hm
        apply made_of_none _ hr hrec htarget
        simpa [mayFail] using hmay
    | link id => contradiction
    | ended ok => contradiction
    | _ => apply hm.elim

/-- An instance that has no sandbox has none that lives. -/
theorem Inv.not_alive_of_vacant (h : w.Inv T) {id : InstanceId} (hv : w.Vacant id) {s : Provided}
    (hs : s ∈ w.provided) (hid : s.instanceId = some id) :
  ¬ w.Alive s
  := by
  intro halive
  obtain ⟨hnot, hlinked⟩ := hv s hs hid
  rcases h.held_or_ended hs with hheld | hended
  · contradiction
  · obtain ⟨⟨target, p⟩, -, hend, hm⟩ := h.call_of_ended hs hended
    cases p with
    | ended ok => apply hlinked halive (hm.2 id hid halive)
    | _ => contradiction

/-- The provider makes a sandbox for a call whose instance has none. -/
theorem Inv.created (h : w.Inv T) {c : CallId} {target : Option (InstanceId × UserId)}
    {k : Coordinates} {externalId : String} (hcall : w.calls c = some ⟨target, .create k⟩)
    (hfresh : w.Fresh k externalId) (hv : ∀ t ∈ target, w.Vacant t.1) :
  ((w.provide k externalId c target).await c target (.insert k.connectionId externalId)).Inv T
  := by
  have hold : ∀ s ∈ w.provided, s.call ≠ c := by
    rintro s hs rfl
    obtain ⟨call, hcall', -, hm⟩ := h.made s hs
    rw [hcall] at hcall'
    rw [← Option.some.inj hcall'] at hm
    contradiction
  have hcalls : ∀ c', c' ≠ c → ((w.provide k externalId c target).await c target
      (.insert k.connectionId externalId)).calls c' = w.calls c' :=
    fun c' hc' => Function.update_of_ne hc' ..
  have hself : ((w.provide k externalId c target).await c target
      (.insert k.connectionId externalId)).calls c =
        some ⟨target, .insert k.connectionId externalId⟩ := Function.update_self ..
  have hmem : ∀ s, s ∈ w.provided ++ [⟨k, externalId, c, target.map Prod.fst⟩] →
      s ∈ w.provided ∨ s = ⟨k, externalId, c, target.map Prod.fst⟩ := by
    intro s hs
    simpa using hs
  constructor
  · intro s hs
    rcases hmem s hs with hs | rfl
    · obtain ⟨call, hcall', htarget, hm⟩ := h.made s hs
      exact ⟨call, (hcalls _ (hold s hs)).trans hcall', htarget, hm⟩
    · exact ⟨_, hself, rfl, rfl, rfl⟩
  · intro c' call hcall' hh
    by_cases hc : c' = c
    · exact ⟨_, List.mem_append_right _ (List.mem_singleton_self _), hc.symm⟩
    · rw [hcalls c' hc] at hcall'
      obtain ⟨s, hs, hsc⟩ := h.given c' call hcall' hh
      exact ⟨s, List.mem_append_left _ hs, hsc⟩
  · intro s hs
    rcases hmem s hs with hs | rfl
    · apply h.coordinates s hs
    · apply h.asked c _ k hcall rfl
  · intro c' call k' hcall' hk
    by_cases hc : c' = c
    · subst hc
      rw [hself] at hcall'
      obtain rfl := Option.some.inj hcall'
      contradiction
    · rw [hcalls c' hc] at hcall'
      apply h.asked c' call k' hcall' hk
  · change (w.provided ++ [_]).Pairwise _
    rw [List.pairwise_append]
    refine ⟨h.distinct, List.pairwise_singleton _ _, ?_⟩
    intro s hs s' hs'
    obtain rfl := List.mem_singleton.mp hs'
    refine ⟨hold s hs, ?_⟩
    intro heq
    obtain ⟨hhost, hext⟩ := Prod.mk.inj heq
    apply hfresh.2.2 s hs hhost hext
  · intro s hs hheld s' hs' id hid hid' halive
    rcases hmem s hs with hs | rfl
    · have hheld : w.Held s := by
        rw [Held, hcalls _ (hold s hs)] at hheld
        apply hheld
      rcases hmem s' hs' with hs' | rfl
      · apply h.apart s hs hheld s' hs' id hid hid' halive
      · obtain ⟨t, ht, rfl⟩ := Option.map_eq_some_iff.mp hid'
        apply absurd hheld (hv t ht s hs hid).1
    · rcases hmem s' hs' with hs' | rfl
      · obtain ⟨t, ht, rfl⟩ := Option.map_eq_some_iff.mp hid
        apply absurd halive (h.not_alive_of_vacant (hv t ht) hs' hid')
      · rfl
  · intro c' call t hcall' ht
    by_cases hc : c' = c
    · subst hc
      rw [hself] at hcall'
      obtain rfl := Option.some.inj hcall'
      apply h.targets c' _ t hcall ht
    · rw [hcalls c' hc] at hcall'
      apply h.targets c' call t hcall' ht

/-- A step of the tables or of a provider alone keeps the invariant if it keeps the links of living
sandboxes. -/
theorem Inv.outside (h : w.Inv T) (hg : w.Grows w') (hc : w'.calls = w.calls)
    (hl : ∀ s ∈ w.provided, ∀ id ∈ s.instanceId, w.Alive s → w.Linked id s → w'.Linked id s) :
  w'.Inv T
  := by
  apply h.frame hg
  · intro s hs id hid _ halive hlinked
    apply hl s hs id hid (hg.alive halive) hlinked
  · intro c
    exact .same (congrFun hc c)

/-- The invariant holds before the first call. -/
theorem inv_init (h : w.Initial) :
  w.Inv T
  := by
  constructor
  · intro s hs
    rw [h.provided] at hs
    contradiction
  · intro c call hcall
    rw [h.calls] at hcall
    contradiction
  · intro s hs
    rw [h.provided] at hs
    contradiction
  · intro c call k hcall
    rw [h.calls] at hcall
    contradiction
  · rw [h.provided]
    exact .nil
  · intro s hs
    rw [h.provided] at hs
    contradiction
  · intro c call target hcall
    rw [h.calls] at hcall
    contradiction

/-- A step of a run that provisions apart keeps the invariant. -/
theorem inv_act (h : w.Inv T) (hG : w.ProvisionsApart a) (ha : w.act T a = some w') :
  w'.Inv T
  := by
  cases acts_of_act ha with
  | upsert buildId repositoryId =>
      have hg := grows_upsertInstance w buildId repositoryId
      apply h.outside hg
      · rw [upsertInstance]
        split <;> rfl
      · intro s hs id hid _ hlinked
        have hlink : (w.upsertInstance buildId repositoryId).linkOf id = w.linkOf id := by
          obtain ⟨r, -, -, hl⟩ := hlinked
          obtain ⟨inst, hinst, -⟩ := Option.bind_eq_some_iff.mp hl
          rw [linkOf, linkOf, hinst, w.find_upsertInstance _ _ hinst]
        apply hg.linked hlink hlinked
  | ensure hc hr ho hb =>
      apply h.start hc .ensure (by simp)
      rintro t ⟨⟩
      exact ⟨_, hr, ho⟩
  | create connectionId hc => apply h.start hc .connection (by simp) (by simp)
  | kill id hc => apply h.start hc .find (by simp) (by simp)
  | link id sandboxInstanceId userId hrow =>
      have hg := grows_linkInstanceSandbox (T := T) w id sandboxInstanceId userId
      apply h.outside hg rfl
      intro s hs i hid halive hlinked
      obtain hsame | ⟨rfl, hlink⟩ :=
        w.linkOf_linkInstanceSandbox_or (T := T) id sandboxInstanceId userId i
      · apply hg.linked hsame hlinked
      · obtain ⟨r, hr, hrec, rfl⟩ := hG s hs hid halive hlinked
        exact ⟨r, hr, hrec, hlink⟩
  | updateBuild id connectionId =>
      have hg : w.Grows { w with
          builds := Function.update w.builds id ((w.builds id).map fun _ => connectionId) } :=
        ⟨(Grows.refl w).rows, List.Subset.refl _, (Grows.refl w).instances, rfl⟩
      apply h.outside hg rfl
      exact fun s _ id _ _ hlinked => hlinked
  | stmt hcall hs => apply h.stmt hcall (does_of_stmt hs) (.inl rfl)
  | created hcall hfresh => apply h.created hcall hfresh fun t ht => hG _ hcall t ht
  | lost hcall hfresh => apply hG.elim
  | @failed c call hcall he =>
      have hend : call.hasEnded = false := by
        obtain ⟨target, p⟩ := call
        cases p with
        | ended ok => apply absurd rfl (he ok)
        | _ => rfl
      apply h.failed hcall hend (hG call hcall) false
  | failedAfter hcall hs => apply h.stmt hcall (does_of_stmt hs) (.inr ⟨rfl, hG _ hcall⟩)
  | running hcall => apply h.failed hcall rfl rfl true
  | gone host externalId =>
      apply h.outside (grows_deleteSandbox w _ _) rfl
      exact fun s _ id _ _ hlinked => hlinked
  | markDead id =>
      have hg := grows_markSandboxInstanceDead w id
      apply h.outside hg rfl
      exact fun s _ id _ _ hlinked => hg.linked rfl hlinked

/-- The sandboxes of different rows are different. -/
theorem Inv.eq_of_records (h : w.Inv T) {r : Row} {s s' : Provided} (hs : s ∈ w.provided)
    (hs' : s' ∈ w.provided) (hr : r.Records s) (hr' : r.Records s') :
  s = s'
  := by
  by_contra hne
  have hcreated : s.created = s'.created := by
    have hc := h.coordinates s hs
    have hc' := h.coordinates s' hs'
    rw [← hr.2] at hc
    rw [← hr'.2, hc] at hc'
    apply Option.some.inj hc'
  apply (h.distinct.forall hs hs' hne).2
  rw [Provided.host, Provided.host, hcreated, ← hr.1, hr'.1]

/-- What is shown follows from the invariant. -/
theorem Inv.provisioned (h : w.Inv T) :
  w.Provisioned
  := by
  have hends : ∀ s ∈ w.provided, w.Ended s →
      (∃ r ∈ w.sandboxes.rows, r.Records s) ∧ ∀ id ∈ s.instanceId, w.Alive s → w.Linked id s := by
    intro s hs he
    obtain ⟨⟨target, p⟩, -, hend, hm⟩ := h.call_of_ended hs he
    cases p with
    | ended ok => apply hm
    | _ => contradiction
  constructor
  · intro s hs he
    apply (hends s hs he).1
  · intro s hs he
    apply (hends s hs he).2
  · intro s hs s' hs' id hid hid' halive halive'
    rcases h.held_or_ended hs with hheld | hended
    · apply (h.apart s hs hheld s' hs' id hid hid' halive').symm
    · rcases h.held_or_ended hs' with hheld' | hended'
      · apply h.apart s' hs' hheld' s hs id hid' hid halive
      · obtain ⟨r, hr, hrec, hlink⟩ := (hends s hs hended).2 id hid halive
        obtain ⟨r', hr', hrec', hlink'⟩ := (hends s' hs' hended').2 id hid' halive'
        have hrow : r = r' := by
          have hid := Option.some.inj (hlink.symm.trans hlink')
          have hfind := Table.find_of_mem hr
          rw [hid, Table.find_of_mem hr'] at hfind
          apply (Option.some.inj hfind).symm
        subst hrow
        apply h.eq_of_records hs hs' hrec hrec'

end World

/-- **There are no orphans and no doubles** in any run in which a sandbox is made for an instance
only while it has none, and in which nothing is lost between the request to the provider and the
link. -/
theorem provisioned_of_provisionsApart (T : Config) {w : World}
    (h : (system T).Reach World.ProvisionsApart w) :
  w.Provisioned
  := by
  have hinv : w.Inv T := by
    apply h.invariant
    · exact fun w hw => World.inv_init hw
    · exact fun w a w' hw hG ha => World.inv_act hw hG ha
  apply hinv.provisioned

/-- One connection, and one user. -/
def sampleConfig : Config where
  connections := [⟨1, "localhost:8090", none, some "sandbox:latest"⟩]
  owner := fun _ => 7
  sandboxDomain := "localhost:8090"
  sandboxImage := ""
  decrypt := fun _ => none

/-- The tables before the first instance. -/
def World.sample : World where
  builds := fun _ => some 1
  instances := Serial.empty
  sandboxes := Serial.empty
  provided := []
  destroyed := []
  calls := fun _ => none

theorem initial_sample :
  World.sample.Initial
  := by
  constructor
  · rfl
  · rfl
  · rfl
  · intro r hr
    contradiction

/-- A sandbox is made for an instance, and another when the user has killed it. -/
theorem provisioned_of_provisionsApart_killed :
  ∃ w, (system sampleConfig).Reach World.ProvisionsApart w ∧
    w.provided.length = 2 ∧ w.destroyed.length = 1 ∧ w.linkOf 1 = some 2 ∧ w.Provisioned
  := by
  obtain ⟨w, hw, hp⟩ := Transition.exists_reach_of_run
    (T := system sampleConfig) (G := World.ProvisionsApart) initial_sample
    [.upsert 1 1, .ensure 0 1 7, .stmt 0, .stmt 0, .stmt 0, .created 0 "a", .stmt 0, .stmt 0,
      .stmt 0, .kill 1 1, .stmt 1, .stmt 1, .stmt 1, .ensure 2 1 7, .stmt 2, .stmt 2, .stmt 2,
      .created 2 "b", .stmt 2, .stmt 2, .stmt 2]
    (fun w => w.provided.length = 2 ∧ w.destroyed.length = 1 ∧ w.linkOf 1 = some 2)
    (by decide +kernel)
  obtain ⟨hn, hd, hl⟩ := of_decide_eq_true hp
  exact ⟨w, hw, hn, hd, hl, provisioned_of_provisionsApart sampleConfig hw⟩

/-- Two calls that have read the row of an instance without a sandbox make one each, and the first
of the two is forgotten. -/
theorem not_provisioned_reachable :
  ∃ w, (system sampleConfig).Reachable w ∧ ¬ w.Provisioned
  := by
  obtain ⟨w, hw, hp⟩ := Transition.exists_reach_of_run
    (T := system sampleConfig) (G := fun _ _ => True) initial_sample
    [.upsert 1 1, .ensure 0 1 7, .ensure 1 1 7, .stmt 0, .stmt 0, .stmt 0, .created 0 "a",
      .stmt 0, .stmt 0, .stmt 0, .stmt 1, .stmt 1, .stmt 1, .created 1 "b", .stmt 1, .stmt 1,
      .stmt 1]
    (fun w => ∃ s ∈ w.provided, ∃ s' ∈ w.provided, s.instanceId = some 1 ∧ s'.instanceId = some 1 ∧
      w.Alive s ∧ w.Alive s' ∧ s ≠ s')
    (by decide +kernel)
  obtain ⟨s, hs, s', hs', hid, hid', halive, halive', hne⟩ := of_decide_eq_true hp
  exact ⟨w, hw, fun h => hne (h.single s hs s' hs' 1 hid hid' halive halive')⟩

end Hub.Sandbox
