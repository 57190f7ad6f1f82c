import GitAgent.Hub.Connect
import GitAgent.Library.Transition

/-!
# What a connection leaves

In every state of the hub a connection leaves nothing behind after an error, and a repository with
its only hook after a success, exactly if nothing fails that is not undone. For this no hook may
point to a repository whose id is not yet given, which holds in every run.
-/

namespace Hub.Connect

open Auth (callWithToken)

/-! ### One connection -/

namespace Environment

variable {base : String} {E : Environment} {w : World} {a : Args} {p : Prepared}

/-- Before the first statement that writes nothing is left behind. -/
theorem leavesNothing_of_same {w' : World} (h : w.Unclaimed base)
    (hrows : w'.repositories.rows = w.repositories.rows)
    (hhooks : w'.provider.hooks = w.provider.hooks) :
  LeavesNothing base w w'
  := by
  refine ⟨hrows, ?_⟩
  rw [hhooks]
  exact fun h' hh' => h h' hh' _ le_rfl

/-- A row that is left is one that was not there. -/
theorem not_leavesNothing_of_length {w' : World}
    (h : w'.repositories.rows.length = w.repositories.rows.length + 1) :
  ¬ LeavesNothing base w w'
  := by
  intro hleaves
  rw [hleaves.rows] at h
  omega

/-- The repository with its hook is what a connection is for. -/
theorem hooked_setWebhook {w₂ : World} {id : RepositoryId} {path : List String} {hookId : String}
    (hrepos : w₂.repositories.find id = some { p.row a with id })
    (hident : (w₂.identity a.identityId a.userId).isSome)
    (hpath : hooksPath p.ident.provider p.repo.owner p.repo.name p.repo.externalId = some path)
    {hooks : List Hook} (hhooks : w₂.provider.hooks = hooks ++ [hookOf base p path id hookId])
    (hold : ∀ h ∈ hooks, ¬ h.PointsTo base id) :
  Hooked base (w₂.setWebhook id hookId) a.userId
    { p.row a with id, webhookProviderId := some hookId }
  := by
  have hfind : (w₂.setWebhook id hookId).repositories.find id =
      some { p.row a with id, webhookProviderId := some hookId } := by
    rw [World.setWebhook]
    dsimp only
    rw [Serial.find_update, hrepos, Option.map_some, if_pos (decide_eq_true rfl)]
  refine ⟨hfind, ⟨hooks, _, hhooks, ⟨_, rfl⟩, rfl, hold⟩, ?_⟩
  intro D hD
  obtain ⟨hrow, hremoved⟩ := Disconnecting.Works.disconnect
    (r := { p.row a with id, webhookProviderId := some hookId }) hD hfind rfl rfl rfl hident hpath
  refine ⟨hrow, ?_⟩
  intro h hh
  obtain ⟨hh, hne⟩ := List.mem_filter.mp (hremoved ▸ hh)
  rw [show (w₂.setWebhook id hookId).provider.hooks = _ from hhooks, List.mem_append,
    List.mem_singleton] at hh
  rcases hh with hh | rfl
  · apply hold h hh
  · simp [hookOf] at hne

/-- A connection that is prepared settles if nothing fails that is not undone. -/
theorem settles_iff (hp : (E.prepare w a).2 = .ok p)
    (hacc : { w with auth := (E.prepare w a).1 }.Accepts (p.row a)) :
  E.Settles base w a ↔
    (∀ e, E.fault .create ≠ some (true, e)) ∧
      (E.fault .create = none → E.Subscribes w a →
        let c := E.hookCalled base (E.prepare w a).1 w.provider p w.repositories.next
        E.Told w.provider.calls c.tokens ∧ (c.error = none → E.fault .webhook = none))
  := by
  constructor
  · exact fun h => h p hp hacc
  · intro h p' hp' _
    obtain rfl := Except.ok.inj (hp.symm.trans hp')
    apply h

/-- The tables once the row of the repository was inserted. -/
def created (E : Environment) (w : World) (a : Args) (p : Prepared) : World :=
  { w with
    auth := (E.prepare w a).1
    repositories := w.repositories.insert (fun id => { p.row a with id }) fun _ => rfl }

/-- What is done once the row was inserted. -/
theorem connect_of_created (hp : (E.prepare w a).2 = .ok p)
    (hacc : { w with auth := (E.prepare w a).1 }.Accepts (p.row a))
    (hcreate : E.fault .create = none) :
  E.connect base w a =
    match E.subscribe (created E w a p) a w.repositories.next with
    | (w, .error e) => (w, .error e)
    | (w', .ok ()) =>
        match E.createHook base w' p w.repositories.next with
        | (w, .error e) => (w, .error e)
        | (w', .ok hookId) => E.storeHook w' a p w.repositories.next hookId
  := by
  rw [connect, hp]
  dsimp only
  rw [World.createRepository, if_pos hacc, attempt, hcreate, Fault.attempt_ok]
  rfl

/-- A repository is left with its hook exactly if the id of the hook is stored. -/
theorem leaves_storeHook_iff {w' : World} {path : List String} {hookId : String}
    (h : w.Unclaimed base)
    (hrepos : w'.repositories = (created E w a p).repositories)
    (hident : (w'.identity a.identityId a.userId).isSome)
    (hpath : hooksPath p.ident.provider p.repo.owner p.repo.name p.repo.externalId = some path)
    (hhooks : w'.provider.hooks =
      w.provider.hooks ++ [hookOf base p path w.repositories.next hookId]) :
  Leaves base w a.userId (E.storeHook w' a p w.repositories.next hookId) ↔ E.fault .webhook = none
  := by
  have hlength : w'.repositories.rows.length = w.repositories.rows.length + 1 := by
    rw [hrepos]
    exact List.length_append
  rw [storeHook, attempt]
  cases hf : E.fault .webhook with
  | none =>
      rw [Fault.attempt_ok]
      apply iff_of_true _ rfl
      have hfind : w'.repositories.find w.repositories.next =
          some { p.row a with id := w.repositories.next } := by
        rw [hrepos, created, Serial.find_insert, if_pos rfl]
      apply hooked_setWebhook hfind hident hpath hhooks
      exact fun h' hh' => h h' hh' _ le_rfl
  | some fault =>
      obtain ⟨effect, e⟩ := fault
      cases effect with
      | true =>
          rw [Fault.attempt_lost]
          apply iff_of_false _ (Option.some_ne_none _)
          exact not_leavesNothing_of_length ((List.length_map _).trans hlength)
      | false =>
          rw [Fault.attempt_failed]
          apply iff_of_false _ (Option.some_ne_none _)
          exact not_leavesNothing_of_length hlength

/-- Once the row was inserted, a connection leaves it with its hook, or deletes it with none left,
exactly if no answer of the provider is lost and the id of the hook is stored. -/
theorem atomic_iff_of_created (h : w.Unclaimed base) (hp : (E.prepare w a).2 = .ok p)
    (hacc : { w with auth := (E.prepare w a).1 }.Accepts (p.row a))
    (hcreate : E.fault .create = none) :
  Atomic base E w a ↔
    (E.Subscribes w a →
      let c := E.hookCalled base (E.prepare w a).1 w.provider p w.repositories.next
      E.Told w.provider.calls c.tokens ∧ (c.error = none → E.fault .webhook = none))
  := by
  have hfind : (created E w a p).repositories.find w.repositories.next =
      some { p.row a with id := w.repositories.next } := by
    rw [created, Serial.find_insert, if_pos rfl]
  have hrows : (created E w a p).repositories.rows =
      w.repositories.rows ++ [{ p.row a with id := w.repositories.next }] := rfl
  have hdeleted : ∀ w' : World, w'.repositories = (created E w a p).repositories →
      (w'.deleteRepository w.repositories.next).repositories.rows = w.repositories.rows := by
    intro w' hw'
    rw [← hw'] at hrows
    exact World.rows_deleteRepository hrows rfl
  rw [Atomic, connect_of_created hp hacc hcreate]
  rcases subscribe_cases (E := E) (a := a) (Option.isSome_of_eq_some hfind) with
    ⟨hsub, w₂, hw₂, hauth, hrepos, hprovider⟩ | ⟨hsub, w₂, e, hw₂, hrepos, hprovider⟩
  · obtain ⟨path, hpath⟩ :=
      exists_hooksPath hacc.2.2.1 p.repo.owner p.repo.name p.repo.externalId
    have hcases := hookCalled_cases hpath base E w.repositories.next (E.prepare w a).1 w.provider
    have hcalled : E.hookCalled base w₂.auth w₂.provider p w.repositories.next =
        E.hookCalled base (E.prepare w a).1 w.provider p w.repositories.next := by
      rw [hauth, hprovider]
      rfl
    have hsame : w.auth.Same
        (E.hookCalled base (E.prepare w a).1 w.provider p w.repositories.next).store :=
      (same_prepare E w a).trans (Auth.same_callWithToken ..)
    rw [hw₂]
    dsimp only
    rw [createHook, hcalled]
    dsimp only at hcases ⊢
    generalize E.hookCalled base (E.prepare w a).1 w.provider p w.repositories.next = c
      at hcases hsame ⊢
    rcases hcases with ⟨id', herr, hhooks, hid', htold⟩ | ⟨e, herr, hhooks, htold⟩ |
      ⟨e, id', herr, hhooks, htold⟩
    · rw [herr, hid']
      let w₃ : World := { w₂ with auth := c.store, provider := c.world.1 }
      have hident : (w₃.identity a.identityId a.userId).isSome :=
        World.isSome_identity_of_same hsame (isSome_identity_of_prepare hp)
      have hstore : Leaves base w a.userId (E.storeHook w₃ a p w.repositories.next id') ↔ _ :=
        leaves_storeHook_iff h hrepos hident hpath hhooks
      apply hstore.trans
      exact ⟨fun hf _ => ⟨htold, fun _ => hf⟩, fun hs => (hs hsub).2 rfl⟩
    · rw [herr]
      dsimp only
      apply iff_of_true
      · exact leavesNothing_of_same h (hdeleted _ hrepos) hhooks
      · exact fun _ => ⟨htold, nofun⟩
    · rw [herr]
      dsimp only
      apply iff_of_false
      · intro hleaves
        have hmem : hookOf base p path w.repositories.next id' ∈ c.world.1.hooks := by
          rw [hhooks]
          apply List.mem_concat_self
        exact hleaves.hooks _ hmem ⟨_, rfl⟩
      · exact fun hs => htold (hs hsub).1
  · rw [hw₂]
    apply iff_of_true
    · apply leavesNothing_of_same h (hdeleted w₂ hrepos)
      exact congrArg Provider.hooks hprovider
    · exact fun hs => absurd hs hsub

/-- A connection leaves nothing behind, or a repository with its hook, exactly if nothing fails that
is not undone. -/
theorem atomic_iff_settles (h : w.Unclaimed base) :
  Atomic base E w a ↔ E.Settles base w a
  := by
  cases hp : (E.prepare w a).2 with
  | error e =>
      rw [Atomic, connect, hp]
      apply iff_of_true
      · exact leavesNothing_of_same h rfl rfl
      · intro p hp'
        rw [hp] at hp'
        contradiction
  | ok p =>
      by_cases hacc : { w with auth := (E.prepare w a).1 }.Accepts (p.row a)
      · rw [settles_iff hp hacc]
        cases hcreate : E.fault .create with
        | some fault =>
            obtain ⟨effect, e⟩ := fault
            rw [Atomic, connect, hp]
            dsimp only
            rw [World.createRepository, if_pos hacc, attempt, hcreate]
            cases effect with
            | true =>
                rw [Fault.attempt_lost]
                apply iff_of_false
                · apply not_leavesNothing_of_length
                  exact List.length_append
                · exact fun hs => hs.1 e rfl
            | false =>
                rw [Fault.attempt_failed]
                apply iff_of_true
                · exact leavesNothing_of_same h rfl rfl
                · constructor
                  · rintro _ ⟨⟩
                  · intro hnone
                    contradiction
        | none =>
            rw [atomic_iff_of_created h hp hacc hcreate]
            exact ⟨fun hs => ⟨fun _ => (Option.some_ne_none _).symm, fun _ => hs⟩, fun hs => hs.2 rfl⟩
      · have hsettles : E.Settles base w a := by
          intro p' hp' hacc'
          obtain rfl := Except.ok.inj (hp.symm.trans hp')
          exact absurd hacc' hacc
        obtain ⟨e, he⟩ := Fault.attempt_refused (α := RepositoryId) (E.fault .create)
          (E.refusal .create) { w with auth := (E.prepare w a).1 }
        rw [Atomic, connect, hp]
        dsimp only
        rw [World.createRepository, if_neg hacc, attempt, he]
        apply iff_of_true _ hsettles
        exact leavesNothing_of_same h rfl rfl

end Environment

/-! ### Runs -/

/-- What the hub does with its repositories, and what else there is: the tables change, where an id
is never given again, and hooks that do not point to the hub come and go. -/
inductive Action (base : String)
  | connect (E : Environment) (a : Args)
  | disconnect (D : Disconnecting) (id : RepositoryId) (userId : UserId)
  | other (auth : Auth.Store) (builds : List BuildId)
      (repositories : Serial RepositoryRow RepositoryRow.id)
      (subscriptions : Serial SubscriptionRow SubscriptionRow.id) (calls : ℕ) (keep : Hook → Bool)
      (foreign : List { h : Hook // ∀ id, ¬ h.PointsTo base id })

/-- The hub, whose hooks have URLs that begin with `base`. At first no hook points to it. -/
def system (base : String) : Transition.System World (Action base) where
  init w := ∀ h ∈ w.provider.hooks, ∀ id, ¬ h.PointsTo base id
  step w
    | .connect E a => some (E.connect base w a).1
    | .disconnect D id userId => some (D.disconnect w id userId).1
    | .other auth builds repositories subscriptions calls keep foreign =>
        if w.repositories.next ≤ repositories.next then
          let hooks := w.provider.hooks.filter keep ++ foreign.map Subtype.val
          some { auth, builds, repositories, subscriptions, provider := { hooks, calls } }
        else none

/-- No id is given again, and the hooks are hooks of before or point to an id that was given. -/
structure Grows (base : String) (w w' : World) : Prop where
  next : w.repositories.next ≤ w'.repositories.next
  hooks : ∀ h ∈ w'.provider.hooks, h ∈ w.provider.hooks ∨
    ∃ id < w'.repositories.next, h.PointsTo base id

namespace Grows

variable {base : String} {w w' : World}

theorem of_eq (hnext : w'.repositories.next = w.repositories.next)
    (hhooks : w'.provider.hooks = w.provider.hooks) :
  Grows base w w'
  := by
  use hnext.ge
  rw [hhooks]
  exact fun _ => .inl

theorem refl (base : String) (w : World) :
  Grows base w w
  := .of_eq rfl rfl

theorem trans {w'' : World} (h : Grows base w w') (h' : Grows base w' w'') :
  Grows base w w''
  := by
  use h.next.trans h'.next
  intro hook hhook
  rcases h'.hooks hook hhook with hhook | hnew
  · rcases h.hooks hook hhook with hhook | ⟨id, hid, hpoints⟩
    · exact .inl hhook
    · exact .inr ⟨id, hid.trans_le h'.next, hpoints⟩
  · exact .inr hnew

/-- A hook points to no id that is not yet given. -/
theorem unclaimed (h : Grows base w w') (hw : w.Unclaimed base) :
  w'.Unclaimed base
  := by
  intro hook hhook id hid hpoints
  rcases h.hooks hook hhook with hhook | ⟨id', hid', hpoints'⟩
  · apply hw hook hhook id (h.next.trans hid) hpoints
  · obtain ⟨provider, hurl⟩ := hpoints
    obtain ⟨provider', hurl'⟩ := hpoints'
    obtain rfl := id_of_hookURL (hurl.symm.trans hurl')
    omega

end Grows

namespace Environment

variable {base : String} {E : Environment} {w : World} {a : Args} {p : Prepared}

theorem grows_subscribe (base : String) (E : Environment) (w : World) (a : Args)
    (id : RepositoryId) :
  Grows base w (E.subscribe w a id).1
  := by
  rw [subscribe]
  cases a.buildId with
  | none => apply Grows.refl
  | some b =>
      dsimp only
      generalize hr : E.attempt .subscribe w ((w.upsertSubscription b id).map fun w => (w, ())) = r
      obtain ⟨w', r⟩ := r
      have hattempt : Grows base w w' := by
        rcases Fault.attempt_cases hr with ⟨rfl, -⟩ | ⟨_, hnext, -⟩
        · apply Grows.refl
        · obtain ⟨w₁, hup, hw₁⟩ := Option.map_eq_some_iff.mp hnext
          obtain ⟨rfl, -⟩ := Prod.mk.inj hw₁
          rw [World.upsertSubscription] at hup
          split at hup
          · split at hup <;> obtain rfl := Option.some.inj hup <;> exact Grows.of_eq rfl rfl
          · contradiction
      cases r with
      | error e => exact ⟨hattempt.next, hattempt.hooks⟩
      | ok => exact hattempt

/-- The hooks that a call makes point to the repository. -/
theorem grows_createHook (base : String) (E : Environment) (p : Prepared) {id : RepositoryId}
    (hid : id < w.repositories.next) :
  Grows base w (E.createHook base w p id).1
  := by
  have hhooks : ∀ h ∈ (E.hookCalled base w.auth w.provider p id).world.1.hooks,
      h ∈ w.provider.hooks ∨ ∃ id < w.repositories.next, h.PointsTo base id := by
    apply Auth.invariant_callWithToken (P := fun s : Provider × String => ∀ h ∈ s.1.hooks,
      h ∈ w.provider.hooks ∨ ∃ id < w.repositories.next, h.PointsTo base id)
    · rintro token ⟨s, x⟩ hs
      cases hpath : hooksPath p.ident.provider p.repo.owner p.repo.name p.repo.externalId with
      | none =>
          rw [hookFn]
          dsimp only
          rw [hpath]
          apply hs
      | some path =>
          have hnew : ∀ id', ∀ h ∈ s.hooks ++ [hookOf base p path id id'],
              h ∈ w.provider.hooks ∨ ∃ id < w.repositories.next, h.PointsTo base id := by
            intro id' h hh
            rcases List.mem_append.mp hh with hh | hh
            · apply hs h hh
            · obtain rfl := List.mem_singleton.mp hh
              exact .inr ⟨id, hid, _, rfl⟩
          rcases hookFn_cases hpath base E id token s x with
            ⟨id', -, hfn⟩ | ⟨e, -, hfn⟩ | ⟨id', e, e', -, -, hfn⟩
          · rw [hfn]
            apply hnew
          · rw [hfn]
            apply hs
          · rw [hfn]
            apply hnew
    · exact fun h => .inl
  rw [createHook]
  split
  · exact ⟨le_rfl, hhooks⟩
  · exact ⟨le_rfl, hhooks⟩

theorem grows_storeHook (base : String) (E : Environment) (w : World) (a : Args) (p : Prepared)
    (id : RepositoryId) (hookId : String) :
  Grows base w (E.storeHook w a p id hookId).1
  := by
  rw [storeHook]
  generalize hr : E.attempt .webhook w (some (w.setWebhook id hookId, ())) = r
  obtain ⟨w', r⟩ := r
  have hattempt : Grows base w w' := by
    rcases Fault.attempt_cases hr with ⟨rfl, -⟩ | ⟨_, hnext, -⟩
    · apply Grows.refl
    · obtain ⟨rfl, -⟩ := Prod.mk.inj (Option.some.inj hnext)
      exact Grows.of_eq rfl rfl
  cases r with
  | error e => exact hattempt
  | ok => exact hattempt

/-- The id that a row gets is given then. -/
theorem grows_create (base : String) {w' : World} {row : RepositoryRow}
    {r : Except String RepositoryId} (h : E.attempt .create w (w.createRepository row) = (w', r)) :
  Grows base w w' ∧ ∀ id, r = .ok id → id < w'.repositories.next
  := by
  rcases Fault.attempt_cases h with ⟨rfl, hne⟩ | ⟨id', hnext, hok⟩
  · exact ⟨Grows.refl _ _, fun id hid => absurd hid (hne id)⟩
  · rw [World.createRepository] at hnext
    split at hnext
    · obtain ⟨rfl, rfl⟩ := Prod.mk.inj (Option.some.inj hnext)
      use ⟨Nat.le_succ _, fun _ => .inl⟩
      intro id hid
      rw [hok id hid]
      apply Nat.lt_succ_self
    · contradiction

/-- A connection makes hooks that point to the repository only. -/
theorem grows_connect (base : String) (E : Environment) (w : World) (a : Args) :
  Grows base w (E.connect base w a).1
  := by
  have hprepare : Grows base w { w with auth := (E.prepare w a).1 } := .of_eq rfl rfl
  rw [connect]
  split
  · exact hprepare
  · rename_i p hp
    split
    · rename_i w₁ e hw₁
      exact hprepare.trans (grows_create base hw₁).1
    · rename_i w₁ id hw₁
      obtain ⟨hcreate, hid⟩ := grows_create base hw₁
      have hcreated := hprepare.trans hcreate
      have hsubscribe := grows_subscribe base E w₁ a id
      split
      · rename_i w₂ e hw₂
        rw [hw₂] at hsubscribe
        exact hcreated.trans hsubscribe
      · rename_i w₂ hw₂
        rw [hw₂] at hsubscribe
        have hhook := grows_createHook base E p ((hid id rfl).trans_le hsubscribe.next)
        split
        · rename_i w₃ e hw₃
          rw [hw₃] at hhook
          exact (hcreated.trans hsubscribe).trans hhook
        · rename_i w₃ hookId hw₃
          rw [hw₃] at hhook
          exact ((hcreated.trans hsubscribe).trans hhook).trans
            (grows_storeHook base E w₃ a p id hookId)

end Environment

/-- `Disconnect` makes no hooks. -/
theorem grows_disconnect (base : String) (D : Disconnecting) (w : World) (id : RepositoryId)
    (userId : UserId) :
  Grows base w (D.disconnect w id userId).1
  := by
  have hremove : ∀ r, Grows base w (D.removeHook w r userId) := by
    intro r
    rw [Disconnecting.removeHook]
    split
    · split
      · apply Grows.refl
      · refine ⟨le_rfl, fun h hh => .inl ?_⟩
        revert h
        apply Auth.invariant_callWithToken
          (P := fun s : Provider => ∀ h ∈ s.hooks, h ∈ w.provider.hooks)
        · intro token s hs
          rw [Disconnecting.deleteFn]
          split
          · exact fun h hh => hs h (List.mem_of_mem_filter hh)
          · exact hs
          · exact hs
        · exact fun h hh => hh
    · apply Grows.refl
  rw [Disconnecting.disconnect]
  split
  · apply Grows.refl
  · split
    · apply Grows.refl
    · rename_i r _
      dsimp only
      split
      · exact (hremove r).trans (.of_eq rfl rfl)
      · exact (hremove r).trans (.of_eq rfl rfl)
      · exact hremove r

/-- In every state no hook points to a repository whose id is not yet given. -/
theorem unclaimed_of_reachable {base : String} {w : World} (h : (system base).Reachable w) :
  w.Unclaimed base
  := by
  apply h.invariant
  · exact fun w hw hook hhook id _ => hw hook hhook id
  · intro w act w' hw _ hstep
    cases act with
    | connect E a =>
        obtain rfl := Option.some.inj hstep
        apply (Environment.grows_connect base E w a).unclaimed hw
    | disconnect D id userId =>
        obtain rfl := Option.some.inj hstep
        apply (grows_disconnect base D w id userId).unclaimed hw
    | other auth builds repositories subscriptions calls keep foreign =>
        rw [system] at hstep
        dsimp only at hstep
        split at hstep
        · rename_i hnext
          obtain rfl := Option.some.inj hstep
          intro hook hhook id hid
          rcases List.mem_append.mp hhook with hhook | hhook
          · exact hw hook (List.mem_of_mem_filter hhook) id (hnext.trans hid)
          · obtain ⟨h, -, rfl⟩ := List.mem_map.mp hhook
            exact h.property id
        · contradiction

/-- **A connection leaves nothing behind, or a repository with its hook, exactly if it settles**: in
every state that is reached, after an error there is no new row and no hook that points to it, and
after a success exactly one hook whose id is in the row and that `Disconnect` removes, exactly if
the answers of the statement that inserts the row and of the provider that makes the hook are not
lost, and the statement that stores the id of the hook does not fail. -/
theorem atomic_iff_of_reachable {base : String} {w : World} (h : (system base).Reachable w)
    (E : Environment) (a : Args) :
  Atomic base E w a ↔ E.Settles base w a
  := Environment.atomic_iff_settles (unclaimed_of_reachable h)

/-- The tables with one identity, at GitLab, and no hooks. -/
def sampleWorld : World where
  auth := Auth.sampleStore
  builds := []
  repositories := .empty
  subscriptions := .empty
  provider := { hooks := [] }

/-- The provider makes the hook; the statement that stores its id fails with `fault`. -/
def sampleEnvironment (fault : Option (Bool × String)) : Environment where
  repoCall := Auth.sampleRefreshing ""
  repo := fun _ _ externalId => .ok ⟨externalId, "group", "lib", some "main"⟩
  secret := .ok "s"
  encrypt := .ok
  hookCall := Auth.sampleRefreshing ""
  answer := fun _ _ => .created "7"
  fault := fun st => if st = .webhook then fault else none
  refusal := fun _ => ""

/-- The user connects a repository. -/
def sampleArgs : Args where
  userId := 1
  identityId := 1
  externalId := "42"

theorem reachable_sampleWorld :
  (system "https://hub").Reachable sampleWorld
  := .start nofun

/-- Where nothing fails, the repository is connected with its hook. -/
theorem atomic_iff_of_reachable_sample :
  Atomic "https://hub" (sampleEnvironment none) sampleWorld sampleArgs
  := by
  apply (atomic_iff_of_reachable reachable_sampleWorld _ _).mpr
  intro p _ _
  refine ⟨nofun, fun _ _ => ⟨?_, fun _ => rfl⟩⟩
  intro _ _ _ _ _
  nofun

/-- Where the id of the hook is not stored, the row and the hook are left. -/
theorem not_atomic_stored :
  ¬ ∀ (base : String) (w : World), (system base).Reachable w → ∀ (E : Environment) (a : Args),
    Atomic base E w a
  := by
  intro h
  let E := sampleEnvironment (some (false, "timeout"))
  have hleaves : LeavesNothing "https://hub" sampleWorld
      (E.connect "https://hub" sampleWorld sampleArgs).1 :=
    h _ _ reachable_sampleWorld E sampleArgs
  have hlength := congrArg List.length hleaves.rows
  revert hlength
  decide

end Hub.Connect
