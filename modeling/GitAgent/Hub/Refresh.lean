import GitAgent.Hub.Auth

/-!
# Refreshing the tokens of an identity

A call of the provider's API with the token of an identity (`app/auth.go`, `CallWithToken`). Where
the provider does not take the token, it is refreshed, the new tokens are stored, and the call is
made once more. The statement that stores them keeps the old refresh token where there is no new
one, but the identity in memory does not, so the two are in step after a call exactly if nothing is
stored, or tokens of both kinds are.
-/

namespace Hub.Auth

/-- An error of a call of the provider, and whether it wraps `ErrUnauthorized`. -/
structure CallError where
  text : String
  unauthorized : Bool := false
  deriving DecidableEq, Repr

/-- A call of the provider's API with a token, in a world that it may change. -/
abbrev Fn (σ : Type) := String → σ → σ × Option CallError

/-- What happens during `CallWithToken`: also the decryption of secrets, and the answers of the
provider to a refresh. -/
structure Refreshing extends Environment where
  decrypt : String → Except String String
  refresh : String → String → Except String OAuthToken

/-- How `CallWithToken` ends: the tables, the identity in memory, the world, the error, and the
tokens that `fn` was called with. -/
structure Called (σ : Type) where
  store : Store
  ident : Identity
  world : σ
  error : Option CallError
  tokens : List String

/-- The tokens of a refresh, as they are stored. -/
structure Renewal where
  tok : OAuthToken
  accessEnc : String
  refreshEnc : Option String
  deriving DecidableEq, Repr

/-- The identity in memory with new tokens. -/
def Identity.renew (ident : Identity) (r : Renewal) : Identity :=
  { ident with accessTokenEnc := r.accessEnc, refreshTokenEnc := r.refreshEnc }

/-- The identity is stored with the tokens that it has in memory. -/
def Store.InStep (s : Store) (ident : Identity) : Prop :=
  ∃ row, s.identities.find ident.id = some row ∧ row.accessTokenEnc = ident.accessTokenEnc ∧
    row.refreshTokenEnc = ident.refreshTokenEnc

/-- `UpdateIdentityTokens`, with new tokens of the identity. -/
def Store.renew (s : Store) (ident : Identity) (r : Renewal) : Store :=
  s.updateIdentityTokens ident.id ident.username r.accessEnc r.refreshEnc r.tok.expiresAt

section

variable {σ : Type} (E : Refreshing) (fn : Fn σ)

/-- `CallWithToken`. -/
def callWithToken (s : Store) (ident : Identity) (x : σ) : Called σ :=
  match E.decrypt ident.accessTokenEnc with
  | .error e => { store := s, ident, world := x, error := some ⟨e, false⟩, tokens := [] }
  | .ok token =>
      let (x, err) := fn token x
      let ended (err : Option CallError) : Called σ :=
        { store := s, ident, world := x, error := err, tokens := [token] }
      if err.any (·.unauthorized) then
        match ident.refreshTokenEnc with
        | none => ended err
        | some refreshTokenEnc =>
            match E.decrypt refreshTokenEnc with
            | .error _ => ended err
            | .ok refresh =>
                match E.refresh ident.provider refresh with
                | .error _ => ended err
                | .ok tok =>
                    match E.encryptTokens tok with
                    | .error e => ended (some ⟨e, false⟩)
                    | .ok (accessEnc, refreshEnc) =>
                        let r : Renewal := { tok, accessEnc, refreshEnc }
                        match E.attempt .update s (some (s.renew ident r, ())) with
                        | (s, .error e) => { ended (some ⟨e.text, false⟩) with store := s }
                        | (s, .ok ()) =>
                            let (x, err) := fn tok.accessToken x
                            { store := s
                              ident := ident.renew r
                              world := x
                              error := err
                              tokens := [token, tok.accessToken] }
      else ended err

/-- The tokens that a call stores, if it gets so far: the provider did not take the token of the
identity, which has a refresh token, and gave new ones. -/
def renewal (ident : Identity) (x : σ) : Option Renewal := do
  let token ← (E.decrypt ident.accessTokenEnc).toOption
  guard ((fn token x).2.any (·.unauthorized))
  let refreshTokenEnc ← ident.refreshTokenEnc
  let refresh ← (E.decrypt refreshTokenEnc).toOption
  let tok ← (E.refresh ident.provider refresh).toOption
  let (accessEnc, refreshEnc) ← (E.encryptTokens tok).toOption
  return { tok, accessEnc, refreshEnc }

/-- Where new tokens are to be stored, they are, and the provider gave a new refresh token; or they
are not; or the answer to the statement is lost, but they are the tokens of before. -/
def Settled (ident : Identity) (x : σ) : Prop :=
  ∀ r ∈ renewal E fn ident x,
    match E.fault .update with
    | none => r.tok.refreshToken ≠ ""
    | some (false, _) => True
    | some (true, _) => r.accessEnc = ident.accessTokenEnc ∧
        (r.refreshEnc <|> ident.refreshTokenEnc) = ident.refreshTokenEnc

/-- `fn` is called at most twice: with the token of the identity, and, if the provider did not take
it and the refreshed tokens were stored, with the new one. -/
inductive Disciplined (s : Store) (ident : Identity) (x : σ) (c : Called σ) : Prop
  | none (h : c.tokens = [])
  | once {token : String} (ht : E.decrypt ident.accessTokenEnc = .ok token)
      (h : c.tokens = [token])
  | twice {token : String} {r : Renewal} (ht : E.decrypt ident.accessTokenEnc = .ok token)
      (hunauthorized : (fn token x).2.any (·.unauthorized) = true)
      (hr : r ∈ renewal E fn ident x) (hstore : c.store = s.renew ident r)
      (h : c.tokens = [token, r.tok.accessToken])

/-! ### One call -/

/-- How a call ends. -/
inductive Calls (s : Store) (ident : Identity) (x : σ) : Called σ → Prop
  | quiet {y : σ} {err : Option CallError} {tokens : List String}
      (hr : renewal E fn ident x = none)
      (ht : tokens = [] ∨ ∃ token, E.decrypt ident.accessTokenEnc = .ok token ∧ tokens = [token]) :
      Calls s ident x { store := s, ident, world := y, error := err, tokens }
  | failed {y : σ} {r : Renewal} {token e e' : String} (hr : renewal E fn ident x = some r)
      (ht : E.decrypt ident.accessTokenEnc = .ok token)
      (hf : E.fault .update = some (false, e)) :
      Calls s ident x
        { store := s, ident, world := y, error := some ⟨e', false⟩, tokens := [token] }
  | lost {y : σ} {r : Renewal} {token e e' : String} (hr : renewal E fn ident x = some r)
      (ht : E.decrypt ident.accessTokenEnc = .ok token)
      (hf : E.fault .update = some (true, e)) :
      Calls s ident x { store := s.renew ident r, ident, world := y, error := some ⟨e', false⟩
                        tokens := [token] }
  | renewed {y : σ} {r : Renewal} {token : String} {err : Option CallError}
      (hr : renewal E fn ident x = some r) (ht : E.decrypt ident.accessTokenEnc = .ok token)
      (hu : (fn token x).2.any (·.unauthorized) = true) (hf : E.fault .update = none) :
      Calls s ident x { store := s.renew ident r, ident := ident.renew r, world := y, error := err
                        tokens := [token, r.tok.accessToken] }

variable {E fn} {s : Store} {ident : Identity} {x : σ}

theorem calls_callWithToken (E : Refreshing) (fn : Fn σ) (s : Store) (ident : Identity)
    (x : σ) :
  Calls E fn s ident x (callWithToken E fn s ident x)
  := by
  rw [callWithToken]
  cases ht : E.decrypt ident.accessTokenEnc with
  | error e =>
      apply Calls.quiet _ (.inl rfl)
      simp [renewal, ht, Except.toOption]
  | ok token =>
      have honce : [token] = [] ∨
          ∃ token', E.decrypt ident.accessTokenEnc = .ok token' ∧ [token] = [token'] :=
        .inr ⟨token, ht, rfl⟩
      dsimp only
      split
      · rename_i hu
        cases hrefresh : ident.refreshTokenEnc with
        | none =>
            apply Calls.quiet _ honce
            simp [renewal, ht, hrefresh, Except.toOption]
        | some refreshTokenEnc =>
            dsimp only
            split
            · rename_i hdecrypt
              apply Calls.quiet _ honce
              simp [renewal, ht, hrefresh, hdecrypt, Except.toOption]
            · rename_i refresh hdecrypt
              split
              · rename_i htok
                apply Calls.quiet _ honce
                simp [renewal, ht, hrefresh, hdecrypt, htok, Except.toOption]
              · rename_i tok htok
                split
                · rename_i henc
                  apply Calls.quiet _ honce
                  simp [renewal, ht, hrefresh, hdecrypt, htok, henc, Except.toOption]
                · rename_i accessEnc refreshEnc henc
                  have hr : renewal E fn ident x = some { tok, accessEnc, refreshEnc } := by
                    simp [renewal, ht, hu, hrefresh, hdecrypt, htok, henc, Except.toOption, guard]
                  cases hf : E.fault .update with
                  | none =>
                      rw [Environment.attempt.eq_def, hf]
                      apply Calls.renewed hr ht hu hf
                  | some fault =>
                      obtain ⟨effect, e⟩ := fault
                      cases effect with
                      | true =>
                          rw [Environment.attempt.eq_def, hf]
                          apply Calls.lost hr ht hf
                      | false =>
                          rw [Environment.attempt.eq_def, hf]
                          apply Calls.failed hr ht hf
      · rename_i hu
        apply Calls.quiet _ honce
        simp [renewal, ht, hu, Except.toOption, guard]

/-- What `fn` does in a call: it is not called, or once, or once more after the provider did not
take the first token. -/
inductive Ran (fn : Fn σ) (x : σ) : Called σ → Prop
  | none {s : Store} {ident : Identity} {e : CallError} :
      Ran fn x { store := s, ident, world := x, error := some e, tokens := [] }
  | once {s : Store} {ident : Identity} {token : String} {err : Option CallError}
      (h : err = none ↔ (fn token x).2 = none) :
      Ran fn x { store := s, ident, world := (fn token x).1, error := err, tokens := [token] }
  | twice {s : Store} {ident : Identity} {token token' : String}
      (h : (fn token x).2.any (·.unauthorized) = true) :
      Ran fn x { store := s, ident, world := (fn token' (fn token x).1).1
                 error := (fn token' (fn token x).1).2, tokens := [token, token'] }

theorem ran_callWithToken (E : Refreshing) (fn : Fn σ) (s : Store) (ident : Identity) (x : σ) :
  Ran fn x (callWithToken E fn s ident x)
  := by
  rw [callWithToken]
  cases E.decrypt ident.accessTokenEnc with
  | error e => apply Ran.none
  | ok token =>
      dsimp only
      split
      · rename_i hu
        have hsome : (fn token x).2 ≠ none := by
          intro hn
          rw [hn] at hu
          contradiction
        split
        · exact Ran.once Iff.rfl
        · split
          · exact Ran.once Iff.rfl
          · split
            · exact Ran.once Iff.rfl
            · split
              · exact Ran.once (iff_of_false nofun hsome)
              · split
                · exact Ran.once (iff_of_false nofun hsome)
                · exact Ran.twice hu
      · exact Ran.once Iff.rfl

/-- What `fn` preserves, a call does. -/
theorem invariant_callWithToken {P : σ → Prop} (hfn : ∀ token y, P y → P (fn token y).1)
    (E : Refreshing) (s : Store) (ident : Identity) (hx : P x) :
  P (callWithToken E fn s ident x).world
  := by
  have hran := ran_callWithToken E fn s ident x
  generalize callWithToken E fn s ident x = c at hran ⊢
  cases hran with
  | none => apply hx
  | once => apply hfn _ _ hx
  | twice => apply hfn _ _ (hfn _ _ hx)

/-- A call changes no more than the tokens of identities. -/
theorem same_callWithToken (E : Refreshing) (fn : Fn σ) (s : Store) (ident : Identity) (x : σ) :
  s.Same (callWithToken E fn s ident x).store
  := by
  have hcalls := calls_callWithToken E fn s ident x
  generalize callWithToken E fn s ident x = c at hcalls ⊢
  cases hcalls with
  | quiet => apply Store.Same.refl
  | failed => apply Store.Same.refl
  | lost => apply Store.same_updateIdentityTokens
  | renewed => apply Store.same_updateIdentityTokens

theorem disciplined_callWithToken (E : Refreshing) (fn : Fn σ) (s : Store) (ident : Identity)
    (x : σ) :
  Disciplined E fn s ident x (callWithToken E fn s ident x)
  := by
  have hcalls := calls_callWithToken E fn s ident x
  generalize callWithToken E fn s ident x = c at hcalls ⊢
  cases hcalls with
  | quiet hr ht =>
      rcases ht with rfl | ⟨token, ht, rfl⟩
      · apply Disciplined.none rfl
      · apply Disciplined.once ht rfl
  | failed hr ht hf => apply Disciplined.once ht rfl
  | lost hr ht hf => apply Disciplined.once ht rfl
  | renewed hr ht hu hf => apply Disciplined.twice ht hu hr rfl rfl

/-- There is a refresh token to be stored exactly if the provider gave one. -/
theorem isSome_of_encryptTokens {E : Environment} {tok : OAuthToken} {accessEnc : String}
    {refreshEnc : Option String} (h : E.encryptTokens tok = .ok (accessEnc, refreshEnc)) :
  refreshEnc.isSome ↔ tok.refreshToken ≠ ""
  := by
  rw [Environment.encryptTokens] at h
  cases haccess : E.encrypt tok.accessToken with
  | error e =>
      rw [haccess] at h
      contradiction
  | ok accessEnc' =>
      rw [haccess] at h
      simp only [bind, Except.bind] at h
      split at h
      · rename_i hnone
        obtain ⟨-, rfl⟩ := Prod.mk.inj (Except.ok.inj h)
        simp [hnone]
      · rename_i hsome
        cases hrefresh : E.encrypt tok.refreshToken with
        | error e =>
            rw [hrefresh] at h
            contradiction
        | ok refreshEnc' =>
            rw [hrefresh] at h
            obtain ⟨-, rfl⟩ := Prod.mk.inj (Except.ok.inj h)
            simp [hsome]

/-- Only an identity with a refresh token is renewed, and then with a refresh token exactly if the
provider gave one. -/
theorem refreshEnc_of_renewal {r : Renewal} (hr : renewal E fn ident x = some r) :
  ident.refreshTokenEnc.isSome ∧ (r.refreshEnc.isSome ↔ r.tok.refreshToken ≠ "")
  := by
  obtain ⟨token, -, hr⟩ := Option.bind_eq_some_iff.mp hr
  obtain ⟨-, -, hr⟩ := Option.bind_eq_some_iff.mp hr
  obtain ⟨refreshTokenEnc, hrefresh, hr⟩ := Option.bind_eq_some_iff.mp hr
  obtain ⟨refresh, -, hr⟩ := Option.bind_eq_some_iff.mp hr
  obtain ⟨tok, -, hr⟩ := Option.bind_eq_some_iff.mp hr
  obtain ⟨⟨accessEnc, refreshEnc⟩, henc, hr⟩ := Option.bind_eq_some_iff.mp hr
  obtain rfl := Option.some.inj hr
  constructor
  · rw [hrefresh]
    rfl
  · cases h : E.encryptTokens tok with
    | error e =>
        rw [h] at henc
        contradiction
    | ok enc =>
        rw [h] at henc
        obtain rfl := Option.some.inj henc
        apply isSome_of_encryptTokens h

/-- What is stored of the tokens of an identity after they were renewed. -/
theorem find_renew (h : s.InStep ident) (r : Renewal) :
  ∃ row, (s.renew ident r).identities.find ident.id = some row ∧ row.accessTokenEnc = r.accessEnc ∧
    row.refreshTokenEnc = (r.refreshEnc <|> ident.refreshTokenEnc)
  := by
  obtain ⟨row, hrow, -, hrefresh⟩ := h
  have hid : row.id = ident.id := Table.key_of_find hrow
  rw [Store.renew, Store.updateIdentityTokens]
  dsimp only
  rw [Serial.find_update, hrow, Option.map_some, if_pos (decide_eq_true hid), ← hrefresh]
  exact ⟨_, rfl, rfl, rfl⟩

/-- A call leaves memory and tables in step exactly if it settles. -/
theorem inStep_callWithToken_iff (E : Refreshing) (fn : Fn σ) (x : σ) (h : s.InStep ident) :
  (callWithToken E fn s ident x).store.InStep (callWithToken E fn s ident x).ident ↔
    Settled E fn ident x
  := by
  have hcalls := calls_callWithToken E fn s ident x
  generalize callWithToken E fn s ident x = c at hcalls ⊢
  cases hcalls with
  | quiet hr ht =>
      apply iff_of_true h
      intro r hr'
      rw [hr] at hr'
      contradiction
  | failed hr ht hf =>
      apply iff_of_true h
      intro r _
      rw [hf]
      trivial
  | @lost y r token e e' hr ht hf =>
      obtain ⟨row, hrow, haccess, hrefresh⟩ := find_renew h r
      have hsettled : Settled E fn ident x ↔ r.accessEnc = ident.accessTokenEnc ∧
          (r.refreshEnc <|> ident.refreshTokenEnc) = ident.refreshTokenEnc := by
        rw [Settled, hr, hf]
        simp
      rw [hsettled, ← haccess, ← hrefresh]
      constructor
      · rintro ⟨row', hrow', h'⟩
        obtain rfl := Option.some.inj (hrow.symm.trans hrow')
        apply h'
      · exact fun h' => ⟨row, hrow, h'⟩
  | @renewed y r token err hr ht hu hf =>
      obtain ⟨row, hrow, haccess, hrefresh⟩ := find_renew h r
      obtain ⟨hsome, hiff⟩ := refreshEnc_of_renewal hr
      have hsettled : Settled E fn ident x ↔ r.refreshEnc.isSome := by
        rw [Settled, hr, hf, hiff]
        simp
      rw [hsettled]
      constructor
      · rintro ⟨row', hrow', -, h'⟩
        obtain rfl := Option.some.inj (hrow.symm.trans hrow')
        rw [hrefresh] at h'
        change _ = r.refreshEnc at h'
        cases hn : r.refreshEnc with
        | some _ => rfl
        | none =>
            rw [hn] at h'
            rw [show ident.refreshTokenEnc = none from h'] at hsome
            contradiction
      · intro hn
        obtain ⟨refreshEnc, hn⟩ := Option.isSome_iff_exists.mp hn
        refine ⟨row, hrow, haccess, ?_⟩
        rw [hrefresh]
        change _ = r.refreshEnc
        rw [hn]
        rfl

end

/-! ### Calls with the same identity -/

/-- A call, with the tables, the identity in memory and the world before it. -/
structure Step (σ : Type) where
  store : Store
  ident : Identity
  world : σ
  env : Refreshing
  fn : Fn σ

/-- How the call of a step ends. -/
def Step.called {σ : Type} (p : Step σ) : Called σ :=
  callWithToken p.env p.fn p.store p.ident p.world

/-- The calls of a sequence, in which the identity stays in memory. -/
def steps {σ : Type} (s : Store) (ident : Identity) (x : σ) :
    List (Refreshing × Fn σ) → List (Step σ)
  | [] => []
  | (E, fn) :: calls =>
      let p : Step σ := ⟨s, ident, x, E, fn⟩
      p :: steps p.called.store p.called.ident p.called.world calls

/-- **Memory and tables are in step after each call exactly if each call settles**: in a sequence of
calls with an identity that was read from the tables, each calls `fn` at most twice, the second time
with a token that was stored, and memory and tables are in step whenever a call ends exactly if in
none of them new tokens are stored of which the provider gave no refresh token, or whose storing
is not answered. -/
theorem inStep_iff_settled {σ : Type} (s : Store) (ident : Identity) (x : σ) (h : s.InStep ident)
    (calls : List (Refreshing × Fn σ)) :
  (∀ p ∈ steps s ident x calls, Disciplined p.env p.fn p.store p.ident p.world p.called) ∧
    ((∀ p ∈ steps s ident x calls, p.called.store.InStep p.called.ident) ↔
      ∀ p ∈ steps s ident x calls, Settled p.env p.fn p.ident p.world)
  := by
  constructor
  · intro p _
    apply disciplined_callWithToken
  · induction calls generalizing s ident x with
    | nil => simp [steps]
    | cons call calls ih =>
        obtain ⟨E, fn⟩ := call
        rw [steps, List.forall_mem_cons, List.forall_mem_cons]
        have hhead := inStep_callWithToken_iff E fn x h
        constructor
        · rintro ⟨hin, hrest⟩
          exact ⟨hhead.mp hin, (ih _ _ _ hin).mp hrest⟩
        · rintro ⟨hsettled, hrest⟩
          have hin := hhead.mpr hsettled
          exact ⟨hin, (ih _ _ _ hin).mpr hrest⟩

/-- An identity of GitLab. -/
def sampleIdentity : Identity where
  id := 1
  userId := 1
  provider := "gitlab"
  providerUserId := "7"
  username := "dev"
  accessTokenEnc := "old"
  refreshTokenEnc := some "r"
  tokenExpiresAt := none

/-- The tables with one user and one identity. -/
def sampleStore : Store :=
  ((Store.empty.createUser "dev").insertIdentity 1 "gitlab" "7" "dev" "old" (some "r")
    none).getD .empty

theorem inStep_sampleStore :
  sampleStore.InStep sampleIdentity
  := by
  use sampleIdentity
  decide

/-- The provider gives new tokens, with the refresh token `refreshToken`. -/
def sampleRefreshing (refreshToken : String) : Refreshing where
  exchange := fun _ _ _ => .error ""
  userInfo := fun _ _ => .error ""
  encrypt := .ok
  randomToken := .error ""
  now := 0
  fault := fun _ => none
  refusal := fun _ => ""
  decrypt := .ok
  refresh := fun _ _ => .ok ⟨"new", refreshToken, none⟩

/-- A call for which only the new token is taken. -/
def sampleFn : Fn Unit :=
  fun token x => (x, if token = "new" then none else some { text := "401", unauthorized := true })

/-- A call with the identity, where the provider gives the refresh token `refreshToken`. -/
def sampleStep (refreshToken : String) : Step Unit :=
  ⟨sampleStore, sampleIdentity, (), sampleRefreshing refreshToken, sampleFn⟩

/-- Where the provider gives a new refresh token, memory and tables are in step after the call. -/
theorem inStep_iff_settled_sample :
  (sampleStep "r2").called.store.InStep (sampleStep "r2").called.ident ∧
    (sampleStep "r2").called.tokens = ["old", "new"]
  := by
  have hsteps := (inStep_iff_settled sampleStore sampleIdentity () inStep_sampleStore
    [(sampleRefreshing "r2", sampleFn)]).2
  constructor
  · apply hsteps.mpr _ (sampleStep "r2") (List.mem_singleton_self _)
    intro p hp r hr
    obtain rfl := List.mem_singleton.mp hp
    obtain rfl := Option.some.inj hr
    change "r2" ≠ ""
    decide
  · rfl

/-- Where the provider gives no new refresh token, the identity in memory has none. -/
theorem not_inStep_kept :
  ¬ ∀ (s : Store) (ident : Identity) (calls : List (Refreshing × Fn Unit)), s.InStep ident →
    ∀ p ∈ steps s ident () calls, p.called.store.InStep p.called.ident
  := by
  intro h
  obtain ⟨row, hrow, -, hrefresh⟩ := h sampleStore sampleIdentity
    [(sampleRefreshing "", sampleFn)] inStep_sampleStore _ (List.mem_singleton_self _)
  have hstored : row.refreshTokenEnc = some "r" := by
    have hfind : (sampleStep "").called.store.identities.find 1 =
        some { sampleIdentity with accessTokenEnc := "new" } := by decide
    rw [← Option.some.inj (hfind.symm.trans hrow)]
    rfl
  rw [hstored] at hrefresh
  contradiction

end Hub.Auth
