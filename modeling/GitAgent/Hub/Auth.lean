import GitAgent.Library.Table
import GitAgent.Hub.Event

/-!
# Logging in

The callback of a provider (`app/auth.go`, `HandleCallback`) finds the identity of the provider's
user, or inserts it, for a new user unless there is a session, and then begins a session. Its
statements are not a transaction: each may fail, before or after it was done, and what was done
before it stays.
-/

namespace Hub.Auth

/-! ### Rows -/

/-- A row of `hub.users`. -/
structure User where
  id : UserId
  displayName : String
  deriving DecidableEq, Repr

/-- A row of `hub.identities`. -/
structure Identity where
  id : ℕ
  userId : UserId
  provider : String
  providerUserId : String
  username : String
  accessTokenEnc : String
  refreshTokenEnc : Option String
  tokenExpiresAt : Option ℕ
  deriving DecidableEq, Repr

/-- What a refresh of the tokens leaves. -/
def Identity.fixed (i : Identity) : ℕ × UserId × String × String :=
  (i.id, i.userId, i.provider, i.providerUserId)

/-- A row of `hub.sessions`. -/
structure Session where
  token : String
  userId : UserId
  expiresAt : ℕ
  deriving DecidableEq, Repr

/-- Two identities are of different users of the providers. -/
def Identity.Apart (i j : Identity) : Prop :=
  (i.provider, i.providerUserId) ≠ (j.provider, j.providerUserId)

/-- The tables, with the constraint `UNIQUE (provider, provider_user_id)` and the references to
users. -/
structure Store where
  users : Serial User User.id
  identities : Serial Identity Identity.id
  sessions : Table Session Session.token
  apart : identities.rows.Pairwise Identity.Apart
  owned : ∀ i ∈ identities.rows, (users.find i.userId).isSome
  opened : ∀ x ∈ sessions.rows, (users.find x.userId).isSome

/-! ### Statements -/

namespace Store

variable (s : Store)

/-- The tables without rows. -/
def empty : Store where
  users := Serial.empty
  identities := Serial.empty
  sessions := Table.empty
  apart := List.Pairwise.nil
  owned := by
    intro _ h
    contradiction
  opened := by
    intro _ h
    contradiction

theorem isSome_find_insert {s : Store} (mk : ℕ → User) (h : ∀ n, (mk n).id = n) {id : UserId}
    (hs : (s.users.find id).isSome) :
  ((s.users.insert mk h).find id).isSome
  := by
  rw [Serial.find_insert]
  split
  · rfl
  · apply hs

/-- `CreateUser`. -/
def createUser (displayName : String) : Store :=
  { s with
    users := s.users.insert (fun id => { id, displayName }) fun _ => rfl
    owned := fun i hi => isSome_find_insert _ _ (s.owned i hi)
    opened := fun x hx => isSome_find_insert _ _ (s.opened x hx) }

/-- `FindIdentityByProviderUser`. -/
def findIdentityByProviderUser (provider providerUserId : String) : Option Identity :=
  s.identities.rows.find? fun i => i.provider = provider ∧ i.providerUserId = providerUserId

/-- `InsertIdentity`, with the `CHECK` of the provider, the reference to the user, and the identity
not yet there. -/
def insertIdentity (userId : UserId) (provider providerUserId username accessTokenEnc : String)
    (refreshTokenEnc : Option String) (tokenExpiresAt : Option ℕ) : Option Store :=
  if h : (provider = "github" ∨ provider = "gitlab") ∧ (s.users.find userId).isSome ∧
      s.findIdentityByProviderUser provider providerUserId = none then
    some { s with
      identities := s.identities.insert
        (fun id => {
          id, userId, provider, providerUserId, username, accessTokenEnc, refreshTokenEnc,
          tokenExpiresAt })
        fun _ => rfl
      apart := by
        rw [Serial.rows_insert, List.pairwise_append]
        refine ⟨s.apart, List.pairwise_singleton .., ?_⟩
        intro i hi j hj
        rw [List.mem_singleton.mp hj]
        intro heq
        apply absurd (List.find?_eq_none.mp h.2.2 i hi)
        simpa using heq
      owned := by
        intro i hi
        rcases List.mem_append.mp hi with hi | hi
        · apply s.owned i hi
        · rw [List.mem_singleton.mp hi]
          apply h.2.1 }
  else none

/-- `UpdateIdentityTokens`. -/
def updateIdentityTokens (id : ℕ) (username accessTokenEnc : String)
    (refreshTokenEnc : Option String) (tokenExpiresAt : Option ℕ) : Store :=
  { s with
    identities := s.identities.update (fun i => i.id = id)
      (fun i => { i with
        username, accessTokenEnc, tokenExpiresAt
        refreshTokenEnc := refreshTokenEnc <|> i.refreshTokenEnc })
      fun _ => rfl
    apart := by
      apply List.Pairwise.map _ _ s.apart
      intro i j hij
      split <;> split <;> apply hij
    owned := by
      intro i hi
      obtain ⟨i₀, hi₀, rfl⟩ := List.mem_map.mp hi
      split <;> apply s.owned i₀ hi₀ }

/-- `CreateSession`, with its primary key and the reference to the user. -/
def createSession (token : String) (userId : UserId) (expiresAt : ℕ) : Option Store :=
  if h : s.sessions.find token = none ∧ (s.users.find userId).isSome then
    some { s with
      sessions := s.sessions.insert { token, userId, expiresAt } h.1
      opened := by
        intro x hx
        rcases List.mem_append.mp hx with hx | hx
        · apply s.opened x hx
        · rw [List.mem_singleton.mp hx]
          apply h.2 }
  else none

end Store

/-! ### The callback -/

/-- `OAuthToken`. -/
structure OAuthToken where
  accessToken : String
  refreshToken : String
  expiresAt : Option ℕ
  deriving DecidableEq, Repr

/-- An error, and whether it wraps `ErrConflict`. -/
structure Error where
  text : String
  conflict : Bool := false
  deriving DecidableEq, Repr

/-- The statements of a callback. -/
inductive Statement
  | find
  | update
  | createUser
  | insertIdentity
  | createSession
  deriving DecidableEq, Repr

/-- What happens during a callback: the answers of the provider, the secrets and the tokens that are
drawn, the time, and the statements that fail, with their text and whether they were done all the
same. -/
structure Environment where
  exchange : String → String → String → Except String OAuthToken
  userInfo : String → String → Except String (String × String)
  encrypt : String → Except String String
  randomToken : Except String String
  now : ℕ
  fault : Statement → Option (Bool × String)
  refusal : Statement → String

/-- `SessionTTL`, in seconds. -/
def sessionTTL : ℕ :=
  30 * 24 * 3600

/-- The arguments of `HandleCallback`. -/
structure Callback where
  provider : String
  code : String
  redirectURI : String
  currentUser : Option UserId := none
  deriving DecidableEq, Repr

/-- The user of the provider, with the secrets that are stored. -/
structure Profile where
  providerUserId : String
  username : String
  accessEnc : String
  refreshEnc : Option String
  expiresAt : Option ℕ
  deriving DecidableEq, Repr

namespace Environment

variable (E : Environment)

/-- `encryptTokens`. -/
def encryptTokens (tok : OAuthToken) : Except String (String × Option String) := do
  let accessEnc ← E.encrypt tok.accessToken
  if tok.refreshToken = "" then
    return (accessEnc, none)
  else
    let refreshEnc ← E.encrypt tok.refreshToken
    return (accessEnc, some refreshEnc)

/-- What `HandleCallback` asks the provider for before it reads the tables. -/
def profile (c : Callback) : Except Error Profile :=
  match E.exchange c.provider c.code c.redirectURI with
  | .error e => .error ⟨"exchange code: " ++ e, false⟩
  | .ok tok =>
      match E.userInfo c.provider tok.accessToken with
      | .error e => .error ⟨"userinfo: " ++ e, false⟩
      | .ok (providerUserId, username) =>
          match E.encryptTokens tok with
          | .error e => .error ⟨e, false⟩
          | .ok (accessEnc, refreshEnc) =>
              .ok { providerUserId, username, accessEnc, refreshEnc, expiresAt := tok.expiresAt }

/-- A statement that the tables accept with the result `next`, or refuse. -/
def attempt {α : Type} (st : Statement) (s : Store) (next : Option (Store × α)) :
    Store × Except Error α :=
  match next, E.fault st with
  | some (s', a), none => (s', .ok a)
  | some (s', _), some (true, e) => (s', .error ⟨e, false⟩)
  | _, some (_, e) => (s, .error ⟨e, false⟩)
  | none, none => (s, .error ⟨E.refusal st, false⟩)

/-- Going on where a step gave a result. -/
def andThen {α β : Type} (r : Store × Except Error α) (f : Store → α → Store × Except Error β) :
    Store × Except Error β :=
  match r with
  | (s, .error e) => (s, .error e)
  | (s, .ok a) => f s a

/-- `insertIdentity`. -/
def insertIdentity (c : Callback) (p : Profile) (s : Store) (userId : UserId) :
    Store × Except Error UserId :=
  E.attempt .insertIdentity s ((s.insertIdentity userId c.provider p.providerUserId p.username
    p.accessEnc p.refreshEnc p.expiresAt).map fun s' => (s', userId))

/-- The user for whom the session begins, by whether there is a session and an identity. -/
def resolve (c : Callback) (p : Profile) (s : Store) :
    Option Identity → Option UserId → Store × Except Error UserId
  | some existing, currentUser =>
      if currentUser.any (· ≠ existing.userId) then
        (s, .error ⟨"identity belongs to another user: conflict", true⟩)
      else
        E.attempt .update s (some (s.updateIdentityTokens existing.id p.username p.accessEnc
          p.refreshEnc p.expiresAt, existing.userId))
  | none, some currentUser => E.insertIdentity c p s currentUser
  | none, none =>
      andThen (E.attempt .createUser s (some (s.createUser p.username, s.users.next)))
        (E.insertIdentity c p)

/-- A session begins. -/
def startSession (s : Store) (userId : UserId) : Store × Except Error (String × ℕ) :=
  match E.randomToken with
  | .error e => (s, .error ⟨e, false⟩)
  | .ok session =>
      let expires := E.now + sessionTTL
      E.attempt .createSession s
        ((s.createSession session userId expires).map fun s' => (s', session, expires))

/-- `HandleCallback`: the token and the end of the session, or an error. -/
def handleCallback (c : Callback) (s : Store) : Store × Except Error (String × ℕ) :=
  match E.profile c with
  | .error e => (s, .error e)
  | .ok p =>
      match E.fault .find with
      | some (_, e) => (s, .error ⟨e, false⟩)
      | none =>
          andThen (E.resolve c p s (s.findIdentityByProviderUser c.provider p.providerUserId)
            c.currentUser) E.startSession

end Environment

/-! ### Sequences of callbacks -/

/-- A callback, with what happens during it. -/
abbrev Call := Callback × Environment

/-- The tables after a callback, and its result. -/
def handle (s : Store) (call : Call) : Store × Except Error (String × ℕ) :=
  call.2.handleCallback call.1 s

/-- The tables after a sequence of callbacks. -/
def run (s : Store) (calls : List Call) : Store :=
  calls.foldl (fun s call => (handle s call).1) s

/-- The callbacks of a sequence, each with the tables before it. -/
def states (s : Store) : List Call → List (Store × Call)
  | [] => []
  | call :: calls => (s, call) :: states (handle s call).1 calls

/-! ### What is shown -/

/-- The users, the identities and the sessions are the same, but for the tokens and the names of
identities. -/
structure Store.Same (s s' : Store) : Prop where
  users : s'.users.rows = s.users.rows
  identities : s'.identities.rows.map Identity.fixed = s.identities.rows.map Identity.fixed
  sessions : s'.sessions.rows = s.sessions.rows

/-- A callback that fails leaves nothing behind. -/
def LeavesNothing (s : Store) (call : Call) : Prop :=
  ∀ e, (handle s call).2 = .error e → s.Same (handle s call).1

/-- A session that a callback begins is of the user who owns the identity of the callback. -/
def IssuesToOwner (s : Store) (call : Call) : Prop :=
  ∀ x ∈ (handle s call).1.sessions.rows, x ∉ s.sessions.rows →
    ∃ p, call.2.profile call.1 = .ok p ∧ ∃ i ∈ (handle s call).1.identities.rows,
      i.provider = call.1.provider ∧ i.providerUserId = p.providerUserId ∧ i.userId = x.userId

/-- Identities stay, each of the same user. -/
def Store.Keeps (s s' : Store) : Prop :=
  s.identities.rows.map Identity.fixed <+: s'.identities.rows.map Identity.fixed

/-! ### The condition -/

namespace Environment

variable (E : Environment)

/-- The statement, if it is accepted, is done. -/
def Done (st : Statement) : Prop :=
  ∀ e, E.fault st ≠ some (false, e)

/-- The token of a session is drawn, and is not in use. -/
def Drawn (s : Store) : Prop :=
  ∃ session, E.randomToken = .ok session ∧ s.sessions.find session = none

/-- A session begins for a user who is there. -/
def Begins (s : Store) : Prop :=
  E.Drawn s ∧ E.fault .createSession = none

/-- The provider is one that an identity may have. -/
def Known (provider : String) : Prop :=
  provider = "github" ∨ provider = "gitlab"

/-- Nothing fails once the first row was inserted: a session, if the identity is there, or the
identity, if the user is, or else the user. -/
def SettlesWith (c : Callback) (s : Store) : Option Identity → Option UserId → Prop
  | some i, currentUser =>
      (∀ u ∈ currentUser, u = i.userId) → E.fault .update = none →
        E.Drawn s → E.Done .createSession → E.fault .createSession = none
  | none, some u =>
      Known c.provider → (s.users.find u).isSome → E.Done .insertIdentity →
        E.fault .insertIdentity = none ∧ E.Begins s
  | none, none =>
      E.Done .createUser → E.fault .createUser = none ∧ Known c.provider ∧
        E.fault .insertIdentity = none ∧ E.Begins s

/-- Once a callback has inserted a row, nothing in it fails: neither the statement that inserts the
first row, nor what comes after it. -/
def Settles (c : Callback) (s : Store) : Prop :=
  ∀ p, E.profile c = .ok p → E.fault .find = none →
    E.SettlesWith c s (s.findIdentityByProviderUser c.provider p.providerUserId) c.currentUser

end Environment

/-! ### What the statements do -/

namespace Store

variable {s s' : Store}

/-- The number of rows. -/
def size (s : Store) : ℕ :=
  s.users.rows.length + s.identities.rows.length + s.sessions.rows.length

theorem Same.refl (s : Store) :
  s.Same s
  := ⟨rfl, rfl, rfl⟩

theorem Same.trans {s'' : Store} (h : s.Same s') (h' : s'.Same s'') :
  s.Same s''
  := ⟨h'.users.trans h.users, h'.identities.trans h.identities, h'.sessions.trans h.sessions⟩

theorem Same.size (h : s.Same s') :
  s'.size = s.size
  := by
  have hi := congrArg List.length h.identities
  rw [List.length_map, List.length_map] at hi
  rw [Store.size, Store.size, h.users, h.sessions, hi]

theorem Keeps.refl (s : Store) :
  s.Keeps s
  := List.prefix_rfl

theorem Keeps.trans {s'' : Store} (h : s.Keeps s') (h' : s'.Keeps s'') :
  s.Keeps s''
  := List.IsPrefix.trans h h'

theorem size_createUser (s : Store) (displayName : String) :
  (s.createUser displayName).size = s.size + 1
  := by
  rw [size, size, createUser]
  dsimp only
  rw [Serial.rows_insert, List.length_append, List.length_singleton]
  omega

theorem find_createUser (s : Store) (displayName : String) :
  ((s.createUser displayName).users.find s.users.next).isSome
  := by
  rw [createUser]
  dsimp only
  rw [Serial.find_insert, if_pos rfl]
  rfl

theorem same_updateIdentityTokens (s : Store) (id : ℕ) (username accessTokenEnc : String)
    (refreshTokenEnc : Option String) (tokenExpiresAt : Option ℕ) :
  s.Same (s.updateIdentityTokens id username accessTokenEnc refreshTokenEnc tokenExpiresAt)
  := by
  refine ⟨rfl, ?_, rfl⟩
  rw [updateIdentityTokens]
  dsimp only [Serial.update, Table.update]
  rw [List.map_map]
  apply List.map_congr_left
  intro i _
  rw [Function.comp_apply]
  split <;> rfl

theorem Same.keeps (h : s.Same s') :
  s.Keeps s'
  := ⟨[], by rw [List.append_nil, h.identities]⟩

variable {userId : UserId} {provider providerUserId username accessTokenEnc : String}
  {refreshTokenEnc : Option String} {tokenExpiresAt : Option ℕ}

/-- What inserting an identity does. -/
theorem insertIdentity_eq_some
    (h : s.insertIdentity userId provider providerUserId username accessTokenEnc refreshTokenEnc
      tokenExpiresAt = some s') :
  s'.users = s.users ∧ s'.sessions = s.sessions ∧
    s'.identities.rows = s.identities.rows ++ [{
      id := s.identities.next, userId, provider, providerUserId, username, accessTokenEnc,
      refreshTokenEnc, tokenExpiresAt }]
  := by
  rw [insertIdentity] at h
  split at h
  · obtain rfl := Option.some.inj h
    exact ⟨rfl, rfl, rfl⟩
  · contradiction

theorem isSome_insertIdentity
    (h : s.findIdentityByProviderUser provider providerUserId = none) :
  (s.insertIdentity userId provider providerUserId username accessTokenEnc refreshTokenEnc
    tokenExpiresAt).isSome ↔
      (provider = "github" ∨ provider = "gitlab") ∧ (s.users.find userId).isSome
  := by
  rw [insertIdentity]
  split
  · rename_i hc
    exact ⟨fun _ => ⟨hc.1, hc.2.1⟩, fun _ => rfl⟩
  · rename_i hc
    constructor
    · intro hn
      contradiction
    · intro hc'
      apply absurd ⟨hc'.1, hc'.2, h⟩ hc

/-- What beginning a session does. -/
theorem createSession_eq_some {token : String} {expiresAt : ℕ}
    (h : s.createSession token userId expiresAt = some s') :
  s'.users = s.users ∧ s'.identities = s.identities ∧
    s'.sessions.rows = s.sessions.rows ++ [⟨token, userId, expiresAt⟩]
  := by
  rw [createSession] at h
  split at h
  · obtain rfl := Option.some.inj h
    exact ⟨rfl, rfl, rfl⟩
  · contradiction

theorem isSome_createSession {token : String} {expiresAt : ℕ} (h : (s.users.find userId).isSome) :
  (s.createSession token userId expiresAt).isSome ↔ s.sessions.find token = none
  := by
  rw [createSession]
  split
  · rename_i hc
    exact ⟨fun _ => hc.1, fun _ => rfl⟩
  · rename_i hc
    constructor
    · intro hn
      contradiction
    · intro hn
      apply absurd ⟨hn, h⟩ hc

end Store

namespace Environment

variable {E : Environment} {c : Callback} {p : Profile} {s s' : Store}

/-- A statement is done and answered, or done and not answered, or not done. -/
theorem attempt_cases {α : Type} {P : Store × Except Error α → Prop} {st : Statement} {s : Store}
    {next : Option (Store × α)}
    (answered : ∀ s' a, next = some (s', a) → E.fault st = none → P (s', .ok a))
    (unanswered : ∀ s' a e, next = some (s', a) → E.fault st = some (true, e) →
      P (s', .error ⟨e, false⟩))
    (failed : ∀ e, (next.isSome → ¬ E.Done st) → P (s, .error e)) :
  P (E.attempt st s next)
  := by
  cases next with
  | none =>
      rw [attempt.eq_def]
      cases E.fault st <;> apply failed <;> simp
  | some next =>
      obtain ⟨s', a⟩ := next
      rw [attempt.eq_def]
      cases hf : E.fault st with
      | none => apply answered s' a rfl hf
      | some fault =>
          obtain ⟨effect, e⟩ := fault
          cases effect with
          | true => apply unanswered s' a e rfl hf
          | false => apply failed _ fun _ hdone => hdone e hf

/-- The identity of the callback is of the user. -/
def Owned (c : Callback) (p : Profile) (s : Store) (userId : UserId) : Prop :=
  ∃ i ∈ s.identities.rows, i.provider = c.provider ∧ i.providerUserId = p.providerUserId ∧
    i.userId = userId

/-- The user is found: identities stay, sessions are as before, and the user owns the identity of
the callback. -/
structure Resolves (c : Callback) (p : Profile) (s : Store) (r : Store × Except Error UserId) :
    Prop where
  keeps : s.Keeps r.1
  sessions : r.1.sessions = s.sessions
  owner : ∀ userId, r.2 = .ok userId → Owned c p r.1 userId

theorem resolves_error (h : s.Keeps s') (hs : s'.sessions = s.sessions) (e : Error) :
  Resolves c p s (s', .error e)
  := by
  refine ⟨h, hs, ?_⟩
  intro userId h
  contradiction

theorem resolves_insertIdentity (E : Environment) (c : Callback) (p : Profile) (s : Store)
    (userId : UserId) :
  Resolves c p s (E.insertIdentity c p s userId)
  := by
  have hkeeps : ∀ {s' : Store} {a : UserId}, (s.insertIdentity userId c.provider p.providerUserId
      p.username p.accessEnc p.refreshEnc p.expiresAt).map (fun s' => (s', userId)) = some (s', a) →
      s.Keeps s' ∧ s'.sessions = s.sessions ∧ a = userId ∧ Owned c p s' userId := by
    intro s' a h
    obtain ⟨s₁, hs₁, heq⟩ := Option.map_eq_some_iff.mp h
    obtain ⟨rfl, rfl⟩ := Prod.mk.inj heq
    obtain ⟨-, hsessions, hrows⟩ := Store.insertIdentity_eq_some hs₁
    refine ⟨?_, hsessions, rfl, ?_⟩
    · rw [Store.Keeps, hrows, List.map_append]
      apply List.prefix_append
    · rw [Owned, hrows]
      exact ⟨_, List.mem_append_right _ (List.mem_singleton_self _), rfl, rfl, rfl⟩
  apply attempt_cases (P := Resolves c p s)
  · intro s' a h _
    obtain ⟨hk, hs, rfl, ho⟩ := hkeeps h
    refine ⟨hk, hs, ?_⟩
    rintro _ ⟨⟩
    apply ho
  · intro s' a e h _
    obtain ⟨hk, hs, -⟩ := hkeeps h
    apply resolves_error hk hs
  · intro e _
    apply resolves_error (Store.Keeps.refl s) rfl

/-- The identity that is found, after its tokens were refreshed. -/
theorem owned_of_same (h : s.Same s') {i : Identity}
    (hi : s.findIdentityByProviderUser c.provider p.providerUserId = some i) :
  Owned c p s' i.userId
  := by
  rw [Store.findIdentityByProviderUser] at hi
  have hfound : i.provider = c.provider ∧ i.providerUserId = p.providerUserId := by
    simpa using List.find?_some hi
  have hmem : i.fixed ∈ s'.identities.rows.map Identity.fixed := by
    rw [h.identities]
    apply List.mem_map_of_mem (List.mem_of_find?_eq_some hi)
  obtain ⟨j, hj, heq⟩ := List.mem_map.mp hmem
  obtain ⟨-, huser, hprovider, hid⟩ : j.id = i.id ∧ j.userId = i.userId ∧
      j.provider = i.provider ∧ j.providerUserId = i.providerUserId := by
    simpa [Identity.fixed] using heq
  exact ⟨j, hj, hprovider.trans hfound.1, hid.trans hfound.2, huser⟩

theorem resolves_resolve (E : Environment) (c : Callback) (p : Profile) (s : Store) :
  Resolves c p s (E.resolve c p s (s.findIdentityByProviderUser c.provider p.providerUserId)
    c.currentUser)
  := by
  cases hi : s.findIdentityByProviderUser c.provider p.providerUserId with
  | some i =>
      rw [resolve]
      split
      · apply resolves_error (Store.Keeps.refl s) rfl
      · have hsame := s.same_updateIdentityTokens i.id p.username p.accessEnc p.refreshEnc p.expiresAt
        apply attempt_cases (P := Resolves c p s)
        · intro s' a h _
          obtain ⟨rfl, rfl⟩ := Prod.mk.inj (Option.some.inj h)
          refine ⟨hsame.keeps, rfl, ?_⟩
          rintro _ ⟨⟩
          apply owned_of_same hsame hi
        · intro s' a e h _
          obtain ⟨rfl, rfl⟩ := Prod.mk.inj (Option.some.inj h)
          apply resolves_error hsame.keeps rfl
        · intro e _
          apply resolves_error (Store.Keeps.refl s) rfl
  | none =>
      cases c.currentUser with
      | some u => apply resolves_insertIdentity
      | none =>
          rw [resolve]
          apply attempt_cases (P := fun r => Resolves c p s (andThen r (E.insertIdentity c p)))
          · intro s' a h _
            obtain ⟨rfl, rfl⟩ := Prod.mk.inj (Option.some.inj h)
            obtain ⟨hk, hs, ho⟩ :=
              resolves_insertIdentity E c p (s.createUser p.username) s.users.next
            exact ⟨hk, hs, ho⟩
          · intro s' a e h _
            obtain ⟨rfl, rfl⟩ := Prod.mk.inj (Option.some.inj h)
            have hk : s.Keeps (s.createUser p.username) := Store.Keeps.refl s
            apply resolves_error hk rfl
          · intro e _
            apply resolves_error (Store.Keeps.refl s) rfl

/-- A session begins for the user, or none does. -/
def Opens (s : Store) (userId : UserId) (s' : Store) : Prop :=
  s'.identities = s.identities ∧ (s' = s ∨ s'.users = s.users ∧ ∃ token expiresAt,
    s'.sessions.rows = s.sessions.rows ++ [⟨token, userId, expiresAt⟩])

theorem opens_createSession {userId : UserId} {token : String} {expiresAt : ℕ} {a : String × ℕ}
    (h : (s.createSession token userId expiresAt).map (fun s' => (s', token, expiresAt)) =
      some (s', a)) :
  Opens s userId s'
  := by
  obtain ⟨s₁, hs₁, heq⟩ := Option.map_eq_some_iff.mp h
  obtain ⟨rfl, rfl⟩ := Prod.mk.inj heq
  obtain ⟨hu, hi, hs⟩ := Store.createSession_eq_some hs₁
  exact ⟨hi, .inr ⟨hu, _, _, hs⟩⟩

theorem opens_startSession (E : Environment) (s : Store) (userId : UserId) :
  Opens s userId (E.startSession s userId).1
  := by
  rw [startSession]
  split
  · exact ⟨rfl, .inl rfl⟩
  · apply attempt_cases (P := fun r => Opens s userId r.1)
    · exact fun s' a h _ => opens_createSession h
    · exact fun s' a e h _ => opens_createSession h
    · exact fun e _ => ⟨rfl, .inl rfl⟩

end Environment

/-! ### One callback -/

/-- What a callback that has read the tables does. -/
theorem handle_cases (s : Store) (call : Call) :
  (∀ p, call.2.profile call.1 = .ok p → call.2.fault .find ≠ none) ∧
      (∃ e, handle s call = (s, .error e)) ∨
    ∃ p, call.2.profile call.1 = .ok p ∧
    call.2.fault .find = none ∧ handle s call =
      Environment.andThen (call.2.resolve call.1 p s
        (s.findIdentityByProviderUser call.1.provider p.providerUserId) call.1.currentUser)
        call.2.startSession
  := by
  rw [handle, Environment.handleCallback]
  split
  · rename_i hp
    refine .inl ⟨?_, _, rfl⟩
    intro p hp'
    rw [hp] at hp'
    contradiction
  · rename_i p hp
    split
    · rename_i hf
      refine .inl ⟨?_, _, rfl⟩
      intro _ _
      rw [hf]
      apply Option.some_ne_none
    · rename_i hf
      exact .inr ⟨p, hp, hf, rfl⟩

theorem keeps_handle (s : Store) (call : Call) :
  s.Keeps (handle s call).1
  := by
  rcases handle_cases s call with ⟨-, e, h⟩ | ⟨p, hp, hf, h⟩
  · rw [h]
    apply Store.Keeps.refl
  · rw [h]
    have hr := Environment.resolves_resolve call.2 call.1 p s
    rw [Environment.andThen.eq_def]
    split
    · rename_i s₁ e heq
      rw [heq] at hr
      apply hr.keeps
    · rename_i s₁ userId heq
      rw [heq] at hr
      rw [Store.Keeps, (Environment.opens_startSession call.2 s₁ userId).1]
      apply hr.keeps

theorem issuesToOwner_handle (s : Store) (call : Call) :
  IssuesToOwner s call
  := by
  intro x hx hnew
  rcases handle_cases s call with ⟨-, e, h⟩ | ⟨p, hp, hf, h⟩
  · rw [h] at hx
    contradiction
  · refine ⟨p, hp, ?_⟩
    rw [h, Environment.andThen.eq_def] at hx ⊢
    have hr := Environment.resolves_resolve call.2 call.1 p s
    split at hx
    · rename_i s₁ e heq
      rw [heq] at hr
      have hs : s₁.sessions = s.sessions := hr.sessions
      rw [hs] at hx
      contradiction
    · rename_i s₁ userId heq
      rw [heq] at hr
      obtain ⟨hi, hs⟩ := Environment.opens_startSession call.2 s₁ userId
      have hsame : s₁.sessions = s.sessions := hr.sessions
      rw [hi]
      rcases hs with hs | ⟨-, token, expiresAt, hs⟩
      · rw [hs, hsame] at hx
        contradiction
      · rw [hs, hsame] at hx
        rcases List.mem_append.mp hx with hx | hx
        · contradiction
        · rw [List.mem_singleton.mp hx]
          apply hr.owner userId rfl

/-! ### What is left behind -/

namespace Environment

variable {E : Environment} {c : Callback} {p : Profile} {s : Store}

/-- How a session begins for a user who is there: it begins, or its row is not written, or the
answer is lost. -/
inductive Starts (E : Environment) (s : Store) : Store × Except Error (String × ℕ) → Prop
  | begun {s' : Store} {a : String × ℕ} (h : E.Begins s) : Starts E s (s', .ok a)
  | refused {e : Error} (h : E.Drawn s → ¬ E.Done .createSession) : Starts E s (s, .error e)
  | lost {s' : Store} {e : Error} (h : E.Drawn s) (hd : E.Done .createSession)
      (hf : E.fault .createSession ≠ none) (hs : s.size < s'.size) : Starts E s (s', .error e)

theorem done_of_fault {st : Statement} {e : String} (h : E.fault st = some (true, e)) :
  E.Done st
  := by
  intro e' he
  rw [h] at he
  simp at he

theorem starts_startSession (E : Environment) {s : Store} {userId : UserId}
    (hu : (s.users.find userId).isSome) :
  Starts E s (E.startSession s userId)
  := by
  rw [startSession]
  split
  · rename_i e he
    apply Starts.refused
    rintro ⟨session, hs, -⟩
    rw [he] at hs
    contradiction
  · rename_i session hs
    have hdrawn : ∀ {s' : Store} {a : String × ℕ},
        (s.createSession session userId (E.now + sessionTTL)).map
          (fun s' => (s', session, E.now + sessionTTL)) = some (s', a) →
        E.Drawn s ∧ s.size < s'.size := by
      intro s' a h
      obtain ⟨s₁, hs₁, heq⟩ := Option.map_eq_some_iff.mp h
      obtain ⟨rfl, rfl⟩ := Prod.mk.inj heq
      constructor
      · exact ⟨session, hs, (Store.isSome_createSession hu).mp (by rw [hs₁]; rfl)⟩
      · obtain ⟨husers, hi, hsessions⟩ := Store.createSession_eq_some hs₁
        rw [Store.size, Store.size, husers, hi, hsessions, List.length_append,
          List.length_singleton]
        omega
    apply attempt_cases (P := Starts E s)
    · intro s' a h hf
      apply Starts.begun ⟨(hdrawn h).1, hf⟩
    · intro s' a e h hf
      apply Starts.lost (hdrawn h).1 (done_of_fault hf) _ (hdrawn h).2
      rw [hf]
      apply Option.some_ne_none
    · intro e h
      apply Starts.refused
      rintro ⟨session', hs', hfind⟩
      obtain rfl := Except.ok.inj (hs.symm.trans hs')
      apply h
      rw [Option.isSome_map]
      apply (Store.isSome_createSession hu).mpr hfind

/-- How an identity is inserted that is not there: it is, or its row is not written, or the answer
is lost. -/
inductive Inserts (E : Environment) (c : Callback) (s : Store) (userId : UserId) :
    Store × Except Error UserId → Prop
  | inserted {s' : Store} (hc : Known c.provider) (hu : (s.users.find userId).isSome)
      (hf : E.fault .insertIdentity = none) (husers : s'.users = s.users)
      (hsessions : s'.sessions = s.sessions) (hs : s.size < s'.size) :
      Inserts E c s userId (s', .ok userId)
  | refused {e : Error}
      (h : Known c.provider → (s.users.find userId).isSome → ¬ E.Done .insertIdentity) :
      Inserts E c s userId (s, .error e)
  | lost {s' : Store} {e : Error} (hc : Known c.provider) (hu : (s.users.find userId).isSome)
      (hd : E.Done .insertIdentity) (hf : E.fault .insertIdentity ≠ none) (hs : s.size < s'.size) :
      Inserts E c s userId (s', .error e)

theorem inserts_insertIdentity (E : Environment) {c : Callback} {p : Profile} {s : Store}
    (userId : UserId) (hnone : s.findIdentityByProviderUser c.provider p.providerUserId = none) :
  Inserts E c s userId (E.insertIdentity c p s userId)
  := by
  have hdone : ∀ {s' : Store} {a : UserId}, (s.insertIdentity userId c.provider p.providerUserId
      p.username p.accessEnc p.refreshEnc p.expiresAt).map (fun s' => (s', userId)) = some (s', a) →
      a = userId ∧ (Known c.provider ∧ (s.users.find userId).isSome) ∧ s'.users = s.users ∧
        s'.sessions = s.sessions ∧ s.size < s'.size := by
    intro s' a h
    obtain ⟨s₁, hs₁, heq⟩ := Option.map_eq_some_iff.mp h
    obtain ⟨rfl, rfl⟩ := Prod.mk.inj heq
    obtain ⟨husers, hsessions, hrows⟩ := Store.insertIdentity_eq_some hs₁
    refine ⟨rfl, (Store.isSome_insertIdentity hnone).mp (by rw [hs₁]; rfl), husers, hsessions, ?_⟩
    rw [Store.size, Store.size, husers, hsessions, hrows, List.length_append, List.length_singleton]
    omega
  apply attempt_cases (P := Inserts E c s userId)
  · intro s' a h hf
    obtain ⟨rfl, ⟨hc, hu⟩, husers, hsessions, hs⟩ := hdone h
    apply Inserts.inserted hc hu hf husers hsessions hs
  · intro s' a e h hf
    obtain ⟨-, ⟨hc, hu⟩, -, -, hs⟩ := hdone h
    apply Inserts.lost hc hu (done_of_fault hf) _ hs
    rw [hf]
    apply Option.some_ne_none
  · intro e h
    apply Inserts.refused
    intro hc hu
    apply h
    rw [Option.isSome_map]
    apply (Store.isSome_insertIdentity hnone).mpr ⟨hc, hu⟩

theorem begins_congr {s₁ : Store} (h : s₁.sessions = s.sessions) :
  E.Begins s₁ ↔ E.Begins s
  := by rw [Begins, Begins, Drawn, Drawn, h]

theorem begins_createUser (displayName : String) :
  E.Begins (s.createUser displayName) ↔ E.Begins s
  := begins_congr rfl

/-- The tables are left as they were where the result is an error. -/
def Untouched {α : Type} (s : Store) (r : Store × Except Error α) : Prop :=
  ∀ e, r.2 = .error e → s.Same r.1

theorem untouched_ok {α : Type} {s₁ : Store} (a : α) :
  Untouched s (s₁, .ok a)
  := by
  intro _ he
  contradiction

theorem untouched_error_iff {α : Type} {s₁ : Store} {e : Error} :
  Untouched (α := α) s (s₁, .error e) ↔ s.Same s₁
  := ⟨fun h => h e rfl, fun h _ _ => h⟩

/-- An error after rows were inserted leaves them behind. -/
theorem not_untouched {α : Type} {s₁ : Store} {e : Error} (h : s.size < s₁.size) :
  ¬ Untouched (α := α) s (s₁, .error e)
  := by
  rw [untouched_error_iff]
  intro hsame
  apply absurd hsame.size h.ne'

/-- A statement that does not fail is done. -/
theorem done_of_none {st : Statement} (h : E.fault st = none) :
  E.Done st
  := by
  intro e he
  rw [h] at he
  contradiction

/-- A session begins after rows were inserted. -/
theorem untouched_startSession {s₁ : Store} {userId : UserId} (hs : s.size < s₁.size)
    (hu : (s₁.users.find userId).isSome) :
  Untouched s (E.startSession s₁ userId) ↔ E.Begins s₁
  := by
  have hstarts := starts_startSession E hu
  generalize E.startSession s₁ userId = r at hstarts ⊢
  cases hstarts with
  | begun h => exact iff_of_true (untouched_ok _) h
  | refused h =>
      apply iff_of_false (not_untouched hs)
      rintro ⟨hd, hf⟩
      apply h hd (done_of_none hf)
  | lost h hd hf hlt =>
      apply iff_of_false (not_untouched (hs.trans hlt))
      intro hb
      apply hf hb.2

/-- A session begins where no row was inserted. -/
theorem untouched_startSession_first {s₁ : Store} {userId : UserId} (hsame : s.Same s₁)
    (hu : (s₁.users.find userId).isSome) :
  Untouched s (E.startSession s₁ userId) ↔
    (E.Drawn s₁ → E.Done .createSession → E.fault .createSession = none)
  := by
  have hstarts := starts_startSession E hu
  generalize E.startSession s₁ userId = r at hstarts ⊢
  cases hstarts with
  | begun h => exact iff_of_true (untouched_ok _) fun _ _ => h.2
  | refused h =>
      apply iff_of_true (untouched_error_iff.mpr hsame)
      intro hd hdone
      apply absurd hdone (h hd)
  | lost h hd hf hlt =>
      apply iff_of_false
      · apply not_untouched
        rw [← hsame.size]
        apply hlt
      · intro hnone
        apply hf (hnone h hd)

/-- An identity is inserted first, and then a session begins. -/
theorem untouched_insertIdentity_first {userId : UserId}
    (hnone : s.findIdentityByProviderUser c.provider p.providerUserId = none) :
  Untouched s (andThen (E.insertIdentity c p s userId) E.startSession) ↔
    (Known c.provider → (s.users.find userId).isSome → E.Done .insertIdentity →
      E.fault .insertIdentity = none ∧ E.Begins s)
  := by
  have hinserts := inserts_insertIdentity E userId hnone
  generalize E.insertIdentity c p s userId = r at hinserts ⊢
  cases hinserts with
  | inserted hc hu hf husers hsessions hs =>
      apply (untouched_startSession hs (by rwa [husers])).trans
      rw [begins_congr hsessions]
      constructor
      · exact fun hb _ _ _ => ⟨hf, hb⟩
      · exact fun h => (h hc hu (done_of_none hf)).2
  | refused h =>
      apply iff_of_true (untouched_error_iff.mpr (Store.Same.refl s))
      intro hc hu hd
      apply absurd hd (h hc hu)
  | lost hc hu hd hf hs =>
      apply iff_of_false (not_untouched hs)
      intro h
      apply hf (h hc hu hd).1

/-- An identity is inserted after rows were inserted, and then a session begins. -/
theorem untouched_insertIdentity {s₁ : Store} {userId : UserId} (hs : s.size < s₁.size)
    (hu : (s₁.users.find userId).isSome)
    (hnone : s₁.findIdentityByProviderUser c.provider p.providerUserId = none) :
  Untouched s (andThen (E.insertIdentity c p s₁ userId) E.startSession) ↔
    Known c.provider ∧ E.fault .insertIdentity = none ∧ E.Begins s₁
  := by
  have hinserts := inserts_insertIdentity E userId hnone
  generalize E.insertIdentity c p s₁ userId = r at hinserts ⊢
  cases hinserts with
  | inserted hc _ hf husers hsessions hlt =>
      apply (untouched_startSession (hs.trans hlt) (by rwa [husers])).trans
      rw [begins_congr hsessions]
      exact ⟨fun hb => ⟨hc, hf, hb⟩, fun h => h.2.2⟩
  | refused h =>
      apply iff_of_false (not_untouched hs)
      rintro ⟨hc, hf, -⟩
      apply h hc hu (done_of_none hf)
  | lost hc _ hd hf hlt =>
      apply iff_of_false (not_untouched (hs.trans hlt))
      intro h
      apply hf h.2.1

/-- The tokens of an identity are updated, and then a session begins for its user. -/
theorem untouched_update {i : Identity} (hi : i ∈ s.identities.rows) (p : Profile) :
  Untouched s (andThen (E.attempt .update s (some (s.updateIdentityTokens i.id p.username
      p.accessEnc p.refreshEnc p.expiresAt, i.userId))) E.startSession) ↔
    (E.fault .update = none →
      E.Drawn s → E.Done .createSession → E.fault .createSession = none)
  := by
  have hsame := s.same_updateIdentityTokens i.id p.username p.accessEnc p.refreshEnc p.expiresAt
  apply attempt_cases (P := fun r => Untouched s (andThen r E.startSession) ↔ _)
  · intro s' a h hf
    obtain ⟨rfl, rfl⟩ := Prod.mk.inj (Option.some.inj h)
    apply (untouched_startSession_first hsame _).trans
    · exact ⟨fun h _ => h, fun h => h hf⟩
    · apply s.owned i hi
  · intro s' a e h hf
    obtain ⟨rfl, rfl⟩ := Prod.mk.inj (Option.some.inj h)
    apply iff_of_true (untouched_error_iff.mpr hsame)
    intro hnone
    rw [hf] at hnone
    contradiction
  · intro e h
    apply iff_of_true (untouched_error_iff.mpr (Store.Same.refl s))
    intro hnone
    apply absurd (done_of_none hnone) (h rfl)

/-- A user is inserted first, and then the identity, and then a session begins. -/
theorem untouched_createUser
    (hnone : s.findIdentityByProviderUser c.provider p.providerUserId = none) :
  Untouched s (andThen (andThen (E.attempt .createUser s
      (some (s.createUser p.username, s.users.next))) (E.insertIdentity c p)) E.startSession) ↔
    (E.Done .createUser → E.fault .createUser = none ∧ Known c.provider ∧
      E.fault .insertIdentity = none ∧ E.Begins s)
  := by
  have hsize : s.size < (s.createUser p.username).size := by
    rw [Store.size_createUser]
    apply Nat.lt_succ_self
  apply attempt_cases
    (P := fun r => Untouched s (andThen (andThen r (E.insertIdentity c p)) E.startSession) ↔ _)
  · intro s' a h hf
    obtain ⟨rfl, rfl⟩ := Prod.mk.inj (Option.some.inj h)
    apply (untouched_insertIdentity hsize (s.find_createUser p.username) hnone).trans
    rw [begins_createUser]
    exact ⟨fun h _ => ⟨hf, h⟩, fun h => (h (done_of_none hf)).2⟩
  · intro s' a e h hf
    obtain ⟨rfl, rfl⟩ := Prod.mk.inj (Option.some.inj h)
    apply iff_of_false (not_untouched hsize)
    intro h
    have hnone := (h (done_of_fault hf)).1
    rw [hf] at hnone
    contradiction
  · intro e h
    apply iff_of_true (untouched_error_iff.mpr (Store.Same.refl s))
    intro hd
    apply absurd hd (h rfl)

/-- A callback that has read the tables leaves nothing behind when it fails, exactly if nothing
fails once it has inserted a row. -/
theorem untouched_resolve (E : Environment) (c : Callback) (p : Profile) (s : Store) :
  Untouched s (andThen (E.resolve c p s (s.findIdentityByProviderUser c.provider p.providerUserId)
      c.currentUser) E.startSession) ↔
    E.SettlesWith c s (s.findIdentityByProviderUser c.provider p.providerUserId) c.currentUser
  := by
  cases hi : s.findIdentityByProviderUser c.provider p.providerUserId with
  | some i =>
      have howner : (∀ u ∈ c.currentUser, u = i.userId) ↔
          ¬ (c.currentUser.any (· ≠ i.userId)) = true := by
        cases c.currentUser <;> simp
      rw [resolve, SettlesWith]
      split
      · rename_i hother
        apply iff_of_true (untouched_error_iff.mpr (Store.Same.refl s))
        intro hcurrent
        apply absurd hother (howner.mp hcurrent)
      · rename_i hcurrent
        apply (untouched_update (List.mem_of_find?_eq_some hi) p).trans
        exact ⟨fun h _ => h, fun h => h (howner.mpr hcurrent)⟩
  | none =>
      cases c.currentUser with
      | some u => apply untouched_insertIdentity_first hi
      | none => apply untouched_createUser hi

end Environment

theorem leavesNothing_iff (s : Store) (call : Call) :
  LeavesNothing s call ↔ call.2.Settles call.1 s
  := by
  rw [LeavesNothing]
  rcases handle_cases s call with ⟨hnone, e, h⟩ | ⟨p, hp, hf, h⟩
  · rw [h]
    constructor
    · intro _ p hp hf
      apply absurd hf (hnone p hp)
    · exact fun _ _ _ => Store.Same.refl s
  · have hresolve := Environment.untouched_resolve call.2 call.1 p s
    rw [h]
    apply hresolve.trans
    constructor
    · intro hs p' hp' _
      obtain rfl := Except.ok.inj (hp.symm.trans hp')
      apply hs
    · exact fun hs => hs p hp hf

/-! ### Sequences -/

theorem keeps_run (s : Store) (calls : List Call) :
  s.Keeps (run s calls)
  := by
  induction calls generalizing s with
  | nil => apply Store.Keeps.refl
  | cons call calls ih => apply (keeps_handle s call).trans (ih _)

/-- **Callbacks keep ownership**, and leave nothing behind when they fail exactly if in none of
them anything fails once it has inserted a row: in every sequence of callbacks the identities stay,
each of its user, and a session is begun only for the user who owns the identity of the callback.
-/
theorem callbacks_iff_settle (s : Store) (calls : List Call) :
  s.Keeps (run s calls) ∧ (∀ x ∈ states s calls, IssuesToOwner x.1 x.2) ∧
    ((∀ x ∈ states s calls, LeavesNothing x.1 x.2) ↔
      ∀ x ∈ states s calls, x.2.2.Settles x.2.1 x.1)
  := by
  refine ⟨keeps_run s calls, fun x _ => issuesToOwner_handle x.1 x.2, ?_⟩
  simp only [leavesNothing_iff]

/-- A first login, during which the identity is not inserted. -/
def failedLogin : Call where
  fst := { provider := "github", code := "c", redirectURI := "" }
  snd := {
    exchange := fun _ _ _ => .ok ⟨"t", "", none⟩
    userInfo := fun _ _ => .ok ("1", "octocat")
    encrypt := .ok
    randomToken := .ok "s"
    now := 0
    fault := fun st => if st = .insertIdentity then some (false, "connection reset") else none
    refusal := fun _ => "" }

/-- A user is left behind for each first login that fails after the user was inserted. -/
theorem not_leavesNothing :
  ¬ ∀ (s : Store) (calls : List Call), ∀ x ∈ states s calls, LeavesNothing x.1 x.2
  := by
  intro h
  have hleft := h Store.empty [failedLogin, failedLogin] _
    (List.mem_cons_of_mem _ (List.mem_singleton_self _)) ⟨"connection reset", false⟩ (by decide)
  apply absurd (congrArg List.length hleft.users) (by decide)

end Hub.Auth
