import Mathlib
import BearerAuth.Proofs.Service.Issuance
import BearerAuth.Proofs.Service.Lookups

/-!
# Sessions

A session is the work of one service over a counted store, while others change the store behind its
back, make the source fail and block the fetching of keys.  This file defines the steps of a session
together with the lookups that every step makes, and says what a single lookup does to the cache and
to the counters.

The lookups of an authentication are not read off its definition: authentication is run over a way
of looking keys up that writes a log (`Way.logging`), and the log changes nothing
(`Session.step_authenticate`).

Main statement: `Session.step_cases` says that a step makes one lookup and nothing else, or none.
-/

namespace BearerAuth

variable {τ : Type}

/-- A lookup as it was made: for which key id, in which state, and what it came to. -/
structure Lookup (τ : Type) where
  kid : String
  before : τ
  result : Except AuthFailure String
  after : τ

/-- A way that also writes down every lookup. -/
def KeyCache.Way.logging (look : KeyCache.Way τ) : KeyCache.Way (τ × List (Lookup τ)) :=
  fun kid s =>
    ((look kid s.1).1,
      ((look kid s.1).2.1, s.2 ++ [⟨kid, s.1, (look kid s.1).1, (look kid s.1).2.1⟩]),
      (look kid s.1).2.2)

/-- Authentication over a way that writes a log makes one lookup, or none. -/
theorem AuthService.authenticateBy_logging {σ : Type} (svc : AuthService σ) (now : Clock)
    (look : KeyCache.Way τ) (bearer : String) (s : τ) :
    (∃ kid, (svc.authenticateBy now look.logging bearer (s, [])).2.1 =
      ((look kid s).2.1, [⟨kid, s, (look kid s).1, (look kid s).2.1⟩])) ∨
    (svc.authenticateBy now look.logging bearer (s, [])).2.1 = (s, []) := by
  unfold authenticateBy
  split
  · exact .inr rfl
  · split
    · exact .inr rfl
    · rename_i kid _
      refine .inl ⟨kid, ?_⟩
      rw [KeyCache.Way.logging]
      dsimp only
      cases (look kid s).1 <;> rfl

/-! ### Counters -/

namespace KeySource

variable {σ : Type} (source : KeySource σ) (kid : String) (s : Counted σ)

/-- A question to a source that may fail changes nothing but the source behind. -/
theorem failing_snd (ask : String → σ → Except KeyFailure String × σ) :
    ∃ inner, (failing ask kid s).2 = { s with inner } := by
  unfold failing
  split
  · exact ⟨s.inner, rfl⟩
  · exact ⟨(ask kid s.inner).2, rfl⟩

/-- A question for a public key is counted as one. -/
theorem counting_publicPem_snd :
    ∃ inner, (source.counting.publicPem kid s).2 =
      { s with inner, publicCalls := s.publicCalls + 1 } :=
  failing_snd kid { s with publicCalls := s.publicCalls + 1 } source.publicPem

/-- A question for a private key is counted as one. -/
theorem counting_privatePem_snd :
    ∃ inner, (source.counting.privatePem kid s).2 =
      { s with inner, privateCalls := s.privateCalls + 1 } :=
  failing_snd kid { s with privateCalls := s.privateCalls + 1 } source.privatePem

end KeySource

/-! ### Steps -/

/-- A service over a counted store at work. -/
structure Session where
  state : ServiceState (Counted KeyStore)
  /-- Fetching of keys is blocked. -/
  fetchBlocked : Bool

namespace Session

/-- A step of a session. -/
inductive Step where
  /-- The service issues a token. -/
  | issue (claims : Claims)
  /-- The service authenticates a header. -/
  | authenticate (now : Clock) (bearer : String)
  /-- The service decides whether the holder of claims may act on a user. -/
  | authorize (now : Clock) (claims : Claims) (userId : UserId) (rule : String)
  /-- A key is looked up. -/
  | lookup (kid : String)
  /-- A pair is registered in the store. -/
  | insert (kid : String) (pair : KeyPair)
  /-- A pair is read and registered in the store, if it can be read. -/
  | load (kid pem : String)
  /-- A pair is removed from the store. -/
  | remove (kid : String)
  /-- From now on the source fails, or no longer does. -/
  | setFailure (failure : Option (String → KeyFailure))
  /-- From now on fetching is blocked, or no longer is. -/
  | setBlocked (fetchBlocked : Bool)

/-- The step issues a token. -/
def Step.issues : Step → Bool
  | .issue _ => true
  | _ => false

/-- A session before its first step: nothing is cached and nothing has been counted. -/
def start (store : KeyStore) : Session :=
  ⟨AuthService.start (Counted.start store), false⟩

/-- The service of some settings and any policy over a counted store. -/
def service (config : AuthConfig) (policy : Evaluator) : AuthService (Counted KeyStore) :=
  ⟨config, KeyStore.source.counting, policy⟩

/-- The way in which keys are looked up in a session. -/
def way : KeyCache.Way Session := fun kid s =>
  let found := KeyCache.lookup KeyStore.source.counting s.fetchBlocked kid s.state
  (found.result, { s with state := found.state }, found.events)

/-- The lookup of a key id in a session. -/
def look (s : Session) (kid : String) : Lookup Session :=
  ⟨kid, s, (way kid s).1, (way kid s).2.1⟩

/-- The session with another store behind the counters. -/
def mapStore (s : Session) (f : KeyStore → KeyStore) : Session :=
  { s with state.source := s.state.source.mapInner f }

section Steps

variable (config : AuthConfig) (policy : Evaluator)

/-- Takes a step. -/
def step (s : Session) : Step → Session
  | .issue claims => { s with state := ((service config policy).issueToken claims s.state).state }
  | .authenticate now bearer =>
      { s with
        state := ((service config policy).authenticate ⟨now, s.fetchBlocked⟩ bearer s.state).state }
  | .authorize .. => s
  | .lookup kid => (way kid s).2.1
  | .insert kid pair => s.mapStore (·.insert kid pair)
  | .load kid pem => s.mapStore fun store => (store.load kid pem).toOption.getD store
  | .remove kid => s.mapStore (·.remove kid)
  | .setFailure failure => { s with state.source.failure := failure }
  | .setBlocked fetchBlocked => { s with fetchBlocked }

/-- The lookups that a step makes. -/
def lookups (s : Session) : Step → List (Lookup Session)
  | .authenticate now bearer =>
      ((service config policy).authenticateBy now way.logging bearer (s, [])).2.1.2
  | .lookup kid => (way.logging kid (s, [])).2.1.2
  | _ => []

/-- Takes steps one after the other. -/
def run (s : Session) (steps : List Step) : Session :=
  steps.foldl (step config policy) s

/-- The lookups that are made in steps, in order. -/
def history (s : Session) : List Step → List (Lookup Session)
  | [] => []
  | act :: steps => s.lookups config policy act ++ history (s.step config policy act) steps

theorem run_append (s : Session) (steps more : List Step) :
    s.run config policy (steps ++ more) = (s.run config policy steps).run config policy more :=
  List.foldl_append

theorem history_append (s : Session) (steps more : List Step) :
    s.history config policy (steps ++ more) =
      s.history config policy steps ++ (s.run config policy steps).history config policy more := by
  induction steps generalizing s with
  | nil => rfl
  | cons act steps ih =>
    rw [List.cons_append, history, history, ih, List.append_assoc]
    rfl

/-- The last step of a run adds its lookups to the history. -/
theorem history_append_singleton (s : Session) (steps : List Step) (act : Step) :
    s.history config policy (steps ++ [act]) =
      s.history config policy steps ++ (s.run config policy steps).lookups config policy act := by
  rw [history_append, history, history, List.append_nil]

theorem run_append_singleton (s : Session) (steps : List Step) (act : Step) :
    s.run config policy (steps ++ [act]) = (s.run config policy steps).step config policy act :=
  run_append config policy s steps [act]

/-! ### The log of authentication -/

/-- Writing the log does not change what authentication comes to. -/
theorem step_authenticate (s : Session) (now : Clock) (bearer : String) :
    ((service config policy).authenticate ⟨now, s.fetchBlocked⟩ bearer s.state).result =
        ((service config policy).authenticateBy now way.logging bearer (s, [])).1 ∧
      s.step config policy (.authenticate now bearer) =
        ((service config policy).authenticateBy now way.logging bearer (s, [])).2.1.1 := by
  have hlogged := (service config policy).authenticateBy_view bearer now way way.logging Prod.fst
    (s, []) fun _ => rfl
  have hlibrary := (service config policy).authenticateBy_view bearer now way
    (KeyCache.way KeyStore.source.counting s.fetchBlocked) (⟨·, s.fetchBlocked⟩) s.state
    fun _ => rfl
  have hsame := (service config policy).authenticate_eq_authenticateBy ⟨now, s.fetchBlocked⟩ bearer
    s.state
  rw [show (service config policy).source = KeyStore.source.counting from rfl] at hsame
  rw [hsame] at hlibrary
  have heq := hlibrary.symm.trans hlogged
  exact ⟨congrArg (·.1) heq, congrArg (·.2.1) heq⟩

/-- Authentication makes the lookup of the key id that the token names, and leaves what this lookup
leaves; without a key id it makes none and leaves everything. -/
theorem authenticate_cases (s : Session) (now : Clock) (bearer : String) :
    (∃ kid, s.lookups config policy (.authenticate now bearer) = [s.look kid] ∧
      s.step config policy (.authenticate now bearer) = (s.look kid).after) ∨
    (s.lookups config policy (.authenticate now bearer) = [] ∧
      s.step config policy (.authenticate now bearer) = s) := by
  rw [(step_authenticate config policy s now bearer).2]
  dsimp only [lookups]
  rcases (service config policy).authenticateBy_logging now way bearer s with ⟨kid, heq⟩ | heq
  · exact .inl ⟨kid, by rw [heq]; rfl, by rw [heq]; rfl⟩
  · exact .inr ⟨by rw [heq], by rw [heq]⟩

end Steps

/-! ### A single lookup -/

section Look

variable (s : Session) (kid : String)

/-- A lookup finds no key in the cache and is not kept from asking the source. -/
def fetches : Bool :=
  (s.state.cache.find? kid).isNone && !s.fetchBlocked

/-- The four ways in which a lookup ends in a session. -/
theorem look_cases :
    (∃ pem, s.state.cache.find? kid = some pem ∧ s.look kid = ⟨kid, s, .ok pem, s⟩) ∨
    (s.state.cache.find? kid = none ∧ s.fetchBlocked = true ∧
      s.look kid = ⟨kid, s, .error (.keyLookup kid KeyCache.blockedFetch), s⟩) ∨
    (∃ pem next, s.state.cache.find? kid = none ∧ s.fetchBlocked = false ∧
      KeyStore.source.counting.publicPem kid s.state.source = (.ok pem, next) ∧
      s.look kid =
        ⟨kid, s, .ok pem, { s with state := ⟨s.state.cache.insert kid pem, next⟩ }⟩) ∨
    (∃ e next, s.state.cache.find? kid = none ∧ s.fetchBlocked = false ∧
      KeyStore.source.counting.publicPem kid s.state.source = (.error e, next) ∧
      s.look kid =
        ⟨kid, s, .error (.keyLookup kid e), { s with state := ⟨s.state.cache, next⟩ }⟩) := by
  unfold look way
  dsimp only
  rcases KeyCache.lookup_cases KeyStore.source.counting s.fetchBlocked kid s.state with
    ⟨pem, hfind, heq⟩ | ⟨hfind, hblocked, heq⟩ | ⟨pem, next, hfind, hblocked, hsource, heq⟩ |
    ⟨e, next, hfind, hblocked, hsource, heq⟩
  · exact .inl ⟨pem, hfind, by rw [heq]⟩
  · exact .inr (.inl ⟨hfind, hblocked, by rw [heq]⟩)
  · exact .inr (.inr (.inl ⟨pem, next, hfind, hblocked, hsource, by rw [heq]⟩))
  · exact .inr (.inr (.inr ⟨e, next, hfind, hblocked, hsource, by rw [heq]⟩))

/-- A lookup adds to the cache what it yields, and takes nothing from it. -/
theorem find?_cache_look {other pem : String} :
    (s.look kid).after.state.cache.find? other = some pem ↔
      s.state.cache.find? other = some pem ∨ kid = other ∧ (s.look kid).result = .ok pem := by
  rcases s.look_cases kid with ⟨found, hfind, heq⟩ | ⟨-, -, heq⟩ | ⟨found, next, hfind, -, -, heq⟩ |
    ⟨e, next, -, -, -, heq⟩
  · rw [heq]
    constructor
    · exact .inl
    · rintro (h | ⟨rfl, hfound⟩)
      · exact h
      · rw [hfind, Except.ok.inj hfound]
  · rw [heq]
    simp
  · rw [heq]
    dsimp only
    rw [Registry.find?_insert]
    by_cases hother : other = kid
    · subst hother
      simp [hfind]
    · simp [hother, Ne.symm hother]
  · rw [heq]
    simp

/-- A lookup that fails leaves the cache as it is. -/
theorem cache_look_of_error {e : AuthFailure} (h : (s.look kid).result = .error e) :
    (s.look kid).after.state.cache = s.state.cache := by
  rcases s.look_cases kid with ⟨_, -, heq⟩ | ⟨-, -, heq⟩ | ⟨_, _, -, -, -, heq⟩ |
    ⟨_, _, -, -, -, heq⟩
  · rw [heq]
  · rw [heq]
  · rw [heq] at h
    cases h
  · rw [heq]

/-- A key in the cache is what a lookup yields. -/
theorem result_look_of_cached {pem : String} (h : s.state.cache.find? kid = some pem) :
    (s.look kid).result = .ok pem := by
  rcases s.look_cases kid with ⟨found, hfind, heq⟩ | ⟨hfind, -⟩ | ⟨_, _, hfind, -⟩ |
    ⟨_, _, hfind, -⟩
  · rw [heq, ← Option.some.inj (hfind.symm.trans h)]
  · rw [hfind] at h
    cases h
  · rw [hfind] at h
    cases h
  · rw [hfind] at h
    cases h

/-- A lookup that asks the source yields what the source answers at this moment. -/
theorem result_look_of_fetches (h : s.fetches kid) :
    (s.look kid).result =
      (KeyStore.source.counting.publicPem kid s.state.source).1.mapError (.keyLookup kid) := by
  unfold fetches at h
  rcases s.look_cases kid with ⟨_, hfind, -⟩ | ⟨-, hblocked, -⟩ | ⟨_, _, -, -, hsource, heq⟩ |
    ⟨_, _, -, -, hsource, heq⟩
  · simp [hfind] at h
  · simp [hblocked] at h
  · rw [heq, hsource]
    rfl
  · rw [heq, hsource]
    rfl

/-- A lookup is counted where it asks the source, and as nothing but a question for a public key. -/
theorem calls_look :
    (s.look kid).after.state.source.publicCalls =
        s.state.source.publicCalls + (s.fetches kid).toNat ∧
      (s.look kid).after.state.source.privateCalls = s.state.source.privateCalls := by
  obtain ⟨inner, hasked⟩ := KeyStore.source.counting_publicPem_snd kid s.state.source
  unfold fetches
  rcases s.look_cases kid with ⟨_, hfind, heq⟩ | ⟨-, hblocked, heq⟩ |
    ⟨_, next, hfind, hblocked, hsource, heq⟩ | ⟨_, next, hfind, hblocked, hsource, heq⟩
  · rw [heq]
    simp [hfind]
  · rw [heq]
    simp [hblocked]
  · rw [hsource] at hasked
    dsimp only at hasked
    rw [heq, hasked]
    simp [hfind, hblocked]
  · rw [hsource] at hasked
    dsimp only at hasked
    rw [heq, hasked]
    simp [hfind, hblocked]

end Look

/-! ### A single step -/

/-- The two kinds of steps: those that make one lookup and nothing else, and those that make none,
of which none touches the cache and only an issue asks for a private key. -/
theorem step_cases (config : AuthConfig) (policy : Evaluator) (s : Session) (act : Step) :
    (∃ kid, act.issues = false ∧ s.lookups config policy act = [s.look kid] ∧
      s.step config policy act = (s.look kid).after) ∨
    (s.lookups config policy act = [] ∧
      (s.step config policy act).state.cache = s.state.cache ∧
      (s.step config policy act).state.source.publicCalls = s.state.source.publicCalls ∧
      (s.step config policy act).state.source.privateCalls =
        s.state.source.privateCalls + act.issues.toNat) := by
  cases act with
  | issue claims =>
    right
    obtain ⟨inner, hasked⟩ :=
      KeyStore.source.counting_privatePem_snd config.activeKid s.state.source
    have hstate : ((service config policy).issueToken claims s.state).state =
        ⟨s.state.cache, (KeyStore.source.counting.privatePem config.activeKid s.state.source).2⟩ :=
      AuthService.issueToken_state
    rw [hasked] at hstate
    rw [step, hstate]
    exact ⟨rfl, rfl, rfl, rfl⟩
  | authenticate now bearer =>
    rcases authenticate_cases config policy s now bearer with ⟨kid, hlookups, hstep⟩ |
      ⟨hlookups, hstep⟩
    · exact .inl ⟨kid, rfl, hlookups, hstep⟩
    · rw [hstep]
      exact .inr ⟨hlookups, rfl, rfl, rfl⟩
  | lookup kid => exact .inl ⟨kid, rfl, rfl, rfl⟩
  | authorize => exact .inr ⟨rfl, rfl, rfl, rfl⟩
  | insert => exact .inr ⟨rfl, rfl, rfl, rfl⟩
  | load => exact .inr ⟨rfl, rfl, rfl, rfl⟩
  | remove => exact .inr ⟨rfl, rfl, rfl, rfl⟩
  | setFailure => exact .inr ⟨rfl, rfl, rfl, rfl⟩
  | setBlocked => exact .inr ⟨rfl, rfl, rfl, rfl⟩

end Session

end BearerAuth
