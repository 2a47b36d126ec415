import Mathlib
import BearerAuth.Proofs.Service.Issuance

/-!
# Services that share a store

Any number of services with the rules of the library work over one store of key pairs.  Pairs are
registered and removed while the services issue tokens and authenticate headers, each with a cache
of its own.  This file defines the runs of such a fleet and proves what they keep: a cached key
stays cached, it was fetched at one step of the run, and it is the public half of the pair that the
store held at that step.

Main statements: `Fleet.find?_cache_run` and `Fleet.exists_fill`.
-/

namespace BearerAuth

/-- What the steps of a fleet change: the store, and the cache of every service. -/
structure Fleet (ι : Type) where
  store : KeyStore
  cache : ι → KeyCache

namespace Fleet

variable {ι : Type}

/-- A step of a fleet. -/
inductive Step (ι : Type) where
  /-- A pair is registered under a key id, in place of an earlier one. -/
  | insert (kid : String) (pair : KeyPair)
  /-- The pair of a key id is removed. -/
  | remove (kid : String)
  /-- A service issues a token. -/
  | issue (i : ι) (claims : Claims)
  /-- A service authenticates a header. -/
  | authenticate (i : ι) (around : Surroundings) (bearer : String)

/-- The fleet before its first step: nothing is cached. -/
def start (store : KeyStore) : Fleet ι := ⟨store, fun _ => Registry.empty⟩

/-- The state that a service sees. -/
def view (f : Fleet ι) (i : ι) : ServiceState KeyStore := ⟨f.cache i, f.store⟩

/-- The service of some settings over the shared store. -/
def service (config : AuthConfig) : AuthService KeyStore :=
  AuthService.standard config KeyStore.source

section Runs

variable [DecidableEq ι]

/-- The fleet in which a service has left a state. -/
def leave (f : Fleet ι) (i : ι) (s : ServiceState KeyStore) : Fleet ι :=
  ⟨s.source, Function.update f.cache i s.cache⟩

/-- Takes a step. -/
def step (configs : ι → AuthConfig) (f : Fleet ι) : Step ι → Fleet ι
  | .insert kid pair => { f with store := f.store.insert kid pair }
  | .remove kid => { f with store := f.store.remove kid }
  | .issue i claims => f.leave i ((service (configs i)).issueToken claims (f.view i)).state
  | .authenticate i around bearer =>
      f.leave i ((service (configs i)).authenticate around bearer (f.view i)).state

/-- Takes steps one after the other. -/
def run (configs : ι → AuthConfig) (f : Fleet ι) (steps : List (Step ι)) : Fleet ι :=
  steps.foldl (step configs) f

/-- The step fetches the public key of a key id into the cache of a service. -/
def Fills (configs : ι → AuthConfig) (j : ι) (kid : String) (f : Fleet ι) (act : Step ι) : Prop :=
  (f.cache j).find? kid = none ∧ ((f.step configs act).cache j).find? kid ≠ none

/-- The step looks a key id up for a service, and succeeds. -/
def LooksUp (j : ι) (kid : String) (f : Fleet ι) (act : Step ι) : Prop :=
  ∃ around bearer token pem, act = .authenticate j around bearer ∧
    AuthService.bearerToken? bearer = some token ∧ Token.namedKid token = .ok kid ∧
    (KeyCache.lookup KeyStore.source around.fetchBlocked kid (f.view j)).result = .ok pem

/-- On the whole way of some steps the key id is bound to no other pair than at its beginning. -/
def NeverRebound (configs : ι → AuthConfig) (kid : String) (f : Fleet ι) (steps : List (Step ι)) :
    Prop :=
  ∀ pair, f.store.pairs.find? kid = some pair → ∀ front, front <+: steps →
    ∀ other, (f.run configs front).store.pairs.find? kid = some other → other = pair

/-! ### Runs -/

variable {configs : ι → AuthConfig} {j : ι} {kid : String} {f : Fleet ι}

theorem run_append (f : Fleet ι) (steps more : List (Step ι)) :
    f.run configs (steps ++ more) = (f.run configs steps).run configs more :=
  List.foldl_append

theorem run_cons (f : Fleet ι) (act : Step ι) (steps : List (Step ι)) :
    f.run configs (act :: steps) = (f.step configs act).run configs steps := rfl

/-- Issuing leaves a fleet as it is. -/
theorem step_issue (configs : ι → AuthConfig) (f : Fleet ι) (i : ι) (claims : Claims) :
    f.step configs (.issue i claims) = f := by
  have hcache : Function.update f.cache i (f.cache i) = f.cache := Function.update_eq_self i f.cache
  rw [step, AuthService.issueToken_state, leave]
  dsimp only [view]
  rw [hcache]
  rfl

/-! ### Stores -/

/-- A lookup leaves a store as it is. -/
theorem source_lookup (fetchBlocked : Bool) (kid : String) (s : ServiceState KeyStore) :
    (KeyCache.lookup KeyStore.source fetchBlocked kid s).state.source = s.source := by
  rcases KeyCache.lookup_cases KeyStore.source fetchBlocked kid s with ⟨_, -, heq⟩ |
    ⟨-, -, heq⟩ | ⟨_, next, -, -, hsource, heq⟩ | ⟨_, next, -, -, hsource, heq⟩
  · rw [heq]
  · rw [heq]
  · rw [heq]
    exact (congrArg Prod.snd hsource).symm
  · rw [heq]
    exact (congrArg Prod.snd hsource).symm

/-- Authentication leaves the store of a fleet as it is. -/
theorem store_authenticate (configs : ι → AuthConfig) (f : Fleet ι) (i : ι)
    (around : Surroundings) (bearer : String) :
    (f.step configs (.authenticate i around bearer)).store = f.store := by
  rw [step, leave]
  rcases AuthService.authenticate_cases (service (configs i)) around bearer (f.view i) with
    ⟨-, heq⟩ | ⟨_, _, -, -, heq⟩ | ⟨_, kid, _, -, -, -, heq⟩ | ⟨_, kid, _, -, -, -, heq⟩
  · rw [heq]
    rfl
  · rw [heq]
    rfl
  · rw [heq]
    exact source_lookup around.fetchBlocked kid (f.view i)
  · rw [heq]
    exact source_lookup around.fetchBlocked kid (f.view i)

/-- A key id is bound to a pair by registering it, and by nothing else. -/
theorem find?_store_step {act : Step ι} {pair : KeyPair}
    (h : (f.step configs act).store.pairs.find? kid = some pair) :
    f.store.pairs.find? kid = some pair ∨ act = .insert kid pair := by
  cases act with
  | insert name other =>
    rw [step, KeyStore.insert] at h
    dsimp only at h
    rw [Registry.find?_insert] at h
    split at h
    · rename_i hname
      rw [hname, Option.some.inj h]
      exact .inr rfl
    · exact .inl h
  | remove name =>
    rw [step, KeyStore.remove] at h
    dsimp only at h
    rw [Registry.find?_erase] at h
    split at h
    · cases h
    · exact .inl h
  | issue i claims =>
    rw [step_issue] at h
    exact .inl h
  | authenticate i around bearer =>
    rw [store_authenticate] at h
    exact .inl h

/-- A key id is bound to a pair for which it was registered on the way, or to its first one. -/
theorem find?_store_run {steps : List (Step ι)} {pair : KeyPair}
    (h : (f.run configs steps).store.pairs.find? kid = some pair) :
    f.store.pairs.find? kid = some pair ∨ .insert kid pair ∈ steps := by
  induction steps generalizing f with
  | nil => exact .inl h
  | cons act steps ih =>
    rw [run_cons] at h
    rcases ih h with hstep | hmem
    · rcases find?_store_step hstep with hfirst | rfl
      · exact .inl hfirst
      · exact .inr List.mem_cons_self
    · exact .inr (List.mem_cons_of_mem act hmem)

/-- A key id is not rebound if it is registered for no pair but its first one. -/
theorem neverRebound_of_insert {steps : List (Step ι)} {pair : KeyPair}
    (hpair : f.store.pairs.find? kid = some pair)
    (h : ∀ other, .insert kid other ∈ steps → other = pair) :
    NeverRebound configs kid f steps := by
  intro first hfirst front hfront other hother
  obtain rfl : pair = first := Option.some.inj (hpair.symm.trans hfirst)
  rcases find?_store_run hother with hbound | hmem
  · exact Option.some.inj (hbound.symm.trans hpair)
  · exact h other (hfront.mem hmem)

/-! ### Caches -/

/-- A lookup in a store keeps what is cached, and caches nothing but the public half of a pair that
the store holds. -/
theorem find?_cache_lookup (fetchBlocked : Bool) (named kid : String) (s : ServiceState KeyStore) :
    (KeyCache.lookup KeyStore.source fetchBlocked named s).state.cache.find? kid =
        s.cache.find? kid ∨
      s.cache.find? kid = none ∧ ∃ pair, s.source.pairs.find? kid = some pair ∧
        (KeyCache.lookup KeyStore.source fetchBlocked named s).state.cache.find? kid =
          some pair.publicPem := by
  rcases KeyCache.lookup_cases KeyStore.source fetchBlocked named s with ⟨_, -, heq⟩ |
    ⟨-, -, heq⟩ | ⟨pem, next, hfind, -, hsource, heq⟩ | ⟨_, _, -, -, -, heq⟩
  · exact .inl (by rw [heq])
  · exact .inl (by rw [heq])
  · rw [heq]
    dsimp only
    rw [Registry.find?_insert]
    split
    · rename_i hkid
      subst hkid
      obtain ⟨pair, hpair, rfl, -⟩ := KeyStore.source_publicPem_eq_ok_iff.mp hsource
      exact .inr ⟨hfind, pair, hpair, rfl⟩
    · exact .inl rfl
  · exact .inl (by rw [heq])

/-- The cache of a service is left alone by the other services. -/
theorem find?_cache_leave (f : Fleet ι) (i j : ι) (s : ServiceState KeyStore) (kid : String) :
    ((f.leave i s).cache j).find? kid =
      if j = i then s.cache.find? kid else (f.cache j).find? kid := by
  unfold leave
  dsimp only
  rw [Function.update_apply]
  split <;> rfl

/-- A step keeps what is cached, and caches nothing but the public half of a pair that the store
holds. -/
theorem find?_cache_step (configs : ι → AuthConfig) (j : ι) (kid : String) (f : Fleet ι)
    (act : Step ι) :
    ((f.step configs act).cache j).find? kid = (f.cache j).find? kid ∨
      (f.cache j).find? kid = none ∧ ∃ pair, f.store.pairs.find? kid = some pair ∧
        ((f.step configs act).cache j).find? kid = some pair.publicPem := by
  cases act with
  | insert => exact .inl rfl
  | remove => exact .inl rfl
  | issue i claims => exact .inl (by rw [step_issue])
  | authenticate i around bearer =>
    rw [step, find?_cache_leave]
    by_cases hji : j = i
    · subst hji
      rw [if_pos rfl]
      rcases AuthService.authenticate_cases (service (configs j)) around bearer (f.view j) with
        ⟨-, heq⟩ | ⟨_, _, -, -, heq⟩ | ⟨_, named, _, -, -, -, heq⟩ | ⟨_, named, _, -, -, -, heq⟩
      · exact .inl (by rw [heq]; rfl)
      · exact .inl (by rw [heq]; rfl)
      · rw [heq]
        exact find?_cache_lookup around.fetchBlocked named kid (f.view j)
      · rw [heq]
        exact find?_cache_lookup around.fetchBlocked named kid (f.view j)
    · exact .inl (if_neg hji)

/-- What is cached stays cached. -/
theorem find?_cache_run {pem : String} (h : (f.cache j).find? kid = some pem)
    (steps : List (Step ι)) : ((f.run configs steps).cache j).find? kid = some pem := by
  induction steps generalizing f with
  | nil => exact h
  | cons act steps ih =>
    rw [run_cons]
    apply ih
    rcases find?_cache_step configs j kid f act with hkept | ⟨hnone, -⟩
    · rw [hkept, h]
    · rw [h] at hnone
      cases hnone

/-- What is cached at the end was fetched by a step, and is the public half of the pair that the
store held at this step. -/
theorem exists_fill {store : KeyStore} {steps : List (Step ι)} {pem : String}
    (h : (((start store).run configs steps).cache j).find? kid = some pem) :
    ∃ front act back pair, steps = front ++ act :: back ∧
      Fills configs j kid ((start store).run configs front) act ∧
      ((start store).run configs front).store.pairs.find? kid = some pair ∧
      pair.publicPem = pem := by
  -- The step that fills the cache is looked for from the end.
  induction steps using List.reverseRecOn with
  | nil => cases h
  | append_singleton steps act ih =>
    rw [run_append] at h
    have hstep := find?_cache_step configs j kid ((start store).run configs steps) act
    rcases hstep with hkept | ⟨hnone, pair, hpair, hfilled⟩
    · obtain ⟨front, fill, back, pair, rfl, hfill⟩ := ih (hkept.symm.trans h)
      exact ⟨front, fill, back ++ [act], pair, by simp, hfill⟩
    · have hpem : some pair.publicPem = some pem := hfilled.symm.trans h
      refine ⟨steps, act, [], pair, rfl, ⟨hnone, ?_⟩, hpair, Option.some.inj hpem⟩
      rw [hfilled]
      exact Option.some_ne_none _

/-- A key id that was looked up is cached from then on. -/
theorem exists_cached_of_looksUp (configs : ι → AuthConfig) {act : Step ι}
    (h : LooksUp j kid f act) (steps : List (Step ι)) :
    ∃ pem, ((f.run configs (act :: steps)).cache j).find? kid = some pem := by
  obtain ⟨around, bearer, token, pem, rfl, htoken, hkid, hfound⟩ := h
  have hstep : (service (configs j)).authenticate around bearer (f.view j) = _ :=
    AuthService.authenticate_of_lookup_ok htoken hkid hfound
  refine ⟨pem, find?_cache_run ?_ steps⟩
  rw [step, find?_cache_leave, if_pos rfl, hstep]
  exact KeyCache.find?_cache_of_lookup hfound

end Runs

end Fleet

end BearerAuth
