import Mathlib
import BearerAuth.Fixtures
import BearerAuth.Proofs.Service.Session

/-!
# The cache and the history of lookups

Whatever happens in a session, its cache holds what its lookups have yielded so far, and nothing
else.  From this invariant follows how every lookup ends that was made: with the key of the first
success, if there was one, and otherwise with what the source answers now.  The counters of the
source tell the same story in numbers.

Main statement: `Session.lookups_read_through`.
-/

namespace BearerAuth

namespace Session

/-- The cache holds the keys that lookups of the history have yielded, and no others. -/
def Recounts (history : List (Lookup Session)) (s : Session) : Prop :=
  ∀ kid pem, s.state.cache.find? kid = some pem ↔
    ∃ x ∈ history, x.kid = kid ∧ x.result = .ok pem

variable {history : List (Lookup Session)} {s : Session} {config : AuthConfig} {policy : Evaluator}
  {store : KeyStore} {steps : List Step}

/-! ### What a step keeps -/

/-- Nothing has been looked up in the beginning, and nothing is cached. -/
theorem recounts_start (store : KeyStore) : Recounts [] (start store) := by
  intro kid pem
  simp [start, AuthService.start]

/-- A lookup goes into the cache as it goes into the history. -/
theorem Recounts.look (h : Recounts history s) (kid : String) :
    Recounts (history ++ [s.look kid]) (s.look kid).after := by
  intro other pem
  rw [find?_cache_look, h other pem]
  simp only [List.mem_append, List.mem_singleton, or_and_right, exists_or, exists_eq_left]
  rfl

/-- Every step keeps the cache and the history together. -/
theorem Recounts.step (h : Recounts history s) (config : AuthConfig) (policy : Evaluator)
    (act : Step) :
    Recounts (history ++ s.lookups config policy act) (s.step config policy act) := by
  rcases step_cases config policy s act with ⟨kid, -, hlookups, hstep⟩ | ⟨hlookups, hcache, -, -⟩
  · rw [hlookups, hstep]
    exact h.look kid
  · rw [hlookups, List.append_nil]
    intro other pem
    rw [hcache]
    exact h other pem

/-! ### What a run keeps -/

/-- The cache recounts the history of every run. -/
theorem recounts_run (config : AuthConfig) (policy : Evaluator) (store : KeyStore)
    (steps : List Step) :
    Recounts ((start store).history config policy steps)
      ((start store).run config policy steps) := by
  induction steps using List.reverseRecOn with
  | nil => exact recounts_start store
  | append_singleton steps act ih =>
    rw [history_append_singleton, run_append_singleton]
    exact ih.step config policy act

/-- A lookup of a run was made in a state whose cache recounts the lookups in front of it. -/
theorem recounts_of_history_eq {front back : List (Lookup Session)} {x : Lookup Session}
    (h : (start store).history config policy steps = front ++ x :: back) :
    Recounts front x.before ∧ x = x.before.look x.kid := by
  induction steps using List.reverseRecOn generalizing back with
  | nil => simp [Session.history] at h
  | append_singleton steps act ih =>
    rw [history_append_singleton] at h
    rcases step_cases config policy ((start store).run config policy steps) act with
      ⟨kid, -, hlookups, -⟩ | ⟨hlookups, -⟩
    · rw [hlookups] at h
      cases back using List.reverseRecOn with
      | nil =>
        -- the lookup is the one of the last step
        obtain ⟨rfl, hx⟩ := List.append_inj' h rfl
        obtain rfl := (List.cons.inj hx).1
        exact ⟨recounts_run config policy store steps, rfl⟩
      | append_singleton back last =>
        rw [← List.cons_append, ← List.append_assoc] at h
        exact ih (List.append_inj' h rfl).1
    · rw [hlookups, List.append_nil] at h
      exact ih h

/-- The counters of a run: the lookups that asked the source, and the tokens that were issued. -/
theorem calls_run (config : AuthConfig) (policy : Evaluator) (store : KeyStore)
    (steps : List Step) :
    ((start store).run config policy steps).state.source.publicCalls =
        ((start store).history config policy steps).countP (fun x => x.before.fetches x.kid) ∧
      ((start store).run config policy steps).state.source.privateCalls =
        steps.countP Step.issues := by
  have hone : ∀ b : Bool, (if b = true then 1 else 0) = b.toNat := by decide
  induction steps using List.reverseRecOn with
  | nil => exact ⟨rfl, rfl⟩
  | append_singleton steps act ih =>
    obtain ⟨ihPublic, ihPrivate⟩ := ih
    rw [history_append_singleton, run_append_singleton, List.countP_append, List.countP_append,
      ← ihPublic, ← ihPrivate, List.countP_singleton, hone]
    rcases step_cases config policy ((start store).run config policy steps) act with
      ⟨kid, hissues, hlookups, hstep⟩ | ⟨hlookups, -, hpublic, hprivate⟩
    · obtain ⟨hpublic', hprivate'⟩ := calls_look ((start store).run config policy steps) kid
      rw [hlookups, hstep, hpublic', hprivate', hissues, List.countP_singleton, hone]
      exact ⟨rfl, rfl⟩
    · rw [hlookups, hpublic, hprivate]
      exact ⟨rfl, rfl⟩

/-! ### Lookups in the light of their history -/

section Split

variable {front back : List (Lookup Session)} {x : Lookup Session}
  (h : (start store).history config policy steps = front ++ x :: back)

include h

/-- A lookup yields what an earlier lookup of its key id yielded. -/
theorem result_eq_of_earlier {earlier : Lookup Session} (hmem : earlier ∈ front)
    (hkid : earlier.kid = x.kid) {pem : String} (hresult : earlier.result = .ok pem) :
    x.result = .ok pem := by
  obtain ⟨hrecounts, hlook⟩ := recounts_of_history_eq h
  have hcached : x.before.state.cache.find? x.kid = some pem :=
    (hrecounts x.kid pem).mpr ⟨earlier, hmem, hkid, hresult⟩
  rw [hlook]
  exact result_look_of_cached x.before x.kid hcached

/-- A lookup that fails has left the cache as it was. -/
theorem cache_eq_of_failed {e : AuthFailure} (hresult : x.result = .error e) :
    x.after.state.cache = x.before.state.cache := by
  obtain ⟨-, hlook⟩ := recounts_of_history_eq h
  rw [hlook] at hresult ⊢
  exact cache_look_of_error x.before x.kid hresult

/-- A lookup whose key id no earlier lookup found finds no key in the cache. -/
theorem find?_cache_eq_none
    (hnone : ∀ earlier ∈ front, earlier.kid = x.kid → ∀ pem, earlier.result ≠ .ok pem) :
    x.before.state.cache.find? x.kid = none := by
  obtain ⟨hrecounts, -⟩ := recounts_of_history_eq h
  rw [Option.eq_none_iff_forall_ne_some]
  intro pem hcached
  obtain ⟨earlier, hmem, hkid, hresult⟩ := (hrecounts x.kid pem).mp hcached
  exact hnone earlier hmem hkid pem hresult

/-- A lookup that finds no key in the cache asks the source, unless fetching is blocked. -/
theorem asks_of_find?_eq_none (hnone : x.before.state.cache.find? x.kid = none)
    (hblocked : x.before.fetchBlocked = false) :
    x.after.state.source.publicCalls = x.before.state.source.publicCalls + 1 ∧
      x.result =
        (KeyStore.source.counting.publicPem x.kid x.before.state.source).1.mapError
          (.keyLookup x.kid) := by
  obtain ⟨-, hlook⟩ := recounts_of_history_eq h
  have hfetches : x.before.fetches x.kid = true := by simp [fetches, hnone, hblocked]
  have hcalls := (calls_look x.before x.kid).1
  rw [hfetches, ← hlook] at hcalls
  have hanswer := result_look_of_fetches x.before x.kid hfetches
  rw [← hlook] at hanswer
  exact ⟨hcalls, hanswer⟩

end Split

/-- No lookup in front of a failed one found its key id. -/
theorem ne_ok_of_failed {front middle back : List (Lookup Session)} {failed : Lookup Session}
    (h : (start store).history config policy steps = front ++ failed :: (middle ++ back))
    {e : AuthFailure} (hfailed : failed.result = .error e)
    (hmiddle : ∀ x ∈ middle, x.kid ≠ failed.kid) :
    ∀ earlier ∈ front ++ failed :: middle, earlier.kid = failed.kid →
      ∀ pem, earlier.result ≠ .ok pem := by
  intro earlier hmem hkid pem hresult
  rcases List.mem_append.mp hmem with hfront | hrest
  · have hagain := result_eq_of_earlier h hfront hkid hresult
    rw [hagain] at hfailed
    cases hfailed
  · rcases List.mem_cons.mp hrest with rfl | hinside
    · rw [hresult] at hfailed
      cases hfailed
    · exact hmiddle earlier hinside hkid

/-! ### Main statement -/

/-- The cache of a session is read through.  In every session over a counted store, whatever others
do in between to the store, to the answers of the source and to the fetching of keys:

* a lookup yields what the first successful lookup of its key id yielded, from then on for good;
* at the end, and hence at every moment, a key id is cached exactly if some lookup of it succeeded,
  no matter what became of the token for which it was made, and under the key that it yielded;
* a lookup that fails leaves the cache as it was, and the next lookup of the key id finds nothing
  there and asks the source again, unless fetching is blocked;
* the source has been asked for as many public keys as there were lookups that found nothing and
  were not kept from asking, and for as many private keys as tokens were issued;
* to issue a token or to decide whether someone may act looks no key up, leaves the cache alone and
  asks for no public key; the token does not depend on the cache, and a decision changes nothing.

The log from which the history is taken does not change what authentication comes to. -/
theorem lookups_read_through (config : AuthConfig) (policy : Evaluator) (store : KeyStore)
    (steps : List Step) :
    (∀ (front : List (Lookup Session)) (later : Lookup Session) (back : List (Lookup Session)),
      (start store).history config policy steps = front ++ later :: back →
      ∀ earlier ∈ front, earlier.kid = later.kid →
        ∀ pem, earlier.result = .ok pem → later.result = .ok pem) ∧
    (∀ kid pem, ((start store).run config policy steps).state.cache.find? kid = some pem ↔
      ∃ x ∈ (start store).history config policy steps, x.kid = kid ∧ x.result = .ok pem) ∧
    (∀ (front : List (Lookup Session)) (failed : Lookup Session) (back : List (Lookup Session)),
      (start store).history config policy steps = front ++ failed :: back →
      ∀ e, failed.result = .error e →
        failed.after.state.cache = failed.before.state.cache ∧
        ∀ (middle : List (Lookup Session)) (later : Lookup Session) (rest : List (Lookup Session)),
          back = middle ++ later :: rest → later.kid = failed.kid →
          (∀ x ∈ middle, x.kid ≠ failed.kid) →
          later.before.state.cache.find? later.kid = none ∧
          (later.before.fetchBlocked = false →
            later.after.state.source.publicCalls = later.before.state.source.publicCalls + 1 ∧
            later.result =
              (KeyStore.source.counting.publicPem later.kid later.before.state.source).1.mapError
                (.keyLookup later.kid))) ∧
    (((start store).run config policy steps).state.source.publicCalls =
        ((start store).history config policy steps).countP (fun x =>
          (x.before.state.cache.find? x.kid).isNone && !x.before.fetchBlocked) ∧
      ((start store).run config policy steps).state.source.privateCalls =
        steps.countP Step.issues) ∧
    (∀ (s : Session) (act : Step),
      (act.issues ∨ ∃ now claims userId rule, act = .authorize now claims userId rule) →
        s.lookups config policy act = [] ∧
        (s.step config policy act).state.cache = s.state.cache ∧
        (s.step config policy act).state.source.publicCalls = s.state.source.publicCalls) ∧
    (∀ (s : Session) (claims : Claims) (cache : KeyCache),
      ((service config policy).issueToken claims ⟨cache, s.state.source⟩).result =
        ((service config policy).issueToken claims s.state).result) ∧
    (∀ (s : Session) (now : Clock) (claims : Claims) (userId : UserId) (rule : String),
      s.step config policy (.authorize now claims userId rule) = s) ∧
    (∀ (s : Session) (now : Clock) (bearer : String),
      ((service config policy).authenticate ⟨now, s.fetchBlocked⟩ bearer s.state).result =
          ((service config policy).authenticateBy now way.logging bearer (s, [])).1 ∧
        s.step config policy (.authenticate now bearer) =
          ((service config policy).authenticateBy now way.logging bearer (s, [])).2.1.1) := by
  refine ⟨?_, recounts_run config policy store steps, ?_, calls_run config policy store steps,
    ?_, ?_, fun s now claims userId rule => rfl, step_authenticate config policy⟩
  · intro front later back h earlier hmem hkid pem hresult
    exact result_eq_of_earlier h hmem hkid hresult
  · intro front failed back h e hfailed
    refine ⟨cache_eq_of_failed h hfailed, ?_⟩
    rintro middle later rest rfl hkid hmiddle
    have hlater : (start store).history config policy steps =
        (front ++ failed :: middle) ++ later :: rest := by
      rw [h]
      simp
    have hnone : later.before.state.cache.find? later.kid = none := by
      apply find?_cache_eq_none hlater
      rw [hkid]
      exact ne_ok_of_failed h hfailed hmiddle
    exact ⟨hnone, asks_of_find?_eq_none hlater hnone⟩
  · intro s act hact
    rcases step_cases config policy s act with ⟨kid, hissues, hlookups, -⟩ |
      ⟨hlookups, hcache, hpublic, -⟩
    · rcases hact with hact | ⟨now, claims, userId, rule, rfl⟩
      · rw [hissues] at hact
        cases hact
      · cases hlookups
    · exact ⟨hlookups, hcache, hpublic⟩
  · intro s claims cache
    unfold AuthService.issueToken
    dsimp only
    split
    · rfl
    · split <;> rfl

/-! ### An outage -/

/-- A key is looked up while the source does not answer, once it answers again, and when the pair is
gone and fetching is blocked. -/
def outage : List Step :=
  [.setFailure (some fun _ => .timeout), .lookup Fixtures.kid, .setFailure none,
    .lookup Fixtures.kid, .remove Fixtures.kid, .setBlocked true, .lookup Fixtures.kid]

/-- The lookup after the outage asks the source again, and what it yields is what the last lookup
still yields. -/
theorem lookups_read_through_outage :
    ∃ failed found kept,
      (start (Fixtures.store Fixtures.kid)).history Fixtures.config Fixtures.service.policy outage =
        [failed, found, kept] ∧
      failed.result = .error (.keyLookup Fixtures.kid .timeout) ∧
      found.before.state.cache.find? Fixtures.kid = none ∧
      found.result = .ok Fixtures.primaryPair.publicPem ∧
      kept.before.state.source.inner.contains Fixtures.kid = false ∧
      kept.result = .ok Fixtures.primaryPair.publicPem := by
  obtain ⟨hlater, -, hretry, -⟩ := lookups_read_through Fixtures.config Fixtures.service.policy
    (Fixtures.store Fixtures.kid) outage
  obtain ⟨failed, found, kept, hhistory, hfailed, hkids, hfound, hgone⟩ :
      ∃ failed found kept,
        (start (Fixtures.store Fixtures.kid)).history Fixtures.config Fixtures.service.policy
          outage = [failed, found, kept] ∧
        failed.result = .error (.keyLookup Fixtures.kid .timeout) ∧
        (failed.kid = Fixtures.kid ∧ found.kid = Fixtures.kid ∧ kept.kid = Fixtures.kid) ∧
        found.result = .ok Fixtures.primaryPair.publicPem ∧
        kept.before.state.source.inner.contains Fixtures.kid = false :=
    ⟨_, _, _, rfl, rfl, ⟨rfl, rfl, rfl⟩, rfl, rfl⟩
  obtain ⟨hfailedKid, hfoundKid, hkeptKid⟩ := hkids
  refine ⟨failed, found, kept, hhistory, hfailed, ?_, hfound, hgone, ?_⟩
  · have hnone := ((hretry [] failed [found, kept] hhistory _ hfailed).2 [] found [kept] rfl
      (hfoundKid.trans hfailedKid.symm) (by simp)).1
    rwa [hfoundKid] at hnone
  · exact hlater [failed, found] kept [] hhistory found (by simp)
      (hfoundKid.trans hkeptKid.symm) Fixtures.primaryPair.publicPem hfound

end Session

end BearerAuth
