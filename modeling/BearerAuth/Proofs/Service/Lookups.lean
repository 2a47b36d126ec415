import Mathlib
import BearerAuth.Fixtures
import BearerAuth.Proofs.Service.Steps
import BearerAuth.Proofs.Token.NamedKey

/-!
# Which keys are looked up

Key ids come from the headers of tokens, which anyone can write.  This file watches the one place at
which authentication hands a key id on.  `authenticateBy` is authentication over any way of looking
keys up; with the way of the library it is `authenticate` (`authenticate_eq_authenticateBy`), and
with a way that keeps a record it tells which key ids were looked up (`lookups`).  In the same
manner `KeySource.recording` tells which key ids reached the source (`fetches`).

Main statement: `isMalformed_iff_lookups_eq_nil` says that malformed requests, and only they, are
refused before anything is looked up, and which key ids are looked up at all.
-/

namespace BearerAuth

variable {σ τ : Type}

/-! ### Records -/

/-- A source that keeps a record of the key ids for which it is asked. -/
def KeySource.recording (source : KeySource σ) : KeySource (σ × List String) where
  privatePem kid s := ((source.privatePem kid s.1).1, (source.privatePem kid s.1).2, s.2 ++ [kid])
  publicPem kid s := ((source.publicPem kid s.1).1, (source.publicPem kid s.1).2, s.2 ++ [kid])

namespace KeyCache

/-- A way of looking keys up in a state. -/
abbrev Way (τ : Type) := String → τ → Except AuthFailure String × τ × List Event

/-- The way of the library. -/
def way (source : KeySource σ) (fetchBlocked : Bool) : Way (ServiceState σ) := fun kid s =>
  ((lookup source fetchBlocked kid s).result, (lookup source fetchBlocked kid s).state,
    (lookup source fetchBlocked kid s).events)

/-- A way that also keeps a record of the key ids that are looked up. -/
def Way.recording (look : Way τ) : Way (τ × List String) := fun kid s =>
  ((look kid s.1).1, ((look kid s.1).2.1, s.2 ++ [kid]), (look kid s.1).2.2)

end KeyCache

namespace AuthService

/-- Authentication over any way of looking keys up. -/
def authenticateBy (svc : AuthService σ) (now : Clock) (look : KeyCache.Way τ) (bearer : String)
    (s : τ) : Ending AuthFailure Claims × τ × List Event :=
  match bearerToken? bearer with
  | none => (.error .malformedHeader, s, [])
  | some token =>
      match Token.namedKid token with
      | .error e => (.error e, s, [])
      | .ok kid =>
          match look kid s with
          | (.error e, next, events) => (.error e, next, events)
          | (.ok pem, next, events) =>
              ((svc.judgeToken now pem token).1, next, events ++ (svc.judgeToken now pem token).2)

/-- The key ids that authentication looks up. -/
def lookups (svc : AuthService σ) (around : Surroundings) (bearer : String)
    (s : ServiceState σ) : List String :=
  (svc.authenticateBy around.now (KeyCache.way svc.source around.fetchBlocked).recording bearer
    (s, [])).2.1.2

/-- The service over a source that keeps a record. -/
def recording (svc : AuthService σ) : AuthService (σ × List String) :=
  ⟨svc.config, svc.source.recording, svc.policy⟩

/-- The key ids for which authentication asks the source. -/
def fetches (svc : AuthService σ) (around : Surroundings) (bearer : String)
    (s : ServiceState σ) : List String :=
  (svc.recording.authenticate around bearer ⟨s.cache, s.source, []⟩).state.source.2

variable (svc : AuthService σ) (around : Surroundings) (bearer : String) (s : ServiceState σ)

/-- Authentication looks keys up in the way of the library. -/
theorem authenticate_eq_authenticateBy :
    svc.authenticateBy around.now (KeyCache.way svc.source around.fetchBlocked) bearer s =
      ((svc.authenticate around bearer s).result, (svc.authenticate around bearer s).state,
        (svc.authenticate around bearer s).events) := by
  unfold authenticateBy KeyCache.way
  rcases authenticate_cases svc around bearer s with ⟨htoken, heq⟩ | ⟨token, e, htoken, hkid, heq⟩ |
    ⟨token, kid, e, htoken, hkid, hfound, heq⟩ | ⟨token, kid, pem, htoken, hkid, hfound, heq⟩
  · simp [htoken, heq]
  · simp [htoken, hkid, heq]
  · simp [htoken, hkid, hfound, heq]
  · simp [htoken, hkid, hfound, heq]

/-- Where two ways agree as far as a view of the one's states shows, authentication agrees. -/
theorem authenticateBy_view {υ : Type} (now : Clock) (look : KeyCache.Way τ)
    (other : KeyCache.Way υ) (view : υ → τ) (s : υ)
    (h : ∀ kid, look kid (view s) = ((other kid s).1, view (other kid s).2.1, (other kid s).2.2)) :
    svc.authenticateBy now look bearer (view s) =
      ((svc.authenticateBy now other bearer s).1, view (svc.authenticateBy now other bearer s).2.1,
        (svc.authenticateBy now other bearer s).2.2) := by
  unfold authenticateBy
  split
  · rfl
  · split
    · rfl
    · rename_i kid _
      rw [h]
      rcases other kid s with ⟨_ | pem, next, events⟩ <;> rfl

/-- Keeping a record does not change what authentication comes to. -/
theorem authenticateBy_recording (now : Clock) (look : KeyCache.Way τ) (s : τ)
    (record : List String) :
    svc.authenticateBy now look bearer s =
      ((svc.authenticateBy now look.recording bearer (s, record)).1,
        (svc.authenticateBy now look.recording bearer (s, record)).2.1.1,
        (svc.authenticateBy now look.recording bearer (s, record)).2.2) :=
  svc.authenticateBy_view bearer now look look.recording Prod.fst (s, record) fun _ => rfl

/-- The record of lookups is that of the authentication itself. -/
theorem result_authenticateBy_recording :
    (svc.authenticateBy around.now (KeyCache.way svc.source around.fetchBlocked).recording bearer
      (s, [])).1 = (svc.authenticate around bearer s).result := by
  have hlibrary := svc.authenticate_eq_authenticateBy around bearer s
  rw [svc.authenticateBy_recording bearer around.now _ s []] at hlibrary
  exact (Prod.ext_iff.mp hlibrary).1

/-- A source that keeps a record answers like the source itself. -/
theorem result_lookup_recording (source : KeySource σ) (fetchBlocked : Bool) (kid : String) :
    (KeyCache.lookup source.recording fetchBlocked kid ⟨s.cache, s.source, []⟩).result =
      (KeyCache.lookup source fetchBlocked kid s).result := by
  unfold KeyCache.lookup
  dsimp only
  split
  · rfl
  · split
    · rfl
    · rcases hsource : source.publicPem kid s.source with ⟨_ | pem, next⟩ <;>
        simp [KeySource.recording, hsource]

/-- The record of what the source was asked is that of the authentication itself. -/
theorem result_authenticate_recording :
    (svc.recording.authenticate around bearer ⟨s.cache, s.source, []⟩).result =
      (svc.authenticate around bearer s).result := by
  unfold authenticate
  dsimp only [recording]
  split
  · rfl
  · split
    · rfl
    · rename_i kid _
      rw [result_lookup_recording]
      split <;> rfl

/-! ### What is looked up -/

/-- Nothing is looked up, or the key id that the token of the header names. -/
theorem lookups_eq :
    svc.lookups around bearer s =
      match bearerToken? bearer with
      | none => []
      | some token =>
          match Token.namedKid token with
          | .error _ => []
          | .ok kid => [kid] := by
  unfold lookups authenticateBy KeyCache.Way.recording KeyCache.way
  split
  · rfl
  · split
    · rfl
    · rename_i kid _
      dsimp only
      rcases (KeyCache.lookup svc.source around.fetchBlocked kid s).result with e | pem <;> rfl

/-- A lookup asks the source for its own key id at most. -/
theorem record_lookup_subset (source : KeySource σ) (fetchBlocked : Bool) (kid : String)
    (cache : KeyCache) (start : σ) :
    (KeyCache.lookup source.recording fetchBlocked kid ⟨cache, start, []⟩).state.source.2 ⊆
      [kid] := by
  rcases KeyCache.lookup_cases source.recording fetchBlocked kid ⟨cache, start, []⟩ with
    ⟨_, -, heq⟩ | ⟨-, -, heq⟩ | ⟨_, next, -, -, hsource, heq⟩ | ⟨_, next, -, -, hsource, heq⟩
  · simp [heq]
  · simp [heq]
  · have hrecord : next.2 = [] ++ [kid] := (congrArg (·.2.2) hsource).symm
    simp [heq, hrecord]
  · have hrecord : next.2 = [] ++ [kid] := (congrArg (·.2.2) hsource).symm
    simp [heq, hrecord]

/-- The source is only asked for key ids that are looked up. -/
theorem fetches_subset_lookups : svc.fetches around bearer s ⊆ svc.lookups around bearer s := by
  rw [lookups_eq]
  unfold fetches
  rcases authenticate_cases svc.recording around bearer ⟨s.cache, s.source, []⟩ with
    ⟨htoken, heq⟩ | ⟨token, e, htoken, hkid, heq⟩ | ⟨token, kid, e, htoken, hkid, -, heq⟩ |
    ⟨token, kid, pem, htoken, hkid, -, heq⟩
  · simp [htoken, heq]
  · simp [htoken, hkid, heq]
  · simp only [htoken, hkid, heq]
    exact record_lookup_subset svc.source around.fetchBlocked kid s.cache s.source
  · simp only [htoken, hkid, heq]
    exact record_lookup_subset svc.source around.fetchBlocked kid s.cache s.source

/-- A failure is the fault of the request exactly if nothing was looked up. -/
theorem isMalformed_iff {e : AuthFailure}
    (h : (svc.authenticate around bearer s).result = .error e) :
    e.isMalformed ↔ svc.lookups around bearer s = [] := by
  rw [lookups_eq]
  rcases authenticate_cases svc around bearer s with ⟨htoken, heq⟩ |
    ⟨token, e', htoken, hkid, heq⟩ | ⟨token, kid, e', htoken, hkid, hfound, heq⟩ |
    ⟨token, kid, pem, htoken, hkid, hfound, heq⟩ <;> rw [heq] at h
  · cases h
    simp [htoken, AuthFailure.isMalformed]
  · cases h
    simp [htoken, hkid, Token.isMalformed_of_namedKid hkid]
  · obtain ⟨failure, rfl⟩ := KeyCache.eq_keyLookup_of_lookup hfound
    cases h
    simp [htoken, hkid, AuthFailure.isMalformed]
  · obtain rfl := judgeToken_eq_error h
    simp [htoken, hkid, AuthFailure.isMalformed]

/-- Where nothing is looked up, nothing changes. -/
theorem state_eq_of_lookups_eq_nil (h : svc.lookups around bearer s = []) :
    (svc.authenticate around bearer s).state = s := by
  rw [lookups_eq] at h
  rcases authenticate_cases svc around bearer s with ⟨htoken, heq⟩ |
    ⟨token, e, htoken, hkid, heq⟩ | ⟨token, kid, e, htoken, hkid, hfound, heq⟩ |
    ⟨token, kid, pem, htoken, hkid, hfound, heq⟩
  · rw [heq]
  · rw [heq]
  · simp [htoken, hkid] at h
  · simp [htoken, hkid] at h

/-- A failure to find a key names the key id that was looked up. -/
theorem lookups_eq_of_keyLookup {kid : String} {failure : KeyFailure}
    (h : (svc.authenticate around bearer s).result = .error (.keyLookup kid failure)) :
    svc.lookups around bearer s = [kid] := by
  rw [lookups_eq]
  rcases authenticate_cases svc around bearer s with ⟨htoken, heq⟩ |
    ⟨token, e, htoken, hkid, heq⟩ | ⟨token, found, e, htoken, hkid, hfound, heq⟩ |
    ⟨token, found, pem, htoken, hkid, hfound, heq⟩ <;> rw [heq] at h
  · cases h
  · cases h
    have hmalformed := Token.isMalformed_of_namedKid hkid
    cases hmalformed
  · cases h
    obtain ⟨_, hnames⟩ := KeyCache.eq_keyLookup_of_lookup hfound
    cases hnames
    simp [htoken, hkid]
  · cases judgeToken_eq_error h

/-- The header from which a key id is taken: that of the token behind the scheme, which is an object
whose members name the accepted algorithm and the key id. -/
def NamesKey (bearer kid : String) : Prop :=
  ∃ token pieces header members, bearer = "Bearer " ++ token ∧
    Token.segments? token = some pieces ∧ Token.decodeSegment pieces.header = some header ∧
    Token.readObject header = .ok members ∧
    (Token.lastMember? "alg" members).bind Token.textOfValue? = some "RS256" ∧
    (Token.lastMember? "kid" members).bind Token.textOfValue? = some kid

/-- What is looked up is a key id, and the header names it. -/
theorem of_mem_lookups {kid : String} (h : kid ∈ svc.lookups around bearer s) :
    KeyId.Valid kid ∧ NamesKey bearer kid := by
  rw [lookups_eq] at h
  split at h
  · simp at h
  · rename_i token htoken
    split at h
    · simp at h
    · rename_i found hkid
      obtain rfl : kid = found := by simpa using h
      obtain ⟨pieces, header, members, -, hpieces, hheader, hread, -, halg, hnamed, hvalid⟩ :=
        Token.namedKid_eq_ok_iff.mp hkid
      exact ⟨hvalid, token, pieces, header, members, (bearerToken?_eq_some_iff.mp htoken).1,
        hpieces, hheader, hread, halg, hnamed⟩

/-! ### Main statement -/

/-- Malformed requests, and only they, are refused before any key is looked up, and then nothing has
changed and the source has not been asked.  (The two records are kept without a change to what
authentication comes to.)  Whatever is looked up, and hence whatever the source is
asked for, consists of 1 to 256 visible ASCII characters, cannot lead out of a directory, and is
named by a header with the accepted algorithm; a failed lookup is reported under that name. -/
theorem isMalformed_iff_lookups_eq_nil :
    ((svc.authenticateBy around.now (KeyCache.way svc.source around.fetchBlocked).recording bearer
      (s, [])).1 = (svc.authenticate around bearer s).result ∧
      (svc.recording.authenticate around bearer ⟨s.cache, s.source, []⟩).result =
        (svc.authenticate around bearer s).result) ∧
    (∀ e, (svc.authenticate around bearer s).result = .error e →
      (e.isMalformed ↔ svc.lookups around bearer s = []) ∧
      (e.isMalformed →
        (svc.authenticate around bearer s).state = s ∧ svc.fetches around bearer s = []) ∧
      ∀ kid failure, e = .keyLookup kid failure → svc.lookups around bearer s = [kid]) ∧
    svc.fetches around bearer s ⊆ svc.lookups around bearer s ∧
    ∀ kid ∈ svc.lookups around bearer s,
      KeyId.check kid = .ok () ∧ 1 ≤ kid.utf8ByteSize ∧ kid.utf8ByteSize ≤ 256 ∧
        (∀ c ∈ kid.toList, 0x21 ≤ c.toNat ∧ c.toNat ≤ 0x7E) ∧
        '/' ∉ kid.toList ∧ '\\' ∉ kid.toList ∧ ¬ ['.', '.'] <:+: kid.toList ∧
        NamesKey bearer kid := by
  have hfetches := svc.fetches_subset_lookups around bearer s
  refine ⟨⟨svc.result_authenticateBy_recording around bearer s,
    svc.result_authenticate_recording around bearer s⟩,
    fun e he => ⟨svc.isMalformed_iff around bearer s he, fun hmalformed => ?_, ?_⟩,
    hfetches, fun kid hkid => ?_⟩
  · have hnone := (svc.isMalformed_iff around bearer s he).mp hmalformed
    rw [hnone] at hfetches
    exact ⟨svc.state_eq_of_lookups_eq_nil around bearer s hnone, List.subset_nil.mp hfetches⟩
  · rintro kid failure rfl
    exact svc.lookups_eq_of_keyLookup around bearer s he
  · obtain ⟨hvalid, hnames⟩ := svc.of_mem_lookups around bearer s hkid
    obtain ⟨hne, hlength, hgraphic, hslash, hbackslash, hdots⟩ := KeyId.valid_iff.mp hvalid
    exact ⟨hvalid, hne, hlength, hgraphic, hslash, hbackslash, hdots, hnames⟩

/-- A token that names a key nobody has is looked up, once, and is not the fault of the request. -/
theorem isMalformed_iff_lookups_eq_nil_unknown_key :
    let bearer := Fixtures.bearer
      (Fixtures.unsignedToken "\x7b\"alg\":\"RS256\",\"kid\":\"k\"\x7d" "\x7b\x7d")
    let failure := AuthFailure.keyLookup "k" (.notFound "k")
    (Fixtures.service.authenticate ⟨0, false⟩ bearer Fixtures.start).result = .error failure ∧
      (failure.isMalformed ↔ Fixtures.service.lookups ⟨0, false⟩ bearer Fixtures.start = []) ∧
      Fixtures.service.lookups ⟨0, false⟩ bearer Fixtures.start = ["k"] ∧
      KeyId.check "k" = .ok () := by
  intro bearer failure
  have hresult : (Fixtures.service.authenticate ⟨0, false⟩ bearer Fixtures.start).result =
      .error failure := by decide +kernel
  obtain ⟨-, hfailures, -, hlookups⟩ :=
    Fixtures.service.isMalformed_iff_lookups_eq_nil ⟨0, false⟩ bearer Fixtures.start
  obtain ⟨hiff, -, hnames⟩ := hfailures failure hresult
  have hone := hnames "k" (.notFound "k") rfl
  have hmem : "k" ∈ Fixtures.service.lookups ⟨0, false⟩ bearer Fixtures.start := by simp [hone]
  exact ⟨hresult, hiff, hone, (hlookups "k" hmem).1⟩

end AuthService

end BearerAuth
