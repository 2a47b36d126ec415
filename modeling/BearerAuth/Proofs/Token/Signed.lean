import Mathlib
import BearerAuth.Fixtures
import BearerAuth.Proofs.KeyPair
import BearerAuth.Proofs.Token.RoundTrip

/-!
# Signed tokens

`Token.encode` puts claims and a key id together and signs them.  What it writes is read again by
functions that share nothing with it: one looks for the key id, one for the claims, and one checks
the signature.

Main statement: `Token.readers_undo_encode` says that the readers that do not check the signature
find what was put in, whatever it was.
-/

namespace BearerAuth

namespace Token

/-! ### Putting tokens together -/

/-- A token is put together from a signature that the private key in the text made. -/
theorem encode_eq_ok_iff {claims : Claims} {kid pem token : String} :
    encode claims kid pem = .ok token ↔
      ∃ material key signature, KeyMaterial.ofPem? pem = some material ∧
        material.privateKey? = some key ∧
        key.sign (utf8 (signingInput claims kid)) = .ok signature ∧
        issued claims kid signature = token := by
  unfold encode issued
  split
  · rename_i hpem
    simp [hpem]
  · rename_i material hpem
    split
    · rename_i hkey
      simp [hpem, hkey]
    · rename_i key hkey
      dsimp only
      split
      · rename_i hsign
        simp [hpem, hkey, hsign]
      · rename_i hsign
        simp [hpem, hkey, hsign]
      · rename_i signature hsign
        simp [hpem, hkey, hsign]

end Token

namespace KeyPair

/-- The token carries the claims, names the key id, and is signed under the pair. -/
def Signs (p : KeyPair) (claims : Claims) (kid token : String) : Prop :=
  ∃ signature, Token.issued claims kid signature = token ∧
    p.publicKey.verifies (utf8 (Token.signingInput claims kid)) signature = true

/-- A token that is put together with the text of a private half is signed under the pair. -/
theorem signs_of_encode {p : KeyPair} {claims : Claims} {kid pem token : String}
    (hpem : p.privatePem = .ok pem) (h : Token.encode claims kid pem = .ok token) :
    p.Signs claims kid token := by
  obtain ⟨material, key, signature, hmaterial, hkey, hsign, htoken⟩ :=
    Token.encode_eq_ok_iff.mp h
  obtain ⟨k, hk, rfl⟩ := privatePem_eq_ok_iff.mp hpem
  obtain rfl : key = k := eq_of_readPrivate hmaterial hkey
  have hverifies := Rsa.PrivateKey.verifies_of_sign hsign
  rw [publicKey_of_privateKey? hk] at hverifies
  exact ⟨signature, htoken, hverifies⟩

/-- With the text of a private half that signs, a token is put together. -/
theorem exists_encode {p : KeyPair} {claims : Claims} {kid : String}
    (h : (p.privateKey?.bind fun k =>
      (k.sign (utf8 (Token.signingInput claims kid))).toOption).isSome) :
    ∃ token pem, p.privatePem = .ok pem ∧ Token.encode claims kid pem = .ok token := by
  obtain ⟨signature, hsignature⟩ := Option.isSome_iff_exists.mp h
  obtain ⟨k, hk, htoOption⟩ := Option.bind_eq_some_iff.mp hsignature
  have hsign := Except.toOption_eq_some_iff.mp htoOption
  obtain ⟨material, hmaterial, hkey⟩ :=
    readPrivate_privatePem (Rsa.PrivateKey.sign_eq_ok_iff.mp hsign).1
  exact ⟨_, _, privatePem_eq_ok_iff.mpr ⟨k, hk, rfl⟩,
    Token.encode_eq_ok_iff.mpr ⟨material, k, signature, hmaterial, hkey, hsign, rfl⟩⟩

/-- A signed token names its key id. -/
theorem namedKid_of_signs {p : KeyPair} {claims : Claims} {kid token : String}
    (h : p.Signs claims kid token) (hkid : KeyId.Valid kid) : Token.namedKid token = .ok kid := by
  obtain ⟨signature, rfl, -⟩ := h
  exact Token.namedKid_issued claims hkid signature

/-- A signed token verifies under the text of the public half in its time. -/
theorem verify_of_signs {p : KeyPair} {claims : Claims} {kid token : String}
    {leeway : Duration} {now : Clock} (h : p.Signs claims kid token)
    (hexp : 0 ≤ claims.expiresAt.toInt) (hle : leeway.wholeSeconds ≤ now)
    (hnow : (now.toNat : Int) ≤ claims.expiresAt.toInt + leeway.wholeSeconds.toNat) :
    Token.verify token p.publicPem leeway now = .ok claims := by
  obtain ⟨signature, rfl, hverifies⟩ := h
  have husable := (Rsa.PublicKey.verifies_iff.mp hverifies).1
  obtain ⟨material, hmaterial, hkey⟩ := readPublic_publicPem husable
  exact Token.verify_issued hmaterial hkey hverifies hexp hle hnow

end KeyPair

/-! ### Reading tokens back -/

namespace Token

/-- Whatever goes into a token comes out of it again.  A token that was put together from any claims
and any key id has two dots and no space; the claims that it carries are those that were written
into it; and it names the key id that was stamped into it, or, where this is no key id, is refused
for just the rule that the key id breaks. -/
theorem readers_undo_encode {claims : Claims} {kid pem token : String}
    (h : encode claims kid pem = .ok token) :
    token.toList.count '.' = 2 ∧ ' ' ∉ token.toList ∧
      carriedClaims token = .ok claims ∧
      (KeyId.check kid = .ok () → namedKid token = .ok kid) ∧
      ∀ fault, KeyId.check kid = .error fault →
        namedKid token = .error (.tokenParse (.keyId fault)) := by
  obtain ⟨_, _, signature, -, -, -, rfl⟩ := encode_eq_ok_iff.mp h
  refine ⟨count_dot_issued claims kid signature, space_notMem_issued claims kid signature,
    carriedClaims_issued claims kid signature, ?_, ?_⟩
  · intro hvalid
    exact namedKid_issued claims hvalid signature
  · intro fault hfault
    exact namedKid_issued_eq_error claims hfault signature

/-- Claims of times far apart, with names that need care when they are written. -/
def distantClaims : Claims where
  subject := Fixtures.user.id
  issuer := "\u2028 \"issuer\" \\"
  issuedAt := Int64.minValue
  expiresAt := Int64.maxValue
  user := ⟨Fixtures.user.id, "Zoë\t😀\x00"⟩
  roles := RoleSet.ofList [.user, .admin]

/-- The first pair signs such claims even where the key id leads out of its directory; they are read
back, and the key id is refused for this. -/
theorem readers_undo_encode_distant :
    ∃ token pem, Fixtures.primaryPair.privatePem = .ok pem ∧
      encode distantClaims "../keys" pem = .ok token ∧
      token.toList.count '.' = 2 ∧ ' ' ∉ token.toList ∧
      carriedClaims token = .ok distantClaims ∧
      namedKid token = .error (.tokenParse (.keyId .pathComponent)) := by
  have hcheck : KeyId.check "../keys" = .error .pathComponent := by decide
  have hsigned : ∃ token pem, Fixtures.primaryPair.privatePem = .ok pem ∧
      encode distantClaims "../keys" pem = .ok token := by
    apply KeyPair.exists_encode
    decide +kernel
  obtain ⟨token, pem, hpem, hencode⟩ := hsigned
  obtain ⟨hdots, hspace, hclaims, -, hkid⟩ := readers_undo_encode hencode
  exact ⟨token, pem, hpem, hencode, hdots, hspace, hclaims, hkid _ hcheck⟩

end Token

end BearerAuth
