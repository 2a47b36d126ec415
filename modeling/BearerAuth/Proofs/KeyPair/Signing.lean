import Mathlib
import BearerAuth.Proofs.KeyPair.Rereading
import BearerAuth.Proofs.Token.Signed

/-!
# Pairs that sign

Which pairs can be used to sign is not decided when a pair is read but anew for every message, by
the rules of another reading.  `KeyPair.SuitsSigning` says what these rules come to for a pair whose
numbers fit together: most of them hold of every pair, and what is left is about sizes.

Main statements: `KeyPair.suitsSigning_iff` and `KeyPair.exists_encode_of_primes`.
-/

namespace BearerAuth

/-! ### Binary digits -/

namespace Rsa

theorem bitLength_le_iff {n bits : Nat} : bitLength n ≤ bits ↔ n < 2 ^ bits := by
  constructor
  · intro h
    exact lt_of_lt_of_le (lt_two_pow_bitLength n) (Nat.pow_le_pow_right (by decide) h)
  · intro h
    unfold bitLength
    split
    · exact Nat.zero_le _
    · rename_i hn
      exact Nat.succ_le_of_lt ((Nat.log2_lt hn).mpr h)

theorem lt_bitLength_iff {n bits : Nat} : bits < bitLength n ↔ 2 ^ bits ≤ n := by
  rw [← Nat.not_le, bitLength_le_iff, Nat.not_lt]

/-- A byte is eight binary digits. -/
theorem byteLength_eq (n : Nat) : Bytes.byteLength n = (bitLength n + 7) / 8 := by
  unfold Bytes.byteLength bitLength
  split
  · rfl
  · omega

/-- A product has as many binary digits as its factors together, or one less. -/
theorem bitLength_mul {n m a b : Nat} (hn : bitLength n = a + 1) (hm : bitLength m = b + 1) :
    a + b + 1 ≤ bitLength (n * m) ∧ bitLength (n * m) ≤ a + b + 2 := by
  have hlow1 : 2 ^ a ≤ n := lt_bitLength_iff.mp (by omega)
  have hlow2 : 2 ^ b ≤ m := lt_bitLength_iff.mp (by omega)
  have hhigh1 : n < 2 ^ (a + 1) := bitLength_le_iff.mp hn.le
  have hhigh2 : m < 2 ^ (b + 1) := bitLength_le_iff.mp hm.le
  constructor
  · refine lt_bitLength_iff.mpr ?_
    rw [pow_add]
    exact Nat.mul_le_mul hlow1 hlow2
  · refine bitLength_le_iff.mpr ?_
    calc n * m < 2 ^ (a + 1) * 2 ^ (b + 1) := Nat.mul_lt_mul'' hhigh1 hhigh2
      _ = 2 ^ (a + b + 2) := by rw [← pow_add]; congr 1; omega

end Rsa

namespace KeyPair

variable {p : KeyPair} {k : Rsa.PrivateKey}

/-! ### Suitable pairs -/

/-- The sizes of primes that signing works with, in bits. -/
def primeSizes : List Nat := [1024, 1536, 2048]

/-- What a pair has to be for signing to work with it. -/
structure SuitsSigning (p : KeyPair) : Prop where
  /-- The shortcuts for computing with the private half exist. -/
  coprime : Nat.Coprime p.prime1 p.prime2
  odd : p.modulus % 2 = 1
  size : bitLength p.prime1 ∈ primeSizes
  sameSize : bitLength p.prime2 = bitLength p.prime1
  publicExponent : 65537 ≤ p.publicExponent
  /-- The private exponent is not a short one. -/
  privateExponent_long : bitLength p.prime1 < bitLength p.privateExponent
  privateExponent_lt : p.privateExponent < p.modulus

/-- A modulus has the size that signing works with if its factors have. -/
theorem bitLength_modulus {half : Nat} (hhalf : 0 < half) (h1 : bitLength p.prime1 = half)
    (h2 : bitLength p.prime2 = half) : (bitLength p.modulus + 1) / 2 = half := by
  obtain ⟨-, -, hmodulus, -, -⟩ := isConsistentPair_iff.mp p.consistent
  obtain ⟨size, rfl⟩ : ∃ size, half = size + 1 := ⟨half - 1, by omega⟩
  have hbounds := Rsa.bitLength_mul h1 h2
  rw [hmodulus] at hbounds
  omega

/-- The exponents of a pair with an odd modulus are odd, and so are the factors and the
shortcuts. -/
theorem odd_numbers (h : p.modulus % 2 = 1) :
    p.prime1 % 2 = 1 ∧ p.prime2 % 2 = 1 ∧ p.publicExponent % 2 = 1 ∧
      p.privateExponent % 2 = 1 ∧ p.privateExponent % (p.prime1 - 1) % 2 = 1 ∧
      p.privateExponent % (p.prime2 - 1) % 2 = 1 := by
  obtain ⟨-, -, hmodulus, hexponent1, -⟩ := isConsistentPair_iff.mp p.consistent
  have hprimes : Odd (p.prime1 * p.prime2) := Nat.odd_iff.mpr (hmodulus ▸ h)
  obtain ⟨hprime1, hprime2⟩ := Nat.odd_mul.mp hprimes
  have heven1 : 2 ∣ p.prime1 - 1 := (Nat.Odd.sub_odd hprime1 odd_one).two_dvd
  have heven2 : 2 ∣ p.prime2 - 1 := (Nat.Odd.sub_odd hprime2 odd_one).two_dvd
  have hexponents : Odd (p.privateExponent * p.publicExponent) := by
    rw [Nat.odd_iff, ← Nat.mod_mod_of_dvd _ heven1, hexponent1]
  obtain ⟨hprivate, hpublic⟩ := Nat.odd_mul.mp hexponents
  rw [Nat.odd_iff] at hprime1 hprime2 hprivate hpublic
  refine ⟨hprime1, hprime2, hpublic, hprivate, ?_, ?_⟩
  · rw [Nat.mod_mod_of_dvd _ heven1, hprivate]
  · rw [Nat.mod_mod_of_dvd _ heven2, hprivate]

/-- A pair suits signing if and only if its private half is one that signing works with. -/
theorem suitsSigning_iff :
    p.SuitsSigning ↔ ∃ k, p.privateKey? = some k ∧ k.isUsable = true := by
  obtain ⟨-, hpublic, hmodulus, -, -⟩ := isConsistentPair_iff.mp p.consistent
  constructor
  · intro h
    obtain ⟨k, hk⟩ := exists_privateKey?_iff.mpr h.coprime
    obtain ⟨coefficient, hinverse, rfl⟩ := privateKey?_eq_some_iff.mp hk
    refine ⟨_, hk, ?_⟩
    obtain ⟨hlt1, hlt2⟩ := one_lt_primes p
    have hrest1 : p.privateExponent % (p.prime1 - 1) < p.prime1 - 1 := Nat.mod_lt _ (by omega)
    have hrest2 : p.privateExponent % (p.prime2 - 1) < p.prime2 - 1 := Nat.mod_lt _ (by omega)
    have hcoefficient : coefficient < p.prime1 := Rsa.inverse?_lt (by omega) hinverse
    have hone : coefficient * p.prime2 % p.prime1 = 1 := by
      rw [Nat.mul_comm]
      exact Rsa.inverse?_spec hinverse
    obtain ⟨hodd1, hodd2, hoddPublic, hoddPrivate, hoddRest1, hoddRest2⟩ := odd_numbers h.odd
    have hsizes : bitLength p.prime1 = 1024 ∨ bitLength p.prime1 = 1536 ∨
        bitLength p.prime1 = 2048 := by
      simpa [primeSizes] using h.size
    have hhalf : (bitLength p.modulus + 1) / 2 = bitLength p.prime1 :=
      bitLength_modulus (by omega) rfl h.sameSize
    have hbytes := Rsa.byteLength_eq p.modulus
    have hlong := h.privateExponent_long
    simp only [Rsa.PrivateKey.isUsable, Bool.and_eq_true, decide_eq_true_eq, and_assoc]
    refine ⟨h.odd, by omega, by omega, hoddPublic, h.publicExponent, hpublic, hodd1, hhalf.symm,
      by omega, hodd2, by rw [h.sameSize, hhalf], ?_, hoddPrivate, by omega, h.privateExponent_lt,
      hoddRest1, by omega, hoddRest2, by omega, hcoefficient, hone⟩
    rw [hmodulus, Nat.mod_self]
  · rintro ⟨k, hk, husable⟩
    obtain ⟨coefficient, hinverse, rfl⟩ := privateKey?_eq_some_iff.mp hk
    simp only [Rsa.PrivateKey.isUsable, Bool.and_eq_true, decide_eq_true_eq, and_assoc] at husable
    obtain ⟨hodd, hbytes, hbits, -, hlow, -, -, hsize1, hwhole, -, hsize2, -, -, hlong, hlt, -⟩ :=
      husable
    rw [Rsa.byteLength_eq] at hbytes
    refine ⟨(Rsa.coprime_of_inverse? hinverse).symm, hodd, ?_, by rw [hsize2, hsize1], hlow,
      by rw [hsize1]; exact hlong, hlt⟩
    have hsizes : bitLength p.prime1 = 1024 ∨ bitLength p.prime1 = 1536 ∨
        bitLength p.prime1 = 2048 := by omega
    simpa [primeSizes] using hsizes

/-! ### Putting tokens together -/

/-- A suitable pair of primes signs all claims. -/
theorem exists_encode_of_primes (hprimes : p.HasPrimes) (h : p.SuitsSigning) (claims : Claims)
    (kid : String) :
    ∃ token pem, p.privatePem = .ok pem ∧ Token.encode claims kid pem = .ok token := by
  obtain ⟨k, hk, husable⟩ := suitsSigning_iff.mp h
  obtain ⟨signature, hsign⟩ :=
    exists_sign_of_primes hprimes hk husable (utf8 (Token.signingInput claims kid))
  apply exists_encode
  rw [hk, Option.bind_some, hsign]
  rfl

/-- With the text of a suitable pair either a token is put together, or the signature does not
verify under the pair itself. -/
theorem encode_of_suitsSigning (h : p.SuitsSigning) (claims : Claims) (kid : String) :
    ∃ pem, p.privatePem = .ok pem ∧
      ((∃ token, Token.encode claims kid pem = .ok token) ∨
        Token.encode claims kid pem = .error (.signing .inconsistentKey)) := by
  obtain ⟨k, hk, husable⟩ := suitsSigning_iff.mp h
  obtain ⟨material, hmaterial, hkey⟩ := readPrivate_privatePem husable
  refine ⟨_, privatePem_eq_ok_iff.mpr ⟨k, hk, rfl⟩, ?_⟩
  cases hsign : k.sign (utf8 (Token.signingInput claims kid)) with
  | ok signature =>
    exact .inl ⟨_, Token.encode_eq_ok_iff.mpr ⟨material, k, signature, hmaterial, hkey, hsign, rfl⟩⟩
  | error refusal =>
    have hinconsistent : refusal = .inconsistent := by
      rw [Rsa.PrivateKey.sign, if_pos husable] at hsign
      dsimp only at hsign
      split at hsign
      · cases hsign
      · exact (Except.error.inj hsign).symm
    right
    simp only [Token.encode, hmaterial, hkey, hsign, hinconsistent]

/-- With the text of a pair that does not suit signing nothing is signed. -/
theorem encode_of_not_suitsSigning (h : ¬ p.SuitsSigning) {k : Rsa.PrivateKey}
    (hk : p.privateKey? = some k) {pem : String} (hpem : p.privatePem = .ok pem) (claims : Claims)
    (kid : String) :
    KeyMaterial.ofPem? pem = none ∧ Token.encode claims kid pem = .error (.keyParse kid) ∨
      Token.encode claims kid pem =
        .error (.signing (.unsuitableKey (Der.encodePrivateKey k))) := by
  obtain ⟨k', hk', rfl⟩ := privatePem_eq_ok_iff.mp hpem
  obtain rfl : k = k' := Option.some.inj (hk.symm.trans hk')
  have hunusable : k.isUsable = false := by
    rw [← Bool.not_eq_true]
    intro husable
    exact h (suitsSigning_iff.mpr ⟨k, hk, husable⟩)
  unfold Token.encode
  split
  · rename_i hnone
    exact .inl ⟨hnone, rfl⟩
  · rename_i material hmaterial
    have hbytes := bytes_of_ofPem? hmaterial
    split
    · exact .inr (by rw [hbytes])
    · rename_i key hkey
      obtain rfl : key = k := eq_of_readPrivate hmaterial hkey
      have hrefused : key.sign (utf8 (Token.signingInput claims kid)) = .error .unusable := by
        rw [Rsa.PrivateKey.sign, hunusable]
        rfl
      dsimp only
      rw [hrefused, hbytes]
      exact .inr rfl

/-- If the numbers of a pair that does not suit signing are short, the reason is always the same. -/
theorem encode_of_short {size : Nat} (h : ¬ p.SuitsSigning) {k : Rsa.PrivateKey}
    (hk : p.privateKey? = some k) {pem : String} (hpem : p.privatePem = .ok pem) (hsize : 5 ≤ size)
    (hshort : 9 * (size + 7) < Der.maxContent) (hmodulus : Bytes.byteLength p.modulus ≤ size)
    (hexponent : Bytes.byteLength p.privateExponent ≤ size) (claims : Claims) (kid : String) :
    Token.encode claims kid pem = .error (.signing (.unsuitableKey (Der.encodePrivateKey k))) := by
  rcases encode_of_not_suitsSigning h hk hpem claims kid with ⟨hnone, -⟩ | hunsuitable
  · obtain ⟨k', hk', rfl⟩ := privatePem_eq_ok_iff.mp hpem
    obtain rfl : k = k' := Option.some.inj (hk.symm.trans hk')
    obtain ⟨material, hsome, -⟩ :=
      readPrivate_of_length (length_privateNumbers_lt hk hsize hshort hmodulus hexponent)
    rw [hsome] at hnone
    cases hnone
  · exact hunsuitable

/-! ### The pair of proved primes -/

/-- The pair of proved primes suits signing. -/
theorem smoothPair_suitsSigning : smoothPair.SuitsSigning :=
  suitsSigning_iff.mpr exists_privateKey_smoothPair

end KeyPair

end BearerAuth
