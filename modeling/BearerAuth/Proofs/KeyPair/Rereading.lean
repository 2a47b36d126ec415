import Mathlib
import BearerAuth.Proofs.KeyPair
import BearerAuth.Proofs.KeyPair.Primes
import BearerAuth.Proofs.Pem.Strict
import BearerAuth.Proofs.Rsa.Inverse

/-!
# Written pairs are read again

The strict reading undoes the writing of a private half.  The numbers that a text tells about the
shortcuts are dropped in between, and the remaining ones make up the same pair, as long as they are
short enough for their encoding to be read at all.

Main statement: `KeyPair.ofPem?_encode_iff`.
-/

namespace BearerAuth

namespace KeyPair

variable {pem : String} {p p' : KeyPair} {k : Rsa.PrivateKey}

/-! ### The numbers of a pair -/

/-- The factors of the modulus are greater than one. -/
theorem one_lt_primes (p : KeyPair) : 1 < p.prime1 ∧ 1 < p.prime2 := by
  obtain ⟨hlow, -, -, hexponent1, hexponent2⟩ := isConsistentPair_iff.mp p.consistent
  have hne : p.privateExponent * p.publicExponent ≠ 1 := by
    intro hone
    have hpublic := Nat.eq_one_of_mul_eq_one_left hone
    omega
  -- Modulo zero the product of the exponents would have to be one itself.
  constructor
  · by_contra hle
    rw [Nat.sub_eq_zero_of_le (Nat.not_lt.mp hle), Nat.mod_zero] at hexponent1
    exact hne hexponent1
  · by_contra hle
    rw [Nat.sub_eq_zero_of_le (Nat.not_lt.mp hle), Nat.mod_zero] at hexponent2
    exact hne hexponent2

/-- The factors of the modulus do not exceed it. -/
theorem primes_le_modulus (p : KeyPair) : p.prime1 ≤ p.modulus ∧ p.prime2 ≤ p.modulus := by
  obtain ⟨-, -, hmodulus, -, -⟩ := isConsistentPair_iff.mp p.consistent
  obtain ⟨hprime1, hprime2⟩ := one_lt_primes p
  rw [← hmodulus]
  exact ⟨Nat.le_mul_of_pos_right _ (by omega), Nat.le_mul_of_pos_left _ (by omega)⟩

/-- The private half of a pair: its numbers, with shortcuts that are less than its factors. -/
theorem privateKey?_eq_some_iff :
    p.privateKey? = some k ↔ ∃ coefficient, Rsa.inverse? p.prime2 p.prime1 = some coefficient ∧
      k = ⟨p.modulus, p.publicExponent, p.privateExponent, p.prime1, p.prime2,
        p.privateExponent % (p.prime1 - 1), p.privateExponent % (p.prime2 - 1), coefficient⟩ := by
  unfold privateKey?
  cases hinverse : Rsa.inverse? p.prime2 p.prime1 with
  | none => simp
  | some coefficient => simp [eq_comm]

/-- A private half exists where the factors of the modulus have no divisor in common. -/
theorem exists_privateKey?_iff :
    (∃ k, p.privateKey? = some k) ↔ Nat.Coprime p.prime1 p.prime2 := by
  constructor
  · rintro ⟨k, hk⟩
    obtain ⟨coefficient, hinverse, -⟩ := privateKey?_eq_some_iff.mp hk
    exact (Rsa.coprime_of_inverse? hinverse).symm
  · intro hcoprime
    obtain ⟨coefficient, hinverse⟩ :=
      Rsa.exists_inverse? (one_lt_primes p).1 hcoprime.symm
    exact ⟨_, privateKey?_eq_some_iff.mpr ⟨coefficient, hinverse, rfl⟩⟩

/-- No number of a private half is longer than its modulus or its private exponent, unless these
are shorter than the longest public exponent. -/
theorem byteLength_le_of_mem {size : Nat} (hk : p.privateKey? = some k) (hsize : 5 ≤ size)
    (hmodulus : Bytes.byteLength p.modulus ≤ size)
    (hexponent : Bytes.byteLength p.privateExponent ≤ size) {n : Nat}
    (hn : n ∈ Der.privateNumbers k) : Bytes.byteLength n ≤ size := by
  obtain ⟨coefficient, hinverse, rfl⟩ := privateKey?_eq_some_iff.mp hk
  obtain ⟨-, hpublic, -, -, -⟩ := isConsistentPair_iff.mp p.consistent
  obtain ⟨hlt1, hlt2⟩ := one_lt_primes p
  obtain ⟨hle1, hle2⟩ := primes_le_modulus p
  have hshort : ∀ m ≤ p.modulus, Bytes.byteLength m ≤ size := fun m hm =>
    le_trans (Bytes.byteLength_mono hm) hmodulus
  have hcoefficient : coefficient < p.prime1 := Rsa.inverse?_lt (by omega) hinverse
  have hrest1 : p.privateExponent % (p.prime1 - 1) < p.prime1 - 1 := Nat.mod_lt _ (by omega)
  have hrest2 : p.privateExponent % (p.prime2 - 1) < p.prime2 - 1 := Nat.mod_lt _ (by omega)
  simp only [Der.privateNumbers, List.mem_cons, List.not_mem_nil, or_false] at hn
  rcases hn with rfl | rfl | rfl | rfl | rfl | rfl | rfl | rfl | rfl
  · exact Nat.zero_le _
  · exact hmodulus
  · exact le_trans (Bytes.byteLength_le (lt_of_le_of_lt hpublic (by decide))) hsize
  · exact hexponent
  · exact hshort _ hle1
  · exact hshort _ hle2
  · exact hshort _ (by omega)
  · exact hshort _ (by omega)
  · exact hshort _ (by omega)

/-! ### Reading -/

/-- The pair has the numbers of the private key; its shortcuts do not matter. -/
structure IsOf (p : KeyPair) (k : Rsa.PrivateKey) : Prop where
  modulus : p.modulus = k.modulus
  publicExponent : p.publicExponent = k.publicExponent
  privateExponent : p.privateExponent = k.privateExponent
  prime1 : p.prime1 = k.prime1
  prime2 : p.prime2 = k.prime2

theorem isOf_iff : p.IsOf k ↔ ofPrivateKey? k = some p := by
  unfold ofPrivateKey?
  constructor
  · rintro ⟨hmodulus, hpublic, hprivate, hprime1, hprime2⟩
    have hconsistent := p.consistent
    rw [hmodulus, hpublic, hprivate, hprime1, hprime2] at hconsistent
    rw [dif_pos hconsistent]
    cases p
    simp_all
  · intro h
    split at h
    · obtain rfl := Option.some.inj h
      exact ⟨rfl, rfl, rfl, rfl, rfl⟩
    · cases h

/-- There is only one pair of a private key. -/
theorem IsOf.unique (h : p.IsOf k) (h' : p'.IsOf k) : p = p' :=
  Option.some.inj ((isOf_iff.mp h).symm.trans (isOf_iff.mp h'))

/-- A pair is the pair of its private half. -/
theorem isOf_of_privateKey? (hk : p.privateKey? = some k) : p.IsOf k := by
  obtain ⟨coefficient, -, rfl⟩ := privateKey?_eq_some_iff.mp hk
  exact ⟨rfl, rfl, rfl, rfl, rfl⟩

/-- The label of a block says how the key in it is read. -/
theorem privateKeyOfBlock?_eq_some_iff {label : String} {content : Bytes} :
    privateKeyOfBlock? ⟨label, content⟩ = some k ↔
      label = privateLabel ∧ Der.readPrivateKey content = some k ∨
      label = wrappedLabel ∧ Der.readPrivateKeyInfo content = some k := by
  have hlabels : wrappedLabel ≠ privateLabel := by decide
  unfold privateKeyOfBlock?
  dsimp only
  split
  · rename_i hbare
    simp [hbare, hlabels.symm]
  · rename_i hbare
    split
    · rename_i hwrapped
      simp [hwrapped, hlabels]
    · rename_i hwrapped
      simp [hbare, hwrapped]

/-- What it takes for a text to be read as a pair. -/
theorem ofPem?_eq_some_iff :
    ofPem? pem = some p ↔ ∃ block k, Pem.Block.decode? (utf8 pem) = some block ∧
      privateKeyOfBlock? block = some k ∧ p.IsOf k := by
  simp only [ofPem?, Option.bind_eq_bind, Option.bind_eq_some_iff, isOf_iff]
  constructor
  · rintro ⟨block, hblock, k, hk, hp⟩
    exact ⟨block, k, hblock, hk, hp⟩
  · rintro ⟨block, k, hblock, hk, hp⟩
    exact ⟨block, hblock, k, hk, hp⟩

/-- A bare key that is not too long is read as its pair. -/
theorem ofPem?_of_bare (hblock : Pem.Block.decode? (utf8 pem) =
      some ⟨privateLabel, Der.encodePrivateKey k⟩)
    (hlength : ((Der.privateNumbers k).map Der.integer).flatten.length < Der.maxContent)
    (hp : p.IsOf k) : ofPem? pem = some p := by
  have hread := Der.readPrivateKey_encodePrivateKey hlength
  exact ofPem?_eq_some_iff.mpr
    ⟨_, k, hblock, privateKeyOfBlock?_eq_some_iff.mpr (.inl ⟨rfl, hread⟩), hp⟩

/-- The encoding of a private half is not much longer than its longest numbers. -/
theorem length_privateNumbers_le {size : Nat} (hk : p.privateKey? = some k) (hsize : 5 ≤ size)
    (hshort : size + 1 < Der.maxContent) (hmodulus : Bytes.byteLength p.modulus ≤ size)
    (hexponent : Bytes.byteLength p.privateExponent ≤ size) :
    ((Der.privateNumbers k).map Der.integer).flatten.length ≤ 9 * (size + 7) :=
  Der.length_integers_le
    (fun _ hn => byteLength_le_of_mem hk hsize hmodulus hexponent hn) hshort

/-- The encoding of a private half is not too long to be read if its numbers are short. -/
theorem length_privateNumbers_lt {size : Nat} (hk : p.privateKey? = some k) (hsize : 5 ≤ size)
    (hshort : 9 * (size + 7) < Der.maxContent) (hmodulus : Bytes.byteLength p.modulus ≤ size)
    (hexponent : Bytes.byteLength p.privateExponent ≤ size) :
    ((Der.privateNumbers k).map Der.integer).flatten.length < Der.maxContent :=
  lt_of_le_of_lt (length_privateNumbers_le hk hsize (by omega) hmodulus hexponent) hshort

/-- The block in the text of a private half. -/
theorem decode?_private (k : Rsa.PrivateKey) :
    Pem.Block.decode? (utf8 (Pem.Block.encode ⟨privateLabel, Der.encodePrivateKey k⟩)) =
      some ⟨privateLabel, Der.encodePrivateKey k⟩ := by
  apply Pem.Block.decode?_encode (by decide +kernel)
  exact Der.element_ne_nil _ _

/-- The text of a private half is read as the pair unless its encoding is too long to be read. -/
theorem ofPem?_encode_iff (hk : p.privateKey? = some k) :
    ofPem? (Pem.Block.encode ⟨privateLabel, Der.encodePrivateKey k⟩) = some p ↔
      ((Der.privateNumbers k).map Der.integer).flatten.length < Der.maxContent := by
  constructor
  · intro h
    obtain ⟨block, key, hblock, hkey, -⟩ := ofPem?_eq_some_iff.mp h
    obtain rfl := Option.some.inj ((decode?_private k).symm.trans hblock)
    rcases privateKeyOfBlock?_eq_some_iff.mp hkey with ⟨-, hread⟩ | ⟨hlabel, -⟩
    · exact (Der.readPrivateKey_encodePrivateKey_eq_some hread).2
    · exact absurd hlabel (by decide)
  · intro hlength
    exact ofPem?_of_bare (decode?_private k) hlength (isOf_of_privateKey? hk)

/-- The text of a private half that is not too long is read as the pair. -/
theorem ofPem?_privatePem {size : Nat} (hpem : p.privatePem = .ok pem)
    (hsize : 5 ≤ size) (hshort : 9 * (size + 7) < Der.maxContent)
    (hmodulus : Bytes.byteLength p.modulus ≤ size)
    (hexponent : Bytes.byteLength p.privateExponent ≤ size) : ofPem? pem = some p := by
  obtain ⟨k, hk, rfl⟩ := privatePem_eq_ok_iff.mp hpem
  exact (ofPem?_encode_iff hk).mpr (length_privateNumbers_lt hk hsize hshort hmodulus hexponent)

end KeyPair

end BearerAuth
