import Mathlib
import BearerAuth.Proofs.Der.Wrapping
import BearerAuth.Proofs.KeyPair.Rereading

/-!
# Key texts in their normal form

Whatever a text that is read as a pair was like, the pair is written in one way, and what is written
is read as the same pair.  The shortcuts that a text tells are not kept, and a key that is held
together with its algorithm is the key alone.

Not every pair that is read can be written.  Nobody looks at whether the factors of a modulus are
primes, or at whether they are different, but the writer needs the inverse of one of them modulo the
other.

Main statement: `KeyPair.read_pair_stays`.
-/

namespace BearerAuth

namespace Der

/-- The encoding of a private key is longer than each of its numbers. -/
theorem byteLength_lt_length_encodePrivateKey {k : Rsa.PrivateKey} {n : Nat}
    (hn : n ∈ privateNumbers k) : Bytes.byteLength n < (encodePrivateKey k).length := by
  have hcontent : Bytes.byteLength n ≤ (integerContent n).length := by
    rw [← Bytes.length_ofNat]
    unfold integerContent
    split
    · rename_i hbytes
      rw [hbytes]
      exact Nat.zero_le _
    · rename_i x rest hbytes
      rw [hbytes]
      split
      · exact le_rfl
      · exact Nat.le_succ _
  have hinteger : (integerContent n).length < (integer n).length := length_lt_element _ _
  have hnumbers : (integer n).length ≤ ((privateNumbers k).map integer).flatten.length := by
    have hsublist := List.sublist_flatten_of_mem (List.mem_map_of_mem (f := integer) hn)
    exact hsublist.length_le
  have hkey : ((privateNumbers k).map integer).flatten.length < (encodePrivateKey k).length :=
    length_lt_element _ _
  omega

end Der

namespace KeyPair

variable {pem : String} {p : KeyPair} {k : Rsa.PrivateKey}

/-! ### The key in a text -/

/-- A text carries a private key, alone or together with its algorithm. -/
inductive Carries (pem : String) (k : Rsa.PrivateKey) : Prop
  | bare (hblock : Pem.Block.decode? (utf8 pem) = some ⟨privateLabel, Der.encodePrivateKey k⟩)
  | wrapped {info : Bytes} (hblock : Pem.Block.decode? (utf8 pem) = some ⟨wrappedLabel, info⟩)
      (hinfo : Der.IsWrapping info (Der.encodePrivateKey k))

/-- A text that is read as a pair carries a private key. -/
theorem exists_carries (h : ofPem? pem = some p) : ∃ k, Carries pem k := by
  obtain ⟨⟨label, content⟩, k, hblock, hk, -⟩ := ofPem?_eq_some_iff.mp h
  refine ⟨k, ?_⟩
  rcases privateKeyOfBlock?_eq_some_iff.mp hk with ⟨rfl, hread⟩ | ⟨rfl, hread⟩
  · obtain ⟨rfl, -⟩ := Der.readPrivateKey_eq_some_iff.mp hread
    exact .bare hblock
  · obtain ⟨key, hinfo, hkey⟩ := Der.exists_isWrapping hread
    obtain ⟨rfl, -⟩ := Der.readPrivateKey_eq_some_iff.mp hkey
    exact .wrapped hblock hinfo

/-- The key that a text carries is the one of which it is read as the pair. -/
theorem Carries.isOf (hk : Carries pem k) (h : ofPem? pem = some p) : p.IsOf k := by
  obtain ⟨⟨label, content⟩, key, hdecoded, hkey, hp⟩ := ofPem?_eq_some_iff.mp h
  have hlabels : wrappedLabel ≠ privateLabel := by decide
  -- Whatever the label is, the key that is read is read from the encoding of the one carried.
  have hread : Der.readPrivateKey (Der.encodePrivateKey k) = some key := by
    cases hk with
    | bare hblock =>
      obtain ⟨rfl, rfl⟩ := Pem.Block.mk.inj (Option.some.inj (hdecoded.symm.trans hblock))
      rcases privateKeyOfBlock?_eq_some_iff.mp hkey with ⟨-, hread⟩ | ⟨hlabel, -⟩
      · exact hread
      · exact absurd hlabel hlabels.symm
    | wrapped hblock hinfo =>
      obtain ⟨rfl, rfl⟩ := Pem.Block.mk.inj (Option.some.inj (hdecoded.symm.trans hblock))
      rcases privateKeyOfBlock?_eq_some_iff.mp hkey with ⟨hlabel, -⟩ | ⟨-, hread⟩
      · exact absurd hlabel hlabels
      · exact hinfo.readPrivateKey_eq hread
  obtain ⟨rfl, -⟩ := Der.readPrivateKey_encodePrivateKey_eq_some hread
  exact hp

/-! ### Texts in the two encodings -/

/-- The block in the text of a private key together with its algorithm. -/
theorem decode?_wrapped (k : Rsa.PrivateKey) :
    Pem.Block.decode?
        (utf8 (Pem.Block.encode ⟨wrappedLabel, Der.wrap (Der.encodePrivateKey k)⟩)) =
      some ⟨wrappedLabel, Der.wrap (Der.encodePrivateKey k)⟩ := by
  apply Pem.Block.decode?_encode (by decide +kernel)
  exact Der.element_ne_nil _ _

/-- A key together with its algorithm is read as the same pair. -/
theorem ofPem?_of_wrapped (hblock : Pem.Block.decode? (utf8 pem) =
      some ⟨wrappedLabel, Der.wrap (Der.encodePrivateKey k)⟩)
    (hlength : ((Der.privateNumbers k).map Der.integer).flatten.length + 30 < Der.maxContent)
    (hp : p.IsOf k) : ofPem? pem = some p := by
  have hnumbers : ((Der.privateNumbers k).map Der.integer).flatten.length < Der.maxContent := by
    omega
  have hkey : (Der.encodePrivateKey k).length ≤
      ((Der.privateNumbers k).map Der.integer).flatten.length + 6 := Der.length_element_le hnumbers
  have hread : Der.readPrivateKeyInfo (Der.wrap (Der.encodePrivateKey k)) = some k := by
    rw [Der.readPrivateKeyInfo_wrap (by omega)]
    exact Der.readPrivateKey_encodePrivateKey hnumbers
  exact ofPem?_eq_some_iff.mpr
    ⟨_, k, hblock, privateKeyOfBlock?_eq_some_iff.mpr (.inr ⟨rfl, hread⟩), hp⟩

/-! ### Lengths -/

/-- The encoding of the private half, if there is one, is short enough to be read. -/
def HasReadableEncoding (p : KeyPair) : Prop :=
  ∀ k, p.privateKey? = some k →
    ((Der.privateNumbers k).map Der.integer).flatten.length < Der.maxContent

/-- A text is longer than each number of the key that it carries. -/
theorem Carries.byteLength_lt (h : Carries pem k) {n : Nat} (hn : n ∈ Der.privateNumbers k) :
    Bytes.byteLength n < (utf8 pem).length := by
  have hnumber := Der.byteLength_lt_length_encodePrivateKey hn
  cases h with
  | bare hblock =>
    have hcontent := Pem.Block.length_content_le hblock
    dsimp only at hcontent
    omega
  | wrapped hblock hinfo =>
    have hcontent := Pem.Block.length_content_le hblock
    have hinner := hinfo.length_lt_length
    dsimp only at hcontent
    omega

/-- A pair that is read from a text of at most 16 MiB has an encoding that can be read. -/
theorem hasReadableEncoding_of_length (h : ofPem? pem = some p)
    (hlength : (utf8 pem).length ≤ 2 ^ 24) : p.HasReadableEncoding := by
  obtain ⟨key, hkey⟩ := exists_carries h
  have hp := hkey.isOf h
  have hmodulus := hkey.byteLength_lt (n := key.modulus) (by simp [Der.privateNumbers])
  have hexponent := hkey.byteLength_lt (n := key.privateExponent) (by simp [Der.privateNumbers])
  rw [← hp.modulus] at hmodulus
  rw [← hp.privateExponent] at hexponent
  intro k hk
  exact length_privateNumbers_lt hk (by decide : 5 ≤ 2 ^ 24) (by decide) (by omega) (by omega)

/-! ### Writing -/

/-- The text of a private half exists where the factors of the modulus have no common divisor. -/
theorem exists_privatePem_iff :
    (∃ text, p.privatePem = .ok text) ↔ Nat.Coprime p.prime1 p.prime2 := by
  rw [← exists_privateKey?_iff]
  constructor
  · rintro ⟨text, htext⟩
    obtain ⟨k, hk, -⟩ := privatePem_eq_ok_iff.mp htext
    exact ⟨k, hk⟩
  · rintro ⟨k, hk⟩
    exact ⟨_, privatePem_eq_ok_iff.mpr ⟨k, hk, rfl⟩⟩

theorem privatePem_of_not_coprime (h : ¬ Nat.Coprime p.prime1 p.prime2) :
    p.privatePem = .error encodingFailure := by
  unfold privatePem
  cases hk : p.privateKey? with
  | none => rfl
  | some k => exact absurd (exists_privateKey?_iff.mp ⟨k, hk⟩) h

theorem fromPem_eq_ok_iff {kid : String} : fromPem kid pem = .ok p ↔ ofPem? pem = some p := by
  unfold fromPem
  split
  · rename_i hpem
    simp [hpem]
  · rename_i hpem
    simp [hpem]

/-- What is written of a pair is read as the pair, whatever the key id is, if its encoding is short
enough to be read at all. -/
theorem fromPem_privatePem_iff {text : String} (h : p.privatePem = .ok text) :
    (∀ kid, fromPem kid text = .ok p) ↔ p.HasReadableEncoding := by
  obtain ⟨k, hk, rfl⟩ := privatePem_eq_ok_iff.mp h
  simp only [fromPem_eq_ok_iff, forall_const, ofPem?_encode_iff hk]
  constructor
  · intro hlength key hkey
    rw [hk] at hkey
    rwa [← Option.some.inj hkey]
  · intro hreadable
    exact hreadable k hk

/-! ### Pairs that are read -/

/-- The pair stays what the text says, however often it is written and read. -/
structure StaysAsIn (pem : String) (p : KeyPair) : Prop where
  exists_carries : ∃ k, Carries pem k
  /-- The pair has the numbers of the key that the text carries. -/
  isOf : ∀ k, Carries pem k → p.IsOf k
  /-- The private half is written if the factors of the modulus have no common divisor. -/
  exists_privatePem_iff : (∃ text, p.privatePem = .ok text) ↔ Nat.Coprime p.prime1 p.prime2
  /-- Otherwise writing it fails. -/
  privatePem_of_not_coprime : ¬ Nat.Coprime p.prime1 p.prime2 →
    p.privatePem = .error encodingFailure
  /-- What is written is read as the same pair under every key id, unless it reaches the length at
  which encodings are not read any more. -/
  fromPem_privatePem_iff : ∀ text, p.privatePem = .ok text →
    ((∀ kid, fromPem kid text = .ok p) ↔ p.HasReadableEncoding)
  /-- Texts of at most 16 MiB do not come near that length. -/
  hasReadableEncoding : (utf8 pem).length ≤ 2 ^ 24 → p.HasReadableEncoding
  /-- Every other text that carries a key of these numbers is read as the same pair, if it is
  read. -/
  unique : ∀ k kid pem' p', p.IsOf k → Carries pem' k → fromPem kid pem' = .ok p' → p' = p
  /-- It is read in either encoding, unless it is too long for one of them. -/
  fromPem_of_encoding : ∀ k kid pem', p.IsOf k →
    ((Der.privateNumbers k).map Der.integer).flatten.length + 30 < Der.maxContent →
    Pem.Block.decode? (utf8 pem') = some ⟨privateLabel, Der.encodePrivateKey k⟩ ∨
      Pem.Block.decode? (utf8 pem') = some ⟨wrappedLabel, Der.wrap (Der.encodePrivateKey k)⟩ →
    fromPem kid pem' = .ok p

/-- A pair that is read from a text stays what it is. -/
theorem read_pair_stays {kid : String} (h : fromPem kid pem = .ok p) : StaysAsIn pem p := by
  rw [fromPem_eq_ok_iff] at h
  exact {
    exists_carries := exists_carries h
    isOf := fun k hk => hk.isOf h
    exists_privatePem_iff := exists_privatePem_iff
    privatePem_of_not_coprime := privatePem_of_not_coprime
    fromPem_privatePem_iff := fun text htext => fromPem_privatePem_iff htext
    hasReadableEncoding := hasReadableEncoding_of_length h
    unique := by
      intro k kid' pem' p' hp hk hread
      exact (hk.isOf (fromPem_eq_ok_iff.mp hread)).unique hp
    fromPem_of_encoding := by
      intro k kid' pem' hp hlength hblock
      rw [fromPem_eq_ok_iff]
      rcases hblock with hbare | hwrapped
      · exact ofPem?_of_bare hbare (by omega) hp
      · exact ofPem?_of_wrapped hwrapped hlength hp }

/-- The pair of two smooth primes is read from what is written of it, and from the text of its
private half together with the algorithm. -/
theorem read_pair_stays_of_smooth :
    ∃ k text, smoothPair.IsOf k ∧ smoothPair.privatePem = .ok text ∧
      (∀ kid, fromPem kid text = .ok smoothPair) ∧
      ∃ wrapped, Carries wrapped k ∧ wrapped ≠ text ∧
        ∀ kid, fromPem kid wrapped = .ok smoothPair := by
  obtain ⟨k, hk, -⟩ := exists_privateKey_smoothPair
  have hmodulus : Bytes.byteLength smoothPair.modulus ≤ 256 := by decide +kernel
  have hexponent : Bytes.byteLength smoothPair.privateExponent ≤ 256 := by decide +kernel
  have hlength : ((Der.privateNumbers k).map Der.integer).flatten.length ≤ 9 * (256 + 7) :=
    length_privateNumbers_le hk (by decide) (by decide) hmodulus hexponent
  have hreadable : smoothPair.HasReadableEncoding := fun _ hkey =>
    length_privateNumbers_lt hkey (by decide : 5 ≤ 256) (by decide) hmodulus hexponent
  have htext : smoothPair.privatePem =
      .ok (Pem.Block.encode ⟨privateLabel, Der.encodePrivateKey k⟩) :=
    privatePem_eq_ok_iff.mpr ⟨k, hk, rfl⟩
  have hread : fromPem "first" (Pem.Block.encode ⟨privateLabel, Der.encodePrivateKey k⟩) =
      .ok smoothPair :=
    fromPem_eq_ok_iff.mpr ((ofPem?_encode_iff hk).mpr (hreadable k hk))
  have hdifferent : Pem.Block.encode ⟨wrappedLabel, Der.wrap (Der.encodePrivateKey k)⟩ ≠
      Pem.Block.encode ⟨privateLabel, Der.encodePrivateKey k⟩ := by
    intro heq
    have hblocks := decode?_wrapped k
    rw [heq, decode?_private] at hblocks
    have hlabels : privateLabel = wrappedLabel :=
      congrArg Pem.Block.label (Option.some.inj hblocks)
    exact absurd hlabels (by decide)
  have hstays := read_pair_stays hread
  refine ⟨k, _, isOf_of_privateKey? hk, htext,
    (hstays.fromPem_privatePem_iff _ htext).mpr hreadable, _,
    .wrapped (decode?_wrapped k) (Der.isWrapping_wrap _), hdifferent, fun kid => ?_⟩
  exact hstays.fromPem_of_encoding k kid _ (isOf_of_privateKey? hk)
    (lt_of_le_of_lt (Nat.add_le_add_right hlength 30) (by decide)) (.inr (decode?_wrapped k))

/-- A number of 256 bits that is taken for both factors of a modulus. -/
def factorOfSquare : Nat :=
  0xebe67034fafdf806b56b09d6b2c474f9fb197cae5d30e25d812a515c5483b547

/-- A private key with a square as its modulus, whose exponents undo each other for both factors. -/
def keyOfSquare : Rsa.PrivateKey where
  modulus := factorOfSquare * factorOfSquare
  publicExponent := 65537
  privateExponent := 0xbfbfad1f739172c5493bfb605829568847f1fca5e2bc34941ac4e22371d3294b
  prime1 := factorOfSquare
  prime2 := factorOfSquare
  exponent1 := 0xbfbfad1f739172c5493bfb605829568847f1fca5e2bc34941ac4e22371d3294b
  exponent2 := 0xbfbfad1f739172c5493bfb605829568847f1fca5e2bc34941ac4e22371d3294b
  coefficient := 0

/-- The text of that key is read as a pair whose private half has no text. -/
theorem exists_read_pair_without_text :
    ∃ kid pem p, fromPem kid pem = .ok p ∧
      p.privatePem = .error encodingFailure ∧
      ¬ ∃ text, p.privatePem = .ok text := by
  have hsome : (ofPrivateKey? keyOfSquare).isSome = true := by decide +kernel
  obtain ⟨p, hp⟩ := Option.isSome_iff_exists.mp hsome
  have hof := isOf_iff.mpr hp
  have hread : fromPem "twice" (Pem.Block.encode ⟨privateLabel, Der.encodePrivateKey keyOfSquare⟩) =
      .ok p :=
    fromPem_eq_ok_iff.mpr (ofPem?_of_bare (decode?_private keyOfSquare) (by decide +kernel) hof)
  have hcommon : ¬ Nat.Coprime p.prime1 p.prime2 := by
    rw [hof.prime1, hof.prime2]
    decide +kernel
  exact ⟨_, _, p, hread, privatePem_of_not_coprime hcommon,
    fun htext => hcommon (exists_privatePem_iff.mp htext)⟩

end KeyPair

end BearerAuth
