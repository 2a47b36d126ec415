import Mathlib
import BearerAuth.KeyMaterial
import BearerAuth.KeyPair
import BearerAuth.Proofs.Der.Leaf
import BearerAuth.Proofs.Pem
import BearerAuth.Proofs.Rsa.Signature

/-!
# Written key pairs

What verification and signing read in the two texts of a pair: the public half comes back from its
text, the private half from its own, and whatever key is read in the text of the private half is
this half.

Main statements: `KeyPair.readPublic_publicPem`, `KeyPair.readPrivate_privatePem` and
`KeyPair.eq_of_readPrivate`.
-/

namespace BearerAuth

/-! ### Lengths -/

namespace Der

/-- The encoding of a usable public key is short. -/
theorem length_encodePublicKeyInfo_lt {k : Rsa.PublicKey} (h : k.isUsable = true) :
    (encodePublicKeyInfo k).length < maxContent := by
  obtain ⟨hmodulus, hexponent⟩ := Rsa.PublicKey.byteLength_le_of_isUsable h
  have hnumbers : ([k.modulus, k.exponent].map integer).flatten.length ≤ 2 * (1024 + 7) := by
    refine length_integers_le ?_ (by decide)
    intro n hn
    simp only [List.mem_cons, List.not_mem_nil, or_false] at hn
    rcases hn with rfl | rfl
    · exact hmodulus
    · exact le_trans hexponent (by decide)
  have hkey : (encodePublicKey k).length ≤ 2 * (1024 + 7) + 6 :=
    le_trans (length_element_le (lt_of_le_of_lt hnumbers (by decide)))
      (Nat.add_le_add_right hnumbers 6)
  have hbits : (element bitStringTag (0 :: encodePublicKey k)).length ≤ 2 * (1024 + 7) + 13 := by
    refine le_trans (length_element_le ?_) ?_
    · rw [List.length_cons]
      exact lt_of_le_of_lt (Nat.succ_le_succ hkey) (by decide)
    · rw [List.length_cons]
      omega
  have hcontent : ([rsaAlgorithm, element bitStringTag (0 :: encodePublicKey k)].flatten).length ≤
      2 * (1024 + 7) + 28 := by
    have halgorithm : rsaAlgorithm.length = 15 := rfl
    simp only [List.flatten_cons, List.flatten_nil, List.length_append, List.length_nil]
    omega
  exact lt_of_le_of_lt (length_element_le (lt_of_le_of_lt hcontent (by decide)))
    (lt_of_le_of_lt (Nat.add_le_add_right hcontent 6) (by decide))

/-- The numbers of a usable private key are short. -/
theorem length_privateNumbers_lt {k : Rsa.PrivateKey} (h : k.isUsable = true) :
    ((privateNumbers k).map integer).flatten.length < maxContent := by
  have hnumbers : ((privateNumbers k).map integer).flatten.length ≤ 9 * (512 + 7) := by
    refine length_integers_le ?_ (by decide)
    have hzero : Bytes.byteLength 0 ≤ 512 := by decide
    simpa [privateNumbers, hzero] using Rsa.PrivateKey.byteLength_le_of_isUsable h
  exact lt_of_le_of_lt hnumbers (by decide)

end Der

namespace KeyPair

/-- The public key that verification reads in the text of the public half. -/
theorem readPublic_publicPem {p : KeyPair} (h : p.publicKey.isUsable = true) :
    ∃ material, KeyMaterial.ofPem? p.publicPem = some material ∧
      material.publicKey? = some p.publicKey := by
  have hlength := Der.length_encodePublicKeyInfo_lt h
  refine ⟨⟨Der.encodePublicKey p.publicKey⟩, ?_, ?_⟩
  · have hblock : Pem.Block.decodeLenient?
        (utf8 (Pem.Block.encode ⟨publicLabel, Der.encodePublicKeyInfo p.publicKey⟩)) = _ :=
      Pem.Block.decodeLenient?_encode (by decide) (by decide) _
    have hleaves := Der.Leaf.ofBytes_encodePublicKeyInfo hlength
    rw [KeyMaterial.ofPem?, publicPem, hblock]
    simp only [Option.bind_some, KeyMaterial.ofBlock?, hleaves]
    rfl
  · exact Der.readPublicKey_encodePublicKey
      (lt_trans (Der.length_integers_lt_encodePublicKeyInfo _) hlength)

/-- The text of the private half, if its shortcuts exist. -/
theorem privatePem_eq_ok_iff {p : KeyPair} {pem : String} :
    p.privatePem = .ok pem ↔ ∃ k, p.privateKey? = some k ∧
      Pem.Block.encode ⟨privateLabel, Der.encodePrivateKey k⟩ = pem := by
  unfold privatePem
  split
  · rename_i k hk
    simp [hk]
  · rename_i hk
    simp [hk]

/-- The private half has the numbers of the public one. -/
theorem publicKey_of_privateKey? {p : KeyPair} {k : Rsa.PrivateKey} (h : p.privateKey? = some k) :
    k.publicKey = p.publicKey := by
  obtain ⟨coefficient, -, hk⟩ := Option.bind_eq_some_iff.mp h
  rw [← Option.some.inj hk]
  rfl

/-- The block in the text of a private half is found. -/
theorem decodeLenient?_private (k : Rsa.PrivateKey) :
    Pem.Block.decodeLenient? (utf8 (Pem.Block.encode ⟨privateLabel, Der.encodePrivateKey k⟩)) =
      some ⟨privateLabel, Der.encodePrivateKey k⟩ :=
  Pem.Block.decodeLenient?_encode (by decide) (by decide) _

/-- The bytes of the private key in the text of a private half. -/
theorem bytes_of_ofPem? {k : Rsa.PrivateKey} {material : KeyMaterial}
    (h : KeyMaterial.ofPem? (Pem.Block.encode ⟨privateLabel, Der.encodePrivateKey k⟩) =
      some material) : material.bytes = Der.encodePrivateKey k := by
  have hbare : privateLabel ∈ KeyMaterial.bareLabels := by decide
  rw [KeyMaterial.ofPem?, decodeLenient?_private, Option.bind_some] at h
  obtain ⟨leaves, -, h⟩ := Option.bind_eq_some_iff.mp h
  dsimp only at h
  rw [if_pos hbare] at h
  rw [← Option.some.inj h]

/-- The private key that signing reads in the text of a private half that is not too long. -/
theorem readPrivate_of_length {k : Rsa.PrivateKey}
    (hlength : ((Der.privateNumbers k).map Der.integer).flatten.length < Der.maxContent) :
    ∃ material, KeyMaterial.ofPem? (Pem.Block.encode ⟨privateLabel, Der.encodePrivateKey k⟩) =
        some material ∧ material.privateKey? = some k := by
  refine ⟨⟨Der.encodePrivateKey k⟩, ?_, Der.readPrivateKey_encodePrivateKey hlength⟩
  have hleaves := Der.Leaf.ofBytes_encodePrivateKey hlength
  rw [KeyMaterial.ofPem?, decodeLenient?_private]
  simp only [Option.bind_some, KeyMaterial.ofBlock?, hleaves]
  rfl

/-- The private key that signing reads in the text of a usable private half. -/
theorem readPrivate_privatePem {k : Rsa.PrivateKey} (h : k.isUsable = true) :
    ∃ material, KeyMaterial.ofPem? (Pem.Block.encode ⟨privateLabel, Der.encodePrivateKey k⟩) =
        some material ∧ material.privateKey? = some k :=
  readPrivate_of_length (Der.length_privateNumbers_lt h)

/-- A private key that signing reads in the text of a private half is this half. -/
theorem eq_of_readPrivate {k key : Rsa.PrivateKey} {material : KeyMaterial}
    (hpem : KeyMaterial.ofPem? (Pem.Block.encode ⟨privateLabel, Der.encodePrivateKey k⟩) =
      some material) (hkey : material.privateKey? = some key) : key = k := by
  rw [KeyMaterial.privateKey?, bytes_of_ofPem? hpem] at hkey
  exact (Der.readPrivateKey_encodePrivateKey_eq_some hkey).1

end KeyPair

end BearerAuth
