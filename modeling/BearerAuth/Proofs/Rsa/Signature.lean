import Mathlib
import BearerAuth.Proofs.Bytes
import BearerAuth.Rsa.Power
import BearerAuth.Rsa.Signature

/-!
# Signatures that were made

A signature that is given out is accepted under the public half of the key.  Nothing about the
arithmetic of roots is needed for this, because signing checks its own result.

Main statement: `PrivateKey.verifies_of_sign`.
-/

namespace BearerAuth.Rsa

/-- The public half of a private key. -/
def PrivateKey.publicKey (k : PrivateKey) : PublicKey :=
  ⟨k.modulus, k.publicExponent⟩

/-- A number with few binary digits has few bytes. -/
theorem byteLength_le_of_bitLength {n bits : Nat} (h : bitLength n ≤ 8 * bits) :
    Bytes.byteLength n ≤ bits := by
  apply Bytes.byteLength_le
  calc n < 2 ^ bitLength n := lt_two_pow_bitLength n
    _ ≤ 2 ^ (8 * bits) := Nat.pow_le_pow_right (by decide) h
    _ = 256 ^ bits := by rw [Nat.pow_mul]

/-- What makes a public key usable. -/
theorem PublicKey.isUsable_iff {k : PublicKey} :
    k.isUsable = true ↔ k.modulus % 2 = 1 ∧ 256 ≤ Bytes.byteLength k.modulus ∧
      bitLength k.modulus ≤ 8192 ∧ k.exponent % 2 = 1 ∧ 3 ≤ k.exponent ∧
      k.exponent ≤ maxExponent := by
  simp [PublicKey.isUsable, and_assoc]

/-- A signature is a root of the padded hash, in as many bytes as the modulus has. -/
theorem PublicKey.verifies_iff {k : PublicKey} {message signature : Bytes} :
    k.verifies message signature = true ↔ k.isUsable = true ∧
      signature.length = Bytes.byteLength k.modulus ∧ signature.toNat < k.modulus ∧
      powMod signature.toNat k.exponent k.modulus =
        (padded (Bytes.byteLength k.modulus) message).toNat := by
  simp [PublicKey.verifies, and_assoc]

/-- The numbers of a usable public key are short. -/
theorem PublicKey.byteLength_le_of_isUsable {k : PublicKey} (h : k.isUsable = true) :
    Bytes.byteLength k.modulus ≤ 1024 ∧ Bytes.byteLength k.exponent ≤ 5 := by
  obtain ⟨-, -, hbits, -, -, hexponent⟩ := PublicKey.isUsable_iff.mp h
  exact ⟨byteLength_le_of_bitLength hbits,
    Bytes.byteLength_le (lt_of_le_of_lt hexponent (by decide))⟩

/-- The numbers of a private key that signing works with are short. -/
theorem PrivateKey.byteLength_le_of_isUsable {k : PrivateKey} (h : k.isUsable = true) :
    Bytes.byteLength k.modulus ≤ 512 ∧ Bytes.byteLength k.publicExponent ≤ 512 ∧
      Bytes.byteLength k.privateExponent ≤ 512 ∧ Bytes.byteLength k.prime1 ≤ 512 ∧
      Bytes.byteLength k.prime2 ≤ 512 ∧ Bytes.byteLength k.exponent1 ≤ 512 ∧
      Bytes.byteLength k.exponent2 ≤ 512 ∧ Bytes.byteLength k.coefficient ≤ 512 := by
  simp only [PrivateKey.isUsable, Bool.and_eq_true, decide_eq_true_eq, and_assoc] at h
  obtain ⟨-, -, hbits, -, -, hexponent, -, hbits1, -, -, hbits2, -, -, -, hprivate, -, hexponent1,
    -, hexponent2, hcoefficient, -⟩ := h
  have hmodulus : Bytes.byteLength k.modulus ≤ 512 := byteLength_le_of_bitLength hbits
  have hprime1 : Bytes.byteLength k.prime1 ≤ 512 := byteLength_le_of_bitLength (by omega)
  have hprime2 : Bytes.byteLength k.prime2 ≤ 512 := byteLength_le_of_bitLength (by omega)
  have hpublic : Bytes.byteLength k.publicExponent ≤ 5 :=
    Bytes.byteLength_le (lt_of_le_of_lt hexponent (by decide))
  exact ⟨hmodulus, le_trans hpublic (by decide),
    le_trans (Bytes.byteLength_mono hprivate.le) hmodulus, hprime1, hprime2,
    le_trans (Bytes.byteLength_mono hexponent1.le) hprime1,
    le_trans (Bytes.byteLength_mono hexponent2.le) hprime2,
    le_trans (Bytes.byteLength_mono hcoefficient.le) hprime1⟩

/-- The public half of a key that signing works with is one that verification works with. -/
theorem PrivateKey.isUsable_publicKey {k : PrivateKey} (h : k.isUsable = true) :
    k.publicKey.isUsable = true := by
  simp only [PrivateKey.isUsable, Bool.and_eq_true, decide_eq_true_eq, and_assoc] at h
  obtain ⟨hodd, hsize, hbits, hexponent, hlow, hhigh, -⟩ := h
  exact PublicKey.isUsable_iff.mpr
    ⟨hodd, hsize, le_trans hbits (by decide), hexponent, le_trans (by decide) hlow, hhigh⟩

/-- A message is signed by the root of its padded hash, if the key is usable and fits its root. -/
theorem PrivateKey.sign_eq_ok_iff {k : PrivateKey} {message signature : Bytes} :
    k.sign message = .ok signature ↔
      k.isUsable = true ∧
      powMod (k.root (padded (Bytes.byteLength k.modulus) message).toNat) k.publicExponent
        k.modulus = (padded (Bytes.byteLength k.modulus) message).toNat ∧
      Bytes.ofNatPadded (Bytes.byteLength k.modulus)
        (k.root (padded (Bytes.byteLength k.modulus) message).toNat) = signature := by
  unfold PrivateKey.sign
  split
  · rename_i husable
    dsimp only
    split
    · rename_i hfits
      simp [husable, hfits]
    · rename_i hfits
      simp [hfits]
  · rename_i husable
    simp [husable]

/-- A signature that was made verifies under the public half of the key. -/
theorem PrivateKey.verifies_of_sign {k : PrivateKey} {message signature : Bytes}
    (h : k.sign message = .ok signature) : k.publicKey.verifies message signature = true := by
  obtain ⟨husable, hfits, rfl⟩ := PrivateKey.sign_eq_ok_iff.mp h
  have hpublic := PrivateKey.isUsable_publicKey husable
  have hodd : k.modulus % 2 = 1 := (PublicKey.isUsable_iff.mp hpublic).1
  have hroot : k.root (padded (Bytes.byteLength k.modulus) message).toNat < k.modulus :=
    Nat.mod_lt _ (by omega)
  have hvalue : Bytes.toNat (Bytes.ofNatPadded (Bytes.byteLength k.modulus)
      (k.root (padded (Bytes.byteLength k.modulus) message).toNat)) =
      k.root (padded (Bytes.byteLength k.modulus) message).toNat := by
    rw [Bytes.toNat_ofNatPadded]
    exact Nat.mod_eq_of_lt (lt_trans hroot (Bytes.lt_pow_byteLength _))
  refine PublicKey.verifies_iff.mpr ⟨hpublic, Bytes.length_ofNatPadded _ _, ?_, ?_⟩
  · rw [hvalue]
    exact hroot
  · rw [hvalue]
    exact hfits

end BearerAuth.Rsa
