import Mathlib
import BearerAuth.Proofs.Der

/-!
# Private keys with their algorithm

A private key that is held together with its algorithm is the private key alone, as a string in the
encoding of both.  What stands behind that string may keep the whole from being read, but it does
not change the key.

Main statements: `IsWrapping.readPrivateKey_eq` and `readPrivateKeyInfo_wrap`.
-/

namespace BearerAuth.Der

/-- A private key together with its algorithm, as version zero without attributes. -/
def wrap (key : Bytes) : Bytes :=
  sequence [integer 0, rsaAlgorithm, element octetStringTag key]

/-- The bytes hold a private key together with its algorithm, whatever stands behind the key. -/
def IsWrapping (info key : Bytes) : Prop :=
  ∃ version ≤ 1, ∃ behind,
    info = sequence [integer version, rsaAlgorithm, element octetStringTag key, behind]

theorem isWrapping_wrap (key : Bytes) : IsWrapping (wrap key) key :=
  ⟨0, by decide, [], by simp [wrap, sequence]⟩

/-- The bytes of a key together with its algorithm that is read hold the key. -/
theorem exists_isWrapping {info : Bytes} {k : Rsa.PrivateKey}
    (h : readPrivateKeyInfo info = some k) :
    ∃ key, IsWrapping info key ∧ readPrivateKey key = some k := by
  obtain ⟨content, honly, h⟩ := Option.bind_eq_some_iff.mp h
  obtain ⟨⟨version, rest⟩, hversion, h⟩ := Option.bind_eq_some_iff.mp h
  obtain ⟨_, hguard, h⟩ := Option.bind_eq_some_iff.mp h
  obtain ⟨⟨algorithm, rest⟩, halgorithm, h⟩ := Option.bind_eq_some_iff.mp h
  obtain ⟨_, hrsa, h⟩ := Option.bind_eq_some_iff.mp h
  obtain ⟨⟨key, behind⟩, hkey, h⟩ := Option.bind_eq_some_iff.mp h
  obtain ⟨rest, -, hlast⟩ := Option.bind_eq_some_iff.mp h
  have hle : version ≤ 1 := by simpa [guard] using hguard
  obtain rfl : algorithm = rsaAlgorithm := by simpa [guard] using hrsa
  obtain ⟨-, rfl⟩ := readElement_eq_some_iff.mp hkey
  obtain ⟨rfl, -⟩ := split?_eq_some halgorithm
  obtain ⟨-, rfl⟩ := readInteger_eq_some_iff.mp hversion
  obtain ⟨-, rfl⟩ := readOnly_eq_some_iff.mp honly
  refine ⟨key, ⟨version, hle, behind, by simp [sequence]⟩, ?_⟩
  -- Whatever is looked at behind the key, the key itself is read last.
  dsimp only at hlast
  split at hlast
  · obtain ⟨⟨bits, rest⟩, -, hlast⟩ := Option.bind_eq_some_iff.mp hlast
    obtain ⟨_, -, hlast⟩ := Option.bind_eq_some_iff.mp hlast
    obtain ⟨_, -, hlast⟩ := Option.bind_eq_some_iff.mp hlast
    obtain ⟨_, -, hkey⟩ := Option.bind_eq_some_iff.mp hlast
    exact hkey
  · obtain ⟨_, -, hlast⟩ := Option.bind_eq_some_iff.mp hlast
    obtain ⟨_, -, hlast⟩ := Option.bind_eq_some_iff.mp hlast
    obtain ⟨_, -, hkey⟩ := Option.bind_eq_some_iff.mp hlast
    exact hkey

/-- The bytes are longer than the key that they hold. -/
theorem IsWrapping.length_lt_length {info key : Bytes} (h : IsWrapping info key) :
    key.length < info.length := by
  obtain ⟨version, -, behind, rfl⟩ := h
  have helement := length_lt_element octetStringTag key
  have hinfo : [integer version, rsaAlgorithm, element octetStringTag key, behind].flatten.length <
      (sequence [integer version, rsaAlgorithm, element octetStringTag key, behind]).length :=
    length_lt_element _ _
  simp only [List.flatten_cons, List.length_append] at hinfo
  omega

/-- A key that is held in bytes that are read is not too long to be read. -/
theorem IsWrapping.length_lt {info key : Bytes} {k : Rsa.PrivateKey} (h : IsWrapping info key)
    (hread : readPrivateKeyInfo info = some k) : key.length < maxContent := by
  obtain ⟨version, -, behind, rfl⟩ := h
  obtain ⟨content, honly, -⟩ := Option.bind_eq_some_iff.mp hread
  obtain ⟨hlt, heq⟩ := readOnly_eq_some_iff.mp honly
  have helement := length_lt_element octetStringTag key
  rw [← element_inj heq] at hlt
  simp only [List.flatten_cons, List.length_append] at hlt
  omega

/-- Bytes do not hold two keys that are short enough to be read. -/
theorem IsWrapping.unique {info key key' : Bytes} (h : IsWrapping info key)
    (h' : IsWrapping info key') (hkey : key.length < maxContent)
    (hkey' : key'.length < maxContent) : key = key' := by
  obtain ⟨version, hversion, behind, rfl⟩ := h
  obtain ⟨version', hversion', behind', heq⟩ := h'
  have hcontent := element_inj heq
  simp only [List.flatten_cons, List.flatten_nil, List.append_nil] at hcontent
  have hlength : ∀ n ≤ 1, (integer n).length = 3 := by decide
  obtain ⟨-, hrest⟩ := List.append_inj hcontent
    ((hlength version hversion).trans (hlength version' hversion').symm)
  have hread : readElement octetStringTag (element octetStringTag key ++ behind) =
      some (key, behind) := readElement_element hkey behind
  rw [List.append_cancel_left hrest, readElement_element hkey'] at hread
  exact (Prod.mk.inj (Option.some.inj hread)).1.symm

/-- What is read of bytes that hold a key is what is read of the key. -/
theorem IsWrapping.readPrivateKey_eq {info key : Bytes} {k : Rsa.PrivateKey}
    (h : IsWrapping info key) (hread : readPrivateKeyInfo info = some k) :
    readPrivateKey key = some k := by
  obtain ⟨key', h', hkey'⟩ := exists_isWrapping hread
  rwa [h.unique h' (h.length_lt hread) (h'.length_lt hread)]

/-- A key that is not too long is read together with its algorithm as it is read alone. -/
theorem readPrivateKeyInfo_wrap {key : Bytes} (h : key.length + 24 < maxContent) :
    readPrivateKeyInfo (wrap key) = readPrivateKey key := by
  have halgorithm : rsaAlgorithm.length = 15 := rfl
  have hversion : (integer 0).length = 3 := rfl
  have hkey : key.length < maxContent := by omega
  have helement : (element octetStringTag key).length ≤ key.length + 6 := length_element_le hkey
  have hcontent : [integer 0, rsaAlgorithm, element octetStringTag key].flatten.length <
      maxContent := by
    simp only [List.flatten_cons, List.flatten_nil, List.length_append, List.length_nil]
    omega
  have honly : readOnly sequenceTag (wrap key) =
      some (integer 0 ++ (rsaAlgorithm ++ (element octetStringTag key ++ []))) :=
    readOnly_element hcontent
  have hzero : (integerContent 0).length < maxContent := by decide
  rw [readPrivateKeyInfo, honly]
  simp only [Option.bind_eq_bind, Option.bind_some, readInteger_integer hzero, split?_append,
    readElement_element hkey]
  rfl

end BearerAuth.Der
