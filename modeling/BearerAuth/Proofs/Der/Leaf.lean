import Mathlib
import BearerAuth.Der.Leaf
import BearerAuth.Proofs.Der

/-!
# The tolerant look at written keys

What the look through an encoding finds in keys that were written strictly: the algorithm and the
key in a public key with its algorithm, and nothing in a bare private key.

Main statements: `Leaf.ofBytes_encodePublicKeyInfo` and `Leaf.ofBytes_encodePrivateKey`.
-/

namespace BearerAuth.Der.Leaf

/-! ### Elements -/

/-- The tolerant reading of lengths agrees with the strict one on what was written. -/
theorem readLength_encodeLength {n : Nat} (h : n < maxContent) (rest : Bytes) :
    Leaf.readLength (encodeLength n ++ rest) = some (n, rest) := by
  rcases encodeLength_cases h with ⟨x, heq, hlt, hx⟩ | ⟨x, heq, hnot, -, hx, -, hle⟩
  · rw [heq, List.cons_append, Leaf.readLength, if_pos hlt, hx]
    rfl
  · have hcount : Bytes.byteLength n ≤ 8 ∧
        Bytes.byteLength n ≤ (Bytes.ofNat n ++ rest).length := by
      rw [List.length_append, Bytes.length_ofNat]
      exact ⟨le_trans hle (by decide), Nat.le_add_right _ _⟩
    have htake : (Bytes.ofNat n ++ rest).take (Bytes.byteLength n) = Bytes.ofNat n :=
      List.take_left' (Bytes.length_ofNat n)
    have hdrop : (Bytes.ofNat n ++ rest).drop (Bytes.byteLength n) = rest :=
      List.drop_left' (Bytes.length_ofNat n)
    rw [heq, List.cons_append, Leaf.readLength, if_neg hnot]
    simp only [hx, Nat.add_sub_cancel_left]
    rw [if_pos hcount, htake, hdrop, Bytes.toNat_ofNat]

/-- The leaves of an element of a universal type. -/
def leavesOf? (fuel : Nat) (tag : UInt8) (content : Bytes) : Option (List Leaf) :=
  if tag.toNat % 32 = 16 then readAll fuel content
  else if tag.toNat % 32 = 17 then (readAll fuel content).map fun _ => []
  else do
    guard (isContent (tag.toNat % 32) content)
    match tag.toNat % 32 with
    | 3 => pure [string content.tail]
    | 4 => pure [string content]
    | 6 => (arcs? content).map fun arcs => [identifier arcs]
    | _ => pure []

/-- The leaves of an element stand in front of those behind it. -/
theorem readAll_element {tag : UInt8} {content : Bytes} (htag : tag < 0x40)
    (hshort : tag.toNat % 32 ≠ 31) (h : content.length < maxContent) (fuel : Nat) (rest : Bytes) :
    readAll (fuel + 1) (element tag content ++ rest) = (do
      let leaves ← leavesOf? fuel tag content
      if rest.isEmpty then return leaves
      else return leaves ++ (← readAll fuel rest)) := by
  have hhigh : ¬ 0x40 ≤ tag := UInt8.not_le.mpr htag
  have hlength : content.length ≤ (content ++ rest).length := by simp
  rw [element, List.cons_append, List.cons_append, List.append_assoc, readAll]
  simp only [readTag, if_neg hshort, Option.bind_eq_bind, Option.bind_some,
    readLength_encodeLength h, hlength, guard_true, List.take_left, List.drop_left, hhigh,
    if_false, leavesOf?]
  by_cases hsequence : tag.toNat % 32 = 16
  · simp only [if_pos hsequence]
    rfl
  · by_cases hset : tag.toNat % 32 = 17
    · simp only [if_neg hsequence, if_pos hset]
      rfl
    · simp only [if_neg hsequence, if_neg hset]
      cases isContent (tag.toNat % 32) content with
      | false => rfl
      | true =>
        simp only [guard_true]
        generalize tag.toNat % 32 = kind
        split <;> simp [*]

/-- An element alone has its own leaves. -/
theorem readAll_single {tag : UInt8} {content : Bytes} (htag : tag < 0x40)
    (hshort : tag.toNat % 32 ≠ 31) (h : content.length < maxContent) (fuel : Nat) :
    readAll (fuel + 1) (element tag content) = leavesOf? fuel tag content := by
  have hread := readAll_element htag hshort h fuel []
  rw [List.append_nil] at hread
  rw [hread]
  cases leavesOf? fuel tag content <;> rfl

/-- A sequence has the leaves of its elements. -/
theorem leavesOf?_sequence (fuel : Nat) (content : Bytes) :
    leavesOf? fuel sequenceTag content = readAll fuel content := rfl

/-- A string of bits has one leaf. -/
theorem leavesOf?_bitString (fuel : Nat) (content : Bytes) :
    leavesOf? fuel bitStringTag (0 :: content) = some [string content] := by
  have hcontent : isContent 3 (0 :: content) = true := by simp [isContent]
  have htag : bitStringTag.toNat % 32 = 3 := rfl
  simp [leavesOf?, htag, hcontent]

/-- Integers have no leaves. -/
theorem leavesOf?_integer (fuel n : Nat) :
    leavesOf? fuel integerTag (integerContent n) = some [] := rfl

/-! ### Keys -/

/-- There are no leaves in integers behind each other. -/
theorem readAll_integers {ns : List Nat} {fuel : Nat} (hne : ns ≠ []) (hfuel : ns.length ≤ fuel)
    (h : (ns.map integer).flatten.length < maxContent) :
    readAll fuel (ns.map integer).flatten = some [] := by
  induction ns generalizing fuel with
  | nil => exact absurd rfl hne
  | cons n ns ih =>
    obtain ⟨fuel, rfl⟩ : ∃ m, fuel = m + 1 := ⟨fuel - 1, by simp at hfuel; omega⟩
    rw [List.map_cons, List.flatten_cons, List.length_append] at h
    have hcontent : (integerContent n).length < (integer n).length := length_lt_element _ _
    have hread : readAll (fuel + 1) (integer n ++ (ns.map integer).flatten) = _ :=
      readAll_element (by decide) (by decide) (by omega) fuel _
    rw [List.map_cons, List.flatten_cons, hread, leavesOf?_integer]
    cases ns with
    | nil => rfl
    | cons m ns =>
      have hnext := ih (by simp) (Nat.le_of_succ_le_succ hfuel) (by omega)
      rw [hnext]
      simp

/-- There are at least as many bytes as integers. -/
theorem length_le_integers (ns : List Nat) : ns.length ≤ (ns.map integer).flatten.length := by
  induction ns with
  | nil => exact Nat.zero_le _
  | cons n ns ih =>
    have hinteger : (integerContent n).length < (integer n).length := length_lt_element _ _
    rw [List.map_cons, List.flatten_cons, List.length_append, List.length_cons]
    omega

/-- A bare private key has no leaves. -/
theorem ofBytes_encodePrivateKey {k : Rsa.PrivateKey}
    (h : ((privateNumbers k).map integer).flatten.length < maxContent) :
    ofBytes (encodePrivateKey k) = some [] := by
  have hsequence := length_lt_element sequenceTag ((privateNumbers k).map integer).flatten
  have hread : ofBytes (encodePrivateKey k) = leavesOf? _ sequenceTag _ :=
    readAll_single (by decide) (by decide) h _
  rw [hread, leavesOf?_sequence]
  refine readAll_integers (by simp [privateNumbers]) ?_ h
  exact le_trans (length_le_integers _) hsequence.le

/-- The content of the element that names the algorithm. -/
def algorithmContent : Bytes :=
  [0x06, 0x09, 0x2a, 0x86, 0x48, 0x86, 0xf7, 0x0d, 0x01, 0x01, 0x01, 0x05, 0x00]

/-- The arcs that name the algorithm RSA. -/
def rsaArcs : List Nat := [1, 2, 840, 113549, 1, 1, 1]

theorem rsaAlgorithm_eq : rsaAlgorithm = element sequenceTag algorithmContent := by decide

/-- The algorithm is named by one leaf. -/
theorem readAll_algorithmContent (fuel : Nat) :
    readAll (fuel + 2) algorithmContent = some [identifier rsaArcs] := rfl

/-- A public key with its algorithm has two leaves. -/
theorem ofBytes_encodePublicKeyInfo {k : Rsa.PublicKey}
    (h : (encodePublicKeyInfo k).length < maxContent) :
    ofBytes (encodePublicKeyInfo k) = some [identifier rsaArcs, string (encodePublicKey k)] := by
  let bits := element bitStringTag (0 :: encodePublicKey k)
  have hwhole : encodePublicKeyInfo k = element sequenceTag (rsaAlgorithm ++ bits) := by
    simp [encodePublicKeyInfo, sequence, bits]
  have hcontent := length_lt_element sequenceTag (rsaAlgorithm ++ bits)
  have hbits : (0 :: encodePublicKey k).length < bits.length := length_lt_element _ _
  have halgorithm : rsaAlgorithm.length = 15 := rfl
  rw [hwhole] at h ⊢
  rw [List.length_append, halgorithm] at hcontent
  have hread : ofBytes (element sequenceTag (rsaAlgorithm ++ bits)) = leavesOf? _ sequenceTag _ :=
    readAll_single (by decide) (by decide) (by rw [List.length_append]; omega) _
  rw [hread, leavesOf?_sequence]
  -- Four levels of elements are opened, and there are more bytes than that.
  obtain ⟨fuel, hfuel⟩ : ∃ fuel, (element sequenceTag (rsaAlgorithm ++ bits)).length = fuel + 3 :=
    ⟨_, (Nat.sub_add_cancel (by omega)).symm⟩
  have hfirst : readAll (fuel + 3) (element sequenceTag algorithmContent ++ bits) = _ :=
    readAll_element (by decide) (by decide) (by decide) (fuel + 2) bits
  have hsecond : readAll (fuel + 2) bits = _ :=
    readAll_single (by decide) (by decide) (by omega) (fuel + 1)
  rw [hfuel, rsaAlgorithm_eq, hfirst, leavesOf?_sequence, readAll_algorithmContent, hsecond,
    leavesOf?_bitString]
  rfl

end BearerAuth.Der.Leaf
