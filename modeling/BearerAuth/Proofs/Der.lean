import Mathlib
import BearerAuth.Der
import BearerAuth.Proofs.Bytes

/-!
# Distinguished encoding undone

What the writers of elements, integers and keys write is what the readers beside them read, as long
as no content reaches the `2 ^ 28` bytes at which the readers give up.  The encoding is canonical,
so a reading that succeeds shows that nothing else was there.

Main statements: `readPublicKey_encodePublicKey` and `readPrivateKey_eq_some_iff`.
-/

namespace BearerAuth.Der

/-- The number of bytes from which on no content is read. -/
abbrev maxContent : Nat := 0x10000000

/-! ### Lengths -/

theorem split?_append (a b : Bytes) : split? a.length (a ++ b) = some (a, b) := by
  simp [split?]

theorem split?_eq_some {n : Nat} {input a b : Bytes} (h : split? n input = some (a, b)) :
    input = a ++ b ∧ a.length = n := by
  unfold split? at h
  split at h
  · rename_i hle
    obtain ⟨rfl, rfl⟩ := Prod.mk.inj (Option.some.inj h)
    exact ⟨(List.take_append_drop n input).symm, by simpa using hle⟩
  · cases h

/-- The bytes of a long length. -/
theorem byteLength_le_four {n : Nat} (h : n < maxContent) : Bytes.byteLength n ≤ 4 :=
  Bytes.byteLength_le (lt_trans h (by decide))

/-- The first byte of a long length. -/
theorem toNat_ofNat_of_le {d : Nat} (h : d ≤ 4) : (UInt8.ofNat (0x80 + d)).toNat = 0x80 + d := by
  rw [UInt8.toNat_ofNat', Nat.mod_eq_of_lt (by omega)]

/-- A length is written as one byte below 128, or as one to four bytes with their number in front,
which is marked by its first bit. -/
theorem encodeLength_cases {n : Nat} (h : n < maxContent) :
    (∃ x : UInt8, encodeLength n = [x] ∧ x < 0x80 ∧ x.toNat = n) ∨
    (∃ x : UInt8, encodeLength n = x :: Bytes.ofNat n ∧ ¬ x < 0x80 ∧ 0x80 ≤ n ∧
      x.toNat = 0x80 + Bytes.byteLength n ∧ 0 < Bytes.byteLength n ∧ Bytes.byteLength n ≤ 4) := by
  unfold encodeLength
  split
  · rename_i hshort
    have hbyte : (UInt8.ofNat n).toNat = n := by
      rw [UInt8.toNat_ofNat', Nat.mod_eq_of_lt (by omega)]
    refine .inl ⟨UInt8.ofNat n, rfl, ?_, hbyte⟩
    rw [UInt8.lt_iff_toNat_lt, hbyte]
    exact hshort
  · rename_i hlong
    have hle := byteLength_le_four h
    have hbyte := toNat_ofNat_of_le hle
    refine .inr ⟨UInt8.ofNat (0x80 + Bytes.byteLength n), ?_, ?_, Nat.not_lt.mp hlong, hbyte,
      Bytes.byteLength_pos (by omega), hle⟩
    · dsimp only
      rw [Bytes.length_ofNat]
    · rw [UInt8.not_lt, UInt8.le_iff_toNat_le, hbyte]
      exact Nat.le_add_right _ _

/-- Lengths are read back. -/
theorem readLength_encodeLength {n : Nat} (h : n < maxContent) (rest : Bytes) :
    readLength (encodeLength n ++ rest) = some (n, rest) := by
  rcases encodeLength_cases h with ⟨x, heq, hlt, hx⟩ | ⟨x, heq, hnot, hlong, hx, hpos, hle⟩
  · rw [heq, List.cons_append, readLength, if_pos hlt, hx]
    rfl
  · have hrange : 0x81 ≤ x ∧ x ≤ 0x84 := by
      rw [UInt8.le_iff_toNat_le, UInt8.le_iff_toNat_le, hx]
      exact ⟨Nat.add_le_add_left hpos 0x80, Nat.add_le_add_left hle 0x80⟩
    have hsplit : split? (Bytes.byteLength n) (Bytes.ofNat n ++ rest) =
        some (Bytes.ofNat n, rest) := by
      rw [← Bytes.length_ofNat]
      exact split?_append _ _
    have hguard : 0x80 ≤ n ∧ n < 0x10000000 := ⟨hlong, h⟩
    rw [heq, List.cons_append, readLength, if_neg hnot, if_pos hrange, hx,
      Nat.add_sub_cancel_left, hsplit]
    simp [hguard]

/-- A longer content does not have a shorter length in front of it. -/
theorem length_encodeLength_mono {n m : Nat} (h : n ≤ m) :
    (encodeLength n).length ≤ (encodeLength m).length := by
  have hbytes := Bytes.byteLength_mono h
  unfold encodeLength
  split
  · split <;> simp
  · rw [if_neg (by omega)]
    simpa using hbytes

/-- A length that is read is the shortest spelling of a number that is not too large. -/
theorem readLength_eq_some_iff {input rest : Bytes} {n : Nat} :
    readLength input = some (n, rest) ↔ n < maxContent ∧ input = encodeLength n ++ rest := by
  constructor
  · intro h
    cases input with
    | nil => cases h
    | cons x input =>
      rw [readLength] at h
      split at h
      · rename_i hlt
        obtain ⟨rfl, rfl⟩ := Prod.mk.inj (Option.some.inj h)
        have hx : x.toNat < 0x80 := UInt8.lt_iff_toNat_lt.mp hlt
        refine ⟨lt_trans hx (by decide), ?_⟩
        rw [encodeLength, if_pos hx, UInt8.ofNat_toNat, List.singleton_append]
      · split at h
        · rename_i hrange
          obtain ⟨⟨digits, rest'⟩, hsplit, h⟩ := Option.bind_eq_some_iff.mp h
          obtain ⟨_, hguard, h⟩ := Option.bind_eq_some_iff.mp h
          obtain ⟨rfl, rfl⟩ := Prod.mk.inj (Option.some.inj h)
          obtain ⟨rfl, hlength⟩ := split?_eq_some hsplit
          have hx : 0x81 ≤ x.toNat := UInt8.le_iff_toNat_le.mp hrange.1
          have hbounds : 0x80 ≤ digits.toNat ∧ digits.toNat < 0x10000000 ∧
              Bytes.ofNat digits.toNat = digits := by
            simpa [guard] using hguard
          have hfirst : UInt8.ofNat (0x80 + digits.length) = x := by
            rw [hlength, Nat.add_sub_cancel' (by omega), UInt8.ofNat_toNat]
          refine ⟨hbounds.2.1, ?_⟩
          rw [encodeLength, if_neg (Nat.not_lt.mpr hbounds.1)]
          simp only [hbounds.2.2, hfirst, List.cons_append]
        · cases h
  · rintro ⟨h, rfl⟩
    exact readLength_encodeLength h rest

/-! ### Elements -/

theorem element_ne_nil (tag : UInt8) (content : Bytes) : element tag content ≠ [] := by
  rw [element, List.cons_append]
  exact List.cons_ne_nil _ _

/-- An element is read back. -/
theorem readElement_element {tag : UInt8} {content : Bytes} (h : content.length < maxContent)
    (rest : Bytes) : readElement tag (element tag content ++ rest) = some (content, rest) := by
  rw [element, List.cons_append, List.cons_append, List.append_assoc, readElement,
    readLength_encodeLength h]
  simp [split?_append]

/-- An element that is read is one that is written around a content that is not too long. -/
theorem readElement_eq_some_iff {tag : UInt8} {input content rest : Bytes} :
    readElement tag input = some (content, rest) ↔
      content.length < maxContent ∧ input = element tag content ++ rest := by
  constructor
  · intro h
    cases input with
    | nil => cases h
    | cons t input =>
      obtain ⟨_, hguard, h⟩ := Option.bind_eq_some_iff.mp h
      obtain ⟨⟨n, rest'⟩, hlength, hsplit⟩ := Option.bind_eq_some_iff.mp h
      obtain rfl : t = tag := by simpa [guard] using hguard
      obtain ⟨hlt, rfl⟩ := readLength_eq_some_iff.mp hlength
      obtain ⟨rfl, rfl⟩ := split?_eq_some hsplit
      refine ⟨hlt, ?_⟩
      rw [element, List.cons_append, List.cons_append, List.append_assoc]
  · rintro ⟨h, rfl⟩
    exact readElement_element h rest

theorem readOnly_element {tag : UInt8} {content : Bytes} (h : content.length < maxContent) :
    readOnly tag (element tag content) = some content := by
  have hread : readElement tag (element tag content ++ []) = some (content, []) :=
    readElement_element h []
  rw [List.append_nil] at hread
  simp [readOnly, hread]

theorem readOnly_eq_some_iff {tag : UInt8} {input content : Bytes} :
    readOnly tag input = some content ↔
      content.length < maxContent ∧ input = element tag content := by
  constructor
  · intro h
    obtain ⟨⟨found, rest⟩, hread, h⟩ := Option.bind_eq_some_iff.mp h
    obtain ⟨_, hguard, h⟩ := Option.bind_eq_some_iff.mp h
    obtain rfl : found = content := Option.some.inj h
    obtain rfl : rest = [] := by simpa [guard] using hguard
    rw [← List.append_nil (element tag found)]
    exact readElement_eq_some_iff.mp hread
  · rintro ⟨h, rfl⟩
    exact readOnly_element h

/-- Elements with one tag have the same content if they are the same. -/
theorem element_inj {tag : UInt8} {a b : Bytes} (h : element tag a = element tag b) : a = b := by
  have htail : encodeLength a.length ++ a = encodeLength b.length ++ b := (List.cons.inj h).2
  have hlengths := congrArg List.length htail
  rw [List.length_append, List.length_append] at hlengths
  -- The longer content would have the shorter length in front of it.
  have hlength : a.length = b.length := by
    rcases Nat.le_total a.length b.length with hle | hle
    · have hmono := length_encodeLength_mono hle
      omega
    · have hmono := length_encodeLength_mono hle
      omega
  rw [hlength] at htail
  exact List.append_cancel_left htail

/-! ### Integers -/

/-- The content of an integer is read back. -/
theorem integerOfContent?_integerContent (n : Nat) :
    integerOfContent? (integerContent n) = some n := by
  have hvalue := Bytes.toNat_ofNat n
  unfold integerContent
  cases hbytes : Bytes.ofNat n with
  | nil =>
    rw [hbytes] at hvalue
    obtain rfl : 0 = n := hvalue
    rfl
  | cons x rest =>
    have hx : x ≠ 0 := Bytes.ne_zero_of_ofNat_eq_cons hbytes
    rw [hbytes] at hvalue
    dsimp only
    split
    · rename_i hsmall
      have hlarge : ¬ 0x80 ≤ x := UInt8.not_le.mpr hsmall
      cases rest with
      | nil =>
        rw [integerOfContent?, if_pos hsmall]
        simpa [Bytes.toNat] using hvalue
      | cons y rest => rw [integerOfContent?, if_neg hlarge, if_neg fun h => hx h.1, hvalue]
    · rename_i hlarge
      have hzero : ¬ (0x80 : UInt8) ≤ 0 := by decide
      rw [integerOfContent?, if_neg hzero, if_neg fun h => hlarge h.2, Bytes.toNat_cons, hvalue]
      simp

/-- The content of an integer that is read is as short as possible. -/
theorem integerOfContent?_eq_some_iff {content : Bytes} {n : Nat} :
    integerOfContent? content = some n ↔ content = integerContent n := by
  constructor
  · intro h
    cases content with
    | nil => cases h
    | cons x content =>
      cases content with
      | nil =>
        rw [integerOfContent?] at h
        split at h
        · rename_i hsmall
          obtain rfl := Option.some.inj h
          by_cases hx : x = 0
          · subst hx
            rfl
          · have hbytes : Bytes.ofNat x.toNat = [x] := by
              have hvalue := Bytes.ofNat_toNat (b := [x]) (by simpa using hx)
              simpa [Bytes.toNat] using hvalue
            rw [integerContent, hbytes]
            simp only [if_pos hsmall]
        · cases h
      | cons y rest =>
        rw [integerOfContent?] at h
        split at h
        · cases h
        · rename_i hsmall
          split at h
          · cases h
          · rename_i hshort
            obtain rfl := Option.some.inj h
            have hx : x < 0x80 := UInt8.not_le.mp hsmall
            by_cases hzero : x = 0
            · subst hzero
              have hy : ¬ y < 0x80 := fun hlt => hshort ⟨rfl, hlt⟩
              have hne : y ≠ 0 := by
                rintro rfl
                exact hy (by decide)
              have hbytes : Bytes.ofNat (Bytes.toNat (0 :: y :: rest)) = y :: rest := by
                rw [Bytes.toNat_cons, UInt8.toNat_zero, Nat.zero_mul, Nat.zero_add]
                exact Bytes.ofNat_toNat (by simpa using hne)
              rw [integerContent, hbytes]
              simp only [if_neg hy]
            · have hbytes : Bytes.ofNat (Bytes.toNat (x :: y :: rest)) = x :: y :: rest :=
                Bytes.ofNat_toNat (by simpa using hzero)
              rw [integerContent, hbytes]
              simp only [if_pos hx]
  · rintro rfl
    exact integerOfContent?_integerContent n

/-- An integer is read back. -/
theorem readInteger_integer {n : Nat} (h : (integerContent n).length < maxContent)
    (rest : Bytes) : readInteger (integer n ++ rest) = some (n, rest) := by
  rw [readInteger, integer, readElement_element h]
  simp [integerOfContent?_integerContent]

theorem readInteger_eq_some_iff {input rest : Bytes} {n : Nat} :
    readInteger input = some (n, rest) ↔
      (integerContent n).length < maxContent ∧ input = integer n ++ rest := by
  constructor
  · intro h
    obtain ⟨⟨content, rest'⟩, hread, h⟩ := Option.bind_eq_some_iff.mp h
    obtain ⟨m, hcontent, h⟩ := Option.bind_eq_some_iff.mp h
    obtain ⟨rfl, rfl⟩ := Prod.mk.inj (Option.some.inj h)
    obtain rfl := integerOfContent?_eq_some_iff.mp hcontent
    exact readElement_eq_some_iff.mp hread
  · rintro ⟨h, rfl⟩
    exact readInteger_integer h rest

/-- An element is longer than its content. -/
theorem length_lt_element (tag : UInt8) (content : Bytes) :
    content.length < (element tag content).length := by
  simp only [element, List.length_append, List.length_cons]
  omega

/-- An element is only a few bytes longer than its content. -/
theorem length_element_le {tag : UInt8} {content : Bytes} (h : content.length < maxContent) :
    (element tag content).length ≤ content.length + 6 := by
  have hencoded : (encodeLength content.length).length ≤ 5 := by
    rcases encodeLength_cases h with ⟨x, heq, -⟩ | ⟨x, heq, -, -, -, -, hle⟩
    · rw [heq, List.length_singleton]
      decide
    · rw [heq, List.length_cons, Bytes.length_ofNat]
      exact Nat.succ_le_succ hle
  simp only [element, List.length_append, List.length_cons]
  omega

/-- An integer is only a few bytes longer than the number. -/
theorem length_integer_le {n : Nat} (h : Bytes.byteLength n + 1 < maxContent) :
    (integer n).length ≤ Bytes.byteLength n + 7 := by
  have hcontent : (integerContent n).length ≤ Bytes.byteLength n + 1 := by
    have hlength := Bytes.length_ofNat n
    unfold integerContent
    split
    · simp
    · rename_i x rest hbytes
      rw [hbytes] at hlength
      split
      · rw [hlength]
        exact Nat.le_succ _
      · rw [List.length_cons, hlength]
  have hinteger : (integer n).length ≤ (integerContent n).length + 6 :=
    length_element_le (lt_of_le_of_lt hcontent h)
  omega

/-- Integers behind each other are only a few bytes longer than the numbers. -/
theorem length_integers_le {ns : List Nat} {size : Nat} (h : ∀ n ∈ ns, Bytes.byteLength n ≤ size)
    (hsize : size + 1 < maxContent) :
    (ns.map integer).flatten.length ≤ ns.length * (size + 7) := by
  induction ns with
  | nil => simp
  | cons n ns ih =>
    have hn := h n List.mem_cons_self
    have hinteger : (integer n).length ≤ Bytes.byteLength n + 7 :=
      length_integer_le (lt_of_le_of_lt (Nat.succ_le_succ hn) hsize)
    have hrest := ih fun m hm => h m (List.mem_cons_of_mem n hm)
    rw [List.map_cons, List.flatten_cons, List.length_append, List.length_cons, Nat.succ_mul]
    omega

/-- Integers behind each other are read back. -/
theorem readIntegers_flatten {ns : List Nat} (h : (ns.map integer).flatten.length < maxContent) :
    readIntegers ns.length (ns.map integer).flatten = some ns := by
  induction ns with
  | nil => rfl
  | cons n ns ih =>
    rw [List.map_cons, List.flatten_cons, List.length_append] at h
    have hcontent : (integerContent n).length < (integer n).length := length_lt_element _ _
    have hread := readInteger_integer (n := n) (by omega) (ns.map integer).flatten
    rw [List.map_cons, List.flatten_cons, List.length_cons, readIntegers, hread]
    simp [ih (by omega)]

/-- Integers that are read up to the end of the input were written there. -/
theorem eq_of_readIntegers {count : Nat} {input : Bytes} {ns : List Nat}
    (h : readIntegers count input = some ns) : input = (ns.map integer).flatten := by
  induction count generalizing input ns with
  | zero =>
    rw [readIntegers] at h
    split at h
    · rename_i hempty
      obtain rfl := Option.some.inj h
      exact List.isEmpty_iff.mp hempty
    · cases h
  | succ count ih =>
    obtain ⟨⟨n, rest⟩, hread, h⟩ := Option.bind_eq_some_iff.mp h
    obtain ⟨ns, hrest, h⟩ := Option.bind_eq_some_iff.mp h
    obtain rfl := Option.some.inj h
    rw [List.map_cons, List.flatten_cons, ← ih hrest]
    exact (readInteger_eq_some_iff.mp hread).2

/-! ### Keys -/

/-- The numbers of a private key in the order in which they are written, behind the version. -/
def privateNumbers (k : Rsa.PrivateKey) : List Nat :=
  [0, k.modulus, k.publicExponent, k.privateExponent, k.prime1, k.prime2, k.exponent1, k.exponent2,
    k.coefficient]

/-- A public key that is not too long is read back. -/
theorem readPublicKey_encodePublicKey {k : Rsa.PublicKey}
    (h : ([k.modulus, k.exponent].map integer).flatten.length < maxContent) :
    readPublicKey (encodePublicKey k) = some k := by
  have hread := readIntegers_flatten h
  have honly : readOnly sequenceTag (encodePublicKey k) =
      some ([k.modulus, k.exponent].map integer).flatten := readOnly_element h
  simp only [List.length_cons, List.length_nil, Nat.zero_add, Nat.reduceAdd] at hread
  rw [readPublicKey, honly]
  simp only [Option.bind_eq_bind, Option.bind_some, hread]
  rfl

/-- An encoded public key is longer than the integers in it. -/
theorem length_integers_lt_encodePublicKeyInfo (k : Rsa.PublicKey) :
    ([k.modulus, k.exponent].map integer).flatten.length < (encodePublicKeyInfo k).length := by
  have hkey : ([k.modulus, k.exponent].map integer).flatten.length < (encodePublicKey k).length :=
    length_lt_element _ _
  have hbits := length_lt_element bitStringTag (0 :: encodePublicKey k)
  have hinfo : ([rsaAlgorithm, element bitStringTag (0 :: encodePublicKey k)].flatten).length <
      (encodePublicKeyInfo k).length := length_lt_element _ _
  simp only [List.flatten_cons, List.flatten_nil, List.length_append, List.length_cons]
    at hbits hinfo
  omega

/-- A private key that is not too long is read back. -/
theorem readPrivateKey_encodePrivateKey {k : Rsa.PrivateKey}
    (h : ((privateNumbers k).map integer).flatten.length < maxContent) :
    readPrivateKey (encodePrivateKey k) = some k := by
  have hread := readIntegers_flatten h
  have honly : readOnly sequenceTag (encodePrivateKey k) =
      some ((privateNumbers k).map integer).flatten := readOnly_element h
  rw [privateNumbers] at hread honly
  simp only [List.length_cons, List.length_nil, Nat.zero_add, Nat.reduceAdd] at hread
  rw [readPrivateKey, honly]
  simp only [Option.bind_eq_bind, Option.bind_some, hread]
  rfl

/-- What is read as a private key is what is written for it. -/
theorem readPrivateKey_eq_some_iff {input : Bytes} {k : Rsa.PrivateKey} :
    readPrivateKey input = some k ↔ input = encodePrivateKey k ∧
      ((privateNumbers k).map integer).flatten.length < maxContent := by
  constructor
  · intro h
    obtain ⟨content, honly, h⟩ := Option.bind_eq_some_iff.mp h
    obtain ⟨ns, hread, hkey⟩ := Option.bind_eq_some_iff.mp h
    obtain ⟨hlt, rfl⟩ := readOnly_eq_some_iff.mp honly
    obtain rfl := eq_of_readIntegers hread
    split at hkey
    · obtain rfl := Option.some.inj hkey
      exact ⟨rfl, hlt⟩
    · cases hkey
  · rintro ⟨rfl, h⟩
    exact readPrivateKey_encodePrivateKey h

/-- What is read of a private key that was written is this key. -/
theorem readPrivateKey_encodePrivateKey_eq_some {k key : Rsa.PrivateKey}
    (h : readPrivateKey (encodePrivateKey k) = some key) :
    key = k ∧ ((privateNumbers k).map integer).flatten.length < maxContent := by
  obtain ⟨heq, hlt⟩ := readPrivateKey_eq_some_iff.mp h
  have hnumbers : ((privateNumbers k).map integer).flatten =
      ((privateNumbers key).map integer).flatten := element_inj heq
  rw [← hnumbers] at hlt
  rw [readPrivateKey_encodePrivateKey hlt] at h
  exact ⟨(Option.some.inj h).symm, hlt⟩

end BearerAuth.Der
