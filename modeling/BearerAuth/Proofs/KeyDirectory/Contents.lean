import Mathlib
import BearerAuth.Proofs.KeyDirectory.Places

/-!
# What key files hold

Of a key file no more is read than the greatest size and one byte, and what was read has to be a
text before its size is looked at.  A text that is not too long is given to the reader of keys as a
whole.  So a file holds a pair, or there is one of four reasons why it holds none.

Main statements: `KeyDirectory.pairAt_eq_ok_iff` and `KeyDirectory.verdict_pairAt`.
-/

namespace BearerAuth

namespace KeyDirectory

variable {fs fs' : FileSystem} {directory : Path} {place : Location} {kid : String}
  {content : Bytes} {pair : KeyPair}

/-! ### Pairs -/

/-- The pair that the file under a path holds, which is to be loaded under the key id. -/
def pairAt (fs : FileSystem) (directory : Path) (place : Location) (kid : String) :
    Except KeyFailure KeyPair :=
  keyText fs kid (pathBelow directory place) >>= KeyPair.fromPem kid

/-- A key file holds a pair if its content is a text of at most the greatest size, in which the pair
is found. -/
theorem pairAt_eq_ok_iff :
    pairAt fs directory place kid = .ok pair ↔
      ∃ text, fs.read (pathBelow directory place) = .ok (utf8 text) ∧
        (utf8 text).length ≤ maxFileSize ∧ KeyPair.ofPem? text = some pair := by
  have hpem : ∀ text, KeyPair.fromPem kid text = .ok pair ↔ KeyPair.ofPem? text = some pair := by
    intro text
    unfold KeyPair.fromPem
    cases KeyPair.ofPem? text with
    | none => simp
    | some found => simp
  rw [pairAt, Except.bind_eq_ok_iff]
  simp only [keyText_eq_ok_iff, hpem, and_assoc]

/-- The file with the text of a drawn pair holds the pair. -/
theorem pairAt_of_drawn {pem : String} (hdrawn : pair.Drawn KeyPair.defaultBits)
    (hpem : pair.privatePem = .ok pem)
    (hread : fs.read (pathBelow directory place) = .ok (utf8 pem)) :
    pairAt fs directory place kid = .ok pair := by
  rw [pairAt, keyText_of_drawn hdrawn hpem hread, Except.ok_bind,
    KeyPair.fromPem_of_drawn hdrawn hpem]

/-- What a file holds depends on what is read under its path. -/
theorem pairAt_congr
    (h : fs'.read (pathBelow directory place) = fs.read (pathBelow directory place)) :
    pairAt fs' directory place kid = pairAt fs directory place kid := by
  rw [pairAt, pairAt, keyText, keyText, readFront, readFront, h]

/-! ### Texts that are read -/

/-- The refusal of a key file for its size. -/
def tooLong (kid : String) : KeyFailure :=
  .invalidKey kid ("key file exceeds " ++ Decimal.ofNat maxFileSize ++ " bytes")

/-- The bytes that are read of the content are a text. -/
def StartsAsText (content : Bytes) : Prop :=
  ∃ front, content.take (maxFileSize + 1) = utf8 front

/-- A file that is too long is refused for its size if what is read of it is a text. -/
theorem pairAt_of_startsAsText (hread : fs.read (pathBelow directory place) = .ok content)
    (hlong : maxFileSize < content.length) (hstarts : StartsAsText content) :
    pairAt fs directory place kid = .error (tooLong kid) := by
  obtain ⟨front, hfront⟩ := hstarts
  have hsize : (utf8 front).length > maxFileSize := by
    rw [← hfront, List.length_take]
    omega
  rw [pairAt, keyText, readFront, hread]
  dsimp only
  rw [Except.ok_bind, hfront, Bytes.text?_utf8]
  dsimp only
  rw [if_pos hsize, tooLong, Except.error_bind]

/-- A file of which no text is read is refused for that, whatever its size. -/
theorem pairAt_of_not_startsAsText (hread : fs.read (pathBelow directory place) = .ok content)
    (hstarts : ¬ StartsAsText content) :
    pairAt fs directory place kid = .error (.io (pathBelow directory place) .invalidData) := by
  have hnone : Bytes.text? (content.take (maxFileSize + 1)) = none := by
    rw [Option.eq_none_iff_forall_ne_some]
    intro front hfront
    exact hstarts ⟨front, Bytes.eq_utf8_of_text? hfront⟩
  rw [pairAt, keyText, readFront, hread]
  dsimp only
  rw [Except.ok_bind, hnone, Except.error_bind]

/-- A text that is not too long is judged as a whole. -/
theorem pairAt_of_text {text : String}
    (hread : fs.read (pathBelow directory place) = .ok (utf8 text))
    (hshort : (utf8 text).length ≤ maxFileSize) :
    pairAt fs directory place kid = KeyPair.fromPem kid text := by
  rw [pairAt, keyText_eq_ok_iff.mpr ⟨hread, hshort⟩, Except.ok_bind]

/-! ### Verdicts -/

/-- What is made of a key file for a key id, by what is read under its path: the reason why it holds
no pair, or the pair that it holds. -/
inductive Verdict (path : Path) (kid : String) :
    Except IoCause Bytes → Except KeyFailure KeyPair → Prop
  | unread (cause : IoCause) : Verdict path kid (.error cause) (.error (.io path cause))
  | notText {content : Bytes} (broken : ¬ StartsAsText content) :
      Verdict path kid (.ok content) (.error (.io path .invalidData))
  | tooLong {content : Bytes} (text : StartsAsText content)
      (long : maxFileSize < content.length) :
      Verdict path kid (.ok content) (.error (tooLong kid))
  | notKey {text : String} (short : (utf8 text).length ≤ maxFileSize)
      (keyless : KeyPair.ofPem? text = none) :
      Verdict path kid (.ok (utf8 text)) (.error (.notPrivateKey kid text))
  | pair {text : String} {pair : KeyPair} (short : (utf8 text).length ≤ maxFileSize)
      (holds : KeyPair.ofPem? text = some pair) :
      Verdict path kid (.ok (utf8 text)) (.ok pair)

/-- The verdict on a key file is reached by what is read under its path. -/
theorem verdict_pairAt (fs : FileSystem) (directory : Path) (place : Location) (kid : String) :
    Verdict (pathBelow directory place) kid (fs.read (pathBelow directory place))
      (pairAt fs directory place kid) := by
  cases hread : fs.read (pathBelow directory place) with
  | error cause =>
    have herror : pairAt fs directory place kid =
        .error (.io (pathBelow directory place) cause) := by
      rw [pairAt, keyText, readFront, hread]
      rfl
    rw [herror]
    exact .unread cause
  | ok content =>
    by_cases hstarts : StartsAsText content
    · by_cases hlong : maxFileSize < content.length
      · rw [pairAt_of_startsAsText hread hlong hstarts]
        exact .tooLong hstarts hlong
      · -- What is read of a file that is not too long is the whole of it.
        obtain ⟨text, htext⟩ := hstarts
        rw [List.take_of_length_le (by omega)] at htext
        subst htext
        rw [pairAt_of_text hread (Nat.not_lt.mp hlong), KeyPair.fromPem]
        cases hpem : KeyPair.ofPem? text with
        | none => exact .notKey (Nat.not_lt.mp hlong) hpem
        | some pair => exact .pair (Nat.not_lt.mp hlong) hpem
    · rw [pairAt_of_not_startsAsText hread hstarts]
      exact .notText hstarts

end KeyDirectory

end BearerAuth
