import BearerAuth.Der
import BearerAuth.Der.Leaf
import BearerAuth.Pem.Lenient

/-!
# Key material

The bytes of a key as signing and verification take them from a text: any first block with a known
label counts.  Labels of bare keys stand for their content; the other labels stand for the first
string in a content that names the algorithm RSA.  Whether the bytes are a key is seen later.
-/

namespace BearerAuth

/-- The bytes of a key that may still turn out not to be one. -/
structure KeyMaterial where
  bytes : Bytes
deriving DecidableEq, Repr

namespace KeyMaterial

/-- The labels of blocks that hold a bare key. -/
def bareLabels : List String := ["RSA PRIVATE KEY", "RSA PUBLIC KEY"]

/-- The labels of blocks that name the algorithm of the key. -/
def wrappedLabels : List String := ["PRIVATE KEY", "PUBLIC KEY", "CERTIFICATE"]

/-- The key bytes of a block. -/
def ofBlock? (b : Pem.Block) : Option KeyMaterial := do
  let leaves ← Der.Leaf.ofBytes b.content
  if b.label ∈ bareLabels then return ⟨b.content⟩
  else do
    guard (b.label ∈ wrappedLabels)
    guard (Der.Leaf.findFamily? leaves = some .rsa)
    return ⟨← Der.Leaf.findString? leaves⟩

/-- The key bytes of a text. -/
def ofPem? (pem : String) : Option KeyMaterial :=
  (Pem.Block.decodeLenient? (utf8 pem)).bind ofBlock?

/-- The public key, if it is one. -/
def publicKey? (m : KeyMaterial) : Option Rsa.PublicKey :=
  Der.readPublicKey m.bytes

/-- The private key, if it is one. -/
def privateKey? (m : KeyMaterial) : Option Rsa.PrivateKey :=
  Der.readPrivateKey m.bytes

end KeyMaterial

end BearerAuth
