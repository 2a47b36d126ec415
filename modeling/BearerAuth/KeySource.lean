import BearerAuth.KeyPair
import BearerAuth.Registry

/-!
# Sources of keys

A service asks a source for keys by their ids.  A source may change with every question; its state
is threaded through.  `KeyStore` holds key pairs in memory, and `KeySource.counting` wraps a source
so that questions are counted and can be made to fail.
-/

namespace BearerAuth

/-- A source of keys with a state. -/
structure KeySource (σ : Type) where
  /-- The private key under which tokens of a key id are signed. -/
  privatePem : String → σ → Except KeyFailure String × σ
  /-- The public key under which tokens of a key id are verified. -/
  publicPem : String → σ → Except KeyFailure String × σ

/-! ### Stores -/

/-- Key pairs by their ids. -/
structure KeyStore where
  pairs : Registry KeyPair
deriving DecidableEq

namespace KeyStore

/-- The store without keys. -/
def empty : KeyStore := ⟨Registry.empty⟩

instance : Inhabited KeyStore := ⟨empty⟩

/-- Registers a pair, in place of an earlier one. -/
def insert (s : KeyStore) (kid : String) (pair : KeyPair) : KeyStore :=
  ⟨s.pairs.insert kid pair⟩

/-- Reads a pair and registers it. -/
def load (s : KeyStore) (kid pem : String) : Except KeyFailure KeyStore :=
  (KeyPair.fromPem kid pem).map (s.insert kid)

/-- Removes the pair of a key id. -/
def remove (s : KeyStore) (kid : String) : KeyStore :=
  ⟨s.pairs.erase kid⟩

/-- Some pair is registered under the key id. -/
def contains (s : KeyStore) (kid : String) : Bool :=
  s.pairs.contains kid

/-- The registered key ids, in order. -/
def kids (s : KeyStore) : List String :=
  s.pairs.names

/-- The number of registered pairs. -/
def size (s : KeyStore) : Nat :=
  s.pairs.size

/-- The pair of a key id. -/
def pair (s : KeyStore) (kid : String) : Except KeyFailure KeyPair :=
  match s.pairs.find? kid with
  | some pair => .ok pair
  | none => .error (.notFound kid)

/-- The private key of a key id as text. -/
def privatePem (s : KeyStore) (kid : String) : Except KeyFailure String :=
  (s.pair kid).bind KeyPair.privatePem

/-- The public key of a key id as text. -/
def publicPem (s : KeyStore) (kid : String) : Except KeyFailure String :=
  (s.pair kid).map KeyPair.publicPem

/-- A store as a source, which questions do not change. -/
def source : KeySource KeyStore where
  privatePem kid s := (s.privatePem kid, s)
  publicPem kid s := (s.publicPem kid, s)

end KeyStore

/-! ### Counted sources -/

/-- The state of a counted source. -/
structure Counted (σ : Type) where
  inner : σ
  privateCalls : Nat
  publicCalls : Nat
  /-- The failure with which every question is answered, if any. -/
  failure : Option (String → KeyFailure)

namespace Counted

variable {σ : Type}

/-- The state before any question. -/
def start (inner : σ) : Counted σ := ⟨inner, 0, 0, none⟩

/-- Changes the source behind the counter. -/
def mapInner (s : Counted σ) (f : σ → σ) : Counted σ :=
  { s with inner := f s.inner }

end Counted

namespace KeySource

variable {σ : Type}

/-- Answers a question with the failure, if one is set, and otherwise from the source behind. -/
def failing (ask : String → σ → Except KeyFailure String × σ) (kid : String) (s : Counted σ) :
    Except KeyFailure String × Counted σ :=
  match s.failure with
  | some failure => (.error (failure kid), s)
  | none =>
      let (answer, inner) := ask kid s.inner
      (answer, { s with inner })

/-- Counts the questions to a source; failures are counted too. -/
def counting (source : KeySource σ) : KeySource (Counted σ) where
  privatePem kid s := failing source.privatePem kid { s with privateCalls := s.privateCalls + 1 }
  publicPem kid s := failing source.publicPem kid { s with publicCalls := s.publicCalls + 1 }

end KeySource

end BearerAuth
