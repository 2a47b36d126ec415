import BearerAuth.FileTree.IoCause
import BearerAuth.FileTree.Path
import BearerAuth.Wording

/-!
# Failures of key sources

Why a source of keys cannot answer.  None of these is repeated by the library; those that may pass
by themselves are told apart by `KeyFailure.mayPass`.
-/

namespace BearerAuth

/-- Why a source of keys cannot answer. -/
inductive KeyFailure where
  /-- No key pair is registered under the key id. -/
  | notFound (kid : String)
  /-- There is key material, and it cannot be parsed. -/
  | invalidKey (kid message : String)
  /-- There is a text, and it does not hold a private key. -/
  | notPrivateKey (kid pem : String)
  /-- A file or directory cannot be read or written. -/
  | io (path : Path) (cause : IoCause)
  /-- The secret store cannot be reached. -/
  | connection (message : String)
  /-- The secret store cannot be reached, for a known reason. -/
  | connectionCausedBy (message : String) (source : KeyFailure)
  /-- The secret store does not answer in time. -/
  | timeout
  /-- Any other failure. -/
  | internal (message : String)
deriving DecidableEq, Repr, Inhabited

namespace KeyFailure

/-- The wording of a failure. -/
def message (w : Wording) : KeyFailure → String
  | notFound kid => "Key not found: " ++ kid
  | invalidKey kid message => "Invalid key " ++ kid ++ ": " ++ message
  | notPrivateKey kid pem =>
      "Invalid key " ++ kid ++ ": parsing private key: " ++ w.privateKey pem
  | io path cause => "I/O error reading " ++ path.display ++ ": " ++ cause.message
  | connection message | connectionCausedBy message _ => "Connection error: " ++ message
  | timeout => "Operation timeout"
  | internal message => "Internal error: " ++ message

/-- The wording of the failure behind a failure. -/
def sourceMessage? (w : Wording) : KeyFailure → Option String
  | io _ cause => some cause.message
  | connectionCausedBy _ source => some (source.message w)
  | _ => none

/-- The failure may pass by itself. -/
def mayPass : KeyFailure → Bool
  | connection _ | connectionCausedBy .. | timeout => true
  | _ => false

end KeyFailure

end BearerAuth
