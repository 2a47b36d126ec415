import BearerAuth.Json.Fault

/-!
# Words of the libraries underneath

Some messages end with a reason in the words of the library that found it.  A failure keeps what the
reason was found in and never the words, so that two failures are the same only if every library
says the same about them.  The words are a parameter of the messages.
-/

namespace BearerAuth

/-- How the libraries underneath put their reasons into words. -/
structure Wording where
  /-- Why a piece of a token is not base64. -/
  segment : List Char → String
  /-- Why a document is not the header of a token, and where. -/
  header : Bytes → Json.Fault → String
  /-- Why a document does not hold claims, and where. -/
  claims : Bytes → Json.Fault → String
  /-- Why a text holds no private key. -/
  privateKey : String → String
  /-- Why the bytes of a key are refused for signing. -/
  signingKey : Bytes → String

/-- Reasons without anything that only the libraries know, such as the place in a document. -/
def Wording.brief : Wording where
  segment _ := "not base64"
  header _ fault := fault.message
  claims _ fault := fault.message
  privateKey _ := "not a private key"
  signingKey _ := "not a signing key"

end BearerAuth
