/-!
# Refusals of the file system

Why a file or directory cannot be read or written.
-/

namespace BearerAuth

/-- Why the file system refuses. -/
inductive IoCause where
  | notFound
  | alreadyExists
  | isADirectory
  | notADirectory
  | linkLoop
  | nameTooLong
  | permissionDenied
  | storageFull
  /-- The content is not UTF-8. -/
  | invalidData
  /-- The path cannot be passed to the system. -/
  | invalidInput
  | other (message : String)
deriving DecidableEq, Repr

/-- The wording of a refusal. -/
def IoCause.message : IoCause → String
  | notFound => "No such file or directory (os error 2)"
  | alreadyExists => "File exists (os error 17)"
  | isADirectory => "Is a directory (os error 21)"
  | notADirectory => "Not a directory (os error 20)"
  | linkLoop => "Too many levels of symbolic links (os error 40)"
  | nameTooLong => "File name too long (os error 36)"
  | permissionDenied => "Permission denied (os error 13)"
  | storageFull => "No space left on device (os error 28)"
  | invalidData => "stream did not contain valid UTF-8"
  | invalidInput => "file name contained an unexpected NUL byte"
  | other message => message

end BearerAuth
