/-!
# Faults of file operations

Why a file cannot be opened, read or written, in the words of the operating system.
-/

namespace Symbolicate

/-- Why a file operation fails. -/
inductive FileError where
  | notFound
  | notADirectory
  | isADirectory
  | nameTooLong
  | alreadyExists
  | invalidName
  | other (message : String)
  deriving DecidableEq, Repr

def FileError.message : FileError → String
  | notFound => "No such file or directory (os error 2)"
  | notADirectory => "Not a directory (os error 20)"
  | isADirectory => "Is a directory (os error 21)"
  | nameTooLong => "File name too long (os error 36)"
  | alreadyExists => "File exists (os error 17)"
  | invalidName => "file name contained an unexpected NUL byte"
  | other message => message

end Symbolicate
