/-!
# Errors of the file system
-/

namespace BenchStats

/-- Why the file system refuses an operation, or why a file is no text. -/
inductive FileError where
  | notFound
  | alreadyExists
  | notDirectory
  | isDirectory
  | nameTooLong
  | noSpace
  /-- A path with a null character names nothing. -/
  | nullInPath
  /-- The bytes of a file are not the UTF-8 form of a text. -/
  | notText
  /-- Any other refusal, in the words of the operating system. -/
  | other (message : String)
  deriving DecidableEq

def FileError.message : FileError → String
  | .notFound => "No such file or directory (os error 2)"
  | .alreadyExists => "File exists (os error 17)"
  | .notDirectory => "Not a directory (os error 20)"
  | .isDirectory => "Is a directory (os error 21)"
  | .nameTooLong => "File name too long (os error 36)"
  | .noSpace => "No space left on device (os error 28)"
  | .nullInPath => "file name contained an unexpected NUL byte"
  | .notText => "stream did not contain valid UTF-8"
  | .other message => message

end BenchStats
