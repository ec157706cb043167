/-!
# Why a file cannot be read or written
-/

namespace Calligraph

inductive FileError where
  | notFound
  | permissionDenied
  /-- Something below a file is asked for. -/
  | notDirectory
  /-- A directory stands where a file is asked for. -/
  | isDirectory
  | noSpace
  | brokenPipe
  /-- A name or the whole path is longer than file systems allow. -/
  | nameTooLong
  | tooManyLinks
  /-- The path holds the byte that ends texts for the operating system. -/
  | nulInName
  /-- The content is not the code of a text. -/
  | notText
  | other (text : String)
deriving Repr, DecidableEq, Inhabited

def FileError.message : FileError → String
  | .notFound => "No such file or directory (os error 2)"
  | .permissionDenied => "Permission denied (os error 13)"
  | .notDirectory => "Not a directory (os error 20)"
  | .isDirectory => "Is a directory (os error 21)"
  | .noSpace => "No space left on device (os error 28)"
  | .brokenPipe => "Broken pipe (os error 32)"
  | .nameTooLong => "File name too long (os error 36)"
  | .tooManyLinks => "Too many levels of symbolic links (os error 40)"
  | .nulInName => "file name contained an unexpected NUL byte"
  | .notText => "stream did not contain valid UTF-8"
  | .other text => text

end Calligraph
