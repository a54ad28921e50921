/-!
# File faults

Why an operation on a file tree was refused.
-/

namespace TypedId

inductive FileFault where
  /-- A name on the way leads nowhere. -/
  | missing
  /-- A file stands where a directory is needed. -/
  | notDirectory
  /-- A directory stands where a file is needed. -/
  | isDirectory
  /-- Something else has the name already. -/
  | taken
  /-- The bytes of a file are no text. -/
  | notText
  /-- The way leaves the directory that it may not leave. -/
  | outside
  /-- A name is longer than a directory can hold, or a whole way than can be followed. -/
  | nameTooLong
  /-- The way can name nothing, or nothing that the operation applies to. -/
  | invalid
deriving DecidableEq, Repr

namespace FileFault

/-- The words of the operating system. -/
def describe : FileFault → String
  | missing => "No such file or directory (os error 2)"
  | notDirectory => "Not a directory (os error 20)"
  | isDirectory => "Is a directory (os error 21)"
  | taken => "File exists (os error 17)"
  | notText => "stream did not contain valid UTF-8"
  | outside => "a path led outside of the filesystem"
  | nameTooLong => "File name too long (os error 36)"
  | invalid => "file name contained an unexpected NUL byte"

end FileFault
end TypedId
