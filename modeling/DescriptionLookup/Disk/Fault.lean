/-!
# What can go wrong with files

The faults that operations on files report, with the wording and number the operating system gives
them.
-/

namespace DescriptionLookup

/-- A fault of an operation on a file or directory. -/
inductive DiskFault
  | notFound
  | notDirectory
  | isDirectory
  | exists
  | nameTooLong
  /-- The path holds a character that no path may hold. -/
  | zeroInPath
  /-- The file was read, but is no text. -/
  | notText
  /-- Any other fault, in the words of the operating system. -/
  | other (words : String)
deriving DecidableEq

/-- The words for a fault. -/
def DiskFault.message : DiskFault → String
  | .notFound => "No such file or directory (os error 2)"
  | .notDirectory => "Not a directory (os error 20)"
  | .isDirectory => "Is a directory (os error 21)"
  | .exists => "File exists (os error 17)"
  | .nameTooLong => "File name too long (os error 36)"
  | .zeroInPath => "file name contained an unexpected NUL byte"
  | .notText => "stream did not contain valid UTF-8"
  | .other words => words

end DescriptionLookup
