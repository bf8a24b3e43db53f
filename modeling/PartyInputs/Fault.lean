/-!
# Faults of the system

What the file system or a sink answers when it cannot do what it was asked. Numbered faults carry
the number that the system gives them.
-/

namespace PartyInputs

/-- Why an operation of the system failed. -/
inductive Fault where
  /-- A fault that the medium describes in its own words. -/
  | other (text : String)
  /-- A sink took none of the octets offered to it. -/
  | tookNothing
  /-- A path contains a null character. -/
  | nullInPath
  | notFound
  | alreadyExists
  | notDirectory
  | isDirectory
  | fileTooLarge
  | noSpace
  | nameTooLong
  deriving DecidableEq, Repr

/-- The fault in words. -/
def Fault.message : Fault → String
  | .other text => text
  | .tookNothing => "failed to write whole buffer"
  | .nullInPath => "file name contained an unexpected NUL byte"
  | .notFound => "No such file or directory (os error 2)"
  | .alreadyExists => "File exists (os error 17)"
  | .notDirectory => "Not a directory (os error 20)"
  | .isDirectory => "Is a directory (os error 21)"
  | .fileTooLarge => "File too large (os error 27)"
  | .noSpace => "No space left on device (os error 28)"
  | .nameTooLong => "File name too long (os error 36)"

end PartyInputs
