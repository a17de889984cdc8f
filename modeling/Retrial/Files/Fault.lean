/-!
# Faults of the file system and of output

What the operating system answers when it refuses. Each refusal has its number
and its text; a fault that does not come from the system carries a text of its
own.
-/

set_option autoImplicit false

namespace Retrial

inductive IoFault
  | noSuchEntry
  | accessDenied
  | alreadyExists
  | notADirectory
  | isADirectory
  | nameTooLong
  | notEmpty
  | tooManyLinks
  | invalidArgument
  | badDescriptor
  | noSuchDevice
  | noSpaceLeft
  | executableFormat
  | argumentsTooLong
  | other (text : String)
  deriving DecidableEq, Repr

namespace IoFault

def reason : IoFault → String
  | .noSuchEntry => "No such file or directory"
  | .argumentsTooLong => "Argument list too long"
  | .executableFormat => "Exec format error"
  | .accessDenied => "Permission denied"
  | .alreadyExists => "File exists"
  | .notADirectory => "Not a directory"
  | .isADirectory => "Is a directory"
  | .nameTooLong => "File name too long"
  | .notEmpty => "Directory not empty"
  | .tooManyLinks => "Too many levels of symbolic links"
  | .invalidArgument => "Invalid argument"
  | .badDescriptor => "Bad file descriptor"
  | .noSuchDevice => "No such device or address"
  | .noSpaceLeft => "No space left on device"
  | .other text => text

def number? : IoFault → Option Nat
  | .noSuchEntry => some 2
  | .argumentsTooLong => some 7
  | .executableFormat => some 8
  | .accessDenied => some 13
  | .alreadyExists => some 17
  | .notADirectory => some 20
  | .isADirectory => some 21
  | .nameTooLong => some 36
  | .notEmpty => some 39
  | .tooManyLinks => some 40
  | .invalidArgument => some 22
  | .badDescriptor => some 9
  | .noSuchDevice => some 6
  | .noSpaceLeft => some 28
  | .other _ => none

def message (f : IoFault) : String :=
  match f.number? with
  | some n => f.reason ++ " (os error " ++ toString n ++ ")"
  | none => f.reason

def nulInPath : IoFault := .other "file name contained an unexpected NUL byte"

end IoFault

end Retrial
