/-!
# System errors

Reasons for which an operation on files fails, with the wording that the operating system and the
file layer give them.
-/

namespace EdgeBundle

/-- Reason for a failed operation on files. -/
inductive OsError where
  /-- A path component does not exist. -/
  | notFound
  /-- Access is denied. -/
  | permissionDenied
  /-- The name is taken. -/
  | alreadyExists
  /-- A component that is used as a directory is none. -/
  | notDirectory
  /-- A directory stands where a file is needed. -/
  | isDirectory
  /-- A directory to be replaced has entries. -/
  | directoryNotEmpty
  /-- A name is longer than the system allows. -/
  | nameTooLong
  /-- Symbolic links lead on without end. -/
  | tooManyLinks
  /-- What is asked for is in use, like the folder that a path ends in. -/
  | busy
  /-- An argument the system does not accept. -/
  | invalidInput
  /-- A path holds a character that ends it for the system. -/
  | nulInPath
  /-- The bytes of a text file are not UTF-8. -/
  | invalidUtf8
  /-- A directory walk came back to a directory that it is in. -/
  | directoryLoop
  /-- No home directory is known. -/
  | noHome
  /-- Any other reason, in the system's words. -/
  | other (text : String)
  deriving DecidableEq, Repr

/-- Wording of a reason. -/
def OsError.message : OsError → String
  | notFound => "No such file or directory (os error 2)"
  | permissionDenied => "Permission denied (os error 13)"
  | alreadyExists => "File exists (os error 17)"
  | notDirectory => "Not a directory (os error 20)"
  | isDirectory => "Is a directory (os error 21)"
  | directoryNotEmpty => "Directory not empty (os error 39)"
  | nameTooLong => "File name too long (os error 36)"
  | tooManyLinks => "Too many levels of symbolic links (os error 40)"
  | busy => "Device or resource busy (os error 16)"
  | invalidInput => "Invalid argument (os error 22)"
  | nulInPath => "file name contained an unexpected NUL byte"
  | invalidUtf8 => "stream did not contain valid UTF-8"
  | directoryLoop => "filesystem loop detected"
  | noHome => "Cannot determine home directory"
  | other text => text

/-- The reason with a number, as the system counts them. -/
def OsError.ofNumber? : Nat → Option OsError
  | 2 => some notFound
  | 13 => some permissionDenied
  | 16 => some busy
  | 17 => some alreadyExists
  | 20 => some notDirectory
  | 21 => some isDirectory
  | 22 => some invalidInput
  | 36 => some nameTooLong
  | 39 => some directoryNotEmpty
  | 40 => some tooManyLinks
  | _ => none

end EdgeBundle
