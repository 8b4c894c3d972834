/-
What a disk refuses, with the numbers under which systems know it.
-/
namespace AppExport.Disk

inductive Fault where
  | notFound
  | taken
  | notDirectory
  | isDirectory
  | nameTooLong
  | nulInName
  | notUtf8
  | other (details : String) (number : Nat)
deriving DecidableEq, Repr

namespace Fault

def numbered (details : String) (number : Nat) : String :=
  details ++ " (os error " ++ toString number ++ ")"

def message : Fault → String
  | notFound => numbered "No such file or directory" 2
  | taken => numbered "File exists" 17
  | notDirectory => numbered "Not a directory" 20
  | isDirectory => numbered "Is a directory" 21
  | nameTooLong => numbered "File name too long" 36
  | nulInName => "file name contained an unexpected NUL byte"
  | notUtf8 => "stream did not contain valid UTF-8"
  | other details number => numbered details number

/-- The fault that a system has under a number. -/
def ofNumber (details : String) (number : Nat) : Fault :=
  if number = 2 then notFound
  else if number = 17 then taken
  else if number = 20 then notDirectory
  else if number = 21 then isDirectory
  else if number = 36 then nameTooLong
  else other details number

end Fault
end AppExport.Disk
