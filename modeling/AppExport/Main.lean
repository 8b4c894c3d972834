/-
The program: command lines run on the disk and the terminal of the machine.
-/
import AppExport.Archive.Container
import AppExport.Cli.Run

namespace AppExport

open Disk (Content Fault Storage)

/-- A refusal of the system as a fault. -/
def faultOf : IO.Error → Fault
  | .alreadyExists _ n s | .invalidArgument _ n s | .permissionDenied _ n s
  | .resourceExhausted _ n s | .inappropriateType _ n s | .noSuchThing _ n s
  | .interrupted _ n s | .noFileOrDirectory _ n s | .otherError n s | .resourceBusy n s
  | .resourceVanished n s | .unsupportedOperation n s | .hardwareFault n s
  | .unsatisfiedConstraints n s | .illegalOperation n s | .protocolError n s
  | .timeExpired n s => .ofNumber s n.toNat
  | e => .other e.toString 0

def attempt {α : Type} (call : IO α) : ExceptT Fault IO α := ExceptT.mk do
  try
    return .ok (← call)
  catch e =>
    return .error (faultOf e)

def readBytes (path : String) : IO ByteArray := do
  (← IO.FS.Handle.mk path .read).readBinToEnd

def Disk.Content.bytes : Content → ByteArray
  | .text s => s.toUTF8
  | .archive entries => ⟨(Archive.container entries).toArray⟩

instance : Storage IO where
  readText path := do
    match String.fromUTF8? (← attempt (readBytes path)) with
    | some s => return s
    | none => throw .notUtf8
  /- Below a directory `.` is taken, and below anything else it cannot be made. -/
  isDirectory path := do
    match ← (attempt (IO.FS.createDir (path ++ "/."))).run with
    | .error .taken => return true
    | _ => return false
  makeDirectory path := attempt (IO.FS.createDir path)
  write path content := attempt (IO.FS.writeBinFile path content.bytes)

instance : Cli.Terminal IO where
  printLine line := IO.println line
  pause milliseconds := IO.sleep milliseconds.toUInt32
  draw limit := IO.rand 0 limit

end AppExport

def main (words : List String) : IO UInt32 := do
  let report : AppExport.Cli.Report ← AppExport.Cli.run words
  IO.eprint report.errors
  return report.code.toUInt32
