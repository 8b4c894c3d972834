/-
Why a command fails, and how it says so: what failed, then what caused it, each cause on lines of
its own.
-/
import AppExport.Build.Simulation
import AppExport.Bundle.Delivery
import AppExport.Document

namespace AppExport.Cli

open AppExport.Bundle (MissingFile)
open Disk (Fault)
open Template (TemplateError)

inductive Failure where
  | unreadable (path : String) (fault : Fault)
  | unloadable (path : String) (error : LoadError)
  | template (error : TemplateError)
  | missing (error : MissingFile)
  /-- A generated file that could not be written. -/
  | file (fault : Fault)
  /-- An archive that could not be written. -/
  | archive (path : String) (fault : Fault)
  /-- A directory or a document that could not be written. -/
  | output (fault : Fault)
  | build (error : Build.Failure)
  | address
  | listening (host : String) (socket : Nat)
deriving DecidableEq, Repr

namespace Failure

/-- What failed, and the causes from the nearest to the last. -/
def chain : Failure → String × List String
  | unreadable path fault => ("failed to read " ++ path, [fault.message])
  | unloadable path (.malformed e) =>
    ("failed to parse " ++ path, [(LoadError.malformed e).message, e.message])
  | unloadable _ e => (e.message, [])
  | template e => (e.message, [])
  | missing e => (e.message, [])
  | file fault => ("IO error: " ++ fault.message, [fault.message])
  | archive path fault => ("failed to create " ++ path, [fault.message])
  | output fault => (fault.message, [])
  | build e => ("build failed: " ++ e.message, [])
  | address => ("invalid socket address syntax", [])
  | listening host socket => ("cannot listen on " ++ host ++ ":" ++ toString socket, [])

/-- A text with `first` before its first line and `others` before the rest. -/
def hung (first others text : String) : String :=
  first ++ String.ofList ((('\n' :: others.toList).intercalate (Text.pieces '\n' text.toList)))

/-- Several causes are numbered. -/
def causeLines : List String → List String
  | [] => []
  | [cause] => [hung "    " "    " cause]
  | causes => causes.mapIdx fun i cause => hung ("    " ++ toString i ++ ": ") "       " cause

def text (f : Failure) : String :=
  let (head, causes) := f.chain
  let lines := ("Error: " ++ head) ::
    (if causes.isEmpty then [] else "" :: "Caused by:" :: causeLines causes)
  "\n".intercalate lines ++ "\n"

end Failure
end AppExport.Cli
