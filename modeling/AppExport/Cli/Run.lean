/-
Commands as they are run: what they print, what they leave on the disk, and how they end.
-/
import AppExport.Cli.Arguments
import AppExport.Cli.Failure
import AppExport.Service.Address

namespace AppExport.Cli

open Build (Event Pacing Platform Sent Stage Variant)
open Disk (Fault Storage makeDirectories)

/-- What commands need besides a disk. -/
class Terminal (m : Type → Type) where
  printLine : String → m Unit
  /-- Waits for so many milliseconds. -/
  pause : Nat → m Unit
  /-- A random number up to a limit. -/
  draw : Nat → m Nat

/-- Printed lines kept in order; no time passes, and nothing random happens. -/
instance {m : Type → Type} [Monad m] : Terminal (StateT (List String) m) where
  printLine line := modify (· ++ [line])
  pause _ := pure ()
  draw _ := pure 0

variable {m : Type → Type} [Monad m] [Storage m]

def load (path : String) : ExceptT Failure m Document := do
  let source ← ExceptT.adapt (Failure.unreadable path) (Storage.readText path : ExceptT Fault m _)
  match Document.load source with
  | .ok document => return document
  | .error e => throw (.unloadable path e)

/-! ## Exports -/

def writeArchive (files : Bundle.FileSet) (config : Config) (directory : String) :
    ExceptT Failure m String := do
  ExceptT.adapt Failure.output (makeDirectories directory : ExceptT Fault m _)
  let path := Disk.Path.join directory (Archive.filename config)
  let entries := Archive.entries files config
  ExceptT.adapt (Failure.archive path) (Storage.write path (.archive entries) : ExceptT Fault m _)
  return path

def writeDownloads (files : Bundle.FileSet) (config : Config) (directory : String) :
    ExceptT Failure m (List String) := do
  match Bundle.downloads files config with
  | .error e => throw (.missing e)
  | .ok downloads =>
    let (paths, fault) ← (Bundle.deliverDownloads directory downloads : m _)
    match fault with
    | some fault => throw (.file fault)
    | none => return paths

/-- Gives the paths written. -/
def exportProject (project directory : String) (mode : Mode) :
    ExceptT Failure m (List String) := do
  let document ← load project
  match Bundle.assemble document.components document.config with
  | .error e => throw (.template e)
  | .ok files =>
    match mode with
    | .tree =>
      ExceptT.adapt Failure.file (Bundle.deliverSet directory files : ExceptT Fault m _)
    | .zip => return [← writeArchive files document.config directory]
    | .downloads => writeDownloads files document.config directory

/-! ## Builds -/

/-- A number of tenths with one place, in five columns. -/
def percentText (tenths : Nat) : String :=
  let text := toString (tenths / 10) ++ "." ++ toString (tenths % 10)
  "".pushn ' ' (5 - text.length) ++ text

def eventLine (platform : Platform) : Event → String
  | .progress stage => "[" ++ percentText stage.tenths ++ "%] " ++ stage.label platform
  | .completed => "Build completed"

variable [Terminal m]

/-- Prints events at their times; `clock` is the time of the one before. -/
def play (platform : Platform) (clock : Nat) : List Sent → m Unit
  | [] => return
  | sent :: rest => do
    Terminal.pause (sent.time - clock)
    Terminal.printLine (eventLine platform sent.event)
    play platform sent.time rest

def buildProject (project directory : String) (platform : Platform) (variant : Variant)
    (fast : Bool) : ExceptT Failure m Unit := do
  let document ← load project
  let pacing := if fast then Pacing.instant else .standard
  let draws ← (Stage.all.mapM fun _ => (Terminal.draw pacing.jitter : m Nat) : m (List Nat))
  let run := Build.run pacing (fun stage => draws.getD stage.index 0) none document.components
    document.config ⟨platform, variant, none⟩
  (play platform 0 run.progress.sent : m Unit)
  match run.outcome with
  | .error e => throw (.build e)
  | .ok product =>
    let path := Disk.Path.join directory product.instructionsName
    ExceptT.adapt Failure.output (do
      makeDirectories directory
      Storage.write path (.text product.instructions) : ExceptT Fault m Unit)
    (Terminal.printLine ("Artifact: " ++ product.url) : m Unit)
    (Terminal.printLine ("Instructions: " ++ path) : m Unit)

/-! ## Command lines -/

/-- How a program ends. -/
structure Report where
  code : Nat
  errors : String
deriving DecidableEq, Repr

def versionLine : String := "blueprint 0.1.0"

def usage : List String :=
  ["Usage: blueprint [-v] export PROJECT [-o DIR] [--zip | --downloads]",
   "       blueprint [-v] build PROJECT [-p android|ios|both] [--release] [-o DIR] [--fast]",
   "       blueprint [-v] serve [--host HOST] [-p PORT]"]

/-- A host that is no address is refused, and one that is as well, as nothing here can listen. -/
def runCommand : Command → ExceptT Failure m Unit
  | .exportProject project directory mode => do
    let paths ← exportProject project directory mode
    (paths.forM Terminal.printLine : m Unit)
  | .buildProject project directory platform variant fast =>
    buildProject project directory platform variant fast
  | .serve host socket =>
    if Service.isAddress host then throw (.listening host socket) else throw .address

def run (words : List String) : m Report := do
  match parse words with
  | .error .version =>
    Terminal.printLine versionLine
    return ⟨0, ""⟩
  | .error .help =>
    usage.forM Terminal.printLine
    return ⟨0, ""⟩
  | .error .unusable => return ⟨2, "\n".intercalate usage ++ "\n"⟩
  | .ok command =>
    match ← (runCommand command : ExceptT Failure m Unit).run with
    | .ok () => return ⟨0, ""⟩
    | .error failure => return ⟨1, failure.text⟩

end AppExport.Cli
