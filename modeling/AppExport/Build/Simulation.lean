/-
A simulated build. Each stage is announced and then takes a while: a fixed delay, and a random part
up to the jitter. After the last stage the project is assembled. A listener hears what is sent
until it leaves, and whether it stays makes no difference to the build.
-/
import AppExport.Build.Instructions
import AppExport.Build.Stage
import AppExport.Bundle.Assemble

namespace AppExport.Build

open Component (Forest)
open Template (TemplateError)

/-- How long stages take, in milliseconds. -/
structure Pacing where
  delay : Nat
  jitter : Nat
deriving DecidableEq, Repr

def Pacing.instant : Pacing := ⟨0, 0⟩

def Pacing.standard : Pacing := ⟨1000, 2000⟩

/-- How long a stage takes if `drawn` is the random part, which is at most the jitter. -/
def Pacing.time (p : Pacing) (drawn : Nat) : Nat := p.delay + min drawn p.jitter

inductive Event where
  | progress (stage : Stage)
  | completed
deriving DecidableEq, Repr

/-- An event and the milliseconds from the start of the build to it. -/
structure Sent where
  time : Nat
  event : Event
deriving DecidableEq, Repr

/-- The events a listener hears before it leaves; none if it stays. -/
abbrev Patience := Option Nat

inductive Failure where
  | packageName (name : String)
  | template (error : TemplateError)
deriving DecidableEq, Repr

def Failure.message : Failure → String
  | packageName name =>
    "Invalid package identifier '" ++ name ++
      "': expected reverse-domain form such as com.example.app"
  | template error => error.message

structure Product where
  url : String
  instructionsName : String
  instructions : String
  fileCount : Nat
deriving DecidableEq, Repr

/-- The last part of a product's file name. -/
def Platform.suffix : Platform → String
  | ios => "ipa"
  | android | both => "apk"

def product (forest : Forest) (config : Config) (target : Target) :
    Except TemplateError Product := do
  let files ← Bundle.assemble forest config
  let text ← instructions config target
  return {
    url := "https://example.com/builds/" ++ config.token ++ "." ++ target.platform.suffix
    instructionsName := Instructions.filename config
    instructions := text
    fileCount := files.size }

/-! ## Runs -/

/-- A build under way. -/
structure Progress where
  /-- Milliseconds since the start. -/
  clock : Nat
  sent : List Sent
  heard : List Event
deriving DecidableEq, Repr

namespace Progress

def start : Progress := ⟨0, [], []⟩

def send (patience : Patience) (event : Event) (p : Progress) : Progress where
  clock := p.clock
  sent := p.sent ++ [⟨p.clock, event⟩]
  heard := if patience.all (p.heard.length < ·) then p.heard ++ [event] else p.heard

def wait (milliseconds : Nat) (p : Progress) : Progress :=
  { p with clock := p.clock + milliseconds }

end Progress

structure Run where
  progress : Progress
  outcome : Except Failure Product

/-- The stages one after the other; `draws` has the random part of each. -/
def runStages (pacing : Pacing) (draws : Stage → Nat) (patience : Patience) :
    List Stage → Progress → Progress
  | [], p => p
  | stage :: rest, p =>
    runStages pacing draws patience rest
      ((p.send patience (.progress stage)).wait (pacing.time (draws stage)))

/-- A build without a proper package name fails at once. -/
def run (pacing : Pacing) (draws : Stage → Nat) (patience : Patience) (forest : Forest)
    (config : Config) (target : Target) : Run :=
  if Naming.isPackageIdentifier config.packageName then
    let p := runStages pacing draws patience Stage.all .start
    match product forest config target with
    | .ok made => ⟨p.send patience .completed, .ok made⟩
    | .error e => ⟨p, .error (.template e)⟩
  else ⟨.start, .error (.packageName config.packageName)⟩

end AppExport.Build
