/-
Command lines. Words are taken from left to right: a switch by its long or its short name, with
its value in the same word or in the next one, and everything else in the place where a command
has room for it. The first word that does not fit makes the whole line unusable; one that asks for
help or for the version ends the reading there.
-/
import AppExport.Build.Target
import AppExport.Decimal.Digits

namespace AppExport.Cli

open Build (Platform Variant)

/-- How an export is written. -/
inductive Mode where
  | tree
  | zip
  | downloads
deriving DecidableEq, Repr

inductive Command where
  | exportProject (project out : String) (mode : Mode)
  | buildProject (project out : String) (platform : Platform) (variant : Variant) (fast : Bool)
  | serve (host : String) (socket : Nat)
deriving DecidableEq, Repr

/-- Why no command is run. -/
inductive Halt where
  | unusable
  | help
  | version
deriving DecidableEq, Repr

/-! ## Switches -/

inductive Effect where
  | halt (reason : Halt)
  /-- May be given once. -/
  | flag
  /-- May be given once, with a value that it accepts. -/
  | value (accepts : String → Bool)

structure Switch where
  long : String
  short : Option Char
  effect : Effect

structure Grammar where
  switches : List Switch
  /-- Room for words that are no switches. -/
  operands : Nat

/-- What a line has given so far. -/
structure Given where
  flags : List String
  values : List (String × String)
  operands : List String
deriving Repr

namespace Given

def none : Given := ⟨[], [], []⟩

def value (g : Given) (long otherwise : String) : String := (g.values.lookup long).getD otherwise

def addFlag (s : Switch) (g : Given) : Except Halt Given :=
  if g.flags.contains s.long then .error .unusable
  else .ok { g with flags := s.long :: g.flags }

def addValue (s : Switch) (text : String) (g : Given) : Except Halt Given :=
  match s.effect with
  | .value accepts =>
    if (g.values.lookup s.long).isSome || !accepts text then .error .unusable
    else .ok { g with values := (s.long, text) :: g.values }
  | _ => .error .unusable

def addOperand (room : Nat) (word : String) (g : Given) : Except Halt Given :=
  if g.operands.length < room ∧ ¬word.isEmpty then .ok { g with operands := g.operands ++ [word] }
  else .error .unusable

end Given

/-! ## Words -/

/-- Whether a word is a switch or the mark behind which nothing is. -/
def isSwitch (word : String) : Bool :=
  match word.toList with
  | '-' :: _ :: _ => true
  | _ => false

/-- A switch by its long name; it is left over if its value is in the next word. -/
def takeLong (grammar : Grammar) (text : List Char) (g : Given) :
    Except Halt (Given × Option Switch) :=
  let name := text.takeWhile (· ≠ '=')
  let attached := text.drop name.length
  match grammar.switches.find? (·.long == String.ofList name) with
  | none => .error .unusable
  | some s =>
    match s.effect, attached with
    | .halt reason, [] => .error reason
    | .flag, [] => do return (← g.addFlag s, none)
    | .value _, [] => .ok (g, some s)
    | .value _, _ :: value => do return (← g.addValue s (String.ofList value), none)
    | _, _ :: _ => .error .unusable

/-- Switches by their short names; the first with a value has all that follows it. -/
def takeShort (grammar : Grammar) : List Char → Given → Except Halt (Given × Option Switch)
  | [], g => .ok (g, none)
  | c :: rest, g =>
    match grammar.switches.find? (·.short == some c) with
    | none => .error .unusable
    | some s =>
      match s.effect, rest with
      | .halt reason, _ => .error reason
      | .flag, _ => do takeShort grammar rest (← g.addFlag s)
      | .value _, [] => .ok (g, some s)
      | .value _, '=' :: value => do return (← g.addValue s (String.ofList value), none)
      | .value _, value => do return (← g.addValue s (String.ofList value), none)

def takeSwitch (grammar : Grammar) (word : String) (g : Given) :
    Except Halt (Given × Option Switch) :=
  match word.toList with
  | '-' :: '-' :: text => takeLong grammar text g
  | _ :: text => takeShort grammar text g
  | [] => .error .unusable

/-- The words of a command. Behind `--` there are no switches. -/
def takeWords (grammar : Grammar) (g : Given) : List String → Except Halt Given
  | [] => .ok g
  | word :: rest =>
    if word = "--" then rest.foldlM (fun g word => g.addOperand grammar.operands word) g
    else if isSwitch word then do
      match ← takeSwitch grammar word g with
      | (g, none) => takeWords grammar g rest
      | (g, some s) =>
        match rest with
        | [] => .error .unusable
        | value :: rest =>
          if isSwitch value then .error .unusable
          else takeWords grammar (← g.addValue s value) rest
    else do takeWords grammar (← g.addOperand grammar.operands word) rest

/-! ## Commands -/

def verbose : Switch := ⟨"verbose", some 'v', .flag⟩

def help : Switch := ⟨"help", some 'h', .halt .help⟩

def version : Switch := ⟨"version", some 'V', .halt .version⟩

def out : Switch := ⟨"out", some 'o', .value (!·.isEmpty)⟩

/-- The number of a socket: decimal digits, a sign before them or not. -/
def socket? (text : String) : Option Nat :=
  let (negative, digits) := match text.toList with
    | '-' :: ds => (true, ds)
    | '+' :: ds => (false, ds)
    | ds => (false, ds)
  let n := Decimal.ofDigits digits
  if digits.isEmpty || !digits.all Decimal.isDigit || 65535 < n || (negative && n != 0) then none
  else some n

def exportGrammar : Grammar where
  switches :=
    [out, ⟨"zip", none, .flag⟩, ⟨"downloads", none, .flag⟩, verbose, help]
  operands := 1

def buildGrammar : Grammar where
  switches :=
    [⟨"platform", some 'p', .value fun s => (Platform.named.lookup s).isSome⟩,
     ⟨"release", none, .flag⟩, out, ⟨"fast", none, .flag⟩, verbose, help]
  operands := 1

def serveGrammar : Grammar where
  switches :=
    [⟨"host", none, .value fun _ => true⟩, ⟨"port", some 'p', .value fun s => (socket? s).isSome⟩,
     verbose, help]
  operands := 0

/-- The switches in front of a command. -/
def commonGrammar : Grammar where
  switches := [verbose, help, version]
  operands := 0

/-- The directory that stands for itself. -/
def workingDirectory : String := "."

def exportCommand (g : Given) : Except Halt Command := do
  let mode ← match g.flags.contains "zip", g.flags.contains "downloads" with
    | true, true => .error .unusable
    | true, false => pure Mode.zip
    | false, true => pure Mode.downloads
    | false, false => pure Mode.tree
  match g.operands with
  | [project] => return .exportProject project (g.value "out" workingDirectory) mode
  | _ => .error .unusable

def buildCommand (g : Given) : Except Halt Command := do
  let platform := (Platform.named.lookup (g.value "platform" "")).getD .android
  let variant := if g.flags.contains "release" then Variant.release else .debug
  match g.operands with
  | [project] =>
    return .buildProject project (g.value "out" workingDirectory) platform variant
      (g.flags.contains "fast")
  | _ => .error .unusable

def serveCommand (g : Given) : Command :=
  .serve (g.value "host" "127.0.0.1") ((socket? (g.value "port" "")).getD 3000)

/-- Help on the whole program or on one command. -/
def helpOn : List String → Halt
  | [] => .help
  | [name] => if name ∈ ["export", "build", "serve", "help"] then .help else .unusable
  | _ => .unusable

def command (name : String) (words : List String) : Except Halt Command := do
  match name with
  | "export" => exportCommand (← takeWords exportGrammar .none words)
  | "build" => buildCommand (← takeWords buildGrammar .none words)
  | "serve" => return serveCommand (← takeWords serveGrammar .none words)
  | "help" => .error (helpOn words)
  | _ => .error .unusable

/-- The command of a line, with the switches in front of it in `g`. -/
def commandAfter (g : Given) : List String → Except Halt Command
  | [] => .error .unusable
  | word :: rest =>
    if word = "--" then .error .unusable
    else if isSwitch word then do
      let (g, _) ← takeSwitch commonGrammar word g
      commandAfter g rest
    else command word rest

def parse (words : List String) : Except Halt Command := commandAfter .none words

end AppExport.Cli
