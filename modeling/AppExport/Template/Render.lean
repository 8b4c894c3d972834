/-
Rendering. A word that names no helper is looked up in the data: an object by its keys, a list by
positions only, anything else has no members. What is missing renders as nothing.
-/
import AppExport.Template.Helpers
import AppExport.Template.Source

namespace AppExport.Template

open Json (Value)

/-! ## Data -/

/-- A position in a list: decimal digits, a plus sign before them or not, that fit 64 bits. -/
def index? (key : String) : Option Nat :=
  let digits := match key.toList with
    | '+' :: ds => ds
    | ds => ds
  if digits.isEmpty || !digits.all Decimal.isDigit then none
  else
    let n := Decimal.ofDigits digits
    if n < 0x1_0000_0000_0000_0000 then some n else none

/-- The member of a value under a key. -/
def member? (key : String) : Value → Except TagFault (Option Value)
  | .object entries => .ok (entries.lookup key)
  | .list items =>
    match index? key with
    | some i => .ok items[i]?
    | none => .error (.listByName key)
  | _ => .ok none

def lookup? : List String → Value → Except TagFault (Option Value)
  | [], v => .ok (some v)
  | key :: rest, v => do
    match ← member? key v with
    | some v => lookup? rest v
    | none => .ok none

/-- What a path leads to. -/
def Path.value? (data : Value) (p : Path) : Except TagFault (Option Value) :=
  if p.ofBlock then .ok none else lookup? p.segments data

/-! ## Tags -/

/-- What is missing counts as null. -/
def Argument.value (data : Value) : Argument → Except TagFault Value
  | path p => return (← p.value? data).getD .null
  | constant v => .ok v

def renderTag (data : Value) (head : Path) (arguments : List Argument) :
    Except TagFault (List Char) := do
  let values ← arguments.mapM (·.value data)
  match helper? head.written with
  | some helper => helper values
  | none =>
    if arguments.isEmpty then return ((← head.value? data).map shown).getD []
    else .error (.unknownHelper head.written)

/-- The text of a template called `name`. -/
def renderPieces (name : String) (data : Value) : Template → Except TemplateError (List Char)
  | [] => .ok []
  | .text s :: rest => return s.toList ++ (← renderPieces name data rest)
  | .tag mark head arguments :: rest => do
    let text ← (renderTag data head arguments).mapError (.tag name mark)
    return text ++ (← renderPieces name data rest)

/-- What a template without a name is called. -/
def unnamed : String := "Unnamed template"

def renderText (source : String) (data : Value) : Except TemplateError String := do
  match ofText? source with
  | none => .error .malformed
  | some template => return String.ofList (← renderPieces unnamed data template)

/-! ## Named templates -/

/-- Templates by name. -/
structure Engine where
  templates : List (String × Template)

namespace Engine

def empty : Engine := ⟨[]⟩

/-- A template under a name, in the place of an earlier one; a malformed one changes nothing. -/
def register (name source : String) (engine : Engine) : Except TemplateError Engine :=
  match ofText? source with
  | none => .error .malformed
  | some template => .ok ⟨(name, template) :: engine.templates⟩

def render (engine : Engine) (name : String) (data : Value) : Except TemplateError String := do
  match engine.templates.lookup name with
  | none => .error (.unknownTemplate name)
  | some template => return String.ofList (← renderPieces name data template)

end Engine
end AppExport.Template
