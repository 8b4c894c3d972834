/-
A saved project: a forest of components and its configuration. A project is loaded if its text
decodes and no two of its nodes share an id.
-/
import AppExport.Component.Codec
import AppExport.Config

namespace AppExport

open Component (Forest)
open Json (DecodeError Decoder Record Value)

structure Document where
  components : Forest
  config : Config
deriving Repr

inductive LoadError where
  | malformed (error : DecodeError)
  | repeatedId (id : String)
deriving DecidableEq, Repr

def LoadError.message : LoadError → String
  | malformed e => "Invalid project document: " ++ e.message
  | repeatedId id => "Duplicate component id: " ++ id

namespace Document

def toJson (d : Document) : Value :=
  .object [("components", d.components.toJson), ("config", d.config.toJson)]

structure Draft where
  components : Option Forest := none
  config : Option Config := none

def record : Record Draft Document where
  label := "struct ProjectDocument"
  fields :=
    [.slot "components" [] false (·.components) ({ · with components := some · })
       Component.forest,
     .slot "config" [] false (·.config) ({ · with config := some · }) Config.decoder]
  others := none
  positional := true
  start := {}
  finish d := do return ⟨← d.components, ← d.config⟩

def decode (text : String) : Except DecodeError Document := Json.decode record.decoder text

/-- The forest, if its ids are distinct. -/
def checkIds (forest : Forest) : Except LoadError Unit :=
  match forest.repeatedId? with
  | some id => .error (.repeatedId id)
  | none => .ok ()

def load (text : String) : Except LoadError Document := do
  let document ← (decode text).mapError .malformed
  checkIds document.components
  return document

end Document
end AppExport
