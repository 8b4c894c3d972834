/-
The primitives that components are built from in the generated source, and the primitive for each
kind. A kind without one of its own keeps its name as a tag.
-/
import AppExport.Component.Kind

namespace AppExport.Markup

open Component (Kind)

inductive Primitive where
  | container
  | text
  | button
  | textInput
  | image
  | scrollContainer
  | pressable
  | passthrough (tag : String)
deriving DecidableEq, Repr

namespace Primitive

def tag : Primitive → String
  | container => "Container"
  | text => "Text"
  | button => "Button"
  | textInput => "TextInput"
  | image => "Image"
  | scrollContainer => "ScrollContainer"
  | pressable => "Pressable"
  | passthrough tag => tag

/-- The primitives that the generated source imports where it uses them. -/
def importable : List Primitive :=
  [container, text, button, textInput, image, scrollContainer, pressable]

def isImportable : Primitive → Bool
  | passthrough _ => false
  | _ => true

end Primitive

/-- How a kind is written. -/
structure Mapping where
  primitive : Primitive
  /-- Whether children are what the kind is for. -/
  wrapsChildren : Bool
  /-- Whether the text of a node without children is shown. -/
  acceptsText : Bool
deriving DecidableEq, Repr

namespace Mapping

def wrapping (primitive : Primitive) : Mapping := ⟨primitive, true, false⟩

def leaf (primitive : Primitive) (acceptsText : Bool) : Mapping := ⟨primitive, false, acceptsText⟩

/-- The mapping of a kind, a kind of its own keeping its name. -/
def direct : Kind → Mapping
  | .container | .header | .footer | .card => wrapping .container
  | .scrollArea => wrapping .scrollContainer
  | .pressable => wrapping .pressable
  | .text => leaf .text true
  | .button => leaf .button true
  | .textInput => leaf .textInput false
  | .image => leaf .image false
  | .icon => leaf .text false
  | .toggle => leaf (.passthrough "Switch") false
  | .slider => leaf (.passthrough "Slider") false
  | .other name => leaf (.passthrough name) false

/-- A kind of its own whose name is a known one is mapped as that. -/
def ofKind : Kind → Mapping
  | .other name => direct (Kind.ofName name)
  | kind => direct kind

end Mapping
end AppExport.Markup
