/-
Edits of one node. A style typed in as JSON replaces the nested style if it is an object, and is
dropped otherwise.
-/
import AppExport.Component.Codec

namespace AppExport.Component

open Json (Value)

inductive Edit where
  | text (value : String)
  | placeholder (value : String)
  | source (value : String)
  | styleEntry (key : String) (value : Value)
  | shorthand (which : Shorthand) (value : Value)
  | styleText (raw : String)
  | child (node : Node)
deriving Repr

/-- The style a typed text stands for, if it is an object. -/
def styleOfText? (raw : String) : Option Style :=
  match Json.decode (Json.objectOf "a map") raw with
  | .ok entries => some (.ofEntries entries)
  | .error _ => none

namespace Edit

/-- Whether the edit takes effect. -/
def accepted : Edit → Bool
  | styleText raw => (styleOfText? raw).isSome
  | _ => true

def applyToProps (p : Props) : Edit → Props
  | text value => { p with text := some value }
  | placeholder value => { p with placeholder := some value }
  | source value => { p with source := some value }
  | styleEntry key value => { p with style := p.style.insert key value }
  | shorthand which value => p.setShorthand which value
  | styleText raw =>
    match styleOfText? raw with
    | some style => { p with style := style }
    | none => p
  | child _ => p

def apply (node : Node) : Edit → Node
  | child c => { node with children := node.children ++ [c] }
  | edit => { node with props := edit.applyToProps node.props }

end Edit

/-- Edits one after the other. -/
def Node.edit (node : Node) (edits : List Edit) : Node := edits.foldl Edit.apply node

end AppExport.Component
