/-
Components as elements. The resolved style comes first, then the placeholder of a text input or the
source of an image. Children hide a node's text, and only some primitives show one.
-/
import AppExport.Component.Node
import AppExport.Markup.Element
import AppExport.Markup.Primitive
import AppExport.Markup.StyleObject

namespace AppExport.Markup

open Component (Forest Kind Node Props)

def styleAttribute (p : Props) : List Attribute :=
  if p.resolvedStyle.isEmpty then []
  else [⟨"style", .expression (styleObject p.resolvedStyle)⟩]

/-- The attribute that shows a kind's own content. -/
def contentAttribute (kind : Kind) (p : Props) : List Attribute :=
  match kind, p.placeholder, p.source with
  | .textInput, some s, _ => [⟨"placeholder", .literal s⟩]
  | .image, _, some s => [⟨"source", .expression ("\x7buri: " ++ Text.quote s ++ "\x7d")⟩]
  | _, _, _ => []

def headOf (kind : Kind) (p : Props) : Head where
  tag := (Mapping.ofKind kind).primitive.tag
  attributes := styleAttribute p ++ contentAttribute kind p

/-- A node without children. -/
def lowerLeaf (kind : Kind) (p : Props) : Element :=
  match p.text with
  | some s =>
    if (Mapping.ofKind kind).acceptsText then .text (headOf kind p) s else .empty (headOf kind p)
  | none => .empty (headOf kind p)

mutual
def lowerNode : Node → Element
  | ⟨_, kind, props, [], _, _⟩ => lowerLeaf kind props
  | ⟨_, kind, props, child :: rest, _, _⟩ => .group (headOf kind props) (lowerAll (child :: rest))

def lowerAll : List Node → List Element
  | [] => []
  | node :: rest => lowerNode node :: lowerAll rest
end

def lower (forest : Forest) : List Element := lowerAll forest

end AppExport.Markup
