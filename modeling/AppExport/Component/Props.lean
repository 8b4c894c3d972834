/-
Properties of a component: its content, a nested style, six shorthands that double as style
entries, and whatever else an editor has stored.
-/
import AppExport.Json.Members

namespace AppExport.Component

open Json (Members Value)

/-- Style keys with their values, in order. -/
abbrev Style := Members

inductive Shorthand where
  | backgroundColor
  | color
  | fontSize
  | padding
  | margin
  | borderRadius
deriving DecidableEq, Repr

namespace Shorthand

/-- All shorthands, in the order in which they join a style. -/
def all : List Shorthand := [backgroundColor, color, fontSize, padding, margin, borderRadius]

/-- The style key that a shorthand sets. -/
def key : Shorthand → String
  | backgroundColor => "backgroundColor"
  | color => "color"
  | fontSize => "fontSize"
  | padding => "padding"
  | margin => "margin"
  | borderRadius => "borderRadius"

def ofKey? (key : String) : Option Shorthand := all.find? (·.key == key)

end Shorthand

structure Props where
  text : Option String
  placeholder : Option String
  source : Option String
  url : Option String
  onPress : Option String
  color : Option Value
  backgroundColor : Option Value
  fontSize : Option Value
  borderRadius : Option Value
  padding : Option Value
  margin : Option Value
  style : Style
  extra : Members
deriving Repr

namespace Props

def empty : Props :=
  ⟨none, none, none, none, none, none, none, none, none, none, none, .empty, .empty⟩

/-- What is stored for a shorthand. -/
def stored (p : Props) : Shorthand → Option Value
  | .backgroundColor => p.backgroundColor
  | .color => p.color
  | .fontSize => p.fontSize
  | .padding => p.padding
  | .margin => p.margin
  | .borderRadius => p.borderRadius

/-- The value of a shorthand; null counts as none. -/
def shorthand? (p : Props) (s : Shorthand) : Option Value := (p.stored s).filter (!·.isNull)

def setShorthand (p : Props) (s : Shorthand) (value : Value) : Props :=
  match s with
  | .backgroundColor => { p with backgroundColor := some value }
  | .color => { p with color := some value }
  | .fontSize => { p with fontSize := some value }
  | .padding => { p with padding := some value }
  | .margin => { p with margin := some value }
  | .borderRadius => { p with borderRadius := some value }

/-- The nested style with the shorthands on top. -/
def resolvedStyle (p : Props) : Style :=
  Shorthand.all.foldl
    (fun style s => match p.shorthand? s with
      | some value => style.insert s.key value
      | none => style)
    p.style

end Props
end AppExport.Component
