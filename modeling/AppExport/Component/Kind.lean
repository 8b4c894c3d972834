/-
Kinds of component. Each has a canonical name, and some have further names under which an editor
offers them; any other name is a kind of its own.
-/
namespace AppExport.Component

inductive Kind where
  | container
  | text
  | button
  | textInput
  | image
  | scrollArea
  | pressable
  | header
  | footer
  | card
  | toggle
  | slider
  | icon
  | other (name : String)
deriving DecidableEq, Repr

namespace Kind

def name : Kind → String
  | container => "container"
  | text => "text"
  | button => "button"
  | textInput => "text-input"
  | image => "image"
  | scrollArea => "scrollable-container"
  | pressable => "pressable"
  | header => "header"
  | footer => "footer"
  | card => "card"
  | toggle => "toggle"
  | slider => "slider"
  | icon => "icon"
  | other name => name

def ofName : String → Kind
  | "container" | "Container" | "View" => container
  | "text" | "Text" => text
  | "button" | "Button" => button
  | "text-input" | "TextInput" => textInput
  | "image" | "Image" => image
  | "scrollable-container" | "ScrollContainer" | "ScrollView" => scrollArea
  | "pressable" | "Pressable" | "TouchableOpacity" => pressable
  | "header" | "Header" => header
  | "footer" | "Footer" => footer
  | "card" | "Card" => card
  | "toggle" | "Switch" => toggle
  | "slider" | "Slider" => slider
  | "icon" | "Icon" => icon
  | name => other name

def isOther : Kind → Bool
  | other _ => true
  | _ => false

end Kind
end AppExport.Component
