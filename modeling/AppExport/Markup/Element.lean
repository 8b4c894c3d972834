/-
Elements of the generated markup and their lines. An element without content closes itself, one
with a text stands on one line with it, and one with children has them on lines of their own
between its opening and its closing line, one step of two spaces deeper.
-/
import AppExport.Text.Quoted

namespace AppExport.Markup

open Text (quote quoteChars)

inductive AttributeValue where
  /-- Written as a quoted text. -/
  | literal (text : String)
  /-- Written as it is, in braces. -/
  | expression (source : String)
deriving DecidableEq, Repr

structure Attribute where
  name : String
  value : AttributeValue
deriving DecidableEq, Repr

/-- What an element's opening tag says. -/
structure Head where
  tag : String
  attributes : List Attribute
deriving DecidableEq, Repr

inductive Element where
  | empty (head : Head)
  | text (head : Head) (content : String)
  | group (head : Head) (children : List Element)
deriving Repr

/-- One step of indentation. -/
def indentStep : String := "  "

def margin (level : Nat) : List Char := (List.replicate level indentStep.toList).flatten

def AttributeValue.chars : AttributeValue → List Char
  | literal text => quoteChars text.toList
  | expression source => '\x7b' :: source.toList ++ ['\x7d']

def Attribute.chars (a : Attribute) : List Char := ' ' :: a.name.toList ++ '=' :: a.value.chars

namespace Head

/-- The tag and its attributes. -/
def chars (h : Head) : List Char := h.tag.toList ++ h.attributes.flatMap Attribute.chars

def opening (level : Nat) (h : Head) : List Char := margin level ++ '<' :: h.chars ++ ['>']

def closing (level : Nat) (h : Head) : List Char :=
  margin level ++ '<' :: '/' :: h.tag.toList ++ ['>']

def selfClosing (level : Nat) (h : Head) : List Char :=
  margin level ++ '<' :: h.chars ++ [' ', '/', '>']

/-- A text between the opening and the closing tag. -/
def around (level : Nat) (h : Head) (content : String) : List Char :=
  h.opening level ++ '\x7b' :: quoteChars content.toList ++ '\x7d' :: h.closing 0

end Head

namespace Element

mutual
def lines (level : Nat) : Element → List (List Char)
  | empty h => [h.selfClosing level]
  | text h content => [h.around level content]
  | group h [] => [h.selfClosing level]
  | group h (child :: rest) =>
    h.opening level :: linesAll (level + 1) (child :: rest) ++ [h.closing level]

def linesAll (level : Nat) : List Element → List (List Char)
  | [] => []
  | e :: rest => lines level e ++ linesAll level rest
end

def head : Element → Head
  | empty h => h
  | text h _ => h
  | group h _ => h

end Element

/-- Elements one after the other, the outermost ones at a level. -/
def print (elements : List Element) (level : Nat) : String :=
  String.ofList (['\n'].intercalate (Element.linesAll level elements))

end AppExport.Markup
