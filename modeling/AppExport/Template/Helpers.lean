/-
Helpers of the template language. Those on texts take their first argument, if it is a text, and
the empty text otherwise. The helpers for blocks are known too; without a block they show nothing.
-/
import AppExport.Json.Printer
import AppExport.Template.Fault
import AppExport.Template.Logic
import AppExport.Text.Lines
import AppExport.Text.Words

namespace AppExport.Template

open Json (Value)

abbrev Helper := List Value → Except TagFault (List Char)

mutual
/-- A value as it stands in a document. -/
def shown : Value → List Char
  | .null => []
  | .bool b => Json.boolChars b
  | .number n => n.chars
  | .text s => s.toList
  | .list items => '[' :: [',', ' '].intercalate (shownAll items) ++ [']']
  | .object _ => "[object]".toList

def shownAll : List Value → List (List Char)
  | [] => []
  | v :: rest => shown v :: shownAll rest
end

/-! ## Texts -/

def textArgument (position : Nat) (arguments : List Value) : Option String :=
  (arguments[position]?).bind Value.text?

/-- A function of a text as a helper. -/
def onText (f : String → String) : Helper := fun arguments =>
  .ok (f ((textArgument 0 arguments).getD "")).toList

/-- An item of a joined list: a text as it is, anything else as JSON. -/
def joined : Value → String
  | .text s => s
  | v => v.compact

/-- The items of a list with the second argument, or a comma and a space, between each two. -/
def join (arguments : List Value) : String :=
  match arguments with
  | .list items :: _ => ((textArgument 1 arguments).getD ", ").intercalate (items.map joined)
  | _ => ""

/-- The lines of a text, moved right by the second argument, or by two. -/
def indentBy (arguments : List Value) : String :=
  let width := match arguments with
    | _ :: .number (.integer i _ _) :: _ => if 0 ≤ i then i.toNat else 2
    | _ => 2
  Text.indent width ((textArgument 0 arguments).getD "")

def textHelpers : List (String × Helper) :=
  [("json", onText Text.quote), ("upper", onText Text.upper), ("lower", onText Text.lower),
   ("pascal_case", onText Text.pascalCase), ("camel_case", onText Text.camelCase),
   ("snake_case", onText Text.snakeCase), ("kebab_case", onText Text.kebabCase),
   ("join", fun arguments => .ok (join arguments).toList),
   ("indent", fun arguments => .ok (indentBy arguments).toList)]

/-! ## Questions about data -/

/-- An operand of a helper. -/
def operand (helper name : String) (position : Nat) (arguments : List Value) :
    Except TagFault Value :=
  match arguments[position]? with
  | some v => .ok v
  | none => .error (.missingOperand helper name)

/-- An operand that is a signed integer of 64 bits. -/
def integerOperand (helper name : String) (position : Nat) (arguments : List Value) :
    Except TagFault Int := do
  match ← operand helper name position arguments with
  | .number (.integer i _ _) =>
    if i < 0x8000_0000_0000_0000 then .ok i else .error (.notInteger helper name)
  | _ => .error (.notInteger helper name)

def onValue (name : String) (f : Value → List Char) : String × Helper :=
  (name, fun arguments => return f (← operand name "x" 0 arguments))

def onValues (name : String) (f : Value → Value → Bool) : String × Helper :=
  (name, fun arguments => do
    let x ← operand name "x" 0 arguments
    let y ← operand name "y" 1 arguments
    return Json.boolChars (f x y))

def onIntegers (name : String) (f : Int → Int → Bool) : String × Helper :=
  (name, fun arguments => do
    let x ← integerOperand name "x" 0 arguments
    let y ← integerOperand name "y" 1 arguments
    return Json.boolChars (f x y))

/-- The members of a list or an object, or the bytes of a text. -/
def extent : Value → Nat
  | .text s => s.utf8ByteSize
  | .list items => items.length
  | .object entries => entries.length
  | _ => 0

/-- The item of a list at a position, or the entry of an object under a key. -/
def memberAt? : (collection place : Value) → Option Value
  | .list items, .number (.integer i _ _) => if 0 ≤ i then items[i.toNat]? else none
  | .object entries, .text key => entries.lookup key
  | _, _ => none

def questionHelpers : List (String × Helper) :=
  [onValues "eq" same, onValues "ne" fun x y => !same x y,
   onIntegers "gt" fun x y => y < x, onIntegers "gte" fun x y => y ≤ x,
   onIntegers "lt" fun x y => x < y, onIntegers "lte" fun x y => x ≤ y,
   onValues "and" fun x y => holds x && holds y, onValues "or" fun x y => holds x || holds y,
   onValue "not" fun x => Json.boolChars !holds x,
   onValue "len" fun x => Decimal.digitChars (extent x),
   ("lookup", fun arguments =>
    match arguments with
    | [] => .error (.missingArgument "lookup" 0)
    | [_] => .error (.missingArgument "lookup" 1)
    | collection :: place :: _ => .ok (((memberAt? collection place).map shown).getD []))]

/-! ## Blocks -/

/-- Shows nothing, but wants an argument. -/
def withoutBlock (name : String) : Helper := fun arguments =>
  if arguments.isEmpty then .error (.missingArgument name 0) else .ok []

def blockHelpers : List (String × Helper) :=
  [("if", withoutBlock "if"), ("unless", withoutBlock "if"), ("each", withoutBlock "each"),
   ("with", withoutBlock "with"), ("raw", fun _ => .ok []), ("log", fun _ => .ok [])]

def helper? (name : String) : Option Helper :=
  (textHelpers ++ questionHelpers ++ blockHelpers).lookup name

end AppExport.Template
