/-
Styles as object literals of the generated source. Values are JSON texts, except that a binary64
number that is an integer below `2^53` is written as one (`20`, not `20.0`); keys that are
identifiers stand bare.
-/
import AppExport.Component.Props
import AppExport.Json.Printer

namespace AppExport.Json

open Text (quoteChars)

def Number.literalChars : Number → List Char
  | .integer i _ _ => Decimal.intChars i
  | .float x =>
    match x.toInt? with
    | some i => Decimal.intChars i
    | none => x.chars

namespace Value

mutual
def literalChars : Value → List Char
  | null => "null".toList
  | bool b => boolChars b
  | number n => n.literalChars
  | text s => quoteChars s.toList
  | list items => '[' :: commaSeparated (itemLiterals items) ++ [']']
  | object entries => '\x7b' :: commaSeparated (entryLiterals entries) ++ ['\x7d']

def itemLiterals : List Value → List (List Char)
  | [] => []
  | v :: rest => v.literalChars :: itemLiterals rest

def entryLiterals : List (String × Value) → List (List Char)
  | [] => []
  | (key, v) :: rest => (quoteChars key.toList ++ ':' :: v.literalChars) :: entryLiterals rest
end

/-- The value as a literal of the generated source. -/
def literal (v : Value) : String := String.ofList v.literalChars

end Value
end AppExport.Json

namespace AppExport.Markup

open Component (Style)
open Text (quoteChars)

def isIdentifierStart (c : Char) : Bool :=
  ('a' ≤ c && c ≤ 'z') || ('A' ≤ c && c ≤ 'Z') || c == '_' || c == '$'

def isIdentifier : List Char → Bool
  | [] => false
  | c :: rest =>
    isIdentifierStart c && rest.all fun c => isIdentifierStart c || ('0' ≤ c && c ≤ '9')

def keyChars (key : List Char) : List Char :=
  if isIdentifier key then key else quoteChars key

def objectKey (key : String) : String := String.ofList (keyChars key.toList)

def styleEntryChars (entry : String × Json.Value) : List Char :=
  keyChars entry.1.toList ++ ':' :: ' ' :: entry.2.literalChars

def styleObject (style : Style) : String :=
  String.ofList <|
    '\x7b' :: [',', ' '].intercalate (style.entries.map styleEntryChars) ++ ['\x7d']

end AppExport.Markup
