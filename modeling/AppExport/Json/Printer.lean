/-
JSON text of values. `compact` writes no blanks; `pretty` gives every item and entry a line of its
own, two spaces deeper than its list or object, and leaves empty lists and objects on one line.
-/
import AppExport.Decimal.Notation
import AppExport.Json.Value
import AppExport.Text.Quoted

namespace AppExport.Json

open Decimal (intChars)
open Text (quoteChars)

def Number.chars : Number → List Char
  | .integer i _ _ => intChars i
  | .float x => x.chars

def boolChars (b : Bool) : List Char := if b then "true".toList else "false".toList

/-- The items with a comma between each two. -/
def commaSeparated : List (List Char) → List Char
  | [] => []
  | [item] => item
  | item :: rest => item ++ ',' :: commaSeparated rest

namespace Value

mutual
def chars : Value → List Char
  | null => "null".toList
  | bool b => boolChars b
  | number n => n.chars
  | text s => quoteChars s.toList
  | list items => '[' :: commaSeparated (itemsChars items) ++ [']']
  | object entries => '\x7b' :: commaSeparated (entriesChars entries) ++ ['\x7d']

def itemsChars : List Value → List (List Char)
  | [] => []
  | v :: rest => v.chars :: itemsChars rest

def entriesChars : List (String × Value) → List (List Char)
  | [] => []
  | (key, v) :: rest => (quoteChars key.toList ++ ':' :: v.chars) :: entriesChars rest
end

def compact (v : Value) : String := String.ofList v.chars

/-- A line break and the margin of a depth. -/
def newLine (depth : Nat) : List Char := '\n' :: List.replicate (2 * depth) ' '

/-- Lines of one depth, commas behind all but the last, between brackets. -/
def bracketed (opening closing : Char) (depth : Nat) (lines : List (List Char)) : List Char :=
  match lines with
  | [] => [opening, closing]
  | _ =>
    opening :: commaSeparated (lines.map (newLine (depth + 1) ++ ·)) ++ newLine depth ++ [closing]

mutual
def prettyChars (depth : Nat) : Value → List Char
  | null => "null".toList
  | bool b => boolChars b
  | number n => n.chars
  | text s => quoteChars s.toList
  | list items => bracketed '[' ']' depth (prettyItems (depth + 1) items)
  | object entries => bracketed '\x7b' '\x7d' depth (prettyEntries (depth + 1) entries)

def prettyItems (depth : Nat) : List Value → List (List Char)
  | [] => []
  | v :: rest => prettyChars depth v :: prettyItems depth rest

def prettyEntries (depth : Nat) : List (String × Value) → List (List Char)
  | [] => []
  | (key, v) :: rest =>
    (quoteChars key.toList ++ ':' :: ' ' :: prettyChars depth v) :: prettyEntries depth rest
end

def pretty (v : Value) : String := String.ofList (prettyChars 0 v)

end Value
end AppExport.Json
