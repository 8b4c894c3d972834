/-
Style values. Any JSON value is tried as one of six shapes after the other and stands as the first that
takes it. A list or a map takes a value whose items or entries are style values themselves.
-/
import AppExport.Json.Typed

namespace AppExport.Component

open Json (Decoder Entries Value)

/-- The shapes of a style value, in the order in which they are tried. -/
inductive Shape where
  | null
  | bool
  | number
  | text
  | list
  | map
deriving DecidableEq, Repr

namespace Shape

def all : List Shape := [null, bool, number, text, list, map]

/-- A value as a shape takes it. `items` and `entries` are the style values in it, if they all are. -/
def take? (items : Option (List Value)) (entries : Option Entries) : Shape → Value → Option Value
  | null, .null => some .null
  | bool, .bool b => some (.bool b)
  | number, .number n => some (.number n)
  | text, .text s => some (.text s)
  | list, .list _ => items.map .list
  | map, .object _ => entries.map .object
  | _, _ => none

/-- A value as the first shape takes it that does. -/
def firstTake? (items : Option (List Value)) (entries : Option Entries) (v : Value) : Option Value :=
  all.findSome? fun shape => shape.take? items entries v

end Shape

mutual
/-- The style value of a JSON value. -/
def styleValue? : Value → Option Value
  | .list items => Shape.firstTake? (styleValues? items) none (.list items)
  | .object entries => Shape.firstTake? none (styleEntries? entries) (.object entries)
  | v => Shape.firstTake? none none v

def styleValues? : List Value → Option (List Value)
  | [] => some []
  | v :: rest => do
    let v ← styleValue? v
    return v :: (← styleValues? rest)

def styleEntries? : List (String × Value) → Option (List (String × Value))
  | [] => some []
  | (key, v) :: rest => do
    let v ← styleValue? v
    return (key, v) :: (← styleEntries? rest)
end

def styleValue : Decoder Value := fun room c => do
  let (v, c) ← Json.value room c
  match styleValue? v with
  | some v => .ok (v, c)
  | none => .error (c.fault (.noShape "StyleValue"))

end AppExport.Component
