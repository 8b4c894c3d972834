/-
JSON values. Objects keep their entries in order. Integers are those of 64 bits, signed or
unsigned; every other number is a binary64 one.
-/
import AppExport.Decimal.Binary64

namespace AppExport.Json

open Decimal (Binary64)

/-- The least signed integer of 64 bits. -/
def Number.least : Int := -0x8000_0000_0000_0000

/-- The greatest unsigned integer of 64 bits. -/
def Number.greatest : Int := 0xFFFF_FFFF_FFFF_FFFF

inductive Number where
  | integer (value : Int) (lower : Number.least ≤ value) (upper : value ≤ Number.greatest)
  | float (value : Binary64)
deriving DecidableEq, Repr

inductive Value where
  | null
  | bool (b : Bool)
  | number (n : Number)
  | text (s : String)
  | list (items : List Value)
  | object (entries : List (String × Value))
deriving Repr

namespace Number

def ofUInt64 (n : UInt64) : Number :=
  .integer n.toNat (by unfold least; omega) (by have := n.toNat_lt; unfold greatest; omega)

def ofUInt32 (n : UInt32) : Number :=
  .integer n.toNat (by unfold least; omega) (by have := n.toNat_lt; unfold greatest; omega)

end Number

namespace Value

def isNull : Value → Bool
  | null => true
  | _ => false

def isNumber : Value → Bool
  | number _ => true
  | _ => false

def text? : Value → Option String
  | text s => some s
  | _ => none

def ofUInt32 (n : UInt32) : Value := number (.ofUInt32 n)

end Value

end AppExport.Json
