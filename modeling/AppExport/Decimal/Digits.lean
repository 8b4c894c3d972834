/-
Integers written in decimal.
-/
namespace AppExport.Decimal

def isDigit (c : Char) : Bool := '0' ≤ c && c ≤ '9'

/-- The digits of a natural, the first one first. -/
def digitChars (n : Nat) : List Char := Nat.toDigits 10 n

def intChars (i : Int) : List Char :=
  if i < 0 then '-' :: digitChars i.natAbs else digitChars i.natAbs

/-- The natural that digits stand for. -/
def ofDigits (digits : List Char) : Nat := digits.foldl (fun n d => n * 10 + (d.toNat - 48)) 0

end AppExport.Decimal
