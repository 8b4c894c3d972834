/-
Finite binary64 numbers, by the position of their magnitude in the ascending list of all
magnitudes. Position 0 is zero, and a position `p` below `2^53` is `p` least units (a least unit
is `2^-1074`); from there on each block of `2^52` positions has a unit twice as large.

`nearest?` rounds a quotient of naturals, counted in least units, to the nearest position, ties to
an even one; it has no answer from half a unit past the last position on.
-/
namespace AppExport.Decimal

/-- The positions of one block, `2^52`. -/
def Binary64.block : Nat := 0x10_0000_0000_0000

/-- The number of positions. -/
def Binary64.positions : Nat := 2047 * block

structure Binary64 where
  negative : Bool
  position : Nat
  position_lt : position < Binary64.positions
deriving DecidableEq, Repr

/-- `num / den` to the nearest natural, a half to the even neighbour. -/
def roundQuotient (num den : Nat) : Nat :=
  let q := num / den
  let r := num % den
  if 2 * r < den then q
  else if den < 2 * r then q + 1
  else q + q % 2

namespace Binary64

/-- How often the unit of a position is doubled from the least one. -/
def doublings (position : Nat) : Nat := position / block - 1

/-- The number of units a position stands for. -/
def units (position : Nat) : Nat := position - block * doublings position

/-- The magnitude in least units. -/
def scaled (x : Binary64) : Nat := units x.position <<< doublings x.position

/-- The position nearest to `num / den` least units. -/
def nearestPosition (num den : Nat) : Nat :=
  let doubled := Nat.log2 (num / den) - 52
  block * doubled + roundQuotient num (den <<< doubled)

def nearest? (negative : Bool) (num den : Nat) : Option Binary64 :=
  if h : nearestPosition num den < positions then some ⟨negative, nearestPosition num den, h⟩
  else none

/-- Least units in one. -/
def one : Nat := 1 <<< 1074

def zero (negative : Bool) : Binary64 := ⟨negative, 0, by decide⟩

def isZero (x : Binary64) : Bool := x.position == 0

/-- The number nearest to a natural. -/
def ofNat? (n : Nat) : Option Binary64 := nearest? false (one * n) 1

def negate (x : Binary64) : Binary64 := { x with negative := !x.negative }

/-- The rounded product; none past the largest number. -/
def mul? (x y : Binary64) : Option Binary64 :=
  nearest? (x.negative != y.negative) (x.scaled * y.scaled) one

/-- The rounded quotient; none past the largest number. -/
def div? (x y : Binary64) : Option Binary64 :=
  nearest? (x.negative != y.negative) (one * x.scaled) y.scaled

/-- `digits * 10^exponent` correctly rounded. A power of ten is above the same power of eight, which
settles exponents that are far too low, and no number reaches `10^309`. -/
def ofDecimal? (negative : Bool) (digits : Nat) (exponent : Int) : Option Binary64 :=
  if digits = 0 ∨ Nat.log2 digits + 1080 < 3 * (-exponent).toNat then some (.zero negative)
  else if 309 ≤ exponent then none
  else
    nearest? negative (one * (digits * Nat.pow 10 exponent.toNat))
      (Nat.pow 10 (-exponent).toNat)

/-- The integer a number is equal to, if its magnitude is below `2^53` and it is one. -/
def toInt? (x : Binary64) : Option Int :=
  if x.scaled % one = 0 ∧ x.scaled / one < 2 * block then
    some (if x.negative then -(x.scaled / one : Nat) else (x.scaled / one : Nat))
  else none

end Binary64
end AppExport.Decimal
