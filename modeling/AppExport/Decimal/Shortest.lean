/-
The shortest decimal that reads back as a given binary64 number.

A decimal reads back if it lies between the middles of the gaps to the two neighbouring numbers,
ends included when the position is even. Grids of one, two, … significant digits are tried in turn;
on each only the two points next to the number can be hits, and the nearer of two hits is taken,
an exact tie going to the even digit.
-/
import AppExport.Decimal.Binary64

namespace AppExport.Decimal

/-- `digits * 10^exponent`. -/
structure Shortest where
  digits : Nat
  exponent : Int
deriving DecidableEq, Repr

namespace Binary64

/-- Half the gap to the number below, in quarters of a least unit. The gap is the narrower one of
the block below where a block begins. -/
def lowerQuarters (x : Binary64) : Nat :=
  let unit := 1 <<< doublings x.position
  if units x.position = block ∧ 0 < doublings x.position then unit else 2 * unit

/-- Half the gap to the number above, in quarters of a least unit. -/
def upperQuarters (x : Binary64) : Nat := 2 <<< doublings x.position

/-- Quarters of a least unit against points of the grid `10^exponent`: `q` quarters are
`q * num / den` grid steps. -/
def gridRatio (exponent : Int) : Nat × Nat :=
  (Nat.pow 10 (-exponent).toNat, 4 * one * Nat.pow 10 exponent.toNat)

/-- Whether the grid point `digits * 10^exponent` reads back as the magnitude of `x`. -/
def readsBack (x : Binary64) (digits : Nat) (exponent : Int) : Bool :=
  let (num, den) := gridRatio exponent
  let low := (4 * x.scaled - x.lowerQuarters) * num
  let high := (4 * x.scaled + x.upperQuarters) * num
  let point := digits * den
  if x.position % 2 = 0 then low ≤ point && point ≤ high else low < point && point < high

/-- The best point of the grid `10^exponent`, if one reads back. -/
def onGrid? (x : Binary64) (exponent : Int) : Option Shortest :=
  let (num, den) := gridRatio exponent
  let value := 4 * x.scaled * num
  let below := value / den
  match x.readsBack below exponent, x.readsBack (below + 1) exponent with
  | true, true =>
    if 2 * value < (2 * below + 1) * den then some ⟨below, exponent⟩
    else if (2 * below + 1) * den < 2 * value then some ⟨below + 1, exponent⟩
    else some ⟨below + below % 2, exponent⟩
  | true, false => some ⟨below, exponent⟩
  | false, true => some ⟨below + 1, exponent⟩
  | false, false => none

/-- Whether the magnitude is `10^exponent` or more. -/
def reaches (x : Binary64) (exponent : Int) : Bool :=
  Nat.pow 10 exponent.toNat * one ≤ x.scaled * Nat.pow 10 (-exponent).toNat

/-- The exponent of the leading decimal digit of a number other than zero. -/
def leading (x : Binary64) : Int :=
  let bits : Int := (Nat.log2 x.scaled : Int) - 1074
  let guess := Int.fdiv (bits * 30103) 100000
  if x.reaches (guess + 1) then guess + 1
  else if x.reaches guess then guess
  else guess - 1

end Binary64

/-- Zeros at the end of the digits move into the exponent; the count bounds their number. -/
def Shortest.trim (count : Nat) (s : Shortest) : Shortest :=
  match count with
  | 0 => s
  | n + 1 => if s.digits % 10 = 0 then Shortest.trim n ⟨s.digits / 10, s.exponent + 1⟩ else s

/-- Seventeen digits suffice for every number; past them stands the exact value. -/
def Binary64.shortest (x : Binary64) : Shortest :=
  if x.isZero then ⟨0, 0⟩
  else
    let grids := (List.range 17).map fun n : Nat => x.leading - n
    match grids.findSome? x.onGrid? with
    | some s => s.trim 17
    | none => ⟨x.scaled * Nat.pow 5 1074, -1074⟩

end AppExport.Decimal
