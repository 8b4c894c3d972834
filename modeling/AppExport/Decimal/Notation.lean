/-
How a binary64 number is written: with its shortest digits, positionally when the leading digit
has an exponent from -5 to 15 and then always with a fraction (`20.0`, `0.00001`), otherwise with
a signed exponent (`1e-6`, `1.5e+300`).
-/
import AppExport.Decimal.Digits
import AppExport.Decimal.Shortest

namespace AppExport.Decimal

/-- `digits` with a point behind the digit of exponent zero, the first digit having exponent
`leading`. -/
def positional (digits : List Char) (leading : Int) : List Char :=
  if leading < 0 then
    '0' :: '.' :: List.replicate (-leading - 1).toNat '0' ++ digits
  else
    let whole := (leading + 1).toNat
    if digits.length ≤ whole then
      digits ++ List.replicate (whole - digits.length) '0' ++ ['.', '0']
    else digits.take whole ++ '.' :: digits.drop whole

def scientific (digits : List Char) (leading : Int) : List Char :=
  let mantissa := match digits with
    | [] => []
    | [d] => [d]
    | d :: ds => d :: '.' :: ds
  let sign := if leading < 0 then '-' else '+'
  mantissa ++ 'e' :: sign :: digitChars leading.natAbs

def Binary64.chars (x : Binary64) : List Char :=
  let s := x.shortest
  let digits := digitChars s.digits
  let leading := s.exponent + digits.length - 1
  let magnitude :=
    if x.isZero then ['0', '.', '0']
    else if -5 ≤ leading ∧ leading ≤ 15 then positional digits leading
    else scientific digits leading
  if x.negative then '-' :: magnitude else magnitude

end AppExport.Decimal
